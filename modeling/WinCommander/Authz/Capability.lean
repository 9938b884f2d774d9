import Mathlib
import WinCommander.Library.Run
import WinCommander.Library.Outcome
import WinCommander.Library.AsciiText

/-!
# Capabilities for destructive actions

A token is minted for an action and its canonical arguments when the action is confirmed, and taken
from the store when it is presented.
-/

namespace Authz

open Outcome

section Tokens

inductive DestructiveAction where
  | selfDestruct
  | removeUsers
  | cryptoErase
  | fleetReenroll
  | diskDelete
  | decoyDelete
  | killSwitch
  deriving DecidableEq

/-- How long a token is good, in nanoseconds. -/
def ttl : ℕ := 60 * 10 ^ 9

structure Minted (Digest : Type) where
  action : DestructiveAction
  argsHash : Digest
  mintedAt : ℕ

/-- What happened to the tokens, with the arguments that only their hash is kept of. -/
inductive Happening where
  | minted (token : String) (action : DestructiveAction) (argsCanonical : String) (time : ℕ)
  | presented (token : String)
  deriving DecidableEq

structure Store (Digest : Type) where
  now : ℕ
  tokens : String → Option (Minted Digest)
  history : List Happening

variable {Digest : Type} [DecidableEq Digest] (hashArgs : String → Digest)

def Store.start : Store Digest := ⟨0, fun _ => none, []⟩

/-- Old tokens go when a new one is stored. -/
def Store.retain (s : Store Digest) : String → Option (Minted Digest) := fun token =>
  (s.tokens token).filter fun m => s.now - m.mintedAt < ttl

def mint (token : String) (action : DestructiveAction) (argsCanonical : String)
    (s : Store Digest) : Store Digest :=
  { s with
    tokens := Function.update s.retain token (some ⟨action, hashArgs argsCanonical, s.now⟩)
    history := .minted token action argsCanonical s.now :: s.history }

def Store.present (s : Store Digest) (token : Option String) : Store Digest :=
  { s with history := token.toList.map .presented ++ s.history }

/-- What a token that was in the store is good for. -/
def redeem (now : ℕ) (m : Minted Digest) (action : DestructiveAction) (argsCanonical : String) :
    Except String Unit := do
  refuseIf (ttl ≤ now - m.mintedAt) "confirmation expired — please re-confirm"
  refuseIf (m.action ≠ action) "confirmation does not match this action"
  refuseIf (m.argsHash ≠ hashArgs argsCanonical) "confirmation does not match this request"

def consume (token : String) (action : DestructiveAction) (argsCanonical : String)
    (s : Store Digest) : Except String Unit × Store Digest :=
  match s.tokens token with
  | none => (.error "confirmation required (no valid capability)", s)
  | some m =>
      (redeem hashArgs s.now m action argsCanonical,
        { s with tokens := Function.update s.tokens token none })

def Blank (token : String) : Prop := AsciiText.trim token = ""

instance (token : String) : Decidable (Blank token) :=
  inferInstanceAs (Decidable (AsciiText.trim token = ""))

def consumeRequired (token : Option String) (action : DestructiveAction) (argsCanonical : String)
    (s : Store Digest) : Except String Unit × Store Digest :=
  match token.filter fun value => ¬ Blank value with
  | none => (.error "confirmation required (capability missing)", s)
  | some token => consume hashArgs token action argsCanonical s

end Tokens

section Records

variable {Digest : Type} {hashArgs : String → Digest} {s : Store Digest}
  {action : DestructiveAction} {argsCanonical : String}

/-- A token in the store opens an action with its arguments. -/
def Opens (hashArgs : String → Digest) (s : Store Digest) (token : String)
    (action : DestructiveAction) (argsCanonical : String) : Prop :=
  ∃ m, s.tokens token = some m ∧ s.now - m.mintedAt < ttl ∧ m.action = action ∧
    m.argsHash = hashArgs argsCanonical

/-- Each token in the store was minted as it stands there, and once; no token is blank. -/
structure Recorded (hashArgs : String → Digest) (s : Store Digest) : Prop where
  minted : ∀ token m, s.tokens token = some m → ∃ argsCanonical,
    m.argsHash = hashArgs argsCanonical ∧
      .minted token m.action argsCanonical m.mintedAt ∈ s.history
  named : ∀ token action argsCanonical time,
    .minted token action argsCanonical time ∈ s.history → ¬ Blank token
  once : ∀ token action argsCanonical time action' argsCanonical' time',
    .minted token action argsCanonical time ∈ s.history →
    .minted token action' argsCanonical' time' ∈ s.history →
      action = action' ∧ argsCanonical = argsCanonical' ∧ time = time'

/-- A token that is neither blank nor known. -/
structure FreshToken (s : Store Digest) (token : String) : Prop where
  named : ¬ Blank token
  unminted : ∀ action argsCanonical time, .minted token action argsCanonical time ∉ s.history
  unpresented : .presented token ∉ s.history

/-- A presented token is not in the store. -/
def Spent (s : Store Digest) : Prop :=
  ∀ token, .presented token ∈ s.history → s.tokens token = none

/-- Some tokens were taken out. -/
structure Shrinks (s s' : Store Digest) : Prop where
  now : s'.now = s.now
  history : s'.history = s.history
  tokens : ∀ token, s'.tokens token = s.tokens token ∨ s'.tokens token = none

theorem Shrinks.refl (s : Store Digest) : Shrinks s s := ⟨rfl, rfl, fun _ => .inl rfl⟩

theorem Recorded.shrinks {s' : Store Digest} (h : Recorded hashArgs s) (hs : Shrinks s s') :
    Recorded hashArgs s' where
  minted := by
    intro token m hm
    rw [hs.history]
    rcases hs.tokens token with hsame | hnone
    · exact h.minted token m (hsame.symm.trans hm)
    · rw [hnone] at hm
      cases hm
  named := by
    rw [hs.history]
    exact h.named
  once := by
    rw [hs.history]
    exact h.once

theorem Recorded.not_blank {token : String} {m : Minted Digest} (h : Recorded hashArgs s)
    (hm : s.tokens token = some m) : ¬ Blank token := by
  obtain ⟨args, _, hminted⟩ := h.minted token m hm
  exact h.named token _ _ _ hminted

theorem mem_present {token : Option String} {happening : Happening} :
    happening ∈ (s.present token).history ↔
      (∃ t, token = some t ∧ happening = .presented t) ∨ happening ∈ s.history := by
  cases token <;> simp [Store.present]

theorem minted_mem_present {token : Option String} {t : String} {time : ℕ} :
    .minted t action argsCanonical time ∈ (s.present token).history ↔
      .minted t action argsCanonical time ∈ s.history := by
  simp [mem_present]

theorem Recorded.present (h : Recorded hashArgs s) (token : Option String) :
    Recorded hashArgs (s.present token) where
  minted := by
    intro t m hm
    obtain ⟨args, hhash, hminted⟩ := h.minted t m hm
    exact ⟨args, hhash, minted_mem_present.mpr hminted⟩
  named := by
    intro t action args time hminted
    exact h.named t action args time (minted_mem_present.mp hminted)
  once := by
    intro t action args time action' args' time' h₁ h₂
    exact h.once t action args time action' args' time' (minted_mem_present.mp h₁)
      (minted_mem_present.mp h₂)

theorem Recorded.mint {token : String} (h : Recorded hashArgs s) (hfresh : FreshToken s token) :
    Recorded hashArgs (mint hashArgs token action argsCanonical s) where
  minted := by
    intro t m hm
    by_cases ht : t = token
    · subst ht
      have hm' : ⟨action, hashArgs argsCanonical, s.now⟩ = m :=
        Option.some.inj ((Function.update_self t _ s.retain).symm.trans hm)
      rw [← hm']
      exact ⟨argsCanonical, rfl, List.mem_cons_self⟩
    · have hretained : s.retain t = some m := (Function.update_of_ne ht ..).symm.trans hm
      obtain ⟨args, hhash, hminted⟩ := h.minted t m (Option.filter_eq_some_iff.mp hretained).1
      exact ⟨args, hhash, List.mem_cons_of_mem _ hminted⟩
  named := by
    intro t action' args time hminted
    rcases List.mem_cons.mp hminted with heq | hold
    · cases heq
      exact hfresh.named
    · exact h.named t action' args time hold
  once := by
    intro t a args time a' args' time' h₁ h₂
    rcases List.mem_cons.mp h₁ with heq₁ | hold₁
    · cases heq₁
      rcases List.mem_cons.mp h₂ with heq₂ | hold₂
      · cases heq₂
        exact ⟨rfl, rfl, rfl⟩
      · exact (hfresh.unminted _ _ _ hold₂).elim
    · rcases List.mem_cons.mp h₂ with heq₂ | hold₂
      · cases heq₂
        exact (hfresh.unminted _ _ _ hold₁).elim
      · exact h.once t a args time a' args' time' hold₁ hold₂

theorem Spent.mint {token : String} (h : Spent s) (hfresh : FreshToken s token) :
    Spent (mint hashArgs token action argsCanonical s) := by
  intro t hpresented
  have hold : .presented t ∈ s.history := by simpa [Authz.mint] using hpresented
  have hne : t ≠ token := by
    rintro rfl
    exact hfresh.unpresented hold
  have hretained : s.retain t = none := by simp [Store.retain, h t hold]
  exact (Function.update_of_ne hne ..).trans hretained

theorem Spent.shrinks {s' : Store Digest} (h : Spent s) (hs : Shrinks s s') : Spent s' := by
  intro token hpresented
  rw [hs.history] at hpresented
  rcases hs.tokens token with hsame | hnone
  · rw [hsame, h token hpresented]
  · exact hnone

theorem start_recorded : Recorded hashArgs .start :=
  ⟨fun _ _ h => absurd h (by simp [Store.start]), fun _ _ _ _ h => absurd h (by simp [Store.start]),
    fun _ _ _ _ _ _ _ h => absurd h (by simp [Store.start])⟩

theorem start_spent : Spent (.start : Store Digest) := fun _ h => absurd h (by simp [Store.start])

end Records

section Consumption

variable {Digest : Type} [DecidableEq Digest] {hashArgs : String → Digest} {s : Store Digest}
  {action : DestructiveAction} {argsCanonical : String}

theorem redeem_ok {now : ℕ} {m : Minted Digest} :
    redeem hashArgs now m action argsCanonical = .ok () ↔
      now - m.mintedAt < ttl ∧ m.action = action ∧ m.argsHash = hashArgs argsCanonical := by
  simp only [redeem, bind_ok, refuseIf_ok]
  simp only [exists_const, not_le, not_not]

theorem consume_shrinks (token : String) :
    Shrinks s (consume hashArgs token action argsCanonical s).2 := by
  rw [consume]
  cases s.tokens token with
  | none => exact .refl s
  | some m =>
    refine ⟨rfl, rfl, fun t => ?_⟩
    by_cases ht : t = token
    · rw [ht]
      exact Or.inr (Function.update_self ..)
    · exact Or.inl (Function.update_of_ne ht ..)

/-- Whatever comes of it, the token is not in the store afterwards. -/
theorem consume_taken (token : String) :
    (consume hashArgs token action argsCanonical s).2.tokens token = none := by
  rw [consume]
  cases htoken : s.tokens token with
  | none => exact htoken
  | some m => exact Function.update_self ..

theorem consume_ok {token : String} :
    (consume hashArgs token action argsCanonical s).1 = .ok () ↔
      Opens hashArgs s token action argsCanonical := by
  rw [consume, Opens]
  cases s.tokens token with
  | none => simp
  | some m => simp [redeem_ok]

theorem consumeRequired_some {token : String} (hnamed : ¬ Blank token) :
    consumeRequired hashArgs (some token) action argsCanonical s =
      consume hashArgs token action argsCanonical s := by
  simp [consumeRequired, Option.filter, hnamed]

theorem consumeRequired_shrinks (token : Option String) :
    Shrinks s (consumeRequired hashArgs token action argsCanonical s).2 := by
  rw [consumeRequired]
  cases token.filter fun value => ¬ Blank value with
  | none => exact .refl s
  | some t => exact consume_shrinks t

theorem consumeRequired_ok {token : Option String} :
    (consumeRequired hashArgs token action argsCanonical s).1 = .ok () ↔
      ∃ t, token = some t ∧ ¬ Blank t ∧ Opens hashArgs s t action argsCanonical := by
  cases token with
  | none => simp [consumeRequired]
  | some t =>
    by_cases hblank : Blank t
    · simp [consumeRequired, Option.filter, hblank]
    · rw [consumeRequired_some hblank, consume_ok]
      simp [hblank]

/-- After a token was presented for consumption every presented token is spent. -/
theorem Spent.consumed {token : Option String} (h : Spent s) (hrecorded : Recorded hashArgs s) :
    Spent (consumeRequired hashArgs token action argsCanonical (s.present token)).2 := by
  have hshrinks : Shrinks (s.present token)
      (consumeRequired hashArgs token action argsCanonical (s.present token)).2 :=
    consumeRequired_shrinks token
  intro t hpresented
  rw [hshrinks.history, mem_present] at hpresented
  rcases hpresented with ⟨t', rfl, ht⟩ | hold
  · cases ht
    by_cases hblank : Blank t
    · rcases hshrinks.tokens t with hsame | hnone
      · rw [hsame]
        cases hm : s.tokens t with
        | none => exact hm
        | some m => exact absurd hblank (hrecorded.not_blank hm)
      · exact hnone
    · rw [consumeRequired_some hblank]
      exact consume_taken t
  · rcases hshrinks.tokens t with hsame | hnone
    · exact hsame.trans (h t hold)
    · exact hnone

end Consumption

end Authz
