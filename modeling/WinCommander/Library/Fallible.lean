import Mathlib.Data.List.Basic

/-!
# Fallible actions on a state

An action succeeds or fails, and either way leaves a state.  What was changed before a failure stays
changed.
-/

universe u v

/-- An action on states in `σ` that fails with an `ε`. -/
def Fallible (σ : Type u) (ε : Type u) (α : Type u) : Type u := σ → Except ε α × σ

namespace Fallible

variable {σ ε α β : Type u} {γ : Type v}

def bind (x : Fallible σ ε α) (f : α → Fallible σ ε β) : Fallible σ ε β := fun s =>
  match x s with
  | (.ok a, s') => f a s'
  | (.error e, s') => (.error e, s')

instance : Monad (Fallible σ ε) where
  pure a := fun s => (.ok a, s)
  bind := bind

/-- What a state says, which may be a failure. -/
def ask (f : σ → Except ε α) : Fallible σ ε α := fun s => (f s, s)

def modify (f : σ → σ) : Fallible σ ε PUnit := fun s => (.ok ⟨⟩, f s)

/-- Run an action for each element in turn, up to the first failure. -/
def each (f : α → Fallible σ ε PUnit) : List α → Fallible σ ε PUnit
  | [] => pure ⟨⟩
  | a :: as => f a >>= fun _ => each f as

/-- The results of an action for each element in turn. -/
def collect (f : α → Fallible σ ε β) : List α → Fallible σ ε (List β)
  | [] => pure []
  | a :: as => f a >>= fun b => collect f as >>= fun bs => pure (b :: bs)

theorem bind_apply (x : Fallible σ ε α) (f : α → Fallible σ ε β) (s : σ) :
    (x >>= f) s = match x s with
      | (.ok a, s') => f a s'
      | (.error e, s') => (.error e, s') := rfl

@[simp] theorem pure_ok {a b : α} {s s' : σ} :
    (pure a : Fallible σ ε α) s = (.ok b, s') ↔ a = b ∧ s = s' := by
  simp [pure]

@[simp] theorem ask_ok {f : σ → Except ε α} {a : α} {s s' : σ} :
    ask f s = (.ok a, s') ↔ f s = .ok a ∧ s = s' := by
  simp [ask]

@[simp] theorem modify_ok {f : σ → σ} {s s' : σ} :
    (modify f : Fallible σ ε PUnit) s = (.ok ⟨⟩, s') ↔ f s = s' := by
  simp [modify]

/-- A successful sequence is two successes. -/
theorem bind_ok {x : Fallible σ ε α} {f : α → Fallible σ ε β} {b : β} {s s' : σ} :
    (x >>= f) s = (.ok b, s') ↔ ∃ a s₁, x s = (.ok a, s₁) ∧ f a s₁ = (.ok b, s') := by
  rw [bind_apply]
  cases h : x s with
  | mk r s₁ => cases r <;> simp

/-- An action that leaves a part of the state alone, whatever comes of it. -/
def Frames (g : σ → γ) (x : Fallible σ ε α) : Prop := ∀ s, g (x s).2 = g s

theorem frames_pure (g : σ → γ) (a : α) : Frames g (pure a : Fallible σ ε α) := fun _ => rfl

theorem frames_ask (g : σ → γ) (f : σ → Except ε α) : Frames g (ask f) := fun _ => rfl

theorem Frames.bind {g : σ → γ} {x : Fallible σ ε α} {f : α → Fallible σ ε β} (hx : Frames g x)
    (hf : ∀ a, Frames g (f a)) : Frames g (x >>= f) := by
  intro s
  have hfirst := hx s
  rw [bind_apply]
  cases h : x s with
  | mk r s₁ =>
    rw [h] at hfirst
    cases r with
    | error e => exact hfirst
    | ok a => exact (hf a s₁).trans hfirst

theorem Frames.collect {g : σ → γ} {f : α → Fallible σ ε β} (h : ∀ a, Frames g (f a))
    (xs : List α) : Frames g (Fallible.collect f xs) := by
  induction xs with
  | nil => exact frames_pure g []
  | cons x xs ih => exact (h x).bind fun b => ih.bind fun bs => frames_pure g (b :: bs)

theorem Frames.each {g : σ → γ} {f : α → Fallible σ ε PUnit} (h : ∀ a, Frames g (f a))
    (xs : List α) : Frames g (Fallible.each f xs) := by
  induction xs with
  | nil => exact frames_pure g PUnit.unit
  | cons x xs ih => exact (h x).bind fun _ => ih

/-- An action that leaves a part of the state alone when it succeeds. -/
def Keeps (g : σ → γ) (x : Fallible σ ε α) : Prop := ∀ s a s', x s = (.ok a, s') → g s' = g s

theorem Frames.keeps {g : σ → γ} {x : Fallible σ ε α} (h : Frames g x) : Keeps g x := by
  intro s a s' hok
  have hframe := h s
  rw [hok] at hframe
  exact hframe

theorem Keeps.bind {g : σ → γ} {x : Fallible σ ε α} {f : α → Fallible σ ε β} (hx : Keeps g x)
    (hf : ∀ a, Keeps g (f a)) : Keeps g (x >>= f) := by
  intro s b s' h
  obtain ⟨a, s₁, ha, hb⟩ := bind_ok.mp h
  exact (hf a s₁ b s' hb).trans (hx s a s₁ ha)

theorem Keeps.each {g : σ → γ} {f : α → Fallible σ ε PUnit} (h : ∀ a, Keeps g (f a))
    (xs : List α) : Keeps g (Fallible.each f xs) := by
  induction xs with
  | nil => exact (frames_pure g PUnit.unit).keeps
  | cons x xs ih => exact (h x).bind fun _ => ih

/-- Readings of a part of the state that none of them changes. -/
theorem collect_ok {f : α → Fallible σ ε β} {g : σ → γ} {value : γ → α → β}
    (hframes : ∀ a, Frames g (f a))
    (hvalue : ∀ a s b s', f a s = (.ok b, s') → b = value (g s) a) {xs : List α} {ys : List β}
    {s s' : σ} (h : collect f xs s = (.ok ys, s')) : ys = xs.map (value (g s)) := by
  induction xs generalizing s s' ys with
  | nil => rw [← (pure_ok.mp h).1, List.map_nil]
  | cons x xs ih =>
    obtain ⟨b, s₁, hb, hrest⟩ := bind_ok.mp h
    obtain ⟨bs, s₂, hbs, hlast⟩ := bind_ok.mp hrest
    have hkept : g s₁ = g s := (hframes x).keeps s b s₁ hb
    have htail := ih hbs
    rw [hkept] at htail
    rw [← (pure_ok.mp hlast).1, List.map_cons, ← hvalue x s b s₁ hb, ← htail]

/-- Steps that each make one change make all of them in turn. -/
theorem each_ok {f : α → Fallible σ ε PUnit} {g : σ → γ} {change : γ → α → γ} {xs : List α}
    (hstep : ∀ x ∈ xs, ∀ s s', f x s = (.ok PUnit.unit, s') → g s' = change (g s) x) {s s' : σ}
    (h : each f xs s = (.ok PUnit.unit, s')) : g s' = xs.foldl change (g s) := by
  induction xs generalizing s with
  | nil => rw [← (pure_ok.mp h).2, List.foldl_nil]
  | cons x xs ih =>
    obtain ⟨_, s₁, hx, hxs⟩ := bind_ok.mp h
    have hrest := ih (fun y hy => hstep y (List.mem_cons_of_mem x hy)) hxs
    rw [hrest, hstep x List.mem_cons_self s s₁ hx, List.foldl_cons]

end Fallible
