import Mathlib
import WinCommander.Library.Outcome

/-!
# The startup PINs

Three hashes are stored.  The one that the hash of an entered PIN equals decides the mode that the
application starts in, so they have to differ.
-/

namespace StartupAuth

open Outcome

inductive PinMode where
  | real
  | decoy
  | destroy
  deriving DecidableEq

def PinMode.name : PinMode → String
  | .real => "real"
  | .decoy => "decoy"
  | .destroy => "destroy"

def PinMode.parse (mode : String) : Option PinMode :=
  match mode with
  | "real" => some .real
  | "decoy" => some .decoy
  | "destroy" => some .destroy
  | _ => none

def PinMode.label : PinMode → String
  | .real => "Real PIN"
  | .decoy => "Decoy PIN"
  | .destroy => "Destroy PIN"

structure StartupPinSettings where
  enabled : Option Bool
  realHash : Option String
  decoyHash : Option String
  destroyHash : Option String
  deriving DecidableEq

def StartupPinSettings.hashOf (sp : StartupPinSettings) : PinMode → Option String
  | .real => sp.realHash
  | .decoy => sp.decoyHash
  | .destroy => sp.destroyHash

def minPinLen : ℕ := 4

def normalisePin (pin : String) : String :=
  String.ofList ((pin.toList.filter Char.isAlphanum).map Char.toLower)

/-- Every two neighbours of a list stand in a relation. -/
def neighbours (related : ℕ → ℕ → Bool) (xs : List ℕ) : Bool :=
  (xs.zip xs.tail).all fun w => related w.1 w.2

/-- A PIN that the display of the calculator can show. -/
def validatePinEnterable (plaintext : String) : Except String Unit := do
  let n := (normalisePin plaintext).toList
  refuseIf (n.length < minPinLen) s!"PIN must be at least {minPinLen} digits."
  refuseIf (n.all Char.isDigit = false)
    "PIN must contain only digits — the calculator can't display letters."
  refuseIf (n.head? = some '0')
    "PIN can't start with 0 — the calculator drops leading zeros, so it could never be re-entered."
  let digits := n.map Char.toNat
  refuseIf (neighbours (fun a b => a = b) digits) "PIN can't use the same digit repeated."
  refuseIf (neighbours (fun a b => b = a + 1) digits || neighbours (fun a b => a = b + 1) digits)
    "PIN can't be a simple ascending or descending sequence."

def gateEnabled (sp : StartupPinSettings) : Bool := sp.enabled.getD true && sp.realHash.isSome

/-- Equal lengths first, then every byte. -/
def ctEq (a b : String) : Bool :=
  if a.utf8ByteSize ≠ b.utf8ByteSize then false else a.toByteArray = b.toByteArray

@[simp] theorem ctEq_iff {a b : String} : ctEq a b = true ↔ a = b := by
  unfold ctEq
  split
  · next hsize =>
    have hne : a ≠ b := fun h => hsize (by rw [h])
    simp [hne]
  · simp [String.toByteArray_inj]

/-- What a PIN comes to. -/
inductive Verdict where
  | mode (m : PinMode)
  | «open»
  | wrong
  deriving DecidableEq

def Verdict.name : Verdict → String
  | .mode m => m.name
  | .open => "open"
  | .wrong => "wrong"

section Hash

-- Argon2id of a normalised PIN under the salt of this device, as hexadecimal text.
variable (argon : String → String)

def hashPin (pin : String) : String := argon (normalisePin pin)

def verifyPinMode (pin : String) (sp : StartupPinSettings) : Verdict :=
  if sp.realHash.isNone && sp.decoyHash.isNone && sp.destroyHash.isNone then .open
  else if sp.destroyHash.any (ctEq (hashPin argon pin)) then .mode .destroy
  else if sp.decoyHash.any (ctEq (hashPin argon pin)) then .mode .decoy
  else if sp.realHash.any (ctEq (hashPin argon pin)) then .mode .real
  else .wrong

/-- The PIN of another mode that a new hash equals. -/
def duplicateMode (mode : PinMode) (hash : String) (sp : StartupPinSettings) : Option PinMode :=
  match mode with
  | .real =>
    if sp.decoyHash = some hash then some .decoy
    else if sp.destroyHash = some hash then some .destroy else none
  | .decoy =>
    if sp.realHash = some hash then some .real
    else if sp.destroyHash = some hash then some .destroy else none
  | .destroy =>
    if sp.realHash = some hash then some .real
    else if sp.decoyHash = some hash then some .decoy else none

/-- A real PIN turns the gate on. -/
def StartupPinSettings.register (sp : StartupPinSettings) (mode : PinMode) (hash : String) :
    StartupPinSettings :=
  match mode with
  | .real => { sp with realHash := some hash, enabled := some true }
  | .decoy => { sp with decoyHash := some hash }
  | .destroy => { sp with destroyHash := some hash }

def StartupPinSettings.clear (sp : StartupPinSettings) : PinMode → StartupPinSettings
  | .real => { sp with realHash := none, enabled := some false }
  | .decoy => { sp with decoyHash := none }
  | .destroy => { sp with destroyHash := none }

/-- The settings with a new PIN in them, from a snapshot of them. -/
def registered (mode plaintext : String) (sp : StartupPinSettings) :
    Except String (PinMode × StartupPinSettings) :=
  match PinMode.parse mode with
  | none => .error s!"Unknown mode: {mode}"
  | some m => do
    let existing := ((duplicateMode m (hashPin argon plaintext) sp).map PinMode.label).getD ""
    refuseIf (duplicateMode m (hashPin argon plaintext) sp).isSome
      s!"PIN must be different from the existing {existing}."
    pure (m, sp.register m (hashPin argon plaintext))

end Hash

def cleared (mode : String) (sp : StartupPinSettings) :
    Except String (PinMode × StartupPinSettings) :=
  match PinMode.parse mode with
  | none => .error s!"Unknown mode: {mode}"
  | some m => .ok (m, sp.clear m)

def prepareCalculatorLock (sp : StartupPinSettings) (enabled : Bool) :
    Except String StartupPinSettings := do
  refuseIf (enabled = true ∧ sp.realHash = none)
    "Set a Real PIN before turning on the calculator lock."
  pure { sp with enabled := some enabled }

/-- No two modes have one hash. -/
def StartupPinSettings.Distinct (sp : StartupPinSettings) : Prop :=
  ∀ m m' hash, sp.hashOf m = some hash → sp.hashOf m' = some hash → m = m'

section Changes

variable {sp sp' : StartupPinSettings} {m m' : PinMode} {hash : String}

@[simp] theorem hashOf_register_self : (sp.register m hash).hashOf m = some hash := by
  cases m <;> rfl

theorem hashOf_register_of_ne (h : m' ≠ m) : (sp.register m hash).hashOf m' = sp.hashOf m' := by
  cases m <;> cases m' <;> first | rfl | exact absurd rfl h

@[simp] theorem hashOf_clear_self : (sp.clear m).hashOf m = none := by
  cases m <;> rfl

theorem hashOf_clear_of_ne (h : m' ≠ m) : (sp.clear m).hashOf m' = sp.hashOf m' := by
  cases m <;> cases m' <;> first | rfl | exact absurd rfl h

theorem twoChecks_eq_none {a b : Prop} [Decidable a] [Decidable b] {x y : PinMode} :
    (if a then some x else if b then some y else none) = none ↔ ¬ a ∧ ¬ b := by
  by_cases ha : a
  · simp [ha]
  · by_cases hb : b <;> simp [ha, hb]

theorem PinMode.forall_iff {P : PinMode → Prop} : (∀ m, P m) ↔ P .real ∧ P .decoy ∧ P .destroy := by
  constructor
  · intro h
    exact ⟨h .real, h .decoy, h .destroy⟩
  · rintro ⟨hreal, hdecoy, hdestroy⟩ m
    cases m with
    | real => exact hreal
    | decoy => exact hdecoy
    | destroy => exact hdestroy

/-- A hash is a duplicate when another mode has it. -/
theorem duplicateMode_eq_none :
    duplicateMode m hash sp = none ↔ ∀ m', m' ≠ m → sp.hashOf m' ≠ some hash := by
  rw [PinMode.forall_iff]
  cases m <;> simp [duplicateMode, twoChecks_eq_none, StartupPinSettings.hashOf]

theorem Distinct.register (h : sp.Distinct) (hnew : duplicateMode m hash sp = none) :
    (sp.register m hash).Distinct := by
  have hothers := duplicateMode_eq_none.mp hnew
  intro a b value ha hb
  by_cases hab : a = m
  · by_cases hbm : b = m
    · rw [hab, hbm]
    · rw [hab, hashOf_register_self] at ha
      rw [hashOf_register_of_ne hbm, ← ha] at hb
      exact absurd hb (hothers b hbm)
  · rw [hashOf_register_of_ne hab] at ha
    by_cases hbm : b = m
    · rw [hbm, hashOf_register_self] at hb
      rw [← hb] at ha
      exact absurd ha (hothers a hab)
    · rw [hashOf_register_of_ne hbm] at hb
      exact h a b value ha hb

theorem Distinct.of_hashOf (h : sp.Distinct)
    (hfrom : ∀ m hash, sp'.hashOf m = some hash → sp.hashOf m = some hash) : sp'.Distinct :=
  fun a b hash ha hb => h a b hash (hfrom a hash ha) (hfrom b hash hb)

theorem Distinct.clear (h : sp.Distinct) : (sp.clear m).Distinct := by
  apply Distinct.of_hashOf h
  intro a hash ha
  by_cases ham : a = m
  · rw [ham, hashOf_clear_self] at ha
    exact absurd ha (by simp)
  · rwa [hashOf_clear_of_ne ham] at ha

theorem parse_eq_some {mode : String} (h : PinMode.parse mode = some m) : mode = m.name := by
  unfold PinMode.parse at h
  split at h <;> cases h <;> rfl

theorem registered_ok {argon : String → String} {mode plaintext : String}
    (h : registered argon mode plaintext sp = .ok (m, sp')) :
    mode = m.name ∧ duplicateMode m (hashPin argon plaintext) sp = none ∧
      sp' = sp.register m (hashPin argon plaintext) := by
  unfold registered at h
  split at h
  · exact absurd h (by simp)
  · next m' hmode =>
    obtain ⟨_, hnew, hpure⟩ := bind_ok.mp h
    rw [refuseIf_ok] at hnew
    rw [pure_ok, Prod.mk.injEq] at hpure
    obtain ⟨rfl, rfl⟩ := hpure
    exact ⟨parse_eq_some hmode, by simpa using hnew, rfl⟩

theorem cleared_ok {mode : String} (h : cleared mode sp = .ok (m, sp')) :
    mode = m.name ∧ sp' = sp.clear m := by
  unfold cleared at h
  split at h
  · exact absurd h (by simp)
  · next m' hmode =>
    rw [Except.ok.injEq, Prod.mk.injEq] at h
    obtain ⟨rfl, rfl⟩ := h
    exact ⟨parse_eq_some hmode, rfl⟩

theorem prepareCalculatorLock_ok {enabled : Bool} (h : prepareCalculatorLock sp enabled = .ok sp') :
    (enabled = true → sp.realHash ≠ none) ∧ sp' = { sp with enabled := some enabled } := by
  obtain ⟨_, hreal, hpure⟩ := bind_ok.mp h
  rw [refuseIf_ok] at hreal
  rw [pure_ok] at hpure
  exact ⟨fun henabled hnone => hreal ⟨henabled, hnone⟩, hpure.symm⟩

/-- Where no two modes have one hash, a PIN verifies as the mode that has its hash. -/
theorem Distinct.verifyPinMode {argon : String → String} {pin : String} (h : sp.Distinct)
    (hpin : sp.hashOf m = some (hashPin argon pin)) : verifyPinMode argon pin sp = .mode m := by
  have hothers : ∀ m', m' ≠ m → (sp.hashOf m').any (ctEq (hashPin argon pin)) = false := by
    intro m' hne
    rw [Option.any_eq_false]
    intro hash hhash
    rw [← Bool.not_eq_true, ctEq_iff]
    intro heq
    rw [← heq] at hhash
    exact hne (h m' m _ hhash hpin)
  have hself : (sp.hashOf m).any (ctEq (hashPin argon pin)) = true := by simp [hpin]
  have hreal := hothers .real
  have hdecoy := hothers .decoy
  have hdestroy := hothers .destroy
  cases m <;> simp_all [StartupAuth.verifyPinMode, StartupPinSettings.hashOf]

end Changes

end StartupAuth
