import Mathlib.Data.List.Basic

/-!
# Self-delimiting encodings

The end of such a text shows in the text itself, so texts that follow one another can be told apart.
An encoding need only be read back on the values of a set.
-/

variable {α β σ : Type*}

/-- What an encoding of a value of the set is followed by determines the value and the rest. -/
def SelfDelimiting (P : α → Prop) (encode : α → List σ) : Prop :=
  ∀ a b r s, P a → P b → encode a ++ r = encode b ++ s → a = b ∧ r = s

namespace SelfDelimiting

variable {P : α → Prop} {encode : α → List σ}

theorem eq_of_encode (h : SelfDelimiting P encode) {a b : α} (ha : P a) (hb : P b)
    (heq : encode a = encode b) : a = b :=
  (h a b [] [] ha hb (by rw [heq])).1

/-- Texts of one length. -/
theorem of_length {n : ℕ} (hlength : ∀ a, P a → (encode a).length = n)
    (hinj : ∀ a b, P a → P b → encode a = encode b → a = b) : SelfDelimiting P encode := by
  intro a b r s ha hb h
  have hsame : (encode a).length = (encode b).length := (hlength a ha).trans (hlength b hb).symm
  obtain ⟨hencode, hrest⟩ := List.append_inj h hsame
  exact ⟨hinj a b ha hb hencode, hrest⟩

/-- A text behind its own length. -/
theorem prefixed {count : ℕ → List σ} {bound : ℕ} (hcount : SelfDelimiting (· < bound) count)
    (hinj : ∀ a b, P a → P b → encode a = encode b → a = b)
    (hshort : ∀ a, P a → (encode a).length < bound) :
    SelfDelimiting P fun a => count (encode a).length ++ encode a := by
  intro a b r s ha hb h
  rw [List.append_assoc, List.append_assoc] at h
  obtain ⟨hlength, hrest⟩ := hcount _ _ _ _ (hshort a ha) (hshort b hb) h
  obtain ⟨hencode, htail⟩ := List.append_inj hrest hlength
  exact ⟨hinj a b ha hb hencode, htail⟩

/-- As many elements as were counted before them. -/
theorem counted {count : ℕ → List σ} {bound : ℕ} (hcount : SelfDelimiting (· < bound) count)
    (h : SelfDelimiting P encode) :
    SelfDelimiting (fun as : List α => as.length < bound ∧ ∀ a ∈ as, P a)
      fun as => count as.length ++ as.flatMap encode := by
  have helements : ∀ (as bs : List α) (r s : List σ), as.length = bs.length → (∀ a ∈ as, P a) →
      (∀ b ∈ bs, P b) → as.flatMap encode ++ r = bs.flatMap encode ++ s → as = bs ∧ r = s := by
    intro as
    induction as with
    | nil =>
      intro bs r s hlength _ _ heq
      have hnil : bs = [] := List.length_eq_zero_iff.mp hlength.symm
      subst hnil
      exact ⟨rfl, heq⟩
    | cons a as ih =>
      intro bs r s hlength has hbs heq
      cases bs with
      | nil => cases hlength
      | cons b bs =>
        rw [List.forall_mem_cons] at has hbs
        rw [List.flatMap_cons, List.flatMap_cons, List.append_assoc, List.append_assoc] at heq
        obtain ⟨hab, hrest⟩ := h a b _ _ has.1 hbs.1 heq
        obtain ⟨htail, hrs⟩ := ih bs r s (Nat.succ.inj hlength) has.2 hbs.2 hrest
        exact ⟨by rw [hab, htail], hrs⟩
  intro as bs r s has hbs heq
  rw [List.append_assoc, List.append_assoc] at heq
  obtain ⟨hlength, hrest⟩ := hcount _ _ _ _ has.1 hbs.1 heq
  exact helements as bs r s hlength has.2 hbs.2 hrest

end SelfDelimiting
