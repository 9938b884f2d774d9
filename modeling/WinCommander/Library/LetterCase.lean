import Mathlib.Data.List.Count
import Mathlib.Data.Nat.Notation

/-!
# Lower-casing

A character is lower-cased by the tables of Unicode.  A text is lower-cased character by character,
but for the capital sigma, whose small letter depends on the word around it.
-/

/-- The letter tables of Unicode. -/
structure LetterCase where
  simple : Char → Char
  cased : Char → Bool
  caseIgnorable : Char → Bool
  simple_sigma : simple 'Σ' = 'σ'

namespace LetterCase

variable (unicode : LetterCase)

section Definitions

/-- One capital letter has a small form of two characters. -/
def charToLowercase (c : Char) : List Char :=
  if c = 'İ' then ['i', '\u0307'] else [unicode.simple c]

def charsToLowercase (text : List Char) : List Char := text.flatMap unicode.charToLowercase

def caseIgnorableThenCased (text : List Char) : Bool :=
  match text.dropWhile unicode.caseIgnorable with
  | c :: _ => unicode.cased c
  | [] => false

/-- The small letter of a capital sigma; what stands before it is read backwards. -/
def mapUppercaseSigma (before after : List Char) : Char :=
  if unicode.caseIgnorableThenCased before && !unicode.caseIgnorableThenCased after then 'ς' else 'σ'

def toLowercaseFrom : List Char → List Char → List Char
  | _, [] => []
  | before, c :: text =>
    (if c = 'Σ' then [unicode.mapUppercaseSigma before text] else unicode.charToLowercase c) ++
      toLowercaseFrom (c :: before) text

def toLowercase (text : List Char) : List Char := unicode.toLowercaseFrom [] text

/-- No capital sigma of the text ends a word. -/
def NoFinalSigma (text : List Char) : Prop :=
  ∀ a b, text = a ++ 'Σ' :: b → unicode.mapUppercaseSigma a.reverse b = 'σ'

end Definitions

variable {unicode}

theorem charToLowercase_sigma : unicode.charToLowercase 'Σ' = ['σ'] := by
  rw [charToLowercase, if_neg (by decide), unicode.simple_sigma]

theorem charToLowercase_ne_nil (c : Char) : unicode.charToLowercase c ≠ [] := by
  unfold charToLowercase
  split <;> exact List.cons_ne_nil _ _

theorem charsToLowercase_append (a b : List Char) :
    unicode.charsToLowercase (a ++ b) = unicode.charsToLowercase a ++ unicode.charsToLowercase b :=
  List.flatMap_append

theorem charsToLowercase_cons (c : Char) (text : List Char) :
    unicode.charsToLowercase (c :: text) =
      unicode.charToLowercase c ++ unicode.charsToLowercase text :=
  List.flatMap_cons

theorem toLowercaseFrom_sigma (before text : List Char) :
    unicode.toLowercaseFrom before ('Σ' :: text) =
      unicode.mapUppercaseSigma before text :: unicode.toLowercaseFrom ('Σ' :: before) text := by
  rw [toLowercaseFrom, if_pos rfl]
  rfl

theorem toLowercaseFrom_cons {c : Char} (hc : c ≠ 'Σ') (before text : List Char) :
    unicode.toLowercaseFrom before (c :: text) =
      unicode.charToLowercase c ++ unicode.toLowercaseFrom (c :: before) text := by
  rw [toLowercaseFrom, if_neg hc]

theorem mapUppercaseSigma_cases (before after : List Char) :
    unicode.mapUppercaseSigma before after = 'ς' ∨
      unicode.mapUppercaseSigma before after = 'σ' := by
  unfold mapUppercaseSigma
  split
  · exact Or.inl rfl
  · exact Or.inr rfl

theorem length_toLowercaseFrom (before text : List Char) :
    (unicode.toLowercaseFrom before text).length = (unicode.charsToLowercase text).length := by
  induction text generalizing before with
  | nil => rfl
  | cons c text ih =>
    rw [charsToLowercase_cons, List.length_append]
    by_cases hc : c = 'Σ'
    · rw [hc, toLowercaseFrom_sigma, charToLowercase_sigma, List.length_cons, ih,
        List.length_singleton, Nat.add_comm]
    · rw [toLowercaseFrom_cons hc, List.length_append, ih]

theorem length_toLowercase (text : List Char) :
    (unicode.toLowercase text).length = (unicode.charsToLowercase text).length :=
  length_toLowercaseFrom [] text

/-- In the context of a word small sigmas only get lost. -/
theorem count_toLowercaseFrom_le (before text : List Char) :
    (unicode.toLowercaseFrom before text).count 'σ' ≤ (unicode.charsToLowercase text).count 'σ' := by
  induction text generalizing before with
  | nil => exact Nat.le_refl _
  | cons c text ih =>
    rw [charsToLowercase_cons, List.count_append]
    by_cases hc : c = 'Σ'
    · rw [hc, toLowercaseFrom_sigma, charToLowercase_sigma, List.count_cons, List.count_singleton_self]
      have hrest := ih ('Σ' :: before)
      split <;> omega
    · rw [toLowercaseFrom_cons hc, List.count_append]
      exact Nat.add_le_add_left (ih _) _

/-- A text keeps its small sigmas only where the words do not matter. -/
theorem toLowercaseFrom_eq_of_count_le {before text : List Char}
    (h : (unicode.charsToLowercase text).count 'σ' ≤
      (unicode.toLowercaseFrom before text).count 'σ') :
    unicode.toLowercaseFrom before text = unicode.charsToLowercase text := by
  induction text generalizing before with
  | nil => rfl
  | cons c text ih =>
    rw [charsToLowercase_cons] at h ⊢
    rw [List.count_append] at h
    by_cases hc : c = 'Σ'
    · have hrest := @count_toLowercaseFrom_le unicode ('Σ' :: before) text
      have hone : ['σ'].count 'σ' = 1 := List.count_singleton_self
      rw [hc, toLowercaseFrom_sigma, charToLowercase_sigma, hone, List.count_cons] at h
      rw [hc, toLowercaseFrom_sigma, charToLowercase_sigma]
      cases @mapUppercaseSigma_cases unicode before text with
      | inl hfinal =>
        rw [hfinal, if_neg (by decide)] at h
        omega
      | inr hsigma =>
        rw [hsigma, if_pos (by decide)] at h
        rw [hsigma, ih (by omega)]
        rfl
    · rw [toLowercaseFrom_cons hc, List.count_append] at h
      rw [toLowercaseFrom_cons hc, ih (by omega)]

theorem toLowercase_eq_of_count_le {text : List Char}
    (h : (unicode.charsToLowercase text).count 'σ' ≤ (unicode.toLowercase text).count 'σ') :
    unicode.toLowercase text = unicode.charsToLowercase text :=
  toLowercaseFrom_eq_of_count_le h

theorem toLowercaseFrom_eq_iff {before text : List Char} :
    unicode.toLowercaseFrom before text = unicode.charsToLowercase text ↔
      ∀ a b, text = a ++ 'Σ' :: b → unicode.mapUppercaseSigma (a.reverse ++ before) b = 'σ' := by
  induction text generalizing before with
  | nil =>
    refine iff_of_true rfl ?_
    intro a b h
    exact absurd h.symm (List.append_ne_nil_of_right_ne_nil a (List.cons_ne_nil _ _))
  | cons c text ih =>
    have hrest : (∀ a b, text = a ++ 'Σ' :: b →
        unicode.mapUppercaseSigma (a.reverse ++ c :: before) b = 'σ') ↔
        ∀ a b, c :: text = (c :: a) ++ 'Σ' :: b →
          unicode.mapUppercaseSigma ((c :: a).reverse ++ before) b = 'σ' := by
      apply forall₂_congr
      intro a b
      rw [List.cons_append, List.reverse_cons, List.append_assoc, List.singleton_append]
      exact imp_congr_left ⟨fun h => by rw [h], fun h => (List.cons.inj h).2⟩
    have hsplit : (∀ a b, c :: text = a ++ 'Σ' :: b →
        unicode.mapUppercaseSigma (a.reverse ++ before) b = 'σ') ↔
        (c = 'Σ' → unicode.mapUppercaseSigma before text = 'σ') ∧
          ∀ a b, text = a ++ 'Σ' :: b →
            unicode.mapUppercaseSigma (a.reverse ++ c :: before) b = 'σ' := by
      rw [hrest]
      constructor
      · intro h
        exact ⟨fun hc => h [] text (by rw [hc]; rfl), fun a b => h (c :: a) b⟩
      · intro h a b htext
        cases a with
        | nil =>
          have hparts := List.cons.inj htext
          rw [← hparts.2]
          exact h.1 hparts.1
        | cons d a =>
          have hd : c = d := (List.cons.inj htext).1
          rw [← hd] at htext ⊢
          exact h.2 a b htext
    rw [hsplit, ← ih, charsToLowercase_cons]
    by_cases hc : c = 'Σ'
    · rw [hc, toLowercaseFrom_sigma, charToLowercase_sigma, List.singleton_append, List.cons.injEq]
      exact and_congr_left' ⟨fun h _ => h, fun h => h rfl⟩
    · rw [toLowercaseFrom_cons hc, List.append_cancel_left_eq]
      exact ⟨fun h => ⟨fun hsigma => absurd hsigma hc, h⟩, And.right⟩

/-- A text is lower-cased character by character where no capital sigma ends a word. -/
theorem toLowercase_eq_iff {text : List Char} :
    unicode.toLowercase text = unicode.charsToLowercase text ↔ unicode.NoFinalSigma text := by
  have h := @toLowercaseFrom_eq_iff unicode [] text
  simp only [List.append_nil] at h
  exact h

end LetterCase
