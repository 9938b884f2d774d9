import Mathlib.Data.List.Basic
import Mathlib.Data.Nat.Notation

/-!
# Command lines

A command line is one text, which its receiver takes apart.  Spaces and tabs separate arguments outside
quotes.  Backslashes stand for themselves unless a quote follows them: then each two are one, and one
that is left over makes the quote a character.  Two quotes inside quotes are one character.
-/

namespace CommandLine

open List

def IsSeparator (c : Char) : Prop := c = ' ' ∨ c = '\t'

instance (c : Char) : Decidable (IsSeparator c) := inferInstanceAs (Decidable (_ ∨ _))

inductive Mode where
  | outside
  | inside
  | closed
  deriving DecidableEq

/-- A quote that has just closed counts only while the next character may be a quote. -/
def Mode.later : Mode → Mode
  | .inside => .inside
  | _ => .outside

/-- Where a quote that is no character leads to, and whether it is one after all. -/
def Mode.quote : Mode → Mode × List Char
  | .outside => (.inside, [])
  | .inside => (.closed, [])
  | .closed => (.inside, ['"'])

/-- The arguments of a command line after a run of backslashes, with what there is of the argument that
has begun. -/
@[grind =] def scan (mode : Mode) (slashes : ℕ) : Option (List Char) → List Char → List (List Char)
  | none, [] => []
  | some word, [] => [word ++ replicate slashes '\\']
  | word, c :: cs =>
      if c = '\\' then scan mode.later (slashes + 1) (some (word.getD [])) cs
      else if c = '"' then
        let text := word.getD [] ++ replicate (slashes / 2) '\\'
        if slashes % 2 = 1 then scan mode.later 0 (some (text ++ ['"'])) cs
        else scan mode.quote.1 0 (some (text ++ mode.quote.2)) cs
      else if IsSeparator c ∧ mode ≠ .inside then
        match word with
        | none => scan .outside 0 none cs
        | some word => (word ++ replicate slashes '\\') :: scan .outside 0 none cs
      else scan mode.later 0 (some (word.getD [] ++ replicate slashes '\\' ++ [c])) cs

def split (line : List Char) : List (List Char) := scan .outside 0 none line

variable {mode : Mode} {slashes : ℕ} {word : List Char}

@[simp] theorem later_outside : Mode.outside.later = .outside := rfl

@[simp] theorem later_inside : Mode.inside.later = .inside := rfl

theorem scan_slash (w : Option (List Char)) (cs : List Char) :
    scan mode slashes w ('\\' :: cs) = scan mode.later (slashes + 1) (some (w.getD [])) cs := by
  rw [scan.eq_def]
  simp only [if_true]

theorem scan_slashes (k : ℕ) (cs : List Char) (hmode : mode.later = mode) :
    scan mode slashes (some word) (replicate k '\\' ++ cs) =
      scan mode (slashes + k) (some word) cs := by
  induction k generalizing slashes with
  | zero => rfl
  | succ k ih =>
    rw [replicate_succ, cons_append, scan_slash, hmode, Option.getD_some, ih, Nat.add_assoc,
      Nat.add_comm 1]

/-- A quote after an even run of backslashes opens or closes. -/
theorem scan_quote (k : ℕ) (w : Option (List Char)) (cs : List Char) :
    scan mode (2 * k) w ('"' :: cs) =
      scan mode.quote.1 0 (some (w.getD [] ++ replicate k '\\' ++ mode.quote.2)) cs := by
  have heven : 2 * k % 2 ≠ 1 := by omega
  have hhalf : 2 * k / 2 = k := by omega
  rw [scan.eq_def]
  simp only [hhalf, if_neg heven, if_true]
  rfl

/-- A quote after an odd run of backslashes is a character. -/
theorem scan_literal (k : ℕ) (cs : List Char) : scan mode (2 * k + 1) (some word) ('"' :: cs) =
    scan mode.later 0 (some (word ++ replicate k '\\' ++ ['"'])) cs := by
  have hodd : (2 * k + 1) % 2 = 1 := by omega
  have hhalf : (2 * k + 1) / 2 = k := by omega
  rw [scan.eq_def]
  simp only [hhalf, if_pos hodd, if_true]
  rfl

theorem scan_char {c : Char} (hslash : c ≠ '\\') (hquote : c ≠ '"')
    (hinside : mode = .inside ∨ ¬ IsSeparator c) (w : Option (List Char)) (cs : List Char) :
    scan mode slashes w (c :: cs) =
      scan mode.later 0 (some (w.getD [] ++ replicate slashes '\\' ++ [c])) cs := by
  have hkept : ¬ (IsSeparator c ∧ mode ≠ .inside) := by
    rintro ⟨hseparator, hopen⟩
    exact hinside.elim hopen fun hnot => hnot hseparator
  rw [scan.eq_def]
  simp only [if_neg hslash, if_neg hquote, if_neg hkept]

/-- What follows an argument ends it. -/
def Ends (rest : List Char) (tail : List (List Char)) : Prop :=
  ∀ mode slashes word, mode ≠ .inside →
    scan mode slashes (some word) rest = (word ++ replicate slashes '\\') :: tail

theorem ends_nil : Ends [] [] := fun _ _ _ _ => by rw [scan]

theorem ends_space (cs : List Char) : Ends (' ' :: cs) (split cs) := by
  intro mode slashes word hmode
  have hseparator : IsSeparator ' ' ∧ mode ≠ .inside := ⟨.inl rfl, hmode⟩
  rw [scan.eq_def]
  simp only [if_pos hseparator]
  rfl

/-- An argument without quotes and separators is read as it stands. -/
theorem scan_plain {cs rest : List Char} {tail : List (List Char)} (hends : Ends rest tail)
    (hplain : ∀ c ∈ cs, c ≠ '"' ∧ ¬ IsSeparator c) : scan .outside slashes (some word) (cs ++ rest) =
      (word ++ replicate slashes '\\' ++ cs) :: tail := by
  induction cs generalizing slashes word with
  | nil => rw [nil_append, append_nil, hends _ _ _ (by simp)]
  | cons c cs ih =>
    rw [forall_mem_cons] at hplain
    by_cases hslash : c = '\\'
    · rw [hslash, cons_append, scan_slash, Option.getD_some, later_outside, ih hplain.2, replicate_succ']
      simp
    · rw [cons_append, scan_char hslash hplain.1.1 (.inr hplain.1.2), later_outside, ih hplain.2]
      simp

/-- An argument begins with its first character. -/
theorem split_cons {c : Char} (hseparator : ¬ IsSeparator c) (cs : List Char) :
    split (c :: cs) = scan .outside 0 (some []) (c :: cs) := by
  rw [split]
  by_cases hslash : c = '\\'
  · rw [hslash, scan_slash, scan_slash]
    rfl
  · by_cases hquote : c = '"'
    · rw [hquote, ← Nat.mul_zero 2, scan_quote, scan_quote]
      rfl
    · rw [scan_char hslash hquote (.inr hseparator), scan_char hslash hquote (.inr hseparator)]
      rfl

end CommandLine
