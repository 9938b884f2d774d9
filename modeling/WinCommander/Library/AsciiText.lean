import Mathlib.Data.List.Basic
import Mathlib.Data.List.DropRight

/-!
# Text up to ASCII case

Lower case of the letters A to Z only, and trimming of Unicode white space.
-/

namespace AsciiText

/-- The characters with the Unicode property of white space. -/
def isWhiteSpace (c : Char) : Bool :=
  let n := c.toNat
  (9 ≤ n && n ≤ 13) || n = 32 || n = 133 || n = 160 || n = 5760 || (8192 ≤ n && n ≤ 8202) ||
    n = 8232 || n = 8233 || n = 8239 || n = 8287 || n = 12288

def trimChars (cs : List Char) : List Char := (cs.dropWhile isWhiteSpace).rdropWhile isWhiteSpace

def trim (s : String) : String := String.ofList (trimChars s.toList)

/-- A line without the return before its end. -/
def withoutReturn (line : List Char) : List Char :=
  if line.getLast? = some '\r' then line.dropLast else line

/-- The lines of a text, `start` being what the current one begins with. -/
def linesFrom (start : List Char) : List Char → List (List Char)
  | [] => if start = [] then [] else [start]
  | c :: text =>
    if c = '\n' then withoutReturn start :: linesFrom [] text else linesFrom (start ++ [c]) text

def lines (text : List Char) : List (List Char) := linesFrom [] text

theorem linesFrom_newline {line : List Char} (h : '\n' ∉ line) (start rest : List Char) :
    linesFrom start (line ++ '\n' :: rest) = withoutReturn (start ++ line) :: linesFrom [] rest := by
  induction line generalizing start with
  | nil => rw [List.nil_append, linesFrom, if_pos rfl, List.append_nil]
  | cons c line ih =>
    obtain ⟨hc, hline⟩ := not_or.mp (mt List.mem_cons.mpr h)
    rw [List.cons_append, linesFrom, if_neg (Ne.symm hc), ih hline, List.append_assoc,
      List.singleton_append]

/-- One line with its end. -/
theorem lines_newline {line : List Char} (h : '\n' ∉ line) :
    lines (line ++ ['\n']) = [withoutReturn line] := by
  rw [lines, linesFrom_newline h, List.nil_append]
  rfl

def lower (s : String) : String := String.ofList (s.toList.map Char.toLower)

def eqIgnoreCase (s t : String) : Bool := lower s = lower t

theorem eqIgnoreCase_iff {s t : String} : eqIgnoreCase s t = true ↔ lower s = lower t := by
  simp [eqIgnoreCase]

end AsciiText
