import WinCommander.Library.TextBytes

/-!
# Occurrences of a text

The disjoint occurrences of a text within another, found from the left.
-/

namespace Occurrences

open Json (size)

/-- The search from the byte `index` on, after the `skip` characters that the last match covers. -/
@[grind =] def matchIndicesFrom (needle : List Char) : ℕ → ℕ → List Char → List ℕ
  | _, _, [] => []
  | skip + 1, index, c :: text => matchIndicesFrom needle skip (index + c.utf8Size) text
  | 0, index, c :: text =>
    if needle <+: c :: text then
      index :: matchIndicesFrom needle (needle.length - 1) (index + c.utf8Size) text
    else matchIndicesFrom needle 0 (index + c.utf8Size) text

/-- The byte positions of the disjoint matches. -/
def matchIndices (needle text : List Char) : List ℕ := matchIndicesFrom needle 0 0 text

variable {needle : List Char} {index : ℕ}

/-- A match is an occurrence at its position. -/
theorem matchIndicesFrom_sound {skip start : ℕ} {text : List Char}
    (h : start ∈ matchIndicesFrom needle skip index text) :
    ∃ x y, text = x ++ needle ++ y ∧ start = index + size x := by
  induction text generalizing skip index with
  | nil =>
    unfold matchIndicesFrom at h
    exact absurd h List.not_mem_nil
  | cons c text ih =>
    have hrest : ∀ skip, start ∈ matchIndicesFrom needle skip (index + c.utf8Size) text →
        ∃ x y, c :: text = x ++ needle ++ y ∧ start = index + size x := by
      intro skip hmem
      obtain ⟨x, y, htext, hstart⟩ := ih hmem
      refine ⟨c :: x, y, by rw [htext]; rfl, ?_⟩
      rw [hstart, Json.size_cons, Nat.add_assoc]
    cases skip with
    | succ skip => exact hrest skip h
    | zero =>
      unfold matchIndicesFrom at h
      split at h
      · rename_i hprefix
        cases List.mem_cons.mp h with
        | inl hfirst =>
          obtain ⟨y, hy⟩ := hprefix
          exact ⟨[], y, hy.symm, by rw [hfirst]; rfl⟩
        | inr hmem => exact hrest _ hmem
      · exact hrest 0 h

theorem matchIndices_sound {start : ℕ} {text : List Char} (h : start ∈ matchIndices needle text) :
    ∃ x y, text = x ++ needle ++ y ∧ start = size x := by
  simpa using matchIndicesFrom_sound h

theorem matchIndicesFrom_skip (a r : List Char) :
    matchIndicesFrom needle a.length index (a ++ r) =
      matchIndicesFrom needle 0 (index + size a) r := by
  induction a generalizing index with
  | nil => rfl
  | cons c a ih =>
    rw [List.length_cons, List.cons_append, matchIndicesFrom, ih, Json.size_cons, Nat.add_assoc]

/-- A match is followed by those behind it. -/
theorem matchIndicesFrom_append (hneedle : needle ≠ []) (r : List Char) :
    matchIndicesFrom needle 0 index (needle ++ r) =
      index :: matchIndicesFrom needle 0 (index + size needle) r := by
  obtain ⟨c, a, hca⟩ := List.exists_cons_of_ne_nil hneedle
  have hskip := @matchIndicesFrom_skip needle (index + c.utf8Size) a r
  have hlength : needle.length - 1 = a.length := by simp [hca]
  have hsize : index + size needle = index + c.utf8Size + size a := by
    rw [hca, Json.size_cons, Nat.add_assoc]
  have hprefix : needle <+: c :: (a ++ r) := ⟨r, by rw [hca]; rfl⟩
  have htext : needle ++ r = c :: (a ++ r) := by
    rw [hca]
    rfl
  rw [htext, matchIndicesFrom, if_pos hprefix, hlength, hskip, hsize]

theorem matchIndicesFrom_cons {c : Char} {text : List Char} (h : ¬ needle <+: c :: text) :
    matchIndicesFrom needle 0 index (c :: text) =
      matchIndicesFrom needle 0 (index + c.utf8Size) text := by
  rw [matchIndicesFrom, if_neg h]

/-- Where the text occurs there is a match. -/
theorem matchIndicesFrom_ne_nil (hneedle : needle ≠ []) {text : List Char}
    (h : needle <:+: text) : matchIndicesFrom needle 0 index text ≠ [] := by
  induction text generalizing index with
  | nil => exact absurd (List.infix_nil.mp h) hneedle
  | cons c text ih =>
    by_cases hprefix : needle <+: c :: text
    · rw [matchIndicesFrom, if_pos hprefix]
      exact List.cons_ne_nil _ _
    · rw [matchIndicesFrom_cons hprefix]
      exact ih ((List.infix_cons_iff.mp h).resolve_left hprefix)

theorem matchIndices_eq_nil_iff (hneedle : needle ≠ []) {text : List Char} :
    matchIndices needle text = [] ↔ ¬ needle <:+: text := by
  constructor
  · intro hnil hinfix
    exact matchIndicesFrom_ne_nil hneedle hinfix hnil
  · intro hinfix
    apply List.eq_nil_iff_forall_not_mem.mpr
    intro start hstart
    obtain ⟨x, y, htext, _⟩ := matchIndices_sound hstart
    exact hinfix ⟨x, y, htext.symm⟩

end Occurrences
