import Mathlib.Data.List.Infix

/-!
# The segments between separators
-/

namespace Segments

variable {α β : Type*} [DecidableEq α] {sep : α}

/-- The segments of a list between separators, of which there is one more than separators. -/
@[grind =] def splitOn (sep : α) : List α → List (List α)
  | [] => [[]]
  | c :: cs =>
    if c = sep then [] :: splitOn sep cs
    else
      match splitOn sep cs with
      | [] => [[c]]
      | segment :: segments => (c :: segment) :: segments

theorem splitOn_separator (cs : List α) : splitOn sep (sep :: cs) = [] :: splitOn sep cs := by
  rw [splitOn, if_pos rfl]

theorem splitOn_cons {c : α} (h : c ≠ sep) {cs segment : List α} {segments : List (List α)}
    (hcs : splitOn sep cs = segment :: segments) :
    splitOn sep (c :: cs) = (c :: segment) :: segments := by
  rw [splitOn, if_neg h, hcs]

theorem exists_splitOn (sep : α) (cs : List α) :
    ∃ segment segments, splitOn sep cs = segment :: segments := by
  induction cs with
  | nil => exact ⟨[], [], rfl⟩
  | cons c cs ih =>
    obtain ⟨segment, segments, hcs⟩ := ih
    by_cases h : c = sep
    · exact ⟨[], splitOn sep cs, by rw [h, splitOn_separator]⟩
    · exact ⟨c :: segment, segments, splitOn_cons h hcs⟩

theorem splitOn_append (as bs : List α) :
    splitOn sep (as ++ sep :: bs) = splitOn sep as ++ splitOn sep bs := by
  induction as with
  | nil => rw [List.nil_append, splitOn_separator]; rfl
  | cons a as ih =>
    by_cases h : a = sep
    · rw [h, List.cons_append, splitOn_separator, splitOn_separator, ih, List.cons_append]
    · obtain ⟨segment, segments, has⟩ := exists_splitOn sep as
      have hall : splitOn sep (as ++ sep :: bs) = segment :: (segments ++ splitOn sep bs) := by
        rw [ih, has, List.cons_append]
      rw [List.cons_append, splitOn_cons h hall, splitOn_cons h has, List.cons_append]

theorem splitOn_of_not_mem {cs : List α} (h : sep ∉ cs) : splitOn sep cs = [cs] := by
  induction cs with
  | nil => rfl
  | cons c cs ih =>
    obtain ⟨hc, hcs⟩ := not_or.mp (mt List.mem_cons.mpr h)
    exact splitOn_cons (Ne.symm hc) (ih hcs)

theorem splitOn_map [DecidableEq β] {sep' : β} {f : α → β} (hf : ∀ c, f c = sep' ↔ c = sep)
    (cs : List α) : splitOn sep' (cs.map f) = (splitOn sep cs).map (List.map f) := by
  induction cs with
  | nil => rfl
  | cons c cs ih =>
    by_cases h : c = sep
    · rw [List.map_cons, (hf c).mpr h, h, splitOn_separator, splitOn_separator, ih]
      rfl
    · obtain ⟨segment, segments, hcs⟩ := exists_splitOn sep cs
      have hmap : splitOn sep' (cs.map f) = segment.map f :: segments.map (List.map f) := by
        rw [ih, hcs, List.map_cons]
      rw [List.map_cons, splitOn_cons (mt (hf c).mp h) hmap, splitOn_cons h hcs]
      rfl

/-- A segment goes on in a longer list. -/
theorem exists_splitOn_cons {cs segment : List α} (h : segment ∈ splitOn sep cs) (c : α) :
    ∃ longer ∈ splitOn sep (c :: cs), segment <:+ longer := by
  by_cases hc : c = sep
  · rw [hc, splitOn_separator]
    exact ⟨segment, List.mem_cons_of_mem _ h, List.suffix_rfl⟩
  · obtain ⟨first, segments, hcs⟩ := exists_splitOn sep cs
    rw [hcs, List.mem_cons] at h
    rw [splitOn_cons hc hcs]
    rcases h with h | h
    · exact ⟨c :: first, List.mem_cons_self, h ▸ List.suffix_cons c first⟩
    · exact ⟨segment, List.mem_cons_of_mem _ h, List.suffix_rfl⟩

/-- What begins a list and has no separator is in its first segment. -/
theorem prefix_splitOn {t cs first : List α} {segments : List (List α)} (ht : sep ∉ t)
    (h : t <+: cs) (hcs : splitOn sep cs = first :: segments) : t <+: first := by
  induction t generalizing cs first segments with
  | nil => exact List.nil_prefix
  | cons a t ih =>
    obtain ⟨ha, ht⟩ := not_or.mp (mt List.mem_cons.mpr ht)
    obtain ⟨rest, rfl⟩ := h
    obtain ⟨first', segments', hrest⟩ := exists_splitOn sep (t ++ rest)
    rw [List.cons_append, splitOn_cons (Ne.symm ha) hrest] at hcs
    obtain ⟨rfl, rfl⟩ := List.cons.inj hcs
    exact List.cons_prefix_cons.mpr ⟨rfl, ih ht (List.prefix_append t rest) hrest⟩

/-- What is in a list and has no separator is in one of its segments. -/
theorem infix_splitOn {t cs : List α} (ht : sep ∉ t) (h : t <:+: cs) :
    ∃ segment ∈ splitOn sep cs, t <:+: segment := by
  induction cs with
  | nil =>
    refine ⟨[], List.mem_singleton_self _, ?_⟩
    exact h
  | cons c cs ih =>
    rcases List.infix_cons_iff.mp h with h | h
    · obtain ⟨first, segments, hcs⟩ := exists_splitOn sep (c :: cs)
      exact ⟨first, by rw [hcs]; exact List.mem_cons_self, (prefix_splitOn ht h hcs).isInfix⟩
    · obtain ⟨segment, hsegment, hin⟩ := ih h
      obtain ⟨longer, hlonger, hsuffix⟩ := exists_splitOn_cons hsegment c
      exact ⟨longer, hlonger, hin.trans hsuffix.isInfix⟩

theorem suffix_splitOn {t cs : List α} (ht : sep ∉ t) (h : t <:+ cs) :
    ∃ segment ∈ splitOn sep cs, t <:+ segment := by
  induction cs with
  | nil =>
    refine ⟨[], List.mem_singleton_self _, ?_⟩
    exact h
  | cons c cs ih =>
    rcases List.suffix_cons_iff.mp h with h | h
    · rw [h] at ht ⊢
      exact ⟨c :: cs, by rw [splitOn_of_not_mem ht]; exact List.mem_singleton_self _,
        List.suffix_rfl⟩
    · obtain ⟨segment, hsegment, hin⟩ := ih h
      obtain ⟨longer, hlonger, hsuffix⟩ := exists_splitOn_cons hsegment c
      exact ⟨longer, hlonger, hin.trans hsuffix⟩

end Segments
