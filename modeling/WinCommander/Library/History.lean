import Mathlib.Data.List.DropRight

/-!
# Histories

A history is a list of events, oldest first.  A condition on histories says of every event how it
follows from the ones before it.
-/

namespace History

variable {E α : Type*} {P Q : List E → E → Prop} {log : List E}

/-- Every event of a history stands in a relation to the events before it. -/
def Fits (P : List E → E → Prop) (log : List E) : Prop :=
  ∀ before e after, log = before ++ e :: after → P before e

theorem fits_nil : Fits P [] := by
  intro before e after h
  simp at h

theorem Fits.concat (h : Fits P log) {e : E} (he : P log e) : Fits P (log ++ [e]) := by
  intro before e' after heq
  rcases List.eq_nil_or_concat after with rfl | ⟨rest, last, rfl⟩
  · have hparts := List.append_inj' heq rfl
    have hlast : e = e' := (List.cons.inj hparts.2).1
    rw [← hparts.1, ← hlast]
    exact he
  · rw [List.concat_eq_append, ← List.cons_append, ← List.append_assoc] at heq
    exact h before e' rest (List.append_inj' heq rfl).1

theorem Fits.mono (h : Fits P log) (hpq : ∀ before e, P before e → Q before e) : Fits Q log :=
  fun before e after heq => hpq before e (h before e after heq)

/-- What every event meets, whatever came before it. -/
theorem Fits.of_mem {R : E → Prop} (h : Fits (fun _ e => R e) log) {e : E} (he : e ∈ log) : R e := by
  obtain ⟨before, after, heq⟩ := List.append_of_mem he
  exact h before e after heq

/-- A condition on a history that holds of every beginning of it. -/
theorem Fits.left {before after : List E} (h : Fits P (before ++ after)) : Fits P before := by
  intro xs e ys heq
  apply h xs e (ys ++ after)
  rw [heq, List.append_assoc, List.cons_append]

/-- What happened after the last event of a kind. -/
def since (marks : E → Bool) (log : List E) : List E := log.rtakeWhile fun e => !marks e

@[simp] theorem since_nil (marks : E → Bool) : since marks [] = [] := List.rtakeWhile_nil _

theorem since_concat_of_marks {marks : E → Bool} {e : E} (h : marks e = true) (log : List E) :
    since marks (log ++ [e]) = [] :=
  List.rtakeWhile_concat_neg _ _ _ (by simp [h])

theorem since_concat {marks : E → Bool} {e : E} (h : marks e = false) (log : List E) :
    since marks (log ++ [e]) = since marks log ++ [e] :=
  List.rtakeWhile_concat_pos _ _ _ (by simp [h])

/-- What the last event that says anything says. -/
def latest (f : E → Option α) (log : List E) : Option α := log.reverse.findSome? f

theorem latest_concat_of_some {f : E → Option α} {e : E} {a : α} (h : f e = some a)
    (log : List E) : latest f (log ++ [e]) = some a := by
  rw [latest, List.reverse_concat, List.findSome?_cons, h]

theorem latest_concat_of_none {f : E → Option α} {e : E} (h : f e = none) (log : List E) :
    latest f (log ++ [e]) = latest f log := by
  rw [latest, List.reverse_concat, List.findSome?_cons, h, latest]

theorem latest_append {f : E → Option α} (xs ys : List E) :
    latest f (xs ++ ys) = (latest f ys).or (latest f xs) := by
  rw [latest, List.reverse_append, List.findSome?_append, latest, latest]

theorem exists_of_latest {f : E → Option α} {a : α} (h : latest f log = some a) :
    ∃ e ∈ log, f e = some a := by
  obtain ⟨e, he, hf⟩ := List.exists_of_findSome?_eq_some h
  exact ⟨e, List.mem_reverse.mp he, hf⟩

/-- An event that is followed only by events of a kind, up to the end. -/
def FollowedBy (starts goes : E → Prop) (log : List E) : Prop :=
  ∃ before e after, log = before ++ e :: after ∧ starts e ∧ ∀ x ∈ after, goes x

theorem not_followedBy_nil {starts goes : E → Prop} : ¬ FollowedBy starts goes [] := by
  rintro ⟨before, e, after, h, -⟩
  simp at h

theorem followedBy_concat {starts goes : E → Prop} {e : E} :
    FollowedBy starts goes (log ++ [e]) ↔ starts e ∨ (FollowedBy starts goes log ∧ goes e) := by
  constructor
  · rintro ⟨before, e', after, heq, hstarts, hgoes⟩
    rcases List.eq_nil_or_concat after with rfl | ⟨rest, last, rfl⟩
    · have hparts := List.append_inj' heq rfl
      rw [(List.cons.inj hparts.2).1]
      exact .inl hstarts
    · rw [List.concat_eq_append, ← List.cons_append, ← List.append_assoc] at heq
      have hparts := List.append_inj' heq rfl
      rw [(List.cons.inj hparts.2).1]
      refine .inr ⟨⟨before, e', rest, hparts.1, hstarts, ?_⟩, ?_⟩
      · intro x hx
        exact hgoes x (by simp [hx])
      · exact hgoes last (by simp)
  · rintro (hstarts | ⟨⟨before, e', after, rfl, hstarts, hgoes⟩, he⟩)
    · exact ⟨log, e, [], rfl, hstarts, by simp⟩
    · refine ⟨before, e', after ++ [e], by simp, hstarts, ?_⟩
      intro x hx
      rcases List.mem_append.mp hx with hx | hx
      · exact hgoes x hx
      · rw [List.mem_singleton.mp hx]
        exact he

end History
