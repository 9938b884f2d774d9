import Mathlib.Data.List.Forall2

/-!
# Computations that may give nothing

A list of computations gives the list of its values, or nothing with the first that gives nothing.
-/

namespace Optional

/-- A loop that fails where an element has no value is one over the values. -/
theorem foldlM_map {α β γ : Type*} (f : α → Option β) (g : γ → β → γ) (c : γ) (as : List α) :
    as.foldlM (fun c a => (f a).map (g c)) c = (as.mapM f).map fun bs => bs.foldl g c := by
  induction as generalizing c with
  | nil => rfl
  | cons a as ih =>
    rw [List.foldlM_cons, List.mapM_cons]
    cases hf : f a with
    | none => simp
    | some b =>
      simp only [Option.map_some, Option.bind_eq_bind, Option.bind_some, ih]
      cases as.mapM f <;> rfl

theorem mapM_eq_some {α β : Type*} {f : α → Option β} {as : List α} {bs : List β} :
    as.mapM f = some bs ↔ List.Forall₂ (fun a b => f a = some b) as bs := by
  induction as generalizing bs with
  | nil =>
    constructor
    · intro h
      rw [← Option.some.inj h]
      exact List.Forall₂.nil
    · intro h
      cases h
      rfl
  | cons a as ih =>
    rw [List.mapM_cons]
    constructor
    · intro h
      obtain ⟨b, hb, h⟩ := Option.bind_eq_some_iff.mp h
      obtain ⟨rest, hrest, h⟩ := Option.bind_eq_some_iff.mp h
      rw [← Option.some.inj h]
      exact List.Forall₂.cons hb (ih.mp hrest)
    · intro h
      cases h with
      | cons hb hrest => simp [hb, ih.mpr hrest]

theorem exists_of_forall₂ {α β : Type*} {R : α → β → Prop} {as : List α} {bs : List β}
    (h : List.Forall₂ R as bs) {b : β} (hb : b ∈ bs) : ∃ a, R a b := by
  induction h with
  | nil => exact absurd hb (by simp)
  | cons hr _ ih =>
    rcases List.mem_cons.mp hb with rfl | hb
    · exact ⟨_, hr⟩
    · exact ih hb

theorem mapM_eq_none {α β : Type*} {f : α → Option β} {as : List α} :
    as.mapM f = none ↔ ∃ a ∈ as, f a = none := by
  induction as with
  | nil => simp
  | cons a as ih =>
    rw [List.mapM_cons]
    cases hf : f a with
    | none => simp [hf]
    | some b => cases hm : as.mapM f <;> simp_all

theorem mapM_of_forall {α β : Type*} {f : α → Option β} {g : α → β} {as : List α}
    (h : ∀ a ∈ as, f a = some (g a)) : as.mapM f = some (as.map g) := by
  induction as with
  | nil => rfl
  | cons a as ih =>
    rw [List.forall_mem_cons] at h
    rw [List.mapM_cons, h.1, ih h.2]
    rfl

/-- A loop whose every step gives something, while an invariant holds, is a loop without failures. -/
theorem foldlM_of_forall {α β : Type*} {P : β → Prop} {f : β → α → Option β} {g : β → α → β}
    (as : List α) (b : β) (hb : P b)
    (hstep : ∀ b, P b → ∀ a ∈ as, f b a = some (g b a) ∧ P (g b a)) :
    as.foldlM f b = some (as.foldl g b) := by
  induction as generalizing b with
  | nil => rfl
  | cons a as ih =>
    obtain ⟨hf, hg⟩ := hstep b hb a List.mem_cons_self
    rw [List.foldlM_cons, hf, List.foldl_cons]
    exact ih (g b a) hg fun b hb a ha => hstep b hb a (List.mem_cons_of_mem _ ha)

end Optional
