import Mathlib.Logic.Basic
import Mathlib.Data.List.Basic

/-!
# Runs of a deterministic machine

A machine is a step function.  A run is a list of actions, and whatever the environment
decides at a step (a clock reading, an input and output fault) is part of that step's action.
-/

namespace Machine

variable {σ α ω : Type*} (step : σ → α → σ)

/-- The state reached from `s` by a list of actions. -/
def run (s : σ) (acts : List α) : σ := acts.foldl step s

/-- Every step meets a condition on the state before it and on its action. -/
def Throughout (P : σ → α → Prop) : σ → List α → Prop
  | _, [] => True
  | s, a :: acts => P s a ∧ Throughout P (step s a) acts

/-- What the steps put out, in order. -/
def outputs (out : σ → α → List ω) : σ → List α → List ω
  | _, [] => []
  | s, a :: acts => out s a ++ outputs out (step s a) acts

variable {step}

@[simp] theorem run_nil (s : σ) : run step s [] = s := rfl

@[simp] theorem run_cons (s : σ) (a : α) (acts : List α) :
    run step s (a :: acts) = run step (step s a) acts := rfl

theorem run_append (s : σ) (xs ys : List α) :
    run step s (xs ++ ys) = run step (run step s xs) ys :=
  List.foldl_append

theorem throughout_append {P : σ → α → Prop} (s : σ) (xs ys : List α) :
    Throughout step P s (xs ++ ys) ↔
      Throughout step P s xs ∧ Throughout step P (run step s xs) ys := by
  induction xs generalizing s with
  | nil => simp [Throughout]
  | cons a xs ih => simp only [List.cons_append, Throughout, ih, run_cons, and_assoc]

/-- A run meets a condition throughout when each of its steps does. -/
theorem throughout_iff {P : σ → α → Prop} (s : σ) (acts : List α) :
    Throughout step P s acts ↔
      ∀ xs a ys, acts = xs ++ a :: ys → P (run step s xs) a := by
  constructor
  · rintro h xs a ys rfl
    exact ((throughout_append s xs (a :: ys)).mp h).2.1
  · intro h
    induction acts generalizing s with
    | nil => trivial
    | cons a acts ih =>
      refine ⟨h [] a acts rfl, ih _ ?_⟩
      intro xs b ys hs
      exact h (a :: xs) b ys (by rw [hs, List.cons_append])

theorem Throughout.of_forall {P : σ → α → Prop} (h : ∀ s a, P s a) (s : σ) (acts : List α) :
    Throughout step P s acts :=
  (throughout_iff s acts).mpr fun _ _ _ _ => h _ _

/-- The invariant rule: what every admissible step keeps, every admissible run keeps. -/
theorem run_invariant {I : σ → Prop} {P : σ → α → Prop}
    (hstep : ∀ s a, I s → P s a → I (step s a)) {s : σ} {acts : List α}
    (hs : I s) (hp : Throughout step P s acts) : I (run step s acts) := by
  induction acts generalizing s with
  | nil => exact hs
  | cons a acts ih => exact ih (hstep s a hs hp.1) hp.2

/-- On the runs of an environment two conditions that agree under an invariant, which the first one
keeps, agree. -/
theorem throughout_congr_under {I : σ → Prop} {F P Q : σ → α → Prop}
    (hstep : ∀ s a, I s → F s a → (P s a ↔ Q s a))
    (hkeep : ∀ s a, I s → F s a → P s a → I (step s a)) {s : σ} {acts : List α} (hs : I s)
    (hf : Throughout step F s acts) : Throughout step P s acts ↔ Throughout step Q s acts := by
  induction acts generalizing s with
  | nil => exact Iff.rfl
  | cons a acts ih =>
    have hhead := hstep s a hs hf.1
    constructor
    · rintro ⟨hp, hrest⟩
      exact ⟨hhead.mp hp, (ih (hkeep s a hs hf.1 hp) hf.2).mp hrest⟩
    · rintro ⟨hq, hrest⟩
      have hp := hhead.mpr hq
      exact ⟨hp, (ih (hkeep s a hs hf.1 hp) hf.2).mpr hrest⟩

/-- Two conditions that agree under an invariant, which the first one keeps, agree on whole runs. -/
theorem throughout_congr {I : σ → Prop} {P Q : σ → α → Prop}
    (hstep : ∀ s a, I s → (P s a ↔ Q s a)) (hkeep : ∀ s a, I s → P s a → I (step s a)) {s : σ}
    {acts : List α} (hs : I s) : Throughout step P s acts ↔ Throughout step Q s acts :=
  throughout_congr_under (fun s a h _ => hstep s a h) (fun s a h _ => hkeep s a h) hs
    (Throughout.of_forall (fun _ _ => trivial) s acts)

/-- Under an invariant a stronger condition may be read off every step. -/
theorem Throughout.strengthen {I : σ → Prop} {P Q : σ → α → Prop}
    (hstep : ∀ s a, I s → P s a → I (step s a)) (hq : ∀ s a, I s → P s a → Q s a)
    {s : σ} {acts : List α} (hs : I s) (hp : Throughout step P s acts) :
    Throughout step Q s acts := by
  induction acts generalizing s with
  | nil => trivial
  | cons a acts ih => exact ⟨hq s a hs hp.1, ih (hstep s a hs hp.1) hp.2⟩

/-- The order rule: a reflexive and transitive relation that every admissible step respects
holds between the two ends of every admissible run. -/
theorem run_relates {I : σ → Prop} {P : σ → α → Prop} {R : σ → σ → Prop}
    (hrefl : ∀ s, R s s) (htrans : ∀ {s t u}, R s t → R t u → R s u)
    (hstep : ∀ s a, I s → P s a → I (step s a)) (hrel : ∀ s a, I s → P s a → R s (step s a))
    {s : σ} {acts : List α} (hs : I s) (hp : Throughout step P s acts) :
    R s (run step s acts) := by
  induction acts generalizing s with
  | nil => exact hrefl s
  | cons a acts ih => exact htrans (hrel s a hs hp.1) (ih (hstep s a hs hp.1) hp.2)

theorem outputs_append {out : σ → α → List ω} (s : σ) (xs ys : List α) :
    outputs step out s (xs ++ ys) =
      outputs step out s xs ++ outputs step out (run step s xs) ys := by
  induction xs generalizing s with
  | nil => rfl
  | cons a xs ih => simp only [List.cons_append, outputs, ih, run_cons, List.append_assoc]

/-- The memory rule.  A step keeps something of each output in the state; while consecutive
actions are related by `Q`, what is kept stays and relates the output to every later one. -/
theorem outputs_pairwise {out : σ → α → List ω} {V : α → Prop} {Q : α → α → Prop}
    {K : α → ω → σ → Prop} {R : ω → ω → Prop}
    (hout : ∀ s a, V a → (out s a).Pairwise R)
    (hmake : ∀ s a o, V a → o ∈ out s a → K a o (step s a))
    (hkeep : ∀ s a b o, V b → Q a b → K a o s → K b o (step s b) ∧ ∀ o' ∈ out s b, R o o')
    {acts : List α} (hv : ∀ a ∈ acts, V a) (hq : acts.Pairwise Q) (s : σ) :
    (outputs step out s acts).Pairwise R := by
  have hlater : ∀ (acts : List α) (a : α) (o : ω) (s : σ), (∀ b ∈ acts, V b) →
      (a :: acts).Pairwise Q → K a o s → ∀ o' ∈ outputs step out s acts, R o o' := by
    intro acts
    induction acts with
    | nil => simp [outputs]
    | cons b acts ih =>
      intro a o s hv hq hk o' ho'
      rw [List.forall_mem_cons] at hv
      rw [List.pairwise_cons] at hq
      have hstep := hkeep s a b o hv.1 (hq.1 b List.mem_cons_self) hk
      rw [outputs, List.mem_append] at ho'
      rcases ho' with ho' | ho'
      · exact hstep.2 o' ho'
      · exact ih b o (step s b) hv.2 hq.2 hstep.1 o' ho'
  induction acts generalizing s with
  | nil => exact List.Pairwise.nil
  | cons a acts ih =>
    rw [List.forall_mem_cons] at hv
    rw [outputs, List.pairwise_append]
    refine ⟨hout s a hv.1, ih hv.2 (List.pairwise_cons.mp hq).2 (step s a), ?_⟩
    intro o ho
    exact hlater acts a o (step s a) hv.2 hq (hmake s a o hv.1 ho)

theorem mem_outputs {out : σ → α → List ω} {s : σ} {acts : List α} {o : ω} :
    o ∈ outputs step out s acts ↔
      ∃ xs a ys, acts = xs ++ a :: ys ∧ o ∈ out (run step s xs) a := by
  induction acts generalizing s with
  | nil => simp [outputs]
  | cons a acts ih =>
    simp only [outputs, List.mem_append, ih]
    constructor
    · rintro (h | ⟨xs, b, ys, rfl, h⟩)
      · exact ⟨[], a, acts, rfl, h⟩
      · exact ⟨a :: xs, b, ys, rfl, h⟩
    · rintro ⟨xs, b, ys, heq, h⟩
      cases xs with
      | nil =>
        obtain ⟨rfl, rfl⟩ := List.cons.inj heq
        exact Or.inl h
      | cons c xs =>
        obtain ⟨rfl, rfl⟩ := List.cons.inj heq
        exact Or.inr ⟨xs, b, ys, rfl, h⟩

end Machine
