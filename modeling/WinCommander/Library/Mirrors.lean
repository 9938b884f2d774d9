import WinCommander.Library.Outcome

/-!
# Two walks over one input

A gate stops at the first failure; a pass goes on and marks what it carries.  The pass mirrors the
gate if what it carries stays clean exactly when the gate lets the input through.
-/

namespace Outcome

universe u

variable {σ α : Type*} {ε : Type u} {clean : σ → Prop}

def Mirrors (clean : σ → Prop) (pass : σ → σ) (gate : Except ε PUnit.{1}) : Prop :=
  ∀ s, clean (pass s) ↔ clean s ∧ gate = .ok ()

/-- Carry out a pass for each element in turn. -/
def passAll (pass : α → σ → σ) (as : List α) (s : σ) : σ := as.foldl (fun s a => pass a s) s

/-- Mark where a condition holds. -/
def markIf (bad : Prop) [Decidable bad] (mark : σ → σ) (s : σ) : σ := if bad then mark s else s

theorem mirrors_quiet {pass : σ → σ} (h : ∀ s, clean (pass s) ↔ clean s) :
    Mirrors clean pass (.ok () : Except ε PUnit.{1}) := by
  intro s
  simp [h s]

theorem mirrors_id : Mirrors clean id (.ok () : Except ε PUnit.{1}) := mirrors_quiet fun _ => Iff.rfl

theorem mirrors_error {mark : σ → σ} (h : ∀ s, ¬ clean (mark s)) (e : ε) :
    Mirrors clean mark (.error e) := by
  intro s
  simp [h s]

theorem mirrors_refuseIf {mark : σ → σ} (h : ∀ s, ¬ clean (mark s)) (bad : Prop) [Decidable bad]
    (e : ε) : Mirrors clean (markIf bad mark) (refuseIf bad e) := by
  intro s
  by_cases hbad : bad
  · simp [markIf, hbad, h s]
  · simp [markIf, hbad]

/-- A check whose other branch is a pass that leaves no mark. -/
theorem mirrors_ite {mark quiet : σ → σ} (h : ∀ s, ¬ clean (mark s))
    (hquiet : ∀ s, clean (quiet s) ↔ clean s) (bad : Prop) [Decidable bad] (e : ε) :
    Mirrors clean (fun s => if bad then mark s else quiet s) (refuseIf bad e) := by
  intro s
  by_cases hbad : bad
  · simp [hbad, h s]
  · simp [hbad, hquiet s]

theorem Mirrors.bind {first second : σ → σ} {gate gate' : Except ε PUnit.{1}}
    (h : Mirrors clean first gate) (h' : Mirrors clean second gate') :
    Mirrors clean (fun s => second (first s)) (gate >>= fun _ => gate') := by
  intro s
  have hgates : (gate >>= fun _ => gate') = .ok () ↔ gate = .ok () ∧ gate' = .ok () := by
    rw [bind_ok]
    constructor
    · rintro ⟨_, hgate, hgate'⟩
      exact ⟨hgate, hgate'⟩
    · rintro ⟨hgate, hgate'⟩
      exact ⟨(), hgate, hgate'⟩
  rw [h' (first s), h s, hgates, and_assoc]

/-- A gate followed by a pass that leaves no mark. -/
theorem Mirrors.quiet {first second : σ → σ} {gate : Except ε PUnit.{1}}
    (h : Mirrors clean first gate) (hquiet : ∀ s, clean (second s) ↔ clean s) :
    Mirrors clean (fun s => second (first s)) gate := by
  intro s
  rw [hquiet (first s), h s]

/-- A pass that tells each element its place. -/
theorem mirrors_zipIdx {pass : α × ℕ → σ → σ} {gate : α → Except ε PUnit.{1}} {as : List α}
    (h : ∀ a i, Mirrors clean (pass (a, i)) (gate a)) (start : ℕ) :
    Mirrors clean (passAll pass (as.zipIdx start)) (as.forM gate) := by
  induction as generalizing start with
  | nil => exact mirrors_id
  | cons a as ih =>
    have hhead := h a start
    have htail := ih (start + 1)
    exact hhead.bind htail

end Outcome
