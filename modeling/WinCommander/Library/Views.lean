import WinCommander.Library.Run

/-!
# Parts of a machine

A part of a machine that moves by a step of its own sees of every action only what concerns it, and so
do its runs.
-/

namespace Machine

variable {σ α ω τ β υ : Type*} {step : σ → α → σ} {out : σ → α → List ω}
  {step' : τ → β → τ} {out' : τ → β → List υ} {view : σ → τ} {act : α → β} {f : ω → Option υ}

theorem run_view (hstep : ∀ s a, view (step s a) = step' (view s) (act a)) (s : σ) (acts : List α) :
    view (run step s acts) = run step' (view s) (acts.map act) := by
  induction acts generalizing s with
  | nil => rfl
  | cons a acts ih => rw [run_cons, ih, hstep, List.map_cons, run_cons]

theorem outputs_view (hstep : ∀ s a, view (step s a) = step' (view s) (act a))
    (hout : ∀ s a, (out s a).filterMap f = out' (view s) (act a)) (s : σ) (acts : List α) :
    (outputs step out s acts).filterMap f = outputs step' out' (view s) (acts.map act) := by
  induction acts generalizing s with
  | nil => rfl
  | cons a acts ih => simp only [outputs, List.filterMap_append, hout, ih, hstep, List.map_cons]

end Machine
