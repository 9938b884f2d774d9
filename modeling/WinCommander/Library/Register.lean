import Mathlib.Order.Basic
import WinCommander.Library.Run

/-!
# Versions that are kept twice

A register holds a version durably and, while a process runs, actively in memory.  A write is
guarded by the active version only, and a restart may lose that one.  The active version never
disagrees with the durable one, so a register goes back only where a write finds no active version.
-/

/-- The version in a file and the version in memory. -/
@[ext]
structure Register (V : Type*) where
  durable : Option V
  active : Option V

namespace Register

variable {V : Type*}

/-- What is active is also durable. -/
def Synced (r : Register V) : Prop := ∀ v, r.active = some v → r.durable = some v

section Moves

variable [LE V]

/-- What a step may do to a register. -/
inductive Move (r : Register V) : Register V → Prop
  | keep : Move r r
  | store (v : V) (guard : ∀ current, r.active = some current → current ≤ v) :
      Move r ⟨some v, some v⟩
  | reload (active : Option V) (h : active = none ∨ active = r.durable) :
      Move r ⟨r.durable, active⟩

/-- The durable version is kept or raised. -/
def DurableKept (r r' : Register V) : Prop :=
  ∀ v, r.durable = some v → ∃ w, r'.durable = some w ∧ v ≤ w

end Moves

section Order

variable [Preorder V]

theorem durableKept_refl (r : Register V) : DurableKept r r := fun v hv => ⟨v, hv, le_refl v⟩

theorem DurableKept.trans {r s t : Register V} (hrs : DurableKept r s) (hst : DurableKept s t) :
    DurableKept r t := by
  intro v hv
  obtain ⟨w, hw, hvw⟩ := hrs v hv
  obtain ⟨u, hu, hwu⟩ := hst w hw
  exact ⟨u, hu, le_trans hvw hwu⟩

theorem Move.synced {r r' : Register V} (h : Move r r') (hr : r.Synced) : r'.Synced := by
  cases h with
  | keep => exact hr
  | store v guard => exact fun w hw => hw
  | reload active h =>
    intro v hv
    change active = some v at hv
    rcases h with rfl | rfl
    · exact absurd hv (by simp)
    · exact hv

/-- Only a write without an active version can lower the durable one. -/
theorem Move.durableKept {r r' : Register V} (h : Move r r') (hr : r.Synced)
    (hactive : r.active ≠ none) : DurableKept r r' := by
  cases h with
  | keep => exact durableKept_refl r
  | store v guard =>
    intro d hd
    obtain ⟨current, hcurrent⟩ := Option.ne_none_iff_exists'.mp hactive
    have heq : current = d := Option.some.inj ((hr current hcurrent).symm.trans hd)
    exact ⟨v, rfl, heq ▸ guard current hcurrent⟩
  | reload active h => exact durableKept_refl r

end Order

section Runs

variable [Preorder V] {σ α : Type*} (step : σ → α → σ) (view : σ → Register V)

/-- Between any two moments of a run neither version goes back. -/
structure NeverRollsBack (s : σ) (acts : List α) : Prop where
  durable : ∀ xs ys zs, acts = xs ++ ys ++ zs →
    DurableKept (view (Machine.run step s xs)) (view (Machine.run step s (xs ++ ys)))
  active : ∀ xs ys zs, acts = xs ++ ys ++ zs →
    ∀ v w, (view (Machine.run step s xs)).active = some v →
      (view (Machine.run step s (xs ++ ys))).active = some w → v ≤ w

variable {step view}

/-- A register never goes back exactly when no single step lowers the durable version. -/
theorem neverRollsBack_iff_throughout (hmove : ∀ s a, Move (view s) (view (step s a))) {s : σ}
    (hs : (view s).Synced) (acts : List α) :
    NeverRollsBack step view s acts ↔
      Machine.Throughout step (fun s a => DurableKept (view s) (view (step s a))) s acts := by
  constructor
  · intro h
    refine (Machine.throughout_iff s acts).mpr fun xs a ys hacts => ?_
    have hkept := h.durable xs [a] ys (by simp [hacts])
    rwa [Machine.run_append] at hkept
  · intro h
    have hsynced : ∀ xs : List α, (view (Machine.run step s xs)).Synced := fun xs =>
      Machine.run_invariant (I := fun s => (view s).Synced) (P := fun _ _ => True)
        (fun s a hs _ => (hmove s a).synced hs) hs
        (Machine.Throughout.of_forall (fun _ _ => trivial) s xs)
    have hdurable : ∀ xs ys zs, acts = xs ++ ys ++ zs →
        DurableKept (view (Machine.run step s xs)) (view (Machine.run step s (xs ++ ys))) := by
      intro xs ys zs hacts
      rw [hacts, List.append_assoc, Machine.throughout_append, Machine.throughout_append] at h
      rw [Machine.run_append]
      exact Machine.run_relates (I := fun _ => True) (R := fun s t => DurableKept (view s) (view t))
        (fun s => durableKept_refl (view s)) DurableKept.trans (fun _ _ _ _ => trivial)
        (fun _ _ _ hkept => hkept) trivial h.2.1
    refine ⟨hdurable, fun xs ys zs hacts v w hv hw => ?_⟩
    obtain ⟨u, hu, hvu⟩ := hdurable xs ys zs hacts v (hsynced xs v hv)
    have hwu : w = u := Option.some.inj ((hsynced (xs ++ ys) w hw).symm.trans hu)
    exact hwu ▸ hvu

end Runs

end Register
