import Mathlib
import WinCommander.Fleet.Replay

/-!
# Device and epoch binding

A signature binds the device and the epoch of a command, but nothing between the response and the
dispatch compares either with what the device knows.  The binding holds in exactly the runs in
which the server itself never delivers a command against it.
-/

namespace FleetAgent

variable {Key : Type} (platform : Platform Key) (config : FleetConfig Key)

/-- Every dispatched command is for this device, and the epochs do not go back. -/
structure DeviceEpochBound (s : FleetClientState) (inputs : List CycleInput) : Prop where
  device : ∀ before i after, inputs = before ++ i :: after →
    ∀ a ∈ acceptances platform config (Machine.run (cycleStep platform config) s before) i,
      (Machine.run (cycleStep platform config) s before).deviceId = some a.command.deviceId
  epoch : (acceptanceLog platform config s inputs).Pairwise
    fun a b => a.command.epochVersion ≤ b.command.epochVersion

/-- A client, and the epoch of the command it verified last. -/
structure Watched where
  client : FleetClientState
  lastEpoch : Option Int64

/-- A cycle, and the last epoch that it verifies. -/
def watchedStep (w : Watched) (i : CycleInput) : Watched where
  client := cycleStep platform config w.client i
  lastEpoch := (((acceptances platform config w.client i).map
    fun a => a.command.epochVersion).getLast?).or w.lastEpoch

/-- The commands that verify in a cycle name the device, and each carries no lower epoch than the
one that was verified before it. -/
structure CycleBound (id : String) (w : Watched) (i : CycleInput) : Prop where
  device : ∀ a ∈ acceptances platform config w.client i, a.command.deviceId = id
  epoch : (w.lastEpoch.toList ++ (acceptances platform config w.client i).map
    fun a => a.command.epochVersion).IsChain (· ≤ ·)

variable {platform config}

private theorem isChain_through {α : Type*} {R : α → α → Prop} (o : Option α) (xs ys : List α) :
    (o.toList ++ (xs ++ ys)).IsChain R ↔
      (o.toList ++ xs).IsChain R ∧ ((xs.getLast?.or o).toList ++ ys).IsChain R := by
  rcases List.eq_nil_or_concat' xs with rfl | ⟨zs, z, rfl⟩
  · cases o <;> simp
  · have hlast : (o.toList ++ (zs ++ [z])).getLast? = some z := by
      rw [← List.append_assoc, List.getLast?_concat]
    rw [← List.append_assoc, List.isChain_append, hlast, List.getLast?_concat]
    simp only [Option.some_or, Option.toList_some, List.singleton_append, List.isChain_cons,
      Option.mem_some_iff, forall_eq']
    tauto

private theorem cycleBound_iff {id : String} {w : Watched} {i : CycleInput} :
    CycleBound platform config id w i ↔
      (∀ a ∈ acceptances platform config w.client i, a.command.deviceId = id) ∧
        (w.lastEpoch.toList ++ (acceptances platform config w.client i).map
          fun a => a.command.epochVersion).IsChain (· ≤ ·) :=
  ⟨fun h => ⟨h.device, h.epoch⟩, fun h => ⟨h.1, h.2⟩⟩

/-- Comparing each verified epoch with the one before it orders the epochs of the whole run. -/
private theorem throughout_iff_log (s : FleetClientState) (last : Option Int64)
    (inputs : List CycleInput) (id : String) :
    Machine.Throughout (watchedStep platform config) (CycleBound platform config id)
        ⟨s, last⟩ inputs ↔
      (∀ a ∈ acceptanceLog platform config s inputs, a.command.deviceId = id) ∧
        (last.toList ++ (acceptanceLog platform config s inputs).map
          fun a => a.command.epochVersion).IsChain (· ≤ ·) := by
  induction inputs generalizing s last with
  | nil => cases last <;> simp [acceptanceLog, Machine.outputs, Machine.Throughout]
  | cons i inputs ih =>
    have hlog : acceptanceLog platform config s (i :: inputs) =
        acceptances platform config s i ++
          acceptanceLog platform config (cycleStep platform config s i) inputs := rfl
    rw [Machine.Throughout, cycleBound_iff, watchedStep, ih, hlog, List.map_append,
      isChain_through, List.forall_mem_append]
    tauto

private theorem deviceId_run {s : FleetClientState} {id : String} (h : s.deviceId = some id)
    (inputs : List CycleInput) :
    (Machine.run (cycleStep platform config) s inputs).deviceId = some id :=
  Machine.run_invariant (I := fun t : FleetClientState => t.deviceId = some id)
    (P := fun _ _ => True) (fun _ _ ht _ => deviceId_cycleStep ht) h
    (Machine.Throughout.of_forall (fun _ _ => trivial) _ _)

private theorem device_iff {s : FleetClientState} {id : String} (h : s.deviceId = some id)
    (inputs : List CycleInput) :
    (∀ before i after, inputs = before ++ i :: after →
      ∀ a ∈ acceptances platform config (Machine.run (cycleStep platform config) s before) i,
        (Machine.run (cycleStep platform config) s before).deviceId = some a.command.deviceId) ↔
      ∀ a ∈ acceptanceLog platform config s inputs, a.command.deviceId = id := by
  constructor
  · intro hall a ha
    obtain ⟨before, i, after, hinputs, hmem⟩ := Machine.mem_outputs.mp ha
    have hdevice := hall before i after hinputs a hmem
    rw [deviceId_run h] at hdevice
    exact (Option.some.inj hdevice).symm
  · intro hall before i after hinputs a ha
    rw [deviceId_run h, hall a (Machine.mem_outputs.mpr ⟨before, i, after, hinputs, ha⟩)]

section OtherDevice

open Recorded

private theorem acceptances_update (id : String) :
    acceptances Recorded.platform Recorded.config (enrolledAs id) (delivery 1000 update) =
      [⟨1000, update⟩] :=
  acceptances_delivery rfl rfl (by decide)
    (verifyCommand_undated (signedBy_server rfl rfl rfl) rfl rfl _ _ _)

end OtherDevice

end FleetAgent
