import Mathlib.Logic.Function.Basic
import WinCommander.Library.JsonPath
import WinCommander.Library.Outcome
import WinCommander.Library.Run

/-!
# Editing the flow rules

A local call reads the stored list of rules, edits one rule in it and writes the whole list back.
Between the two, other calls write the list and the Fleet updates it.
-/

namespace FlowBridge

open Json Outcome

section Edit

def asBool : Value → Option Bool
  | .bool b => some b
  | _ => none

def ruleId (rule : Value) : Option String := (rule.get "id").bind Value.asStr

def locked (rule : Value) : Bool := (rule.get "locked").bind asBool = some true

/-- Whether a rule has an id. -/
def hasId (id : String) (rule : Value) : Bool := ruleId rule = some id

/-- The settings that decide whether the flows may be edited. -/
structure Policy where
  syncMode : String
  lockedPaths : List String

def flowsLockedByPolicy (policy : Option Policy) : Bool :=
  policy.any fun policy =>
    policy.syncMode = "managed" &&
      policy.lockedPaths.any fun path => path = "app.flows" || path = "app.proFlows"

/-- Settings that cannot be read lock nothing. -/
def ensureFlowsEditable (policy : Option Policy) : Except String Unit :=
  refuseIf (flowsLockedByPolicy policy) "Flows are locked by admin policy on this device."

/-- Change the first rule with an id. -/
def alterFirst (id : String) (f : Value → Value) : List Value → List Value
  | [] => []
  | rule :: flows => if hasId id rule then f rule :: flows else rule :: alterFirst id f flows

/-- The edits of a local call. -/
inductive Edit where
  | save (rule : Value)
  | delete (ruleId : String)
  | setEnabled (ruleId : String) (enabled : Bool)
  deriving DecidableEq

def Edit.id : Edit → Except String String
  | .save rule => okOr (ruleId rule) "rule missing id"
  | .delete ruleId => .ok ruleId
  | .setEnabled ruleId _ => .ok ruleId

def saveRule (rule : Value) (id : String) (flows : List Value) : Except String (List Value) :=
  match flows.find? (hasId id) with
  | some slot =>
    if locked slot then .error "This rule is managed by fleet policy and is read-only."
    else .ok (alterFirst id (fun _ => rule) flows)
  | none => .ok (flows ++ [rule])

/-- The first rule with the id is looked up, and all of them go. -/
def deleteRule (id : String) (flows : List Value) : Except String (List Value) :=
  if (flows.find? (hasId id)).any locked then
    .error "This rule is managed by fleet policy and cannot be deleted."
  else .ok (flows.filter fun rule => !hasId id rule)

def enable (enabled : Bool) : Value → Value
  | .object members => .object (insert "enabled" (.bool enabled) members)
  | v => v

def setEnabled (id : String) (enabled : Bool) (flows : List Value) : Except String (List Value) :=
  match flows.find? (hasId id) with
  | none => .error s!"no rule with id '{id}'"
  | some slot =>
    if locked slot then .error "This rule is managed by fleet policy and is read-only."
    else .ok (alterFirst id (enable enabled) flows)

def Edit.apply (edit : Edit) (id : String) (flows : List Value) : Except String (List Value) :=
  match edit with
  | .save rule => saveRule rule id flows
  | .delete _ => deleteRule id flows
  | .setEnabled _ enabled => FlowBridge.setEnabled id enabled flows

/-- The rules that an edit leaves in a list, with the one that it saves there. -/
def Edit.spares (edit : Edit) (id : String) (flows : List Value) : List Value :=
  match edit with
  | .save rule => rule :: flows.eraseP (hasId id)
  | .delete _ => flows.filter fun rule => !hasId id rule
  | .setEnabled _ _ => flows.eraseP (hasId id)

/-- The rules with other ids. -/
def others (id : String) (flows : List Value) : List Value := flows.filter fun rule => !hasId id rule

variable {id : String} {flows edited : List Value} {edit : Edit}

theorem mem_alterFirst {f : Value → Value} {slot : Value} (h : flows.find? (hasId id) = some slot)
    (rule : Value) :
    rule ∈ alterFirst id f flows ↔ rule = f slot ∨ rule ∈ flows.eraseP (hasId id) := by
  induction flows with
  | nil => simp at h
  | cons first flows ih =>
    rw [alterFirst]
    cases hfirst : hasId id first with
    | true =>
      rw [List.find?_cons_of_pos hfirst, Option.some.injEq] at h
      rw [List.eraseP_cons_of_pos hfirst, if_pos rfl, List.mem_cons, h]
    | false =>
      have hnot : ¬ hasId id first = true := by simp [hfirst]
      rw [List.find?_cons_of_neg hnot] at h
      rw [List.eraseP_cons_of_neg hnot, if_neg (by simp), List.mem_cons, List.mem_cons, ih h]
      exact or_left_comm

theorem others_alterFirst {f : Value → Value} {slot : Value}
    (h : flows.find? (hasId id) = some slot) (hf : hasId id (f slot) = true) :
    others id (alterFirst id f flows) = others id flows := by
  induction flows with
  | nil => rfl
  | cons first flows ih =>
    rw [alterFirst]
    cases hfirst : hasId id first with
    | true =>
      rw [List.find?_cons_of_pos hfirst, Option.some.injEq] at h
      subst h
      simp [others, hfirst, hf]
    | false =>
      rw [List.find?_cons_of_neg (by simp [hfirst])] at h
      have hrest := ih h
      unfold others at hrest
      simp [others, hfirst, hrest]

theorem get_enable {enabled : Bool} {key : String} (h : key ≠ "enabled") (rule : Value) :
    (enable enabled rule).get key = rule.get key := by
  cases rule with
  | object members => exact lookup_insert_of_ne (.bool enabled) members h
  | _ => rfl

theorem hasId_enable (enabled : Bool) (rule : Value) :
    hasId id (enable enabled rule) = hasId id rule := by
  rw [hasId, ruleId, get_enable (by decide), hasId, ruleId]

theorem locked_enable (enabled : Bool) (rule : Value) :
    locked (enable enabled rule) = locked rule := by
  rw [locked, get_enable (by decide), locked]

/-- Of the locked rules, an edit keeps those that it spares. -/
theorem mem_apply (h : edit.apply id flows = .ok edited) {rule : Value}
    (hlocked : locked rule = true) : rule ∈ edited ↔ rule ∈ edit.spares id flows := by
  cases edit with
  | save saved =>
    simp only [Edit.apply, saveRule] at h
    rw [Edit.spares, List.mem_cons]
    cases hfind : flows.find? (hasId id) with
    | some slot =>
      simp only [hfind] at h
      split at h
      · exact absurd h (by simp)
      · rw [← Except.ok.inj h]
        exact mem_alterFirst hfind rule
    | none =>
      simp only [hfind] at h
      rw [← Except.ok.inj h, List.eraseP_of_forall_not, List.mem_append, List.mem_singleton]
      · exact or_comm
      · intro r hr
        simpa using List.find?_eq_none.mp hfind r hr
  | delete =>
    simp only [Edit.apply, deleteRule] at h
    split at h
    · exact absurd h (by simp)
    · rw [← Except.ok.inj h, Edit.spares]
  | setEnabled _ enabled =>
    simp only [Edit.apply, setEnabled] at h
    rw [Edit.spares]
    cases hfind : flows.find? (hasId id) with
    | none =>
      simp only [hfind] at h
      exact absurd h (by simp)
    | some slot =>
      simp only [hfind] at h
      split at h
      · exact absurd h (by simp)
      · next hslot =>
        rw [← Except.ok.inj h, mem_alterFirst hfind]
        refine or_iff_right fun heq => hslot ?_
        rw [← locked_enable enabled slot, ← heq]
        exact hlocked

/-- An edit leaves the rules with other ids as they are. -/
theorem others_apply (hid : edit.id = .ok id) (h : edit.apply id flows = .ok edited) :
    others id edited = others id flows := by
  cases edit with
  | save saved =>
    have hsaved : hasId id saved = true := by
      simp only [Edit.id, okOr_ok] at hid
      simp [hasId, hid]
    simp only [Edit.apply, saveRule] at h
    cases hfind : flows.find? (hasId id) with
    | some slot =>
      simp only [hfind] at h
      split at h
      · exact absurd h (by simp)
      · rw [← Except.ok.inj h]
        exact others_alterFirst hfind hsaved
    | none =>
      simp only [hfind] at h
      rw [← Except.ok.inj h]
      simp [others, hsaved]
  | delete =>
    simp only [Edit.apply, deleteRule] at h
    split at h
    · exact absurd h (by simp)
    · rw [← Except.ok.inj h]
      simp [others]
  | setEnabled _ enabled =>
    simp only [Edit.apply, setEnabled] at h
    cases hfind : flows.find? (hasId id) with
    | none =>
      simp only [hfind] at h
      exact absurd h (by simp)
    | some slot =>
      simp only [hfind] at h
      split at h
      · exact absurd h (by simp)
      · rw [← Except.ok.inj h]
        apply others_alterFirst hfind
        rw [hasId_enable]
        exact List.find?_some hfind

end Edit

section Interleaving

/-- How far a local call has come.  What it read, and what was stored just before its write, is kept
for the statements. -/
inductive Phase where
  | idle
  | checked (edit : Edit) (id : String)
  | edited (edit : Edit) (id : String) (read after : List Value)
  | persisted (edit : Edit) (id : String) (read before after : List Value)
  | done (result : Except String Unit)

structure World where
  flows : List Value
  policy : Policy
  phase : ℕ → Phase

def World.started (flows : List Value) (policy : Policy) : World := ⟨flows, policy, fun _ => .idle⟩

/-- How a write of the settings ends; one that fails may have been committed all the same. -/
inductive Written where
  | ok
  | failed (committed : Bool) (error : String)

def Written.commits : Written → Bool
  | .ok => true
  | .failed committed _ => committed

/-- What happens next: a step of a local call, with what it meets, or an update by the Fleet. -/
inductive Action where
  | check (call : ℕ) (edit : Edit) (paid : Except String Unit) (readable : Bool)
  | read (call : ℕ) (readable : Except String Unit)
  | persist (call : ℕ) (written : Written)
  | sync (call : ℕ) (result : Except String Unit)
  | fleet (flows : List Value) (policy : Policy)

/-- What a call checks before it reads the list. -/
def checkEdit (edit : Edit) (paid : Except String Unit) (policy : Option Policy) :
    Except String String := do
  paid
  ensureFlowsEditable policy
  edit.id

def World.to (w : World) (call : ℕ) (phase : Phase) : World :=
  { w with phase := Function.update w.phase call phase }

def Phase.afterCheck (edit : Edit) : Except String String → Phase
  | .ok id => .checked edit id
  | .error e => .done (.error e)

def Phase.afterRead (edit : Edit) (id : String) (flows : List Value) :
    Except String (List Value) → Phase
  | .ok after => .edited edit id flows after
  | .error e => .done (.error e)

def Phase.afterWrite (edit : Edit) (id : String) (read before after : List Value) :
    Written → Phase
  | .ok => .persisted edit id read before after
  | .failed _ e => .done (.error e)

@[grind =] def step (w : World) : Action → World
  | .check call edit paid readable =>
    match w.phase call with
    | .idle => w.to call (.afterCheck edit (checkEdit edit paid (if readable then w.policy else none)))
    | _ => w
  | .read call readable =>
    match w.phase call with
    | .checked edit id =>
      w.to call (.afterRead edit id w.flows (readable >>= fun _ => edit.apply id w.flows))
    | _ => w
  | .persist call written =>
    match w.phase call with
    | .edited edit id read after =>
      { w.to call (.afterWrite edit id read w.flows after written) with
        flows := if written.commits then after else w.flows }
    | _ => w
  | .sync call result =>
    match w.phase call with
    | .persisted _ _ _ _ _ => w.to call (.done result)
    | _ => w
  | .fleet flows policy => { w with flows, policy }

/-- What a local step must do.  Locked rules stay; only a write changes the list; and a call that
returns successfully has changed no rule but the one with its id. -/
def Untouched (w : World) : Action → Prop
  | .check call edit paid readable => (step w (.check call edit paid readable)).flows = w.flows
  | .read call readable => (step w (.read call readable)).flows = w.flows
  | .persist call written =>
    ∀ rule ∈ w.flows, locked rule = true → rule ∈ (step w (.persist call written)).flows
  | .sync call result => (step w (.sync call result)).flows = w.flows ∧
    ∀ edit id read before after, w.phase call = .persisted edit id read before after →
      result = .ok () → others id after = others id before
  | .fleet _ _ => True

/-- Every locked rule that is stored at a write was read by the call and is spared by its edit, and
a call that succeeds has read the other rules as they were at its write. -/
def Undisturbed (w : World) : Action → Prop
  | .persist call written => ∀ edit id read after, w.phase call = .edited edit id read after →
    written.commits = true → ∀ rule ∈ w.flows, locked rule = true → rule ∈ edit.spares id read
  | .sync call result => ∀ edit id read before after,
    w.phase call = .persisted edit id read before after → result = .ok () →
      others id read = others id before
  | _ => True

/-- What a call holds is its edit of what it read. -/
def Phase.Edited : Phase → Prop
  | .checked edit id => edit.id = .ok id
  | .edited edit id read after => edit.id = .ok id ∧ edit.apply id read = .ok after
  | .persisted edit id read _ after => edit.id = .ok id ∧ edit.apply id read = .ok after
  | _ => True

def Inv (w : World) : Prop := ∀ call, (w.phase call).Edited

variable {w : World}

theorem inv_started (flows : List Value) (policy : Policy) : Inv (.started flows policy) :=
  fun _ => trivial

theorem Inv.to (h : Inv w) {call : ℕ} {phase : Phase} (hphase : phase.Edited) :
    Inv (w.to call phase) := by
  intro c
  by_cases hc : c = call
  · subst hc
    simpa [World.to] using hphase
  · simpa [World.to, hc] using h c

theorem checkEdit_id {edit : Edit} {paid : Except String Unit} {policy : Option Policy}
    {id : String} (h : checkEdit edit paid policy = .ok id) : edit.id = .ok id := by
  simp only [checkEdit, bind_ok] at h
  obtain ⟨_, _, _, _, hid⟩ := h
  exact hid

theorem inv_step (h : Inv w) (a : Action) : Inv (step w a) := by
  cases a with
  | check call edit paid readable =>
    cases hphase : w.phase call with
    | idle =>
      simp only [step, hphase]
      apply h.to
      generalize hcheck : checkEdit edit paid _ = result
      cases result with
      | ok id => exact checkEdit_id hcheck
      | error => trivial
    | _ => simpa only [step, hphase] using h
  | read call readable =>
    cases hphase : w.phase call with
    | checked edit id =>
      simp only [step, hphase]
      have hid : edit.id = .ok id := by
        have hcall := h call
        rw [hphase] at hcall
        exact hcall
      apply h.to
      cases hresult : readable >>= fun _ => edit.apply id w.flows with
      | ok after =>
        obtain ⟨_, _, hafter⟩ := bind_ok.mp hresult
        exact ⟨hid, hafter⟩
      | error => trivial
    | _ => simpa only [step, hphase] using h
  | persist call written =>
    cases hphase : w.phase call with
    | edited edit id read after =>
      simp only [step, hphase]
      have hedited : edit.id = .ok id ∧ edit.apply id read = .ok after := by
        have hcall := h call
        rw [hphase] at hcall
        exact hcall
      have hnext : Inv (w.to call (.afterWrite edit id read w.flows after written)) := by
        apply h.to
        cases written with
        | ok => exact hedited
        | failed => trivial
      exact hnext
    | _ => simpa only [step, hphase] using h
  | sync call result =>
    cases hphase : w.phase call with
    | persisted =>
      simp only [step, hphase]
      exact h.to trivial
    | _ => simpa only [step, hphase] using h
  | fleet flows policy => exact h

theorem flows_check (call : ℕ) (edit : Edit) (paid : Except String Unit) (readable : Bool) :
    (step w (.check call edit paid readable)).flows = w.flows := by
  cases hphase : w.phase call with
  | _ => simp only [step, hphase, World.to]

theorem flows_read (call : ℕ) (readable : Except String Unit) :
    (step w (.read call readable)).flows = w.flows := by
  cases hphase : w.phase call with
  | _ => simp only [step, hphase, World.to]

theorem flows_sync (call : ℕ) (result : Except String Unit) :
    (step w (.sync call result)).flows = w.flows := by
  cases hphase : w.phase call with
  | _ => simp only [step, hphase, World.to]

theorem untouched_persist (h : Inv w) (call : ℕ) (written : Written) :
    Untouched w (.persist call written) ↔ Undisturbed w (.persist call written) := by
  simp only [Untouched, Undisturbed]
  cases hphase : w.phase call with
  | edited edit id read after =>
    have hafter : edit.apply id read = .ok after := by
      have hcall := h call
      rw [hphase] at hcall
      exact hcall.2
    simp only [step, hphase, Phase.edited.injEq]
    cases hcommits : written.commits with
    | false => exact iff_of_true (fun _ hrule _ => hrule) (by simp)
    | true =>
      constructor
      · rintro hkept edit' id' read' after' ⟨rfl, rfl, rfl, rfl⟩ - rule hrule hlocked
        exact (mem_apply hafter hlocked).mp (hkept rule hrule hlocked)
      · intro hspared rule hrule hlocked
        exact (mem_apply hafter hlocked).mpr
          (hspared edit id read after ⟨rfl, rfl, rfl, rfl⟩ rfl rule hrule hlocked)
  | _ =>
    simp only [step, hphase]
    exact iff_of_true (fun _ hrule _ => hrule) (by simp)

theorem untouched_sync (h : Inv w) (call : ℕ) (result : Except String Unit) :
    Untouched w (.sync call result) ↔ Undisturbed w (.sync call result) := by
  simp only [Untouched, Undisturbed]
  rw [and_iff_right (flows_sync call result)]
  have hothers : ∀ edit id read before after,
      w.phase call = .persisted edit id read before after → others id after = others id read := by
    intro edit id read before after hphase
    have hcall := h call
    rw [hphase] at hcall
    exact others_apply hcall.1 hcall.2
  constructor
  · intro hown edit id read before after hphase hresult
    rw [← hothers edit id read before after hphase]
    exact hown edit id read before after hphase hresult
  · intro hread edit id read before after hphase hresult
    rw [hothers edit id read before after hphase]
    exact hread edit id read before after hphase hresult

theorem untouched_iff (h : Inv w) (a : Action) : Untouched w a ↔ Undisturbed w a := by
  cases a with
  | check call edit paid readable => exact iff_of_true (flows_check call edit paid readable) trivial
  | read call readable => exact iff_of_true (flows_read call readable) trivial
  | persist call written => exact untouched_persist h call written
  | sync call result => exact untouched_sync h call result
  | fleet => exact Iff.rfl

/-- Locked rules stay and no edit is lost exactly in the runs in which the calls are not disturbed. -/
theorem flows_untouched_iff (flows : List Value) (policy : Policy) (acts : List Action) :
    Machine.Throughout step Untouched (.started flows policy) acts ↔
      Machine.Throughout step Undisturbed (.started flows policy) acts :=
  Machine.throughout_congr (fun _ a h => untouched_iff h a) (fun _ a h _ => inv_step h a)
    (inv_started flows policy)

end Interleaving

section Duplicates

private def draft : Value := .object [("id", .string "flow-1"), ("locked", .bool false)]

private def managed : Value := .object [("id", .string "flow-1"), ("locked", .bool true)]

private def unmanaged : Policy := ⟨"local", []⟩

private def deletion : List Action :=
  [.check 0 (.delete "flow-1") (.ok ()) true, .read 0 (.ok ()), .persist 0 .ok, .sync 0 (.ok ())]

/-- A rule that the Fleet locked goes with an unlocked one of the same id before it. -/
theorem flows_touched : ¬ ∀ flows policy (acts : List Action),
    Machine.Throughout step Untouched (.started flows policy) acts := by
  intro h
  have hwrite := (Machine.throughout_iff _ _).mp (h [draft, managed] unmanaged deletion)
    (deletion.take 2) (.persist 0 .ok) [.sync 0 (.ok ())] rfl
  have hkept : managed ∈ (Machine.run step (.started [draft, managed] unmanaged)
      (deletion.take 3)).flows := hwrite managed (by decide +kernel) (by decide +kernel)
  exact absurd hkept (by decide +kernel)

end Duplicates

end FlowBridge
