import Mathlib.Data.List.Forall2
import WinCommander.Flows.Validation
import WinCommander.Library.FirstOfKey
import WinCommander.Library.Json

/-!
# The catalogue of flows

The stored flows are completed by the flows of the system, repaired where they were edited, and named
commands that were retired are replaced.
-/

namespace FlowEngine

open Flows FirstOfKey

section Blocks

inductive ConditionBlock where
  | timeCondition (startHour endHour : UInt32)
  | settingCondition (path operator : String) (value : Json.Document)
  | networkCondition (mode : String) (ssidName : Option String)
  | batteryCondition (operator : String) (percentage : UInt32)
  | usbPresenceCondition (deviceInstanceId deviceName : Option String) (mode : String)
  deriving DecidableEq

structure Flow where
  id : String
  name : String
  system : Bool
  enabled : Bool
  triggers : List TriggerBlock
  conditions : List ConditionBlock
  actions : List ActionBlock
  notes : String
  tags : List String
  owner : String
  riskLevel : FlowRiskLevel
  lastReviewedAt : String

/-- What the save gate reads of a flow. -/
def Flow.checked (flow : Flow) : Flows.Flow where
  triggers := flow.triggers
  actions := flow.actions
  notes := flow.notes
  riskLevel := flow.riskLevel
  lastReviewedAt := flow.lastReviewedAt

mutual

/-- Whether an action runs a command, by itself or within a group. -/
@[grind =] def runs (command : String) : ActionBlock → Bool
  | .commandAction c _ => c = command
  | .parallelGroup actions => anyRuns command actions
  | _ => false

def anyRuns (command : String) : List ActionBlock → Bool
  | [] => false
  | action :: actions => runs command action || anyRuns command actions

end

theorem anyRuns_iff {command : String} {actions : List ActionBlock} :
    anyRuns command actions = true ↔ ∃ a ∈ actions, runs command a = true := by
  induction actions with
  | nil => simp [anyRuns]
  | cons a actions ih => simp [anyRuns, ih]

end Blocks

section Defaults

def disconnectAll : ActionBlock := .commandAction "Disconnect-AllRDPSessions" none

/-- The actions of the two flows that are started in an emergency. -/
def cascade : List ActionBlock := [
  .signalAction "admins" "contingency",
  disconnectAll,
  .commandAction "Start-ContingencySequence" none]

def guardActions : List ActionBlock := [disconnectAll, .signalAction "admins" "alert"]

def defaultSystemFlows : List Flow := [
  { id := "contingency"
    name := "Contingency"
    system := true
    enabled := true
    triggers := [.keySequenceTrigger "F12" 3 1000]
    conditions := []
    actions := cascade
    notes := "Triple-tap F12 within 1s to fire the full contingency cascade. System flow — editable but not deletable."
    tags := ["system", "panic"]
    owner := ""
    riskLevel := .high
    lastReviewedAt := "" },
  { id := "panic-hotkey"
    name := "Panic Hotkey"
    system := true
    enabled := true
    triggers := [.hotkeyTrigger "Ctrl+Shift+Q"]
    conditions := []
    actions := cascade
    notes := "Ctrl+Shift+Q from anywhere fires the full contingency cascade. System flow — editable but not deletable."
    tags := ["system", "panic"]
    owner := ""
    riskLevel := .high
    lastReviewedAt := "" },
  { id := "lid-guard"
    name := "Lid Guard"
    system := true
    enabled := false
    triggers := [.lidCloseTrigger]
    conditions := []
    actions := guardActions
    notes := "Closing the laptop lid kills RDP sessions and alerts admins. Off by default — enable for travel."
    tags := ["system", "travel"]
    owner := ""
    riskLevel := .medium
    lastReviewedAt := "" },
  { id := "usb-guard"
    name := "USB Key Guard"
    system := true
    enabled := false
    triggers := [.usbTrigger "remove" none none 0]
    conditions := []
    actions := guardActions
    notes := "Removing the designated USB key kills RDP sessions and alerts admins. Configure the device ID in the trigger settings. Off by default."
    tags := ["system", "deadman"]
    owner := ""
    riskLevel := .medium
    lastReviewedAt := "" }]

end Defaults

section Merge

def retired : String := "Disconnect-OwnRDP"

/-- Only the command of the action itself is looked at. -/
def sanitizeAction : ActionBlock → ActionBlock
  | .commandAction command params =>
      .commandAction (if command = retired then "Disconnect-AllRDPSessions" else command) params
  | action => action

def sanitizeLegacyFlow (flow : Flow) : Flow :=
  { flow with actions := flow.actions.map sanitizeAction }

/-- A command that was left blank is that of the default at its place. -/
def repairAction (default : Option ActionBlock) : ActionBlock → ActionBlock
  | .commandAction command params =>
      match default with
      | some (.commandAction defaultCommand defaultParams) =>
          if blank command then .commandAction defaultCommand (params.or defaultParams)
          else .commandAction command params
      | _ => .commandAction command params
  | action => action

def repairActions (defaults actions : List ActionBlock) : List ActionBlock :=
  actions.mapIdx fun i action => repairAction defaults[i]? action

def repairSystemFlow (flow default : Flow) : Flow :=
  { flow with
    system := true
    triggers := if flow.triggers.isEmpty then default.triggers else flow.triggers
    actions := repairActions default.actions
      (if flow.actions.isEmpty then default.actions else flow.actions) }

def systemFlow (flows : List Flow) (default : Flow) : Flow :=
  match flows.find? (·.id = default.id) with
  | some existing => repairSystemFlow (sanitizeLegacyFlow existing) default
  | none => default

def addUserFlows (merged : List Flow) : List Flow → List Flow
  | [] => merged
  | flow :: flows =>
      if merged.any (·.id = flow.id) then addUserFlows merged flows
      else addUserFlows (merged ++ [sanitizeLegacyFlow flow]) flows

def mergeDefaultSystemFlows (flows : List Flow) : List Flow :=
  addUserFlows (defaultSystemFlows.map (systemFlow flows)) flows

end Merge

section Repair

theorem sanitizeAction_sanitizeAction (a : ActionBlock) :
    sanitizeAction (sanitizeAction a) = sanitizeAction a := by
  cases a with
  | commandAction command params =>
    by_cases h : command = retired
    · simp [sanitizeAction, h, retired]
    · simp [sanitizeAction, h]
  | _ => rfl

/-- An action that runs no retired command by itself is left as it is. -/
theorem sanitizeAction_eq_self_iff {a : ActionBlock} :
    sanitizeAction a = a ↔ ∀ params, a ≠ .commandAction retired params := by
  cases a with
  | commandAction command params =>
    by_cases h : command = retired
    · subst h
      simp [sanitizeAction, retired]
    · simp [sanitizeAction, h]
  | _ => simp [sanitizeAction]

theorem repairAction_repairAction (d : Option ActionBlock) (a : ActionBlock) :
    repairAction d (repairAction d a) = repairAction d a := by
  cases a with
  | commandAction command params =>
    cases d with
    | none => rfl
    | some default =>
      cases default with
      | commandAction defaultCommand defaultParams =>
        by_cases h : blank command
        · by_cases hd : blank defaultCommand
          · cases params <;> simp [repairAction, h, hd]
          · simp [repairAction, h, hd]
        · simp [repairAction, h]
      | _ => rfl
  | _ => rfl

theorem repairActions_repairActions (defaults actions : List ActionBlock) :
    repairActions defaults (repairActions defaults actions) = repairActions defaults actions := by
  simp only [repairActions, List.mapIdx_mapIdx]
  congr 1
  funext i a
  exact repairAction_repairAction defaults[i]? a

theorem length_repairActions (defaults actions : List ActionBlock) :
    (repairActions defaults actions).length = actions.length := List.length_mapIdx

theorem repairActions_eq_self {defaults actions : List ActionBlock}
    (h : ∀ (i : ℕ) (hi : i < actions.length), repairAction defaults[i]? actions[i] = actions[i]) :
    repairActions defaults actions = actions := by
  apply List.ext_getElem (length_repairActions defaults actions)
  intro i hi hi'
  simp only [repairActions, List.getElem_mapIdx]
  exact h i hi'

theorem repairAction_self (a : ActionBlock) : repairAction (some a) a = a := by
  cases a with
  | commandAction command params =>
    by_cases h : blank command
    · cases params <;> simp [repairAction, h]
    · simp [repairAction, h]
  | _ => rfl

theorem repairAction_of_not_blank (d : Option ActionBlock) {a : ActionBlock}
    (h : ∀ command params, a = .commandAction command params → ¬ blank command) :
    repairAction d a = a := by
  cases a with
  | commandAction command params =>
    have hblank := h command params rfl
    cases d with
    | none => rfl
    | some default =>
      cases default with
      | commandAction defaultCommand defaultParams => simp [repairAction, hblank]
      | _ => rfl
  | _ => rfl

theorem mem_repairActions {defaults actions : List ActionBlock} {b : ActionBlock}
    (h : b ∈ repairActions defaults actions) :
    ∃ d a, (∀ x, d = some x → x ∈ defaults) ∧ a ∈ actions ∧ b = repairAction d a := by
  obtain ⟨i, hi, rfl⟩ := List.mem_mapIdx.mp h
  exact ⟨defaults[i]?, actions[i], fun x hx => List.mem_of_getElem? hx, List.getElem_mem hi, rfl⟩

/-- A group is repaired to itself. -/
theorem group_mem_repairActions {defaults actions grouped : List ActionBlock}
    (h : .parallelGroup grouped ∈ actions) : .parallelGroup grouped ∈ repairActions defaults actions := by
  obtain ⟨i, hi, hgroup⟩ := List.mem_iff_getElem.mp h
  refine List.mem_mapIdx.mpr ⟨i, hi, ?_⟩
  rw [hgroup]
  rfl

/-- No action of a flow runs the retired command by itself. -/
def TopClean (actions : List ActionBlock) : Prop :=
  ∀ params, ActionBlock.commandAction retired params ∉ actions

theorem topClean_map_sanitizeAction (actions : List ActionBlock) :
    TopClean (actions.map sanitizeAction) := by
  intro params hmem
  obtain ⟨a, -, ha⟩ := List.mem_map.mp hmem
  have hself : sanitizeAction (.commandAction retired params) = .commandAction retired params := by
    rw [← ha, sanitizeAction_sanitizeAction]
  exact sanitizeAction_eq_self_iff.mp hself params rfl

theorem map_sanitizeAction_of_topClean {actions : List ActionBlock} (h : TopClean actions) :
    actions.map sanitizeAction = actions := by
  have hself : ∀ a ∈ actions, sanitizeAction a = id a := by
    intro a ha
    apply sanitizeAction_eq_self_iff.mpr
    rintro params rfl
    exact h params ha
  rw [List.map_congr_left hself, List.map_id]

theorem TopClean.repair {defaults actions : List ActionBlock} (hd : TopClean defaults)
    (ha : TopClean actions) : TopClean (repairActions defaults actions) := by
  intro params hmem
  obtain ⟨d, a, hfrom, hact, heq⟩ := mem_repairActions hmem
  cases a with
  | commandAction command own =>
    cases d with
    | none =>
      have hsame : ActionBlock.commandAction retired params = .commandAction command own := heq
      exact ha params (hsame ▸ hact)
    | some default =>
      cases default with
      | commandAction defaultCommand defaultParams =>
        by_cases hblank : blank command
        · simp only [repairAction, if_pos hblank, ActionBlock.commandAction.injEq] at heq
          exact hd defaultParams (heq.1 ▸ hfrom _ rfl)
        · simp only [repairAction, if_neg hblank] at heq
          exact ha params (heq ▸ hact)
      | _ =>
        have hsame : ActionBlock.commandAction retired params = .commandAction command own := heq
        exact ha params (hsame ▸ hact)
  | _ => exact absurd heq (by simp [repairAction])

/-- What is not a command is of the actions that were repaired. -/
theorem mem_of_mem_repairActions {defaults actions grouped : List ActionBlock}
    (h : .parallelGroup grouped ∈ repairActions defaults actions) :
    .parallelGroup grouped ∈ actions := by
  obtain ⟨d, a, -, hact, heq⟩ := mem_repairActions h
  cases a with
  | commandAction command params =>
    cases d with
    | none => exact absurd heq (by simp [repairAction])
    | some default =>
      cases default with
      | commandAction defaultCommand defaultParams =>
        by_cases hblank : blank command
        · exact absurd heq (by simp [repairAction, hblank])
        · exact absurd heq (by simp [repairAction, hblank])
      | _ => exact absurd heq (by simp [repairAction])
  | _ =>
    have hsame : ActionBlock.parallelGroup grouped = _ := heq
    exact hsame ▸ hact

/-- The retired command is run by no action: by none itself and in no group. -/
theorem runs_eq_false_iff {actions : List ActionBlock} :
    (∀ a ∈ actions, runs retired a = false) ↔
      TopClean actions ∧ ∀ grouped, .parallelGroup grouped ∈ actions → anyRuns retired grouped = false := by
  constructor
  · intro h
    refine ⟨fun params hmem => ?_, fun grouped hmem => h _ hmem⟩
    exact absurd (h _ hmem) (by simp [runs])
  · rintro ⟨htop, hgroup⟩ a ha
    cases a with
    | commandAction command params =>
      have hne : command ≠ retired := by
        rintro rfl
        exact htop params ha
      simp [runs, hne]
    | parallelGroup grouped => exact hgroup grouped ha
    | _ => rfl

end Repair

section Flows

/-- No group of a flow has the retired command at any depth. -/
def GroupsClean (flow : Flow) : Prop :=
  ∀ grouped, .parallelGroup grouped ∈ flow.actions → anyRuns retired grouped = false

theorem groupsClean_sanitize (flow : Flow) :
    GroupsClean (sanitizeLegacyFlow flow) ↔ GroupsClean flow := by
  have hmem : ∀ grouped, ActionBlock.parallelGroup grouped ∈ flow.actions.map sanitizeAction ↔
      .parallelGroup grouped ∈ flow.actions := by
    intro grouped
    rw [List.mem_map]
    constructor
    · rintro ⟨a, ha, heq⟩
      cases a with
      | commandAction command params => exact absurd heq (by simp [sanitizeAction])
      | _ => exact heq ▸ ha
    · intro h
      exact ⟨_, h, rfl⟩
  simp only [GroupsClean, sanitizeLegacyFlow, hmem]

theorem defaults_stand : ∀ d ∈ defaultSystemFlows, d.system = true ∧ d.triggers ≠ [] ∧
    d.actions ≠ [] ∧ TopClean d.actions ∧ ∀ grouped, ActionBlock.parallelGroup grouped ∉ d.actions := by
  intro d hd
  simp only [defaultSystemFlows, List.mem_cons, List.not_mem_nil, or_false] at hd
  rcases hd with rfl | rfl | rfl | rfl <;>
    simp [TopClean, retired, cascade, guardActions, disconnectAll]

theorem nodup_default_ids : (defaultSystemFlows.map (·.id)).Nodup := by decide

variable {flow default : Flow}

theorem topClean_repair (flow : Flow) (hdefault : default ∈ defaultSystemFlows) :
    TopClean (repairSystemFlow (sanitizeLegacyFlow flow) default).actions := by
  obtain ⟨-, -, -, hclean, -⟩ := defaults_stand default hdefault
  apply TopClean.repair hclean
  by_cases hempty : (sanitizeLegacyFlow flow).actions.isEmpty = true
  · rw [if_pos hempty]
    exact hclean
  · rw [if_neg hempty]
    exact topClean_map_sanitizeAction flow.actions

theorem groupsClean_repair (hdefault : default ∈ defaultSystemFlows) :
    GroupsClean (repairSystemFlow (sanitizeLegacyFlow flow) default) ↔ GroupsClean flow := by
  obtain ⟨-, -, -, -, hnone⟩ := defaults_stand default hdefault
  rw [← groupsClean_sanitize flow]
  by_cases hempty : (sanitizeLegacyFlow flow).actions.isEmpty = true
  · have hnil : (sanitizeLegacyFlow flow).actions = [] := List.isEmpty_iff.mp hempty
    constructor
    · intro _ grouped hmem
      rw [hnil] at hmem
      exact absurd hmem List.not_mem_nil
    · intro _ grouped hmem
      simp only [repairSystemFlow, if_pos hempty] at hmem
      exact absurd (mem_of_mem_repairActions hmem) (hnone grouped)
  · have hactions : (repairSystemFlow (sanitizeLegacyFlow flow) default).actions =
        repairActions default.actions (sanitizeLegacyFlow flow).actions := by
      simp only [repairSystemFlow, if_neg hempty]
    constructor
    · intro h grouped hmem
      exact h grouped (hactions ▸ group_mem_repairActions hmem)
    · intro h grouped hmem
      rw [hactions] at hmem
      exact h grouped (mem_of_mem_repairActions hmem)

theorem repair_triggers (flow : Flow) (hdefault : default ∈ defaultSystemFlows) :
    (repairSystemFlow flow default).triggers ≠ [] := by
  obtain ⟨-, htriggers, -⟩ := defaults_stand default hdefault
  by_cases hempty : flow.triggers.isEmpty = true
  · simp only [repairSystemFlow, if_pos hempty]
    exact htriggers
  · simp only [repairSystemFlow, if_neg hempty]
    exact fun h => hempty (List.isEmpty_iff.mpr h)

theorem repair_actions (flow : Flow) (hdefault : default ∈ defaultSystemFlows) :
    (repairSystemFlow flow default).actions ≠ [] := by
  obtain ⟨-, -, hactions, -⟩ := defaults_stand default hdefault
  by_cases hempty : flow.actions.isEmpty = true
  · simp only [repairSystemFlow, if_pos hempty, repairActions, ne_eq, List.mapIdx_eq_nil_iff]
    exact hactions
  · simp only [repairSystemFlow, if_neg hempty, repairActions, ne_eq, List.mapIdx_eq_nil_iff]
    exact fun h => hempty (List.isEmpty_iff.mpr h)

theorem repair_default (hdefault : default ∈ defaultSystemFlows) :
    repairSystemFlow (sanitizeLegacyFlow default) default = default := by
  obtain ⟨hsystem, htriggers, hactions, hclean, -⟩ := defaults_stand default hdefault
  have hsame : sanitizeLegacyFlow default = default := by
    rw [sanitizeLegacyFlow, map_sanitizeAction_of_topClean hclean]
  have hrepair : repairActions default.actions default.actions = default.actions := by
    apply repairActions_eq_self
    intro i hi
    rw [List.getElem?_eq_getElem hi]
    exact repairAction_self default.actions[i]
  rw [hsame, repairSystemFlow, if_neg (by simpa using htriggers), if_neg (by simpa using hactions),
    hrepair, ← hsystem]

/-- A flow that was sanitised and repaired is left as it is. -/
theorem repair_repair (hdefault : default ∈ defaultSystemFlows) :
    repairSystemFlow (sanitizeLegacyFlow (repairSystemFlow (sanitizeLegacyFlow flow) default)) default =
      repairSystemFlow (sanitizeLegacyFlow flow) default := by
  have hclean := map_sanitizeAction_of_topClean (topClean_repair flow hdefault)
  have htriggers := repair_triggers (sanitizeLegacyFlow flow) hdefault
  have hactions := repair_actions (sanitizeLegacyFlow flow) hdefault
  generalize hrepaired : repairSystemFlow (sanitizeLegacyFlow flow) default = repaired at *
  have hsame : sanitizeLegacyFlow repaired = repaired := by
    rw [sanitizeLegacyFlow, hclean]
  rw [hsame, repairSystemFlow, if_neg (by simpa using htriggers), if_neg (by simpa using hactions)]
  have htwice : repairActions default.actions repaired.actions = repaired.actions := by
    rw [← hrepaired]
    exact repairActions_repairActions _ _
  have hsystem : repaired.system = true := by
    rw [← hrepaired]
    rfl
  rw [htwice, ← hsystem]

end Flows

section Merged

variable {flows : List Flow}

theorem addUserFlows_eq (merged : List Flow) (flows : List Flow) :
    addUserFlows merged flows =
      merged ++ (firsts (·.id) (merged.map (·.id)).reverse flows).map sanitizeLegacyFlow := by
  induction flows generalizing merged with
  | nil => simp [addUserFlows, firsts]
  | cons flow flows ih =>
    have hseen : merged.any (·.id = flow.id) = true ↔ flow.id ∈ (merged.map (·.id)).reverse := by
      simp
    by_cases h : flow.id ∈ (merged.map (·.id)).reverse
    · rw [addUserFlows, if_pos (hseen.mpr h), ih, firsts, if_pos h]
    · rw [addUserFlows, if_neg (mt hseen.mp h), ih, firsts, if_neg h]
      simp [sanitizeLegacyFlow]

theorem systemFlow_id (flows : List Flow) (default : Flow) :
    (systemFlow flows default).id = default.id := by
  unfold systemFlow
  cases hfind : flows.find? (·.id = default.id) with
  | none => rfl
  | some existing =>
    have hid : existing.id = default.id := by simpa using List.find?_some hfind
    exact hid

/-- The flows of the system as they are stored, repaired. -/
def systemFlows (flows : List Flow) : List Flow := defaultSystemFlows.map (systemFlow flows)

def systemIds : List String := (defaultSystemFlows.map (·.id)).reverse

/-- The flows of the user that are kept. -/
def userFlows (flows : List Flow) : List Flow := firsts (·.id) systemIds flows

theorem ids_systemFlows (flows : List Flow) :
    (systemFlows flows).map (·.id) = defaultSystemFlows.map (·.id) := by
  simp [systemFlows, Function.comp_def, systemFlow_id]

theorem merge_eq (flows : List Flow) : mergeDefaultSystemFlows flows =
    systemFlows flows ++ (userFlows flows).map sanitizeLegacyFlow := by
  rw [mergeDefaultSystemFlows, addUserFlows_eq]
  show systemFlows flows ++ List.map _ (firsts _ ((systemFlows flows).map (·.id)).reverse flows) = _
  rw [ids_systemFlows]
  rfl

theorem ids_sanitize (flows : List Flow) :
    (flows.map sanitizeLegacyFlow).map (·.id) = flows.map (·.id) := by
  simp [sanitizeLegacyFlow, Function.comp_def]

theorem nodup_merge (flows : List Flow) : ((mergeDefaultSystemFlows flows).map (·.id)).Nodup := by
  rw [merge_eq, List.map_append, ids_systemFlows, ids_sanitize]
  apply List.nodup_append.mpr
  refine ⟨nodup_default_ids, nodup_firsts systemIds flows, ?_⟩
  rintro id hid other hother rfl
  obtain ⟨flow, hflow, hsame⟩ := List.mem_map.mp hother
  have hunseen := (mem_firsts.mp hflow).1
  exact hunseen (by simpa [systemIds, hsame] using hid)

theorem mem_systemFlows {flow : Flow} (h : flow ∈ systemFlows flows) :
    ∃ d ∈ defaultSystemFlows, flow.id = d.id ∧ (flow = d ∨
      ∃ existing, flows.find? (·.id = existing.id) = some existing ∧
        flow = repairSystemFlow (sanitizeLegacyFlow existing) d) := by
  obtain ⟨d, hd, rfl⟩ := List.mem_map.mp h
  refine ⟨d, hd, systemFlow_id flows d, ?_⟩
  unfold systemFlow
  cases hfind : flows.find? (·.id = d.id) with
  | none => exact .inl rfl
  | some existing =>
    have hid : existing.id = d.id := by simpa using List.find?_some hfind
    exact .inr ⟨existing, by rw [hid, hfind], rfl⟩

/-- What is built in has its triggers and actions, and is of the system. -/
theorem systemFlow_stands (flows : List Flow) {d : Flow} (hd : d ∈ defaultSystemFlows) :
    (systemFlow flows d).system = true ∧ (systemFlow flows d).triggers ≠ [] ∧
      (systemFlow flows d).actions ≠ [] ∧ TopClean (systemFlow flows d).actions := by
  unfold systemFlow
  cases hfind : flows.find? (·.id = d.id) with
  | none =>
    obtain ⟨hsystem, htriggers, hactions, hclean, -⟩ := defaults_stand d hd
    exact ⟨hsystem, htriggers, hactions, hclean⟩
  | some existing => exact ⟨rfl, repair_triggers _ hd, repair_actions _ hd, topClean_repair existing hd⟩

/-- In the merged flows a built-in flow is found where it was put. -/
theorem find_merge (flows : List Flow) {d : Flow} (hd : d ∈ defaultSystemFlows) :
    (mergeDefaultSystemFlows flows).find? (·.id = d.id) = some (systemFlow flows d) := by
  have hmem : systemFlow flows d ∈ mergeDefaultSystemFlows flows := by
    rw [merge_eq]
    exact List.mem_append_left _ (List.mem_map_of_mem hd)
  have hself := firsts_eq_self [] (nodup_merge flows) (fun _ _ => List.not_mem_nil)
  rw [← hself] at hmem
  have hfound := (mem_firsts.mp hmem).2
  rwa [systemFlow_id] at hfound

/-- Merging again changes nothing. -/
theorem merge_merge (flows : List Flow) :
    mergeDefaultSystemFlows (mergeDefaultSystemFlows flows) = mergeDefaultSystemFlows flows := by
  have hsystem : systemFlows (mergeDefaultSystemFlows flows) = systemFlows flows := by
    apply List.map_congr_left
    intro d hd
    have hfind := find_merge flows hd
    rw [systemFlow, hfind]
    dsimp only
    unfold systemFlow
    cases hstored : flows.find? (·.id = d.id) with
    | none => exact repair_default hd
    | some existing => exact repair_repair hd
  have huser : userFlows (mergeDefaultSystemFlows flows) = (userFlows flows).map sanitizeLegacyFlow := by
    have hseen : ∀ flow ∈ systemFlows flows, flow.id ∈ systemIds := by
      intro flow hflow
      obtain ⟨d, hd, hid, -⟩ := mem_systemFlows hflow
      rw [hid]
      exact List.mem_reverse.mpr (List.mem_map_of_mem hd)
    rw [userFlows, merge_eq, firsts_append_of_seen hseen]
    apply firsts_eq_self
    · rw [ids_sanitize]
      exact nodup_firsts systemIds flows
    · intro flow hflow
      obtain ⟨stored, hstored, rfl⟩ := List.mem_map.mp hflow
      exact (mem_firsts.mp hstored).1
  have hclean : ∀ flow : Flow, sanitizeLegacyFlow (sanitizeLegacyFlow flow) = sanitizeLegacyFlow flow := by
    intro flow
    have htop := map_sanitizeAction_of_topClean (topClean_map_sanitizeAction flow.actions)
    simp only [sanitizeLegacyFlow, htop]
  rw [merge_eq, hsystem, huser, List.map_map, merge_eq flows]
  congr 1
  exact List.map_congr_left fun flow _ => hclean flow

theorem topClean_merge {flow : Flow} (h : flow ∈ mergeDefaultSystemFlows flows) :
    TopClean flow.actions := by
  rw [merge_eq, List.mem_append] at h
  rcases h with hsystem | huser
  · obtain ⟨d, hd, rfl⟩ := List.mem_map.mp hsystem
    exact (systemFlow_stands flows hd).2.2.2
  · obtain ⟨stored, -, rfl⟩ := List.mem_map.mp huser
    exact topClean_map_sanitizeAction stored.actions

/-- The retired command is nowhere in what is merged exactly when no group of a stored flow that is
kept has it. -/
theorem retired_gone_iff (flows : List Flow) :
    (∀ flow ∈ mergeDefaultSystemFlows flows, ∀ a ∈ flow.actions, runs retired a = false) ↔
      ∀ flow, flows.find? (·.id = flow.id) = some flow → GroupsClean flow := by
  have hclean : (∀ flow ∈ mergeDefaultSystemFlows flows, ∀ a ∈ flow.actions, runs retired a = false) ↔
      ∀ flow ∈ mergeDefaultSystemFlows flows, GroupsClean flow := by
    apply forall₂_congr
    intro flow hflow
    rw [runs_eq_false_iff]
    exact and_iff_right (topClean_merge hflow)
  rw [hclean]
  constructor
  · intro h flow hfind
    by_cases hid : flow.id ∈ systemIds
    · obtain ⟨d, hd, hsame⟩ := List.mem_map.mp (List.mem_reverse.mp hid)
      have hstored : systemFlow flows d = repairSystemFlow (sanitizeLegacyFlow flow) d := by
        rw [systemFlow, hsame, hfind]
      apply (groupsClean_repair hd).mp
      rw [← hstored]
      apply h
      rw [merge_eq]
      exact List.mem_append_left _ (List.mem_map_of_mem hd)
    · apply (groupsClean_sanitize flow).mp
      apply h
      rw [merge_eq]
      exact List.mem_append_right _ (List.mem_map_of_mem (mem_firsts.mpr ⟨hid, hfind⟩))
  · intro h flow hflow
    rw [merge_eq, List.mem_append] at hflow
    rcases hflow with hsystem | huser
    · obtain ⟨d, hd, -, rfl | ⟨existing, hfind, rfl⟩⟩ := mem_systemFlows hsystem
      · obtain ⟨-, -, -, -, hnone⟩ := defaults_stand flow hd
        exact fun grouped hmem => absurd hmem (hnone grouped)
      · exact (groupsClean_repair hd).mpr (h existing hfind)
    · obtain ⟨stored, hstored, rfl⟩ := List.mem_map.mp huser
      exact (groupsClean_sanitize stored).mpr (h stored (mem_firsts.mp hstored).2)

end Merged

section Completed

/-- An action as it was stored, or the command that took the place of the retired one. -/
def Renamed (a b : ActionBlock) : Prop :=
  a = b ∨ ∃ params, a = .commandAction retired params ∧
    b = .commandAction "Disconnect-AllRDPSessions" params

def KeptAs (stored kept : Flow) : Prop :=
  kept = { stored with actions := kept.actions } ∧ List.Forall₂ Renamed stored.actions kept.actions

/-- A built-in flow as it was stored, with what was missing in it. -/
def RepairedAs (stored kept : Flow) : Prop :=
  kept = { stored with system := true, triggers := kept.triggers, actions := kept.actions } ∧
    (stored.triggers ≠ [] → kept.triggers = stored.triggers) ∧
    (stored.actions ≠ [] → (∀ command params, ActionBlock.commandAction command params ∈ stored.actions →
      ¬ blank command) → List.Forall₂ Renamed stored.actions kept.actions)

def Once (flows : List Flow) (flow : Flow) : Bool := flows.countP (·.id = flow.id) = 1

def isBuiltIn (flow : Flow) : Bool := (defaultSystemFlows.map (·.id)).contains flow.id

/-- What the merged flows are to be. -/
structure Completed (flows merged : List Flow) : Prop where
  builtIn : ∀ d ∈ defaultSystemFlows, ∃ flow, merged.filter (·.id = d.id) = [flow] ∧
    flow.system = true ∧ flow.triggers ≠ [] ∧ flow.actions ≠ []
  distinct : (merged.map (·.id)).Nodup
  repaired : ∀ stored ∈ flows, Once flows stored = true → isBuiltIn stored = true →
    ∃ kept ∈ merged.take defaultSystemFlows.length, RepairedAs stored kept
  kept : ∃ kept, kept.Sublist (merged.drop defaultSystemFlows.length) ∧
    List.Forall₂ KeptAs (flows.filter fun flow => Once flows flow && !isBuiltIn flow) kept
  retiredGone : ∀ flow ∈ merged, ∀ a ∈ flow.actions, runs retired a = false
  stable : mergeDefaultSystemFlows merged = merged

variable {flows : List Flow}

theorem renamed_sanitizeAction (a : ActionBlock) : Renamed a (sanitizeAction a) := by
  cases a with
  | commandAction command params =>
    by_cases h : command = retired
    · exact .inr ⟨params, by rw [h], by simp [sanitizeAction, h]⟩
    · exact .inl (by simp [sanitizeAction, h])
  | _ => exact .inl rfl

theorem renamed_map_sanitizeAction (actions : List ActionBlock) :
    List.Forall₂ Renamed actions (actions.map sanitizeAction) :=
  List.forall₂_map_right_iff.mpr (List.forall₂_same.mpr fun a _ => renamed_sanitizeAction a)

theorem keptAs_sanitize (flow : Flow) : KeptAs flow (sanitizeLegacyFlow flow) :=
  ⟨rfl, renamed_map_sanitizeAction flow.actions⟩

theorem not_blank_sanitize {actions : List ActionBlock}
    (h : ∀ command params, ActionBlock.commandAction command params ∈ actions → ¬ blank command)
    {a : ActionBlock} (ha : a ∈ actions) {command : String} {params : Option (List (String × String))}
    (heq : sanitizeAction a = .commandAction command params) : ¬ blank command := by
  cases a with
  | commandAction stored own =>
    have hcommand : (if stored = retired then "Disconnect-AllRDPSessions" else stored) = command :=
      (ActionBlock.commandAction.inj heq).1
    by_cases hretired : stored = retired
    · rw [if_pos hretired] at hcommand
      rw [← hcommand]
      decide
    · rw [if_neg hretired] at hcommand
      rw [← hcommand]
      exact h stored own ha
  | _ => exact absurd heq (by simp [sanitizeAction])

theorem repairedAs_repair (stored default : Flow) :
    RepairedAs stored (repairSystemFlow (sanitizeLegacyFlow stored) default) := by
  refine ⟨rfl, ?_, ?_⟩
  · intro h
    simp only [repairSystemFlow, sanitizeLegacyFlow]
    exact if_neg (by simpa using h)
  · intro h hblank
    have hactions : (repairSystemFlow (sanitizeLegacyFlow stored) default).actions =
        stored.actions.map sanitizeAction := by
      have hfilled : ¬ (stored.actions.map sanitizeAction).isEmpty = true := by simpa using h
      show repairActions default.actions (if (stored.actions.map sanitizeAction).isEmpty = true then
        default.actions else stored.actions.map sanitizeAction) = _
      rw [if_neg hfilled]
      apply repairActions_eq_self
      intro i hi
      apply repairAction_of_not_blank
      intro command params heq
      rw [List.getElem_map] at heq
      exact not_blank_sanitize hblank (List.getElem_mem _) heq
    rw [hactions]
    exact renamed_map_sanitizeAction stored.actions

theorem find_of_once {flow : Flow} (hmem : flow ∈ flows) (honce : Once flows flow = true) :
    flows.find? (·.id = flow.id) = some flow := by
  have hcount : flows.countP (·.id = flow.id) = 1 := by simpa [Once] using honce
  have hsub : (flows.filter (·.id = flow.id)).Sublist (firsts (·.id) [] flows) := by
    apply filter_sublist_firsts
    intro other _ hsame
    have hid : other.id = flow.id := by simpa using hsame
    exact ⟨List.not_mem_nil, by rw [hid, hcount]⟩
  have hfirst : flow ∈ firsts (·.id) [] flows :=
    hsub.subset (List.mem_filter.mpr ⟨hmem, by simp⟩)
  exact (mem_firsts.mp hfirst).2

/-- The merged flows are complete exactly when no group of a stored flow that is kept has the retired
command. -/
theorem merge_completed_iff (flows : List Flow) :
    Completed flows (mergeDefaultSystemFlows flows) ↔
      ∀ flow, flows.find? (·.id = flow.id) = some flow → GroupsClean flow := by
  rw [← retired_gone_iff]
  have hlength : (systemFlows flows).length = defaultSystemFlows.length := List.length_map _
  constructor
  · exact fun h => h.retiredGone
  · intro hretired
    constructor
    · intro d hd
      obtain ⟨hsystem, htriggers, hactions, -⟩ := systemFlow_stands flows hd
      refine ⟨systemFlow flows d, ?_, hsystem, htriggers, hactions⟩
      have hmem : systemFlow flows d ∈ mergeDefaultSystemFlows flows := by
        rw [merge_eq]
        exact List.mem_append_left _ (List.mem_map_of_mem hd)
      have hfilter := filter_eq_singleton (nodup_merge flows) hmem
      rwa [systemFlow_id] at hfilter
    · exact nodup_merge flows
    · intro stored hstored honce hbuiltIn
      have hid : stored.id ∈ defaultSystemFlows.map (·.id) := List.contains_iff_mem.mp hbuiltIn
      obtain ⟨d, hd, hsame⟩ := List.mem_map.mp hid
      have hsystem : systemFlow flows d = repairSystemFlow (sanitizeLegacyFlow stored) d := by
        rw [systemFlow, hsame, find_of_once hstored honce]
      refine ⟨systemFlow flows d, ?_, hsystem ▸ repairedAs_repair stored d⟩
      rw [merge_eq, ← hlength, List.take_left]
      exact List.mem_map_of_mem hd
    · refine ⟨(flows.filter fun flow => Once flows flow && !isBuiltIn flow).map sanitizeLegacyFlow,
        ?_, ?_⟩
      · rw [merge_eq, ← hlength, List.drop_left]
        apply List.Sublist.map
        apply filter_sublist_firsts
        intro flow _ hkeep
        rw [Bool.and_eq_true] at hkeep
        have hcount : flows.countP (·.id = flow.id) = 1 := by simpa [Once] using hkeep.1
        refine ⟨?_, hcount⟩
        intro hid
        have hbuiltIn : isBuiltIn flow = true := List.contains_iff_mem.mpr (List.mem_reverse.mp hid)
        simp [hbuiltIn] at hkeep
      · exact List.forall₂_map_right_iff.mpr (List.forall₂_same.mpr fun flow _ => keptAs_sanitize flow)
    · exact hretired
    · exact merge_merge flows

/-- A stored flow whose group disconnects by the command that was retired. -/
def grouped : Flow where
  id := "evening"
  name := "Evening"
  system := false
  enabled := true
  triggers := [.hotkeyTrigger "Ctrl+Shift+E"]
  conditions := []
  actions := [.parallelGroup [.commandAction "Disconnect-OwnRDP" none, .delayAction 5]]
  notes := ""
  tags := []
  owner := ""
  riskLevel := .low
  lastReviewedAt := ""

theorem grouped_not_completed : ¬ Completed [grouped] (mergeDefaultSystemFlows [grouped]) := by
  intro h
  have hmem : sanitizeLegacyFlow grouped ∈ mergeDefaultSystemFlows [grouped] := by
    rw [merge_eq]
    exact List.mem_append_right _ (List.mem_map_of_mem (mem_firsts.mpr ⟨by decide, rfl⟩))
  have hgone := h.retiredGone _ hmem
    (.parallelGroup [.commandAction "Disconnect-OwnRDP" none, .delayAction 5]) List.mem_cons_self
  exact absurd hgone (by decide)

end Completed
end FlowEngine
