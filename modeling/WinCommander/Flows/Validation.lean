import Mathlib.Data.List.Infix
import Mathlib.Data.Int.Notation
import WinCommander.Library.AsciiText
import WinCommander.Library.Mirrors

/-!
# Checks on a flow

The save gate stops at the first defect of a flow; the preflight check reports them all, with
warnings and remarks beside them.
-/

namespace Flows

open Outcome

inductive TriggerBlock where
  | hotkeyTrigger (hotkey : String)
  | keySequenceTrigger (key : String) (taps : UInt32) (windowMs : UInt64)
  | usbTrigger (mode : String) (deviceInstanceId deviceName : Option String) (delaySeconds : UInt64)
  | lidCloseTrigger
  | webhookTrigger (path secret : String)
  | cameraTrigger (event : String)
  | scheduleTrigger (cronExpression : String)
  | networkTrigger (event : String)
  | fileTrigger (path event : String)
  | processTrigger (processName event : String)
  | signalReceivedTrigger
  | pasteMonitorTrigger (patternContains severity : Option String)
  | decoyMonitorTrigger (pathContains : Option String)
  | ransomwareMonitorTrigger
  | wifiGuardTrigger (ssidContains : Option String)
  deriving DecidableEq

inductive ActionBlock where
  | commandAction (command : String) (params : Option (List (String × String)))
  | signalAction (targetRole signalType : String)
  | httpAction (method url : String) (headers : Option (List (String × String)))
      (body : Option String)
  | notifyAction (message severity : String) (duration : Option UInt64)
  | delayAction (seconds : UInt64)
  | shellAction (script : String)
  | parallelGroup (actions : List ActionBlock)

inductive FlowRiskLevel where
  | low
  | medium
  | high
  deriving DecidableEq

structure Flow where
  triggers : List TriggerBlock
  actions : List ActionBlock
  notes : String
  riskLevel : FlowRiskLevel
  lastReviewedAt : String

/-- What the checks ask of the schedule parser, the command registry and the clock; instants are in
nanoseconds. -/
structure Surroundings where
  parseCron : String → Bool
  listAllCommands : List String
  now : ℤ
  parseRfc3339 : String → Option ℤ

section Tests

def blank (text : String) : Prop := AsciiText.trim text = ""

instance (text : String) : Decidable (blank text) := inferInstanceAs (Decidable (_ = _))

def contains (text pattern : String) : Bool := pattern.toList <:+: text.toList

def hasModifier (hotkey : String) : Bool := ["Ctrl", "Shift", "Alt", "Super"].any (contains hotkey)

def startsWithSlash (path : String) : Bool := path.toList.head? = some '/'

/-- The length of a text is that of its bytes. -/
def secretTooShort (secret : String) : Bool := secret.utf8ByteSize < 16

def parseCronSchedule (s : Surroundings) (expr : String) : Bool := s.parseCron (AsciiText.trim expr)

end Tests

section Gate

def validateTrigger (s : Surroundings) : TriggerBlock → Except String Unit
  | .hotkeyTrigger hotkey =>
      refuseIf (hasModifier hotkey = false)
        "Hotkey must include at least one modifier (Ctrl, Shift, Alt, or Super)"
  | .keySequenceTrigger key taps windowMs => do
      refuseIf (blank key) "Key sequence trigger requires a key"
      refuseIf (taps < 2) "Key sequence trigger must require at least 2 taps"
      refuseIf (windowMs = 0) "Key sequence trigger window must be greater than 0ms"
  | .webhookTrigger path secret => do
      refuseIf (startsWithSlash path = false)
        "WebhookTrigger path must start with '/' (e.g. '/my-flow')"
      refuseIf (secretTooShort secret) "WebhookTrigger secret must be at least 16 characters"
  | .cameraTrigger _ => .error
      "CameraTrigger is not yet wired — Privacy Shield doesn't emit camera events on the bus this listener reads from. Coming in a later milestone."
  | .scheduleTrigger cronExpression =>
      refuseIf (parseCronSchedule s cronExpression = false)
        "ScheduleTrigger: invalid cron expression. Examples: `0 */30 * * * *` (every 30 min), `0 0 9 * * *` (9am daily), `0 0 9 * * MON-FRI` (weekdays 9am)."
  | _ => .ok ()

mutual

def validateAction : ActionBlock → Except String Unit
  | .commandAction command _ => refuseIf (blank command)
      "A Run-Command action has no command picked. Open it on the canvas and choose one from the picker, or delete the node entirely."
  | .httpAction _ url _ _ => refuseIf (blank url) "HTTPAction requires a URL"
  | .notifyAction message _ _ => refuseIf (blank message) "NotifyAction requires a message"
  | .shellAction script => refuseIf (blank script) "ShellAction requires a script"
  | .parallelGroup actions => do
      refuseIf (actions = []) "ParallelGroup requires at least one nested action"
      validateActions actions
  | _ => .ok ()

def validateActions : List ActionBlock → Except String Unit
  | [] => .ok ()
  | action :: actions => do
      validateAction action
      validateActions actions

end

def validateFlow (s : Surroundings) (flow : Flow) : Except String Unit := do
  refuseIf (flow.triggers = []) "Flow must have at least one trigger"
  refuseIf (flow.actions = []) "Flow must have at least one action"
  flow.triggers.forM (validateTrigger s)
  flow.actions.forM validateAction

end Gate

section Preflight

structure PreflightIssue where
  severity : String
  target : Option String
  message : String
  code : String
  deriving DecidableEq

structure PreflightReport where
  errors : List PreflightIssue
  warnings : List PreflightIssue
  info : List PreflightIssue
  deriving DecidableEq

def PreflightReport.new : PreflightReport := ⟨[], [], []⟩

def PreflightReport.err (code : String) (target : Option String) (message : String)
    (report : PreflightReport) : PreflightReport :=
  { report with errors := report.errors ++ [⟨"error", target, message, code⟩] }

def PreflightReport.warn (code : String) (target : Option String) (message : String)
    (report : PreflightReport) : PreflightReport :=
  { report with warnings := report.warnings ++ [⟨"warning", target, message, code⟩] }

def PreflightReport.remark (code : String) (target : Option String) (message : String)
    (report : PreflightReport) : PreflightReport :=
  { report with info := report.info ++ [⟨"info", target, message, code⟩] }

open PreflightReport

def preflightCheckTrigger (s : Surroundings) (trigger : TriggerBlock) (target : Option String)
    (report : PreflightReport) : PreflightReport :=
  match trigger with
  | .hotkeyTrigger hotkey =>
      markIf (hasModifier hotkey = false) (err "hotkey-no-modifier" target
        "Hotkey must include at least one modifier (Ctrl / Shift / Alt / Super).") report
  | .keySequenceTrigger key taps windowMs =>
      markIf (windowMs = 0) (err "keyseq-bad-window" target
        "Key sequence window must be greater than 0 ms.")
      (markIf (taps < 2) (err "keyseq-bad-taps" target "Key sequence must require at least 2 taps.")
      (markIf (blank key) (err "keyseq-no-key" target
        "Key sequence trigger requires a key (e.g. \"F12\").") report))
  | .webhookTrigger path secret =>
      warn "support-partial" target
        "WebhookTrigger requires Pvt Mesh VPN to be running — the listener fails to start otherwise."
      (markIf (secretTooShort secret) (err "webhook-secret-short" target
        "Webhook secret must be at least 16 characters.")
      (markIf (startsWithSlash path = false) (err "webhook-bad-path" target
        "Webhook path must start with '/' (e.g. '/my-flow').") report))
  | .cameraTrigger _ => err "camera-disabled" target
      "CameraTrigger is not yet wired — Privacy Shield doesn't emit camera events yet. Coming in a later milestone."
      report
  | .scheduleTrigger cronExpression =>
      markIf (parseCronSchedule s cronExpression = false) (err "cron-invalid" target
        "Invalid cron expression. Examples: `0 */30 * * * *` (every 30 min), `0 0 9 * * MON-FRI` (weekdays 9am).")
        report
  | .signalReceivedTrigger => warn "support-partial" target
      "Signal-received polls the Pvt Mesh VPN drop directory. Brittle if the VPN relocates its inbox."
      report
  | _ => report

mutual

def preflightCheckAction (s : Surroundings) (target : Option String) (action : ActionBlock)
    (report : PreflightReport) : PreflightReport :=
  match action with
  | .commandAction command _ =>
      if blank command then err "command-empty" target
        "No command picked — choose one from the action's picker on the canvas, or delete this action."
        report
      else markIf (s.listAllCommands.contains command = false) (warn "command-unknown" target
        s!"Backend doesn't recognise command '{command}'. Typo, or paid-only command on a free install.")
        report
  | .httpAction _ url _ _ =>
      markIf (blank url) (err "http-no-url" target "HTTPAction needs a URL.") report
  | .notifyAction message _ _ =>
      markIf (blank message) (err "notify-empty" target "NotifyAction needs a message.") report
  | .shellAction script =>
      if blank script then err "shell-empty" target "ShellAction needs a script." report
      else warn "shell-experimental" target
        "ShellAction runs raw PowerShell with your full user privileges. No sandbox. Only run scripts you wrote and audited yourself."
        report
  | .parallelGroup actions =>
      if actions = [] then err "parallel-empty" target
        "ParallelGroup needs at least one nested action." report
      else preflightCheckActions s target actions report
  | _ => report

/-- The actions of a group stand under the target of the group. -/
def preflightCheckActions (s : Surroundings) (target : Option String) (actions : List ActionBlock)
    (report : PreflightReport) : PreflightReport :=
  match actions with
  | [] => report
  | action :: actions =>
      preflightCheckActions s target actions (preflightCheckAction s target action report)

end

def preflightNotes (flow : Flow) : PreflightReport → PreflightReport :=
  markIf (flow.riskLevel = .high ∧ blank flow.notes) (warn "high-risk-no-notes" none
    "This flow is classified high-risk but has no notes. Document why it exists.")

/-- Whole days from one instant to another, towards zero. -/
def numDays (since now : ℤ) : ℤ := (now - since).tdiv (24 * 60 * 60 * 1000000000)

def preflightReview (s : Surroundings) (flow : Flow) (report : PreflightReport) : PreflightReport :=
  if flow.riskLevel = .high ∧ flow.lastReviewedAt ≠ "" then
    match s.parseRfc3339 flow.lastReviewedAt with
    | some reviewed =>
        markIf (numDays reviewed s.now > 90) (remark "review-stale" none
          s!"High-risk flow last reviewed {numDays reviewed s.now} days ago — consider re-reading it via Metadata.")
          report
    | none => report
  else report

def ActionBlock.notifies : ActionBlock → Bool
  | .notifyAction .. => true
  | _ => false

def preflightOnlyNotify (flow : Flow) : PreflightReport → PreflightReport :=
  markIf (flow.actions ≠ [] ∧ flow.actions.all (·.notifies)) (remark "notify-only" none
    "All actions are NotifyAction — this flow will only show toasts. Fine for testing; add real actions to do anything else.")

def preflightEmpty (flow : Flow) (report : PreflightReport) : PreflightReport :=
  markIf (flow.actions = []) (err "no-action" none "Flow must have at least one action.")
    (markIf (flow.triggers = []) (err "no-trigger" none "Flow must have at least one trigger.") report)

def preflightTriggers (s : Surroundings) (flow : Flow) : PreflightReport → PreflightReport :=
  passAll (fun (trigger, idx) => preflightCheckTrigger s trigger (some s!"trigger[{idx}]"))
    flow.triggers.zipIdx

def preflightActions (s : Surroundings) (flow : Flow) : PreflightReport → PreflightReport :=
  passAll (fun (action, idx) => preflightCheckAction s (some s!"action[{idx}]") action)
    flow.actions.zipIdx

def preflightValidateFlow (s : Surroundings) (flow : Flow) : PreflightReport :=
  preflightOnlyNotify flow (preflightReview s flow (preflightNotes flow
    (preflightActions s flow (preflightTriggers s flow (preflightEmpty flow .new)))))

end Preflight

section Agreement

def Clean (report : PreflightReport) : Prop := report.errors = []

variable {s : Surroundings} {target : Option String}

theorem clean_new : Clean .new := rfl

theorem not_clean_err (code : String) (target : Option String) (message : String)
    (report : PreflightReport) : ¬ Clean (report.err code target message) := by
  simp [Clean, PreflightReport.err]

@[simp] theorem clean_warn (code : String) (target : Option String) (message : String)
    (report : PreflightReport) : Clean (report.warn code target message) ↔ Clean report := Iff.rfl

@[simp] theorem clean_remark (code : String) (target : Option String) (message : String)
    (report : PreflightReport) : Clean (report.remark code target message) ↔ Clean report := Iff.rfl

theorem clean_markIf {bad : Prop} [Decidable bad] {mark : PreflightReport → PreflightReport}
    (h : ∀ report, Clean (mark report) ↔ Clean report) (report : PreflightReport) :
    Clean (markIf bad mark report) ↔ Clean report := by
  by_cases hbad : bad
  · simp [markIf, hbad, h]
  · simp [markIf, hbad]

/-- An error marks a report for good, so a check that reports one mirrors the refusal. -/
theorem mirrors_err (target : Option String) (bad : Prop) [Decidable bad]
    (code message e : String) :
    Mirrors Clean (markIf bad (PreflightReport.err code target message)) (refuseIf bad e) :=
  mirrors_refuseIf (not_clean_err code target message) bad e

theorem preflightCheckTrigger_mirrors (trigger : TriggerBlock) :
    Mirrors Clean (preflightCheckTrigger s trigger target) (validateTrigger s trigger) := by
  cases trigger with
  | hotkeyTrigger hotkey => exact mirrors_err _ _ _ _ _
  | keySequenceTrigger key taps windowMs =>
    have hkey := mirrors_err target (blank key) "keyseq-no-key"
      "Key sequence trigger requires a key (e.g. \"F12\")." "Key sequence trigger requires a key"
    have htaps := mirrors_err target (taps < 2) "keyseq-bad-taps"
      "Key sequence must require at least 2 taps." "Key sequence trigger must require at least 2 taps"
    have hwindow := mirrors_err target (windowMs = 0) "keyseq-bad-window"
      "Key sequence window must be greater than 0 ms."
      "Key sequence trigger window must be greater than 0ms"
    have hall := hkey.bind (htaps.bind hwindow)
    exact hall
  | webhookTrigger path secret =>
    have hpath := mirrors_err target (startsWithSlash path = false) "webhook-bad-path"
      "Webhook path must start with '/' (e.g. '/my-flow')."
      "WebhookTrigger path must start with '/' (e.g. '/my-flow')"
    exact (hpath.bind (mirrors_err _ _ _ _ _)).quiet (clean_warn _ _ _)
  | cameraTrigger event => exact mirrors_error (not_clean_err _ _ _) _
  | scheduleTrigger cronExpression => exact mirrors_err _ _ _ _ _
  | signalReceivedTrigger => exact mirrors_quiet (clean_warn _ _ _)
  | usbTrigger | lidCloseTrigger | networkTrigger | fileTrigger | processTrigger
  | pasteMonitorTrigger | decoyMonitorTrigger | ransomwareMonitorTrigger | wifiGuardTrigger =>
    exact mirrors_id

mutual

theorem preflightCheckAction_mirrors (action : ActionBlock) :
    Mirrors Clean (preflightCheckAction s target action) (validateAction action) := by
  cases action with
  | commandAction command params =>
    exact mirrors_ite (not_clean_err _ _ _) (clean_markIf (clean_warn _ _ _)) _ _
  | httpAction method url headers body => exact mirrors_err _ _ _ _ _
  | notifyAction message severity duration => exact mirrors_err _ _ _ _ _
  | shellAction script => exact mirrors_ite (not_clean_err _ _ _) (clean_warn _ _ _) _ _
  | parallelGroup actions =>
    have hactions := preflightCheckActions_mirrors actions
    intro report
    by_cases hempty : actions = []
    · simp [preflightCheckAction, validateAction, hempty, not_clean_err, refuseIf, bind, Except.bind]
    · simp only [preflightCheckAction, validateAction, hempty, if_false, refuseIf]
      exact hactions report
  | signalAction targetRole signalType => exact mirrors_id
  | delayAction seconds => exact mirrors_id

theorem preflightCheckActions_mirrors (actions : List ActionBlock) :
    Mirrors Clean (preflightCheckActions s target actions) (validateActions actions) := by
  cases actions with
  | nil => exact mirrors_id
  | cons action actions =>
    exact (preflightCheckAction_mirrors action).bind (preflightCheckActions_mirrors actions)

end

theorem clean_preflightReview (s : Surroundings) (flow : Flow) (report : PreflightReport) :
    Clean (preflightReview s flow report) ↔ Clean report := by
  unfold preflightReview
  split
  · split
    · exact clean_markIf (clean_remark _ _ _) report
    · rfl
  · rfl

/-- The preflight check reports no error exactly for the flows that the save gate lets through. -/
theorem preflight_errors_nil_iff (s : Surroundings) (flow : Flow) :
    (preflightValidateFlow s flow).errors = [] ↔ validateFlow s flow = .ok () := by
  have hnoTrigger := mirrors_err none (flow.triggers = []) "no-trigger"
    "Flow must have at least one trigger." "Flow must have at least one trigger"
  have hnoAction := mirrors_err none (flow.actions = []) "no-action"
    "Flow must have at least one action." "Flow must have at least one action"
  have htriggers : Mirrors Clean (preflightTriggers s flow) (flow.triggers.forM (validateTrigger s)) :=
    mirrors_zipIdx (by intro trigger i; exact preflightCheckTrigger_mirrors trigger) 0
  have hactions : Mirrors Clean (preflightActions s flow) (flow.actions.forM validateAction) :=
    mirrors_zipIdx (fun action _ => preflightCheckAction_mirrors action) 0
  have hnotes : ∀ report, Clean (preflightNotes flow report) ↔ Clean report :=
    clean_markIf (clean_warn _ _ _)
  have honly : ∀ report, Clean (preflightOnlyNotify flow report) ↔ Clean report :=
    clean_markIf (clean_remark _ _ _)
  have hall := (hnoTrigger.bind (hnoAction.bind (htriggers.bind hactions))).quiet fun report =>
    (honly _).trans ((clean_preflightReview s flow _).trans (hnotes report))
  have hgate := hall .new
  rw [and_iff_right clean_new] at hgate
  exact hgate

end Agreement
end Flows
