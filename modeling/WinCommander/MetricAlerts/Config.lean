import Mathlib.Data.Rat.Defs
import Mathlib.Algebra.Order.Ring.Unbundled.Rat
import WinCommander.Library.AsciiText
import WinCommander.Library.Outcome

/-!
# The configuration of the metric alerts

What the sampler runs with is computed from the stored settings in one place, and from a local save
in another.  A threshold is a finite number; times and percentages are natural numbers.
-/

namespace MetricAlerts

open Outcome

section Data

/-- The alert of one metric, as it is stored. -/
structure MetricAlertSettings where
  enabled : Bool
  threshold : ℚ
  hysteresisEnabled : Bool
  hysteresisPct : ℕ
  sustainedEnabled : Bool
  sustainedSecs : ℕ
  cooldownSecs : ℕ
  reportToFleet : Bool
  deriving DecidableEq

/-- The alert of one metric, as the sampler uses it. -/
@[ext] structure MetricAlert where
  enabled : Bool
  threshold : ℚ
  hysteresisEnabled : Bool
  hysteresisPct : ℕ
  sustainedEnabled : Bool
  sustainedSecs : ℕ
  cooldownSecs : ℕ
  reportToFleet : Bool
  deriving DecidableEq

structure MetricAlertsSettings where
  cpu : MetricAlertSettings
  ram : MetricAlertSettings
  upload : MetricAlertSettings
  download : MetricAlertSettings
  deriving DecidableEq

@[ext] structure MetricAlertsConfig where
  cpu : MetricAlert
  ram : MetricAlert
  upload : MetricAlert
  download : MetricAlert
  evaluationIntervalSecs : ℕ
  deriving DecidableEq

structure FleetMetricAlertPolicy where
  evaluationIntervalSecs : ℕ
  sustainedSecs : ℕ
  cooldownSecs : ℕ
  resetPct : ℕ
  cpuThresholdPct : ℚ
  ramThresholdPct : ℚ
  uploadThresholdMbS : ℚ
  downloadThresholdMbS : ℚ
  deriving DecidableEq

/-- The part of the settings that decides about metric alerts. -/
structure AppSettings where
  metricAlerts : MetricAlertsSettings
  requireAllDeviceAlertsInFleet : Bool
  systemReportToFleet : Option Bool
  networkReportToFleet : Option Bool
  policy : Option FleetMetricAlertPolicy
  lockedPaths : List String
  deriving DecidableEq

end Data

section Bounds

def clamp (n low high : ℕ) : ℕ := min (max n low) high

/-- The number nearest to one tenth in double precision. -/
def lowestThreshold : ℚ := 3602879701896397 / 36028797018963968

def MetricAlertSettings.toAlert (s : MetricAlertSettings) : MetricAlert where
  enabled := s.enabled
  threshold := s.threshold
  hysteresisEnabled := s.hysteresisEnabled
  hysteresisPct := clamp s.hysteresisPct 1 90
  sustainedEnabled := s.sustainedEnabled
  sustainedSecs := clamp s.sustainedSecs 1 600
  cooldownSecs := min s.cooldownSecs 86400
  reportToFleet := s.reportToFleet

def MetricAlert.normalized (alert : MetricAlert) : MetricAlert where
  enabled := alert.enabled
  threshold := max alert.threshold lowestThreshold
  hysteresisEnabled := alert.hysteresisEnabled
  hysteresisPct := clamp alert.hysteresisPct 1 90
  sustainedEnabled := alert.sustainedEnabled
  sustainedSecs := clamp alert.sustainedSecs 1 600
  cooldownSecs := min alert.cooldownSecs 86400
  reportToFleet := alert.reportToFleet

/-- What a save writes of an alert. -/
def MetricAlert.toSettings (alert : MetricAlert) : MetricAlertSettings where
  enabled := alert.enabled
  threshold := alert.threshold
  hysteresisEnabled := alert.hysteresisEnabled
  hysteresisPct := alert.hysteresisPct
  sustainedEnabled := alert.sustainedEnabled
  sustainedSecs := alert.sustainedSecs
  cooldownSecs := alert.cooldownSecs
  reportToFleet := alert.reportToFleet

def defaultEvaluationIntervalSecs : ℕ := 1

def MetricAlertsSettings.toConfig (s : MetricAlertsSettings) : MetricAlertsConfig where
  cpu := s.cpu.toAlert
  ram := s.ram.toAlert
  upload := s.upload.toAlert
  download := s.download.toAlert
  evaluationIntervalSecs := defaultEvaluationIntervalSecs

/-- What a save writes; the interval has no field in the settings and is dropped. -/
def MetricAlertsConfig.toSettings (config : MetricAlertsConfig) : MetricAlertsSettings where
  cpu := config.cpu.toSettings
  ram := config.ram.toSettings
  upload := config.upload.toSettings
  download := config.download.toSettings

end Bounds

section Reporting

def MetricAlert.reporting (report : Bool) (alert : MetricAlert) : MetricAlert :=
  { alert with reportToFleet := report }

def MetricAlertsConfig.reportSystem (report : Bool) (config : MetricAlertsConfig) :
    MetricAlertsConfig :=
  { config with cpu := config.cpu.reporting report, ram := config.ram.reporting report }

def MetricAlertsConfig.reportNetwork (report : Bool) (config : MetricAlertsConfig) :
    MetricAlertsConfig :=
  { config with
    upload := config.upload.reporting report, download := config.download.reporting report }

/-- CPU and RAM report together, and so do upload and download. -/
def MetricAlertsConfig.paired (config : MetricAlertsConfig) : MetricAlertsConfig :=
  let system := config.reportSystem (config.cpu.reportToFleet && config.ram.reportToFleet)
  system.reportNetwork (config.upload.reportToFleet && config.download.reportToFleet)

/-- The signed master policy turns on every report. -/
def MetricAlertsConfig.withMaster (settings : AppSettings) (config : MetricAlertsConfig) :
    MetricAlertsConfig :=
  if settings.requireAllDeviceAlertsInFleet then (config.reportSystem true).reportNetwork true
  else config

end Reporting

section Settings

def applyFleetMetricPolicy (metric : MetricAlert) (threshold : ℚ) (policy : FleetMetricAlertPolicy) :
    MetricAlert :=
  { metric with
    threshold := max threshold lowestThreshold
    hysteresisEnabled := true
    hysteresisPct := clamp policy.resetPct 1 90
    sustainedEnabled := true
    sustainedSecs := clamp policy.sustainedSecs 1 600
    cooldownSecs := min policy.cooldownSecs 86400 }

def MetricAlertsConfig.withPolicy (policy : Option FleetMetricAlertPolicy)
    (config : MetricAlertsConfig) : MetricAlertsConfig :=
  match policy with
  | none => config
  | some policy =>
    { cpu := applyFleetMetricPolicy config.cpu policy.cpuThresholdPct policy
      ram := applyFleetMetricPolicy config.ram policy.ramThresholdPct policy
      upload := applyFleetMetricPolicy config.upload policy.uploadThresholdMbS policy
      download := applyFleetMetricPolicy config.download policy.downloadThresholdMbS policy
      evaluationIntervalSecs := clamp policy.evaluationIntervalSecs 1 300 }

def MetricAlertsConfig.withReports (settings : AppSettings) (config : MetricAlertsConfig) :
    MetricAlertsConfig :=
  let system :=
    if settings.systemReportToFleet = some true then config.reportSystem true else config
  if settings.networkReportToFleet = some true then system.reportNetwork true else system

def configFromSettings (settings : AppSettings) : MetricAlertsConfig :=
  let config := settings.metricAlerts.toConfig.paired
  ((config.withMaster settings).withReports settings).withPolicy settings.policy

end Settings

section Saving

def masterFleetAlertPath : String := "security.requireAllDeviceAlertsInFleet"

def policyLocksPath (lockedPaths : List String) (path : String) : Bool :=
  lockedPaths.any fun locked =>
    let locked := AsciiText.trim locked
    locked ≠ "" && (locked.toList.isPrefixOf path.toList ||
      locked.toList.isPrefixOf ("ideal." ++ path).toList)

def metricReportPath (metric : String) : String :=
  if metric = "cpu" then "notifications.cpuUsage.reportToFleet"
  else if metric = "ram" then "notifications.ramUsage.reportToFleet"
  else "notifications.networkUsage.reportToFleet"

/-- The report of each metric by its name. -/
def MetricAlertsConfig.reports (config : MetricAlertsConfig) : List (String × Bool) :=
  [("cpu", config.cpu.reportToFleet), ("ram", config.ram.reportToFleet),
    ("upload", config.upload.reportToFleet), ("download", config.download.reportToFleet)]

def ensureReportToFleetChangesAllowed (current proposed : MetricAlertsConfig)
    (settings : AppSettings) : Except String Unit := do
  refuseIf (settings.requireAllDeviceAlertsInFleet = true ∧
    policyLocksPath settings.lockedPaths masterFleetAlertPath = true ∧
    ∃ report ∈ proposed.reports, report.2 = false)
    "Fleet policy requires all device alerts to be reported"
  refuseIf (∃ change ∈ current.reports.zip proposed.reports, change.1.2 ≠ change.2.2 ∧
    policyLocksPath settings.lockedPaths (metricReportPath change.1.1) = true)
    "This Fleet alert setting is locked by administrator policy"

/-- A configuration from the caller, within its bounds and with its reports paired. -/
def normalize (config : MetricAlertsConfig) : MetricAlertsConfig :=
  MetricAlertsConfig.paired
    { cpu := config.cpu.normalized
      ram := config.ram.normalized
      upload := config.upload.normalized
      download := config.download.normalized
      evaluationIntervalSecs := clamp config.evaluationIntervalSecs 1 300 }

end Saving

section World

/-- The stored settings, and what the sampler runs with. -/
structure World where
  stored : AppSettings
  running : MetricAlertsConfig
  deriving DecidableEq

/-- How writing the settings ends.  A write that fails may have reached a store before it failed;
`left` is what is stored then. -/
inductive Written where
  | done
  | failed (error : String) (left : AppSettings)

def reloadFromSettings (settings : AppSettings) (w : World) : World :=
  { w with running := configFromSettings settings }

/-- A local save.  `paid` and `readable` are the answers of the licence and of the store. -/
def metricAlertsSetConfig (config : MetricAlertsConfig) (paid readable : Except String Unit)
    (written : Written) (w : World) : Except String MetricAlertsConfig × World :=
  let normalized := normalize config
  let checked : Except String Unit := do
    paid
    readable
    ensureReportToFleetChangesAllowed (configFromSettings w.stored) normalized w.stored
  match checked with
  | .error e => (.error e, w)
  | .ok () =>
    let effective := normalized.withMaster w.stored
    match written with
    | .done =>
      (.ok effective, ⟨{ w.stored with metricAlerts := normalized.toSettings }, effective⟩)
    | .failed e left => (.error ("persist failed: " ++ e), ⟨left, effective⟩)

/-- What a signed epoch decides: the Fleet policy and the locked paths. -/
structure EpochChange where
  requireAllDeviceAlertsInFleet : Bool
  systemReportToFleet : Option Bool
  networkReportToFleet : Option Bool
  policy : Option FleetMetricAlertPolicy
  lockedPaths : List String

def EpochChange.apply (change : EpochChange) (settings : AppSettings) : AppSettings :=
  { settings with
    requireAllDeviceAlertsInFleet := change.requireAllDeviceAlertsInFleet
    systemReportToFleet := change.systemReportToFleet
    networkReportToFleet := change.networkReportToFleet
    policy := change.policy
    lockedPaths := change.lockedPaths }

/-- A signed epoch; `prepared` is what verifying it gives. -/
def applyVerifiedAdminConfig (prepared : Except String EpochChange) (written : Written) (w : World) :
    Except String AppSettings × World :=
  match prepared with
  | .error e => (.error e, w)
  | .ok change =>
    match written with
    | .done =>
      let updated := change.apply w.stored
      (.ok updated, reloadFromSettings updated { w with stored := updated })
    | .failed e left => (.error e, { w with stored := left })

inductive Call where
  | reload
  | epoch (prepared : Except String EpochChange) (written : Written)
  | setConfig (config : MetricAlertsConfig) (paid readable : Except String Unit) (written : Written)

@[grind =] def step (w : World) : Call → World
  | .reload => reloadFromSettings w.stored w
  | .epoch prepared written => (applyVerifiedAdminConfig prepared written w).2
  | .setConfig config paid readable written => (metricAlertsSetConfig config paid readable written w).2

end World

end MetricAlerts
