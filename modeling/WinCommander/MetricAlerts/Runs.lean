import WinCommander.Library.Run
import WinCommander.MetricAlerts.Config

/-!
# The running configuration over runs

After a reload and after a signed epoch the sampler runs with what the stored settings say.  A local
save sets the running configuration from the caller's values: this is the same exactly when the
caller's values already meet the Fleet policy, and when the write does not fail.
-/

namespace MetricAlerts

open Outcome Machine

section NormalForm

/-- The alerts of a configuration within their bounds, with given reports and interval. -/
def build (config : MetricAlertsConfig) (system network : Bool) (interval : ℕ) :
    MetricAlertsConfig where
  cpu := config.cpu.normalized.reporting system
  ram := config.ram.normalized.reporting system
  upload := config.upload.normalized.reporting network
  download := config.download.normalized.reporting network
  evaluationIntervalSecs := interval

/-- Whether the system alerts of a configuration are reported: both or none. -/
def MetricAlertsConfig.systemReports (config : MetricAlertsConfig) : Bool :=
  config.cpu.reportToFleet && config.ram.reportToFleet

def MetricAlertsConfig.networkReports (config : MetricAlertsConfig) : Bool :=
  config.upload.reportToFleet && config.download.reportToFleet

variable {config : MetricAlertsConfig} {system network : Bool} {interval : ℕ}

theorem normalize_eq (config : MetricAlertsConfig) : normalize config =
    build config config.systemReports config.networkReports
      (clamp config.evaluationIntervalSecs 1 300) := rfl

theorem withMaster_build (settings : AppSettings) :
    (build config system network interval).withMaster settings =
      build config (system || settings.requireAllDeviceAlertsInFleet)
        (network || settings.requireAllDeviceAlertsInFleet) interval := by
  unfold MetricAlertsConfig.withMaster
  cases settings.requireAllDeviceAlertsInFleet with
  | false => simp
  | true =>
    simp only [if_true, Bool.or_true]
    rfl

theorem withReports_build (settings : AppSettings) :
    (build config system network interval).withReports settings =
      build config (system || settings.systemReportToFleet = some true)
        (network || settings.networkReportToFleet = some true) interval := by
  unfold MetricAlertsConfig.withReports
  by_cases hsystem : settings.systemReportToFleet = some true
  · by_cases hnetwork : settings.networkReportToFleet = some true
    · simp only [hsystem, hnetwork, if_true, decide_true, Bool.or_true]
      rfl
    · simp only [hsystem, hnetwork, if_true, if_false, decide_true, decide_false, Bool.or_true,
        Bool.or_false]
      rfl
  · by_cases hnetwork : settings.networkReportToFleet = some true
    · simp only [hsystem, hnetwork, if_true, if_false, decide_true, decide_false, Bool.or_true,
        Bool.or_false]
      rfl
    · simp [hsystem, hnetwork]

theorem clamp_clamp {n low high : ℕ} (h : low ≤ high) :
    clamp (clamp n low high) low high = clamp n low high := by
  unfold clamp
  omega

theorem toAlert_toSettings (alert : MetricAlert) (report : Bool) :
    (alert.normalized.reporting report).toSettings.toAlert = alert.normalized.reporting report := by
  have hpct : clamp (clamp alert.hysteresisPct 1 90) 1 90 = clamp alert.hysteresisPct 1 90 :=
    clamp_clamp (by decide)
  have hsustained : clamp (clamp alert.sustainedSecs 1 600) 1 600 =
      clamp alert.sustainedSecs 1 600 := clamp_clamp (by decide)
  have hcooldown : min (min alert.cooldownSecs 86400) 86400 = min alert.cooldownSecs 86400 := by
    omega
  simp only [MetricAlertSettings.toAlert, MetricAlert.toSettings, MetricAlert.reporting,
    MetricAlert.normalized, hpct, hsustained, hcooldown]

/-- What is stored of a configuration is read back as it was, but for the interval. -/
theorem toConfig_toSettings_build :
    (build config system network interval).toSettings.toConfig.paired =
      build config system network defaultEvaluationIntervalSecs := by
  have hconfig : (build config system network interval).toSettings.toConfig =
      build config system network defaultEvaluationIntervalSecs := by
    simp only [MetricAlertsConfig.toSettings, MetricAlertsSettings.toConfig, build,
      toAlert_toSettings]
  have hpaired : (build config system network defaultEvaluationIntervalSecs).paired =
      build config (system && system) (network && network) defaultEvaluationIntervalSecs := rfl
  rw [hconfig, hpaired, Bool.and_self, Bool.and_self]

end NormalForm

section FleetPolicy

variable {settings : AppSettings} {config : MetricAlertsConfig}

/-- An alert that has the values of the Fleet policy already. -/
structure MeetsPolicy (policy : FleetMetricAlertPolicy) (threshold : ℚ) (alert : MetricAlert) :
    Prop where
  threshold : max alert.threshold lowestThreshold = max threshold lowestThreshold
  hysteresis : alert.hysteresisEnabled = true
  reset : clamp alert.hysteresisPct 1 90 = clamp policy.resetPct 1 90
  sustained : alert.sustainedEnabled = true
  sustainedSecs : clamp alert.sustainedSecs 1 600 = clamp policy.sustainedSecs 1 600
  cooldown : min alert.cooldownSecs 86400 = min policy.cooldownSecs 86400

theorem reporting_eq_iff {alert : MetricAlert} {report report' : Bool} :
    alert.reporting report = alert.reporting report' ↔ report = report' := by
  simp [MetricAlert.reporting]

theorem applyFleetMetricPolicy_eq_iff {alert : MetricAlert} {report report' : Bool}
    {policy : FleetMetricAlertPolicy} {threshold : ℚ} :
    alert.normalized.reporting report =
        applyFleetMetricPolicy (alert.normalized.reporting report') threshold policy ↔
      report = report' ∧ MeetsPolicy policy threshold alert := by
  rw [MetricAlert.ext_iff]
  constructor
  · rintro ⟨_, hthreshold, hhysteresis, hreset, hsustained, hsecs, hcooldown, hreport⟩
    exact ⟨hreport, hthreshold, hhysteresis, hreset, hsustained, hsecs, hcooldown⟩
  · rintro ⟨hreport, hmeets⟩
    exact ⟨rfl, hmeets.threshold, hmeets.hysteresis, hmeets.reset, hmeets.sustained,
      hmeets.sustainedSecs, hmeets.cooldown, hreport⟩

/-- A configuration that has everything that the Fleet decides already. -/
structure MeetsFleet (settings : AppSettings) (config : MetricAlertsConfig) : Prop where
  interval : clamp config.evaluationIntervalSecs 1 300 = settings.policy.elim
    defaultEvaluationIntervalSecs fun policy => clamp policy.evaluationIntervalSecs 1 300
  system : settings.systemReportToFleet = some true →
    settings.requireAllDeviceAlertsInFleet = true ∨ config.systemReports = true
  network : settings.networkReportToFleet = some true →
    settings.requireAllDeviceAlertsInFleet = true ∨ config.networkReports = true
  policy : ∀ policy ∈ settings.policy, MeetsPolicy policy policy.cpuThresholdPct config.cpu ∧
    MeetsPolicy policy policy.ramThresholdPct config.ram ∧
    MeetsPolicy policy policy.uploadThresholdMbS config.upload ∧
    MeetsPolicy policy policy.downloadThresholdMbS config.download

theorem build_eq_withPolicy_iff {system system' network network' : Bool} {interval : ℕ}
    {policy : Option FleetMetricAlertPolicy} :
    build config system network interval =
        (build config system' network' defaultEvaluationIntervalSecs).withPolicy policy ↔
      (interval = policy.elim defaultEvaluationIntervalSecs
          fun policy => clamp policy.evaluationIntervalSecs 1 300) ∧
        system = system' ∧ network = network' ∧
        ∀ p ∈ policy, MeetsPolicy p p.cpuThresholdPct config.cpu ∧
          MeetsPolicy p p.ramThresholdPct config.ram ∧
          MeetsPolicy p p.uploadThresholdMbS config.upload ∧
          MeetsPolicy p p.downloadThresholdMbS config.download := by
  cases policy with
  | none =>
    simp only [MetricAlertsConfig.withPolicy, MetricAlertsConfig.ext_iff, build, reporting_eq_iff,
      Option.elim_none, Option.not_mem_none]
    tauto
  | some policy =>
    simp only [MetricAlertsConfig.withPolicy, MetricAlertsConfig.ext_iff, build,
      applyFleetMetricPolicy_eq_iff, Option.elim_some, Option.mem_def, Option.some.injEq,
      forall_eq']
    tauto

private theorem eq_or_typed_iff {own forced : Bool} {typed : Prop} [Decidable typed] :
    ((own || forced) = ((own || forced) || decide typed)) ↔ (typed → forced = true ∨ own = true) := by
  by_cases htyped : typed
  · cases own <;> cases forced <;> simp [htyped]
  · simp [htyped]

/-- What a save puts into effect is what its settings say, exactly when it meets the Fleet policy. -/
theorem saved_eq_configFromSettings_iff :
    (normalize config).withMaster settings =
        configFromSettings { settings with metricAlerts := (normalize config).toSettings } ↔
      MeetsFleet settings config := by
  unfold configFromSettings
  simp only [normalize_eq, toConfig_toSettings_build, withMaster_build, withReports_build,
    build_eq_withPolicy_iff, eq_or_typed_iff]
  constructor
  · rintro ⟨hinterval, hsystem, hnetwork, hpolicy⟩
    exact ⟨hinterval, hsystem, hnetwork, hpolicy⟩
  · rintro ⟨hinterval, hsystem, hnetwork, hpolicy⟩
    exact ⟨hinterval, hsystem, hnetwork, hpolicy⟩

end FleetPolicy

section Runs

/-- The sampler runs with what the stored settings say. -/
def World.InStep (w : World) : Prop := w.running = configFromSettings w.stored

/-- A local save that gives an error. -/
def FailedSave (w : World) : Call → Prop
  | .setConfig config paid readable written =>
    ∃ e, (metricAlertsSetConfig config paid readable written w).1 = .error e
  | _ => False

/-- A call after which the sampler follows the settings, and which changes nothing if it is a save
that fails. -/
structure Follows (w : World) (call : Call) : Prop where
  inStep : (step w call).InStep
  unchanged : FailedSave w call → step w call = w

/-- A save that is not refused before anything changes. -/
def Admitted (settings : AppSettings) (config : MetricAlertsConfig) (paid readable : Except String Unit) :
    Prop :=
  paid = .ok () ∧ readable = .ok () ∧
    ensureReportToFleetChangesAllowed (configFromSettings settings) (normalize config) settings =
      .ok ()

/-- Saves that are written meet the Fleet policy; a write that fails leaves what was stored, and
the save had nothing to change. -/
def Condition (w : World) : Call → Prop
  | .reload => True
  | .epoch prepared written => ∀ change e left, prepared = .ok change → written = .failed e left →
    configFromSettings left = w.running
  | .setConfig config paid readable written => Admitted w.stored config paid readable →
    match written with
    | .done => MeetsFleet w.stored config
    | .failed _ left => left = w.stored ∧ (normalize config).withMaster w.stored = w.running

variable {w : World}

theorem follows_epoch_iff (h : w.InStep) {prepared : Except String EpochChange} {written : Written} :
    Follows w (.epoch prepared written) ↔ Condition w (.epoch prepared written) := by
  have hsave : ¬ FailedSave w (.epoch prepared written) := id
  constructor
  · rintro hfollows change e left rfl rfl
    exact hfollows.inStep.symm
  · intro hcondition
    refine ⟨?_, fun hfailed => absurd hfailed hsave⟩
    cases prepared with
    | error e => exact h
    | ok change =>
      cases written with
      | done => rfl
      | failed e left => exact (hcondition change e left rfl rfl).symm

/-- What a save does: nothing where it is refused, and otherwise it depends on the write. -/
theorem metricAlertsSetConfig_cases (w : World) (config : MetricAlertsConfig)
    (paid readable : Except String Unit) (written : Written) :
    (¬ Admitted w.stored config paid readable ∧
      (metricAlertsSetConfig config paid readable written w).2 = w) ∨
    (Admitted w.stored config paid readable ∧
      metricAlertsSetConfig config paid readable written w =
        match written with
        | .done => (.ok ((normalize config).withMaster w.stored),
            ⟨{ w.stored with metricAlerts := (normalize config).toSettings },
              (normalize config).withMaster w.stored⟩)
        | .failed e left => (.error ("persist failed: " ++ e),
            ⟨left, (normalize config).withMaster w.stored⟩)) := by
  unfold Admitted
  cases paid with
  | error e => exact Or.inl ⟨fun h => absurd h.1 (by simp), rfl⟩
  | ok _ =>
    cases readable with
    | error e => exact Or.inl ⟨fun h => absurd h.2.1 (by simp), rfl⟩
    | ok _ =>
      cases hallowed : ensureReportToFleetChangesAllowed (configFromSettings w.stored)
          (normalize config) w.stored with
      | error e =>
        refine Or.inl ⟨fun h => absurd h.2.2 (by simp), ?_⟩
        simp only [metricAlertsSetConfig, hallowed]
        rfl
      | ok _ =>
        refine Or.inr ⟨⟨rfl, rfl, rfl⟩, ?_⟩
        simp only [metricAlertsSetConfig, hallowed]
        rfl

theorem follows_setConfig_iff (h : w.InStep) {config : MetricAlertsConfig}
    {paid readable : Except String Unit} {written : Written} :
    Follows w (.setConfig config paid readable written) ↔
      Condition w (.setConfig config paid readable written) := by
  rcases metricAlertsSetConfig_cases w config paid readable written with
    ⟨hrefused, hsame⟩ | ⟨hadmitted, hresult⟩
  · have hstep : step w (.setConfig config paid readable written) = w := hsame
    constructor
    · exact fun _ hadmitted => absurd hadmitted hrefused
    · exact fun _ => ⟨by rw [hstep]; exact h, fun _ => hstep⟩
  · have hstep : step w (.setConfig config paid readable written) =
        (metricAlertsSetConfig config paid readable written w).2 := rfl
    rw [hresult] at hstep
    cases written with
    | done =>
      have hok : ¬ FailedSave w (.setConfig config paid readable .done) := by
        rintro ⟨e, he⟩
        rw [hresult] at he
        cases he
      constructor
      · intro hfollows _
        have hinStep := hfollows.inStep
        rw [hstep] at hinStep
        exact saved_eq_configFromSettings_iff.mp hinStep
      · intro hcondition
        refine ⟨?_, fun hfailed => absurd hfailed hok⟩
        rw [hstep]
        exact saved_eq_configFromSettings_iff.mpr (hcondition hadmitted)
    | failed e left =>
      have hfailed : FailedSave w (.setConfig config paid readable (.failed e left)) :=
        ⟨"persist failed: " ++ e, by rw [hresult]⟩
      constructor
      · intro hfollows _
        have hunchanged := hfollows.unchanged hfailed
        rw [hstep] at hunchanged
        exact ⟨congrArg World.stored hunchanged, congrArg World.running hunchanged⟩
      · intro hcondition
        obtain ⟨hleft, hrunning⟩ := hcondition hadmitted
        have hsame : step w (.setConfig config paid readable (.failed e left)) = w := by
          rw [hstep, hrunning, hleft]
        exact ⟨by rw [hsame]; exact h, fun _ => hsame⟩

theorem follows_iff (h : w.InStep) (call : Call) : Follows w call ↔ Condition w call := by
  cases call with
  | reload => exact ⟨fun _ => trivial, fun _ => ⟨rfl, fun hfailed => absurd hfailed id⟩⟩
  | epoch prepared written => exact follows_epoch_iff h
  | setConfig config paid readable written => exact follows_setConfig_iff h

/-- A machine whose sampler has been started with the stored settings. -/
def started (settings : AppSettings) : World := ⟨settings, configFromSettings settings⟩

/-- The sampler follows the settings throughout a run, and failed saves change nothing, exactly when
every save that is written meets the Fleet policy and no failed write had anything to change. -/
theorem follows_throughout_iff (settings : AppSettings) (calls : List Call) :
    Throughout step Follows (started settings) calls ↔
      Throughout step Condition (started settings) calls :=
  throughout_congr (I := World.InStep) (fun _ call h => follows_iff h call)
    (fun _ _ _ hfollows => hfollows.inStep) rfl

/-- An alert that is not reported, with the defaults of the settings. -/
def quietAlert : MetricAlert := ⟨false, 50, true, 20, true, 30, 300, false⟩

def quietConfig : MetricAlertsConfig := ⟨quietAlert, quietAlert, quietAlert, quietAlert, 1⟩

/-- A signed policy that wants CPU and RAM reported. -/
def systemReported : AppSettings :=
  ⟨quietConfig.toSettings, false, some true, none, none, []⟩

/-- A local save turns off the reports that the Fleet wants. -/
theorem save_lowers_reporting :
    ¬ ∀ (settings : AppSettings) (calls : List Call),
      Throughout step Follows (started settings) calls := by
  intro hall
  have hfollows := (hall systemReported [.setConfig quietConfig (.ok ()) (.ok ()) .done]).1.inStep
  have hreport := congrArg (fun config => config.cpu.reportToFleet) hfollows
  exact absurd hreport (by decide)

end Runs

end MetricAlerts
