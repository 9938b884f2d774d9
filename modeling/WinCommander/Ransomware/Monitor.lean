import Mathlib
import WinCommander.Library.AsciiText
import WinCommander.Library.History
import WinCommander.Library.Run
import WinCommander.Library.SlidingWindow

/-!
# The ransomware monitor

File changes in the user's directories are counted in a rolling window.  When the count reaches the
threshold the monitor raises an alarm, and rests for the cooldown.
-/

namespace RansomwareMonitor

section Noise

/-- A name of the file system: its code points, lone surrogates among them. -/
abbrev OsStr := List UInt32

def toChar (point : UInt32) : Option Char :=
  if h : point.isValidChar then some ⟨point, h⟩ else none

def toStr (name : OsStr) : Option String := (name.mapM toChar).map String.ofList

/-- The parts that a path is split into. -/
inductive Component where
  | volume (text : OsStr)
  | rootDir
  | curDir
  | parentDir
  | normal (name : OsStr)
  deriving DecidableEq

abbrev Path := List Component

def osStr (text : String) : OsStr := text.toList.map Char.val

def Component.asOsStr : Component → OsStr
  | .volume text => text
  | .rootDir => osStr "\\"
  | .curDir => osStr "."
  | .parentDir => osStr ".."
  | .normal name => name

def fileName (path : Path) : Option OsStr :=
  match path.getLast? with
  | some (.normal name) => some name
  | _ => none

def dot : UInt32 := 46

/-- What follows the last dot of a file name that does not begin with it. -/
def extension (path : Path) : Option OsStr :=
  match fileName path with
  | none => none
  | some name =>
    let stem := name.rdropWhile (· ≠ dot)
    if stem.length ≤ 1 then none else some (name.rtakeWhile (· ≠ dot))

def noiseExtensions : List String :=
  ["tmp", "temp", "lock", "swp", "swo", "swx", "swn", "ini", "log", "cache", "crdownload",
    "partial", "lnk", "url", "etl", "evtx", "dmp", "blf", "regtrans-ms", "bak", "asd", "wbk",
    "xlk", "laccdb", "ldb", "one~", "onepkg-old", "onetoc2", "md5", "sha1", "sha256", "crc",
    "pack", "idx", "rev", "ldb"]

def noiseFilenames : List String :=
  ["desktop.ini", "thumbs.db", "ehthumbs.db", "ehthumbs_vista.db", "iconcache.db", "ntuser.dat",
    "ntuser.dat.log", "ntuser.ini", ".ds_store", "$mft", ".849c9593-d756-4e56-8d6e-42412f2a707b"]

def noisePathComponents : List String :=
  ["$RECYCLE.BIN", "System Volume Information", "WindowsApps", "Windows", "Program Files",
    "Program Files (x86)", "ProgramData", ".git", "node_modules", ".vscode", ".idea", "target",
    "build", "dist", "obj", "bin", ".next", ".nuxt", ".cache", "AppData", "Microsoft",
    "MicrosoftEdgeBackups", "OneNote", "OneDriveTemp", ".dropbox.cache", ".dropbox",
    ".tmp.drivedownload", "GoogleDriveFS", "iCloudDrive", "CloudStorage", "Search", "Defender",
    "WindowsDefender", "MpCmdRun"]

def userDocExtensions : List String :=
  ["doc", "docx", "docm", "dot", "dotx", "rtf", "odt", "pages", "xls", "xlsx", "xlsm", "xlsb",
    "ods", "csv", "numbers", "ppt", "pptx", "pptm", "odp", "key", "pdf", "epub", "mobi", "txt",
    "md", "tex", "jpg", "jpeg", "png", "gif", "bmp", "tif", "tiff", "webp", "heic", "raw", "cr2",
    "nef", "arw", "dng", "psd", "ai", "svg", "mp3", "wav", "flac", "aac", "ogg", "m4a", "opus",
    "mp4", "mov", "avi", "mkv", "wmv", "m4v", "webm", "zip", "rar", "7z", "tar", "gz", "iso",
    "dwg", "dxf", "skp", "stp", "step", "json", "xml", "yaml", "yml", "html", "css", "js", "ts",
    "pst", "ost", "mbox", "vcf", "sqlite", "db", "mdb", "accdb"]

def startsWith (name start : String) : Bool := start.toList.isPrefixOf name.toList

def noiseName (name : String) : Bool :=
  startsWith name "." || startsWith name "~$" || startsWith name "~WRL" ||
    startsWith name "~wrl" || AsciiText.lower name ∈ noiseFilenames

def noiseComponent (text : String) : Bool :=
  noisePathComponents.any fun skip => AsciiText.eqIgnoreCase text skip

def noiseExtension (ext : String) : Bool :=
  AsciiText.lower ext ∈ noiseExtensions || AsciiText.lower ext ∉ userDocExtensions

/-- No extension of a document is on the list of noise. -/
theorem noiseExtension_iff {ext : String} :
    noiseExtension ext = true ↔ AsciiText.lower ext ∉ userDocExtensions := by
  have hdisjoint : ∀ e ∈ noiseExtensions, e ∉ userDocExtensions := by decide +kernel
  simp only [noiseExtension, Bool.or_eq_true, decide_eq_true_eq]
  constructor
  · rintro (hnoise | hnot)
    · exact hdisjoint _ hnoise
    · exact hnot
  · exact Or.inr

def isNoisePath (path : Path) : Bool :=
  ((fileName path).bind toStr).any noiseName ||
    (path.any fun component => (toStr component.asOsStr).any noiseComponent) ||
    ((extension path).bind toStr).any noiseExtension

end Noise

section Monitor

/-- What the monitor is configured with. -/
structure RansomwareConfig where
  threshold : ℕ
  windowSeconds : ℕ
  alertCooldownSeconds : ℕ
  attributionMinFiles : ℕ
  deriving DecidableEq

def clamp (n low high : ℕ) : ℕ := min (max n low) high

def boundedConfig (config : RansomwareConfig) : RansomwareConfig where
  threshold := clamp config.threshold 10 500
  windowSeconds := clamp config.windowSeconds 5 300
  alertCooldownSeconds := clamp config.alertCooldownSeconds 30 3600
  attributionMinFiles := clamp config.attributionMinFiles 3 (clamp config.threshold 10 500)

/-- The monotonic clock counts nanoseconds. -/
def second : ℕ := 10 ^ 9

theorem second_pos : 0 < second := by decide

attribute [irreducible] second

/-- A file event with the time at which it is handled. -/
structure FsEvent where
  modify : Bool
  paths : List Path
  now : ℕ
  deriving DecidableEq

structure Detection where
  count : ℕ
  samplePaths : List Path
  deriving DecidableEq

structure Monitor where
  events : List (Path × ℕ)
  lastFire : Option ℕ
  deriving DecidableEq

def Monitor.started : Monitor := ⟨[], none⟩

/-- The alarm was raised less than the cooldown ago. -/
def snoozed (cfg : RansomwareConfig) (lastFire : Option ℕ) (now : ℕ) : Bool :=
  lastFire.any fun last => (now - last) / second < cfg.alertCooldownSeconds

/-- The entries of one event. -/
def FsEvent.entries (event : FsEvent) : List (Path × ℕ) :=
  (event.paths.filter fun path => !isNoisePath path).map fun path => (path, event.now)

def handleFsEvent (cfg : RansomwareConfig) (m : Monitor) (event : FsEvent) :
    Monitor × Option Detection :=
  if event.modify = false then (m, none)
  else if snoozed cfg m.lastFire event.now then (m, none)
  else
    let events := SlidingWindow.prune (cfg.windowSeconds * second) event.now m.events ++
      event.entries
    if events.length < cfg.threshold then ({ m with events }, none)
    else
      ({ events := [], lastFire := some event.now },
        some ⟨events.length, (events.reverse.take 5).map Prod.fst⟩)

/-- What an event can do. -/
inductive Handles (cfg : RansomwareConfig) (m : Monitor) (event : FsEvent) :
    Monitor × Option Detection → Prop
  | other (hmodify : event.modify = false) : Handles cfg m event (m, none)
  | snoozed (hsnoozed : snoozed cfg m.lastFire event.now = true) : Handles cfg m event (m, none)
  | counted (hmodify : event.modify = true)
      (hawake : RansomwareMonitor.snoozed cfg m.lastFire event.now = false)
      (hfew : (SlidingWindow.prune (cfg.windowSeconds * second) event.now m.events ++
        event.entries).length < cfg.threshold) :
      Handles cfg m event
        (⟨SlidingWindow.prune (cfg.windowSeconds * second) event.now m.events ++ event.entries,
          m.lastFire⟩, none)
  | fired (hmodify : event.modify = true)
      (hawake : RansomwareMonitor.snoozed cfg m.lastFire event.now = false)
      (hmany : cfg.threshold ≤ (SlidingWindow.prune (cfg.windowSeconds * second) event.now
        m.events ++ event.entries).length) (detection : Detection) :
      Handles cfg m event (⟨[], some event.now⟩, some detection)

theorem handles (cfg : RansomwareConfig) (m : Monitor) (event : FsEvent) :
    Handles cfg m event (handleFsEvent cfg m event) := by
  unfold handleFsEvent
  split
  · next hother => exact .other hother
  · next hmodify =>
    rw [Bool.not_eq_false] at hmodify
    split
    · next hsnoozed => exact .snoozed hsnoozed
    · next hawake =>
      rw [Bool.not_eq_true] at hawake
      dsimp only
      split
      · next hfew => exact .counted hmodify hawake hfew
      · next hmany => exact .fired hmodify hawake (not_lt.mp hmany) _

end Monitor

section History

/-- A handled event and the alarm it raised. -/
structure Entry where
  event : FsEvent
  alarm : Option Detection
  deriving DecidableEq

/-- The monitor and what it handled: the log is kept for the statements only. -/
structure Watch where
  monitor : Monitor
  log : List Entry
  deriving DecidableEq

def Watch.started : Watch := ⟨.started, []⟩

def Watch.handle (cfg : RansomwareConfig) (w : Watch) (event : FsEvent) : Watch :=
  let result := handleFsEvent cfg w.monitor event
  { monitor := result.1, log := w.log ++ [⟨event, result.2⟩] }

def Entry.alarmAt (e : Entry) : Option ℕ := e.alarm.map fun _ => e.event.now

def lastAlarm (log : List Entry) : Option ℕ := History.latest Entry.alarmAt log

/-- No alarm was raised less than the cooldown ago. -/
def Rested (cfg : RansomwareConfig) (before : List Entry) (now : ℕ) : Prop :=
  ∀ f ∈ before, f.alarm.isSome → f.event.now + cfg.alertCooldownSeconds * second ≤ now

/-- A change that was handled after the cooldown of the last alarm. -/
def counts (cfg : RansomwareConfig) (last : Option ℕ) (e : Entry) : Bool :=
  e.event.modify && last.all fun l => l + cfg.alertCooldownSeconds * second ≤ e.event.now

/-- The changes of files since the last alarm's cooldown ended. -/
def recorded (cfg : RansomwareConfig) (log : List Entry) : List (Path × ℕ) :=
  ((History.since (fun e => e.alarm.isSome) log).filter (counts cfg (lastAlarm log))).flatMap
    fun e => e.event.entries

/-- The files of the changes in the window that ends at an event, one for each change. -/
def modified (cfg : RansomwareConfig) (before : List Entry) (event : FsEvent) : List Path :=
  (SlidingWindow.within (cfg.windowSeconds * second) event.now
    (recorded cfg before ++ event.entries)).map Prod.fst

/-- The alarm is raised at a change exactly when none was raised within the cooldown and the
distinct files changed within the window have reached the threshold. -/
def CountsFiles (cfg : RansomwareConfig) (before : List Entry) (e : Entry) : Prop :=
  e.event.modify = true → (e.alarm.isSome = true ↔ Rested cfg before e.event.now ∧
    cfg.threshold ≤ (modified cfg before e.event).dedup.length)

/-- Where the changes reach the threshold, so do the files. -/
def Spread (cfg : RansomwareConfig) (before : List Entry) (e : Entry) : Prop :=
  e.event.modify = true → Rested cfg before e.event.now →
    cfg.threshold ≤ (modified cfg before e.event).length →
    cfg.threshold ≤ (modified cfg before e.event).dedup.length

/-- What the monitor does: it counts the changes. -/
def CountsChanges (cfg : RansomwareConfig) (before : List Entry) (e : Entry) : Prop :=
  e.alarm.isSome = true ↔ e.event.modify = true ∧ Rested cfg before e.event.now ∧
    cfg.threshold ≤ (modified cfg before e.event).length

/-- Counting changes counts files exactly where the changes are spread. -/
theorem CountsChanges.countsFiles_iff {cfg : RansomwareConfig} {before : List Entry} {e : Entry}
    (h : CountsChanges cfg before e) : CountsFiles cfg before e ↔ Spread cfg before e := by
  have hle : (modified cfg before e.event).dedup.length ≤ (modified cfg before e.event).length :=
    (List.dedup_sublist _).length_le
  unfold CountsChanges at h
  constructor
  · intro hfiles hmodify hrested hmany
    exact ((hfiles hmodify).mp (h.mpr ⟨hmodify, hrested, hmany⟩)).2
  · intro hspread hmodify
    rw [h]
    constructor
    · rintro ⟨_, hrested, hmany⟩
      exact ⟨hrested, hspread hmodify hrested hmany⟩
    · rintro ⟨hrested, hfiles⟩
      exact ⟨hmodify, hrested, hfiles.trans hle⟩

end History

section Invariant

variable {cfg : RansomwareConfig}

/-- The queue is what was recorded, as far as it is still in a window. -/
structure Tracks (cfg : RansomwareConfig) (w : Watch) : Prop where
  exact : History.Fits (CountsChanges cfg) w.log
  last : w.monitor.lastFire = lastAlarm w.log
  latest : ∀ f ∈ w.log, f.alarm.isSome → ∃ last ∈ lastAlarm w.log, f.event.now ≤ last
  entries : ∀ now, (∀ e ∈ w.log, e.event.now ≤ now) →
    SlidingWindow.within (cfg.windowSeconds * second) now w.monitor.events =
      SlidingWindow.within (cfg.windowSeconds * second) now (recorded cfg w.log)
  sorted : w.monitor.events.Pairwise fun x y => x.2 ≤ y.2
  handled : ∀ x ∈ w.monitor.events, ∃ e ∈ w.log, e.event.now = x.2

theorem tracks_started : Tracks cfg Watch.started where
  exact := History.fits_nil
  last := rfl
  latest _ h := by simp [Watch.started] at h
  entries _ _ := rfl
  sorted := List.Pairwise.nil
  handled _ h := by simp [Watch.started, Monitor.started] at h

variable {w : Watch} {event : FsEvent} {log : List Entry}

theorem entries_now {x : Path × ℕ} (h : x ∈ event.entries) : x.2 = event.now := by
  simp only [FsEvent.entries, List.mem_map] at h
  obtain ⟨path, _, rfl⟩ := h
  rfl

theorem lastAlarm_quiet : lastAlarm (log ++ [⟨event, none⟩]) = lastAlarm log :=
  History.latest_concat_of_none rfl log

theorem lastAlarm_alarm (detection : Detection) :
    lastAlarm (log ++ [⟨event, some detection⟩]) = some event.now :=
  History.latest_concat_of_some (f := Entry.alarmAt) rfl log

theorem recorded_quiet : recorded cfg (log ++ [⟨event, none⟩]) =
    recorded cfg log ++
      if counts cfg (lastAlarm log) ⟨event, none⟩ then event.entries else [] := by
  rw [recorded, lastAlarm_quiet, History.since_concat rfl, List.filter_append,
    List.flatMap_append, ← recorded]
  congr 1
  cases hcounts : counts cfg (lastAlarm log) ⟨event, none⟩ with
  | true => simp [hcounts]
  | false => simp [hcounts]

theorem recorded_alarm (detection : Detection) :
    recorded cfg (log ++ [⟨event, some detection⟩]) = [] := by
  rw [recorded, History.since_concat_of_marks rfl]
  rfl

theorem cooldown_le (cfg : RansomwareConfig) {last now : ℕ} (h : last ≤ now) :
    ¬ (now - last) / second < cfg.alertCooldownSeconds ↔
      last + cfg.alertCooldownSeconds * second ≤ now := by
  rw [not_lt, Nat.le_div_iff_mul_le second_pos]
  omega

/-- The alarms of the log up to the last one. -/
theorem lastAlarm_mem {last : ℕ} (h : last ∈ lastAlarm log) :
    ∃ f ∈ log, f.alarm.isSome = true ∧ f.event.now = last := by
  obtain ⟨f, hf, halarm⟩ := History.exists_of_latest h
  simp only [Entry.alarmAt, Option.map_eq_some_iff] at halarm
  obtain ⟨detection, hdetection, hnow⟩ := halarm
  exact ⟨f, hf, by simp [hdetection], hnow⟩

theorem Tracks.snoozed_iff (h : Tracks cfg w) (hnow : ∀ e ∈ w.log, e.event.now ≤ event.now) :
    snoozed cfg w.monitor.lastFire event.now = false ↔ Rested cfg w.log event.now := by
  rw [h.last]
  constructor
  · intro hawake f hf halarm
    obtain ⟨last, hlast, hle⟩ := h.latest f hf halarm
    obtain ⟨g, hg, _, rfl⟩ := lastAlarm_mem hlast
    rw [Option.mem_def.mp hlast] at hawake
    simp only [snoozed, Option.any_some, decide_eq_false_iff_not] at hawake
    have hlater := (cooldown_le cfg (hnow g hg)).mp hawake
    omega
  · intro hrested
    cases hlast : lastAlarm w.log with
    | none => rfl
    | some last =>
      obtain ⟨g, hg, halarm, rfl⟩ := lastAlarm_mem hlast
      simp only [snoozed, Option.any_some, decide_eq_false_iff_not]
      exact (cooldown_le cfg (hnow g hg)).mpr (hrested g hg halarm)

theorem Tracks.counts_iff (h : Tracks cfg w) (hnow : ∀ e ∈ w.log, e.event.now ≤ event.now) :
    counts cfg (lastAlarm w.log) ⟨event, none⟩ = true ↔
      event.modify = true ∧ snoozed cfg w.monitor.lastFire event.now = false := by
  rw [h.last]
  cases hlast : lastAlarm w.log with
  | none => simp [counts, snoozed]
  | some last =>
    obtain ⟨g, hg, _, rfl⟩ := lastAlarm_mem hlast
    have hcooldown := cooldown_le cfg (hnow g hg)
    unfold counts snoozed
    rw [Option.all_some, Option.any_some, Bool.and_eq_true, decide_eq_true_eq,
      decide_eq_false_iff_not, hcooldown]

/-- The queue after an event that is counted. -/
theorem Tracks.queue (h : Tracks cfg w) (hnow : ∀ e ∈ w.log, e.event.now ≤ event.now) :
    SlidingWindow.prune (cfg.windowSeconds * second) event.now w.monitor.events ++ event.entries =
      SlidingWindow.within (cfg.windowSeconds * second) event.now
        (recorded cfg w.log ++ event.entries) := by
  rw [SlidingWindow.prune_eq_within _ _ h.sorted, SlidingWindow.within_append,
    h.entries event.now hnow, SlidingWindow.within_of_now fun x hx => entries_now hx]

theorem Tracks.length_queue (h : Tracks cfg w) (hnow : ∀ e ∈ w.log, e.event.now ≤ event.now) :
    (SlidingWindow.prune (cfg.windowSeconds * second) event.now w.monitor.events ++
      event.entries).length = (modified cfg w.log event).length := by
  rw [h.queue hnow, modified, List.length_map]

theorem Tracks.counts_changes (h : Tracks cfg w)
    (hnow : ∀ e ∈ w.log, e.event.now ≤ event.now) {r : Monitor × Option Detection}
    (hr : Handles cfg w.monitor event r) : CountsChanges cfg w.log ⟨event, r.2⟩ := by
  unfold CountsChanges
  rw [← h.snoozed_iff hnow, ← h.length_queue hnow]
  cases hr with
  | other hmodify => simp [hmodify]
  | snoozed hsnoozed => simp [hsnoozed]
  | counted _ _ hfew =>
    refine iff_of_false (by simp) ?_
    rintro ⟨_, _, hmany⟩
    exact absurd hmany (not_le.mpr hfew)
  | fired hmodify hawake hmany => exact iff_of_true rfl ⟨hmodify, hawake, hmany⟩

theorem Tracks.quiet (h : Tracks cfg w) (hcounts : counts cfg (lastAlarm w.log) ⟨event, none⟩ = false)
    (hexact : CountsChanges cfg w.log ⟨event, none⟩) :
    Tracks cfg ⟨w.monitor, w.log ++ [⟨event, none⟩]⟩ where
  exact := h.exact.concat hexact
  last := h.last.trans lastAlarm_quiet.symm
  latest := by
    intro f hf halarm
    rw [lastAlarm_quiet]
    rcases List.mem_append.mp hf with hf | hf
    · exact h.latest f hf halarm
    · rw [List.mem_singleton.mp hf] at halarm
      simp at halarm
  entries := by
    intro now hnow
    rw [recorded_quiet, hcounts, if_neg (by simp), List.append_nil]
    exact h.entries now fun e he => hnow e (List.mem_append_left _ he)
  sorted := h.sorted
  handled := by
    intro x hx
    obtain ⟨e, he, heq⟩ := h.handled x hx
    exact ⟨e, List.mem_append_left _ he, heq⟩

theorem Tracks.counted (h : Tracks cfg w) (hnow : ∀ e ∈ w.log, e.event.now ≤ event.now)
    (hcounts : counts cfg (lastAlarm w.log) ⟨event, none⟩ = true)
    (hexact : CountsChanges cfg w.log ⟨event, none⟩) :
    Tracks cfg ⟨⟨SlidingWindow.prune (cfg.windowSeconds * second) event.now w.monitor.events ++
      event.entries, w.monitor.lastFire⟩, w.log ++ [⟨event, none⟩]⟩ where
  exact := h.exact.concat hexact
  last := h.last.trans lastAlarm_quiet.symm
  latest := by
    intro f hf halarm
    rw [lastAlarm_quiet]
    rcases List.mem_append.mp hf with hf | hf
    · exact h.latest f hf halarm
    · rw [List.mem_singleton.mp hf] at halarm
      simp at halarm
  entries := by
    intro now hlater
    have hle : event.now ≤ now := hlater ⟨event, none⟩ (by simp)
    rw [recorded_quiet, hcounts, if_pos rfl, h.queue hnow, SlidingWindow.within_within hle]
  sorted := by
    rw [SlidingWindow.prune_eq_within _ _ h.sorted, List.pairwise_append]
    refine ⟨h.sorted.filter _, ?_, ?_⟩
    · apply List.pairwise_of_forall_mem_list
      intro x hx y hy
      rw [entries_now hx, entries_now hy]
    · intro x hx y hy
      obtain ⟨e, he, heq⟩ := h.handled x (List.mem_of_mem_filter hx)
      rw [entries_now hy, ← heq]
      exact hnow e he
  handled := by
    intro x hx
    rcases List.mem_append.mp hx with hx | hx
    · obtain ⟨e, he, heq⟩ := h.handled x ((List.dropWhile_sublist _).subset hx)
      exact ⟨e, List.mem_append_left _ he, heq⟩
    · exact ⟨⟨event, none⟩, by simp, (entries_now hx).symm⟩

theorem Tracks.fired (h : Tracks cfg w) (hnow : ∀ e ∈ w.log, e.event.now ≤ event.now)
    {detection : Detection} (hexact : CountsChanges cfg w.log ⟨event, some detection⟩) :
    Tracks cfg ⟨⟨[], some event.now⟩, w.log ++ [⟨event, some detection⟩]⟩ where
  exact := h.exact.concat hexact
  last := (lastAlarm_alarm detection).symm
  latest := by
    intro f hf _
    refine ⟨event.now, lastAlarm_alarm detection, ?_⟩
    rcases List.mem_append.mp hf with hf | hf
    · exact hnow f hf
    · rw [List.mem_singleton.mp hf]
  entries := by
    intro now _
    rw [recorded_alarm]
  sorted := List.Pairwise.nil
  handled _ hx := by simp at hx

/-- Every event that is not earlier than the ones before it keeps the count. -/
theorem Tracks.handle (h : Tracks cfg w) (hnow : ∀ e ∈ w.log, e.event.now ≤ event.now) :
    Tracks cfg (w.handle cfg event) := by
  have hr := handles cfg w.monitor event
  have hexact := h.counts_changes hnow hr
  have hcounts := h.counts_iff hnow
  unfold Watch.handle
  generalize handleFsEvent cfg w.monitor event = r at hr hexact
  cases hr with
  | other hmodify =>
    apply h.quiet _ hexact
    rw [Bool.eq_false_iff, Ne, hcounts]
    simp [hmodify]
  | snoozed hsnoozed =>
    apply h.quiet _ hexact
    rw [Bool.eq_false_iff, Ne, hcounts]
    simp [hsnoozed]
  | counted hmodify hawake _ => exact h.counted hnow (hcounts.mpr ⟨hmodify, hawake⟩) hexact
  | fired => exact h.fired hnow hexact

theorem tracks_run {events : List FsEvent} (h : Tracks cfg w)
    (hlog : ∀ e ∈ w.log, ∀ event ∈ events, e.event.now ≤ event.now)
    (htimes : events.Pairwise fun x y => x.now ≤ y.now) :
    Tracks cfg (Machine.run (Watch.handle cfg) w events) := by
  induction events generalizing w with
  | nil => exact h
  | cons event events ih =>
    rw [List.pairwise_cons] at htimes
    rw [Machine.run_cons]
    apply ih (h.handle fun e he => hlog e he event (by simp)) _ htimes.2
    intro e he event' hevent'
    rcases List.mem_append.mp he with he | he
    · exact hlog e he event' (by simp [hevent'])
    · rw [List.mem_singleton.mp he]
      exact htimes.1 event' hevent'

/-- The monitor counts changes, in every history in the order of time. -/
theorem countsChanges_run (cfg : RansomwareConfig) {events : List FsEvent}
    (htimes : events.Pairwise fun x y => x.now ≤ y.now) :
    History.Fits (CountsChanges cfg) (Machine.run (Watch.handle cfg) .started events).log :=
  (tracks_run tracks_started (by simp [Watch.started]) htimes).exact

/-- Its alarms count files in a history exactly when the changes are spread over enough files at
every change. -/
theorem countsFiles_iff_spread (cfg : RansomwareConfig) (events : List FsEvent)
    (htimes : events.Pairwise fun x y => x.now ≤ y.now) :
    History.Fits (CountsFiles cfg) (Machine.run (Watch.handle cfg) .started events).log ↔
      History.Fits (Spread cfg) (Machine.run (Watch.handle cfg) .started events).log := by
  have hexact := countsChanges_run cfg htimes
  constructor
  · intro h before e after heq
    exact (hexact before e after heq).countsFiles_iff.mp (h before e after heq)
  · intro h before e after heq
    exact (hexact before e after heq).countsFiles_iff.mpr (h before e after heq)

end Invariant

section OneFile

private def lowest : RansomwareConfig := boundedConfig ⟨10, 5, 30, 3⟩

private def report : Path := [.volume (osStr "C:"), .rootDir, .normal (osStr "report.txt")]

/-- One file is saved every tenth of a second. -/
private def saves (n : ℕ) : List FsEvent :=
  (List.range n).map fun i => ⟨true, [report], i * 10 ^ 8⟩

theorem countsFiles_nine_saves :
    History.Fits (CountsFiles lowest) (Machine.run (Watch.handle lowest) .started (saves 9)).log ↔
      History.Fits (Spread lowest) (Machine.run (Watch.handle lowest) .started (saves 9)).log :=
  countsFiles_iff_spread lowest (saves 9) (by decide +kernel)

private def tenth : FsEvent := ⟨true, [report], 9 * 10 ^ 8⟩

/-- Ten changes of one file raise the alarm. -/
theorem countsFiles_ten_saves : ¬ ∀ cfg (events : List FsEvent),
    (events.Pairwise fun x y => x.now ≤ y.now) →
      History.Fits (CountsFiles cfg) (Machine.run (Watch.handle cfg) .started events).log := by
  intro h
  have hten := h lowest (saves 10) (by decide +kernel)
  have hlog : (Machine.run (Watch.handle lowest) .started (saves 10)).log =
      (Machine.run (Watch.handle lowest) .started (saves 9)).log ++
        ⟨tenth, some ⟨10, List.replicate 5 report⟩⟩ :: [] := by
    decide +kernel
  have hfiles : lowest.threshold ≤ (modified lowest (Machine.run (Watch.handle lowest) .started
      (saves 9)).log tenth).dedup.length := ((hten _ _ _ hlog rfl).mp rfl).2
  have hone : (modified lowest (Machine.run (Watch.handle lowest) .started (saves 9)).log
      tenth).dedup.length = 1 := by
    decide +kernel
  rw [hone] at hfiles
  exact absurd hfiles (by decide)

end OneFile

end RansomwareMonitor
