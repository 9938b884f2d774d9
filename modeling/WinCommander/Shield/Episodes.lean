import Mathlib.Data.String.Basic
import WinCommander.Library.History
import WinCommander.Library.SortedMap
import WinCommander.Library.Views

/-!
# Episodes of the Privacy Shield's detections

An episode of a class starts when the detector first sees the class and finishes when it first does
not.  All classes share one clock, and whatever leaves a gap in what was seen drops every episode: an
abandon, a timestamp that is not one, a timestamp before the last one.
-/

namespace ShieldEpisodes

open History

section Definitions

inductive Transition where
  | start (cls episodeId : String) (startedAtMs : ℤ)
  | finish (cls episodeId : String) (durationSeconds : UInt32)
  deriving DecidableEq

@[ext]
structure Episode where
  episodeId : String
  started : ℤ
  deriving DecidableEq

structure Episodes where
  active : SortedMap String Episode
  lastTimestamp : Option ℤ

/-- What the detector reports: the classes it sees, the milliseconds its time is truncated to (none
where there is no time, or one that is no positive finite number), and the identifier that each class
is given if it starts. -/
structure Observation where
  classes : List String
  timestamp : Option ℤ
  newId : String → String

inductive Action where
  | abandon
  | observe (o : Observation)

def Episodes.default : Episodes := ⟨SortedMap.empty, none⟩

def Episodes.abandon (_ : Episodes) : Episodes := ⟨SortedMap.empty, none⟩

def supported (cls : String) : Bool :=
  cls = "phone_detected" || cls = "multiple_faces" || cls = "presence_lost" || cls = "look_away"

/-- The time of an observation that is taken. -/
def accepted (lastTimestamp timestamp : Option ℤ) : Option ℤ :=
  (timestamp.filter fun t => 0 ≤ t ∧ t < 253402300799000).filter fun t =>
    lastTimestamp.all fun last => last ≤ t

/-- Whether an interval is reported. -/
def reported (elapsed : ℤ) : Bool := 0 ≤ elapsed ∧ elapsed ≤ 86400000

def seconds (elapsed : ℤ) : UInt32 := UInt32.ofNat (elapsed / 1000).toNat

/-- What the removal of an episode at a time says. -/
def finishOf (classes : List String) (timestamp : ℤ) (entry : String × Episode) : Option Transition :=
  if classes.contains entry.1 then none
  else
    let elapsed := timestamp - entry.2.started
    -- a clock jump or a too long interval is not clamped
    if reported elapsed then some (.finish entry.1 entry.2.episodeId (seconds elapsed)) else none

/-- The loop over the classes that are seen. -/
@[grind =] def startAll (newId : String → String) (timestamp : ℤ) :
    List String → SortedMap String Episode → SortedMap String Episode × List Transition
  | [], active => (active, [])
  | cls :: classes, active =>
    if supported cls then
      match active.lookup cls with
      | some _ => startAll newId timestamp classes active
      | none =>
        let result := startAll newId timestamp classes (active.insert cls ⟨newId cls, timestamp⟩)
        (result.1, .start cls (newId cls) timestamp :: result.2)
    else startAll newId timestamp classes active

def Episodes.observeWithIds (episodes : Episodes) (o : Observation) : Episodes × List Transition :=
  match accepted episodes.lastTimestamp o.timestamp with
  | none => (episodes.abandon, [])
  | some timestamp =>
    let finished := episodes.active.entries.filterMap (finishOf o.classes timestamp)
    let kept := episodes.active.retain o.classes.contains
    let started := startAll o.newId timestamp o.classes kept
    (⟨started.1, some timestamp⟩, finished ++ started.2)

def Episodes.step (episodes : Episodes) : Action → Episodes
  | .abandon => episodes.abandon
  | .observe o => (episodes.observeWithIds o).1

def Episodes.transitions (episodes : Episodes) : Action → List Transition
  | .abandon => []
  | .observe o => (episodes.observeWithIds o).2

end Definitions

section Tracks

/-- What a transition says of its class. -/
inductive Mark where
  | start (episodeId : String) (startedAtMs : ℤ)
  | finish (episodeId : String) (durationSeconds : UInt32)
  deriving DecidableEq

def Transition.mark (cls : String) : Transition → Option Mark
  | .start c id t => if c = cls then some (.start id t) else none
  | .finish c id d => if c = cls then some (.finish id d) else none

/-- What concerns one class of an action: its time, whether the class is seen, and the identifier that
is ready for it. -/
inductive Sight where
  | abandon
  | observe (timestamp : Option ℤ) (seen : Bool) (newId : String)

def Action.sight (cls : String) : Action → Sight
  | .abandon => .abandon
  | .observe o => .observe o.timestamp (o.classes.contains cls) (o.newId cls)

/-- The episodes of one class. -/
structure Track where
  clock : Option ℤ
  current : Option Episode

def Track.default : Track := ⟨none, none⟩

def Track.accepted (track : Track) : Sight → Option ℤ
  | .abandon => none
  | .observe timestamp _ _ => ShieldEpisodes.accepted track.clock timestamp

def Track.observed (track : Track) (timestamp : ℤ) (seen : Bool) (newId : String) :
    Option Episode × List Mark :=
  match track.current, seen with
  | some episode, true => (some episode, [])
  | some episode, false =>
    let elapsed := timestamp - episode.started
    (none, if reported elapsed then [.finish episode.episodeId (seconds elapsed)] else [])
  | none, true => (some ⟨newId, timestamp⟩, [.start newId timestamp])
  | none, false => (none, [])

def Track.step (track : Track) (sight : Sight) : Track :=
  match sight, track.accepted sight with
  | .observe _ seen newId, some timestamp => ⟨some timestamp, (track.observed timestamp seen newId).1⟩
  | _, _ => Track.default

def Track.marks (track : Track) (sight : Sight) : List Mark :=
  match sight, track.accepted sight with
  | .observe _ seen newId, some timestamp => (track.observed timestamp seen newId).2
  | _, _ => []

def Episodes.track (cls : String) (episodes : Episodes) : Track :=
  ⟨episodes.lastTimestamp, episodes.active.lookup cls⟩

end Tracks

section Refinement

variable {cls : String}

theorem lookup_startAll (hsup : supported cls = true) (newId : String → String) (timestamp : ℤ)
    (classes : List String) (active : SortedMap String Episode) :
    (startAll newId timestamp classes active).1.lookup cls =
      (active.lookup cls).or (if classes.contains cls then some ⟨newId cls, timestamp⟩ else none) := by
  induction classes generalizing active with
  | nil => simp [startAll]
  | cons c classes ih =>
    by_cases hc : c = cls
    · subst hc
      rw [startAll, if_pos hsup]
      cases hlook : active.lookup c with
      | none => simp [ih]
      | some episode => simp [ih, hlook]
    · have hne : cls ≠ c := Ne.symm hc
      rw [startAll]
      split
      · cases hlook : active.lookup c with
        | none => simp [ih, hne]
        | some episode => simp [ih, hne]
      · simp [ih, hne]

theorem marks_startAll (hsup : supported cls = true) (newId : String → String) (timestamp : ℤ)
    (classes : List String) (active : SortedMap String Episode) :
    (startAll newId timestamp classes active).2.filterMap (Transition.mark cls) =
      if active.lookup cls = none ∧ classes.contains cls then [.start (newId cls) timestamp] else [] := by
  induction classes generalizing active with
  | nil => simp [startAll]
  | cons c classes ih =>
    by_cases hc : c = cls
    · subst hc
      rw [startAll, if_pos hsup]
      cases hlook : active.lookup c with
      | none => simp [ih, Transition.mark]
      | some episode => simp [ih, hlook]
    · have hne : cls ≠ c := Ne.symm hc
      rw [startAll]
      split
      · cases hlook : active.lookup c with
        | none => simp [ih, hne, hc, Transition.mark]
        | some episode => simp [ih, hne]
      · simp [ih, hne]

theorem marks_finished (cls : String) (classes : List String) (timestamp : ℤ)
    (active : SortedMap String Episode) :
    (active.entries.filterMap (finishOf classes timestamp)).filterMap (Transition.mark cls) =
      ((active.lookup cls).bind fun episode =>
        (finishOf classes timestamp (cls, episode)).bind (Transition.mark cls)).toList := by
  rw [List.filterMap_filterMap]
  apply SortedMap.filterMap_entries
  intro entry hne
  unfold finishOf
  split_ifs <;> simp [Transition.mark, hne]

/-- A step of the engine is a step of the track of every class it knows. -/
theorem track_step (hsup : supported cls = true) (episodes : Episodes) (a : Action) :
    (episodes.step a).track cls = (episodes.track cls).step (a.sight cls) := by
  cases a with
  | abandon => rfl
  | observe o =>
    simp only [Episodes.step, Episodes.observeWithIds, Action.sight, Track.step, Track.accepted,
      Episodes.track]
    cases hacc : accepted episodes.lastTimestamp o.timestamp with
    | none => rfl
    | some timestamp =>
      simp only [lookup_startAll hsup, SortedMap.lookup_retain, Track.observed]
      cases hlook : episodes.active.lookup cls <;> cases hseen : o.classes.contains cls <;> simp

theorem track_marks (hsup : supported cls = true) (episodes : Episodes) (a : Action) :
    (episodes.transitions a).filterMap (Transition.mark cls) =
      (episodes.track cls).marks (a.sight cls) := by
  cases a with
  | abandon => rfl
  | observe o =>
    simp only [Episodes.transitions, Episodes.observeWithIds, Action.sight, Track.marks,
      Track.accepted, Episodes.track]
    cases hacc : accepted episodes.lastTimestamp o.timestamp with
    | none => rfl
    | some timestamp =>
      simp only [List.filterMap_append, marks_finished, marks_startAll hsup, SortedMap.lookup_retain,
        Track.observed]
      cases hlook : episodes.active.lookup cls <;> cases hseen : o.classes.contains cls
      case some.false episode =>
        have hnot : cls ∉ o.classes := by simpa using hseen
        by_cases hrep : reported (timestamp - episode.started) = true
        · simp [finishOf, hnot, hrep, Transition.mark]
        · simp [finishOf, hnot, hrep]
      all_goals simp_all [finishOf]

end Refinement

section Lines

/-- What one action comes to for one class. -/
structure Line where
  sight : Sight
  /-- The time of an observation that is taken; nothing after a gap. -/
  time : Option ℤ
  marks : List Mark

def Sight.timestamp : Sight → Option ℤ
  | .abandon => none
  | .observe timestamp _ _ => timestamp

def Sight.seen : Sight → Bool
  | .abandon => false
  | .observe _ seen _ => seen

def Sight.newId : Sight → Option String
  | .abandon => none
  | .observe _ _ newId => some newId

def Episodes.time (episodes : Episodes) : Action → Option ℤ
  | .abandon => none
  | .observe o => accepted episodes.lastTimestamp o.timestamp

def Episodes.line (cls : String) (episodes : Episodes) (a : Action) : Line :=
  ⟨a.sight cls, episodes.time a, (episodes.transitions a).filterMap (Transition.mark cls)⟩

/-- The record of a class over a run. -/
def lines (cls : String) (acts : List Action) : List Line :=
  Machine.outputs Episodes.step (fun episodes a => [episodes.line cls a]) Episodes.default acts

def Track.line (track : Track) (sight : Sight) : Line :=
  ⟨sight, track.accepted sight, track.marks sight⟩

def Track.lines (track : Track) (sights : List Sight) : List Line :=
  Machine.outputs Track.step (fun track sight => [track.line sight]) track sights

def Line.Starts (episodeId : String) (started : ℤ) (line : Line) : Prop :=
  .start episodeId started ∈ line.marks

/-- The class is seen and nothing is said of it. -/
def Line.Goes (line : Line) : Prop := line.time ≠ none ∧ line.sight.seen = true ∧ line.marks = []

/-- What a run says of a class, given what came before. -/
structure Right (before : List Line) (line : Line) : Prop where
  time : ∀ t, line.time = some t ↔ line.sight.timestamp = some t ∧ 0 ≤ t ∧ t < 253402300799000 ∧
    ∀ last, before.getLast?.bind Line.time = some last → last ≤ t
  start : ∀ id t, .start id t ∈ line.marks ↔ line.time = some t ∧ line.sight.seen = true ∧
    line.sight.newId = some id ∧ ¬ ∃ id' t', FollowedBy (Line.Starts id' t') Line.Goes before
  later : ∀ id t₀ t, FollowedBy (Line.Starts id t₀) Line.Goes before → line.time = some t → t₀ ≤ t
  finish : ∀ id d, .finish id d ∈ line.marks ↔
    ∃ t₀ t, FollowedBy (Line.Starts id t₀) Line.Goes before ∧ line.time = some t ∧
      line.sight.seen = false ∧ t - t₀ ≤ 86400000 ∧ (d.toNat : ℤ) = (t - t₀) / 1000
  single : line.marks.length ≤ 1

end Lines

section Invariant

variable {track : Track} {log : List Line}

/-- A track holds what its record says. -/
structure Track.Follows (track : Track) (log : List Line) : Prop where
  clock : track.clock = log.getLast?.bind Line.time
  current : ∀ episode, track.current = some episode ↔
    FollowedBy (Line.Starts episode.episodeId episode.started) Line.Goes log
  earlier : ∀ episode, track.current = some episode →
    ∃ last, track.clock = some last ∧ episode.started ≤ last

theorem Track.Follows.default : Track.default.Follows [] where
  clock := rfl
  current := by
    intro episode
    simp [Track.default, not_followedBy_nil]
  earlier := by simp [Track.default]

theorem accepted_eq_some {lastTimestamp timestamp : Option ℤ} {t : ℤ} :
    accepted lastTimestamp timestamp = some t ↔ timestamp = some t ∧ 0 ≤ t ∧ t < 253402300799000 ∧
      ∀ last, lastTimestamp = some last → last ≤ t := by
  cases lastTimestamp <;> simp [accepted, Option.filter_eq_some_iff, and_assoc]

theorem Track.accepted_eq_some {sight : Sight} {t : ℤ} :
    track.accepted sight = some t ↔ sight.timestamp = some t ∧ 0 ≤ t ∧ t < 253402300799000 ∧
      ∀ last, track.clock = some last → last ≤ t := by
  cases sight with
  | abandon => simp [Track.accepted, Sight.timestamp]
  | observe timestamp seen newId => exact ShieldEpisodes.accepted_eq_some

/-- After a gap nothing is known. -/
theorem Track.Follows.gap {line : Line} (htime : line.time = none) (hmarks : line.marks = []) :
    Track.default.Follows (log ++ [line]) where
  clock := by simp [Track.default, htime]
  current := by
    intro episode
    simp [Track.default, followedBy_concat, Line.Starts, Line.Goes, htime, hmarks]
  earlier := by simp [Track.default]

/-- What a track can do with what it sees. -/
theorem Track.step_cases (track : Track) (sight : Sight) :
    (track.accepted sight = none ∧ track.step sight = Track.default ∧ track.marks sight = []) ∨
      ∃ timestamp seen newId t, sight = .observe timestamp seen newId ∧
        track.accepted sight = some t ∧
        track.step sight = ⟨some t, (track.observed t seen newId).1⟩ ∧
        track.marks sight = (track.observed t seen newId).2 := by
  cases sight with
  | abandon => exact .inl ⟨rfl, rfl, rfl⟩
  | observe timestamp seen newId =>
    cases hacc : track.accepted (.observe timestamp seen newId) with
    | none => exact .inl ⟨rfl, by simp [Track.step, hacc], by simp [Track.marks, hacc]⟩
    | some t =>
      exact .inr ⟨timestamp, seen, newId, t, rfl, rfl, by simp [Track.step, hacc],
        by simp [Track.marks, hacc]⟩

/-- What is seen of a class and the episode it has decide what is said of it. -/
theorem Track.observed_cases (track : Track) (t : ℤ) (seen : Bool) (newId : String) :
    (∃ episode, track.current = some episode ∧ seen = true ∧
      track.observed t seen newId = (some episode, [])) ∨
    (∃ episode, track.current = some episode ∧ seen = false ∧
      track.observed t seen newId = (none, if reported (t - episode.started) then
        [.finish episode.episodeId (seconds (t - episode.started))] else [])) ∨
    (track.current = none ∧ seen = true ∧
      track.observed t seen newId = (some ⟨newId, t⟩, [.start newId t])) ∨
    (track.current = none ∧ seen = false ∧ track.observed t seen newId = (none, [])) := by
  cases hcur : track.current <;> cases seen <;> simp [Track.observed, hcur]

/-- A track goes on holding what its record says. -/
theorem Track.Follows.step (h : track.Follows log) (sight : Sight) :
    (track.step sight).Follows (log ++ [track.line sight]) := by
  rcases track.step_cases sight with ⟨hacc, hstep, hmarks⟩ |
    ⟨timestamp, seen, newId, t, rfl, hacc, hstep, hmarks⟩
  · rw [hstep]
    exact Follows.gap hacc hmarks
  · have hlater : ∀ last, track.clock = some last → last ≤ t :=
      (Track.accepted_eq_some.mp hacc).2.2.2
    have hclock : ((log ++ [track.line (.observe timestamp seen newId)]).getLast?.bind Line.time) =
        some t := by
      rw [List.getLast?_concat]
      exact hacc
    rw [hstep]
    rcases track.observed_cases t seen newId with ⟨episode, hcur, rfl, hobs⟩ |
      ⟨episode, hcur, rfl, hobs⟩ | ⟨hcur, rfl, hobs⟩ | ⟨hcur, rfl, hobs⟩
    · rw [hobs] at hmarks ⊢
      refine ⟨hclock.symm, ?_, ?_⟩
      · intro e
        rw [followedBy_concat, ← h.current]
        simp [Line.Starts, Line.Goes, Track.line, hmarks, hacc, Sight.seen, hcur]
      · intro e he
        obtain ⟨last, hlast, hle⟩ := h.earlier episode hcur
        cases he
        exact ⟨t, rfl, hle.trans (hlater last hlast)⟩
    · rw [hobs] at hmarks ⊢
      refine ⟨hclock.symm, ?_, by simp⟩
      intro e
      rw [followedBy_concat]
      have hnot : Mark.start e.episodeId e.started ∉ track.marks (.observe timestamp false newId) := by
        rw [hmarks]
        split <;> simp
      simp [Line.Starts, Line.Goes, Track.line, Sight.seen, hnot]
    · rw [hobs] at hmarks ⊢
      refine ⟨hclock.symm, ?_, ?_⟩
      · intro e
        rw [followedBy_concat]
        have hgoes : ¬ (track.line (.observe timestamp true newId)).Goes := by
          simp [Line.Goes, Track.line, hmarks]
        have hstarts : (track.line (.observe timestamp true newId)).Starts e.episodeId e.started ↔
            (⟨newId, t⟩ : Episode) = e := by
          simp [Line.Starts, Track.line, hmarks, Episode.ext_iff, eq_comm]
        simp [hstarts, hgoes]
      · intro e he
        cases he
        exact ⟨t, rfl, Int.le_refl t⟩
    · rw [hobs] at hmarks ⊢
      refine ⟨hclock.symm, ?_, by simp⟩
      intro e
      rw [followedBy_concat]
      simp [Line.Starts, Line.Goes, Track.line, Sight.seen, hmarks]

theorem toNat_seconds {elapsed : ℤ} (h : 0 ≤ elapsed) (hday : elapsed ≤ 86400000) :
    ((seconds elapsed).toNat : ℤ) = elapsed / 1000 := by
  have hfits : (elapsed / 1000).toNat < 2 ^ 32 := by omega
  rw [seconds, UInt32.toNat_ofNat_of_lt' hfits]
  omega

theorem mem_finish {episode : Episode} {t : ℤ} (hle : episode.started ≤ t) {id : String} {d : UInt32} :
    Mark.finish id d ∈ (if reported (t - episode.started) then
        [Mark.finish episode.episodeId (seconds (t - episode.started))] else []) ↔
      id = episode.episodeId ∧ t - episode.started ≤ 86400000 ∧
        (d.toNat : ℤ) = (t - episode.started) / 1000 := by
  by_cases hday : t - episode.started ≤ 86400000
  · have hsec := toNat_seconds (by omega) hday
    rw [if_pos (by simp [reported, hle, hday]), ← hsec]
    simp [hday, ← UInt32.toNat_inj, Int.natCast_inj]
  · rw [if_neg (by simp [reported, hday])]
    simp [hday]

theorem Track.Follows.current_eq_none (h : track.Follows log) :
    track.current = none ↔ ¬ ∃ id t, FollowedBy (Line.Starts id t) Line.Goes log := by
  constructor
  · rintro hnone ⟨id, t, hfollowed⟩
    have hsome := (h.current ⟨id, t⟩).mpr hfollowed
    rw [hnone] at hsome
    cases hsome
  · intro hnot
    cases hcur : track.current with
    | none => rfl
    | some episode => exact absurd ⟨_, _, (h.current episode).mp hcur⟩ hnot

/-- The line of a step is right in its record. -/
theorem Track.Follows.right (h : track.Follows log) (sight : Sight) :
    Right log (track.line sight) := by
  have htime : ∀ t, (track.line sight).time = some t ↔ sight.timestamp = some t ∧ 0 ≤ t ∧
      t < 253402300799000 ∧ ∀ last, log.getLast?.bind Line.time = some last → last ≤ t := by
    intro t
    rw [← h.clock]
    exact Track.accepted_eq_some
  have hlater : ∀ id t₀ t, FollowedBy (Line.Starts id t₀) Line.Goes log →
      (track.line sight).time = some t → t₀ ≤ t := by
    intro id t₀ t hfollowed ht
    obtain ⟨last, hlast, hle⟩ := h.earlier ⟨id, t₀⟩ ((h.current ⟨id, t₀⟩).mpr hfollowed)
    exact hle.trans ((Track.accepted_eq_some.mp ht).2.2.2 last hlast)
  have hcurrent : ∀ id t₀, FollowedBy (Line.Starts id t₀) Line.Goes log ↔
      track.current = some ⟨id, t₀⟩ := fun id t₀ => (h.current ⟨id, t₀⟩).symm
  rcases track.step_cases sight with ⟨hacc, -, hmarks⟩ |
    ⟨timestamp, seen, newId, t, rfl, hacc, -, hmarks⟩
  · refine ⟨htime, ?_, hlater, ?_, ?_⟩
    all_goals simp [Track.line, hacc, hmarks]
  · rcases track.observed_cases t seen newId with ⟨episode, hcur, rfl, hobs⟩ |
      ⟨episode, hcur, rfl, hobs⟩ | ⟨hcur, rfl, hobs⟩ | ⟨hcur, rfl, hobs⟩
    · refine ⟨htime, ?_, hlater, ?_, ?_⟩
      all_goals simp [Track.line, hacc, hmarks, hobs, hcur, hcurrent, Sight.seen, Episode.ext_iff]
    · have hle : episode.started ≤ t := hlater _ _ t ((h.current episode).mp hcur) hacc
      have hsaid : (track.line (.observe timestamp false newId)).marks =
          if reported (t - episode.started) then
            [.finish episode.episodeId (seconds (t - episode.started))] else [] := by
        rw [hobs] at hmarks
        exact hmarks
      refine ⟨htime, ?_, hlater, ?_, ?_⟩
      · intro id t'
        rw [hsaid]
        constructor
        · intro hmem
          split at hmem <;> simp at hmem
        · rintro ⟨-, hseen, -⟩
          cases hseen
      · intro id d
        rw [hsaid, mem_finish hle]
        constructor
        · rintro ⟨rfl, hday, hd⟩
          exact ⟨episode.started, t, (h.current episode).mp hcur, hacc, rfl, hday, hd⟩
        · rintro ⟨t₀, t', hfollowed, ht', -, hday, hd⟩
          have hsame := (hcurrent id t₀).mp hfollowed
          rw [hcur] at hsame
          cases hsame
          cases hacc.symm.trans ht'
          exact ⟨rfl, hday, hd⟩
      · rw [hsaid]
        split <;> simp
    · refine ⟨htime, ?_, hlater, ?_, ?_⟩
      all_goals simp [Track.line, hacc, hmarks, hobs, hcur, hcurrent, Sight.seen, Sight.newId, and_comm,
        eq_comm]
    · refine ⟨htime, ?_, hlater, ?_, ?_⟩
      all_goals simp [Track.line, hacc, hmarks, hobs, hcur, hcurrent, Sight.seen]

end Invariant

section Runs

variable {cls : String}

/-- What is followed up to the end came after whatever is not of the kind that follows. -/
theorem exists_starts_of_followedBy {E : Type*} {starts goes : E → Prop} {xs ys : List E} {x : E}
    (hnot : ¬ starts x) (hstops : ¬ goes x) (h : FollowedBy starts goes (xs ++ x :: ys)) :
    ∃ z ∈ ys, starts z := by
  induction ys using List.reverseRecOn with
  | nil =>
    rcases followedBy_concat.mp h with hstarts | ⟨-, hgoes⟩
    · exact absurd hstarts hnot
    · exact absurd hgoes hstops
  | append_singleton ys y ih =>
    rw [← List.cons_append, ← List.append_assoc] at h
    rcases followedBy_concat.mp h with hstarts | ⟨hbefore, -⟩
    · exact ⟨y, by simp, hstarts⟩
    · obtain ⟨z, hz, hstarts⟩ := ih hbefore
      exact ⟨z, List.mem_append_left _ hz, hstarts⟩

/-- A run goes on from a record that is right. -/
theorem Track.Follows.run {track : Track} {log : List Line} (h : track.Follows log)
    (hfits : Fits Right log) (sights : List Sight) : Fits Right (log ++ track.lines sights) := by
  induction sights generalizing track log with
  | nil => simpa [Track.lines, Machine.outputs] using hfits
  | cons sight sights ih =>
    have hnext := ih (h.step sight) (hfits.concat (h.right sight))
    rw [List.append_assoc] at hnext
    exact hnext

theorem map_sight_lines (track : Track) (sights : List Sight) :
    (track.lines sights).map Line.sight = sights := by
  induction sights generalizing track with
  | nil => rfl
  | cons sight sights ih =>
    have hrest := ih (track.step sight)
    rw [Track.lines] at hrest
    rw [Track.lines, Machine.outputs, List.map_append, hrest]
    rfl

/-- The record of a class is that of its track. -/
theorem lines_eq (hsup : supported cls = true) (acts : List Action) :
    lines cls acts = Track.default.lines (acts.map (Action.sight cls)) := by
  have hline : ∀ (episodes : Episodes) (a : Action),
      [episodes.line cls a].filterMap some = [(episodes.track cls).line (a.sight cls)] := by
    intro episodes a
    rw [List.filterMap_some, Episodes.line, Track.line, track_marks hsup]
    cases a <;> rfl
  have hview : (lines cls acts).filterMap some =
      (Episodes.default.track cls).lines (acts.map (Action.sight cls)) :=
    Machine.outputs_view (track_step hsup) hline Episodes.default acts
  rw [List.filterMap_some] at hview
  exact hview

theorem fits_lines (hsup : supported cls = true) (acts : List Action) :
    Fits Right (lines cls acts) := by
  rw [lines_eq hsup]
  exact Track.Follows.default.run fits_nil _

/-- The first line at which the class is not just seen on. -/
theorem exists_first_stop {ys : List Line} (h : ¬ ∀ z ∈ ys, z.Goes) :
    ∃ (ps : List Line) (z : Line) (qs : List Line), ys = ps ++ z :: qs ∧ (∀ p ∈ ps, p.Goes) ∧
      ¬ z.Goes := by
  induction ys with
  | nil => exact absurd (by simp) h
  | cons y ys ih =>
    by_cases hy : y.Goes
    · have hrest : ¬ ∀ z ∈ ys, z.Goes := by
        intro hall
        exact h (List.forall_mem_cons.mpr ⟨hy, hall⟩)
      obtain ⟨ps, z, qs, rfl, hps, hz⟩ := ih hrest
      exact ⟨y :: ps, z, qs, rfl, List.forall_mem_cons.mpr ⟨hy, hps⟩, hz⟩
    · exact ⟨[], y, ys, rfl, by simp, hy⟩

/-- Between a start and the next one of its class stands its finish, a gap, or a time more than a day
later at which the class is not seen. -/
theorem between_starts {log : List Line} (h : Fits Right log) {xs ys zs : List Line} {x y : Line}
    {id id' : String} {t₀ t' : ℤ} (hlog : log = xs ++ x :: (ys ++ y :: zs)) (hx : x.Starts id t₀)
    (hy : y.Starts id' t') (hnext : ∀ z ∈ ys, ∀ id t, ¬ z.Starts id t) :
    ∃ z ∈ ys, z.time = none ∨ (∃ d, .finish id d ∈ z.marks) ∨
      ∃ t, z.time = some t ∧ z.sight.seen = false ∧ 86400000 < t - t₀ := by
  have hright : Right (xs ++ x :: ys) y := h _ y zs (by simp [hlog])
  have hstop : ¬ ∀ z ∈ ys, z.Goes := by
    intro hall
    exact ((hright.start id' t').mp hy).2.2.2 ⟨id, t₀, xs, x, ys, rfl, hx, hall⟩
  obtain ⟨ps, z, qs, rfl, hps, hz⟩ := exists_first_stop hstop
  have hzright : Right (xs ++ x :: ps) z := h _ z (qs ++ y :: zs) (by simp [hlog])
  have hfollowed : FollowedBy (Line.Starts id t₀) Line.Goes (xs ++ x :: ps) :=
    ⟨xs, x, ps, rfl, hx, hps⟩
  refine ⟨z, by simp, ?_⟩
  cases htime : z.time with
  | none => exact .inl rfl
  | some t =>
    right
    cases hseen : z.sight.seen with
    | true =>
      -- a class that is seen on says nothing but a start
      have hmarks : z.marks ≠ [] := fun hnil => hz ⟨by simp [htime], hseen, hnil⟩
      obtain ⟨mark, rest, hcons⟩ := List.exists_cons_of_ne_nil hmarks
      have hmem : mark ∈ z.marks := by simp [hcons]
      cases mark with
      | start id₁ t₁ => exact absurd hmem (hnext z (by simp) id₁ t₁)
      | finish id₁ d₁ =>
        obtain ⟨_, _, _, _, hunseen, _⟩ := (hzright.finish id₁ d₁).mp hmem
        rw [hseen] at hunseen
        cases hunseen
    | false =>
      by_cases hday : t - t₀ ≤ 86400000
      · have hle := hzright.later id t₀ t hfollowed htime
        have hsec := toNat_seconds (by omega) hday
        exact .inl ⟨seconds (t - t₀),
          (hzright.finish id _).mpr ⟨t₀, t, hfollowed, htime, hseen, hday, hsec⟩⟩
      · exact .inr ⟨t, rfl, rfl, by omega⟩

/-- Between two finishes of a class stands a start. -/
theorem between_finishes {log : List Line} (h : Fits Right log) {xs ys zs : List Line} {x y : Line}
    {id id' : String} {d d' : UInt32} (hlog : log = xs ++ x :: (ys ++ y :: zs))
    (hx : .finish id d ∈ x.marks) (hy : .finish id' d' ∈ y.marks) :
    ∃ z ∈ ys, ∃ t, z.Starts id' t := by
  have hxright : Right xs x := h _ x (ys ++ y :: zs) hlog
  have hyright : Right (xs ++ x :: ys) y := h _ y zs (by simp [hlog])
  obtain ⟨t₀, t, hfollowed, -⟩ := (hyright.finish id' d').mp hy
  have hstops : ¬ x.Goes := fun hgoes => by
    rw [hgoes.2.2] at hx
    cases hx
  have hnot : ¬ x.Starts id' t₀ := by
    intro hstarts
    have hunseen := ((hxright.finish id d).mp hx)
    obtain ⟨_, _, _, _, hunseen, _⟩ := hunseen
    rw [((hxright.start id' t₀).mp hstarts).2.1] at hunseen
    cases hunseen
  exact (exists_starts_of_followedBy hnot hstops hfollowed).imp fun z hz => ⟨hz.1, t₀, hz.2⟩

/-- Starts of a class are apart: an episode that the next one follows has finished, was lost in a gap, or
went on unseen for more than a day. -/
def StartsApart (log : List Line) : Prop :=
  ∀ (xs : List Line) (x : Line) (ys : List Line) (y : Line) (zs : List Line) id id' t₀ t',
    log = xs ++ x :: (ys ++ y :: zs) → x.Starts id t₀ → y.Starts id' t' →
    (∀ z ∈ ys, ∀ id t, ¬ z.Starts id t) →
      ∃ z ∈ ys, z.time = none ∨ (∃ d, .finish id d ∈ z.marks) ∨
        ∃ t, z.time = some t ∧ z.sight.seen = false ∧ 86400000 < t - t₀

def FinishesApart (log : List Line) : Prop :=
  ∀ (xs : List Line) (x : Line) (ys : List Line) (y : Line) (zs : List Line) id id' d d',
    log = xs ++ x :: (ys ++ y :: zs) → .finish id d ∈ x.marks → .finish id' d' ∈ y.marks →
      ∃ z ∈ ys, ∃ t, z.Starts id' t

/-- In every run what is said of a class is decided by what concerns it: it starts where it is seen and
no episode of it goes on, it finishes where it is no longer seen within a day of its start, with the
identifier and the whole seconds of the episode that went on without a gap, and nothing else is said. -/
theorem episodes_sound (hsup : supported cls = true) (acts : List Action) :
    (lines cls acts).map Line.sight = acts.map (Action.sight cls) ∧
      Fits Right (lines cls acts) ∧ StartsApart (lines cls acts) ∧ FinishesApart (lines cls acts) ∧
      ∀ acts', acts'.map (Action.sight cls) = acts.map (Action.sight cls) →
        lines cls acts' = lines cls acts := by
  have hfits : Fits Right (lines cls acts) := fits_lines hsup acts
  refine ⟨?_, hfits, ?_, ?_, ?_⟩
  · rw [lines_eq hsup, map_sight_lines]
  · intro xs x ys y zs id id' t₀ t' hlog hx hy hnext
    exact between_starts hfits hlog hx hy hnext
  · intro xs x ys y zs id id' d d' hlog hx hy
    exact between_finishes hfits hlog hx hy
  · intro acts' hsame
    rw [lines_eq hsup, lines_eq hsup, hsame]

theorem episodes_sound_phone :
    Fits Right (lines "phone_detected" [.observe ⟨["phone_detected"], some 100250, fun _ => "one"⟩,
      .observe ⟨[], some 107750, fun _ => "two"⟩]) :=
  (episodes_sound (by decide) _).2.1

end Runs

section Alternation

/-- What a run says of a class. -/
def marks (cls : String) (acts : List Action) : List Mark :=
  (Machine.outputs Episodes.step Episodes.transitions Episodes.default acts).filterMap
    (Transition.mark cls)

theorem marks_eq_lines (cls : String) (acts : List Action) :
    marks cls acts = (lines cls acts).flatMap Line.marks := by
  rw [marks, lines]
  generalize Episodes.default = episodes
  induction acts generalizing episodes with
  | nil => rfl
  | cons a acts ih =>
    simp only [Machine.outputs, List.filterMap_append, List.flatMap_append, ih,
      List.flatMap_singleton, Episodes.line]

/-- A start, its finish, and so on; the flag says whether an episode goes on. -/
def alternate : Bool → List Mark → Bool
  | _, [] => true
  | goesOn, .start _ _ :: marks => !goesOn && alternate true marks
  | goesOn, .finish _ _ :: marks => goesOn && alternate false marks

/-- An episode that is abandoned has no finish. -/
theorem abandon_not_alternate :
    ¬ ∀ acts, alternate false (marks "presence_lost" acts) = true := by
  intro h
  have hrun := h [.observe ⟨["presence_lost"], some 100000, fun _ => "old"⟩, .abandon,
    .observe ⟨["presence_lost"], some 201000, fun _ => "new"⟩]
  revert hrun
  decide +kernel

end Alternation

section Others

/-- No episode of a class that the engine does not know goes on. -/
def Episodes.Known (episodes : Episodes) : Prop :=
  ∀ cls, supported cls = false → episodes.active.lookup cls = none

theorem startAll_unsupported {cls : String} (hsup : supported cls = false)
    (newId : String → String) (timestamp : ℤ) (classes : List String)
    (active : SortedMap String Episode) :
    (startAll newId timestamp classes active).1.lookup cls = active.lookup cls ∧
      (startAll newId timestamp classes active).2.filterMap (Transition.mark cls) = [] := by
  induction classes generalizing active with
  | nil => exact ⟨rfl, rfl⟩
  | cons c classes ih =>
    rw [startAll]
    by_cases hc : supported c = true
    · have hne : cls ≠ c := by
        intro heq
        rw [heq, hc] at hsup
        cases hsup
      rw [if_pos hc]
      cases hlook : active.lookup c with
      | none => simp [ih, hne, Ne.symm hne, Transition.mark]
      | some episode => exact ih active
    · rw [if_neg hc]
      exact ih active

theorem Episodes.Known.step {episodes : Episodes} (h : episodes.Known) (a : Action) :
    (episodes.step a).Known ∧ ∀ cls, supported cls = false →
      (episodes.transitions a).filterMap (Transition.mark cls) = [] := by
  cases a with
  | abandon => exact ⟨fun cls _ => SortedMap.lookup_empty cls, fun _ _ => rfl⟩
  | observe o =>
    simp only [Episodes.step, Episodes.transitions, Episodes.observeWithIds]
    cases accepted episodes.lastTimestamp o.timestamp with
    | none => exact ⟨fun cls _ => SortedMap.lookup_empty cls, fun _ _ => rfl⟩
    | some timestamp =>
      constructor
      · intro cls hsup
        simp [(startAll_unsupported hsup _ _ _ _).1, h cls hsup]
      · intro cls hsup
        simp [(startAll_unsupported hsup _ _ _ _).2, marks_finished, h cls hsup]

/-- Nothing is ever said of a class that the engine does not know. -/
theorem marks_unsupported {cls : String} (hsup : supported cls = false) (acts : List Action) :
    marks cls acts = [] := by
  have hknown : Episodes.default.Known := fun cls _ => SortedMap.lookup_empty cls
  rw [marks]
  revert hknown
  generalize Episodes.default = episodes
  induction acts generalizing episodes with
  | nil => exact fun _ => rfl
  | cons a acts ih =>
    intro hknown
    have ⟨hnext, hnone⟩ := hknown.step a
    rw [Machine.outputs, List.filterMap_append, hnone cls hsup, ih _ hnext]
    rfl

end Others

end ShieldEpisodes
