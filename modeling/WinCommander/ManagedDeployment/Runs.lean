import Mathlib
import WinCommander.Library.Hex
import WinCommander.Library.Run
import WinCommander.ManagedDeployment.Authority

/-!
# Runs of managed deployment

The calls are one at a time.  A claim is written before the helper is called and the receipt after it.
A crash ends the call that is running; what the registry holds stays.
-/

namespace ManagedDeployment

open FleetProto Json Outcome

section Store

def maxState : ℕ := 1048576

/-- The text of a value is followed to this depth when it is read. -/
def maxDepth : ℕ := 127

/-- How a write ends.  A value that is not flushed is there, but the write has failed. -/
inductive Saved where
  | done
  | unflushed
  | refused
  deriving DecidableEq

structure Written where
  registry : Option Value
  there : Bool
  answer : Except String Unit

def save (registry : Option Value) (s : Authority) (saved : Saved) : Written :=
  if maxState < size (authorityValue s).write then ⟨registry, false, .error "management_store_full"⟩
  else
    match saved with
    | .done => ⟨some (authorityValue s), true, .ok ()⟩
    | .unflushed => ⟨some (authorityValue s), true, .error "management_store_unavailable"⟩
    | .refused => ⟨registry, false, .error "management_store_unavailable"⟩

def load : Option Value → Except String Authority
  | none => .ok .default
  | some v => do
      refuseIf (maxState < size v.write ∨ maxDepth < v.depth) "management_store_invalid"
      (readAuthority v).mapError fun _ => "management_store_invalid"

/-- Every recorded result is as flat as a receipt. -/
def Shallow (s : Authority) : Prop :=
  ∀ setupId entry, s.jobs.lookup setupId = some entry →
    ∀ result, entry.result = some result → result.depth ≤ 1

/-- The registry holds a state. -/
def Holds (registry : Option Value) (s : Authority) : Prop :=
  registry = none ∧ s = .default ∨ registry = some (authorityValue s) ∧
    size (authorityValue s).write ≤ maxState ∧ Shallow s

theorem depth_authorityValue {s : Authority} (h : Shallow s) : (authorityValue s).depth ≤ maxDepth := by
  have hcontext : (Serde.ofOption contextValue s.context).depth ≤ 1 := by
    cases s.context with
    | none => simp [Serde.ofOption, Value.depth]
    | some context => simp [Serde.ofOption, contextValue, Value.depth, Value.depthMembers]
  have hentry : ∀ job ∈ s.jobs.entries, (entryValue job.2).depth ≤ 2 := by
    intro job hjob
    have hlookup : s.jobs.lookup job.1 = some job.2 := AList.mem_lookup_iff.mpr hjob
    rw [entryValue, Value.depth_object_le]
    intro m hm
    simp only [List.mem_cons, List.not_mem_nil, or_false] at hm
    rcases hm with rfl | rfl
    · simp
    · cases hresult : job.2.result with
      | none => simp [Value.depth]
      | some result => exact h job.1 job.2 hlookup result hresult
  have hjobs : (Value.object (s.jobs.entries.map jobValue)).depth ≤ 3 := by
    rw [Value.depth_object_le]
    intro m hm
    obtain ⟨job, hjob, rfl⟩ := List.mem_map.mp hm
    exact hentry job hjob
  have hstate : (authorityValue s).depth ≤ 4 := by
    rw [authorityValue, Value.depth_object_le]
    intro m hm
    simp only [List.mem_cons, List.not_mem_nil, or_false] at hm
    rcases hm with rfl | rfl | rfl
    · exact hcontext.trans (by decide)
    · simp
    · exact hjobs
  exact hstate.trans (by decide)

/-- What was saved is loaded again. -/
theorem load_of_holds {registry : Option Value} {s : Authority} (h : Holds registry s) :
    load registry = .ok s := by
  rcases h with ⟨rfl, rfl⟩ | ⟨rfl, hsize, hshallow⟩
  · rfl
  · have hdepth := depth_authorityValue hshallow
    rw [load, refuseIf_neg _ (by omega), readAuthority_authorityValue]
    rfl

theorem save_there {registry : Option Value} {s : Authority} {saved : Saved}
    (h : (save registry s saved).there = true) (hshallow : Shallow s) :
    Holds (save registry s saved).registry s := by
  by_cases hsize : maxState < size (authorityValue s).write
  · simp [save, hsize] at h
  · have hfits : size (authorityValue s).write ≤ maxState := by omega
    cases saved with
    | done => exact .inr ⟨by simp [save, hsize], hfits, hshallow⟩
    | unflushed => exact .inr ⟨by simp [save, hsize], hfits, hshallow⟩
    | refused => simp [save, hsize] at h

theorem save_not_there {registry : Option Value} {s : Authority} {saved : Saved}
    (h : (save registry s saved).there = false) : (save registry s saved).registry = registry := by
  by_cases hsize : maxState < size (authorityValue s).write
  · simp [save, hsize]
  · cases saved with
    | done => simp [save, hsize] at h
    | unflushed => simp [save, hsize] at h
    | refused => simp [save, hsize]

theorem save_ok {registry : Option Value} {s : Authority} {saved : Saved}
    (h : (save registry s saved).answer = .ok ()) : (save registry s saved).there = true := by
  by_cases hsize : maxState < size (authorityValue s).write
  · simp [save, hsize] at h
  · cases saved with
    | done => simp [save, hsize]
    | unflushed => simp [save, hsize] at h
    | refused => simp [save, hsize] at h

theorem save_fits {registry : Option Value} {s : Authority}
    (hsize : (authorityValue s).sizeBound ≤ maxState) :
    save registry s .done = ⟨some (authorityValue s), true, .ok ()⟩ := by
  have hfits := (size_write_le (authorityValue s)).trans hsize
  rw [save, if_neg (Nat.not_lt.mpr hfits)]

theorem load_fits {s : Authority} (hsize : (authorityValue s).sizeBound ≤ maxState)
    (hshallow : Shallow s) : load (some (authorityValue s)) = .ok s :=
  load_of_holds (.inr ⟨rfl, (size_write_le (authorityValue s)).trans hsize, hshallow⟩)

end Store

section Runs

/-- A job as it is given to the helper, with the request and the clock that admitted it. -/
structure HelperCall where
  setupId : String
  request : ManagedDeploymentRequest
  now : Int64

inductive Phase where
  | idle
  | claimed (state : Authority) (call : HelperCall)
  | waiting (state : Authority) (setupId : String)
  | completed (state : Authority) (result : Value)

/-- The registry and the call that is running.  The claims that were written and the calls of the
helper are kept to be spoken about. -/
structure World where
  registry : Option Value
  phase : Phase
  claims : List HelperCall
  calls : List HelperCall

def World.start : World := ⟨none, .idle, [], []⟩

/-- The arguments of an apply, as they are read, and the size of their canonical text. -/
structure Arguments where
  size : ℕ
  request : Except String ManagedDeploymentRequest

/-- The outcome of opening and reading the store, and of writing it, is a part of each action. -/
inductive Action where
  | bind (context : ManagedDeploymentContext) (store : Except String Unit) (saved : Saved)
  | apply (arguments : Arguments) (clock : Except String Int64) (store : Except String Unit)
      (saved : Saved)
  | callHelper
  | helperReplies (reply : Except String Document)
  | record (store : Except String Unit) (saved : Saved)
  | crash

abbrev Answer := Except String Value

variable {Key : Type} (platform : Platform Key)

def bound (registry : Option Value) (context : ManagedDeploymentContext) (store : Except String Unit) :
    Except String Authority := do
  store
  let s ← load registry
  bind platform s context

def admitted (registry : Option Value) (arguments : Arguments) (clock : Except String Int64)
    (store : Except String Unit) :
    Except String (Decision × Authority × ManagedDeploymentRequest × Int64) := do
  refuseIf (65536 < arguments.size) "deployment_bundle_invalid"
  let request ← arguments.request
  let now ← clock
  store
  let s ← load registry
  let (decision, s') ← authorize platform s request now
  pure (decision, s', request, now)

def completed (s : Authority) (setupId : String) (reply : Except String Document) :
    Except String (Value × Authority) := do
  let result ← reply.mapError fun _ => "installation_outcome_unknown"
  complete s setupId result.value

/-- The claim is written before the helper is called. -/
def writeClaim (w : World) (s : Authority) (call : HelperCall) (saved : Saved) :
    World × Option Answer :=
  let written := save w.registry s saved
  let claims := if written.there then call :: w.claims else w.claims
  match written.answer with
  | .ok _ => ({ w with registry := written.registry, claims, phase := .claimed s call }, none)
  | .error e => ({ w with registry := written.registry, claims, phase := .idle }, some (.error e))

/-- A step and what is answered at it.  While one call is running the others wait. -/
def advance (w : World) (a : Action) : World × Option Answer :=
  match w.phase, a with
  | _, .crash => ({ w with phase := .idle }, none)
  | .idle, .bind context store saved =>
    match bound platform w.registry context store with
    | .error e => (w, some (.error e))
    | .ok s =>
      let written := save w.registry s saved
      ({ w with registry := written.registry },
        some (written.answer.map fun _ => .object [("bound", .bool true)]))
  | .idle, .apply arguments clock store saved =>
    match admitted platform w.registry arguments clock store with
    | .error e => (w, some (.error e))
    | .ok (.observed result, _) => (w, some (.ok result))
    | .ok (.apply setupId, s, request, now) =>
      writeClaim w s ⟨setupId, request, now⟩ saved
  | .claimed s call, .callHelper =>
    ({ w with phase := .waiting s call.setupId, calls := call :: w.calls }, none)
  | .waiting s setupId, .helperReplies reply =>
    match completed s setupId reply with
    | .error e => ({ w with phase := .idle }, some (.error e))
    | .ok (result, s') => ({ w with phase := .completed s' result }, none)
  | .completed s result, .record store saved =>
    match store with
    | .error e => ({ w with phase := .idle }, some (.error e))
    | .ok _ =>
      let written := save w.registry s saved
      ({ w with registry := written.registry, phase := .idle },
        some (written.answer.map fun _ => result))
  | _, _ => (w, none)

def step (w : World) (a : Action) : World := (advance platform w a).1

def answer (w : World) (a : Action) : Option Answer := (advance platform w a).2

/-- A request that is read from a store that can be read is authorised. -/
theorem admitted_eq {registry : Option Value} {s : Authority} (hload : load registry = .ok s)
    (request : ManagedDeploymentRequest) (now : Int64) :
    admitted platform registry ⟨1024, .ok request⟩ (.ok now) (.ok ()) =
      (authorize platform s request now).map fun answer => (answer.1, answer.2, request, now) := by
  have hadmitted : admitted platform registry ⟨1024, .ok request⟩ (.ok now) (.ok ()) =
      load registry >>= fun s => authorize platform s request now >>= fun answer =>
        pure (answer.1, answer.2, request, now) := rfl
  rw [hadmitted, hload]
  change (authorize platform s request now >>= fun answer =>
    pure (answer.1, answer.2, request, now)) = _
  cases authorize platform s request now with
  | error e => rfl
  | ok answer => rfl

end Runs

section Invariant

variable {Key : Type} (platform : Platform Key)

/-- The request was for this job, by the bound organisation, and not expired. -/
structure Licensed (context : ManagedDeploymentContext) (call : HelperCall) : Prop where
  covers : Covers platform context call.request call.setupId
    (canonicalJsonSha256 platform call.request.bundle.value)
  clock : 0 < call.now
  unexpired : ∃ expires,
    (call.request.bundle.value.get "expires_at").bind Value.asI64 = some expires ∧ call.now < expires

/-- The state of the call that is running, beside what the registry holds. -/
def Running (w : World) (s : Authority) : Prop :=
  match w.phase with
  | .idle => True
  | .claimed t call => t = s ∧ call ∈ w.claims ∧ call.setupId ∉ w.calls.map (·.setupId)
  | .waiting t _ => t = s
  | .completed t _ => Later s t ∧ Shallow t

/-- What holds between two steps, where the registry holds `s`. -/
structure Stands (w : World) (s : Authority) : Prop where
  holds : Holds w.registry s
  licensed : ∀ c ∈ w.claims, ∃ context, s.context = some context ∧ Licensed platform context c
  journalled : ∀ c ∈ w.claims, ∃ entry, s.jobs.lookup c.setupId = some entry ∧
    entry.digest = canonicalJsonSha256 platform c.request.bundle.value
  claimed : ∀ c ∈ w.calls, c ∈ w.claims
  once : (w.calls.map (·.setupId)).Nodup
  running : Running w s

variable {platform}

theorem Holds.shallow {registry : Option Value} {s : Authority} (h : Holds registry s) :
    Shallow s := by
  rcases h with ⟨-, rfl⟩ | ⟨-, -, hshallow⟩
  · intro setupId entry hentry
    exact absurd hentry (by simp [Authority.default])
  · exact hshallow

theorem bind_shallow {s s' : Authority} {context : ManagedDeploymentContext} (hs : Shallow s)
    (h : bind platform s context = .ok s') : Shallow s' := by
  rcases bind_cases h with heq | ⟨-, heq⟩
  · rw [heq]
    exact hs
  · rw [heq]
    exact hs

/-- One more entry whose result, if there is one, is as flat as a receipt. -/
theorem Shallow.insert {s s' : Authority} (hs : Shallow s) (setupId : String) (entry : JournalEntry)
    (hjobs : s'.jobs = s.jobs.insert setupId entry)
    (hflat : ∀ result, entry.result = some result → result.depth ≤ 1) : Shallow s' := by
  intro other old hold
  rw [hjobs] at hold
  by_cases hsame : other = setupId
  · subst hsame
    rw [AList.lookup_insert] at hold
    obtain rfl := Option.some.inj hold
    exact hflat
  · rw [AList.lookup_insert_ne hsame] at hold
    exact hs other old hold

theorem claim_shallow {s s' : Authority} {request : ManagedDeploymentRequest} {now : Int64}
    {setupId digest : String} (hs : Shallow s) (h : claim s request now setupId digest = .ok s') :
    Shallow s' := by
  apply hs.insert setupId ⟨digest, none, by simp⟩
  · rw [(claim_eq h).1]
  · intro result hresult
    exact absurd hresult (by simp)

theorem authorize_shallow {s s' : Authority} {request : ManagedDeploymentRequest} {now : Int64}
    {decision : Decision} (hs : Shallow s)
    (h : authorize platform s request now = .ok (decision, s')) : Shallow s' := by
  obtain ⟨setupId, digest, -, ⟨entry, -, -, heq, -⟩ | ⟨-, -, hclaim⟩⟩ := authorize_cases h
  · rw [heq]
    exact hs
  · exact claim_shallow hs hclaim

theorem complete_keeps_shallow {s s' : Authority} {setupId : String} {result answer : Value}
    (hs : Shallow s) (hu : result.UniqueKeys) (h : complete s setupId result = .ok (answer, s')) :
    Shallow s' := by
  obtain ⟨entry, -, ⟨-, heq⟩ | ⟨-, -, hnull, heq⟩⟩ := complete_cases h
  · rw [heq]
    exact hs
  · apply hs.insert setupId ⟨entry.digest, some result, hnull⟩
    · rw [heq]
    · intro recorded hrecorded
      rw [← Option.some.inj hrecorded]
      exact complete_shallow hu h

/-- What was claimed before is claimed under every later state. -/
theorem Stands.later {w : World} {s t : Authority} (h : Stands platform w s) (hlater : Later s t)
    {registry : Option Value} {phase : Phase} (hholds : Holds registry t)
    (hrunning : Running { w with registry, phase } t) :
    Stands platform { w with registry, phase } t where
  holds := hholds
  licensed := by
    intro c hc
    obtain ⟨context, hcontext, hlicensed⟩ := h.licensed c hc
    exact ⟨context, hlater.context context hcontext, hlicensed⟩
  journalled := by
    intro c hc
    obtain ⟨entry, hentry, hdigest⟩ := h.journalled c hc
    obtain ⟨entry', hentry', hdigest', -⟩ := hlater.jobs c.setupId entry hentry
    exact ⟨entry', hentry', hdigest'.trans hdigest⟩
  claimed := h.claimed
  once := h.once
  running := hrunning

/-- A call that has ended leaves the registry as it is. -/
theorem Stands.idle {w : World} {s : Authority} (h : Stands platform w s) :
    Stands platform { w with phase := .idle } s :=
  h.later (Later.refl s) h.holds trivial

/-- A state that goes on from the one that is held is written or is not. -/
theorem Stands.saved {w : World} {s t : Authority} (h : Stands platform w s) (hlater : Later s t)
    (hshallow : Shallow t) (saved : Saved) :
    ∃ u, Stands platform { w with registry := (save w.registry t saved).registry, phase := .idle } u ∧
      Later s u := by
  cases hthere : (save w.registry t saved).there with
  | true => exact ⟨t, h.later hlater (save_there hthere hshallow) trivial, hlater⟩
  | false =>
    rw [save_not_there hthere]
    exact ⟨s, h.idle, Later.refl s⟩

theorem bound_cases {w : World} {s t : Authority} (h : Stands platform w s)
    {context : ManagedDeploymentContext} {store : Except String Unit}
    (hbound : bound platform w.registry context store = .ok t) : Later s t ∧ Shallow t := by
  simp only [bound, load_of_holds h.holds, bind_ok] at hbound
  obtain ⟨-, -, loaded, hloaded, hbound⟩ := hbound
  obtain rfl := Except.ok.inj hloaded
  exact ⟨bind_later hbound, bind_shallow h.holds.shallow hbound⟩

theorem admitted_cases {w : World} {s t : Authority} (h : Stands platform w s)
    {arguments : Arguments} {clock : Except String Int64} {store : Except String Unit}
    {decision : Decision} {request : ManagedDeploymentRequest} {now : Int64}
    (hadmitted : admitted platform w.registry arguments clock store = .ok (decision, t, request, now)) :
    arguments.request = .ok request ∧ authorize platform s request now = .ok (decision, t) := by
  simp only [admitted, load_of_holds h.holds, bind_ok, pure_ok] at hadmitted
  obtain ⟨-, -, asked, hasked, read, -, -, -, loaded, hloaded, ⟨decided, t'⟩, hauthorize, heq⟩ :=
    hadmitted
  obtain rfl := Except.ok.inj hloaded
  simp only [Prod.mk.injEq] at heq
  obtain ⟨rfl, rfl, rfl, rfl⟩ := heq
  exact ⟨hasked, hauthorize⟩

theorem completed_cases {s t : Authority} {setupId : String} {reply : Except String Document}
    {result : Value} (hs : Shallow s) (h : completed s setupId reply = .ok (result, t)) :
    Later s t ∧ Shallow t := by
  simp only [completed, bind_ok, mapError_ok] at h
  obtain ⟨receipt, -, hcomplete⟩ := h
  exact ⟨complete_later hcomplete, complete_keeps_shallow hs receipt.uniqueKeys hcomplete⟩

theorem writeClaim_cases (w : World) (s : Authority) (call : HelperCall) (saved : Saved) :
    ((save w.registry s saved).there = true ∧ ∃ phase,
        (phase = .idle ∨ phase = .claimed s call) ∧ (writeClaim w s call saved).1 =
          { w with registry := (save w.registry s saved).registry, phase, claims := call :: w.claims }) ∨
      (writeClaim w s call saved).1 = { w with phase := .idle } := by
  cases hthere : (save w.registry s saved).there with
  | true =>
    left
    cases hanswer : (save w.registry s saved).answer with
    | ok _ => exact ⟨rfl, .claimed s call, .inr rfl, by simp [writeClaim, hthere, hanswer]⟩
    | error e => exact ⟨rfl, .idle, .inl rfl, by simp [writeClaim, hthere, hanswer]⟩
  | false =>
    right
    have hsame := save_not_there hthere
    cases hanswer : (save w.registry s saved).answer with
    | ok _ => exact absurd (save_ok hanswer) (by simp [hthere])
    | error e => simp [writeClaim, hthere, hanswer, hsame]

/-- A claim that is written is of a job that was not in the journal. -/
theorem Stands.claims {w : World} {s t : Authority} (h : Stands platform w s)
    {request : ManagedDeploymentRequest} {now : Int64} {setupId : String}
    (hauthorize : authorize platform s request now = .ok (.apply setupId, t))
    {registry : Option Value} (hholds : Holds registry t) {phase : Phase}
    (hphase : phase = .idle ∨ phase = .claimed t ⟨setupId, request, now⟩) :
    Stands platform { w with registry, phase, claims := ⟨setupId, request, now⟩ :: w.claims } t ∧
      Later s t := by
  obtain ⟨setup, digest, hvet, ⟨entry, -, -, -, hobserved⟩ | ⟨hnone, happly, hclaim⟩⟩ :=
    authorize_cases hauthorize
  · exact absurd hobserved (by simp)
  · obtain rfl : setupId = setup := Decision.apply.inj happly
    obtain ⟨context, hcontext, hcovers, hepoch⟩ := vet_covers hvet
    obtain ⟨heq, hclock, hunexpired⟩ := claim_eq hclaim
    have hlater : Later s t := claim_later hepoch hnone hclaim
    have hfresh : setupId ∉ w.calls.map (·.setupId) := by
      intro hmem
      obtain ⟨c, hc, hsetup⟩ := List.mem_map.mp hmem
      obtain ⟨entry, hentry, -⟩ := h.journalled c (h.claimed c hc)
      rw [hsetup, hnone] at hentry
      exact absurd hentry (by simp)
    have hold : Stands platform { w with registry, phase := .idle } t :=
      h.later hlater hholds trivial
    have hdigest : canonicalJsonSha256 platform request.bundle.value = digest := hcovers.bundleDigest
    refine ⟨?_, hlater⟩
    constructor
    · exact hholds
    · intro c hc
      rcases List.mem_cons.mp hc with rfl | hc
      · refine ⟨context, hlater.context context hcontext, ?_, hclock, hunexpired⟩
        rw [hdigest]
        exact hcovers
      · exact hold.licensed c hc
    · intro c hc
      rcases List.mem_cons.mp hc with rfl | hc
      · refine ⟨⟨digest, none, by simp⟩, ?_, hdigest.symm⟩
        rw [heq]
        exact AList.lookup_insert _
      · exact hold.journalled c hc
    · exact fun c hc => List.mem_cons_of_mem _ (h.claimed c hc)
    · exact h.once
    · rcases hphase with rfl | rfl
      · trivial
      · exact ⟨rfl, List.mem_cons_self, hfresh⟩

theorem stands_start : Stands platform .start .default where
  holds := .inl ⟨rfl, rfl⟩
  licensed _ hc := absurd hc List.not_mem_nil
  journalled _ hc := absurd hc List.not_mem_nil
  claimed _ hc := absurd hc List.not_mem_nil
  once := List.nodup_nil
  running := trivial

theorem idle_step {w : World} {s : Authority} (h : Stands platform w s) (hphase : w.phase = .idle)
    (a : Action) : ∃ t, Stands platform (step platform w a) t ∧ Later s t := by
  have hsame : ∃ t, Stands platform w t ∧ Later s t := ⟨s, h, Later.refl s⟩
  cases a with
  | crash =>
    simp only [step, advance]
    exact ⟨s, h.idle, Later.refl s⟩
  | callHelper =>
    simpa only [step, advance, hphase] using hsame
  | helperReplies reply =>
    simpa only [step, advance, hphase] using hsame
  | record store saved =>
    simpa only [step, advance, hphase] using hsame
  | bind context store saved =>
    simp only [step, advance, hphase]
    cases hbound : bound platform w.registry context store with
    | error e => exact hsame
    | ok t =>
      obtain ⟨hlater, hshallow⟩ := bound_cases h hbound
      exact h.saved hlater hshallow saved
  | apply arguments clock store saved =>
    simp only [step, advance, hphase]
    cases hadmitted : admitted platform w.registry arguments clock store with
    | error e => exact hsame
    | ok admission =>
      obtain ⟨decision, t, request, now⟩ := admission
      have hauthorize := (admitted_cases h hadmitted).2
      cases decision with
      | observed result => exact hsame
      | apply setupId =>
        have hshallow : Shallow t := authorize_shallow h.holds.shallow hauthorize
        rcases writeClaim_cases w t ⟨setupId, request, now⟩ saved with
          ⟨hthere, phase, hrunning, hworld⟩ | hworld
        · rw [hworld]
          exact ⟨t, h.claims hauthorize (save_there hthere hshallow) hrunning⟩
        · rw [hworld]
          exact ⟨s, h.idle, Later.refl s⟩

theorem step_stands {w : World} {s : Authority} (h : Stands platform w s) (a : Action) :
    ∃ t, Stands platform (step platform w a) t ∧ Later s t := by
  have hsame : ∃ t, Stands platform w t ∧ Later s t := ⟨s, h, Later.refl s⟩
  have hidle : ∃ t, Stands platform { w with phase := .idle } t ∧ Later s t :=
    ⟨s, h.idle, Later.refl s⟩
  have hrunning := h.running
  cases hphase : w.phase with
  | idle => exact idle_step h hphase a
  | claimed t call =>
    rw [Running, hphase] at hrunning
    obtain ⟨rfl, hcall, hfresh⟩ := hrunning
    cases a with
    | crash => simpa only [step, advance, hphase] using hidle
    | callHelper =>
      simp only [step, advance, hphase]
      refine ⟨t, ?_, Later.refl t⟩
      exact {
        holds := h.holds
        licensed := h.licensed
        journalled := h.journalled
        claimed := List.forall_mem_cons.mpr ⟨hcall, h.claimed⟩
        once := List.nodup_cons.mpr ⟨hfresh, h.once⟩
        running := rfl }
    | _ => simpa only [step, advance, hphase] using hsame
  | waiting t setupId =>
    rw [Running, hphase] at hrunning
    subst hrunning
    cases a with
    | crash => simpa only [step, advance, hphase] using hidle
    | helperReplies reply =>
      simp only [step, advance, hphase]
      cases hcompleted : completed t setupId reply with
      | error e => exact hidle
      | ok receipt =>
        exact ⟨t, h.later (Later.refl t) h.holds (completed_cases h.holds.shallow hcompleted),
          Later.refl t⟩
    | _ => simpa only [step, advance, hphase] using hsame
  | completed t result =>
    rw [Running, hphase] at hrunning
    cases a with
    | crash => simpa only [step, advance, hphase] using hidle
    | record store saved =>
      simp only [step, advance, hphase]
      cases store with
      | error e => exact hidle
      | ok _ => exact h.saved hrunning.1 hrunning.2 saved
    | _ => simpa only [step, advance, hphase] using hsame

end Invariant

section Jobs

variable {Key : Type} {platform : Platform Key} {w : World} {s : Authority}

theorem run_stands {v : World} (h : Stands platform v s) (acts : List Action) :
    ∃ t, Stands platform (Machine.run (step platform) v acts) t ∧ Later s t := by
  induction acts generalizing v s with
  | nil => exact ⟨s, h, Later.refl s⟩
  | cons a acts ih =>
    obtain ⟨next, hnext, hlater⟩ := step_stands h a
    obtain ⟨t, ht, hrest⟩ := ih hnext
    exact ⟨t, ht, hlater.trans hrest⟩

/-- What a job in the journal is answered with. -/
def recordedAnswer (s : Authority) (setupId : String) (entry : JournalEntry) : Value :=
  entry.result.getD (outcomeUnknown setupId (boundDevice s))

/-- While a call is running an apply waits. -/
theorem apply_waits (hphase : w.phase ≠ .idle) (arguments : Arguments)
    (clock : Except String Int64) (store : Except String Unit) (saved : Saved) :
    advance platform w (.apply arguments clock store saved) = (w, none) := by
  cases h : w.phase with
  | idle => exact absurd h hphase
  | _ => simp only [advance, h]

/-- A job in the journal is not claimed again, and no other answer is given than the recorded one. -/
theorem apply_journalled (h : Stands platform w s) {setupId : String} {entry : JournalEntry}
    (hentry : s.jobs.lookup setupId = some entry) {arguments : Arguments}
    {request : ManagedDeploymentRequest} (hrequest : arguments.request = .ok request)
    (hsetup : textAt request.bundle.value "setup_id" = some setupId) (clock : Except String Int64)
    (store : Except String Unit) (saved : Saved) :
    w.phase ≠ .idle ∧ advance platform w (.apply arguments clock store saved) = (w, none) ∨
      (∃ e, advance platform w (.apply arguments clock store saved) = (w, some (.error e))) ∨
      canonicalJsonSha256 platform request.bundle.value = entry.digest ∧
        advance platform w (.apply arguments clock store saved) =
          (w, some (.ok (recordedAnswer s setupId entry))) := by
  by_cases hphase : w.phase = .idle
  · right
    cases hadmitted : admitted platform w.registry arguments clock store with
    | error e =>
      left
      exact ⟨e, by simp only [advance, hphase, hadmitted]⟩
    | ok admission =>
      right
      obtain ⟨decision, t, asked, now⟩ := admission
      obtain ⟨hasked, hauthorize⟩ := admitted_cases h hadmitted
      obtain rfl : request = asked := Except.ok.inj (hrequest.symm.trans hasked)
      obtain ⟨setup, digest, hvet, hcases⟩ := authorize_cases hauthorize
      obtain ⟨context, -, hcovers, -⟩ := vet_covers hvet
      obtain rfl : setupId = setup := Option.some.inj (hsetup.symm.trans hcovers.bundleSetup)
      rcases hcases with ⟨found, hfound, hdigest, -, hdecision⟩ | ⟨hnone, -, -⟩
      · obtain rfl : entry = found := Option.some.inj (hentry.symm.trans hfound)
        refine ⟨hcovers.bundleDigest.trans hdigest.symm, ?_⟩
        simp only [advance, hphase, hadmitted, hdecision, recordedAnswer]
      · rw [hentry] at hnone
        exact absurd hnone (by simp)
  · exact .inl ⟨hphase, apply_waits hphase arguments clock store saved⟩

/-- A request that passes what is checked before the journal is answered with what is recorded. -/
theorem apply_vetted (h : Stands platform w s) (hphase : w.phase = .idle) {setupId : String}
    {entry : JournalEntry} (hentry : s.jobs.lookup setupId = some entry) {arguments : Arguments}
    (hsize : arguments.size ≤ 65536) {request : ManagedDeploymentRequest}
    (hrequest : arguments.request = .ok request)
    (hvet : vet platform s request = .ok (setupId, entry.digest)) (now : Int64) (saved : Saved) :
    answer platform w (.apply arguments (.ok now) (.ok ()) saved) =
      some (.ok (recordedAnswer s setupId entry)) := by
  have hauthorize : authorize platform s request now =
      .ok (.observed (recordedAnswer s setupId entry), s) := authorize_recorded hvet hentry now
  have hadmitted : admitted platform w.registry arguments (.ok now) (.ok ()) =
      .ok (.observed (recordedAnswer s setupId entry), s, request, now) := by
    rw [admitted, refuseIf_neg _ (by omega), hrequest, load_of_holds h.holds]
    show (do
        let (decision, s') ← authorize platform s request now
        pure (decision, s', request, now)) = _
    rw [hauthorize]
    rfl
  simp only [answer, advance, hphase, hadmitted]

variable (platform)

/-- What the helper was called for, under the state that the registry holds. -/
structure RunsOnce (w : World) (s : Authority) : Prop where
  loaded : load w.registry = .ok s
  saved : w.registry = none ∧ s = .default ∨ w.registry = some (authorityValue s)
  once : (w.calls.map (·.setupId)).Nodup
  licensed : ∀ c ∈ w.calls, ∃ context, s.context = some context ∧ Licensed platform context c
  claimed : ∀ c ∈ w.calls, c ∈ w.claims

/-- What an apply of a job does that is in the journal already. -/
structure Replays (w : World) (s : Authority) : Prop where
  answers : ∀ {setupId entry arguments request clock store saved value},
    s.jobs.lookup setupId = some entry → arguments.request = .ok request →
    textAt request.bundle.value "setup_id" = some setupId →
    step platform w (.apply arguments clock store saved) = w ∧
      (answer platform w (.apply arguments clock store saved) = some (.ok value) →
        value = recordedAnswer s setupId entry)
  vetted : ∀ {setupId entry arguments request now saved}, w.phase = .idle →
    s.jobs.lookup setupId = some entry → arguments.size ≤ 65536 →
    arguments.request = .ok request → vet platform s request = .ok (setupId, entry.digest) →
    answer platform w (.apply arguments (.ok now) (.ok ()) saved) =
      some (.ok (recordedAnswer s setupId entry))
  refuses : ∀ {c arguments request clock store saved}, w.phase = .idle → c ∈ w.claims →
    arguments.request = .ok request →
    textAt request.bundle.value "setup_id" = some c.setupId →
    ¬ Value.KeyOrderEq c.request.bundle.value request.bundle.value →
    ∃ e, answer platform w (.apply arguments clock store saved) = some (.error e)

variable {platform}

theorem Stands.runsOnce (h : Stands platform w s) : RunsOnce platform w s where
  loaded := load_of_holds h.holds
  saved := by
    rcases h.holds with hnone | ⟨hsome, -, -⟩
    · exact .inl hnone
    · exact .inr hsome
  once := h.once
  licensed c hc := h.licensed c (h.claimed c hc)
  claimed := h.claimed

theorem Stands.replays (h : Stands platform w s)
    (hsha : ∀ b b', platform.sha256 b = platform.sha256 b' → b = b') : Replays platform w s where
  answers := by
    intro setupId entry arguments request clock store saved value hentry hrequest hsetup
    have hcases := apply_journalled h hentry hrequest hsetup clock store saved
    simp only [step, answer]
    rcases hcases with ⟨-, hwaits⟩ | ⟨e, herror⟩ | ⟨-, hrecorded⟩
    · simp [hwaits]
    · simp [herror]
    · rw [hrecorded]
      refine ⟨rfl, ?_⟩
      intro hvalue
      exact (Except.ok.inj (Option.some.inj hvalue)).symm
  vetted := by
    intro setupId entry arguments request now saved hphase hentry hsize hrequest hvet
    exact apply_vetted h hphase hentry hsize hrequest hvet now saved
  refuses := by
    intro c arguments request clock store saved hphase hc hrequest hsetup hother
    obtain ⟨entry, hentry, hdigest⟩ := h.journalled c hc
    rcases apply_journalled h hentry hrequest hsetup clock store saved with
      ⟨hbusy, -⟩ | ⟨e, herror⟩ | ⟨hsame, -⟩
    · exact absurd hphase hbusy
    · exact ⟨e, by rw [answer, herror]⟩
    · have hbytes : canonicalJsonBytes c.request.bundle.value =
          canonicalJsonBytes request.bundle.value := hsha _ _ (hdigest.symm.trans hsame.symm)
      rw [canonicalJsonBytes_eq_iff c.request.bundle.uniqueKeys] at hbytes
      exact absurd hbytes hother


/-- In every run the helper is called once for a setup at most, and with what the bound organisation
signed.  What is bound, the epoch and the journal are kept in every later state, and a job in the
journal is answered from the journal. -/
theorem jobs_run_once (hsha : ∀ b b', platform.sha256 b = platform.sha256 b' → b = b')
    (earlier later : List Action) :
    ∃ s t, RunsOnce platform (Machine.run (step platform) .start earlier) s ∧
      RunsOnce platform (Machine.run (step platform) .start (earlier ++ later)) t ∧ Later s t ∧
      Replays platform (Machine.run (step platform) .start (earlier ++ later)) t := by
  have hstart : Stands platform .start .default := stands_start
  obtain ⟨s, hs, -⟩ := run_stands hstart earlier
  obtain ⟨t, ht, hlater⟩ := run_stands hs later
  rw [Machine.run_append]
  exact ⟨s, t, hs.runsOnce, ht.runsOnce, hlater, ht.replays hsha⟩

end Jobs

namespace Recorded

def key : List UInt8 :=
  [250, 72, 52, 20, 127, 110, 105, 12, 54, 147, 239, 246, 19, 54, 4, 100, 3, 205, 138, 226,
    161, 79, 49, 179, 196, 7, 53, 133, 105, 35, 149, 101]

def context : ManagedDeploymentContext := ⟨"local", "d1", "+kg0FH9uaQw2k+/2EzYEZAPNiuKhTzGzxAc1hWkjlWU="⟩

def bundle (setupId deploymentId : String) : Document where
  value := .object [
    ("org_id", .string "local"),
    ("device_id", .string "d1"),
    ("setup_id", .string setupId),
    ("deployment_id", .string deploymentId),
    ("expires_at", .number (.ofInt 3700))]
  uniqueKeys := by
    refine .object (by simp) ?_
    simp [Value.UniqueKeys.string, Value.UniqueKeys.number]

def payload (setupId deploymentId digest : String) : Document where
  value := .object [
    ("setup_id", .string setupId),
    ("device_id", .string "d1"),
    ("deployment_id", .string deploymentId),
    ("bundle_sha256", .string digest)]
  uniqueKeys := by
    refine .object (by simp) ?_
    simp [Value.UniqueKeys.string]

def request (key setupId deploymentId digest : String) (epochVersion : Int64) (signature : String) :
    ManagedDeploymentRequest where
  command := {
    idempotencyKey := key
    deviceId := "d1"
    catalogId := "managed_scanner.setup"
    actionClass := .destructive
    payload := payload setupId deploymentId digest
    epochVersion
    signature
    signerKey := context.signingKeyB64 }
  bundle := bundle setupId deploymentId

def firstDigest : String := "7ae05bfdf8e264e173ca0b1dcefe5ef2bb6bb974368f901194ea92adc98b92d0"

def secondDigest : String := "f275b4164e558f8a39440040dd62d9301041b3e9e9cddd9c17114b7a2c6c0c0d"

def first : ManagedDeploymentRequest := request "k1" "s1" "v1" firstDigest 1
  "a0vrqQX2r2OltudvNKpfSWQs2QRNZmNHbpEOj3wvNFeGTLVDZA2li6WlMfqTlRkbAFehTeVEFyYtKuF8Zd0PBA=="

def firstSignature : List UInt8 :=
  [107, 75, 235, 169, 5, 246, 175, 99, 165, 182, 231, 111, 52, 170, 95, 73, 100, 44, 217, 4,
    77, 102, 99, 71, 110, 145, 14, 143, 124, 47, 52, 87, 134, 76, 181, 67, 100, 13, 165, 139,
    165, 165, 49, 250, 147, 149, 25, 27, 0, 87, 161, 77, 229, 68, 23, 38, 45, 42, 225, 124,
    101, 221, 15, 4]

def second : ManagedDeploymentRequest := request "k2" "s2" "v2" secondDigest 2
  "UQru9x9xCQfPLbeeggH0KsF9QFoivkbR8UeqSkWOB6RdxI4TCYn3JVW0zt4vn5gBBEdzzZ7RbgjhixqjbvqxBg=="

def secondSignature : List UInt8 :=
  [81, 10, 238, 247, 31, 113, 9, 7, 207, 45, 183, 158, 130, 1, 244, 42, 193, 125, 64, 90, 34,
    190, 70, 209, 241, 71, 170, 74, 69, 142, 7, 164, 93, 196, 142, 19, 9, 137, 247, 37, 85,
    180, 206, 222, 47, 159, 152, 1, 4, 71, 115, 205, 158, 209, 110, 8, 225, 139, 26, 163, 110,
    250, 177, 6]

def recording : Recording where
  texts := [(context.signingKeyB64, key), (first.command.signature, firstSignature),
    (second.command.signature, secondSignature)]
  signed := [(key, signedBytes first.command, firstSignature),
    (key, signedBytes second.command, secondSignature)]

/-- The digests of the two bundles.  What else is hashed gets a text of its own. -/
def sha256 (bytes : List UInt8) : String :=
  if bytes = canonicalJsonBytes first.bundle.value then firstDigest
  else if bytes = canonicalJsonBytes second.bundle.value then secondDigest
  else String.ofList ('-' :: Hex.encode bytes)

def platform : Platform (List UInt8) := ⟨recording.crypto, sha256⟩

def receipt : Document where
  value := .object [
    ("schema_version", .number (.ofInt 1)),
    ("setup_id", .string "s1"),
    ("device_id", .string "d1"),
    ("state", .string "installed")]
  uniqueKeys := by
    refine .object (by simp) ?_
    simp [Value.UniqueKeys.string, Value.UniqueKeys.number]

def applies (request : ManagedDeploymentRequest) : Action :=
  .apply ⟨1024, .ok request⟩ (.ok 100) (.ok ()) .done

/-- One job is done, and another one is claimed at a later epoch. -/
def acts : List Action := [.bind context (.ok ()) .done, applies first, .callHelper,
  .helperReplies (.ok receipt), .record (.ok ()) .done, applies second, .crash]

/-- The bytes that a digest is of. -/
def hashed (digest : String) : List UInt8 :=
  if digest = firstDigest then canonicalJsonBytes first.bundle.value
  else if digest = secondDigest then canonicalJsonBytes second.bundle.value
  else (Hex.decode digest.toList.tail).getD []

theorem hashed_sha256 (bytes : List UInt8) : hashed (sha256 bytes) = bytes := by
  have hdiffer : secondDigest ≠ firstDigest := by decide
  by_cases hfirst : bytes = canonicalJsonBytes first.bundle.value
  · rw [sha256, if_pos hfirst, hashed, if_pos rfl, hfirst]
  · by_cases hsecond : bytes = canonicalJsonBytes second.bundle.value
    · rw [sha256, if_neg hfirst, if_pos hsecond, hashed, if_neg hdiffer, if_pos rfl, hsecond]
    · have hhead : ∀ digest : String, digest.toList.head? ≠ some '-' →
          String.ofList ('-' :: Hex.encode bytes) ≠ digest := by
        rintro digest hdigest rfl
        simp at hdigest
      have hnotFirst := hhead firstDigest (by decide)
      have hnotSecond := hhead secondDigest (by decide)
      rw [sha256, if_neg hfirst, if_neg hsecond, hashed, if_neg hnotFirst, if_neg hnotSecond,
        String.toList_ofList, List.tail_cons, Hex.decode_encode, Option.getD_some]

theorem sha256_injective {bytes bytes' : List UInt8} (h : sha256 bytes = sha256 bytes') :
    bytes = bytes' := by
  rw [← hashed_sha256 bytes, h, hashed_sha256]

theorem apply_claims {registry : Option Value} {claims calls : List HelperCall} {s s' : Authority}
    {request : ManagedDeploymentRequest} {setupId : String} (hload : load registry = .ok s)
    (hauthorize : authorize platform s request 100 = .ok (.apply setupId, s'))
    (hsize : (authorityValue s').sizeBound ≤ maxState) :
    step platform ⟨registry, .idle, claims, calls⟩ (applies request) =
      ⟨some (authorityValue s'), .claimed s' ⟨setupId, request, 100⟩,
        ⟨setupId, request, 100⟩ :: claims, calls⟩ := by
  have hadmitted : admitted platform registry ⟨1024, .ok request⟩ (.ok 100) (.ok ()) =
      .ok (.apply setupId, s', request, 100) := by
    rw [admitted_eq platform hload, hauthorize]
    rfl
  simp only [step, applies, advance, hadmitted, writeClaim, save_fits hsize, if_true]

theorem apply_refused {registry : Option Value} {claims calls : List HelperCall} {s : Authority}
    {request : ManagedDeploymentRequest} {e : String} (hload : load registry = .ok s)
    (hauthorize : authorize platform s request 100 = .error e) :
    answer platform ⟨registry, .idle, claims, calls⟩ (applies request) = some (.error e) := by
  have hadmitted : admitted platform registry ⟨1024, .ok request⟩ (.ok 100) (.ok ()) = .error e := by
    rw [admitted_eq platform hload, hauthorize]
    rfl
  simp only [answer, applies, advance, hadmitted]

theorem bundle_facts :
    canonicalJsonBytes second.bundle.value ≠ canonicalJsonBytes first.bundle.value ∧
      (first.bundle.value.get "expires_at").bind Value.asI64 = some 3700 ∧
      (second.bundle.value.get "expires_at").bind Value.asI64 = some 3700 := by
  decide +kernel

theorem first_covers : Covers platform context first "s1" firstDigest where
  catalog := rfl
  signer := rfl
  verifies := by
    have hkey : recording.texts.lookup context.signingKeyB64 = some key := rfl
    have hsignature : recording.texts.lookup first.command.signature = some firstSignature := by
      decide
    exact recording.verifies hkey hsignature (by decide) List.mem_cons_self
  commandDevice := rfl
  org := by decide
  bundleDevice := by decide
  device := by decide
  bundleSetup := by decide
  setup := by decide
  deployment := ⟨"v1", by decide, by decide⟩
  bundleDigest := by
    simp only [canonicalJsonSha256, platform, sha256, if_true]
  sameDigest := by decide

theorem second_covers : Covers platform context second "s2" secondDigest where
  catalog := rfl
  signer := rfl
  verifies := by
    have hkey : recording.texts.lookup context.signingKeyB64 = some key := rfl
    have hsignature : recording.texts.lookup second.command.signature = some secondSignature := by
      decide
    exact recording.verifies hkey hsignature (by decide)
      (List.mem_cons_of_mem _ List.mem_cons_self)
  commandDevice := rfl
  org := by decide
  bundleDevice := by decide
  device := by decide
  bundleSetup := by decide
  setup := by decide
  deployment := ⟨"v2", by decide, by decide⟩
  bundleDigest := by
    simp only [canonicalJsonSha256, platform, sha256, if_neg bundle_facts.1, if_true]
  sameDigest := by decide

theorem pending_ne_null : (none : Option Value) ≠ some .null := by simp

theorem receipt_ne_null : some receipt.value ≠ some .null := by simp [receipt]

def pending (digest : String) : JournalEntry := ⟨digest, none, pending_ne_null⟩

def installed : JournalEntry := ⟨firstDigest, some receipt.value, receipt_ne_null⟩

/-- The state before the first job, while it runs and after it. -/
def boundState : Authority := ⟨some context, 0, ∅⟩

def firstClaimed : Authority := ⟨some context, 1, boundState.jobs.insert "s1" (pending firstDigest)⟩

def firstDone : Authority := ⟨some context, 1, firstClaimed.jobs.insert "s1" installed⟩

/-- The state while the second job runs. -/
def secondClaimed : Authority := ⟨some context, 2, firstDone.jobs.insert "s2" (pending secondDigest)⟩

/-- Each of the states fits into the registry. -/
theorem states_size : ((authorityValue boundState).sizeBound ≤ maxState ∧
      (authorityValue firstClaimed).sizeBound ≤ maxState) ∧
    (authorityValue firstDone).sizeBound ≤ maxState ∧
      (authorityValue secondClaimed).sizeBound ≤ maxState := by
  decide +kernel

theorem boundState_size : (authorityValue boundState).sizeBound ≤ maxState := states_size.1.1

theorem firstClaimed_size : (authorityValue firstClaimed).sizeBound ≤ maxState := states_size.1.2

theorem firstDone_size : (authorityValue firstDone).sizeBound ≤ maxState := states_size.2.1

theorem secondClaimed_size : (authorityValue secondClaimed).sizeBound ≤ maxState := states_size.2.2

theorem bind_recorded : step platform .start (.bind context (.ok ()) .done) =
    ⟨some (authorityValue boundState), .idle, [], []⟩ := by
  have hbound : bound platform none context (.ok ()) = .ok boundState := rfl
  simp only [step, advance, World.start, hbound, save_fits boundState_size]

theorem first_authorized :
    authorize platform boundState first 100 = .ok (.apply "s1", firstClaimed) := by
  have hvetted : vet platform boundState first = .ok ("s1", firstDigest) := by
    apply vet_of_covers rfl first_covers (by decide) rfl rfl (by decide) (by decide)
    intro deploymentId hdeployment
    rw [← Option.some.inj hdeployment]
    decide
  have hclaim : claim boundState first 100 "s1" firstDigest = .ok firstClaimed := by
    simp only [claim, bundle_facts.2.1]
    rfl
  exact authorize_new hvetted (by decide) hclaim

theorem first_completed :
    completed firstClaimed "s1" (.ok receipt) = .ok (receipt.value, firstDone) := rfl

theorem second_authorized :
    authorize platform firstDone second 100 = .ok (.apply "s2", secondClaimed) := by
  have hvetted : vet platform firstDone second = .ok ("s2", secondDigest) := by
    apply vet_of_covers rfl second_covers (by decide) rfl rfl (by decide) (by decide)
    intro deploymentId hdeployment
    rw [← Option.some.inj hdeployment]
    decide
  have hclaim : claim firstDone second 100 "s2" secondDigest = .ok secondClaimed := by
    simp only [claim, bundle_facts.2.2]
    rfl
  exact authorize_new hvetted (by decide) hclaim

theorem first_refused :
    vet platform secondClaimed first = .error "deployment_authority_invalid" := rfl

theorem receipt_recorded : secondClaimed.jobs.lookup "s1" = some installed := by
  rw [secondClaimed, AList.lookup_insert_ne (by decide), firstDone, AList.lookup_insert]

theorem boundState_shallow : Shallow boundState := by
  intro setupId entry hentry
  cases hentry

theorem firstDone_shallow : Shallow firstDone := by
  have hclaimed : Shallow firstClaimed :=
    boundState_shallow.insert "s1" (pending firstDigest) rfl fun result hresult => by
      cases hresult
  apply hclaimed.insert "s1" installed rfl
  intro result hresult
  rw [← Option.some.inj hresult]
  decide

theorem secondClaimed_shallow : Shallow secondClaimed :=
  firstDone_shallow.insert "s2" (pending secondDigest) rfl fun result hresult => by cases hresult

theorem first_job_done (registry : Option Value) (claims calls : List HelperCall) :
    Machine.run (step platform) ⟨registry, .claimed firstClaimed ⟨"s1", first, 100⟩, claims, calls⟩
        [.callHelper, .helperReplies (.ok receipt), .record (.ok ()) .done] =
      ⟨some (authorityValue firstDone), .idle, claims, ⟨"s1", first, 100⟩ :: calls⟩ := by
  simp only [Machine.run, List.foldl_cons, List.foldl_nil, step, advance, first_completed,
    save_fits firstDone_size]

/-- The second claim is written, and the crash keeps it. -/
theorem second_claimed : ∃ claims calls,
    Machine.run (step platform) .start acts =
      ⟨some (authorityValue secondClaimed), .idle, claims, calls⟩ := by
  have hbound : load (some (authorityValue boundState)) = .ok boundState :=
    load_fits boundState_size boundState_shallow
  have hdone : load (some (authorityValue firstDone)) = .ok firstDone :=
    load_fits firstDone_size firstDone_shallow
  have hfirst : Machine.run (step platform) .start (acts.take 2) =
      ⟨some (authorityValue firstClaimed), .claimed firstClaimed ⟨"s1", first, 100⟩,
        [⟨"s1", first, 100⟩], []⟩ := by
    rw [acts, List.take_succ_cons, List.take_succ_cons, List.take_zero, Machine.run,
      List.foldl_cons, List.foldl_cons, List.foldl_nil, bind_recorded,
      apply_claims hbound first_authorized firstClaimed_size]
  have hacts : acts = acts.take 2 ++ ([.callHelper, .helperReplies (.ok receipt),
      .record (.ok ()) .done] ++ [applies second, .crash]) := rfl
  rw [hacts, Machine.run_append, hfirst, Machine.run_append, first_job_done, Machine.run,
    List.foldl_cons, apply_claims hdone second_authorized secondClaimed_size]
  exact ⟨_, _, rfl⟩

end Recorded

section Examples

/-- After a job at a later epoch an apply of the first one is refused, though its receipt is recorded. -/
theorem older_epoch_gets_no_receipt :
    let w := Machine.run (step Recorded.platform) .start Recorded.acts
    (w.phase matches .idle) = true ∧
      ((load w.registry).toOption.bind fun s => (s.jobs.lookup "s1").bind (·.result)) =
        some Recorded.receipt.value ∧
      answer Recorded.platform w (Recorded.applies Recorded.first) =
        some (.error "deployment_authority_invalid") := by
  obtain ⟨claims, calls, hw⟩ := Recorded.second_claimed
  have hload : load (some (authorityValue Recorded.secondClaimed)) = .ok Recorded.secondClaimed :=
    load_fits Recorded.secondClaimed_size Recorded.secondClaimed_shallow
  have hrefused : authorize Recorded.platform Recorded.secondClaimed Recorded.first 100 =
      .error "deployment_authority_invalid" := by
    rw [authorize, Recorded.first_refused]
    rfl
  have hresult : ((load (some (authorityValue Recorded.secondClaimed))).toOption.bind fun s =>
      (s.jobs.lookup "s1").bind (·.result)) = some Recorded.receipt.value := by
    rw [hload]
    exact congrArg (·.bind (·.result)) Recorded.receipt_recorded
  rw [hw]
  exact And.intro rfl (And.intro hresult (Recorded.apply_refused hload hrefused))

/-- A run with two jobs. -/
theorem two_jobs_run_once :
    ∃ s t, RunsOnce Recorded.platform
        (Machine.run (step Recorded.platform) .start Recorded.acts) s ∧
      RunsOnce Recorded.platform (Machine.run (step Recorded.platform) .start
        (Recorded.acts ++ [Recorded.applies Recorded.second])) t ∧ Later s t ∧
      Replays Recorded.platform (Machine.run (step Recorded.platform) .start
        (Recorded.acts ++ [Recorded.applies Recorded.second])) t :=
  jobs_run_once (fun _ _ => Recorded.sha256_injective) Recorded.acts
    [Recorded.applies Recorded.second]

end Examples
end ManagedDeployment
