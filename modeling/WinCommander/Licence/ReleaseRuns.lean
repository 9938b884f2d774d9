import WinCommander.Licence.Release
import WinCommander.Library.Run

/-!
# Concurrent device releases

Any number of release requests run against one anchor.  Each locked operation is one step, a reply
of the server is one step, and a call may stop anywhere, as it does when the service ends.
-/

namespace DeviceRelease

open Outcome Machine

variable {custody : Custody}

section Calls

/-- Where a call stands between two locked operations. -/
inductive Phase where
  | idle
  | beginning
  | offering (request : List UInt8)
  | sending (request : List UInt8)
  | awaiting (request : List UInt8)
  | confirming (request response : List UInt8)
  | resuming
  | preparing (request : List UInt8)
  | acknowledging (request acknowledgement : List UInt8)
  | awaitingAck (request acknowledgement : List UInt8)
  | recording (request : List UInt8) (confirmation : Fixed)

/-- The anchor, the calls, and the acknowledgements that the server has confirmed. -/
structure Service where
  stored : Option (List UInt8)
  calls : ℕ → Phase
  confirmed : List (List UInt8)

inductive Action where
  | load (i : ℕ) (ctx : Context) (readable : Bool)
  | begin (i : ℕ) (ctx : Context) (challenge : List UInt8) (now : UInt64)
  | stage (i : ℕ) (ctx : Context) (io : Io)
  | send (i : ℕ)
  | respond (i : ℕ) (response : List UInt8)
  | confirm (i : ℕ) (ctx : Context) (io : Io)
  | resume (i : ℕ) (ctx : Context) (readable : Bool)
  | prepare (i : ℕ) (ctx : Context) (readable : Bool)
  | sendAck (i : ℕ)
  | respondAck (i : ℕ) (response : List UInt8)
  | record (i : ℕ) (ctx : Context) (io : Io)
  | stop (i : ℕ)

inductive Message where
  | release (body : List UInt8)
  | acknowledgement (body : List UInt8)

def Service.set (s : Service) (i : ℕ) (phase : Phase) : Service :=
  { s with calls := Function.update s.calls i phase }

/-- A body that is put on the wire. -/
def sendable (body : List UInt8) : Bool := !(body = [] || 32 * 1024 < body.length)

variable (custody)

/-- What a call does after its first load. -/
def loaded : Except Fault (Option SavedRelease) → Phase
  | .ok none => .beginning
  | .ok (some saved) => if saved.confirmed then .resuming else .sending saved.request
  | .error _ => .idle

/-- What a call does after the load before its acknowledgement. -/
def resumed : Except Fault (Option SavedRelease) → Phase
  | .ok (some saved) =>
    if saved.confirmed = false then .idle
    else if saved.acknowledged then .idle
    else .preparing saved.request
  | _ => .idle

/-- A failure ends a call. -/
def continued {α : Type} (next : α → Phase) : Except Fault α → Phase
  | .ok a => next a
  | .error _ => .idle

@[grind =] def step (s : Service) : Action → Service
  | .load i ctx readable =>
    match s.calls i with
    | .idle => s.set i (loaded (loadLocked custody ctx readable s.stored))
    | _ => s
  | .begin i ctx challenge now =>
    match s.calls i with
    | .beginning =>
      s.set i (continued .offering (releaseRequest custody ctx.credential ctx.body challenge now))
    | _ => s
  | .stage i ctx io =>
    match s.calls i with
    | .offering request =>
      let saved := saveLocked custody ctx io s.stored request
      { s with stored := saved.2 }.set i (continued .sending saved.1)
    | _ => s
  | .send i =>
    match s.calls i with
    | .sending request => s.set i (if sendable request then .awaiting request else .idle)
    | _ => s
  | .respond i response =>
    match s.calls i with
    | .awaiting request =>
      s.set i (continued (fun _ => .confirming request response) (confirmedRelease custody response))
    | _ => s
  | .confirm i ctx io =>
    match s.calls i with
    | .confirming request response =>
      let saved := confirmLocked custody ctx io s.stored request response
      { s with stored := saved.2 }.set i (continued (fun _ => .resuming) saved.1)
    | _ => s
  | .resume i ctx readable =>
    match s.calls i with
    | .resuming => s.set i (resumed (loadLocked custody ctx readable s.stored))
    | _ => s
  | .prepare i ctx readable =>
    match s.calls i with
    | .preparing request =>
      s.set i (continued (.acknowledging request) (prepareAckLocked custody ctx readable s.stored))
    | _ => s
  | .sendAck i =>
    match s.calls i with
    | .acknowledging request acknowledgement =>
      s.set i (if sendable acknowledgement then .awaitingAck request acknowledgement else .idle)
    | _ => s
  | .respondAck i response =>
    match s.calls i with
    | .awaitingAck request acknowledgement =>
      match confirmedRelease custody response with
      | .ok () =>
        { s with confirmed := acknowledgement :: s.confirmed }.set i
          (.recording request (custody.digest acknowledgement))
      | .error _ => s.set i .idle
    | _ => s
  | .record i ctx io =>
    match s.calls i with
    | .recording request confirmation =>
      { s with stored := (acknowledgeLocked custody ctx io s.stored request confirmation).2 }.set i
        .idle
    | _ => s
  | .stop i => s.set i .idle

/-- What a step puts on the wire. -/
def sent (s : Service) : Action → List Message
  | .send i =>
    match s.calls i with
    | .sending request => if sendable request then [.release request] else []
    | _ => []
  | .sendAck i =>
    match s.calls i with
    | .acknowledging _ acknowledgement =>
      if sendable acknowledgement then [.acknowledgement acknowledgement] else []
    | _ => []
  | _ => []

/-- The acknowledgement that a step generates. -/
def generated (s : Service) : Action → Option (List UInt8)
  | .prepare i ctx readable =>
    match s.calls i with
    | .preparing _ => (prepareAckLocked custody ctx readable s.stored).toOption
    | _ => none
  | _ => none

end Calls

section Contract

/-- The phases in their order. -/
def SavedRelease.rank (saved : SavedRelease) : ℕ :=
  if saved.acknowledged then 2 else if saved.confirmed then 1 else 0

/-- What stands stays, with the same request, in the same phase or a later one. -/
def Onward (custody : Custody) (stored stored' : Option (List UInt8)) : Prop :=
  ∀ saved, Stands custody stored saved →
    ∃ saved', Stands custody stored' saved' ∧ saved'.request = saved.request ∧
      saved.rank ≤ saved'.rank

/-- The acknowledgement of a request under some credential. -/
def AcknowledgementOf (custody : Custody) (request acknowledgement : List UInt8) : Prop :=
  ∃ ctx : Context, releaseAcknowledgementRequest custody ctx.credential ctx.body request =
    .ok acknowledgement

/-- How the anchor may change in a step: a request is staged where nothing stood, a staged request
is confirmed, or a confirmed one is acknowledged after its acknowledgement was confirmed. -/
def Advance (custody : Custody) (s s' : Service) : Prop :=
  s'.stored = s.stored ∨
    (s.stored = none ∧ ∃ request, Stands custody s'.stored ⟨request, false, false⟩) ∨
    (∃ saved, Stands custody s.stored saved ∧ saved.confirmed = false ∧
      Stands custody s'.stored ⟨saved.request, true, false⟩) ∨
    (∃ saved, Stands custody s.stored saved ∧ saved.confirmed = true ∧ saved.acknowledged = false ∧
      Stands custody s'.stored ⟨saved.request, true, true⟩ ∧
      ∃ acknowledgement ∈ s.confirmed, AcknowledgementOf custody saved.request acknowledgement)

/-- What holds of every step of the protocol. -/
structure Disciplined (custody : Custody) (s : Service) (a : Action) : Prop where
  advance : Advance custody s (step custody s a)
  releases : ∀ body, Message.release body ∈ sent s a →
    ∃ saved, Stands custody s.stored saved ∧ saved.request = body
  acknowledgements : ∀ body, Message.acknowledgement body ∈ sent s a →
    ∃ saved, Stands custody s.stored saved ∧ saved.confirmed = true ∧
      AcknowledgementOf custody saved.request body
  generation : ∀ body, generated custody s a = some body →
    ∃ saved, Stands custody s.stored saved ∧ saved.confirmed = true ∧
      AcknowledgementOf custody saved.request body

/-- What a call carries agrees with the anchor. -/
def Backed (custody : Custody) (s : Service) : Phase → Prop
  | .sending request => ∃ saved, Stands custody s.stored saved ∧ saved.request = request
  | .acknowledging _ acknowledgement =>
    ∃ saved, Stands custody s.stored saved ∧ saved.confirmed = true ∧
      AcknowledgementOf custody saved.request acknowledgement
  | .recording _ confirmation =>
    ∃ acknowledgement ∈ s.confirmed, confirmation = custody.digest acknowledgement
  | _ => True

def Sound (custody : Custody) (s : Service) : Prop := ∀ i, Backed custody s (s.calls i)

theorem Onward.refl (stored : Option (List UInt8)) : Onward custody stored stored :=
  fun saved h => ⟨saved, h, rfl, le_refl _⟩

theorem Onward.trans {a b c : Option (List UInt8)} (hab : Onward custody a b)
    (hbc : Onward custody b c) : Onward custody a c := by
  intro saved h
  obtain ⟨saved', h', hrequest, hrank⟩ := hab saved h
  obtain ⟨saved'', h'', hrequest', hrank'⟩ := hbc saved' h'
  exact ⟨saved'', h'', hrequest'.trans hrequest, hrank.trans hrank'⟩

/-- A record never has an acknowledged phase without a confirmed one. -/
theorem openRecord_confirmed {ctx : Context} {bytes : List UInt8} {saved : SavedRelease}
    (h : openRecord custody ctx bytes = .ok saved) (hack : saved.acknowledged = true) :
    saved.confirmed = true := by
  obtain ⟨_, record, sealed, entropy, plaintext, _, _, _, _, _, _, _, hsaved, _⟩ := openRecord_ok.mp h
  unfold openPlaintext at hsaved
  split at hsaved
  · rw [Except.ok.injEq] at hsaved
    subst hsaved
    exact absurd hack (by simp)
  · simp only [openConfirmed, bind_ok, okOr_ok, refuseIf_ok, pure_ok] at hsaved
    obtain ⟨_, _, _, _, _, _, rfl⟩ := hsaved
    rfl

theorem Advance.onward {s s' : Service} (h : Advance custody s s') :
    Onward custody s.stored s'.stored := by
  rcases h with hsame | ⟨hnone, _⟩ | ⟨saved, hsaved, hconfirmed, hstored⟩ |
    ⟨saved, hsaved, hconfirmed, hack, hstored, _⟩
  · rw [hsame]
    exact Onward.refl _
  · rintro saved ⟨ctx, bytes, hbytes, _⟩
    rw [hnone] at hbytes
    exact absurd hbytes (by simp)
  · intro saved' hsaved'
    have hunique := hsaved.unique hsaved'
    subst hunique
    refine ⟨_, hstored, rfl, ?_⟩
    obtain ⟨ctx, bytes, _, hopen⟩ := hsaved
    have hack : saved.acknowledged = false := by
      by_contra hack
      rw [Bool.not_eq_false] at hack
      have := openRecord_confirmed hopen hack
      rw [this] at hconfirmed
      exact absurd hconfirmed (by simp)
    simp [SavedRelease.rank, hack, hconfirmed]
  · intro saved' hsaved'
    have hunique := hsaved.unique hsaved'
    subst hunique
    exact ⟨_, hstored, rfl, by simp [SavedRelease.rank, hconfirmed, hack]⟩

theorem Onward.confirmed {stored stored' : Option (List UInt8)} (h : Onward custody stored stored')
    {saved : SavedRelease} (hsaved : Stands custody stored saved) (hconfirmed : saved.confirmed = true) :
    ∃ saved', Stands custody stored' saved' ∧ saved'.request = saved.request ∧
      saved'.confirmed = true := by
  obtain ⟨saved', hsaved', hrequest, hrank⟩ := h saved hsaved
  refine ⟨saved', hsaved', hrequest, ?_⟩
  obtain ⟨ctx, bytes, _, hopen⟩ := hsaved'
  by_contra hnot
  rw [Bool.not_eq_true] at hnot
  have hack : saved'.acknowledged = false := by
    by_contra hack
    rw [Bool.not_eq_false] at hack
    have := openRecord_confirmed hopen hack
    rw [this] at hnot
    exact absurd hnot (by simp)
  have hzero : saved'.rank = 0 := by simp [SavedRelease.rank, hnot, hack]
  have hpositive : 1 ≤ saved.rank := by
    unfold SavedRelease.rank
    by_cases h : saved.acknowledged = true <;> simp [h, hconfirmed]
  omega

/-- What a call carries stays backed while the anchor goes onward. -/
theorem Backed.onward {s s' : Service} {phase : Phase} (h : Backed custody s phase)
    (honward : Onward custody s.stored s'.stored) (hconfirmed : s.confirmed ⊆ s'.confirmed) :
    Backed custody s' phase := by
  cases phase with
  | sending request =>
    obtain ⟨saved, hsaved, rfl⟩ := h
    obtain ⟨saved', hsaved', hrequest, _⟩ := honward saved hsaved
    exact ⟨saved', hsaved', hrequest⟩
  | acknowledging request acknowledgement =>
    obtain ⟨saved, hsaved, hc, hack⟩ := h
    obtain ⟨saved', hsaved', hrequest, hc'⟩ := honward.confirmed hsaved hc
    exact ⟨saved', hsaved', hc', hrequest ▸ hack⟩
  | recording request confirmation =>
    obtain ⟨acknowledgement, hmem, hdigest⟩ := h
    exact ⟨acknowledgement, hconfirmed hmem, hdigest⟩
  | _ => exact trivial

/-- One call moves; the others keep their phase. -/
theorem Sound.set {s s' : Service} (h : Sound custody s) (i : ℕ) (phase : Phase)
    (hcalls : s'.calls = s.calls) (honward : Onward custody s.stored s'.stored)
    (hconfirmed : s.confirmed ⊆ s'.confirmed) (hphase : Backed custody s' phase) :
    Sound custody (s'.set i phase) := by
  intro j
  have hset : Backed custody (s'.set i phase) = Backed custody s' := by
    funext phase'
    cases phase' <;> rfl
  rw [hset]
  by_cases hj : j = i
  · subst hj
    simpa [Service.set] using hphase
  · have hsame : (s'.set i phase).calls j = s.calls j := by
      simp [Service.set, hj, hcalls]
    rw [hsame]
    exact (h j).onward honward hconfirmed

end Contract

section Steps

/-- A step that puts nothing on the wire and generates nothing. -/
theorem Disciplined.quiet {s : Service} {a : Action} (hadvance : Advance custody s (step custody s a))
    (hsent : sent s a = []) (hgenerated : generated custody s a = none) :
    Disciplined custody s a := by
  constructor
  · exact hadvance
  · intro body hbody
    rw [hsent] at hbody
    exact absurd hbody List.not_mem_nil
  · intro body hbody
    rw [hsent] at hbody
    exact absurd hbody List.not_mem_nil
  · intro body hbody
    rw [hgenerated] at hbody
    exact absurd hbody (by simp)

/-- A step that only moves its call. -/
theorem Sound.moves {s : Service} {a : Action} {i : ℕ} {phase : Phase} (h : Sound custody s)
    (hstep : step custody s a = s.set i phase) (hphase : Backed custody s phase)
    (hsent : sent s a = []) (hgenerated : generated custody s a = none) :
    Disciplined custody s a ∧ Sound custody (step custody s a) := by
  have hadvance : Advance custody s (step custody s a) := by
    rw [hstep]
    exact Or.inl rfl
  refine ⟨Disciplined.quiet hadvance hsent hgenerated, ?_⟩
  rw [hstep]
  exact h.set i phase rfl (Onward.refl _) (List.Subset.refl _) hphase

/-- An action that is not the next one of its call does nothing. -/
theorem Sound.stays {s : Service} {a : Action} (h : Sound custody s) (hstep : step custody s a = s)
    (hsent : sent s a = []) (hgenerated : generated custody s a = none) :
    Disciplined custody s a ∧ Sound custody (step custody s a) := by
  have hadvance : Advance custody s (step custody s a) := by
    rw [hstep]
    exact Or.inl rfl
  refine ⟨Disciplined.quiet hadvance hsent hgenerated, ?_⟩
  rw [hstep]
  exact h

/-- A step that writes the anchor and moves its call. -/
theorem Sound.writes {s : Service} {a : Action} {i : ℕ} {stored : Option (List UInt8)} {phase : Phase}
    (h : Sound custody s) (hstep : step custody s a = { s with stored := stored }.set i phase)
    (hadvance : Advance custody s { s with stored := stored })
    (hphase : Backed custody { s with stored := stored } phase)
    (hsent : sent s a = []) (hgenerated : generated custody s a = none) :
    Disciplined custody s a ∧ Sound custody (step custody s a) := by
  have hstored : Advance custody s (step custody s a) := by
    rw [hstep]
    exact hadvance
  refine ⟨Disciplined.quiet hstored hsent hgenerated, ?_⟩
  rw [hstep]
  exact h.set i phase rfl hadvance.onward (List.Subset.refl _) hphase

theorem Backed.continued {s : Service} {α : Type} {next : α → Phase} {result : Except Fault α}
    (h : ∀ a, result = .ok a → Backed custody s (next a)) :
    Backed custody s (continued next result) := by
  cases result with
  | ok a => exact h a rfl
  | error e => trivial

theorem load_sound {s : Service} (h : Sound custody s) (i : ℕ) (ctx : Context) (readable : Bool) :
    Disciplined custody s (.load i ctx readable) ∧
      Sound custody (step custody s (.load i ctx readable)) := by
  cases hcall : s.calls i with
  | idle =>
    refine h.moves (by simp only [step, hcall]; rfl) ?_ rfl rfl
    cases hload : loadLocked custody ctx readable s.stored with
    | error e => trivial
    | ok found =>
      cases found with
      | none => trivial
      | some saved =>
        cases hconfirmed : saved.confirmed with
        | true => simp [loaded, hconfirmed, Backed]
        | false =>
          simp only [loaded, hconfirmed, Bool.false_eq_true, if_false]
          exact ⟨saved, loadLocked_some hload, rfl⟩
  | _ => exact h.stays (by simp only [step, hcall]) rfl rfl

theorem begin_sound {s : Service} (h : Sound custody s) (i : ℕ) (ctx : Context)
    (challenge : List UInt8) (now : UInt64) :
    Disciplined custody s (.begin i ctx challenge now) ∧
      Sound custody (step custody s (.begin i ctx challenge now)) := by
  cases hcall : s.calls i with
  | beginning =>
    refine h.moves (by simp only [step, hcall]; rfl) ?_ rfl rfl
    exact Backed.continued fun _ _ => trivial
  | _ => exact h.stays (by simp only [step, hcall]) rfl rfl

theorem stage_sound {s : Service} (h : Sound custody s) (i : ℕ) (ctx : Context) (io : Io) :
    Disciplined custody s (.stage i ctx io) ∧ Sound custody (step custody s (.stage i ctx io)) := by
  cases hcall : s.calls i with
  | offering request =>
    have hspec := @saveLocked_spec custody ctx io s.stored request
    refine h.writes (by simp only [step, hcall]; rfl) ?_ ?_ rfl rfl
    · rcases hspec.1 with hkept | ⟨hnone, hstored⟩
      · exact Or.inl hkept
      · exact Or.inr (Or.inl ⟨hnone, request, hstored⟩)
    · exact Backed.continued hspec.2
  | _ => exact h.stays (by simp only [step, hcall]) rfl rfl

theorem send_sound {s : Service} (h : Sound custody s) (i : ℕ) :
    Disciplined custody s (.send i) ∧ Sound custody (step custody s (.send i)) := by
  cases hcall : s.calls i with
  | sending request =>
    have hback : Backed custody s (.sending request) := by
      rw [← hcall]
      exact h i
    have hstep : step custody s (.send i) =
        s.set i (if sendable request then .awaiting request else .idle) := by
      simp only [step, hcall]
    have hsent : sent s (.send i) = if sendable request then [.release request] else [] := by
      simp only [sent, hcall]
    constructor
    · constructor
      · rw [hstep]
        exact Or.inl rfl
      · intro body hbody
        rw [hsent] at hbody
        by_cases hsendable : sendable request
        · rw [if_pos hsendable, List.mem_singleton, Message.release.injEq] at hbody
          rw [hbody]
          exact hback
        · rw [if_neg hsendable] at hbody
          exact absurd hbody List.not_mem_nil
      · intro body hbody
        rw [hsent] at hbody
        by_cases hsendable : sendable request
        · simp [hsendable] at hbody
        · simp [hsendable] at hbody
      · intro body hbody
        exact absurd hbody (by simp [generated])
    · rw [hstep]
      refine h.set i _ rfl (Onward.refl _) (List.Subset.refl _) ?_
      by_cases hsendable : sendable request <;> simp [hsendable, Backed]
  | _ => exact h.stays (by simp only [step, hcall]) (by simp only [sent, hcall]) rfl

theorem respond_sound {s : Service} (h : Sound custody s) (i : ℕ) (response : List UInt8) :
    Disciplined custody s (.respond i response) ∧
      Sound custody (step custody s (.respond i response)) := by
  cases hcall : s.calls i with
  | awaiting request =>
    refine h.moves (by simp only [step, hcall]; rfl) ?_ rfl rfl
    exact Backed.continued fun _ _ => trivial
  | _ => exact h.stays (by simp only [step, hcall]) rfl rfl

theorem confirm_sound {s : Service} (h : Sound custody s) (i : ℕ) (ctx : Context) (io : Io) :
    Disciplined custody s (.confirm i ctx io) ∧
      Sound custody (step custody s (.confirm i ctx io)) := by
  cases hcall : s.calls i with
  | confirming request response =>
    refine h.writes (by simp only [step, hcall]; rfl) ?_ ?_ rfl rfl
    · rcases @confirmLocked_spec custody ctx io s.stored request response with hkept | hconfirmed
      · exact Or.inl hkept
      · exact Or.inr (Or.inr (Or.inl hconfirmed))
    · exact Backed.continued fun _ _ => trivial
  | _ => exact h.stays (by simp only [step, hcall]) rfl rfl

theorem resume_sound {s : Service} (h : Sound custody s) (i : ℕ) (ctx : Context) (readable : Bool) :
    Disciplined custody s (.resume i ctx readable) ∧
      Sound custody (step custody s (.resume i ctx readable)) := by
  cases hcall : s.calls i with
  | resuming =>
    refine h.moves (by simp only [step, hcall]; rfl) ?_ rfl rfl
    cases loadLocked custody ctx readable s.stored with
    | error e => trivial
    | ok found =>
      cases found with
      | none => trivial
      | some saved =>
        cases hconfirmed : saved.confirmed with
        | false => simp [resumed, hconfirmed, Backed]
        | true => cases hack : saved.acknowledged <;> simp [resumed, hconfirmed, hack, Backed]
  | _ => exact h.stays (by simp only [step, hcall]) rfl rfl

theorem prepare_sound {s : Service} (h : Sound custody s) (i : ℕ) (ctx : Context) (readable : Bool) :
    Disciplined custody s (.prepare i ctx readable) ∧
      Sound custody (step custody s (.prepare i ctx readable)) := by
  cases hcall : s.calls i with
  | preparing request =>
    have hstep : step custody s (.prepare i ctx readable) =
        s.set i (continued (.acknowledging request) (prepareAckLocked custody ctx readable s.stored)) := by
      simp only [step, hcall]
    have hprepared : ∀ body, prepareAckLocked custody ctx readable s.stored = .ok body →
        Backed custody s (.acknowledging request body) := by
      intro body hbody
      obtain ⟨saved, hsaved, hconfirmed, hack⟩ := prepareAckLocked_spec hbody
      exact ⟨saved, hsaved, hconfirmed, ctx, hack⟩
    constructor
    · constructor
      · rw [hstep]
        exact Or.inl rfl
      · intro body hbody
        exact absurd hbody List.not_mem_nil
      · intro body hbody
        exact absurd hbody List.not_mem_nil
      · intro body hbody
        simp only [generated, hcall] at hbody
        cases hresult : prepareAckLocked custody ctx readable s.stored with
        | error e => simp [hresult, Except.toOption] at hbody
        | ok body' =>
          rw [hresult, Except.toOption, Option.some.injEq] at hbody
          rw [← hbody]
          exact hprepared body' hresult
    · rw [hstep]
      exact h.set i _ rfl (Onward.refl _) (List.Subset.refl _) (Backed.continued hprepared)
  | _ => exact h.stays (by simp only [step, hcall]) rfl (by simp only [generated, hcall])

theorem sendAck_sound {s : Service} (h : Sound custody s) (i : ℕ) :
    Disciplined custody s (.sendAck i) ∧ Sound custody (step custody s (.sendAck i)) := by
  cases hcall : s.calls i with
  | acknowledging request acknowledgement =>
    have hback : Backed custody s (.acknowledging request acknowledgement) := by
      rw [← hcall]
      exact h i
    have hstep : step custody s (.sendAck i) =
        s.set i (if sendable acknowledgement then .awaitingAck request acknowledgement else .idle) := by
      simp only [step, hcall]
    have hsent : sent s (.sendAck i) =
        if sendable acknowledgement then [.acknowledgement acknowledgement] else [] := by
      simp only [sent, hcall]
    constructor
    · constructor
      · rw [hstep]
        exact Or.inl rfl
      · intro body hbody
        rw [hsent] at hbody
        by_cases hsendable : sendable acknowledgement
        · simp [hsendable] at hbody
        · simp [hsendable] at hbody
      · intro body hbody
        rw [hsent] at hbody
        by_cases hsendable : sendable acknowledgement
        · rw [if_pos hsendable, List.mem_singleton, Message.acknowledgement.injEq] at hbody
          rw [hbody]
          exact hback
        · rw [if_neg hsendable] at hbody
          exact absurd hbody List.not_mem_nil
      · intro body hbody
        exact absurd hbody (by simp [generated])
    · rw [hstep]
      refine h.set i _ rfl (Onward.refl _) (List.Subset.refl _) ?_
      by_cases hsendable : sendable acknowledgement <;> simp [hsendable, Backed]
  | _ => exact h.stays (by simp only [step, hcall]) (by simp only [sent, hcall]) rfl

theorem respondAck_sound {s : Service} (h : Sound custody s) (i : ℕ) (response : List UInt8) :
    Disciplined custody s (.respondAck i response) ∧
      Sound custody (step custody s (.respondAck i response)) := by
  cases hcall : s.calls i with
  | awaitingAck request acknowledgement =>
    cases hresponse : confirmedRelease custody response with
    | error e =>
      have hidle : Backed custody s .idle := trivial
      exact h.moves (by simp only [step, hcall, hresponse]; rfl) hidle rfl rfl
    | ok u =>
      have hstep : step custody s (.respondAck i response) =
          { s with confirmed := acknowledgement :: s.confirmed }.set i
            (.recording request (custody.digest acknowledgement)) := by
        simp only [step, hcall, hresponse]
      have hadvance : Advance custody s (step custody s (.respondAck i response)) := by
        rw [hstep]
        exact Or.inl rfl
      refine ⟨Disciplined.quiet hadvance rfl rfl, ?_⟩
      rw [hstep]
      exact h.set i _ rfl (Onward.refl _) (List.subset_cons_self _ _)
        ⟨acknowledgement, List.mem_cons_self, rfl⟩
  | _ => exact h.stays (by simp only [step, hcall]) rfl rfl

theorem record_sound {s : Service} (h : Sound custody s) (i : ℕ) (ctx : Context) (io : Io) :
    Disciplined custody s (.record i ctx io) ∧ Sound custody (step custody s (.record i ctx io)) := by
  cases hcall : s.calls i with
  | recording request confirmation =>
    have hback : Backed custody s (.recording request confirmation) := by
      rw [← hcall]
      exact h i
    obtain ⟨sentAck, hmem, hconfirmation⟩ := hback
    refine h.writes (by simp only [step, hcall]; rfl) ?_ (show Backed custody _ .idle from trivial) rfl rfl
    rcases @acknowledgeLocked_spec custody ctx io s.stored request confirmation with
      hkept | ⟨saved, acknowledgement, hsaved, hconfirmed, hack, hbody, hdigest, hstored⟩
    · exact Or.inl hkept
    · have hsame : sentAck = acknowledgement := by
        apply custody.digest_injective
        rw [← hconfirmation, hdigest]
      subst hsame
      exact Or.inr (Or.inr (Or.inr ⟨saved, hsaved, hconfirmed, hack, hstored, sentAck, hmem, ctx, hbody⟩))
  | _ => exact h.stays (by simp only [step, hcall]) rfl rfl

/-- Every step is disciplined and keeps the calls backed. -/
theorem step_sound {s : Service} (h : Sound custody s) (a : Action) :
    Disciplined custody s a ∧ Sound custody (step custody s a) := by
  cases a with
  | load i ctx readable => exact load_sound h i ctx readable
  | begin i ctx challenge now => exact begin_sound h i ctx challenge now
  | stage i ctx io => exact stage_sound h i ctx io
  | send i => exact send_sound h i
  | respond i response => exact respond_sound h i response
  | confirm i ctx io => exact confirm_sound h i ctx io
  | resume i ctx readable => exact resume_sound h i ctx readable
  | prepare i ctx readable => exact prepare_sound h i ctx readable
  | sendAck i => exact sendAck_sound h i
  | respondAck i response => exact respondAck_sound h i response
  | record i ctx io => exact record_sound h i ctx io
  | stop i => exact h.moves rfl trivial rfl rfl

end Steps

end DeviceRelease
