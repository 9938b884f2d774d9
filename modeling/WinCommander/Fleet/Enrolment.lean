import Mathlib
import WinCommander.Fleet.Cycle
import WinCommander.Library.Run

/-!
# Enrolments in flight

An enrolment looks at the state, asks the server under an identity of its own making and changes the
state when the reply arrives.  Between the two others may do the same.
-/

namespace FleetAgent

open FleetProto Outcome

variable {Key : Type} (platform : Platform Key)

section Calls

/-- The server's secret for this device, if it decodes. -/
def receivedSecret (resp : EnrollResponse) : Option (List UInt8) :=
  (resp.checkinSecretB64.map platform.crypto.b64Decode).bind Except.toOption

/-- What a reply makes of the state that it finds. -/
def applyReply (s : FleetClientState) (resp : EnrollResponse) :
    Except String (String × FleetClientState) := do
  refuseUndecodable platform resp.commandPubkeyB64
  refuseUndecodable platform resp.serverSigningKeyB64
  refuseChangedPin s.pinnedPubkeyB64 resp.commandPubkeyB64
    "fleet server returned a different operator command_pubkey on re-enroll — REFUSING"
  refuseChangedPin s.pinnedServerKeyB64 resp.serverSigningKeyB64
    "fleet server returned a different server signing key on re-enroll — REFUSING"
  return (resp.deviceId, { s with
    deviceId := some resp.deviceId
    pinnedPubkeyB64 := s.pinnedPubkeyB64.or resp.commandPubkeyB64
    pinnedServerKeyB64 := s.pinnedServerKeyB64.or resp.serverSigningKeyB64
    checkinSecret := (receivedSecret platform resp).or s.checkinSecret })

/-- An enrolment that nobody comes between is one of a check-in cycle. -/
theorem enroll_eq (s : FleetClientState) (reply : Except String EnrollResponse) :
    enroll platform s reply =
      match s.deviceId with
      | some id => .ok (id, s)
      | none => reply >>= applyReply platform s := rfl

/-- An enrolment: not begun, waiting for the reply to a request for an identity, or returned. -/
inductive EnrollCall where
  | idle
  | awaiting (deviceId : String)
  | returned (result : Except String String)

/-- The identity of the request whose reply each part of the state comes from. -/
structure Origins where
  deviceId : Option String
  operatorKey : Option String
  serverKey : Option String
  checkinSecret : Option String

structure Enrolments where
  state : FleetClientState
  calls : ℕ → EnrollCall
  origins : Origins

def Enrolments.start : Enrolments where
  state := ⟨none, none, none, none, fun _ => none, 0, none⟩
  calls := fun _ => .idle
  origins := ⟨none, none, none, none⟩

inductive EnrollStep where
  /-- A call finds no identity and mints one, or returns the one that is there. -/
  | begin (call : ℕ) (minted : String)
  /-- The network answers a call that waits. -/
  | answer (call : ℕ) (reply : Except String EnrollResponse)

def Origins.record (requested : String) (s : FleetClientState) (resp : EnrollResponse)
    (origins : Origins) : Origins where
  deviceId := some requested
  operatorKey :=
    if s.pinnedPubkeyB64 = none ∧ resp.commandPubkeyB64 ≠ none then some requested
    else origins.operatorKey
  serverKey :=
    if s.pinnedServerKeyB64 = none ∧ resp.serverSigningKeyB64 ≠ none then some requested
    else origins.serverKey
  checkinSecret :=
    if receivedSecret platform resp ≠ none then some requested else origins.checkinSecret

def Enrolments.return (w : Enrolments) (call : ℕ) (result : Except String String) : Enrolments :=
  { w with calls := Function.update w.calls call (.returned result) }

def enrollStep (w : Enrolments) : EnrollStep → Enrolments
  | .begin call minted =>
      match w.calls call, w.state.deviceId with
      | .awaiting _, _ => w
      | _, some id => w.return call (.ok id)
      | _, none => { w with calls := Function.update w.calls call (.awaiting minted) }
  | .answer call reply =>
      match w.calls call with
      | .awaiting requested =>
          match reply with
          | .error e => w.return call (.error e)
          | .ok resp =>
              match applyReply platform w.state resp with
              | .error e => w.return call (.error e)
              | .ok (id, state) =>
                  { w with
                    state := state
                    origins := w.origins.record platform requested w.state resp }.return call (.ok id)
      | _ => w

end Calls

section Identity

/-- The identity, both keys and the secret come from replies to requests for that identity. -/
structure OfOneIdentity (w : Enrolments) : Prop where
  deviceId : w.state.deviceId = w.origins.deviceId
  operatorKey : w.state.pinnedPubkeyB64 ≠ none →
    w.origins.operatorKey = w.state.deviceId ∧ w.state.deviceId ≠ none
  serverKey : w.state.pinnedServerKeyB64 ≠ none →
    w.origins.serverKey = w.state.deviceId ∧ w.state.deviceId ≠ none
  checkinSecret : w.state.checkinSecret ≠ none →
    w.origins.checkinSecret = w.state.deviceId ∧ w.state.deviceId ≠ none

/-- What a step keeps of the state. -/
structure Keeps (s t : FleetClientState) : Prop where
  deviceId : ∀ id, s.deviceId = some id → t.deviceId = some id
  operatorKey : ∀ key, s.pinnedPubkeyB64 = some key → t.pinnedPubkeyB64 = some key
  serverKey : ∀ key, s.pinnedServerKeyB64 = some key → t.pinnedServerKeyB64 = some key

/-- The call that a step is about. -/
def EnrollStep.call : EnrollStep → ℕ
  | .begin call _ | .answer call _ => call

/-- A step keeps the identity and the pins, leaves everything if its call fails, and leaves a state of
one identity. -/
structure Enrols (w : Enrolments) (a : EnrollStep) : Prop where
  keeps : Keeps w.state (enrollStep platform w a).state
  failed : ∀ e, (enrollStep platform w a).calls a.call = .returned (.error e) →
    (enrollStep platform w a).state = w.state
  identity : OfOneIdentity (enrollStep platform w a)

/-- A reply that is accepted is for the identity that was asked for, and no other was stored since. -/
def AnsweredAsAsked (w : Enrolments) : EnrollStep → Prop
  | .begin _ _ => True
  | .answer call reply => ∀ requested resp result, w.calls call = .awaiting requested →
      reply = .ok resp → applyReply platform w.state resp = .ok result →
      resp.deviceId = requested ∧
        (w.state.deviceId = none ∨ w.state.deviceId = some requested)

variable {platform} {w : Enrolments} {a : EnrollStep}

theorem applyReply_ok {s t : FleetClientState} {resp : EnrollResponse} {id : String}
    (h : applyReply platform s resp = .ok (id, t)) :
    id = resp.deviceId ∧ t = { s with
      deviceId := some resp.deviceId
      pinnedPubkeyB64 := s.pinnedPubkeyB64.or resp.commandPubkeyB64
      pinnedServerKeyB64 := s.pinnedServerKeyB64.or resp.serverSigningKeyB64
      checkinSecret := (receivedSecret platform resp).or s.checkinSecret } := by
  unfold applyReply at h
  obtain ⟨_, _, h⟩ := bind_ok.mp h
  obtain ⟨_, _, h⟩ := bind_ok.mp h
  obtain ⟨_, _, h⟩ := bind_ok.mp h
  obtain ⟨_, _, h⟩ := bind_ok.mp h
  rw [pure_ok, Prod.mk.injEq] at h
  exact ⟨h.1.symm, h.2.symm⟩

/-- A step accepts a reply, or leaves the state and its origins and does not fail otherwise. -/
theorem enrollStep_cases (platform : Platform Key) (w : Enrolments) (a : EnrollStep) :
    ((enrollStep platform w a).state = w.state ∧ (enrollStep platform w a).origins = w.origins) ∨
      ∃ call requested resp t, a = .answer call (.ok resp) ∧ w.calls call = .awaiting requested ∧
        applyReply platform w.state resp = .ok (resp.deviceId, t) ∧
        enrollStep platform w a = { w with
          state := t
          origins := w.origins.record platform requested w.state resp }.return call
            (.ok resp.deviceId) := by
  cases a with
  | begin call minted =>
    refine Or.inl ?_
    simp only [enrollStep]
    split <;> exact ⟨rfl, rfl⟩
  | answer call reply =>
    cases hcall : w.calls call with
    | idle => exact Or.inl (by simp [enrollStep, hcall])
    | returned result => exact Or.inl (by simp [enrollStep, hcall])
    | awaiting requested =>
      cases reply with
      | error e => exact Or.inl (by simp [enrollStep, hcall, Enrolments.return])
      | ok resp =>
        cases happly : applyReply platform w.state resp with
        | error e => exact Or.inl (by simp [enrollStep, hcall, happly, Enrolments.return])
        | ok result =>
          obtain ⟨id, t⟩ := result
          obtain ⟨rfl, _⟩ := applyReply_ok happly
          exact Or.inr ⟨call, requested, resp, t, rfl, hcall, happly, by
            simp [enrollStep, hcall, happly]⟩

/-- A pin that is there stays, whatever the server answers. -/
theorem enrollStep_pins (platform : Platform Key) (w : Enrolments) (a : EnrollStep) :
    (∀ key, w.state.pinnedPubkeyB64 = some key →
      (enrollStep platform w a).state.pinnedPubkeyB64 = some key) ∧
    ∀ key, w.state.pinnedServerKeyB64 = some key →
      (enrollStep platform w a).state.pinnedServerKeyB64 = some key := by
  rcases enrollStep_cases platform w a with ⟨hstate, _⟩ | ⟨call, requested, resp, t, _, _, ht, hstep⟩
  · rw [hstate]
    exact ⟨fun _ h => h, fun _ h => h⟩
  · have hstate : (enrollStep platform w a).state = t := by rw [hstep]; rfl
    rw [hstate, (applyReply_ok ht).2]
    constructor
    · intro key hkey
      simp [hkey]
    · intro key hkey
      simp [hkey]

/-- A call that fails leaves the state. -/
theorem enrollStep_failed (platform : Platform Key) (w : Enrolments) (a : EnrollStep) (e : String)
    (h : (enrollStep platform w a).calls a.call = .returned (.error e)) :
    (enrollStep platform w a).state = w.state := by
  rcases enrollStep_cases platform w a with ⟨hstate, _⟩ | ⟨call, requested, resp, t, ha, _, _, hstep⟩
  · exact hstate
  · rw [hstep, ha] at h
    simp [EnrollStep.call, Enrolments.return] at h

/-- A part that is kept where it is there has its old origin, or that of the reply. -/
theorem origin_kept {α : Type} {part received : Option α} {origin : Option String}
    {requested : String} (hown : part ≠ none → origin = some requested)
    (h : part.or received ≠ none) :
    (if part = none ∧ received ≠ none then some requested else origin) = some requested := by
  by_cases hpart : part = none
  · rw [hpart, Option.none_or] at h
    exact if_pos ⟨hpart, h⟩
  · rw [if_neg fun hnew => hpart hnew.1]
    exact hown hpart

/-- A part that is replaced where something was received likewise. -/
theorem origin_replaced {α : Type} {part received : Option α} {origin : Option String}
    {requested : String} (hown : part ≠ none → origin = some requested)
    (h : received.or part ≠ none) :
    (if received ≠ none then some requested else origin) = some requested := by
  by_cases hreceived : received = none
  · rw [hreceived, Option.none_or] at h
    rw [if_neg (not_not.mpr hreceived)]
    exact hown h
  · exact if_pos hreceived

/-- The state after an accepted reply is of one identity if the reply is for the identity that was
asked for and for that of the state. -/
theorem ofOneIdentity_accepted {call : ℕ} {requested : String} {resp : EnrollResponse}
    {t : FleetClientState} (h : OfOneIdentity w)
    (ht : applyReply platform w.state resp = .ok (resp.deviceId, t))
    (hid : resp.deviceId = requested)
    (hstored : w.state.deviceId = none ∨ w.state.deviceId = some requested) :
    OfOneIdentity ({ w with
      state := t
      origins := w.origins.record platform requested w.state resp }.return call
        (.ok resp.deviceId)) := by
  obtain ⟨_, rfl⟩ := applyReply_ok ht
  have hown : w.state.deviceId ≠ none → w.state.deviceId = some requested :=
    fun hne => hstored.resolve_left hne
  have hsome : some resp.deviceId = some requested := congrArg some hid
  constructor
  · exact hsome
  · intro hpart
    refine ⟨(origin_kept ?_ hpart).trans hsome.symm, Option.some_ne_none _⟩
    exact fun hpin => (h.operatorKey hpin).1.trans (hown (h.operatorKey hpin).2)
  · intro hpart
    refine ⟨(origin_kept ?_ hpart).trans hsome.symm, Option.some_ne_none _⟩
    exact fun hpin => (h.serverKey hpin).1.trans (hown (h.serverKey hpin).2)
  · intro hpart
    refine ⟨(origin_replaced ?_ hpart).trans hsome.symm, Option.some_ne_none _⟩
    exact fun hsecret => (h.checkinSecret hsecret).1.trans (hown (h.checkinSecret hsecret).2)

theorem enrols_iff (h : OfOneIdentity w) : Enrols platform w a ↔ AnsweredAsAsked platform w a := by
  constructor
  · intro henrols
    cases a with
    | begin call minted => trivial
    | answer call reply =>
      rintro requested resp ⟨id, t⟩ hcall rfl happly
      obtain ⟨rfl, _⟩ := applyReply_ok happly
      have hstep : enrollStep platform w (.answer call (.ok resp)) = { w with
          state := t
          origins := w.origins.record platform requested w.state resp }.return call
            (.ok resp.deviceId) := by simp [enrollStep, hcall, happly]
      have hdevice : t.deviceId = some resp.deviceId := by rw [(applyReply_ok happly).2]
      have hidentity := henrols.identity.deviceId
      rw [hstep] at hidentity
      have hid : resp.deviceId = requested := by
        have hsome : some resp.deviceId = some requested := hdevice.symm.trans hidentity
        exact Option.some.inj hsome
      refine ⟨hid, ?_⟩
      cases hstored : w.state.deviceId with
      | none => exact Or.inl rfl
      | some id =>
        have hkept := henrols.keeps.deviceId id hstored
        rw [hstep] at hkept
        have hsame : some resp.deviceId = some id := hdevice.symm.trans hkept
        rw [← hsame, hid]
        exact Or.inr rfl
  · intro hasked
    obtain ⟨hoperator, hserver⟩ := enrollStep_pins platform w a
    rcases enrollStep_cases platform w a with
      ⟨hstate, horigins⟩ | ⟨call, requested, resp, t, rfl, hcall, happly, hstep⟩
    · refine ⟨⟨?_, hoperator, hserver⟩, enrollStep_failed platform w a, ?_⟩
      · rw [hstate]
        exact fun _ hid => hid
      · exact ⟨by rw [hstate, horigins]; exact h.deviceId, by rw [hstate, horigins]; exact h.operatorKey,
          by rw [hstate, horigins]; exact h.serverKey, by rw [hstate, horigins]; exact h.checkinSecret⟩
    · obtain ⟨hid, hstored⟩ := hasked requested resp _ hcall rfl happly
      refine ⟨⟨?_, hoperator, hserver⟩, enrollStep_failed platform w _, ?_⟩
      · intro id hdevice
        have hown : some id = some requested := by
          rcases hstored with hnone | hsome
          · rw [hnone] at hdevice
            cases hdevice
          · exact hdevice.symm.trans hsome
        rw [hstep, hown, ← hid]
        show t.deviceId = _
        rw [(applyReply_ok happly).2]
      · rw [hstep]
        exact ofOneIdentity_accepted h happly hid hstored

theorem start_ofOneIdentity : OfOneIdentity .start :=
  ⟨rfl, fun h => absurd rfl h, fun h => absurd rfl h, fun h => absurd rfl h⟩

/-- In a run of enrolments every step keeps the identity and the pins, changes nothing if its call
fails and leaves a state of one identity if and only if every reply that is accepted is for the
identity that was asked for and arrives before another one was stored. -/
theorem enrols_throughout_iff (platform : Platform Key) (steps : List EnrollStep) :
    Machine.Throughout (enrollStep platform) (Enrols platform) .start steps ↔
      Machine.Throughout (enrollStep platform) (AnsweredAsAsked platform) .start steps := by
  refine Machine.throughout_congr (I := OfOneIdentity) ?_ ?_ start_ofOneIdentity
  · exact fun _ _ h => enrols_iff h
  · exact fun _ _ _ henrols => henrols.identity

/-- Two enrolments in flight, each of which the server answers as it was asked: the second replaces
the identity that the first one stored. -/
theorem two_enrolments_replace_identity :
    ¬ ∀ (platform : Platform (List UInt8)) (steps : List EnrollStep),
      Machine.Throughout (enrollStep platform) (Enrols platform) .start steps := by
  intro h
  have hsteps := h ⟨(⟨[], []⟩ : Recording).crypto, fun _ => .error "missing field"⟩
    [.begin 0 "device-a", .begin 1 "device-b",
      .answer 0 (.ok ⟨"device-a", none, none, none⟩),
      .answer 1 (.ok ⟨"device-b", none, none, none⟩)]
  have hkept := hsteps.2.2.2.1.keeps.deviceId "device-a" rfl
  revert hkept
  decide

end Identity
end FleetAgent
