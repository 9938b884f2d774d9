import Mathlib
import WinCommander.Library.Hex
import WinCommander.Library.History
import WinCommander.Library.Run
import WinCommander.FleetMachine.Run

/-!
# The transfer of contact evidence

A caller begins a contact, sends the request and the response of its check-in in chunks under the
nonce of the challenge, and finishes with the receipt.  All callers share one slot for the transfer
in progress.
-/

namespace FleetContact

open FleetMachinePolicy FleetProto Outcome

/-- What one call reads from the environment: the clock up to twice, the time of day, a random
source and the disk. -/
structure Environment where
  now : ℕ
  later : ℕ
  observed : Except String UInt64
  random : Option (List UInt8)
  writeFails : Bool

/-- Thirty seconds, in the nanoseconds of the monotonic clock. -/
def maxAge : ℕ := 30 * 10 ^ 9

def fresh (pending : PendingContact) (now : ℕ) : Bool :=
  pending.issued ≤ now && now - pending.issued ≤ maxAge

section Store

variable {Key : Type} (host : Host Key)

def contactKey (trust : FleetTrust) : Except String Unit := do
  let raw ← (host.crypto.b64Decode trust.signerKey).mapError fun _ => "contact_invalid_key"
  refuseIf (raw.length ≠ 32) "contact_invalid_key"
  let key ← (host.crypto.keyFromBytes raw).mapError fun _ => "contact_invalid_key"
  refuseIf (host.crypto.isWeak key) "contact_invalid_key"

def issue (env : Environment) (trust : FleetTrust) : Except String PendingContact := do
  contactKey host trust
  let random ← okOr env.random "random_unavailable"
  pure { nonce := String.ofList ("ci-".toList ++ Hex.encode random), trust, issued := env.now }

/-- The challenge that a beginning contact waits for. -/
def beginContact (env : Environment) (store : State) : Except String PendingContact := do
  let record ← currentRecord store
  issue host env record.trust

def contactPending (store : State) (nonce : String) (now : ℕ) : Bool :=
  store.contactChallenge.any fun pending =>
    pending.nonce == nonce && fresh pending now &&
      store.record.any fun record => record.trust == pending.trust

variable (verify : PendingContact → List UInt8 → List UInt8 → String → Except String Unit)

/-- What is decided about a contact after its challenge was consumed: the next state and the
observation in it. -/
def observeContact (env : Environment) (pending : PendingContact) (request response : List UInt8)
    (receipt : String) (store : State) : Except String (State × ContactObservation) := do
  refuseIf (fresh pending env.now = false) "contact_expired"
  let current ← currentRecord store
  refuseIf (current.trust ≠ pending.trust) "binding_changed"
  verify pending request response receipt
  refuseIf (fresh pending env.later = false) "contact_expired"
  let observedUnixMs ← env.observed
  refuseIf (current.contact.any fun old => observedUnixMs < old.observedUnixMs)
    "contact_clock_rollback"
  let next := { store with record := some { current with contact := some ⟨observedUnixMs⟩ } }
  let _ ← persist host next env.writeFails
  pure (next, ⟨observedUnixMs⟩)

/-- A matching attempt consumes the challenge, whatever comes of it. -/
def recordContact (env : Environment) (nonce : String) (request response : List UInt8)
    (receipt : String) (store : State) : Except String ContactObservation × State :=
  match store.contactChallenge.filter fun pending => pending.nonce = nonce with
  | none => (.error "contact_not_pending", store)
  | some pending =>
    let taken := { store with contactChallenge := none }
    match observeContact host verify env pending request response receipt taken with
    | .error e => (.error e, taken)
    | .ok (next, observation) => (.ok observation, next)

end Store

def chunk : ℕ := 1024 * 1024

def requestMax : ℕ := 2 * 1024 * 1024

def responseMax : ℕ := 16 * 1024 * 1024

structure Transfer where
  nonce : String
  request : List UInt8
  response : List UInt8
  deriving DecidableEq

/-- The operations on the transfer. -/
inductive Operation where
  | start
  | append (nonce stream : String) (offset : ℕ) (data : String)
  | finish (nonce receipt : String)

inductive Answer where
  | challenge (nonce : String)
  | accepted
  | observation (observation : ContactObservation)
  deriving DecidableEq

/-- What happened to the evidence: a challenge was issued, a chunk was accepted, or the store was
asked to record a contact. -/
inductive Event where
  | challenged (nonce : String)
  | accepted (nonce stream : String) (offset : ℕ) (bytes : List UInt8)
  | recorded (nonce : String) (request response : List UInt8) (receipt : String)
  deriving DecidableEq

/-- The store and the slot.  The log is kept for the statements only. -/
structure Service where
  store : State
  slot : Option Transfer
  log : List Event
  deriving DecidableEq

section Handle

variable {Key : Type} (host : Host Key)
  (verify : PendingContact → List UInt8 → List UInt8 → String → Except String Unit)

/-- The base64 text of a chunk, bounded before and after it is decoded. -/
def decodeChunk (data : String) : Except String (List UInt8) := do
  refuseIf ((chunk + 2) / 3 * 4 < (bytesOf data).length) "invalid_contact_chunk"
  let bytes ← (host.crypto.b64Decode data).mapError fun _ => "invalid_contact_chunk"
  refuseIf (bytes = [] ∨ chunk < bytes.length) "invalid_contact_chunk"
  pure bytes

/-- The first chunk of a request opens an empty slot. -/
def opened (slot : Option Transfer) (nonce stream : String) (offset : ℕ) : Option Transfer :=
  if slot = none ∧ stream = "request" ∧ offset = 0 then some ⟨nonce, [], []⟩ else slot

def extended (target : List UInt8) (limit offset : ℕ) (bytes : List UInt8) :
    Except String (List UInt8) := do
  refuseIf (target.length ≠ offset ∨ limit < target.length + bytes.length) "invalid_contact_chunk"
  pure (target ++ bytes)

def Transfer.extend (transfer : Transfer) (stream : String) (offset : ℕ) (bytes : List UInt8) :
    Except String Transfer :=
  if stream = "request" ∧ transfer.response = [] then do
    let request ← extended transfer.request requestMax offset bytes
    pure { transfer with request }
  else if stream = "response" ∧ transfer.request ≠ [] then do
    let response ← extended transfer.response responseMax offset bytes
    pure { transfer with response }
  else .error "invalid_contact_chunk"

/-- The chunk in the slot that its nonce belongs to. -/
def extendSlot (slot : Option Transfer) (nonce stream : String) (offset : ℕ) (bytes : List UInt8) :
    Except String Transfer := do
  let transfer ← okOr (slot.filter fun transfer => transfer.nonce = nonce) "contact_unavailable"
  transfer.extend stream offset bytes

def handleStart (env : Environment) (s : Service) : Except String Answer × Service :=
  match beginContact host env s.store with
  | .error e => (.error e, { s with slot := none })
  | .ok pending =>
    (.ok (.challenge pending.nonce),
      { store := { s.store with contactChallenge := some pending }
        slot := none
        log := s.log ++ [.challenged pending.nonce] })

def handleAppend (env : Environment) (nonce stream : String) (offset : ℕ) (data : String)
    (s : Service) : Except String Answer × Service :=
  if contactPending s.store nonce env.now = false then
    (.error "contact_unavailable", { s with slot := none })
  else
    match decodeChunk host data with
    | .error e => (.error e, s)
    | .ok bytes =>
      let slot := opened s.slot nonce stream offset
      match extendSlot slot nonce stream offset bytes with
      | .error e => (.error e, { s with slot })
      | .ok transfer =>
        (.ok .accepted,
          { s with
            slot := some transfer
            log := s.log ++ [.accepted nonce stream offset bytes] })

/-- The slot is emptied before its nonce is compared. -/
def handleFinish (env : Environment) (nonce receipt : String) (s : Service) :
    Except String Answer × Service :=
  match s.slot.filter fun transfer => transfer.nonce = nonce with
  | none => (.error "contact_unavailable", { s with slot := none })
  | some transfer =>
    let result := recordContact host verify env nonce transfer.request transfer.response receipt
      s.store
    (result.1.map .observation,
      { store := result.2
        slot := none
        log := s.log ++ [.recorded nonce transfer.request transfer.response receipt] })

/-- One request, decoded where its arguments are those of an operation. -/
@[grind =]
def handle (env : Environment) (s : Service) : Option Operation → Except String Answer × Service
  | none => (.error "invalid_contact_request", s)
  | some .start => handleStart host env s
  | some (.append nonce stream offset data) => handleAppend host env nonce stream offset data s
  | some (.finish nonce receipt) => handleFinish host verify env nonce receipt s

end Handle

section Evidence

def Event.isChallenge : Event → Bool
  | .challenged _ => true
  | _ => false

def Event.challengeNonce : Event → Option String
  | .challenged nonce => some nonce
  | _ => none

/-- The nonce of the current challenge. -/
def currentNonce (log : List Event) : Option String := History.latest Event.challengeNonce log

def Event.chunkOf (stream nonce : String) : Event → List UInt8
  | .accepted n st _ bytes => if st = stream ∧ n = nonce then bytes else []
  | _ => []

/-- The chunks accepted for a stream under a nonce since the current challenge was issued, joined
in the order of their acceptance. -/
def evidence (stream nonce : String) (log : List Event) : List UInt8 :=
  (History.since Event.isChallenge log).flatMap (Event.chunkOf stream nonce)

/-- A contact is recorded with the evidence of the current challenge, and a chunk is accepted at the
end of what was accepted before it. -/
def Follows (before : List Event) : Event → Prop
  | .challenged _ => True
  | .accepted nonce stream offset bytes =>
    currentNonce before = some nonce ∧ offset = (evidence stream nonce before).length ∧
      bytes ≠ [] ∧ bytes.length ≤ chunk
  | .recorded nonce request response _ =>
    currentNonce before = some nonce ∧ request = evidence "request" nonce before ∧
      response = evidence "response" nonce before ∧ request.length ≤ requestMax ∧
      response.length ≤ responseMax

/-- Every contact is recorded with exactly the evidence accepted for it. -/
def Exact (log : List Event) : Prop := History.Fits Follows log

variable {log : List Event} {nonce stream : String}

@[simp] theorem currentNonce_challenged (n : String) :
    currentNonce (log ++ [.challenged n]) = some n :=
  History.latest_concat_of_some (f := Event.challengeNonce) rfl log

theorem currentNonce_concat {e : Event} (h : e.isChallenge = false) :
    currentNonce (log ++ [e]) = currentNonce log := by
  apply History.latest_concat_of_none
  cases e with
  | challenged => simp [Event.isChallenge] at h
  | accepted => rfl
  | recorded => rfl

@[simp] theorem evidence_challenged (n : String) :
    evidence stream nonce (log ++ [.challenged n]) = [] := by
  rw [evidence, History.since_concat_of_marks rfl]
  rfl

theorem evidence_concat {e : Event} (h : e.isChallenge = false) :
    evidence stream nonce (log ++ [e]) = evidence stream nonce log ++ e.chunkOf stream nonce := by
  rw [evidence, History.since_concat h, List.flatMap_append, evidence]
  simp

end Evidence

section Runs

variable {Key : Type} (host : Host Key)
  (verify : PendingContact → List UInt8 → List UInt8 → String → Except String Unit)

/-- Requests of any callers, in turn, and in between whatever else happens to the store: no other
operation issues a challenge. -/
inductive Action where
  | call (env : Environment) (args : Option Operation)
  | elsewhere (record : Option Record) (pending : Option PendingEnrollment) (drops : Bool)

def State.replace (store : State) (record : Option Record) (pending : Option PendingEnrollment)
    (drops : Bool) : State where
  record := record
  pending := pending
  contactChallenge := if drops then none else store.contactChallenge

@[grind =] def advance (s : Service) : Action → Service
  | .call env args => (handle host verify env s args).2
  | .elsewhere record pending drops => { s with store := State.replace s.store record pending drops }

/-- A service that has opened its store: challenges are not kept in the file. -/
def Service.opened (record : Option Record) (pending : Option PendingEnrollment) : Service where
  store := { record, pending, contactChallenge := none }
  slot := none
  log := []

/-- While a transfer is in progress, a challenge is only asked for when the store can issue it, a
chunk carries the nonce of the challenge that is pending, and the end that of the transfer. -/
def SameNonce (s : Service) : Action → Prop
  | .call _ none => True
  | .call env (some .start) => s.slot = none ∨ (beginContact host env s.store).isOk
  | .call env (some (.append nonce _ _ _)) =>
    s.slot = none ∨ contactPending s.store nonce env.now = true
  | .call _ (some (.finish nonce _)) => ∀ transfer ∈ s.slot, transfer.nonce = nonce
  | .elsewhere _ _ _ => True

/-- What a refused request must meet to leave the slot as it is. -/
def LeavesSlot (env : Environment) (s : Service) : Option Operation → Prop
  | none => True
  | some (.append nonce _ _ _) => s.slot = none ∨ contactPending s.store nonce env.now = true
  | some _ => s.slot = none

/-- The transfer is what was accepted for it. -/
structure Transfer.Holds (transfer : Transfer) (log : List Event) : Prop where
  current : currentNonce log = some transfer.nonce
  request : transfer.request = evidence "request" transfer.nonce log
  response : transfer.response = evidence "response" transfer.nonce log
  requestFits : transfer.request.length ≤ requestMax
  responseFits : transfer.response.length ≤ responseMax

structure Inv (s : Service) : Prop where
  exact : Exact s.log
  challenge : ∀ pending ∈ s.store.contactChallenge, currentNonce s.log = some pending.nonce
  slot : ∀ transfer ∈ s.slot, transfer.Holds s.log
  empty : s.slot = none → ∀ pending ∈ s.store.contactChallenge, ∀ stream,
    evidence stream pending.nonce s.log = []

variable {host verify}

theorem State.eq_replace {store next : State}
    (h : next.contactChallenge = store.contactChallenge ∨ next.contactChallenge = none) :
    ∃ record pending drops, next = State.replace store record pending drops := by
  obtain ⟨record, pending, contactChallenge⟩ := next
  rcases h with hsame | hnone
  · exact ⟨record, pending, false, by simp [State.replace, ← hsame]⟩
  · exact ⟨record, pending, true, by simpa [State.replace] using hnone⟩

private theorem challenge_beginEnrollment {store next : State} {deviceId signerKey : String}
    {origins : List String} {profile : Option TransportProfile} {challenge : Option String}
    {a : String} (h : beginEnrollment host deviceId signerKey origins profile challenge store =
      .ok (some next, a)) : next.contactChallenge = store.contactChallenge := by
  unfold beginEnrollment at h
  obtain ⟨_, _, h⟩ := bind_ok.mp h
  obtain ⟨_, _, h⟩ := bind_ok.mp h
  cases profile with
  | none =>
    simp only [bind_ok, okOr_ok, pure_ok, Prod.mk.injEq, Option.some.injEq] at h
    obtain ⟨_, _, rfl, _⟩ := h
    rfl
  | some profile =>
    simp only [bind_ok, okOr_ok, pure_ok, Prod.mk.injEq, Option.some.injEq] at h
    obtain ⟨_, _, _, _, rfl, _⟩ := h
    rfl

private theorem challenge_replaceTrust {store next : State} {previous replacement : FleetTrust}
    {signature actor : String} {unixTime : Option UInt64}
    (h : replaceTrust host previous replacement signature actor unixTime store =
      .ok (some next, ())) : next.contactChallenge = none := by
  simp only [replaceTrust, bind_ok, pure_ok, Prod.mk.injEq, Option.some.injEq] at h
  obtain ⟨_, _, _, _, _, _, _, _, _, _, _, _, _, _, _, _, _, _, rfl, _⟩ := h
  rfl

private theorem challenge_bindOrigins {store next : State} {expected : FleetTrust}
    {signature actor : String} {unixTime : Option UInt64}
    (h : bindOrigins host expected signature actor unixTime store = .ok (some next, ())) :
    next.contactChallenge = none := by
  simp only [bindOrigins, bind_ok] at h
  obtain ⟨_, _, _, _, _, _, _, _, h⟩ := h
  split at h
  · simp only [bind_ok, pure_ok, Prod.mk.injEq, Option.some.injEq] at h
    obtain ⟨_, _, _, _, _, _, rfl, _⟩ := h
    rfl
  · simp only [pure_ok, Prod.mk.injEq, Option.some.injEq] at h
    obtain ⟨rfl, _⟩ := h
    rfl

private theorem challenge_observeRuntimeTransport {store next : State} {expected : FleetTrust}
    {origins : List String} {profile : Option TransportProfile} {token : String} {a : Bool}
    (h : observeRuntimeTransport host expected origins profile token store = .ok (some next, a)) :
    next.contactChallenge = store.contactChallenge := by
  simp only [observeRuntimeTransport, bind_ok] at h
  obtain ⟨_, _, _, _, _, _, h⟩ := h
  split at h
  · simp at h
  · split at h
    · simp at h
    · simp only [bind_ok, pure_ok, Prod.mk.injEq, Option.some.injEq] at h
      obtain ⟨_, _, rfl, _⟩ := h
      rfl

private theorem challenge_commitCandidate {store next : State} {context : CandidateContext}
    {secret : List UInt8} {protector : Protector} {a : UInt64}
    (h : commitCandidate host context secret protector store = .ok (some next, a)) :
    next.contactChallenge = store.contactChallenge := by
  simp only [commitCandidate, bind_ok, pure_ok, Prod.mk.injEq, Option.some.injEq] at h
  obtain ⟨_, _, _, _, _, _, _, _, rfl, _⟩ := h
  rfl

private theorem challenge_startConnection {store next : State} {expected : FleetTrust}
    {token connToken : String} {a : String × String}
    (h : startConnection host expected token connToken store = .ok (some next, a)) :
    next.contactChallenge = store.contactChallenge := by
  simp only [startConnection, bind_ok, pure_ok, Prod.mk.injEq, Option.some.injEq] at h
  obtain ⟨_, _, _, _, _, _, _, _, rfl, _⟩ := h
  rfl

private theorem challenge_clearCredential {store next : State} {token connToken : String} {a : Bool}
    (h : clearCredential host token connToken store = .ok (some next, a)) :
    next.contactChallenge = store.contactChallenge := by
  unfold clearCredential at h
  cases hr : store.record with
  | none => simp [hr] at h
  | some r =>
    simp only [hr] at h
    split at h
    · simp at h
    · split at h
      · simp at h
      · simp only [bind_ok, pure_ok, Prod.mk.injEq, Option.some.injEq] at h
        obtain ⟨_, _, _, _, rfl, _⟩ := h
        rfl

/-- Every other operation of the store leaves the challenge or drops it. -/
theorem elsewhere_of_decideOn {store next : State} {op : FleetMachinePolicy.Operation}
    {answer : FleetMachinePolicy.Answer} (h : decideOn host store op = .ok (some next, answer)) :
    ∃ record pending drops, next = State.replace store record pending drops := by
  apply State.eq_replace
  cases op with
  | beginEnrollment => exact .inl (challenge_beginEnrollment (map_ok h).choose_spec.1)
  | replaceTrust => exact .inr (challenge_replaceTrust (map_ok h).choose_spec.1)
  | bindOrigins => exact .inr (challenge_bindOrigins (map_ok h).choose_spec.1)
  | observeRuntimeTransport =>
    exact .inl (challenge_observeRuntimeTransport (map_ok h).choose_spec.1)
  | install =>
    obtain ⟨r, _, _, _, hnext⟩ := install_ok (map_ok h).choose_spec.1
    rw [hnext next rfl]
    exact .inl rfl
  | prepareCandidate =>
    have hprepare := (map_ok h).choose_spec.1
    simp only [prepareCandidate, bind_ok] at hprepare
    obtain ⟨_, _, _, _, _, _, _, _, _, _, _, _, _, _, _, _, hprepare⟩ := hprepare
    split at hprepare
    · simp at hprepare
    · simp at hprepare
  | commitCandidate => exact .inl (challenge_commitCandidate (map_ok h).choose_spec.1)
  | startConnection => exact .inl (challenge_startConnection (map_ok h).choose_spec.1)
  | clearCredential => exact .inl (challenge_clearCredential (map_ok h).choose_spec.1)

theorem nonce_of_contactPending {store : State} {nonce : String} {now : ℕ}
    (h : contactPending store nonce now = true) :
    ∃ pending ∈ store.contactChallenge, pending.nonce = nonce := by
  cases hp : store.contactChallenge with
  | none => simp [contactPending, hp] at h
  | some pending =>
    simp only [contactPending, hp, Option.any_some, Bool.and_eq_true, beq_iff_eq] at h
    exact ⟨pending, rfl, h.1.1⟩

theorem decodeChunk_ok {data : String} {bytes : List UInt8}
    (h : decodeChunk host data = .ok bytes) : bytes ≠ [] ∧ bytes.length ≤ chunk := by
  simp only [decodeChunk, bind_ok, refuseIf_ok, pure_ok] at h
  obtain ⟨_, _, decoded, _, _, hbounds, rfl⟩ := h
  rw [not_or, not_lt] at hbounds
  exact hbounds

theorem extended_ok {target bytes whole : List UInt8} {limit offset : ℕ}
    (h : extended target limit offset bytes = .ok whole) :
    offset = target.length ∧ whole = target ++ bytes ∧ whole.length ≤ limit := by
  simp only [extended, bind_ok, refuseIf_ok, pure_ok] at h
  obtain ⟨_, hfits, rfl⟩ := h
  rw [not_or, not_not, not_lt] at hfits
  exact ⟨hfits.1.symm, rfl, by rw [List.length_append]; exact hfits.2⟩

/-- A chunk goes to the end of its stream. -/
theorem Transfer.extend_ok {t t' : Transfer} {stream : String} {offset : ℕ} {bytes : List UInt8}
    (h : t.extend stream offset bytes = .ok t') :
    t'.nonce = t.nonce ∧
      (stream = "request" ∧ offset = t.request.length ∧ t'.request = t.request ++ bytes ∧
          t'.response = t.response ∧ t'.request.length ≤ requestMax ∨
        stream = "response" ∧ offset = t.response.length ∧ t'.response = t.response ++ bytes ∧
          t'.request = t.request ∧ t'.response.length ≤ responseMax) := by
  unfold Transfer.extend at h
  split at h
  · next hstream =>
    simp only [bind_ok, pure_ok] at h
    obtain ⟨request, hrequest, rfl⟩ := h
    have hend := extended_ok hrequest
    exact ⟨rfl, .inl ⟨hstream.1, hend.1, hend.2.1, rfl, hend.2.2⟩⟩
  · split at h
    · next hstream =>
      simp only [bind_ok, pure_ok] at h
      obtain ⟨response, hresponse, rfl⟩ := h
      have hend := extended_ok hresponse
      exact ⟨rfl, .inr ⟨hstream.1, hend.1, hend.2.1, rfl, hend.2.2⟩⟩
    · exact absurd h (by simp)

/-- The first chunk of a request is within its limit. -/
theorem extendSlot_first {nonce : String} {bytes : List UInt8} (hbytes : bytes.length ≤ chunk) :
    extendSlot (some ⟨nonce, [], []⟩) nonce "request" 0 bytes = .ok ⟨nonce, bytes, []⟩ := by
  have hfits : ¬ (([] : List UInt8).length ≠ 0 ∨
      requestMax < ([] : List UInt8).length + bytes.length) := by
    have hchunk : chunk ≤ requestMax := by decide
    simp only [List.length_nil, ne_eq, not_true_eq_false, false_or, not_lt]
    omega
  have hwhole : extended [] requestMax 0 bytes = .ok bytes := by
    rw [extended, refuseIf_neg _ hfits]
    rfl
  have htransfer : Transfer.extend ⟨nonce, [], []⟩ "request" 0 bytes = .ok ⟨nonce, bytes, []⟩ := by
    rw [Transfer.extend, if_pos ⟨rfl, rfl⟩, hwhole]
    rfl
  have hmine : (some (⟨nonce, [], []⟩ : Transfer)).filter (fun t => t.nonce = nonce) =
      some ⟨nonce, [], []⟩ := by
    simp [Option.filter]
  rw [extendSlot, hmine, ← htransfer]
  rfl

/-- A chunk that is not accepted has not opened the slot. -/
theorem opened_of_refused {slot : Option Transfer} {nonce stream e : String} {offset : ℕ}
    {bytes : List UInt8} (hbytes : bytes.length ≤ chunk)
    (h : extendSlot (opened slot nonce stream offset) nonce stream offset bytes = .error e) :
    opened slot nonce stream offset = slot := by
  unfold opened at h ⊢
  split
  · next hopens =>
    rw [if_pos hopens, hopens.2.1, hopens.2.2, extendSlot_first hbytes] at h
    exact absurd h (by simp)
  · rfl

theorem extendSlot_ok {slot : Option Transfer} {nonce stream : String} {offset : ℕ}
    {bytes : List UInt8} {t' : Transfer} (h : extendSlot slot nonce stream offset bytes = .ok t') :
    ∃ t, slot = some t ∧ t.nonce = nonce ∧ t.extend stream offset bytes = .ok t' := by
  simp only [extendSlot, bind_ok, okOr_ok, Option.filter_eq_some_iff] at h
  obtain ⟨t, ⟨hslot, hnonce⟩, hextend⟩ := h
  exact ⟨t, hslot, of_decide_eq_true hnonce, hextend⟩

theorem evidence_accepted (n st : String) (offset : ℕ) (bytes : List UInt8) (log : List Event)
    (stream : String) :
    evidence stream n (log ++ [.accepted n st offset bytes]) =
      evidence stream n log ++ if st = stream then bytes else [] := by
  rw [evidence_concat rfl]
  simp [Event.chunkOf]

/-- An accepted chunk stands at the end of its stream, and the transfer holds it from then on. -/
theorem Transfer.Holds.extend {t t' : Transfer} {log : List Event} {stream : String} {offset : ℕ}
    {bytes : List UInt8} (ht : t.Holds log) (h : t.extend stream offset bytes = .ok t') :
    offset = (evidence stream t.nonce log).length ∧
      t'.Holds (log ++ [.accepted t.nonce stream offset bytes]) := by
  obtain ⟨hnonce, ⟨hstream, hoffset, hrequest, hresponse, hfits⟩ |
    ⟨hstream, hoffset, hresponse, hrequest, hfits⟩⟩ := Transfer.extend_ok h
  · subst hstream
    refine ⟨by rw [hoffset, ht.request], ?_, ?_, ?_, hfits, ?_⟩
    · rw [currentNonce_concat rfl, hnonce]
      exact ht.current
    · rw [hnonce, evidence_accepted, hrequest, ht.request]
      rfl
    · rw [hnonce, evidence_accepted, hresponse, ht.response, if_neg (by decide), List.append_nil]
    · rw [hresponse]
      exact ht.responseFits
  · subst hstream
    refine ⟨by rw [hoffset, ht.response], ?_, ?_, ?_, ?_, hfits⟩
    · rw [currentNonce_concat rfl, hnonce]
      exact ht.current
    · rw [hnonce, evidence_accepted, hrequest, ht.request, if_neg (by decide), List.append_nil]
    · rw [hnonce, evidence_accepted, hresponse, ht.response]
      rfl
    · rw [hrequest]
      exact ht.requestFits

/-- The slot for a chunk of the pending challenge holds what was accepted for it. -/
theorem Inv.opened {s : Service} (h : Inv s) {pending : PendingContact}
    (hp : pending ∈ s.store.contactChallenge) {stream : String} {offset : ℕ} :
    ∀ t ∈ opened s.slot pending.nonce stream offset, t.Holds s.log := by
  intro t ht
  unfold FleetContact.opened at ht
  split at ht
  · next hopens =>
    rw [← Option.some.inj ht]
    have hempty := h.empty hopens.1 pending hp
    exact ⟨h.challenge pending hp, (hempty "request").symm, (hempty "response").symm,
      Nat.zero_le _, Nat.zero_le _⟩
  · exact h.slot t ht

theorem inv_opened (record : Option Record) (pending : Option PendingEnrollment) :
    Inv (Service.opened record pending) where
  exact := History.fits_nil
  challenge _ h := by simp [Service.opened] at h
  slot _ h := by simp [Service.opened] at h
  empty _ _ h := by simp [Service.opened] at h

theorem inv_start {s : Service} (h : Inv s) (env : Environment)
    (hcan : s.slot = none ∨ (beginContact host env s.store).isOk) :
    Inv (handleStart host env s).2 := by
  unfold handleStart
  cases hbegin : beginContact host env s.store with
  | error e =>
    have hslot : s.slot = none := by
      rcases hcan with hslot | hok
      · exact hslot
      · simp [hbegin, Except.isOk, Except.toBool] at hok
    exact ⟨h.exact, h.challenge, by simp, fun _ => h.empty hslot⟩
  | ok pending =>
    have hexact : Exact (s.log ++ [.challenged pending.nonce]) := h.exact.concat trivial
    refine ⟨hexact, ?_, by simp, ?_⟩
    · intro p hp
      rw [← Option.some.inj hp]
      exact currentNonce_challenged _
    · intro _ p _ stream
      exact evidence_challenged _

theorem inv_append {s : Service} (h : Inv s) (env : Environment) (nonce stream : String)
    (offset : ℕ) (data : String)
    (hcan : s.slot = none ∨ contactPending s.store nonce env.now = true) :
    Inv (handleAppend host env nonce stream offset data s).2 := by
  unfold handleAppend
  split
  · next hnot =>
    have hslot : s.slot = none := hcan.resolve_right (by simp [hnot])
    exact ⟨h.exact, h.challenge, by simp, fun _ => h.empty hslot⟩
  · next hpending =>
    rw [Bool.not_eq_false] at hpending
    obtain ⟨pending, hp, hnonce⟩ := nonce_of_contactPending hpending
    subst hnonce
    cases hdecode : decodeChunk host data with
    | error e => exact h
    | ok bytes =>
      have hbytes := decodeChunk_ok hdecode
      dsimp only
      cases hextend : extendSlot (FleetContact.opened s.slot pending.nonce stream offset)
          pending.nonce stream offset bytes with
      | error e =>
        dsimp only
        rw [opened_of_refused hbytes.2 hextend]
        exact h
      | ok t' =>
        obtain ⟨t, hslot, hnonce, ht'⟩ := extendSlot_ok hextend
        have hholds := h.opened hp t hslot
        have hnext := hholds.extend ht'
        rw [hnonce] at hnext
        have hfollows : Follows s.log (.accepted pending.nonce stream offset bytes) :=
          ⟨h.challenge pending hp, hnext.1, hbytes⟩
        refine ⟨h.exact.concat hfollows, ?_, ?_, by simp⟩
        · intro p hp'
          show currentNonce (s.log ++ _) = _
          rw [currentNonce_concat rfl]
          exact h.challenge p hp'
        · intro u hu
          rw [← Option.some.inj hu]
          exact hnext.2

theorem challenge_of_observeContact {env : Environment} {pending : PendingContact}
    {request response : List UInt8} {receipt : String} {store next : State}
    {observation : ContactObservation}
    (h : observeContact host verify env pending request response receipt store =
      .ok (next, observation)) : next.contactChallenge = store.contactChallenge := by
  simp only [observeContact, bind_ok, pure_ok, Prod.mk.injEq] at h
  obtain ⟨_, _, _, _, _, _, _, _, _, _, _, _, _, _, _, _, rfl, _⟩ := h
  rfl

/-- A contact that is recorded consumes its challenge. -/
theorem challenge_of_recordContact {env : Environment} {nonce : String}
    {request response : List UInt8} {receipt : String} {store : State} {pending : PendingContact}
    (h : pending ∈
      (recordContact host verify env nonce request response receipt store).2.contactChallenge) :
    pending ∈ store.contactChallenge ∧ pending.nonce ≠ nonce := by
  unfold recordContact at h
  split at h
  · next hother =>
    refine ⟨h, fun hnonce => ?_⟩
    rw [Option.filter_eq_none_iff] at hother
    exact hother pending h (by simpa using hnonce)
  · dsimp only at h
    split at h
    · simp at h
    · next hobserve =>
      rw [challenge_of_observeContact hobserve] at h
      simp at h

theorem inv_finish {s : Service} (h : Inv s) (env : Environment) (nonce receipt : String)
    (hcan : ∀ transfer ∈ s.slot, transfer.nonce = nonce) :
    Inv (handleFinish host verify env nonce receipt s).2 := by
  unfold handleFinish
  split
  · next hnone =>
    have hslot : s.slot = none := by
      rw [Option.filter_eq_none_iff] at hnone
      cases hs : s.slot with
      | none => rfl
      | some t => exact absurd (hcan t hs) (by simpa using hnone t hs)
    exact ⟨h.exact, h.challenge, by simp, fun _ => h.empty hslot⟩
  · next t ht =>
    rw [Option.filter_eq_some_iff] at ht
    have hnonce : t.nonce = nonce := of_decide_eq_true ht.2
    have hholds := h.slot t ht.1
    subst hnonce
    have hfollows : Follows s.log (.recorded t.nonce t.request t.response receipt) :=
      ⟨hholds.current, hholds.request, hholds.response, hholds.requestFits, hholds.responseFits⟩
    -- no challenge is left: the pending one had the nonce of the transfer
    have hleft : ∀ pending, pending ∈ (recordContact host verify env t.nonce t.request t.response
        receipt s.store).2.contactChallenge → False := by
      intro pending hp
      have hold := challenge_of_recordContact hp
      have hsame := (h.challenge pending hold.1).symm.trans hholds.current
      exact hold.2 (Option.some.inj hsame)
    exact ⟨h.exact.concat hfollows, fun p hp => (hleft p hp).elim, by simp,
      fun _ p hp => (hleft p hp).elim⟩

/-- A step that respects the nonces keeps the evidence exact. -/
theorem inv_advance {s : Service} {a : Action} (h : Inv s) (ha : SameNonce host s a) :
    Inv (advance host verify s a) := by
  cases a with
  | elsewhere record pending drops =>
    have hkept : ∀ p ∈ (State.replace s.store record pending drops).contactChallenge,
        p ∈ s.store.contactChallenge := by
      intro p hp
      unfold State.replace at hp
      cases drops with
      | true => simp at hp
      | false => simpa using hp
    exact ⟨h.exact, fun p hp => h.challenge p (hkept p hp), h.slot,
      fun hs p hp => h.empty hs p (hkept p hp)⟩
  | call env args =>
    cases args with
    | none => exact h
    | some op =>
      cases op with
      | start => exact inv_start h env ha
      | append nonce stream offset data => exact inv_append h env nonce stream offset data ha
      | finish nonce receipt => exact inv_finish h env nonce receipt ha

theorem exact_run {s : Service} {acts : List Action} (h : Inv s)
    (hacts : Machine.Throughout (advance host verify) (SameNonce host) s acts) :
    Exact (Machine.run (advance host verify) s acts).log :=
  (Machine.run_invariant (fun _ _ hinv hact => inv_advance hinv hact) h hacts).exact

theorem slot_handleStart (env : Environment) (s : Service) :
    (handleStart host env s).2.slot = none := by
  unfold handleStart
  split
  · rfl
  · rfl

theorem slot_handleFinish (env : Environment) (nonce receipt : String) (s : Service) :
    (handleFinish host verify env nonce receipt s).2.slot = none := by
  unfold handleFinish
  split
  · rfl
  · rfl

theorem slot_handleAppend {env : Environment} {nonce stream : String} {offset : ℕ} {data e : String}
    {s : Service} (h : (handleAppend host env nonce stream offset data s).1 = .error e) :
    (handleAppend host env nonce stream offset data s).2.slot = s.slot ↔
      s.slot = none ∨ contactPending s.store nonce env.now = true := by
  unfold handleAppend at h ⊢
  by_cases hpending : contactPending s.store nonce env.now = false
  · rw [if_pos hpending]
    simp [hpending, eq_comm]
  · rw [if_neg hpending] at h ⊢
    rw [Bool.not_eq_false] at hpending
    simp only [hpending, or_true, iff_true]
    cases hdecode : decodeChunk host data with
    | error e => rfl
    | ok bytes =>
      have hbytes := decodeChunk_ok hdecode
      simp only [hdecode] at h
      dsimp only
      cases hextend : extendSlot (opened s.slot nonce stream offset) nonce stream offset bytes with
      | error e => exact opened_of_refused hbytes.2 hextend
      | ok t' => simp [hextend] at h

/-- A refused request leaves the slot as it is exactly when nothing is in progress or it is a chunk
of the pending challenge. -/
theorem slot_of_refused {env : Environment} {s : Service} {args : Option Operation} {e : String}
    (h : (handle host verify env s args).1 = .error e) :
    (handle host verify env s args).2.slot = s.slot ↔ LeavesSlot env s args := by
  cases args with
  | none => exact iff_of_true rfl trivial
  | some op =>
    cases op with
    | start =>
      show (handleStart host env s).2.slot = s.slot ↔ s.slot = none
      rw [slot_handleStart]
      exact eq_comm
    | append nonce stream offset data => exact slot_handleAppend h
    | finish nonce receipt =>
      show (handleFinish host verify env nonce receipt s).2.slot = s.slot ↔ s.slot = none
      rw [slot_handleFinish]
      exact eq_comm

/-- While the nonces are respected every contact is recorded with exactly its evidence, and a
refused request leaves the transfer alone exactly when nothing is in progress or it is a chunk of
the pending challenge. -/
theorem contact_transfer_exact (host : Host Key)
    (verify : PendingContact → List UInt8 → List UInt8 → String → Except String Unit) :
    (∀ record pending acts,
      Machine.Throughout (advance host verify) (SameNonce host) (Service.opened record pending)
        acts →
      Exact (Machine.run (advance host verify) (Service.opened record pending) acts).log) ∧
    ∀ env s args e, (handle host verify env s args).1 = .error e →
      ((handle host verify env s args).2.slot = s.slot ↔ LeavesSlot env s args) :=
  ⟨fun record pending _ hacts => exact_run (inv_opened record pending) hacts,
    fun _ _ _ _ h => slot_of_refused h⟩

end Runs

section TwoCallers

open FleetProto.Recorded

private def machineTrust : FleetTrust where
  orgId := "org-1"
  deviceId := "dev-1"
  enrollmentGeneration := "bbbbbbbb-bbbb-4bbb-8bbb-bbbbbbbbbbbb"
  signerKey := serverKeyB64

private def machineRecord : Record where
  trust := machineTrust
  policy := none
  audit := []
  contact := none
  origins := []
  transportProfile := none
  credential := none
  credentialRevision := 0
  connectionRevision := 0
  cleared := none
  runtimeProfileChanged := false
  serviceEnabled := true

/-- A service that decodes the key and the two chunks; it never writes its file here. -/
private def machineHost : Host (List UInt8) where
  crypto := Recording.crypto
    { texts := [(serverKeyB64, serverKey), ("AA==", [0]), ("AQ==", [1])], signed := [] }
  sha256 := id
  parseUrl _ := none
  parseJson _ := none
  parseJson_canonical := by simp
  codec := ⟨fun _ => none, fun _ => none, by simp⟩

private def noReceipt (_ : PendingContact) (_ _ : List UInt8) (_ : String) : Except String Unit :=
  .error "contact_invalid_receipt"

private def environment : Environment where
  now := 0
  later := 0
  observed := .ok 10000
  random := some (List.replicate 16 0)
  writeFails := false

private def firstNonce : String := "ci-00000000000000000000000000000000"

private def callWith (op : Operation) : Action := .call environment (some op)

private def oneCaller : List Action :=
  [callWith .start, callWith (.append firstNonce "request" 0 "AA=="),
    callWith (.append firstNonce "response" 0 "AQ=="), callWith (.finish firstNonce "test")]

private theorem oneCaller_sameNonce :
    Machine.Throughout (advance machineHost noReceipt) (SameNonce machineHost)
      (Service.opened machineRecord none) oneCaller := by
  have hresponse : contactPending (Machine.run (advance machineHost noReceipt)
      (Service.opened machineRecord none) (oneCaller.take 2)).store firstNonce 0 = true := by
    decide +kernel
  have hfinish : ∀ transfer ∈ (Machine.run (advance machineHost noReceipt)
      (Service.opened machineRecord none) (oneCaller.take 3)).slot,
      transfer.nonce = firstNonce := by
    decide +kernel
  exact ⟨.inl rfl, .inl (slot_handleStart _ _), .inr hresponse, hfinish, trivial⟩

theorem contact_transfer_one_caller :
    Exact (Machine.run (advance machineHost noReceipt) (Service.opened machineRecord none)
      oneCaller).log :=
  (contact_transfer_exact machineHost noReceipt).1 machineRecord none oneCaller oneCaller_sameNonce

/-- A second caller's chunk under another nonce stands between the chunks of the first. -/
private def secondCaller : List Action :=
  [callWith .start, callWith (.append firstNonce "request" 0 "AA=="),
    callWith (.append "ci-other" "request" 0 "AA=="),
    callWith (.append firstNonce "request" 0 "AA=="),
    callWith (.append firstNonce "response" 0 "AQ=="), callWith (.finish firstNonce "test")]

private def secondLog : List Event :=
  [.challenged firstNonce, .accepted firstNonce "request" 0 [0],
    .accepted firstNonce "request" 0 [0], .accepted firstNonce "response" 0 [1]]

/-- The refused chunk empties the slot; the first caller's request is then recorded without what was
accepted before. -/
theorem contact_transfer_lost :
    ¬ (∀ record pending acts, Exact (Machine.run (advance machineHost noReceipt)
      (Service.opened record pending) acts).log) ∧
    ¬ ∀ record pending acts env args e,
      (handle machineHost noReceipt env (Machine.run (advance machineHost noReceipt)
        (Service.opened record pending) acts) args).1 = .error e →
      (handle machineHost noReceipt env (Machine.run (advance machineHost noReceipt)
        (Service.opened record pending) acts) args).2.slot =
        (Machine.run (advance machineHost noReceipt) (Service.opened record pending) acts).slot := by
  constructor
  · intro h
    have hlog : (Machine.run (advance machineHost noReceipt) (Service.opened machineRecord none)
        secondCaller).log = secondLog ++ [Event.recorded firstNonce [0] [1] "test"] := by
      decide +kernel
    have hrecorded := h machineRecord none secondCaller secondLog _ [] hlog
    exact absurd hrecorded.2.1 (by decide +kernel)
  · intro h
    have hrefused := h machineRecord none (secondCaller.take 2) environment
      (some (.append "ci-other" "request" 0 "AA==")) "contact_unavailable" (by decide +kernel)
    exact absurd hrefused (by decide +kernel)

end TwoCallers

end FleetContact
