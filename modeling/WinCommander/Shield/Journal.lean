import Mathlib
import WinCommander.Library.Codec
import WinCommander.Library.Outcome
import WinCommander.Library.Run

/-!
# The Privacy Shield journal

The service writes every launch and stop of the detector to one file before it acts on it.  Each
update takes the next sequence number, and a launch is current until a later reservation or stop.
After a failed write the journal gives no answer until it is opened again.
-/

namespace ShieldJournal

open Outcome

structure LaunchIdentity where
  sid : String
  sessionId : UInt32
  processId : UInt32
  creationTime : UInt64
  deriving DecidableEq

def LaunchIdentity.valid (identity : LaunchIdentity) : Bool :=
  identity.sid ≠ "" && identity.sessionId ≠ 0 && identity.processId ≠ 0 && identity.creationTime ≠ 0

structure LaunchReceipt where
  identity : LaunchIdentity
  fleetOwned : Bool
  sequence : UInt64
  deriving DecidableEq

structure PendingLaunch where
  sid : String
  sessionId : UInt32
  fleetOwned : Bool
  sequence : UInt64
  deriving DecidableEq

structure State where
  sequence : UInt64
  launch : Option LaunchReceipt
  stopSequence : Option UInt64
  pending : Option PendingLaunch
  deriving DecidableEq

/-- The state of a journal that was never written. -/
def State.default : State := ⟨0, none, none, none⟩

def LaunchReceipt.acceptedIn (receipt : LaunchReceipt) (state : State) : Bool :=
  receipt.identity.valid && receipt.sequence ≠ 0 && decide (receipt.sequence ≤ state.sequence)

def PendingLaunch.acceptedIn (pending : PendingLaunch) (state : State) : Bool :=
  pending.sid ≠ "" && pending.sessionId ≠ 0 && pending.sequence ≠ 0 &&
    decide (pending.sequence ≤ state.sequence)

/-- What a state that is read from the file must satisfy. -/
def State.accepted (state : State) : Bool :=
  state.launch.all (·.acceptedIn state) &&
    (state.stopSequence.all fun s => s ≠ 0 && decide (s ≤ state.sequence) &&
      (state.launch.isSome || state.pending.isSome)) &&
    state.pending.all (·.acceptedIn state)

/-- The launch is the last one recorded, and neither a reservation nor a stop came after it. -/
def State.launchStillCurrent (state : State) (receipt : LaunchReceipt) : Bool :=
  state.launch = some receipt && (state.pending.all fun p => decide (p.sequence < receipt.sequence)) &&
    state.stopSequence.all fun s => decide (s < receipt.sequence)

/-- The file and, while it can be trusted, the state in memory. -/
structure Journal where
  file : Option (List UInt8)
  state : Option State

/-- What goes wrong around an open. -/
structure OpenFaults where
  insecure : Bool
  unreadable : Bool

/-- A write replaces the file, or fails before or after it did. -/
inductive WriteOutcome where
  | written
  | failed (reached : Bool)
  deriving DecidableEq

/-- The journal operations that decide something. -/
inductive Operation where
  | reserveLaunch (sid : String) (sessionId : UInt32) (fleetOwned : Bool)
  | recordVerifiedLaunch (expectedSequence : UInt64) (identity : LaunchIdentity) (fleetOwned : Bool)
  | recordLocalStop (sid : String) (sessionId : UInt32)
  | recordVerifiedFleetStop (receipt : LaunchReceipt)

inductive Answer where
  | sequence (n : UInt64)
  | receipt (r : LaunchReceipt)
  deriving DecidableEq

/-- The sequence number that an answer brings. -/
def Answer.number : Answer → UInt64
  | .sequence n => n
  | .receipt r => r.sequence

section Operations

def State.nextSequence (state : State) : Except String UInt64 :=
  if state.sequence.toNat + 1 < 2 ^ 64 then .ok (state.sequence + 1) else .error "sequence_exhausted"

def State.reserveLaunch (state : State) (sid : String) (sessionId : UInt32) (fleetOwned : Bool) :
    Except String (Answer × State) := do
  let n ← state.nextSequence
  pure (.sequence n, { state with
    sequence := n
    pending := some ⟨sid, sessionId, fleetOwned, n⟩ })

def State.recordVerifiedLaunch (state : State) (expectedSequence : UInt64)
    (identity : LaunchIdentity) (fleetOwned : Bool) : Except String (Answer × State) := do
  refuseIf (state.sequence ≠ expectedSequence) "intent_superseded"
  let pending ← okOr state.pending "ownership_unknown"
  refuseIf (pending.sequence ≠ expectedSequence ∨ pending.sid ≠ identity.sid ∨
    pending.sessionId ≠ identity.sessionId ∨ pending.fleetOwned ≠ fleetOwned) "ownership_unverified"
  let n ← state.nextSequence
  let receipt : LaunchReceipt := ⟨identity, fleetOwned, n⟩
  pure (.receipt receipt, { state with
    sequence := n
    launch := some receipt
    pending := none })

/-- The local owner of the reservation or, without one, of the launch. -/
def State.localOwner (state : State) (sid : String) (sessionId : UInt32) : Except String Bool :=
  match state.pending, state.launch with
  | some pending, _ =>
    .ok (!pending.fleetOwned && pending.sid = sid && pending.sessionId = sessionId)
  | none, some launch =>
    .ok (!launch.fleetOwned && launch.identity.sid = sid && launch.identity.sessionId = sessionId)
  | none, none => .error "ownership_unknown"

def State.recordLocalStop (state : State) (sid : String) (sessionId : UInt32) :
    Except String (Answer × State) := do
  let allowed ← state.localOwner sid sessionId
  refuseIf (allowed = false) "ownership_unverified"
  let n ← state.nextSequence
  pure (.sequence n, { state with
    sequence := n
    stopSequence := some n })

def State.recordVerifiedFleetStop (state : State) (receipt : LaunchReceipt) :
    Except String (Answer × State) := do
  refuseIf (receipt.fleetOwned = false ∨ state.launch ≠ some receipt ∨ state.pending.isSome = true ∨
    (state.stopSequence.any fun stop => decide (receipt.sequence < stop)) = true) "ownership_unverified"
  let n ← state.nextSequence
  pure (.sequence n, { state with
    sequence := n
    stopSequence := some n })

/-- The check of the arguments, before the journal is looked at. -/
def Operation.checkArguments : Operation → Except String Unit
  | .reserveLaunch sid sessionId _ => refuseIf (sid = "" ∨ sessionId = 0) "invalid_identity"
  | .recordVerifiedLaunch _ identity _ => refuseIf (identity.valid = false) "invalid_identity"
  | .recordLocalStop _ _ => .ok ()
  | .recordVerifiedFleetStop _ => .ok ()

def Operation.apply (state : State) : Operation → Except String (Answer × State)
  | .reserveLaunch sid sessionId fleetOwned => state.reserveLaunch sid sessionId fleetOwned
  | .recordVerifiedLaunch expectedSequence identity fleetOwned =>
    state.recordVerifiedLaunch expectedSequence identity fleetOwned
  | .recordLocalStop sid sessionId => state.recordLocalStop sid sessionId
  | .recordVerifiedFleetStop receipt => state.recordVerifiedFleetStop receipt

end Operations

section Machine

variable (codec : Codec State)

/-- The state that a file stands for. -/
def readState (file : Option (List UInt8)) : Except String State :=
  match file with
  | none => .ok State.default
  | some bytes => okOr (codec.fromSlice bytes) "invalid_journal"

def openJournal (file : Option (List UInt8)) (faults : OpenFaults) : Except String State := do
  refuseIf (faults.insecure = true) "insecure_journal"
  refuseIf (faults.unreadable = true) "journal_unavailable"
  let state ← readState codec file
  refuseIf (state.accepted = false) "invalid_journal"
  pure state

/-- What an operation would write: the answer, the next state and its bytes. -/
def Journal.prepare (journal : Journal) (op : Operation) :
    Except String ((Answer × State) × List UInt8) := do
  op.checkArguments
  let state ← okOr journal.state "journal_unavailable"
  let result ← op.apply state
  let bytes ← okOr (codec.toVec result.2) "invalid_journal"
  pure (result, bytes)

/-- A write that fails takes the state away, whether or not it reached the file. -/
def Journal.operate (journal : Journal) (op : Operation) (write : WriteOutcome) :
    Journal × Except String Answer :=
  match journal.prepare codec op with
  | .error e => (journal, .error e)
  | .ok ((answer, next), bytes) =>
    match write with
    | .written => ({ file := some bytes, state := some next }, .ok answer)
    | .failed reached =>
      ({ file := if reached then some bytes else journal.file, state := none },
        .error "journal_unavailable")

def Journal.sequence (journal : Journal) : Except String UInt64 :=
  (okOr journal.state "journal_unavailable").map State.sequence

def Journal.launchStillCurrent (journal : Journal) (receipt : LaunchReceipt) : Except String Bool :=
  (okOr journal.state "journal_unavailable").map (·.launchStillCurrent receipt)

inductive Call where
  | operate (op : Operation) (write : WriteOutcome)
  | reopen (faults : OpenFaults)

@[grind =] def step (journal : Journal) : Call → Journal
  | .operate op write => (journal.operate codec op write).1
  | .reopen faults => { journal with state := (openJournal codec journal.file faults).toOption }

/-- A journal that is not open yet. -/
def closed (file : Option (List UInt8)) : Journal := ⟨file, none⟩

end Machine

end ShieldJournal
