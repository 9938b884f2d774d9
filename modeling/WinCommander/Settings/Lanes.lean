import Mathlib.Data.Set.Function
import WinCommander.Library.Run
import WinCommander.Settings.Service

/-!
# The lanes of the accounts

Requests of one account take turns in a lane, which lives only as long as a request is in it.  A
request that has its turn keeps it until its work ends, whether its caller still waits or not.
-/

namespace SettingsService

open Json Outcome Machine PersonalSettings

def maxAccounts : ℕ := 64

def maxRequests : ℕ := 32

def maxAccountRequests : ℕ := 4

def busy : String := "personal_settings_busy"

/-- The free permits of an account: those to queue, and the one to work on its file. -/
structure Lane where
  admission : ℕ
  transaction : ℕ

inductive Reply where
  | record (record : PersonalSettingsRecord)
  | letters

inductive Phase where
  | entered (lane : ℕ)
  | counted (lane : ℕ)
  | waiting (lane : ℕ)
  | transacting (lane : ℕ)
  | replacing (lane : ℕ) (record : PersonalSettingsRecord)
  | cleaning (lane : ℕ) (letters : List String)
  | done (result : Except String Reply)
  | dropped

/-- The lane that a request keeps alive. -/
def Phase.lane : Phase → Option ℕ
  | .entered lane | .counted lane | .waiting lane | .transacting lane | .replacing lane _
  | .cleaning lane _ => some lane
  | .done _ | .dropped => none

def Phase.inTransaction : Phase → Bool
  | .transacting _ | .replacing _ _ | .cleaning _ _ => true
  | _ => false

section Model

variable (platform : Platform)

inductive Work where
  | request (verb : String) (args : Args platform)
  | quickMountLetters

structure Request where
  sid : String
  work : Work platform
  listening : Bool
  phase : Phase

/-- The scheduler, the requests so far and the files.  Lanes are numbered as they are made. -/
structure Service where
  accounts : List (String × ℕ)
  lanes : ℕ → Lane
  made : ℕ
  admission : ℕ
  requests : List (Request platform)
  files : String → Option platform.Payload

def Service.start (files : String → Option platform.Payload) : Service platform :=
  ⟨[], fun _ => ⟨maxAccountRequests, 1⟩, 0, maxRequests, [], files⟩

/-- What one request does next, with the outcome of its platform calls. -/
inductive Move where
  | acquire
  | expire
  | cancel
  | read (fault : Option ReadFault)
  | commit (fault : Option WriteFault)
  | cleaned (result : Except String Unit)

/-- A call of a peer, a cleanup of drive letters, or a move of a request that is under way.  Some
lanes may be left by their last request just after a call looked for such lanes. -/
inductive Action where
  | call (peer : Option String) (verb : String) (args : Args platform) (late : List ℕ)
  | cleanup (sid : String) (late : List ℕ)
  | move (i : ℕ) (m : Move)

/-- The account that an action acts for, if it is one that opens a lane. -/
def Action.sid : Action platform → Option String
  | .call peer _ _ _ => peer.filter (· ≠ "")
  | .cleanup sid _ => some sid
  | .move _ _ => none

end Model

section Permits

variable {platform : Platform}

/-- A request of a client counts against the two bounds; a cleanup does not. -/
def Request.counts (r : Request platform) : Bool :=
  match r.work with
  | .request _ _ => true
  | .quickMountLetters => false

def Request.accountPermits (r : Request platform) : ℕ :=
  match r.phase with
  | .counted _ | .waiting _ => 1
  | .transacting _ | .replacing _ _ | .cleaning _ _ => if r.counts then 1 else 0
  | _ => 0

def Request.servicePermits (r : Request platform) : ℕ :=
  match r.phase with
  | .waiting _ => 1
  | .transacting _ | .replacing _ _ | .cleaning _ _ => if r.counts then 1 else 0
  | _ => 0

def Request.transactionPermits (r : Request platform) : ℕ :=
  if r.phase.inTransaction then 1 else 0

/-- A lane lives as long as a request is in it. -/
def Service.alive (s : Service platform) (lane : ℕ) : Bool :=
  s.requests.any fun r => r.phase.lane == some lane

/-- The lane of an account, made anew if there is none. -/
def Service.account (s : Service platform) (sid : String) (late : List ℕ) :
    Service platform × Except String ℕ :=
  let kept := s.accounts.filter fun entry => s.alive entry.2 || late.contains entry.2
  match (kept.lookup sid).filter fun lane => s.alive lane with
  | some lane => ({ s with accounts := kept }, .ok lane)
  | none =>
    if maxAccounts ≤ kept.length then ({ s with accounts := kept }, .error busy)
    else
      ({ s with
        accounts := (sid, s.made) :: kept.filter fun entry => decide (entry.1 ≠ sid)
        lanes := Function.update s.lanes s.made ⟨maxAccountRequests, 1⟩
        made := s.made + 1 }, .ok s.made)

def Service.append (s : Service platform) (r : Request platform) : Service platform :=
  { s with requests := s.requests ++ [r] }

def Service.enter (s : Service platform) (sid : String) (work : Work platform) (late : List ℕ) :
    Service platform :=
  match s.account sid late with
  | (s', .ok lane) => s'.append ⟨sid, work, true, .entered lane⟩
  | (s', .error error) => s'.append ⟨sid, work, true, .done (.error error)⟩

/-- The phase after a request tried for its next permit. -/
def Service.acquired (s : Service platform) (r : Request platform) : Phase :=
  match r.phase with
  | .entered lane =>
    match r.work with
    | .request _ _ =>
      if (s.lanes lane).admission = 0 then .done (.error busy) else .counted lane
    | .quickMountLetters =>
      if (s.lanes lane).transaction = 0 then .done (.error busy) else .transacting lane
  | .counted lane => if s.admission = 0 then .done (.error busy) else .waiting lane
  | .waiting lane => if (s.lanes lane).transaction = 0 then .waiting lane else .transacting lane
  | phase => phase

/-- The phase after the work of a request read the file. -/
def Service.worked (s : Service platform) (r : Request platform) (lane : ℕ)
    (fault : Option ReadFault) : Phase :=
  let file := s.files (recordPath platform r.sid)
  match r.work with
  | .request verb args =>
    match prepare platform file r.sid verb args.value fault with
    | .ok (.answer record) => .done (.ok (.record record))
    | .ok (.replace record) => .replacing lane record
    | .error error => .done (.error error)
  | .quickMountLetters =>
    match savedLetters platform file r.sid fault with
    | .ok letters => .cleaning lane letters
    | .error error => .done (.error error)

/-- The request after a move.  Only a caller that still waits for its turn gives up the request. -/
def Service.after (s : Service platform) (r : Request platform) : Move → Request platform
  | .acquire => { r with phase := s.acquired r }
  | .expire =>
    match r.phase with
    | .waiting _ => { r with phase := .done (.error busy) }
    | _ => r
  | .cancel =>
    match r.work with
    | .quickMountLetters => r
    | .request _ _ =>
      match r.phase with
      | .waiting _ => { r with phase := .dropped, listening := false }
      | .transacting _ | .replacing _ _ => { r with listening := false }
      | _ => r
  | .read fault =>
    match r.phase with
    | .transacting lane => { r with phase := s.worked r lane fault }
    | _ => r
  | .commit fault =>
    match r.phase with
    | .replacing _ record =>
      match fault with
      | none => { r with phase := .done (.ok (.record record)) }
      | some _ => { r with phase := .done (.error unavailable) }
    | _ => r
  | .cleaned result =>
    match r.phase with
    | .cleaning _ _ => { r with phase := .done (result.map fun _ => .letters) }
    | _ => r

/-- The files after a move: only a commit without a fault replaces one. -/
def Service.written (s : Service platform) (r : Request platform) :
    Move → String → Option platform.Payload
  | .commit none =>
    match r.phase with
    | .replacing _ record =>
      Function.update s.files (recordPath platform r.sid) (some (encrypted platform r.sid record))
    | _ => s.files
  | _ => s.files

/-- One request moves on, gives back the permits that it no longer holds and takes new ones. -/
def Service.settle (s : Service platform) (i : ℕ) (r next : Request platform) :
    Service platform :=
  { s with
    lanes :=
      match r.phase.lane with
      | some lane => Function.update s.lanes lane
        ⟨(s.lanes lane).admission + r.accountPermits - next.accountPermits,
          (s.lanes lane).transaction + r.transactionPermits - next.transactionPermits⟩
      | none => s.lanes
    admission := s.admission + r.servicePermits - next.servicePermits
    requests := s.requests.set i next }

def Service.step (s : Service platform) : Action platform → Service platform
  | .call peer verb args late =>
    match peer.filter (· ≠ "") with
    | none => s.append ⟨"", .request verb args, true, .done (.error unauthorized)⟩
    | some sid => s.enter sid (.request verb args) late
  | .cleanup sid late => s.enter sid .quickMountLetters late
  | .move i m =>
    match s.requests[i]? with
    | none => s
    | some r => { s.settle i r (s.after r m) with files := s.written r m }

/-- The record of an account, as a request would read it. -/
def Service.stored (s : Service platform) (sid : String) : Except String PersonalSettingsRecord :=
  readRecord platform (s.files (recordPath platform sid)) sid

end Permits

end SettingsService
