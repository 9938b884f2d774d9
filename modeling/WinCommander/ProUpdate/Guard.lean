import Mathlib.Data.Nat.Notation
import Mathlib.Logic.Function.Basic

/-!
# The Pro update guard

Operations take a shared lock on the installed image, and an update takes a marker and an exclusive
lock before it replaces the image.  A lock is on the file that was opened; a replacement puts another
file at the path.  Each step is one call of the system, and the steps of all calls interleave.
-/

namespace ProUpdate

section World

def updateBusy : String := "PRO_UPDATE_IN_PROGRESS:WinCommander Pro is being updated. Wait for the update to finish, then try again."

inductive Owner where
  | operation (id : ℕ)
  | maintenance (id : ℕ)
  deriving DecidableEq

/-- A lock on a file, not on a path. -/
structure ImageLock where
  owner : Owner
  file : ℕ
  exclusive : Bool
  deriving DecidableEq

/-- Where a call of `operation_lease` stands; without a path it returns no lease. -/
inductive Operation where
  | idle
  | probed
  | opened (file : ℕ)
  | locked (file : ℕ)
  | leased (file : ℕ)
  | returned (result : Except String Unit)

/-- Where a replacement of the image stands.  The backup is a file and the path it was moved to. -/
inductive Replacement where
  | none
  | written (previous : Option ℕ) (backup : String)
  | movedAway (previous : ℕ) (backup : String) (error : String)
  | rollingBack (previous : Option ℕ) (backup : String) (error : String)
  | finished (outcome : Except String Unit)

/-- Where an update stands.  A guard that is dropped lets go of its marker first. -/
inductive Maintenance where
  | idle
  | marked
  | opened (file : ℕ)
  | held (image : Option ℕ) (replacement : Replacement)
  | dropping
  | returned (error : String)

/-- Files are numbered in the order of their creation. -/
structure World where
  image : Option ℕ
  files : ℕ
  marker : Option ℕ
  locks : List ImageLock
  operations : ℕ → Operation
  maintenance : ℕ → Maintenance

/-- An installed image, or none, and nobody at work. -/
def World.start (installed : Bool) : World where
  image := if installed then some 0 else none
  files := 1
  marker := none
  locks := []
  operations := fun _ => .idle
  maintenance := fun _ => .idle

def World.setOperation (w : World) (id : ℕ) (operation : Operation) : World :=
  { w with operations := Function.update w.operations id operation }

def World.setMaintenance (w : World) (id : ℕ) (maintenance : Maintenance) : World :=
  { w with maintenance := Function.update w.maintenance id maintenance }

def World.unlock (w : World) (owner : Owner) : World :=
  { w with locks := w.locks.filter fun lock => lock.owner ≠ owner }

end World

section Guard

variable (w : World)

/-- The probe of the marker may fail. -/
def requireAvailable (failure : Option String) : Except String Unit :=
  match failure with
  | some error => .error s!"Pro update status could not be checked: {error}"
  | none => if w.marker.isSome then .error updateBusy else .ok ()

inductive OpenError where
  | notFound
  | other (error : String)
  deriving DecidableEq

def OpenError.text : OpenError → String
  | .notFound => "The system cannot find the file specified. (os error 2)"
  | .other error => error

def openImage (failure : Option String) : Except OpenError ℕ :=
  match failure, w.image with
  | some error, _ => .error (.other error)
  | none, none => .error .notFound
  | none, some file => .ok file

/-- Locks on one file are all shared, or there is only one. -/
def conflicts (file : ℕ) (exclusive : Bool) : Bool :=
  w.locks.any fun lock => decide (lock.file = file) && (exclusive || lock.exclusive)

def lockImage (owner : Owner) (file : ℕ) (exclusive : Bool) (failure : Option String) :
    Except String World :=
  match failure with
  | some error => .error s!"Pro operation lock could not be acquired: {error}"
  | none =>
      if conflicts w file exclusive then .error updateBusy
      else .ok { w with locks := ⟨owner, file, exclusive⟩ :: w.locks }

/-- A call returns; what it locked is unlocked. -/
def endOperation (id : ℕ) (result : Except String Unit) : World :=
  (w.unlock (.operation id)).setOperation id (.returned result)

/-- An update that could not begin; its marker goes with its handle. -/
def endMaintenance (id : ℕ) (error : String) : World :=
  { w.setMaintenance id (.returned error) with marker := none }

end Guard

section Steps

variable (w : World)

/-- The first probe of a call. -/
def probe (id : ℕ) (hasPath : Bool) (failure : Option String) : World :=
  match w.operations id with
  | .idle | .returned _ =>
      match requireAvailable w failure with
      | .error error => endOperation w id (.error error)
      | .ok _ => if hasPath then w.setOperation id .probed else endOperation w id (.ok ())
  | _ => w

def openForOperation (id : ℕ) (failure : Option String) : World :=
  match w.operations id with
  | .probed =>
      match openImage w failure with
      | .error error => endOperation w id (.error ("Pro image could not be opened: " ++ error.text))
      | .ok file => w.setOperation id (.opened file)
  | _ => w

def lockForOperation (id : ℕ) (failure : Option String) : World :=
  match w.operations id with
  | .opened file =>
      match lockImage w (.operation id) file false failure with
      | .error error => endOperation w id (.error error)
      | .ok w => w.setOperation id (.locked file)
  | _ => w

/-- The second probe; a call that passes it has its lease. -/
def probeAgain (id : ℕ) (failure : Option String) : World :=
  match w.operations id with
  | .locked file =>
      match requireAvailable w failure with
      | .error error => endOperation w id (.error error)
      | .ok _ => w.setOperation id (.leased file)
  | _ => w

def dropLease (id : ℕ) : World :=
  match w.operations id with
  | .leased _ => endOperation w id (.ok ())
  | _ => w

def createMarker (id : ℕ) (failure : Option String) : World :=
  match w.maintenance id with
  | .idle | .returned _ =>
      match failure with
      | some error =>
          w.setMaintenance id (.returned s!"Pro update could not reserve maintenance: {error}")
      | none =>
          if w.marker.isSome then w.setMaintenance id (.returned updateBusy)
          else { w.setMaintenance id .marked with marker := some id }
  | _ => w

def openForUpdate (id : ℕ) (failure : Option String) : World :=
  match w.maintenance id with
  | .marked =>
      match openImage w failure with
      | .error .notFound => w.setMaintenance id (.held none .none)
      | .error (.other error) =>
          endMaintenance w id s!"Pro update could not open the installed image: {error}"
      | .ok file => w.setMaintenance id (.opened file)
  | _ => w

/-- A busy image is opened anew until the deadline. -/
def lockForUpdate (id : ℕ) (expired : Bool) (failure : Option String) : World :=
  match w.maintenance id with
  | .opened file =>
      match lockImage w (.maintenance id) file true failure with
      | .ok w => w.setMaintenance id (.held (some file) .none)
      | .error error =>
          if error ≠ updateBusy then endMaintenance w id error
          else if expired then endMaintenance w id "Pro is still completing an operation. Wait for it to finish before updating. The installed version was preserved."
          else w.setMaintenance id .marked
  | _ => w

inductive ReplaceOutcome where
  | replaced
  | failed (error : String)
  | movedAway (error : String)

/-- The staged file takes the path.  A replacement that fails may have moved the old image away. -/
def replaceFile (id : ℕ) (backup : String) (outcome : ReplaceOutcome) : World :=
  match w.maintenance id with
  | .held image .none | .held image (.finished _) =>
      match outcome, w.image with
      | .replaced, previous =>
          { w.setMaintenance id (.held image (.written previous backup)) with
            image := some w.files
            files := w.files + 1 }
      | .movedAway error, some previous =>
          { w.setMaintenance id (.held image (.movedAway previous backup error)) with image := none }
      | .movedAway error, none | .failed error, _ =>
          w.setMaintenance id (.held image (.finished (.error s!"disk:Pro replacement failed: {error}. Installation was not confirmed; retry the Pro update.")))
  | _ => w

def restoreBackup (id : ℕ) (failure : Option String) : World :=
  match w.maintenance id with
  | .held image (.movedAway previous backup error) =>
      match failure with
      | none =>
          { w.setMaintenance id (.held image (.finished (.error s!"disk:Pro replacement failed: {error}. The previous Pro binary was restored."))) with
            image := some previous }
      | some rollback =>
          w.setMaintenance id (.held image (.finished (.error s!"disk:Pro replacement failed: {error}. Restoration failed: {rollback}. The backup remains at {backup}. Repair Pro before retrying.")))
  | _ => w

def writeMetadata (id : ℕ) (failure : Option String) : World :=
  match w.maintenance id with
  | .held image (.written previous backup) =>
      match failure with
      | none => w.setMaintenance id (.held image (.finished (.ok ())))
      | some error => w.setMaintenance id (.held image (.rollingBack previous backup error))
  | _ => w

/-- The old image comes back, or the new one is removed where there was none. -/
def rollBack (id : ℕ) (failure : Option String) : World :=
  match w.maintenance id with
  | .held image (.rollingBack previous backup error) =>
      match failure with
      | none =>
          { w.setMaintenance id (.held image (.finished (.error s!"{error}. The previous Pro installation was restored."))) with
            image := previous }
      | some rollback =>
          w.setMaintenance id (.held image (.finished (.error s!"{error}. Pro rollback failed: {rollback}. The backup was preserved at {backup}.")))
  | _ => w

def dropMarker (id : ℕ) : World :=
  match w.maintenance id with
  | .held _ _ => { w.setMaintenance id .dropping with marker := none }
  | _ => w

def dropImage (id : ℕ) : World :=
  match w.maintenance id with
  | .dropping => (w.unlock (.maintenance id)).setMaintenance id .idle
  | _ => w

inductive Action where
  | probe (id : ℕ) (hasPath : Bool) (failure : Option String)
  | openForOperation (id : ℕ) (failure : Option String)
  | lockForOperation (id : ℕ) (failure : Option String)
  | probeAgain (id : ℕ) (failure : Option String)
  | dropLease (id : ℕ)
  | createMarker (id : ℕ) (failure : Option String)
  | openForUpdate (id : ℕ) (failure : Option String)
  | lockForUpdate (id : ℕ) (expired : Bool) (failure : Option String)
  | replaceFile (id : ℕ) (backup : String) (outcome : ReplaceOutcome)
  | restoreBackup (id : ℕ) (failure : Option String)
  | writeMetadata (id : ℕ) (failure : Option String)
  | rollBack (id : ℕ) (failure : Option String)
  | dropMarker (id : ℕ)
  | dropImage (id : ℕ)

def step : Action → World
  | .probe id hasPath failure => probe w id hasPath failure
  | .openForOperation id failure => openForOperation w id failure
  | .lockForOperation id failure => lockForOperation w id failure
  | .probeAgain id failure => probeAgain w id failure
  | .dropLease id => dropLease w id
  | .createMarker id failure => createMarker w id failure
  | .openForUpdate id failure => openForUpdate w id failure
  | .lockForUpdate id expired failure => lockForUpdate w id expired failure
  | .replaceFile id backup outcome => replaceFile w id backup outcome
  | .restoreBackup id failure => restoreBackup w id failure
  | .writeMetadata id failure => writeMetadata w id failure
  | .rollBack id failure => rollBack w id failure
  | .dropMarker id => dropMarker w id
  | .dropImage id => dropImage w id

end Steps

end ProUpdate
