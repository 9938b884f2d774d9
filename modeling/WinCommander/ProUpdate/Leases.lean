import WinCommander.Library.Run
import WinCommander.ProUpdate.Guard

/-!
# Leases and updates

While no call is granted a lease on a file that has left the path, no lease is live while an update is
held, and no image is replaced under a lease.
-/

namespace ProUpdate

open Machine

variable {w : World}

section Statements

/-- No lease is live while an update is held. -/
def Exclusive (w : World) : Prop :=
  ∀ id image replacement, w.maintenance id = .held image replacement →
    ∀ call file, w.operations call ≠ .leased file

/-- The image changes under no lease. -/
def Unreplaced (w : World) (action : Action) : Prop :=
  (step w action).image ≠ w.image → ∀ call file, w.operations call ≠ .leased file

/-- A call that passes its second probe has locked the file that is at the path. -/
def GrantsCurrent (w : World) : Action → Prop
  | .probeAgain id none => ∀ file, w.operations id = .locked file → w.marker = none →
    w.image = some file
  | _ => True

end Statements

section Invariant

def Operation.lockedFile : Operation → Option ℕ
  | .locked file | .leased file => some file
  | _ => none

def Maintenance.hasMarker : Maintenance → Bool
  | .marked | .opened _ | .held _ _ => true
  | _ => false

structure Inv (w : World) : Prop where
  marker : ∀ id, (w.maintenance id).hasMarker = true → w.marker = some id
  opened : ∀ id file, w.maintenance id = .opened file → w.image = some file
  locks : ∀ call file, (w.operations call).lockedFile = some file →
    ⟨.operation call, file, false⟩ ∈ w.locks
  leased : ∀ call file, w.operations call = .leased file → w.image = some file
  exclusive : Exclusive w

theorem inv_start (installed : Bool) : Inv (World.start installed) where
  marker := fun _ h => absurd h (by simp [World.start, Maintenance.hasMarker])
  opened := fun _ _ h => absurd h (by simp [World.start])
  locks := fun _ _ h => absurd h (by simp [World.start, Operation.lockedFile])
  leased := fun _ _ h => absurd h (by simp [World.start])
  exclusive := fun _ _ _ h => absurd h (by simp [World.start])

end Invariant

section Operations

variable {id : ℕ} {operation : Operation}

theorem operations_of_ne {call : ℕ} (h : call ≠ id) :
    (w.setOperation id operation).operations call = w.operations call := by
  simp [World.setOperation, h]

theorem operations_self : (w.setOperation id operation).operations id = operation := by
  simp [World.setOperation]

/-- A call moves on; what it locks is on record, and a lease is on the image while no update is
held. -/
theorem Inv.setOperation (h : Inv w)
    (hlocks : ∀ file, operation.lockedFile = some file → ⟨.operation id, file, false⟩ ∈ w.locks)
    (hleased : ∀ file, operation = .leased file → w.image = some file ∧ w.marker = none) :
    Inv (w.setOperation id operation) where
  marker := h.marker
  opened := h.opened
  locks := by
    intro call file hcall
    by_cases he : call = id
    · rw [he, operations_self] at hcall
      rw [he]
      exact hlocks file hcall
    · rw [operations_of_ne he] at hcall
      exact h.locks call file hcall
  leased := by
    intro call file hcall
    by_cases he : call = id
    · rw [he, operations_self] at hcall
      exact (hleased file hcall).1
    · rw [operations_of_ne he] at hcall
      exact h.leased call file hcall
  exclusive := by
    intro update image replacement hheld call file hcall
    by_cases he : call = id
    · rw [he, operations_self] at hcall
      have hmarker : w.marker = some update := h.marker update (by
        rw [show w.maintenance update = _ from hheld]
        rfl)
      rw [(hleased file hcall).2] at hmarker
      cases hmarker
    · rw [operations_of_ne he] at hcall
      exact h.exclusive update image replacement hheld call file hcall

theorem mem_unlock {owner : Owner} {lock : ImageLock} (h : lock ∈ w.locks) (hne : lock.owner ≠ owner) :
    lock ∈ (w.unlock owner).locks :=
  List.mem_filter.mpr ⟨h, decide_eq_true hne⟩

theorem inv_endOperation (h : Inv w) (id : ℕ) (result : Except String Unit) :
    Inv (endOperation w id result) where
  marker := h.marker
  opened := h.opened
  locks := by
    intro call file hcall
    by_cases he : call = id
    · rw [he, endOperation, operations_self] at hcall
      cases hcall
    · rw [endOperation, operations_of_ne he] at hcall
      apply mem_unlock (h.locks call file hcall)
      intro howner
      exact he (Owner.operation.inj howner)
  leased := by
    intro call file hcall
    by_cases he : call = id
    · rw [he, endOperation, operations_self] at hcall
      cases hcall
    · rw [endOperation, operations_of_ne he] at hcall
      exact h.leased call file hcall
  exclusive := by
    intro update image replacement hheld call file hcall
    by_cases he : call = id
    · rw [he, endOperation, operations_self] at hcall
      cases hcall
    · rw [endOperation, operations_of_ne he] at hcall
      exact h.exclusive update image replacement hheld call file hcall

/-- A call that has locked nothing yet. -/
theorem Inv.unlocked (h : Inv w) (id : ℕ) (hlocked : operation.lockedFile = none) :
    Inv (w.setOperation id operation) := by
  apply h.setOperation
  · intro file hfile
    rw [hlocked] at hfile
    cases hfile
  · intro file hfile
    rw [hfile] at hlocked
    cases hlocked

theorem inv_probe (h : Inv w) (id : ℕ) (hasPath : Bool) (failure : Option String) :
    Inv (probe w id hasPath failure) := by
  unfold probe
  cases requireAvailable w failure with
  | error error =>
    split
    · exact inv_endOperation h id _
    · exact inv_endOperation h id _
    · exact h
  | ok _ =>
    have hprobe : Inv (if hasPath then w.setOperation id .probed else
        endOperation w id (.ok ())) := by
      split
      · exact h.unlocked id rfl
      · exact inv_endOperation h id _
    split
    · exact hprobe
    · exact hprobe
    · exact h

theorem inv_openForOperation (h : Inv w) (id : ℕ) (failure : Option String) :
    Inv (openForOperation w id failure) := by
  unfold openForOperation
  split
  · split
    · exact inv_endOperation h id _
    · exact h.unlocked id rfl
  · exact h

theorem lockImage_ok {owner : Owner} {file : ℕ} {exclusive : Bool} {failure : Option String}
    {w' : World} (h : lockImage w owner file exclusive failure = .ok w') :
    conflicts w file exclusive = false ∧ w' = { w with locks := ⟨owner, file, exclusive⟩ :: w.locks } := by
  unfold lockImage at h
  split at h
  · cases h
  · split at h
    · cases h
    · rename_i hconflicts
      exact ⟨eq_false_of_ne_true hconflicts, (Except.ok.inj h).symm⟩

theorem Inv.lock (h : Inv w) (lock : ImageLock) : Inv { w with locks := lock :: w.locks } where
  marker := h.marker
  opened := h.opened
  locks := fun call file hcall => List.mem_cons_of_mem lock (h.locks call file hcall)
  leased := h.leased
  exclusive := h.exclusive

theorem inv_lockForOperation (h : Inv w) (id : ℕ) (failure : Option String) :
    Inv (lockForOperation w id failure) := by
  unfold lockForOperation
  split
  · rename_i file hfile
    split
    · exact inv_endOperation h id _
    · rename_i w' hlock
      obtain ⟨hfree, hw'⟩ := lockImage_ok hlock
      have hlocked := h.lock ⟨.operation id, file, false⟩
      rw [← hw'] at hlocked
      apply hlocked.setOperation
      · intro file' hfile'
        rw [← Option.some.inj hfile', hw']
        exact List.mem_cons_self
      · intro file' hfile'
        cases hfile'
  · exact h

theorem requireAvailable_ok {failure : Option String} {u : Unit}
    (h : requireAvailable w failure = .ok u) : failure = none ∧ w.marker = none := by
  unfold requireAvailable at h
  split at h
  · cases h
  · split at h
    · cases h
    · rename_i hmarker
      exact ⟨rfl, by simpa using hmarker⟩

theorem inv_probeAgain (h : Inv w) {id : ℕ} {failure : Option String}
    (hcurrent : GrantsCurrent w (.probeAgain id failure)) : Inv (probeAgain w id failure) := by
  unfold probeAgain
  split
  · rename_i file hfile
    split
    · exact inv_endOperation h id _
    · rename_i hok
      obtain ⟨hfailure, hmarker⟩ := requireAvailable_ok hok
      rw [hfailure] at hcurrent
      apply h.setOperation
      · intro file' hfile'
        rw [← Option.some.inj hfile']
        exact h.locks id file (by rw [hfile]; rfl)
      · intro file' hfile'
        rw [← Operation.leased.inj hfile']
        exact ⟨hcurrent file hfile hmarker, hmarker⟩
  · exact h

theorem inv_dropLease (h : Inv w) (id : ℕ) : Inv (dropLease w id) := by
  unfold dropLease
  split
  · exact inv_endOperation h id _
  · exact h

end Operations

section Updates

variable {id : ℕ} {maintenance : Maintenance}

theorem maintenance_of_ne {other : ℕ} (h : other ≠ id) :
    (w.setMaintenance id maintenance).maintenance other = w.maintenance other := by
  simp [World.setMaintenance, h]

theorem maintenance_self : (w.setMaintenance id maintenance).maintenance id = maintenance := by
  simp [World.setMaintenance]

def NoLease (w : World) : Prop := ∀ call file, w.operations call ≠ .leased file

/-- An update moves on; only one that has the marker changes the image, and under no lease. -/
theorem Inv.setMaintenance (h : Inv w) {marker image : Option ℕ} {files : ℕ}
    (hothers : ∀ other, other ≠ id → (w.maintenance other).hasMarker = true → marker = some other)
    (hown : maintenance.hasMarker = true → marker = some id)
    (hopened : ∀ file, maintenance = .opened file → image = some file)
    (himage : image = w.image ∨ (w.marker = some id ∧ NoLease w))
    (hheld : ∀ held replacement, maintenance = .held held replacement → NoLease w) :
    Inv { w.setMaintenance id maintenance with marker := marker, image := image, files := files }
    where
  marker := by
    intro other hother
    by_cases he : other = id
    · rw [he] at hother ⊢
      exact hown (by rwa [← @maintenance_self w id maintenance])
    · exact hothers other he (by rwa [← @maintenance_of_ne w id maintenance other he])
  opened := by
    intro other file hother
    by_cases he : other = id
    · rw [he] at hother
      exact hopened file (by rwa [← @maintenance_self w id maintenance])
    · have hopen : w.maintenance other = .opened file := by
        rwa [← @maintenance_of_ne w id maintenance other he]
      rcases himage with himage | ⟨hmarker, -⟩
      · exact himage.trans (h.opened other file hopen)
      · have hother := h.marker other (by rw [hopen]; rfl)
        rw [hmarker] at hother
        exact absurd (Option.some.inj hother).symm he
  locks := h.locks
  leased := by
    intro call file hcall
    rcases himage with himage | ⟨-, hfree⟩
    · exact himage.trans (h.leased call file hcall)
    · exact absurd hcall (hfree call file)
  exclusive := by
    intro other held replacement hother
    by_cases he : other = id
    · rw [he] at hother
      exact hheld held replacement (by rwa [← @maintenance_self w id maintenance])
    · exact h.exclusive other held replacement (by
        rwa [← @maintenance_of_ne w id maintenance other he])

/-- Nobody else has the marker of an update. -/
theorem Inv.alone (h : Inv w) (hmarker : (w.maintenance id).hasMarker = true) {other : ℕ}
    (he : other ≠ id) : (w.maintenance other).hasMarker = true → False := by
  intro hother
  have hid := h.marker id hmarker
  rw [h.marker other hother] at hid
  exact he (Option.some.inj hid)

/-- An update that has the marker and keeps it, with the image as it is. -/
theorem Inv.advance (h : Inv w) (hmarker : (w.maintenance id).hasMarker = true)
    (hopened : ∀ file, maintenance = .opened file → w.image = some file)
    (hheld : ∀ held replacement, maintenance = .held held replacement → NoLease w) :
    Inv (w.setMaintenance id maintenance) :=
  h.setMaintenance (fun other _ hother => h.marker other hother) (fun _ => h.marker id hmarker)
    hopened (Or.inl rfl) hheld

/-- An update that gives its marker back. -/
theorem Inv.leave (h : Inv w) (hmarker : (w.maintenance id).hasMarker = true)
    (hleft : maintenance.hasMarker = false) :
    Inv { w.setMaintenance id maintenance with marker := none } := by
  apply h.setMaintenance
  · intro other he hother
    exact (h.alone hmarker he hother).elim
  · intro hown
    rw [hleft] at hown
    cases hown
  · intro file hfile
    rw [hfile] at hleft
    cases hleft
  · exact Or.inl rfl
  · intro held replacement hheld
    rw [hheld] at hleft
    cases hleft

/-- An update that never had the marker. -/
theorem Inv.refused (h : Inv w) (hleft : maintenance.hasMarker = false) :
    Inv (w.setMaintenance id maintenance) := by
  apply h.setMaintenance
  · intro other _ hother
    exact h.marker other hother
  · intro hown
    rw [hleft] at hown
    cases hown
  · intro file hfile
    rw [hfile] at hleft
    cases hleft
  · exact Or.inl rfl
  · intro held replacement hheld
    rw [hheld] at hleft
    cases hleft

/-- A held update replaces the image, or puts the old one back. -/
theorem Inv.replace (h : Inv w) {held : Option ℕ} {replacement next : Replacement}
    (hheld : w.maintenance id = .held held replacement) (image : Option ℕ) (files : ℕ) :
    Inv { w.setMaintenance id (.held held next) with image := image, files := files } := by
  have hmarker : (w.maintenance id).hasMarker = true := by rw [hheld]; rfl
  have hfree : NoLease w := h.exclusive id held replacement hheld
  apply h.setMaintenance
  · intro other _ hother
    exact h.marker other hother
  · intro _
    exact h.marker id hmarker
  · intro file hfile
    cases hfile
  · exact Or.inr ⟨h.marker id hmarker, hfree⟩
  · intro _ _ _
    exact hfree

theorem inv_createMarker (h : Inv w) (id : ℕ) (failure : Option String) :
    Inv (createMarker w id failure) := by
  unfold createMarker
  cases failure with
  | some error =>
    split
    · exact h.refused rfl
    · exact h.refused rfl
    · exact h
  | none =>
    have hcreate : Inv (if w.marker.isSome then w.setMaintenance id (.returned updateBusy) else
        { w.setMaintenance id .marked with marker := some id }) := by
      split
      · exact h.refused rfl
      · rename_i hfree
        have hnone : w.marker = none := by simpa using hfree
        apply h.setMaintenance
        · intro other he hother
          have hmarker := h.marker other hother
          rw [hnone] at hmarker
          cases hmarker
        · intro _
          rfl
        · intro file hfile
          cases hfile
        · exact Or.inl rfl
        · intro held replacement hheld
          cases hheld
    split
    · exact hcreate
    · exact hcreate
    · exact h

theorem openImage_ok {failure : Option String} {file : ℕ} (h : openImage w failure = .ok file) :
    w.image = some file := by
  unfold openImage at h
  split at h
  · cases h
  · cases h
  · rename_i hfile
    rw [hfile, Except.ok.inj h]

theorem openImage_notFound {failure : Option String}
    (h : openImage w failure = .error .notFound) : w.image = none := by
  unfold openImage at h
  split at h
  · cases h
  · assumption
  · cases h

theorem inv_openForUpdate (h : Inv w) (id : ℕ) (failure : Option String) :
    Inv (openForUpdate w id failure) := by
  unfold openForUpdate
  split
  · rename_i hmarked
    have hmarker : (w.maintenance id).hasMarker = true := by rw [hmarked]; rfl
    split
    · rename_i hfound
      apply h.advance hmarker
      · intro file hfile
        cases hfile
      · intro held replacement _ call file hcall
        have himage := h.leased call file hcall
        rw [openImage_notFound hfound] at himage
        cases himage
    · exact h.leave hmarker rfl
    · rename_i file hfile
      apply h.advance hmarker
      · intro file' hfile'
        rw [← Maintenance.opened.inj hfile']
        exact openImage_ok hfile
      · intro held replacement hheld
        cases hheld
  · exact h

/-- The exclusive lock on the image is refused while a lease is live. -/
theorem noLease_of_free (h : Inv w) {file : ℕ} (himage : w.image = some file)
    (hfree : conflicts w file true = false) : NoLease w := by
  intro call file' hcall
  have hfile := h.leased call file' hcall
  rw [himage] at hfile
  have hlock := h.locks call file' (by rw [hcall]; rfl)
  rw [← Option.some.inj hfile] at hlock
  rw [conflicts, List.any_eq_false] at hfree
  exact hfree _ hlock (by simp)

theorem inv_lockForUpdate (h : Inv w) (id : ℕ) (expired : Bool) (failure : Option String) :
    Inv (lockForUpdate w id expired failure) := by
  unfold lockForUpdate
  split
  · rename_i file hfile
    have hmarker : (w.maintenance id).hasMarker = true := by rw [hfile]; rfl
    split
    · rename_i w' hlock
      obtain ⟨hfree, hw'⟩ := lockImage_ok hlock
      have hnone : NoLease w := noLease_of_free h (h.opened id file hfile) hfree
      have hlocked := h.lock ⟨.maintenance id, file, true⟩
      rw [← hw'] at hlocked
      apply hlocked.advance
      · rw [hw']
        exact hmarker
      · intro file' hfile'
        cases hfile'
      · intro held replacement _
        rw [hw']
        exact hnone
    · split
      · exact h.leave hmarker rfl
      · split
        · exact h.leave hmarker rfl
        · apply h.advance hmarker
          · intro file' hfile'
            cases hfile'
          · intro held replacement hheld
            cases hheld
  · exact h

theorem inv_replaceFile (h : Inv w) (id : ℕ) (backup : String) (outcome : ReplaceOutcome) :
    Inv (replaceFile w id backup outcome) := by
  unfold replaceFile
  split
  · rename_i image hheld
    split
    · exact h.replace hheld _ _
    · exact h.replace hheld _ _
    · exact h.replace hheld _ _
    · exact h.replace hheld _ _
  · rename_i image finished hheld
    split
    · exact h.replace hheld _ _
    · exact h.replace hheld _ _
    · exact h.replace hheld _ _
    · exact h.replace hheld _ _
  · exact h

theorem inv_restoreBackup (h : Inv w) (id : ℕ) (failure : Option String) :
    Inv (restoreBackup w id failure) := by
  unfold restoreBackup
  split
  · rename_i image previous backup error hheld
    split
    · exact h.replace hheld _ _
    · exact h.replace hheld _ _
  · exact h

theorem inv_writeMetadata (h : Inv w) (id : ℕ) (failure : Option String) :
    Inv (writeMetadata w id failure) := by
  unfold writeMetadata
  split
  · rename_i image previous backup hheld
    split
    · exact h.replace hheld _ _
    · exact h.replace hheld _ _
  · exact h

theorem inv_rollBack (h : Inv w) (id : ℕ) (failure : Option String) :
    Inv (rollBack w id failure) := by
  unfold rollBack
  split
  · rename_i image previous backup error hheld
    split
    · exact h.replace hheld _ _
    · exact h.replace hheld _ _
  · exact h

theorem inv_dropMarker (h : Inv w) (id : ℕ) : Inv (dropMarker w id) := by
  unfold dropMarker
  split
  · rename_i image replacement hheld
    exact h.leave (by rw [hheld]; rfl) rfl
  · exact h

/-- The locks of an update are of no account to the calls. -/
theorem Inv.unlock (h : Inv w) (id : ℕ) : Inv (w.unlock (.maintenance id)) where
  marker := h.marker
  opened := h.opened
  locks := fun call file hcall => mem_unlock (h.locks call file hcall) (by simp)
  leased := h.leased
  exclusive := h.exclusive

theorem inv_dropImage (h : Inv w) (id : ℕ) : Inv (dropImage w id) := by
  unfold dropImage
  split
  · exact (h.unlock id).refused rfl
  · exact h

end Updates

section Runs

theorem inv_step (w : World) (action : Action) (h : Inv w) (hcurrent : GrantsCurrent w action) :
    Inv (step w action) := by
  cases action with
  | probe id hasPath failure => exact inv_probe h id hasPath failure
  | openForOperation id failure => exact inv_openForOperation h id failure
  | lockForOperation id failure => exact inv_lockForOperation h id failure
  | probeAgain id failure => exact inv_probeAgain h hcurrent
  | dropLease id => exact inv_dropLease h id
  | createMarker id failure => exact inv_createMarker h id failure
  | openForUpdate id failure => exact inv_openForUpdate h id failure
  | lockForUpdate id expired failure => exact inv_lockForUpdate h id expired failure
  | replaceFile id backup outcome => exact inv_replaceFile h id backup outcome
  | restoreBackup id failure => exact inv_restoreBackup h id failure
  | writeMetadata id failure => exact inv_writeMetadata h id failure
  | rollBack id failure => exact inv_rollBack h id failure
  | dropMarker id => exact inv_dropMarker h id
  | dropImage id => exact inv_dropImage h id

/-- Some update is held. -/
def Held (w : World) : Prop := ∃ id image replacement, w.maintenance id = .held image replacement

theorem image_lockImage {owner : Owner} {file : ℕ} {exclusive : Bool} {failure : Option String}
    {w' : World} (h : lockImage w owner file exclusive failure = .ok w') : w'.image = w.image := by
  rw [(lockImage_ok h).2]

/-- Only a held update changes the image. -/
theorem image_step (w : World) (action : Action) : (step w action).image = w.image ∨ Held w := by
  cases action with
  | probe id hasPath failure =>
    left
    simp only [step, probe]
    split <;> first | rfl | (split <;> first | rfl | (split <;> rfl))
  | openForOperation id failure =>
    left
    simp only [step, openForOperation]
    split <;> first | rfl | (split <;> rfl)
  | lockForOperation id failure =>
    left
    simp only [step, lockForOperation]
    split
    · split
      · rfl
      · rename_i w' hlock
        have himage : w'.image = w.image := image_lockImage hlock
        exact himage
    · rfl
  | probeAgain id failure =>
    left
    simp only [step, probeAgain]
    split <;> first | rfl | (split <;> rfl)
  | dropLease id =>
    left
    simp only [step, dropLease]
    split <;> rfl
  | createMarker id failure =>
    left
    simp only [step, createMarker]
    split <;> first | rfl | (split <;> first | rfl | (split <;> rfl))
  | openForUpdate id failure =>
    left
    simp only [step, openForUpdate]
    split <;> first | rfl | (split <;> rfl)
  | lockForUpdate id expired failure =>
    left
    simp only [step, lockForUpdate]
    split
    · split
      · rename_i w' hlock
        have himage : w'.image = w.image := image_lockImage hlock
        exact himage
      · split <;> first | rfl | (split <;> rfl)
    · rfl
  | replaceFile id backup outcome =>
    simp only [step, replaceFile]
    split
    · rename_i image hheld
      exact Or.inr ⟨id, _, _, hheld⟩
    · rename_i image finished hheld
      exact Or.inr ⟨id, _, _, hheld⟩
    · exact Or.inl rfl
  | restoreBackup id failure =>
    simp only [step, restoreBackup]
    split
    · rename_i hheld
      exact Or.inr ⟨id, _, _, hheld⟩
    · exact Or.inl rfl
  | writeMetadata id failure =>
    simp only [step, writeMetadata]
    split
    · rename_i hheld
      exact Or.inr ⟨id, _, _, hheld⟩
    · exact Or.inl rfl
  | rollBack id failure =>
    simp only [step, rollBack]
    split
    · rename_i hheld
      exact Or.inr ⟨id, _, _, hheld⟩
    · exact Or.inl rfl
  | dropMarker id =>
    left
    simp only [step, dropMarker]
    split <;> rfl
  | dropImage id =>
    left
    simp only [step, dropImage]
    split <;> rfl

theorem Inv.unreplaced (h : Inv w) (action : Action) : Unreplaced w action := by
  intro hchanged
  rcases image_step w action with himage | ⟨id, image, replacement, hheld⟩
  · exact absurd himage hchanged
  · exact h.exclusive id image replacement hheld

/-- While leases are granted on the image at the path, a held update and a lease exclude each other. -/
theorem updates_exclude_leases {installed : Bool} {actions : List Action}
    (h : Throughout step GrantsCurrent (World.start installed) actions) :
    Throughout step (fun w action => Exclusive (step w action) ∧ Unreplaced w action)
      (World.start installed) actions := by
  apply Throughout.strengthen inv_step _ (inv_start installed) h
  intro w action hinv hcurrent
  exact ⟨(inv_step w action hinv hcurrent).exclusive, hinv.unreplaced action⟩

/-- A call gets its lease, an update waits for it, and then replaces the image. -/
def drained : List Action :=
  [.probe 0 true none, .openForOperation 0 none, .lockForOperation 0 none, .probeAgain 0 none,
    .createMarker 0 none, .openForUpdate 0 none, .lockForUpdate 0 false none, .dropLease 0,
    .openForUpdate 0 none, .lockForUpdate 0 false none, .replaceFile 0 "previous" .replaced]

theorem updates_exclude_leases_drained :
    Throughout step (fun w action => Exclusive (step w action) ∧ Unreplaced w action)
      (World.start true) drained := by
  apply updates_exclude_leases
  refine ⟨trivial, trivial, trivial, ?_, trivial, trivial, trivial, trivial, trivial, trivial,
    trivial, trivial⟩
  intro file hfile _
  have hlocked : (run step (World.start true) (drained.take 3)).operations 0 = .locked 0 := rfl
  have hsame : Operation.locked 0 = .locked file := hlocked.symm.trans hfile
  rw [← Operation.locked.inj hsame]
  rfl

/-- A call that opens the image before an update and locks it afterwards. -/
def overtaken : List Action :=
  [.probe 0 true none, .openForOperation 0 none, .createMarker 0 none, .openForUpdate 0 none,
    .lockForUpdate 0 false none, .replaceFile 0 "previous" .replaced, .writeMetadata 0 none,
    .dropMarker 0, .dropImage 0, .lockForOperation 0 none, .probeAgain 0 none,
    .createMarker 1 none, .openForUpdate 1 none]

/-- The lease on the replaced file lives on while the next update is held. -/
theorem overtaken_lease_survives : ¬ Throughout step
    (fun w action => Exclusive (step w action) ∧ Unreplaced w action)
    (World.start true) (overtaken ++ [Action.lockForUpdate 1 false none]) := by
  intro h
  have hlast := ((throughout_iff _ _).mp h overtaken (.lockForUpdate 1 false none) [] rfl).1
  exact hlast 1 (some 1) .none rfl 0 0 rfl

end Runs

end ProUpdate
