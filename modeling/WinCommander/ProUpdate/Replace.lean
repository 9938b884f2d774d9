import Mathlib.Data.String.Basic
import Mathlib.Logic.Function.Basic
import Mathlib.Tactic.ByContra

/-!
# The replacement of the installed image

The staged image is put in the place of the installed one, and a record of it is written.  Each call of
the system may fail, and a failed replacement may have moved the old image to the backup.
-/

namespace ProReplace

variable {α : Type}

section Disk

abbrev Files (α : Type) := String → Option α

structure Paths where
  target : String
  staged : String
  backup : String
  metadata : String
  temporary : String
  distinct : [target, staged, backup, metadata, temporary].Nodup

/-- What becomes of a replacement. -/
inductive Fate where
  | done
  | refused (error : String)
  | moved (error : String)

/-- What becomes of the record, and what a failed attempt leaves at the temporary path. -/
inductive MetadataFate (α : Type) where
  | done
  | failed (error : String) (left : Option α)

/-- What the system does in the course of one call. -/
structure Fates (α : Type) where
  first : Fate
  metadata : MetadataFate α
  rollback : Fate
  removal : Option String
  cleanup : Option String

/-- A replacement without a backup that fails halfway has removed the old file. -/
def replaceFile (files : Files α) (target replacement : String) (backup : Option String) :
    Fate → Except String Unit × Files α
  | .done =>
    match files replacement with
    | none => (.error "The system cannot find the file specified. (os error 2)", files)
    | some image =>
      let saved := backup.elim files fun b => Function.update files b (files target)
      (.ok (), Function.update (Function.update saved target (some image)) replacement none)
  | .refused error => (.error error, files)
  | .moved error =>
    let saved := backup.elim files fun b => Function.update files b (files target)
    (.error error, Function.update saved target none)

def removeFile (files : Files α) (path : String) (fault : Option String) :
    Except String Unit × Files α :=
  match files path, fault with
  | none, _ => (.error "The system cannot find the file specified. (os error 2)", files)
  | some _, some error => (.error error, files)
  | some _, none => (.ok (), Function.update files path none)

def writeMetadata (paths : Paths) (bytes : α) (files : Files α) :
    MetadataFate α → Except String Unit × Files α
  | .done => (.ok (), Function.update files paths.metadata (some bytes))
  | .failed error left => (.error error, Function.update files paths.temporary left)

end Disk

section Replace

/-- A replacement that failed is undone where the backup is there. -/
def undoReplacement (paths : Paths) (fates : Fates α) (hadPrevious : Bool) (error : String)
    (files : Files α) : Except String Unit × Files α :=
  if hadPrevious && (files paths.backup).isSome then
    match replaceFile files paths.target paths.backup none fates.rollback with
    | (.ok _, files) =>
      (.error s!"disk:Pro replacement failed: {error}. The previous Pro binary was restored.", files)
    | (.error rollback, files) =>
      (.error s!"disk:Pro replacement failed: {error}. Restoration failed: {rollback}. The backup remains at {paths.backup}. Repair Pro before retrying.", files)
  else
    (.error s!"disk:Pro replacement failed: {error}. Installation was not confirmed; retry the Pro update.", files)

def rollBack (paths : Paths) (fates : Fates α) (hadPrevious : Bool) (error : String)
    (files : Files α) : Except String Unit × Files α :=
  match if hadPrevious then replaceFile files paths.target paths.backup none fates.rollback
    else removeFile files paths.target fates.removal with
  | (.ok _, files) => (.error s!"{error}. The previous Pro installation was restored.", files)
  | (.error rollback, files) =>
    (.error s!"{error}. Pro rollback failed: {rollback}. The backup was preserved at {paths.backup}.", files)

def replaceWithMetadata (paths : Paths) (bytes : α) (fates : Fates α) (files : Files α) :
    Except String Unit × Files α :=
  let hadPrevious := (files paths.target).isSome
  let backup := if hadPrevious then some paths.backup else none
  match replaceFile files paths.target paths.staged backup fates.first with
  | (.error error, files) => undoReplacement paths fates hadPrevious error files
  | (.ok _, files) =>
    match writeMetadata paths bytes files fates.metadata with
    | (.error error, files) => rollBack paths fates hadPrevious error files
    | (.ok _, files) =>
      (.ok (), if hadPrevious then (removeFile files paths.backup fates.cleanup).2 else files)

end Replace

section Property

def Names (error path : String) : Prop := ∃ before after, error = before ++ path ++ after

/-- All of the replacement, or nothing of it. -/
structure AllOrNothing (paths : Paths) (bytes : α) (before : Files α) (result : Except String Unit)
    (after : Files α) : Prop where
  committed : result = .ok () → (before paths.staged).isSome = true ∧
    after paths.target = before paths.staged ∧ after paths.metadata = some bytes
  undone : ∀ error, result = .error error →
    after paths.target = before paths.target ∧ after paths.metadata = before paths.metadata ∨
    ∃ image, before paths.target = some image ∧ after paths.backup = some image ∧
      Names error paths.backup
  matched : after paths.metadata = before paths.metadata ∨ after paths.target = before paths.staged

/-- A first installation whose record cannot be written and whose image cannot be removed again. -/
def Stranded (paths : Paths) (fates : Fates α) (files : Files α) : Prop :=
  files paths.target = none ∧ (files paths.staged).isSome = true ∧ fates.first = .done ∧
    (∃ error left, fates.metadata = .failed error left) ∧ fates.removal.isSome = true

variable {paths : Paths} {bytes : α} {fates : Fates α} {files : Files α}

theorem Paths.ne (paths : Paths) : paths.target ≠ paths.staged ∧ paths.target ≠ paths.backup ∧
    paths.target ≠ paths.metadata ∧ paths.target ≠ paths.temporary ∧ paths.staged ≠ paths.backup ∧
    paths.staged ≠ paths.metadata ∧ paths.backup ≠ paths.metadata ∧ paths.backup ≠ paths.temporary ∧
    paths.metadata ≠ paths.temporary := by
  have hdistinct := paths.distinct
  simp only [List.nodup_cons, List.mem_cons, List.not_mem_nil, or_false, not_or] at hdistinct
  obtain ⟨⟨hts, htb, htm, htt⟩, ⟨hsb, hsm, -⟩, ⟨hbm, hbt⟩, hmt, -⟩ := hdistinct
  exact ⟨hts, htb, htm, htt, hsb, hsm, hbm, hbt, hmt⟩

/-- What a failure may end in. -/
def Undone (paths : Paths) (before : Files α) (outcome : Except String Unit × Files α) : Prop :=
  ∃ error, outcome.1 = .error error ∧ outcome.2 paths.metadata = before paths.metadata ∧
    (outcome.2 paths.target = before paths.target ∨
      ∃ image, before paths.target = some image ∧ outcome.2 paths.backup = some image ∧
        Names error paths.backup)

theorem Undone.allOrNothing {outcome : Except String Unit × Files α}
    (h : Undone paths files outcome) : AllOrNothing paths bytes files outcome.1 outcome.2 := by
  obtain ⟨error, herror, hmetadata, hend⟩ := h
  constructor
  case committed => exact fun hok => absurd (herror.symm.trans hok) (by simp)
  case undone =>
    intro error' herror'
    obtain rfl : error = error' := Except.error.inj (herror.symm.trans herror')
    exact hend.imp_left fun htarget => ⟨htarget, hmetadata⟩
  case matched => exact .inl hmetadata

theorem names_mid (before path after : String) : Names (before ++ path ++ after) path :=
  ⟨before, after, rfl⟩

/-- Putting the backup back ends with the old image at the target, or leaves the backup. -/
theorem restore_cases (fate : Fate) {image : α} (hbackup : files paths.backup = some image) :
    (∃ after, replaceFile files paths.target paths.backup none fate = (.ok (), after) ∧
      after paths.target = some image ∧ after paths.metadata = files paths.metadata) ∨
    ∃ error after, replaceFile files paths.target paths.backup none fate = (.error error, after) ∧
      after paths.backup = some image ∧ after paths.metadata = files paths.metadata := by
  obtain ⟨-, htb, htm, -, -, -, hbm, -, -⟩ := paths.ne
  cases fate with
  | done =>
    left
    simp only [replaceFile, hbackup, Option.elim_none]
    exact ⟨_, rfl, by simp [htb], by simp [htm.symm, hbm.symm]⟩
  | refused error => exact .inr ⟨error, files, rfl, hbackup, rfl⟩
  | moved error =>
    right
    exact ⟨error, _, rfl, by simp [htb.symm, hbackup], by simp [htm.symm]⟩

/-- A replacement that failed is undone, or the backup is named. -/
theorem undoReplacement_undone {before : Files α} (error : String)
    (hmetadata : files paths.metadata = before paths.metadata)
    (hkept : files paths.target = before paths.target ∧ files paths.backup = none ∨
      ∃ image, before paths.target = some image ∧ files paths.backup = some image) :
    Undone paths before
      (undoReplacement paths fates (before paths.target).isSome error files) := by
  rcases hkept with ⟨htarget, hbackup⟩ | ⟨image, htarget, hbackup⟩
  · rw [undoReplacement, if_neg (by simp [hbackup])]
    exact ⟨_, rfl, hmetadata, .inl htarget⟩
  · rw [undoReplacement, if_pos (by simp [hbackup, htarget])]
    rcases restore_cases fates.rollback hbackup with ⟨after, hafter, hback, hsame⟩ |
      ⟨rollback, after, hafter, hback, hsame⟩
    · rw [hafter]
      exact ⟨_, rfl, hsame.trans hmetadata, .inl (hback.trans htarget.symm)⟩
    · rw [hafter]
      refine ⟨_, rfl, hsame.trans hmetadata, .inr ⟨image, htarget, hback, ?_⟩⟩
      exact names_mid (_ ++ rollback ++ ". The backup remains at ") _ _

/-- A record that cannot be written is followed by the old image, unless there was none. -/
theorem rollBack_undone {before : Files α} (error : String)
    (hmetadata : files paths.metadata = before paths.metadata)
    (hinstalled : (files paths.target).isSome = true)
    (hkept : ∀ image, before paths.target = some image → files paths.backup = some image)
    (hremoved : before paths.target = none → fates.removal = none) :
    Undone paths before (rollBack paths fates (before paths.target).isSome error files) := by
  obtain ⟨-, -, htm, -⟩ := paths.ne
  cases htarget : before paths.target with
  | some image =>
    rw [rollBack, Option.isSome_some, if_pos rfl]
    rcases restore_cases fates.rollback (hkept image htarget) with ⟨after, hafter, hback, hsame⟩ |
      ⟨rollback, after, hafter, hback, hsame⟩
    · rw [hafter]
      exact ⟨_, rfl, hsame.trans hmetadata, .inl (hback.trans htarget.symm)⟩
    · rw [hafter]
      refine ⟨_, rfl, hsame.trans hmetadata, .inr ⟨image, htarget, hback, ?_⟩⟩
      exact names_mid (error ++ ". Pro rollback failed: " ++ rollback ++ ". The backup was preserved at ")
        _ _
  | none =>
    obtain ⟨installed, hsome⟩ := Option.isSome_iff_exists.mp hinstalled
    have hgone : removeFile files paths.target fates.removal =
        (.ok (), Function.update files paths.target none) := by
      simp only [removeFile, hremoved htarget, hsome]
    rw [rollBack, Option.isSome_none, if_neg (by simp), hgone]
    refine ⟨_, rfl, ?_, .inl ?_⟩
    · exact (Function.update_of_ne htm.symm ..).trans hmetadata
    · exact (Function.update_self ..).trans htarget.symm

/-- The first replacement: the staged image is at the target, or nothing of the old one is lost. -/
theorem first_cases (files : Files α) (hfresh : files paths.backup = none) (fate : Fate) :
    let outcome := replaceFile files paths.target paths.staged
      (if (files paths.target).isSome then some paths.backup else none) fate
    outcome.2 paths.metadata = files paths.metadata ∧
      ((fate = .done ∧ outcome.1 = .ok () ∧ (files paths.staged).isSome = true ∧
          outcome.2 paths.target = files paths.staged ∧
          ∀ image, files paths.target = some image → outcome.2 paths.backup = some image) ∨
        ∃ error, outcome.1 = .error error ∧ (fate = .done → files paths.staged = none) ∧
          (outcome.2 paths.target = files paths.target ∧ outcome.2 paths.backup = none ∨
            ∃ image, files paths.target = some image ∧ outcome.2 paths.backup = some image)) := by
  obtain ⟨hts, htb, htm, -, hsb, hsm, hbm, -, -⟩ := paths.ne
  cases htarget : files paths.target with
  | none =>
    cases fate with
    | done =>
      cases hstaged : files paths.staged with
      | none => simp [replaceFile, hstaged, htarget, hfresh]
      | some image => simp [replaceFile, hstaged, hts, htm.symm, hsm.symm]
    | refused error => simp [replaceFile, htarget, hfresh]
    | moved error => simp [replaceFile, htm.symm, htb.symm, hfresh]
  | some previous =>
    cases fate with
    | done =>
      cases hstaged : files paths.staged with
      | none => simp [replaceFile, hstaged, htarget, hfresh]
      | some image =>
        simp [replaceFile, hstaged, htarget, hts, htm.symm, hsm.symm, hbm.symm, htb.symm, hsb.symm]
    | refused error => simp [replaceFile, htarget, hfresh]
    | moved error => simp [replaceFile, htarget, htm.symm, hbm.symm, htb.symm]

theorem writeMetadata_failed {error : String} {left : Option α} (h : fates.metadata = .failed error left) :
    writeMetadata paths bytes files fates.metadata =
      (.error error, Function.update files paths.temporary left) := by
  rw [h]
  rfl

theorem removeFile_of_ne {path other : String} (fault : Option String) (hne : other ≠ path) :
    (removeFile files path fault).2 other = files other := by
  rw [removeFile.eq_def]
  split
  · rfl
  · rfl
  · exact Function.update_of_ne hne ..

/-- The image that was put first cannot be taken away again. -/
theorem rollBack_stranded {before : Files α} (error : String) (htarget : before paths.target = none)
    (hinstalled : (files paths.target).isSome = true) (hremoval : fates.removal.isSome = true) :
    ¬ AllOrNothing paths bytes before
      (rollBack paths fates (before paths.target).isSome error files).1
      (rollBack paths fates (before paths.target).isSome error files).2 := by
  obtain ⟨installed, hsome⟩ := Option.isSome_iff_exists.mp hinstalled
  obtain ⟨fault, hfault⟩ := Option.isSome_iff_exists.mp hremoval
  have hkept : removeFile files paths.target fates.removal = (.error fault, files) := by
    simp only [removeFile, hfault, hsome]
  rw [htarget, rollBack, Option.isSome_none, if_neg (by simp), hkept]
  intro h
  rcases h.undone _ rfl with ⟨hback, -⟩ | ⟨image, himage, -⟩
  · exact absurd (hback.symm.trans hsome) (by simp [htarget])
  · exact absurd (htarget.symm.trans himage) (by simp)

/-- A replacement is all or nothing unless a first installation is stranded. -/
theorem replaceWithMetadata_allOrNothing_iff {α : Type} (paths : Paths) (bytes : α) (fates : Fates α)
    (files : Files α) (hfresh : files paths.backup = none) :
    AllOrNothing paths bytes files (replaceWithMetadata paths bytes fates files).1
        (replaceWithMetadata paths bytes fates files).2 ↔
      ¬ Stranded paths fates files := by
  obtain ⟨hts, htb, htm, htt, hsb, hsm, hbm, hbt, hmt⟩ := paths.ne
  obtain ⟨hmetadata, hfirst⟩ := first_cases files hfresh fates.first
  rw [replaceWithMetadata]
  generalize replaceFile files paths.target paths.staged
    (if (files paths.target).isSome then some paths.backup else none) fates.first = outcome at *
  obtain ⟨result, after⟩ := outcome
  rcases hfirst with ⟨hdone, rfl, hstaged, htarget, hbackup⟩ | ⟨error, rfl, hnone, hkept⟩
  · dsimp only at hmetadata htarget hbackup
    cases hrecord : fates.metadata with
    | done =>
      have hnot : ¬ Stranded paths fates files := by
        rintro ⟨-, -, -, ⟨error, left, hfailed⟩, -⟩
        exact absurd (hrecord.symm.trans hfailed) (by simp)
      refine iff_of_true ?_ hnot
      have hend : ∀ path, path ≠ paths.backup →
          (if (files paths.target).isSome then (removeFile (Function.update after paths.metadata
            (some bytes)) paths.backup fates.cleanup).2
            else Function.update after paths.metadata (some bytes)) path =
          Function.update after paths.metadata (some bytes) path := by
        intro path hne
        split
        · exact removeFile_of_ne _ hne
        · rfl
      have hput := (hend paths.target htb).trans ((Function.update_of_ne htm ..).trans htarget)
      constructor
      case committed =>
        exact fun _ => ⟨hstaged, hput, (hend paths.metadata hbm.symm).trans (Function.update_self ..)⟩
      case undone => exact fun error herror => absurd herror (by simp [writeMetadata])
      case matched => exact .inr hput
    | failed error left =>
      have hinstalled : (Function.update after paths.temporary left paths.target).isSome = true := by
        rw [Function.update_of_ne htt, htarget]
        exact hstaged
      show AllOrNothing paths bytes files (rollBack paths fates (files paths.target).isSome error
          (Function.update after paths.temporary left)).1 (rollBack paths fates
          (files paths.target).isSome error (Function.update after paths.temporary left)).2 ↔ _
      by_cases hstranded : Stranded paths fates files
      · obtain ⟨hnone, -, -, -, hremoval⟩ := hstranded
        exact iff_of_false (rollBack_stranded error hnone hinstalled hremoval)
          (not_not.mpr ⟨hnone, hstaged, hdone, ⟨error, left, hrecord⟩, hremoval⟩)
      · refine iff_of_true (Undone.allOrNothing ?_) hstranded
        apply rollBack_undone error _ hinstalled
        · intro image himage
          exact (Function.update_of_ne hbt ..).trans (hbackup image himage)
        · intro hnone
          by_contra hremoval
          exact hstranded ⟨hnone, hstaged, hdone, ⟨error, left, hrecord⟩,
            Option.isSome_iff_ne_none.mpr hremoval⟩
        · exact (Function.update_of_ne hmt ..).trans hmetadata
  · have hnot : ¬ Stranded paths fates files := by
      rintro ⟨-, hsome, hdone, -⟩
      rw [hnone hdone] at hsome
      exact absurd hsome (by simp)
    exact iff_of_true (undoReplacement_undone error hmetadata hkept).allOrNothing hnot

/-- The files of a first installation, before it. -/
def firstInstall : Files String := Function.update (fun _ => none) "pro.tmp" (some "verified replacement")

def installPaths : Paths where
  target := "pro.exe"
  staged := "pro.tmp"
  backup := "pro.1.previous"
  metadata := "pro-install.json"
  temporary := ".pro-install.json.1.tmp"
  distinct := by decide

theorem firstInstall_allOrNothing :
    AllOrNothing installPaths "3.6.4" firstInstall
        (replaceWithMetadata installPaths "3.6.4" ⟨.done, .done, .done, none, none⟩ firstInstall).1
        (replaceWithMetadata installPaths "3.6.4" ⟨.done, .done, .done, none, none⟩ firstInstall).2 ↔
      ¬ Stranded installPaths ⟨.done, .done, .done, none, none⟩ firstInstall :=
  replaceWithMetadata_allOrNothing_iff installPaths "3.6.4" ⟨.done, .done, .done, none, none⟩
    firstInstall (by decide)

def metadataDenied : Fates String :=
  ⟨.done, .failed "disk:metadata atomic replace failed" none, .done, some "Access is denied. (os error 5)",
    none⟩

/-- The new image stays without its record, and the backup that the error names was never made. -/
theorem firstInstall_stranded : ¬ ∀ (fates : Fates String) (files : Files String),
    files installPaths.backup = none →
    AllOrNothing installPaths "3.6.4" files
      (replaceWithMetadata installPaths "3.6.4" fates files).1
      (replaceWithMetadata installPaths "3.6.4" fates files).2 := by
  intro h
  have hsound := h metadataDenied firstInstall (by decide)
  have herror : (replaceWithMetadata installPaths "3.6.4" metadataDenied firstInstall).1 =
      .error "disk:metadata atomic replace failed. Pro rollback failed: Access is denied. (os error 5). The backup was preserved at pro.1.previous." := by
    decide +kernel
  have htarget : (replaceWithMetadata installPaths "3.6.4" metadataDenied firstInstall).2
      installPaths.target = some "verified replacement" := by decide
  have hnone : firstInstall installPaths.target = none := by decide
  rcases hsound.undone _ herror with ⟨hback, -⟩ | ⟨image, himage, -⟩
  · exact absurd (htarget.symm.trans (hback.trans hnone)) (by simp)
  · exact absurd (hnone.symm.trans himage) (by simp)

end Property

end ProReplace
