import WinCommander.Authz.Capability
import WinCommander.Library.JsonText

/-!
# The renderer's dispatcher

A command of the renderer runs, is refused, or needs a token for its canonical arguments.  The arguments
are computed from the parameters while other programs may change the file system.
-/

namespace Authz

open Json Outcome

section Arguments

abbrev Params := AList fun _ : String => String

/-- What the file system answers during one call; a path may be resolved more than once. -/
structure FileSystem where
  canonicalize : ℕ → String → Option String
  fileIdentity : String → Option (UInt32 × UInt64)

def canonicalPath (fs : FileSystem) (time : ℕ) (path : String) : String :=
  (fs.canonicalize time path).getD path

def text (v : Value) : String := String.ofList v.write

def identityValue : Option (UInt32 × UInt64) → Value
  | none => .null
  | some (volume, index) =>
      .array [.number (.ofInt volume.toNat), .number (.ofInt index.toNat)]

/-- The text of a command on a path that is already canonical. -/
def boundArgs (fileIdentity : String → Option (UInt32 × UInt64)) (command canonical : String) :
    String :=
  text (.array [.string command, .string canonical, identityValue (fileIdentity canonical)])

def pathBoundArgs (fs : FileSystem) (time : ℕ) (command path : String) : String :=
  boundArgs fs.fileIdentity command (canonicalPath fs time path)

def secureEraseArgs (fs : FileSystem) (time : ℕ) (path : String) : String :=
  pathBoundArgs fs time "Invoke-7Erase" path

def freeSpaceEraseArgs (driveLetter mediaType : String) : String :=
  text (.array [.string "Invoke-UnallocatedSpaceErase", .string driveLetter, .string mediaType])

def supported (params : Params) (keys : List String) : Bool := params.keys.all fun key => keys.contains key

/-- The canonical arguments of a secure erase, and the parameters that are sent on. -/
def secureErase (fs : FileSystem) (params : Params) : Except String (String × Params) := do
  refuseIf (supported params ["Path", "Type"] = false) "Invoke-7Erase received unsupported parameters"
  refuseIf ((params.lookup "Type").getD "File" ≠ "File")
    "Invoke-7Erase is restricted to file and folder targets"
  let params := params.insert "Type" "File"
  let path ← okOr ((params.lookup "Path").filter fun value => ¬ Blank value)
    "Invoke-7Erase requires Path"
  let canonical := canonicalPath fs 0 path
  pure (secureEraseArgs fs 1 canonical, params.insert "Path" canonical)

def freeSpaceErase (params : Params) : Except String (String × Params) := do
  refuseIf (supported params ["DriveLetter", "MediaType"] = false)
    "Invoke-UnallocatedSpaceErase received unsupported parameters"
  pure (freeSpaceEraseArgs ((params.lookup "DriveLetter").getD "C")
    ((params.lookup "MediaType").getD "Unknown"), params)

def canonicalArgs (fs : FileSystem) (command : String) (params : Params) :
    Except String (String × Params) :=
  if command = "Invoke-7Erase" then secureErase fs params
  else if command = "Invoke-UnallocatedSpaceErase" then freeSpaceErase params
  else .error "unsupported destructive backend command"

end Arguments

section Policy

inductive Risk where
  | readOnly
  | mutating
  | destructive
  deriving DecidableEq

inductive BackendDispatchPolicy where
  | ordinary
  | capability (action : DestructiveAction)
  | nativeConfirmation
  | internalOnly
  deriving DecidableEq

def internalLockdownCommands : List String :=
  ["run_destruct_step", "Remove-LocalUsers", "Destroy-VeraCryptHeader", "Clear-BitLockerKeyProtectors",
    "Invoke-7Wipe", "Clear-MFTResidentSlack"]

def isInternalLockdownCommand (command : String) : Bool := internalLockdownCommands.contains command

/-- The catalogue gives the risk of each registered command. -/
def backendDispatchPolicy (backendScriptRisk : String → Option Risk) (command : String) :
    BackendDispatchPolicy :=
  if isInternalLockdownCommand command then .internalOnly
  else if command = "Invoke-7Erase" then .capability .diskDelete
  else if command = "Invoke-UnallocatedSpaceErase" then .capability .cryptoErase
  else match backendScriptRisk command with
    | some .readOnly | some .mutating => .ordinary
    | some .destructive => .nativeConfirmation
    | none => .internalOnly

variable {Digest : Type} [DecidableEq Digest] (hashArgs : String → Digest)
  (backendScriptRisk : String → Option Risk)

/-- The parameters that a dispatch of the command is authorised for. -/
def authorizeBackendDispatch (command : String) (params : Params) (fs : FileSystem)
    (s : Store Digest) : Except String Params × Store Digest :=
  match backendDispatchPolicy backendScriptRisk command with
  | .ordinary => (.ok params, s)
  | .internalOnly =>
      (.error s!"{command} is available only through the Rust-owned lockdown path", s)
  | .nativeConfirmation => (.error s!"{command} requires interactive native confirmation", s)
  | .capability action =>
      let token := params.lookup "CapabilityToken"
      match canonicalArgs fs command (params.erase "CapabilityToken") with
      | .error e => (.error e, s.present token)
      | .ok (args, sent) =>
          let (outcome, s') := consumeRequired hashArgs token action args (s.present token)
          (outcome.map fun _ => sent, s')

end Policy

section Runs

inductive Call where
  | wait (nanoseconds : ℕ)
  | mint (token : String) (action : DestructiveAction) (argsCanonical : String)
  | consume (token : Option String) (action : DestructiveAction) (argsCanonical : String)
  | dispatch (command : String) (params : Params) (fs : FileSystem)

variable {Digest : Type} [DecidableEq Digest] (hashArgs : String → Digest)
  (backendScriptRisk : String → Option Risk)

@[grind =] def step (s : Store Digest) : Call → Store Digest
  | .wait nanoseconds => { s with now := s.now + nanoseconds }
  | .mint token action args => mint hashArgs token action args s
  | .consume token action args => (consumeRequired hashArgs token action args (s.present token)).2
  | .dispatch command params fs =>
      (authorizeBackendDispatch hashArgs backendScriptRisk command params fs s).2

/-- The canonical arguments that the parameters of a command say, nothing left to a default. -/
def dispatchedArgs (fileIdentity : String → Option (UInt32 × UInt64)) (command : String)
    (params : Params) : Option String :=
  if command = "Invoke-7Erase" then do
    guard (params.lookup "Type" = some "File")
    let path ← params.lookup "Path"
    pure (boundArgs fileIdentity command path)
  else if command = "Invoke-UnallocatedSpaceErase" then do
    let driveLetter ← params.lookup "DriveLetter"
    let mediaType ← params.lookup "MediaType"
    pure (freeSpaceEraseArgs driveLetter mediaType)
  else none

/-- Minted tokens are new. -/
def Fresh (s : Store Digest) : Call → Prop
  | .mint token _ _ => FreshToken s token
  | _ => True

/-- A token of the parameters covers a dispatch: it was minted in time for this action and for the
arguments that the dispatched parameters say, and was not presented before. -/
structure Covered (s : Store Digest) (action : DestructiveAction) (params : Params)
    (dispatched : Option String) (token argsCanonical : String) (time : ℕ) : Prop where
  supplied : params.lookup "CapabilityToken" = some token
  minted : .minted token action argsCanonical time ∈ s.history
  unpresented : .presented token ∉ s.history
  inTime : s.now - time < ttl
  dispatched : dispatched = some argsCanonical

/-- What a call must do. -/
structure Sound (s : Store Digest) (call : Call) : Prop where
  covered : ∀ command params fs action sent, call = .dispatch command params fs →
    backendDispatchPolicy backendScriptRisk command = .capability action →
    (authorizeBackendDispatch hashArgs backendScriptRisk command params fs s).1 = .ok sent →
      ∃ token args time,
        Covered s action params (dispatchedArgs fs.fileIdentity command sent) token args time
  spent : Spent (step hashArgs backendScriptRisk s call)
  external : ∀ command params fs sent, call = .dispatch command params fs →
    (authorizeBackendDispatch hashArgs backendScriptRisk command params fs s).1 = .ok sent →
      ∀ internal ∈ internalLockdownCommands, AsciiText.lower command ≠ AsciiText.lower internal

/-- The parameters that are sent say what the token is checked for: the resolved path resolves to
itself, or the drive and the kind of medium are both given. -/
def Settled (fs : FileSystem) (command : String) (params : Params) : Prop :=
  if command = "Invoke-7Erase" then
    ∀ path, params.lookup "Path" = some path →
      canonicalPath fs 1 (canonicalPath fs 0 path) = canonicalPath fs 0 path
  else params.lookup "DriveLetter" ≠ none ∧ params.lookup "MediaType" ≠ none

/-- A dispatch that presents a token of the store has arguments, and where the token opens them the
parameters say them. -/
def Careful (s : Store Digest) : Call → Prop
  | .dispatch command params fs => ∀ action token,
      backendDispatchPolicy backendScriptRisk command = .capability action →
      params.lookup "CapabilityToken" = some token → s.tokens token ≠ none →
        ∃ args sent, canonicalArgs fs command (params.erase "CapabilityToken") = .ok (args, sent) ∧
          (Opens hashArgs s token action args → Settled fs command params)
  | _ => True

end Runs

section Facts

variable {Digest : Type} [DecidableEq Digest] {hashArgs : String → Digest}
  {backendScriptRisk : String → Option Risk} {s : Store Digest} {command : String}
  {params sent : Params} {fs : FileSystem} {action : DestructiveAction} {args : String}

theorem text_injective {v w : Value} (h : text v = text w) : v = w :=
  Value.write_injective (String.ofList_injective h)

theorem boundArgs_injective {fileIdentity : String → Option (UInt32 × UInt64)} {p q : String}
    (h : boundArgs fileIdentity command p = boundArgs fileIdentity command q) : p = q := by
  have hvalues := text_injective h
  simp only [Value.array.injEq, List.cons.injEq, Value.string.injEq] at hvalues
  exact hvalues.2.1

theorem secureErase_ok (h : secureErase fs params = .ok (args, sent)) :
    ∃ path, params.lookup "Path" = some path ∧
      args = secureEraseArgs fs 1 (canonicalPath fs 0 path) ∧
      sent = (params.insert "Type" "File").insert "Path" (canonicalPath fs 0 path) := by
  rw [secureErase] at h
  obtain ⟨_, _, h⟩ := bind_ok.mp h
  obtain ⟨_, _, h⟩ := bind_ok.mp h
  obtain ⟨path, hpath, h⟩ := bind_ok.mp h
  have hlookup := (Option.filter_eq_some_iff.mp (okOr_ok.mp hpath)).1
  rw [AList.lookup_insert_ne (by decide)] at hlookup
  have hpair := Prod.mk.inj (pure_ok.mp h)
  exact ⟨path, hlookup, hpair.1.symm, hpair.2.symm⟩

theorem freeSpaceErase_ok (h : freeSpaceErase params = .ok (args, sent)) :
    args = freeSpaceEraseArgs ((params.lookup "DriveLetter").getD "C")
      ((params.lookup "MediaType").getD "Unknown") ∧ sent = params := by
  rw [freeSpaceErase] at h
  obtain ⟨_, _, h⟩ := bind_ok.mp h
  have hpair := Prod.mk.inj (pure_ok.mp h)
  exact ⟨hpair.1.symm, hpair.2.symm⟩

/-- The dispatched parameters say the arguments that were checked if they are settled. -/
theorem settled_iff
    (h : canonicalArgs fs command (params.erase "CapabilityToken") = .ok (args, sent)) :
    Settled fs command params ↔ dispatchedArgs fs.fileIdentity command sent = some args := by
  by_cases herase : command = "Invoke-7Erase"
  · subst herase
    rw [canonicalArgs, if_pos rfl] at h
    obtain ⟨path, hpath, rfl, rfl⟩ := secureErase_ok h
    rw [AList.lookup_erase_ne (by decide)] at hpath
    have hsent : dispatchedArgs fs.fileIdentity "Invoke-7Erase"
        (((params.erase "CapabilityToken").insert "Type" "File").insert "Path" (canonicalPath fs 0 path)) =
          some (boundArgs fs.fileIdentity "Invoke-7Erase" (canonicalPath fs 0 path)) := by
      simp [dispatchedArgs, AList.lookup_insert_ne, guard]
    rw [hsent, Settled, if_pos rfl, Option.some_inj, secureEraseArgs, pathBoundArgs]
    constructor
    · intro hsettled
      rw [hsettled path hpath]
    · intro hargs path' hpath'
      rw [hpath] at hpath'
      rw [← Option.some.inj hpath']
      exact (boundArgs_injective hargs).symm
  · by_cases hfree : command = "Invoke-UnallocatedSpaceErase"
    · subst hfree
      rw [canonicalArgs, if_neg herase, if_pos rfl] at h
      obtain ⟨rfl, rfl⟩ := freeSpaceErase_ok h
      rw [Settled, if_neg herase, dispatchedArgs, if_neg herase, if_pos rfl,
        AList.lookup_erase_ne (by decide), AList.lookup_erase_ne (by decide)]
      cases params.lookup "DriveLetter" with
      | none => simp
      | some driveLetter =>
        cases params.lookup "MediaType" with
        | none => simp
        | some mediaType => simp
    · rw [canonicalArgs, if_neg herase, if_neg hfree] at h
      cases h

/-- An authorised dispatch of a command that needs a token presents one that opens its arguments. -/
theorem authorize_ok (hpolicy : backendDispatchPolicy backendScriptRisk command = .capability action)
    (h : (authorizeBackendDispatch hashArgs backendScriptRisk command params fs s).1 = .ok sent) :
    ∃ token args, params.lookup "CapabilityToken" = some token ∧
      canonicalArgs fs command (params.erase "CapabilityToken") = .ok (args, sent) ∧
      Opens hashArgs s token action args := by
  rw [authorizeBackendDispatch, hpolicy] at h
  cases hargs : canonicalArgs fs command (params.erase "CapabilityToken") with
  | error e => simp [hargs] at h
  | ok result =>
    obtain ⟨args, sent'⟩ := result
    simp only [hargs] at h
    cases hconsume : (consumeRequired hashArgs (params.lookup "CapabilityToken") action args
      (s.present (params.lookup "CapabilityToken"))).1 with
    | error e => simp [hconsume, Except.map] at h
    | ok u =>
      rw [hconsume] at h
      have hsent : sent' = sent := Except.ok.inj h
      obtain ⟨token, htoken, _, hopens⟩ := consumeRequired_ok.mp hconsume
      exact ⟨token, args, htoken, by rw [hsent], hopens⟩

/-- A dispatch with arguments presents its token for consumption. -/
theorem authorize_consumes (hpolicy : backendDispatchPolicy backendScriptRisk command = .capability action)
    (hargs : canonicalArgs fs command (params.erase "CapabilityToken") = .ok (args, sent)) :
    (authorizeBackendDispatch hashArgs backendScriptRisk command params fs s).2 =
      (consumeRequired hashArgs (params.lookup "CapabilityToken") action args
        (s.present (params.lookup "CapabilityToken"))).2 := by
  simp only [authorizeBackendDispatch, hpolicy, hargs]

theorem authorize_accepts (hpolicy : backendDispatchPolicy backendScriptRisk command = .capability action)
    (hargs : canonicalArgs fs command (params.erase "CapabilityToken") = .ok (args, sent))
    {token : String} (htoken : params.lookup "CapabilityToken" = some token) (hnamed : ¬ Blank token)
    (hopens : Opens hashArgs s token action args) :
    (authorizeBackendDispatch hashArgs backendScriptRisk command params fs s).1 = .ok sent := by
  have hconsume : (consumeRequired hashArgs (some token) action args (s.present (some token))).1 =
      .ok () := consumeRequired_ok.mpr ⟨token, rfl, hnamed, hopens⟩
  simp only [authorizeBackendDispatch, hpolicy, hargs, htoken, hconsume]
  rfl

/-- A dispatch without arguments leaves the token where it is. -/
theorem authorize_leaves {e : String}
    (hpolicy : backendDispatchPolicy backendScriptRisk command = .capability action)
    (hargs : canonicalArgs fs command (params.erase "CapabilityToken") = .error e) :
    (authorizeBackendDispatch hashArgs backendScriptRisk command params fs s).2 =
      s.present (params.lookup "CapabilityToken") := by
  simp only [authorizeBackendDispatch, hpolicy, hargs]

/-- A command that needs no token leaves the store. -/
theorem authorize_other (hpolicy : ∀ action,
      backendDispatchPolicy backendScriptRisk command ≠ .capability action) :
    (authorizeBackendDispatch hashArgs backendScriptRisk command params fs s).2 = s := by
  rw [authorizeBackendDispatch]
  cases hp : backendDispatchPolicy backendScriptRisk command with
  | ordinary => rfl
  | internalOnly => rfl
  | nativeConfirmation => rfl
  | capability action => exact absurd hp (hpolicy action)

/-- No registered command is an internal one in other case. -/
def Catalogued (backendScriptRisk : String → Option Risk) : Prop :=
  ∀ command, backendScriptRisk command ≠ none → ∀ internal ∈ internalLockdownCommands,
    AsciiText.lower command = AsciiText.lower internal → command = internal

theorem external_of_ok (hcatalogued : Catalogued backendScriptRisk)
    (h : (authorizeBackendDispatch hashArgs backendScriptRisk command params fs s).1 = .ok sent) :
    ∀ internal ∈ internalLockdownCommands, AsciiText.lower command ≠ AsciiText.lower internal := by
  intro internal hinternal hlower
  have hnot : isInternalLockdownCommand command = false := by
    by_contra htrue
    have hpolicy : backendDispatchPolicy backendScriptRisk command = .internalOnly :=
      if_pos (Bool.eq_true_of_not_eq_false htrue)
    simp [authorizeBackendDispatch, hpolicy] at h
  have hne : command ≠ internal := by
    rintro rfl
    rw [isInternalLockdownCommand, List.contains_iff_mem.mpr hinternal] at hnot
    cases hnot
  have herase : command ≠ "Invoke-7Erase" := by
    rintro rfl
    revert internal
    decide
  have hfree : command ≠ "Invoke-UnallocatedSpaceErase" := by
    rintro rfl
    revert internal
    decide
  cases hrisk : backendScriptRisk command with
  | some risk =>
    exact hne (hcatalogued command (by rw [hrisk]; exact Option.some_ne_none risk) internal hinternal
      hlower)
  | none =>
    have hpolicy : backendDispatchPolicy backendScriptRisk command = .internalOnly := by
      simp [backendDispatchPolicy, herase, hfree, hrisk]
    simp [authorizeBackendDispatch, hpolicy] at h

end Facts

section Conditions

variable {Digest : Type} [DecidableEq Digest] {hashArgs : String → Digest}
  {backendScriptRisk : String → Option Risk} {s : Store Digest} {call : Call}

/-- Tokens stand in the store as they were minted, whatever a call does. -/
theorem step_recorded (h : Recorded hashArgs s) (hfresh : Fresh s call) :
    Recorded hashArgs (step hashArgs backendScriptRisk s call) := by
  cases call with
  | wait nanoseconds => exact ⟨h.minted, h.named, h.once⟩
  | mint token action args => exact h.mint hfresh
  | consume token action args => exact (h.present token).shrinks (consumeRequired_shrinks token)
  | dispatch command params fs =>
    rw [step]
    cases hpolicy : backendDispatchPolicy backendScriptRisk command with
    | capability action =>
      cases hargs : canonicalArgs fs command (params.erase "CapabilityToken") with
      | error e =>
        rw [authorize_leaves hpolicy hargs]
        exact h.present _
      | ok result =>
        rw [authorize_consumes hpolicy hargs]
        exact (h.present _).shrinks (consumeRequired_shrinks _)
    | _ => rwa [authorize_other (by simp [hpolicy])]

/-- A careful call leaves no presented token in the store. -/
theorem step_spent (h : Recorded hashArgs s) (hspent : Spent s) (hfresh : Fresh s call)
    (hcareful : Careful hashArgs backendScriptRisk s call) :
    Spent (step hashArgs backendScriptRisk s call) := by
  cases call with
  | wait nanoseconds => exact hspent
  | mint token action args => exact hspent.mint hfresh
  | consume token action args => exact hspent.consumed h
  | dispatch command params fs =>
    rw [step]
    cases hpolicy : backendDispatchPolicy backendScriptRisk command with
    | capability action =>
      cases hargs : canonicalArgs fs command (params.erase "CapabilityToken") with
      | error e =>
        rw [authorize_leaves hpolicy hargs]
        intro token hpresented
        rcases mem_present.mp hpresented with ⟨t, htoken, ht⟩ | hold
        · cases ht
          by_contra hlive
          obtain ⟨args, sent, hok, _⟩ := hcareful action token hpolicy htoken hlive
          rw [hargs] at hok
          cases hok
        · exact hspent token hold
      | ok result =>
        rw [authorize_consumes hpolicy hargs]
        exact hspent.consumed h
    | _ => rwa [authorize_other (by simp [hpolicy])]

/-- A call does what it must exactly if it is careful. -/
theorem sound_iff (hinjective : Function.Injective hashArgs) (hcatalogued : Catalogued backendScriptRisk)
    (h : Recorded hashArgs s) (hspent : Spent s) (hfresh : Fresh s call) :
    Sound hashArgs backendScriptRisk s call ↔ Careful hashArgs backendScriptRisk s call := by
  constructor
  · intro hsound
    cases call with
    | dispatch command params fs =>
      intro action token hpolicy htoken hlive
      cases hargs : canonicalArgs fs command (params.erase "CapabilityToken") with
      | error e =>
        have hstep := hsound.spent token
        rw [step, authorize_leaves hpolicy hargs] at hstep
        exact absurd (hstep (mem_present.mpr (Or.inl ⟨token, htoken, rfl⟩))) hlive
      | ok result =>
        obtain ⟨args, sent⟩ := result
        refine ⟨args, sent, rfl, fun hopens => ?_⟩
        obtain ⟨m, hm, htime, haction, hhash⟩ := hopens
        obtain ⟨minted, hminted, hrecord⟩ := h.minted token m hm
        have hok := authorize_accepts hpolicy hargs htoken (h.not_blank hm) ⟨m, hm, htime, haction, hhash⟩
        obtain ⟨token', args', time, hcovered⟩ :=
          hsound.covered command params fs action sent rfl hpolicy hok
        have hsame : token' = token := Option.some.inj (hcovered.supplied.symm.trans htoken)
        rw [settled_iff hargs, hcovered.dispatched, Option.some_inj]
        have honce := h.once token' _ _ _ _ _ _ hcovered.minted (hsame ▸ hrecord)
        rw [honce.2.1]
        exact hinjective (hminted.symm.trans hhash)
    | _ => trivial
  · intro hcareful
    refine ⟨?_, step_spent h hspent hfresh hcareful, ?_⟩
    · rintro command params fs action sent rfl hpolicy hok
      obtain ⟨token, args, htoken, hargs, hopens⟩ := authorize_ok hpolicy hok
      obtain ⟨m, hm, htime, rfl, hhash⟩ := hopens
      obtain ⟨minted, hminted, hrecord⟩ := h.minted token m hm
      have hlive : s.tokens token ≠ none := by
        rw [hm]
        exact Option.some_ne_none m
      obtain ⟨args', sent', hargs', hsettled⟩ := hcareful m.action token hpolicy htoken hlive
      have hpair : (args', sent') = (args, sent) := Except.ok.inj (hargs'.symm.trans hargs)
      cases hpair
      have hminted' : minted = args := hinjective (hminted.symm.trans hhash)
      rw [hminted'] at hrecord
      refine ⟨token, args, m.mintedAt, htoken, hrecord, ?_, htime, ?_⟩
      · exact fun hpresented => hlive (hspent token hpresented)
      · exact (settled_iff hargs).mp (hsettled ⟨m, hm, htime, rfl, hhash⟩)
    · rintro command params fs sent rfl hok
      exact external_of_ok hcatalogued hok

/-- In a run with new tokens every authorised dispatch is covered by a token for the arguments that it
dispatches, no presented token is usable again and no internal command is reached, if and only if every
dispatch that presents a token of the store is careful. -/
theorem dispatches_sound_iff (hashArgs : String → Digest) (backendScriptRisk : String → Option Risk)
    (hinjective : Function.Injective hashArgs) (hcatalogued : Catalogued backendScriptRisk)
    (calls : List Call)
    (hfresh : Machine.Throughout (step hashArgs backendScriptRisk) Fresh .start calls) :
    Machine.Throughout (step hashArgs backendScriptRisk) (Sound hashArgs backendScriptRisk) .start calls ↔
      Machine.Throughout (step hashArgs backendScriptRisk) (Careful hashArgs backendScriptRisk) .start
        calls := by
  refine Machine.throughout_congr_under (I := fun s => Recorded hashArgs s ∧ Spent s) ?_ ?_
    ⟨start_recorded, start_spent⟩ hfresh
  · exact fun s call h hf => sound_iff hinjective hcatalogued h.1 h.2 hf
  · exact fun s call h hf hsound => ⟨step_recorded h.1 hf, hsound.spent⟩

/-- A device on which confirmed arguments are their own digest. -/
def plainDigest : String → String := id

/-- The catalogue of the two erase commands. -/
def eraseCatalogue (command : String) : Option Risk :=
  if command = "Invoke-7Erase" ∨ command = "Invoke-UnallocatedSpaceErase" then some .mutating else none

theorem eraseCatalogue_catalogued : Catalogued eraseCatalogue := by
  intro command hrisk
  have hcommand : command = "Invoke-7Erase" ∨ command = "Invoke-UnallocatedSpaceErase" := by
    by_contra hnone
    exact hrisk (if_neg hnone)
  rcases hcommand with rfl | rfl <;> decide

/-- A token for a folder, and its dispatch. -/
def erasingRun : List Call :=
  [.mint "aa" .diskDelete (boundArgs (fun _ => none) "Invoke-7Erase" "C:\\x"),
    .dispatch "Invoke-7Erase" (AList.insert "CapabilityToken" "aa" (AList.insert "Path" "C:\\x" ∅))
      ⟨fun _ _ => none, fun _ => none⟩]

theorem erasingRun_fresh : Machine.Throughout (step plainDigest eraseCatalogue) Fresh .start erasingRun := by
  refine ⟨⟨by decide, fun _ _ _ h => ?_, fun h => ?_⟩, trivial, trivial⟩
  · simp [Store.start] at h
  · simp [Store.start] at h

theorem erasingRun_sound_iff :
    Machine.Throughout (step plainDigest eraseCatalogue) (Sound plainDigest eraseCatalogue) .start
        erasingRun ↔
      Machine.Throughout (step plainDigest eraseCatalogue) (Careful plainDigest eraseCatalogue) .start
        erasingRun :=
  dispatches_sound_iff plainDigest eraseCatalogue Function.injective_id eraseCatalogue_catalogued
    erasingRun erasingRun_fresh

/-- A refused dispatch leaves the token that it presents usable, and a dispatch that names no drive is
authorised for one that its parameters do not say. -/
theorem refused_token_survives_and_default_drive_unsaid :
    ¬ Machine.Throughout (step plainDigest eraseCatalogue) (Sound plainDigest eraseCatalogue) .start
        [.mint "aa" .diskDelete (boundArgs (fun _ => none) "Invoke-7Erase" "C:\\x"),
          .dispatch "Invoke-7Erase" (AList.insert "CapabilityToken" "aa" (AList.insert "Passes" "99" ∅))
            ⟨fun _ _ => none, fun _ => none⟩] ∧
      ¬ Machine.Throughout (step plainDigest eraseCatalogue) (Sound plainDigest eraseCatalogue) .start
        [.mint "aa" .cryptoErase (freeSpaceEraseArgs "C" "Unknown"),
          .dispatch "Invoke-UnallocatedSpaceErase" (AList.insert "CapabilityToken" "aa" ∅)
            ⟨fun _ _ => none, fun _ => none⟩] := by
  constructor
  · intro h
    have hspent := h.2.1.spent "aa" (by decide)
    cases hspent
  · intro h
    obtain ⟨token, args, time, hcovered⟩ := h.2.1.covered "Invoke-UnallocatedSpaceErase"
      (AList.insert "CapabilityToken" "aa" ∅) ⟨fun _ _ => none, fun _ => none⟩ .cryptoErase
      ((AList.insert "CapabilityToken" "aa" ∅ : Params).erase "CapabilityToken") rfl (by decide) (by rfl)
    cases hcovered.dispatched

end Conditions

end Authz
