import Mathlib
import WinCommander.Library.AsciiText
import WinCommander.Library.CommandLine
import WinCommander.Library.Json
import WinCommander.Library.Outcome

/-!
# The arguments of the elevated update

An update of the shared image is handed to an elevated helper as one command line.  The helper takes the
line apart again and accepts a fixed set of flags only.
-/

namespace ElevatedUpdate

open CommandLine Outcome
open Json.Value (decimal)

section Quote

/-- What is pushed from here on, after a run of backslashes. -/
def quoteFrom (slashes : ℕ) : List Char → List Char
  | [] => List.replicate (2 * slashes) '\\' ++ ['"']
  | c :: cs =>
    if c = '\\' then quoteFrom (slashes + 1) cs
    else if c = '"' then List.replicate (2 * slashes + 1) '\\' ++ '"' :: quoteFrom 0 cs
    else List.replicate slashes '\\' ++ c :: quoteFrom 0 cs

def quoteWindowsArgument (argument : List Char) : List Char :=
  if argument ≠ [] ∧ ¬ (argument.any fun c => AsciiText.isWhiteSpace c || c = '"') = true then argument
  else '"' :: quoteFrom 0 argument

/-- The text that the system is given ends at the first null character. -/
def parameters (arguments : List (List Char)) : List Char :=
  ([' '].intercalate (arguments.map quoteWindowsArgument)).takeWhile (· ≠ '\x00')

/-- The run of backslashes is the state of both loops. -/
theorem scan_quoteFrom {slashes : ℕ} {word : List Char} (cs rest : List Char) :
    scan .inside 0 (some word) (quoteFrom slashes cs ++ rest) =
      scan .closed 0 (some (word ++ List.replicate slashes '\\' ++ cs)) rest := by
  induction cs generalizing slashes word with
  | nil =>
    rw [quoteFrom, List.append_assoc, scan_slashes _ _ later_inside, Nat.zero_add, List.singleton_append,
      scan_quote]
    simp [Mode.quote]
  | cons c cs ih =>
    by_cases hslash : c = '\\'
    · rw [quoteFrom, if_pos hslash, ih, hslash, List.replicate_succ']
      simp
    · by_cases hquote : c = '"'
      · rw [quoteFrom, if_neg hslash, if_pos hquote, List.append_assoc, scan_slashes _ _ later_inside,
          Nat.zero_add, List.cons_append, scan_literal, later_inside, ih, hquote]
        simp
      · rw [quoteFrom, if_neg hslash, if_neg hquote, List.append_assoc, scan_slashes _ _ later_inside,
          Nat.zero_add, List.cons_append, scan_char hslash hquote (.inl rfl), later_inside, ih]
        simp

theorem separator_isWhiteSpace {c : Char} (h : IsSeparator c) : AsciiText.isWhiteSpace c = true := by
  rcases h with rfl | rfl <;> rfl

/-- A quoted argument is read as the argument. -/
theorem split_quote (argument : List Char) {rest : List Char} {tail : List (List Char)} (hends : Ends rest tail) :
    split (quoteWindowsArgument argument ++ rest) = argument :: tail := by
  rw [quoteWindowsArgument]
  split
  · rename_i hplain
    have hchars : ∀ c ∈ argument, c ≠ '"' ∧ ¬ IsSeparator c := by
      intro c hc
      have hnone := hplain.2
      simp only [List.any_eq_true, Bool.or_eq_true, decide_eq_true_eq, not_exists, not_and, not_or] at hnone
      exact ⟨(hnone c hc).2, fun hseparator => (hnone c hc).1 (separator_isWhiteSpace hseparator)⟩
    obtain ⟨c, cs, rfl⟩ := List.exists_cons_of_ne_nil hplain.1
    rw [List.cons_append, split_cons (hchars c List.mem_cons_self).2, ← List.cons_append,
      scan_plain hends hchars]
    rfl
  · rw [List.cons_append, split_cons (by decide), ← Nat.mul_zero 2, scan_quote, Nat.mul_zero,
      show Mode.outside.quote.1 = .inside from rfl, scan_quoteFrom, hends _ _ _ (by simp)]
    simp [Mode.quote]

theorem join_cons_cons (x y : List Char) (rest : List (List Char)) :
    [' '].intercalate (x :: y :: rest) = x ++ ' ' :: [' '].intercalate (y :: rest) := by
  simp [List.intercalate]

theorem mem_join {c : Char} {xs : List (List Char)} (h : c ∈ [' '].intercalate xs) :
    c = ' ' ∨ ∃ x ∈ xs, c ∈ x := by
  induction xs with
  | nil => simp at h
  | cons x xs ih =>
    cases xs with
    | nil => exact .inr ⟨x, List.mem_cons_self, by simpa using h⟩
    | cons y rest =>
      rw [join_cons_cons, List.mem_append, List.mem_cons] at h
      rcases h with hx | hspace | hrest
      · exact .inr ⟨x, List.mem_cons_self, hx⟩
      · exact .inl hspace
      · rcases ih hrest with hspace | ⟨z, hz, hc⟩
        · exact .inl hspace
        · exact .inr ⟨z, List.mem_cons_of_mem _ hz, hc⟩

theorem split_join (arguments : List (List Char)) :
    split ([' '].intercalate (arguments.map quoteWindowsArgument)) = arguments := by
  induction arguments with
  | nil => rfl
  | cons argument arguments ih =>
    cases arguments with
    | nil =>
      have hlast := split_quote argument ends_nil
      simpa using hlast
    | cons next arguments =>
      have hfirst := split_quote argument
        (ends_space ([' '].intercalate ((next :: arguments).map quoteWindowsArgument)))
      rw [ih] at hfirst
      rw [List.map_cons, List.map_cons, join_cons_cons, ← List.map_cons]
      exact hfirst

theorem mem_quoteFrom {c : Char} {slashes : ℕ} {cs : List Char} (h : c ∈ quoteFrom slashes cs) :
    c = '\\' ∨ c = '"' ∨ c ∈ cs := by
  induction cs generalizing slashes with
  | nil =>
    rw [quoteFrom, List.mem_append] at h
    rcases h with hslash | hquote
    · exact .inl (List.eq_of_mem_replicate hslash)
    · exact .inr (.inl (List.mem_singleton.mp hquote))
  | cons d cs ih =>
    rw [quoteFrom] at h
    split_ifs at h
    · rcases ih h with hslash | hquote | hc
      · exact .inl hslash
      · exact .inr (.inl hquote)
      · exact .inr (.inr (List.mem_cons_of_mem _ hc))
    · rw [List.mem_append, List.mem_cons] at h
      rcases h with hslash | hquote | hrest
      · exact .inl (List.eq_of_mem_replicate hslash)
      · exact .inr (.inl hquote)
      · exact (ih hrest).imp_right fun h => h.imp_right (List.mem_cons_of_mem _)
    · rw [List.mem_append, List.mem_cons] at h
      rcases h with hslash | hd | hrest
      · exact .inl (List.eq_of_mem_replicate hslash)
      · exact .inr (.inr (by rw [hd]; exact List.mem_cons_self))
      · exact (ih hrest).imp_right fun h => h.imp_right (List.mem_cons_of_mem _)

theorem null_not_mem_quote {argument : List Char} (h : '\x00' ∉ argument) :
    '\x00' ∉ quoteWindowsArgument argument := by
  rw [quoteWindowsArgument]
  split
  · exact h
  · intro hmem
    rcases List.mem_cons.mp hmem with hquote | hmem
    · exact absurd hquote (by decide)
    · rcases mem_quoteFrom hmem with hslash | hquote | hmem
      · exact absurd hslash (by decide)
      · exact absurd hquote (by decide)
      · exact h hmem

theorem parameters_eq {arguments : List (List Char)} (h : ∀ a ∈ arguments, '\x00' ∉ a) :
    parameters arguments = [' '].intercalate (arguments.map quoteWindowsArgument) := by
  rw [parameters, List.takeWhile_eq_self_iff]
  intro c hc
  rw [decide_eq_true_eq]
  rintro rfl
  rcases mem_join hc with hspace | ⟨x, hx, hnull⟩
  · exact absurd hspace (by decide)
  · obtain ⟨a, ha, rfl⟩ := List.mem_map.mp hx
    exact null_not_mem_quote (h a ha) hnull

/-- The receiver gets the list that was sent. -/
theorem split_parameters {arguments : List (List Char)} (h : ∀ a ∈ arguments, '\x00' ∉ a) :
    split (parameters arguments) = arguments := by
  rw [parameters_eq h, split_join]

end Quote

section Request

def updateFlag : String := "--machine-pro-update"
def jobFlag : String := "--machine-pro-job"
def urlFlag : String := "--machine-pro-url"
def sha256Flag : String := "--machine-pro-sha256"
def versionFlag : String := "--machine-pro-version"
def consentFlag : String := "--machine-pro-defender-consent"

def knownFlags : List String := [jobFlag, urlFlag, sha256Flag, versionFlag, consentFlag]

structure Request where
  jobId : String
  downloadUrl : String
  expectedSha256 : String
  consentDefenderExclusion : Bool
  proVersion : Option String
  deriving DecidableEq

/-- The readers of identifiers and addresses, which come from libraries, and the build. -/
structure Build where
  isUuid : String → Bool
  parseUrl : String → Except String (String × Option String)
  allowedUpdateHost : String
  freeVersion : String

variable (build : Build)

def validateUpdateUrl (url fieldName : String) : Except String Unit := do
  let (scheme, host) ← (build.parseUrl url).mapError fun e => s!"validation:bad {fieldName} url: {e}"
  refuseIf (scheme ≠ "https") s!"validation:{fieldName} must use https"
  match host with
  | some h =>
    refuseIf (¬ AsciiText.eqIgnoreCase h build.allowedUpdateHost)
      s!"validation:{fieldName} host '{h}' is not allowed (expected {build.allowedUpdateHost})"
  | none => .error s!"validation:{fieldName} url has no host"

def stripV : List Char → List Char
  | 'v' :: rest => rest
  | 'V' :: rest => rest
  | rest => rest

/-- Three or four numbers of 64 bits, of which a missing last one is zero. -/
def parseSemver (v : String) : Option (List ℕ) :=
  let parts := (stripV (AsciiText.trimChars v.toList)).splitOn '.'
  if 3 ≤ parts.length ∧ parts.length ≤ 4 then
    (parts.mapM fun part => (decimal part).filter (· < 2 ^ 64)).map fun numbers =>
      numbers ++ List.replicate (4 - numbers.length) 0
  else none

def minimumProVersion : String := "3.6.4"

def checkProReleaseMinimum (proVersion : Option String) : Except String (List ℕ) := do
  let pro ← okOr (proVersion.bind parseSemver) "validation:The Pro release has no valid version. Nothing was installed. Use the matching WinCommander + Pro setup."
  refuseIf (pro < [3, 6, 4, 0]) s!"validation:Compatible Pro {minimumProVersion} or later is not available from this update source. Nothing was installed. Use the matching WinCommander + Pro setup; reinstalling the older Pro will not fix Vault mounting."
  .ok pro

def checkProVersionCompatible (proVersion : Option String) : Except String Unit := do
  let free ← okOr (parseSemver build.freeVersion) "validation:WinCommander version could not be verified."
  let pro ← checkProReleaseMinimum proVersion
  let shown := proVersion.getD ""
  refuseIf (free < pro) s!"validation:Pro version {shown} is newer than the running Free version {build.freeVersion}. Update WinCommander Free first."

def isHexDigit (c : Char) : Bool := c.isDigit || ('a' ≤ c && c ≤ 'f') || ('A' ≤ c && c ≤ 'F')

def validateRequest (request : Request) : Except String Unit := do
  refuseIf (¬ build.isUuid request.jobId) "invalid machine Pro update job id"
  refuseIf (4096 < request.downloadUrl.utf8ByteSize) "validation:download url is too long"
  refuseIf (request.expectedSha256.utf8ByteSize ≠ 64 ∨ ¬ request.expectedSha256.toList.all isHexDigit)
    "validation:expected_sha256 must be a 64-character hexadecimal value"
  validateUpdateUrl build request.downloadUrl "download_url"
  refuseIf (request.proVersion.any (128 < ·.utf8ByteSize)) "validation:Pro version is too long"
  checkProVersionCompatible build request.proVersion

/-- The arguments that the helper is started with. -/
def arguments (request : Request) : List String :=
  [updateFlag, jobFlag, request.jobId, urlFlag, request.downloadUrl, sha256Flag, request.expectedSha256,
    consentFlag, if request.consentDefenderExclusion then "1" else "0"] ++
  match request.proVersion with
  | some version => [versionFlag, version]
  | none => []

@[grind =]
def insertPairs (values : String → Option String) : List String → Except String (String → Option String)
  | key :: value :: rest =>
    if key ∉ knownFlags ∨ (values key).isSome then .error "machine Pro update arguments are invalid"
    else insertPairs (Function.update values key (some value)) rest
  | _ => .ok values

def required (values : String → Option String) (flag : String) : Except String String :=
  okOr (values flag) "machine Pro update arguments are incomplete"

def consentOf : String → Except String Bool
  | "0" => .ok false
  | "1" => .ok true
  | _ => .error "machine Pro update consent argument is invalid"

def readRequest (values : String → Option String) : Except String Request := do
  let consent ← consentOf (← required values consentFlag)
  let jobId ← required values jobFlag
  let downloadUrl ← required values urlFlag
  let expectedSha256 ← required values sha256Flag
  .ok ⟨jobId, downloadUrl, expectedSha256, consent, (values versionFlag).filter (· ≠ "")⟩

def parseRequest (args : List String) : Except String (Option Request) :=
  if args.head? ≠ some updateFlag then .ok none
  else if args.length < 3 ∨ args.length % 2 = 0 then .error "machine Pro update arguments are incomplete"
  else do
    let values ← insertPairs (fun _ => none) args.tail
    let request ← readRequest values
    validateRequest build request
    .ok (some request)

end Request

section RoundTrip

variable {build : Build}

/-- A version that is compatible is there and is not empty. -/
theorem version_of_validate {request : Request} (h : validateRequest build request = .ok ()) :
    ∃ version, request.proVersion = some version ∧ version ≠ "" := by
  simp only [validateRequest, checkProVersionCompatible, checkProReleaseMinimum, bind_ok, okOr_ok] at h
  obtain ⟨_, -, _, -, _, -, _, -, _, -, _, -, _, ⟨_, hsemver, -⟩, -⟩ := h
  obtain ⟨version, hversion, hparsed⟩ := Option.bind_eq_some_iff.mp hsemver
  refine ⟨version, hversion, ?_⟩
  rintro rfl
  have hempty : parseSemver "" = none := by decide +kernel
  exact absurd (hparsed.symm.trans hempty) (by simp)

theorem insertPairs_cons {values : String → Option String} {key : String} (hknown : key ∈ knownFlags)
    (hfresh : values key = none) (value : String) (rest : List String) :
    insertPairs values (key :: value :: rest) =
      insertPairs (Function.update values key (some value)) rest := by
  rw [insertPairs, if_neg]
  simp [hknown, hfresh]

/-- What is read of the arguments of a request. -/
def requestValues (request : Request) (version : String) : String → Option String :=
  Function.update (Function.update (Function.update (Function.update (Function.update (fun _ => none)
    jobFlag (some request.jobId)) urlFlag (some request.downloadUrl)) sha256Flag
    (some request.expectedSha256)) consentFlag
    (some (if request.consentDefenderExclusion then "1" else "0"))) versionFlag (some version)

theorem flags_distinct : (jobFlag ≠ urlFlag ∧ jobFlag ≠ sha256Flag ∧ jobFlag ≠ versionFlag ∧
    jobFlag ≠ consentFlag) ∧ (urlFlag ≠ sha256Flag ∧ urlFlag ≠ versionFlag ∧ urlFlag ≠ consentFlag) ∧
    (sha256Flag ≠ versionFlag ∧ sha256Flag ≠ consentFlag) ∧ versionFlag ≠ consentFlag := by
  decide

theorem insertPairs_arguments (request : Request) (version : String) :
    insertPairs (fun _ => none) [jobFlag, request.jobId, urlFlag, request.downloadUrl,
      sha256Flag, request.expectedSha256, consentFlag,
      if request.consentDefenderExclusion then "1" else "0", versionFlag, version] =
      .ok (requestValues request version) := by
  obtain ⟨⟨hju, hjs, hjv, hjc⟩, ⟨hus, huv, huc⟩, ⟨hsv, hsc⟩, hvc⟩ := flags_distinct
  rw [insertPairs_cons (by decide) rfl, insertPairs_cons (by decide), insertPairs_cons (by decide),
    insertPairs_cons (by decide), insertPairs_cons (by decide), insertPairs]
  · rfl
  all_goals simp [Ne.symm, *]

theorem readRequest_arguments {request : Request} {version : String}
    (hsome : request.proVersion = some version) (hne : version ≠ "") :
    readRequest (requestValues request version) = .ok request := by
  obtain ⟨⟨hju, hjs, hjv, hjc⟩, ⟨hus, huv, huc⟩, ⟨hsv, hsc⟩, hvc⟩ := flags_distinct
  have hconsent : requestValues request version consentFlag =
      some (if request.consentDefenderExclusion then "1" else "0") := by
    simp [requestValues, Function.update_of_ne hvc.symm]
  have hjob : requestValues request version jobFlag = some request.jobId := by
    simp [requestValues, *]
  have hurl : requestValues request version urlFlag = some request.downloadUrl := by
    simp [requestValues, *]
  have hsha : requestValues request version sha256Flag = some request.expectedSha256 := by
    simp [requestValues, *]
  have hversion : requestValues request version versionFlag = some version := by
    simp [requestValues]
  have hread : consentOf (if request.consentDefenderExclusion then "1" else "0") =
      .ok request.consentDefenderExclusion := by
    cases request.consentDefenderExclusion <;> rfl
  simp only [readRequest, bind_ok, required, okOr_ok]
  refine ⟨_, hconsent, _, hread, _, hjob, _, hurl, _, hsha, ?_⟩
  rw [hversion, Option.filter_some, if_pos (by simpa using hne), ← hsome]

/-- The helper reads the request that it was started for. -/
theorem parseRequest_arguments {request : Request} (h : validateRequest build request = .ok ()) :
    parseRequest build (arguments request) = .ok (some request) := by
  obtain ⟨version, hsome, hne⟩ := version_of_validate h
  have harguments : arguments request = [updateFlag, jobFlag, request.jobId, urlFlag, request.downloadUrl,
      sha256Flag, request.expectedSha256, consentFlag,
      if request.consentDefenderExclusion then "1" else "0", versionFlag, version] := by
    rw [arguments, hsome]
    rfl
  rw [harguments, parseRequest, if_neg (by simp), if_neg (by simp), List.tail_cons,
    insertPairs_arguments]
  simp only [bind_ok]
  exact ⟨_, rfl, _, readRequest_arguments hsome hne, _, h, rfl⟩

/-- A list of arguments that names every flag once, each with a value, and nothing else. -/
def WellFlagged (args : List String) : Prop := ∃ pairs : List (String × String),
  args = updateFlag :: pairs.flatMap (fun p => [p.1, p.2]) ∧ (pairs.map Prod.fst).Perm knownFlags

/-- Pairs are inserted while their flags are known and new. -/
theorem insertPairs_ok {values values' : String → Option String} {args : List String}
    (h : insertPairs values args = .ok values') (heven : args.length % 2 = 0) :
    ∃ pairs : List (String × String), args = pairs.flatMap (fun p => [p.1, p.2]) ∧
      (pairs.map Prod.fst).Nodup ∧ (∀ k ∈ pairs.map Prod.fst, k ∈ knownFlags ∧ values k = none) ∧
      ∀ k, (values' k).isSome = true ↔ (values k).isSome = true ∨ k ∈ pairs.map Prod.fst := by
  induction args using List.twoStepInduction generalizing values with
  | nil =>
    rw [insertPairs] at h
    · refine ⟨[], rfl, List.nodup_nil, by simp, ?_⟩
      rw [Except.ok.inj h]
      simp
    · simp
  | singleton a => simp at heven
  | cons_cons key value rest ih _ =>
    rw [insertPairs] at h
    split at h
    · exact absurd h (by simp)
    · rename_i hkey
      rw [not_or, not_not] at hkey
      obtain ⟨hknown, hfresh⟩ := hkey
      have hnone : values key = none := by simpa using hfresh
      have hrest : rest.length % 2 = 0 := by
        rw [List.length_cons, List.length_cons] at heven
        omega
      obtain ⟨pairs, hpairs, hnodup, hkeys, hvalues⟩ := ih h hrest
      have hnew : key ∉ pairs.map Prod.fst := by
        intro hmem
        have hold := (hkeys key hmem).2
        rw [Function.update_self] at hold
        exact absurd hold (by simp)
      refine ⟨(key, value) :: pairs, by rw [hpairs]; rfl, ?_, ?_, ?_⟩
      · rw [List.map_cons]
        exact List.nodup_cons.mpr ⟨hnew, hnodup⟩
      · rw [List.map_cons, List.forall_mem_cons]
        refine ⟨⟨hknown, hnone⟩, ?_⟩
        intro k hk
        have hne : k ≠ key := fun heq => hnew (heq ▸ hk)
        obtain ⟨hin, hold⟩ := hkeys k hk
        rw [Function.update_of_ne hne] at hold
        exact ⟨hin, hold⟩
      · intro k
        rw [hvalues k, List.map_cons, List.mem_cons]
        by_cases hk : k = key
        · simp [hk]
        · simp [hk]

theorem required_of_read {values : String → Option String} {request : Request}
    (h : readRequest values = .ok request) : (values consentFlag).isSome = true ∧
      (values jobFlag).isSome = true ∧ (values urlFlag).isSome = true ∧
      (values sha256Flag).isSome = true ∧
      (request.proVersion.isSome = true → (values versionFlag).isSome = true) := by
  simp only [readRequest, bind_ok, required, okOr_ok, Except.ok.injEq] at h
  obtain ⟨_, hconsent, _, -, _, hjob, _, hurl, _, hsha, rfl⟩ := h
  refine ⟨by rw [hconsent]; rfl, by rw [hjob]; rfl, by rw [hurl]; rfl, by rw [hsha]; rfl, ?_⟩
  intro hversion
  by_contra hnone
  rw [Option.not_isSome_iff_eq_none] at hnone
  simp [hnone] at hversion

/-- Only lists that name every flag once are accepted. -/
theorem wellFlagged_of_parse {args : List String} {request : Request}
    (h : parseRequest build args = .ok (some request)) : WellFlagged args := by
  rw [parseRequest] at h
  split at h
  · exact absurd h (by simp)
  rename_i hfirst
  split at h
  · exact absurd h (by simp)
  rename_i hlength
  simp only [bind_ok, Except.ok.injEq, Option.some.injEq] at h
  obtain ⟨values, hinsert, _, hread, _, hvalid, rfl⟩ := h
  rw [ne_eq, not_not] at hfirst
  obtain ⟨rest, rfl⟩ : ∃ rest, args = updateFlag :: rest := by
    cases args with
    | nil => simp at hfirst
    | cons a rest =>
      rw [List.head?_cons, Option.some.injEq] at hfirst
      exact ⟨rest, by rw [hfirst]⟩
  rw [List.length_cons] at hlength
  obtain ⟨pairs, hpairs, hnodup, hkeys, hvalues⟩ := insertPairs_ok hinsert (by rw [List.tail_cons]; omega)
  have hmem : ∀ k, (values k).isSome = true → k ∈ pairs.map Prod.fst := by
    intro k hk
    simpa using (hvalues k).mp hk
  obtain ⟨hconsent, hjob, hurl, hsha, hversion⟩ := required_of_read hread
  obtain ⟨version, hsome, -⟩ := version_of_validate hvalid
  have hpresent := hversion (by rw [hsome]; rfl)
  refine ⟨pairs, by rw [← hpairs]; rfl, ?_⟩
  rw [List.perm_ext_iff_of_nodup hnodup (by decide)]
  intro k
  constructor
  · exact fun hk => (hkeys k hk).1
  · intro hk
    simp only [knownFlags, List.mem_cons, List.not_mem_nil, or_false] at hk
    rcases hk with rfl | rfl | rfl | rfl | rfl
    · exact hmem _ hjob
    · exact hmem _ hurl
    · exact hmem _ hsha
    · exact hmem _ hpresent
    · exact hmem _ hconsent

end RoundTrip

section Helper

/-- Arguments survive the command line, a valid request is read back, and nothing but a full set of
flags is accepted. -/
theorem elevated_arguments_survive (build : Build) :
    (∀ args : List (List Char), (∀ a ∈ args, '\x00' ∉ a) → split (parameters args) = args) ∧
    (∀ request, validateRequest build request = .ok () →
      parseRequest build (arguments request) = .ok (some request)) ∧
    ∀ args request, parseRequest build args = .ok (some request) → WellFlagged args :=
  ⟨fun _ h => split_parameters h, fun _ h => parseRequest_arguments h,
    fun _ _ h => wellFlagged_of_parse h⟩

/-- A build that reads the identifiers and addresses of its own tests. -/
def testBuild : Build where
  isUuid id := id = "c4c52637-6d5a-4f05-9a66-c7091dba2b33"
  parseUrl url :=
    if url = "https://winupdates.servalabs.com/pro/wincommander-pro.exe" then
      .ok ("https", some "winupdates.servalabs.com")
    else .error "relative URL without a base"
  allowedUpdateHost := "winupdates.servalabs.com"
  freeVersion := "3.6.4"

def testRequest : Request where
  jobId := "c4c52637-6d5a-4f05-9a66-c7091dba2b33"
  downloadUrl := "https://winupdates.servalabs.com/pro/wincommander-pro.exe"
  expectedSha256 := "aaaaaaaaaaaaaaaaaaaaaaaaaaaaaaaaaaaaaaaaaaaaaaaaaaaaaaaaaaaaaaaa"
  consentDefenderExclusion := true
  proVersion := some "3.6.4"

theorem testRequest_survives :
    split (parameters ["a \\".toList, [], "\"".toList]) = ["a \\".toList, [], "\"".toList] ∧
    parseRequest testBuild (arguments testRequest) = .ok (some testRequest) ∧
    WellFlagged (arguments testRequest) := by
  obtain ⟨hsplit, hparse, hflags⟩ := elevated_arguments_survive testBuild
  have hvalid : validateRequest testBuild testRequest = .ok () := by decide +kernel
  exact ⟨hsplit _ (by decide), hparse _ hvalid, hflags _ _ (hparse _ hvalid)⟩

end Helper

end ElevatedUpdate
