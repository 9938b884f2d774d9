import WinCommander.Library.AsciiText
import WinCommander.Library.Bytes
import WinCommander.Library.Hex
import WinCommander.Library.Outcome
import WinCommander.Library.Records

/-!
# The case bundle verifier

An archive is verified in four steps: the manifest is read, every file is compared with its hash,
the signature of the hash list is checked with the trusted key, and the audit chain is followed.
What is printed is left out; the exit status is what each failure gives.
-/

namespace CaseBundle

open Json Outcome

section Data

inductive Failure where
  | hashMismatch
  | badSignature
  | brokenChain
  | usage
  deriving DecidableEq

def Failure.status : Failure → ℕ
  | .hashMismatch => 1
  | .badSignature => 2
  | .brokenChain => 3
  | .usage => 10

structure CaseManifest where
  caseNo : String
  examinerId : String
  examinerName : String
  agency : String
  warrantRef : String
  startedAt : ℕ
  finalizedAt : ℕ
  auditChainHeadHash : String
  sessionKeyPublicHex : String
  fileHashes : List (String × String)

structure AuditEntry where
  ts : ℕ
  examinerId : String
  caseNo : String
  op : String
  artifact : Option String
  sha256 : Option String
  prevHash : String
  sig : String

/-- An entry as the archive reader gives it: it may have no valid name, and its data may not be
readable. -/
structure Entry where
  name : Option String
  isDir : Bool
  data : Option (List UInt8)
  deriving DecidableEq

abbrev Archive := List Entry

/-- What is not part of the verifier: reading JSON, the hash, and the signature scheme. -/
structure Platform where
  parse : String → Option Value
  sha256 : List UInt8 → List UInt8
  onCurve : List UInt8 → Bool
  verifies : List UInt8 → List UInt8 → List UInt8 → Bool

def readPair : Value → Option (String × String)
  | .array [.string name, .string hash] => some (name, hash)
  | _ => none

def readPairs : Value → Option (List (String × String))
  | .array vs => vs.mapM readPair
  | _ => none

def readManifest (v : Value) : Option CaseManifest := do
  match ← recordFields ["case_no", "examiner_id", "examiner_name", "agency", "warrant_ref",
    "started_at", "finalized_at", "audit_chain_head_hash", "session_key_public_hex",
    "file_hashes"] v with
  | [some caseNo, some examinerId, some examinerName, some agency, some warrantRef, some startedAt,
      some finalizedAt, some head, some key, some fileHashes] =>
    some ⟨← caseNo.asStr, ← examinerId.asStr, ← examinerName.asStr, ← agency.asStr,
      ← warrantRef.asStr, ← startedAt.asU64, ← finalizedAt.asU64, ← head.asStr, ← key.asStr,
      ← readPairs fileHashes⟩
  | _ => none

def readAuditEntry (v : Value) : Option AuditEntry := do
  match ← recordFields ["ts", "examiner_id", "case_no", "op", "artifact", "sha256", "prev_hash",
    "sig"] v with
  | [some ts, some examinerId, some caseNo, some op, artifact, sha256, some prevHash, some sig] =>
    some ⟨← ts.asU64, ← examinerId.asStr, ← caseNo.asStr, ← op.asStr, ← optionalString artifact,
      ← optionalString sha256, ← prevHash.asStr, ← sig.asStr⟩
  | _ => none

end Data

section Reading

variable (platform : Platform)

/-- The entry of a name, if its data can be read. -/
def readZipEntry (archive : Archive) (name : String) : Option (List UInt8) :=
  (archive.find? fun entry => entry.name = some name).bind Entry.data

def readZipText (archive : Archive) (name : String) : Option String :=
  (readZipEntry archive name).bind Bytes.toString

def Platform.sha256Hex (data : List UInt8) : String :=
  String.ofList (Hex.encode (platform.sha256 data))

end Reading

section Manifest

variable (platform : Platform)

/-- A position at which no character is cut in two. -/
def isCharBoundary (bytes : List UInt8) (i : ℕ) : Bool :=
  i = bytes.length || bytes[i]?.any fun b => b < 128 || 192 ≤ b

/-- The digest of a line of the list that is written for the manifest. -/
def manifestDigest (line : List UInt8) : Option (List UInt8) :=
  if line.length < 66 ∨ isCharBoundary line 64 = false ∨ isCharBoundary line 66 = false then none
  else
    let rest := line.drop 64
    let name := if [32, 32].isPrefixOf rest then some (rest.drop 2)
      else if [32, 42].isPrefixOf rest then some (rest.drop 2)
      else none
    if name = some (Bytes.ofString "case-manifest.json") then some (line.take 64) else none

def isHexDigit (b : UInt8) : Bool :=
  (48 ≤ b && b ≤ 57) || (65 ≤ b && b ≤ 70) || (97 ≤ b && b ≤ 102)

def lowerByte (b : UInt8) : UInt8 := if 65 ≤ b ∧ b ≤ 90 then b + 32 else b

def matchLines (digest : List UInt8) : ℕ → List (List Char) → Bool
  | found, [] => found = 1
  | found, line :: lines =>
    match manifestDigest (utf8 line) with
    | none => matchLines digest found lines
    | some written =>
      if written.all isHexDigit = false ∨ written.map lowerByte ≠ digest.map lowerByte then false
      else matchLines digest (found + 1) lines

/-- Exactly one line of the hash list is for the manifest, and it has the manifest's hash. -/
def signedManifestMatches (hashes manifest : List UInt8) : Bool :=
  match Bytes.toString hashes with
  | none => false
  | some text =>
    matchLines (utf8 (platform.sha256Hex manifest).toList) 0 (AsciiText.lines text.toList)

end Manifest

section Files

variable (platform : Platform)

/-- Files that are not in the manifest: it is hashed elsewhere, and signatures are not hashed. -/
def special : List String :=
  ["case-manifest.json", "hashes.txt", "signature.sig", "verify-pubkey.hex"]

/-- The files that have been seen, and how many of them do not match. -/
structure Checked where
  seen : List String
  mismatches : ℕ

def checkFile (expected : List (String × String)) (checked : Checked) (entry : Entry) :
    Except Failure Checked := do
  let name ← okOr entry.name .usage
  if name ∈ special then pure checked
  else if entry.isDir then pure checked
  else do
    let buf ← okOr entry.data .usage
    if expected.lookup name = some (platform.sha256Hex buf) then
      pure ⟨name :: checked.seen, checked.mismatches⟩
    else pure ⟨name :: checked.seen, checked.mismatches + 1⟩

def checkFiles (archive : Archive) (manifest : CaseManifest) : Except Failure Unit := do
  refuseIf (¬ (archive.filterMap Entry.name).Nodup) .usage
  refuseIf (¬ (manifest.fileHashes.map Prod.fst).Nodup) .hashMismatch
  let checked ← archive.foldlM (checkFile platform manifest.fileHashes) ⟨[], 0⟩
  let missing := (manifest.fileHashes.filter fun file => file.1 ∉ checked.seen).length
  refuseIf (0 < checked.mismatches + missing) .hashMismatch

end Files

section Signature

variable (platform : Platform)

def checkSignature (archive : Archive) (trustedKey : List UInt8) (manifest : CaseManifest)
    (manifestText : String) : Except Failure Unit := do
  let hashesTxt ← okOr (readZipEntry archive "hashes.txt") .usage
  let sigHex ← okOr ((readZipText archive "signature.sig").map AsciiText.trim) .usage
  let pkHex ← okOr ((readZipText archive "verify-pubkey.hex").map AsciiText.trim) .usage
  let pkBytes ← okOr (Hex.decode pkHex.toList) .usage
  refuseIf (pkBytes.length ≠ 32) .usage
  refuseIf (pkBytes ≠ trustedKey) .badSignature
  refuseIf (AsciiText.eqIgnoreCase manifest.sessionKeyPublicHex pkHex = false) .badSignature
  refuseIf (platform.onCurve pkBytes = false) .usage
  let sigBytes ← okOr (Hex.decode sigHex.toList) .usage
  refuseIf (sigBytes.length ≠ 64) .usage
  refuseIf (platform.verifies pkBytes hashesTxt sigBytes = false) .badSignature
  refuseIf (signedManifestMatches platform hashesTxt (Bytes.ofString manifestText) = false) .badSignature

end Signature

section Chain

variable (platform : Platform)

mutual

def compactNulls : Value → Value
  | .object ms => .object (compactMembers ms)
  | v => v

def compactMembers : List (String × Value) → List (String × Value)
  | [] => []
  | (_, .null) :: ms => compactMembers ms
  | (name, v) :: ms => (name, compactNulls v) :: compactMembers ms

end

/-- What is signed of an entry: its fields without the signature and without those left out. -/
def AuditEntry.unsignedJson (entry : AuditEntry) : List UInt8 :=
  utf8 (compactNulls (.object [("artifact", Serde.ofOption .string entry.artifact),
    ("case_no", .string entry.caseNo), ("examiner_id", .string entry.examinerId),
    ("op", .string entry.op), ("prev_hash", .string entry.prevHash),
    ("sha256", Serde.ofOption .string entry.sha256), ("sig", .string ""),
    ("ts", Serde.ofNatural entry.ts)])).write

/-- One line of the chain; it gives what the next line has to link to. -/
def checkLine (key : List UInt8) (manifest : CaseManifest) (prev : String) (line : List Char) :
    Except Failure String := do
  let entry ← okOr ((platform.parse (String.ofList line)).bind readAuditEntry) .brokenChain
  refuseIf (entry.caseNo ≠ manifest.caseNo ∨ entry.examinerId ≠ manifest.examinerId) .brokenChain
  refuseIf (entry.prevHash ≠ prev) .brokenChain
  let sig ← okOr ((Hex.decode entry.sig.toList).filter (·.length = 64)) .brokenChain
  refuseIf (platform.verifies key entry.unsignedJson sig = false) .brokenChain
  pure (platform.sha256Hex (utf8 line))

def zeroHash : String := String.ofList (List.replicate 64 '0')

/-- The lines of the audit log that are not blank. -/
def auditLines (audit : String) : List (List Char) :=
  (AsciiText.lines audit.toList).filter fun line => AsciiText.trimChars line ≠ []

def checkChain (archive : Archive) (key : List UInt8) (manifest : CaseManifest) :
    Except Failure Unit := do
  let audit ← okOr (readZipText archive "audit-chain.jsonl") .brokenChain
  let head ← (auditLines audit).foldlM (checkLine platform key manifest) zeroHash
  refuseIf (auditLines audit = [] ∨ head ≠ manifest.auditChainHeadHash) .brokenChain

end Chain

section Main

variable (platform : Platform)

def verifyArchive (trustedKey : List UInt8) (archive : Archive) : Except Failure Unit := do
  let manifestText ← okOr (readZipText archive "case-manifest.json") .usage
  let manifest ← okOr ((platform.parse manifestText).bind readManifest) .usage
  checkFiles platform archive manifest
  checkSignature platform archive trustedKey manifest manifestText
  checkChain platform archive trustedKey manifest

/-- The files of the machine: each that exists is an archive, or cannot be read as one. -/
abbrev Files := String → Option (Option Archive)

def runMain (files : Files) (args : List String) : Except Failure Unit :=
  match args with
  | [_, path, flag, key] => do
    refuseIf (flag ≠ "--trusted-key") .usage
    let trustedKey ← okOr ((Hex.decode key.toList).filter (·.length = 32)) .usage
    let bundle ← okOr (files path) .usage
    let archive ← okOr bundle .usage
    verifyArchive platform trustedKey archive
  | _ => .error .usage

/-- The exit status. -/
def main (files : Files) (args : List String) : ℕ :=
  match runMain platform files args with
  | .ok () => 0
  | .error failure => failure.status

end Main

end CaseBundle
