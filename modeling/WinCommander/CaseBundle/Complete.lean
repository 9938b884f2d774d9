import Mathlib.Data.Set.Basic
import WinCommander.CaseBundle.Verify

/-!
# What an accepted case bundle contains

The hash list of an accepted archive determines the manifest, and the manifest determines the files
and the audit chain.
-/

namespace CaseBundle

open Json Outcome

variable {platform : Platform}

section HashList

theorem matchLines_agree {digest : List UInt8} {found : ℕ} {lines : List (List Char)}
    (h : matchLines digest found lines = true) :
    ∀ line ∈ lines, ∀ written ∈ manifestDigest (utf8 line),
      written.map lowerByte = digest.map lowerByte := by
  induction lines generalizing found with
  | nil => simp
  | cons line lines ih =>
    rw [matchLines] at h
    intro l hl written hwritten
    cases hline : manifestDigest (utf8 line) with
    | none =>
      simp only [hline] at h
      rcases List.mem_cons.mp hl with rfl | hl
      · simp [hline] at hwritten
      · exact ih h l hl written hwritten
    | some digest' =>
      simp only [hline, Bool.if_false_left, Bool.and_eq_true] at h
      rcases List.mem_cons.mp hl with rfl | hl
      · have hsame : digest' = written := by simpa [hline] using hwritten
        have hdigest : digest'.all isHexDigit = true ∧
            digest'.map lowerByte = digest.map lowerByte := by simpa using h.1
        rw [← hsame]
        exact hdigest.2
      · exact ih h.2 l hl written hwritten

theorem matchLines_found {digest : List UInt8} {found : ℕ} {lines : List (List Char)}
    (h : matchLines digest found lines = true) (hfound : found = 0) :
    ∃ line ∈ lines, ∃ written, manifestDigest (utf8 line) = some written := by
  induction lines with
  | nil =>
    rw [matchLines, hfound] at h
    simp at h
  | cons line lines ih =>
    cases hline : manifestDigest (utf8 line) with
    | none =>
      simp only [matchLines, hline] at h
      obtain ⟨l, hl, hwritten⟩ := ih h
      exact ⟨l, List.mem_cons_of_mem _ hl, hwritten⟩
    | some written => exact ⟨line, List.mem_cons_self, written, hline⟩

private theorem lowerByte_digit : ∀ n : Fin 16, (String.utf8EncodeChar (Hex.digit n)).map lowerByte =
    String.utf8EncodeChar (Hex.digit n) := by decide

theorem map_lowerByte_utf8_encode (bytes : List UInt8) :
    (utf8 (Hex.encode bytes)).map lowerByte = utf8 (Hex.encode bytes) := by
  induction bytes with
  | nil => rfl
  | cons b bytes ih =>
    obtain ⟨hhigh, hlow⟩ := Hex.digits_lt b
    have hcons : ∀ c text, utf8 (c :: text) = String.utf8EncodeChar c ++ utf8 text := fun _ _ => rfl
    rw [Hex.encode_cons, hcons, hcons, List.map_append, List.map_append, ih,
      lowerByte_digit ⟨_, hhigh⟩, lowerByte_digit ⟨_, hlow⟩]

/-- A hash list is for one hash only. -/
theorem signedManifestMatches_unique {hashes manifest manifest' : List UInt8}
    (h : signedManifestMatches platform hashes manifest = true)
    (h' : signedManifestMatches platform hashes manifest' = true) :
    platform.sha256 manifest = platform.sha256 manifest' := by
  unfold signedManifestMatches at h h'
  cases htext : Bytes.toString hashes with
  | none => simp [htext] at h
  | some text =>
    simp only [htext] at h h'
    obtain ⟨line, hline, written, hwritten⟩ := matchLines_found h rfl
    have hagree := matchLines_agree h line hline written hwritten
    have hagree' := matchLines_agree h' line hline written hwritten
    rw [hagree] at hagree'
    simp only [Platform.sha256Hex, String.toList_ofList, map_lowerByte_utf8_encode] at hagree'
    exact Hex.encode_injective (utf8_injective hagree')

end HashList

section Files

variable {expected : List (String × String)}

/-- An entry that is in the manifest with the hash of its data, if it has to be. -/
def Listed (platform : Platform) (expected : List (String × String)) (entry : Entry) : Prop :=
  ∃ name, entry.name = some name ∧ (name ∉ special → entry.isDir = false →
    ∃ buf, entry.data = some buf ∧ expected.lookup name = some (platform.sha256Hex buf))

/-- A name that the files of the archive have. -/
def HasFile (archive : Archive) (name : String) : Prop :=
  name ∉ special ∧ ∃ entry ∈ archive, entry.name = some name ∧ entry.isDir = false

theorem checkFile_ok {checked checked' : Checked} {entry : Entry}
    (h : checkFile platform expected checked entry = .ok checked') :
    checked.mismatches ≤ checked'.mismatches ∧
      (checked'.mismatches = checked.mismatches → Listed platform expected entry) ∧
      ∀ name ∈ checked'.seen, name ∈ checked.seen ∨ HasFile [entry] name := by
  unfold checkFile at h
  simp only [bind_ok, okOr_ok] at h
  obtain ⟨name, hname, h⟩ := h
  by_cases hspecial : name ∈ special
  · rw [if_pos hspecial, pure_ok] at h
    subst h
    exact ⟨le_rfl, fun _ => ⟨name, hname, fun hnot => absurd hspecial hnot⟩, fun _ => Or.inl⟩
  rw [if_neg hspecial] at h
  by_cases hdir : entry.isDir = true
  · rw [if_pos hdir, pure_ok] at h
    subst h
    refine ⟨le_rfl, fun _ => ⟨name, hname, fun _ hfile => ?_⟩, fun _ => Or.inl⟩
    rw [hdir] at hfile
    cases hfile
  rw [if_neg hdir] at h
  simp only [bind_ok, okOr_ok] at h
  obtain ⟨buf, hbuf, h⟩ := h
  have hfile : HasFile [entry] name :=
    ⟨hspecial, entry, List.mem_singleton_self entry, hname, by simpa using hdir⟩
  have hseen : ∀ n ∈ name :: checked.seen, n ∈ checked.seen ∨ HasFile [entry] n := by
    intro n hn
    rcases List.mem_cons.mp hn with rfl | hn
    · exact Or.inr hfile
    · exact Or.inl hn
  by_cases hmatch : expected.lookup name = some (platform.sha256Hex buf)
  · rw [if_pos hmatch, pure_ok] at h
    subst h
    exact ⟨le_rfl, fun _ => ⟨name, hname, fun _ _ => ⟨buf, hbuf, hmatch⟩⟩, hseen⟩
  · rw [if_neg hmatch, pure_ok] at h
    subst h
    refine ⟨Nat.le_succ _, fun hsame => ?_, hseen⟩
    exact absurd hsame (Nat.succ_ne_self _)

theorem checkFile_fold_ok {archive : Archive} {checked checked' : Checked}
    (h : archive.foldlM (checkFile platform expected) checked = .ok checked') :
    checked.mismatches ≤ checked'.mismatches ∧
      (checked'.mismatches = checked.mismatches →
        ∀ entry ∈ archive, Listed platform expected entry) ∧
      ∀ name ∈ checked'.seen, name ∈ checked.seen ∨ HasFile archive name := by
  induction archive generalizing checked with
  | nil =>
    rw [List.foldlM_nil, pure_ok] at h
    subst h
    exact ⟨le_rfl, by simp, fun _ => Or.inl⟩
  | cons entry archive ih =>
    rw [List.foldlM_cons, bind_ok] at h
    obtain ⟨next, hnext, h⟩ := h
    obtain ⟨hle, hlisted, hseen⟩ := checkFile_ok hnext
    obtain ⟨hle', hlisted', hseen'⟩ := ih h
    refine ⟨hle.trans hle', ?_, ?_⟩
    · intro hsame e he
      rcases List.mem_cons.mp he with rfl | he
      · exact hlisted (by omega)
      · exact hlisted' (by omega) e he
    · intro name hname
      rcases hseen' name hname with hname | ⟨hnot, e, he, hfile⟩
      · rcases hseen name hname with hname | ⟨hnot, e, he, hfile⟩
        · exact Or.inl hname
        · rw [List.mem_singleton] at he
          exact Or.inr ⟨hnot, e, he ▸ List.mem_cons_self, hfile⟩
      · exact Or.inr ⟨hnot, e, List.mem_cons_of_mem _ he, hfile⟩

/-- The files of an archive are those of its manifest. -/
structure FilesMatch (platform : Platform) (archive : Archive) (manifest : CaseManifest) : Prop where
  names : (archive.filterMap Entry.name).Nodup
  listed : ∀ entry ∈ archive, Listed platform manifest.fileHashes entry
  present : ∀ file ∈ manifest.fileHashes, HasFile archive file.1

theorem checkFiles_ok {archive : Archive} {manifest : CaseManifest}
    (h : checkFiles platform archive manifest = .ok ()) : FilesMatch platform archive manifest := by
  unfold checkFiles at h
  simp only [bind_ok, refuseIf_ok, not_not, Nat.not_lt, Nat.le_zero] at h
  obtain ⟨_, hnames, _, _, checked, hchecked, hnone⟩ := h
  obtain ⟨_, hlisted, hseen⟩ := checkFile_fold_ok hchecked
  obtain ⟨hmismatches, hmissing⟩ := Nat.add_eq_zero_iff.mp hnone
  refine ⟨hnames, hlisted hmismatches, ?_⟩
  intro file hfile
  have hfound : file.1 ∈ checked.seen := by
    rw [List.length_eq_zero_iff, List.filter_eq_nil_iff] at hmissing
    simpa using hmissing file hfile
  rcases hseen file.1 hfound with hnil | hfile
  · simp at hnil
  · exact hfile

end Files

section Contents

/-- The files of an archive with their data: all but the signature and its key, and directories. -/
def contents (archive : Archive) : Set (String × List UInt8) :=
  {file | ∃ entry ∈ archive, entry.name = some file.1 ∧ entry.data = some file.2 ∧
    file.1 ≠ "signature.sig" ∧ file.1 ≠ "verify-pubkey.hex" ∧
    (entry.isDir = false ∨ file.1 = "case-manifest.json" ∨ file.1 = "hashes.txt")}

theorem readZipEntry_of_mem {archive : Archive} (hnames : (archive.filterMap Entry.name).Nodup)
    {entry : Entry} (hmem : entry ∈ archive) {name : String} (hname : entry.name = some name) :
    readZipEntry archive name = entry.data := by
  have hfind : archive.find? (fun e => e.name = some name) = some entry := by
    induction archive with
    | nil => simp at hmem
    | cons e archive ih =>
      rw [List.find?_cons]
      rcases List.mem_cons.mp hmem with rfl | hmem
      · simp [hname]
      · have hother : e.name ≠ some name := by
          intro hsame
          rw [List.filterMap_cons_some hsame, List.nodup_cons] at hnames
          exact hnames.1 (List.mem_filterMap.mpr ⟨entry, hmem, hname⟩)
        have hrest : (archive.filterMap Entry.name).Nodup := by
          cases he : e.name with
          | none => rwa [List.filterMap_cons_none he] at hnames
          | some other =>
            rw [List.filterMap_cons_some he] at hnames
            exact hnames.of_cons
        simpa [hother] using ih hrest hmem
  rw [readZipEntry, hfind, Option.bind_some]

theorem exists_entry_of_readZipEntry {archive : Archive} {name : String} {data : List UInt8}
    (h : readZipEntry archive name = some data) :
    ∃ entry ∈ archive, entry.name = some name ∧ entry.data = some data := by
  obtain ⟨entry, hfind, hdata⟩ := Option.bind_eq_some_iff.mp h
  have hname := List.find?_some hfind
  exact ⟨entry, List.mem_of_find?_eq_some hfind, of_decide_eq_true hname, hdata⟩

/-- What the two archives hold has no collisions. -/
def CollisionFree (platform : Platform) (first second : Archive) : Prop :=
  ∀ entry ∈ first, ∀ entry' ∈ second, ∀ data ∈ entry.data, ∀ data' ∈ entry'.data,
    platform.sha256 data = platform.sha256 data' → data = data'

theorem CollisionFree.symm {first second : Archive} (h : CollisionFree platform first second) :
    CollisionFree platform second first := by
  intro entry hentry entry' hentry' data hdata data' hdata' hsame
  exact (h entry' hentry' entry hentry data' hdata' data hdata hsame.symm).symm

/-- Archives that match one manifest and have the same hash list have the same files. -/
theorem contents_subset {first second : Archive} {manifest : CaseManifest}
    (hfirst : FilesMatch platform first manifest) (hsecond : FilesMatch platform second manifest)
    (hfree : CollisionFree platform first second)
    (hmanifest : readZipEntry first "case-manifest.json" = readZipEntry second "case-manifest.json")
    (hhashes : readZipEntry first "hashes.txt" = readZipEntry second "hashes.txt") :
    contents first ⊆ contents second := by
  rintro ⟨name, data⟩ ⟨entry, hmem, hname, hdata, hsignature, hkey, hkind⟩
  simp only at hname hdata hsignature hkey hkind
  have hread : readZipEntry first name = some data := by
    rw [readZipEntry_of_mem hfirst.names hmem hname, hdata]
  by_cases hspecial : name = "case-manifest.json" ∨ name = "hashes.txt"
  · have hread' : readZipEntry second name = some data := by
      rcases hspecial with rfl | rfl
      · exact hmanifest ▸ hread
      · exact hhashes ▸ hread
    obtain ⟨entry', hmem', hname', hdata'⟩ := exists_entry_of_readZipEntry hread'
    exact ⟨entry', hmem', hname', hdata', hsignature, hkey, Or.inr hspecial⟩
  · have hfile : entry.isDir = false := hkind.resolve_right hspecial
    have hnot : name ∉ special := by
      simp only [special, List.mem_cons, List.not_mem_nil, or_false]
      tauto
    obtain ⟨own, hown, hlisted⟩ := hfirst.listed entry hmem
    obtain rfl : name = own := Option.some.inj (hname.symm.trans hown)
    obtain ⟨buf, hbuf, hlookup⟩ := hlisted hnot hfile
    obtain rfl : data = buf := Option.some.inj (hdata.symm.trans hbuf)
    have hlisted : (name, platform.sha256Hex data) ∈ manifest.fileHashes := by
      obtain ⟨_, _, hsplit, _⟩ := List.lookup_eq_some_iff.mp hlookup
      simp [hsplit]
    obtain ⟨_, entry', hmem', hname', hfile'⟩ := hsecond.present _ hlisted
    obtain ⟨own', hown', hlisted'⟩ := hsecond.listed entry' hmem'
    obtain rfl : name = own' := Option.some.inj (hname'.symm.trans hown')
    obtain ⟨data', hdata', hlookup'⟩ := hlisted' hnot hfile'
    have hhash : platform.sha256Hex data = platform.sha256Hex data' :=
      Option.some.inj (hlookup.symm.trans hlookup')
    have hsame : platform.sha256 data = platform.sha256 data' :=
      Hex.encode_injective (String.ofList_injective hhash)
    have hequal := hfree entry hmem entry' hmem' data hdata data' hdata' hsame
    exact ⟨entry', hmem', hname', hequal ▸ hdata', hsignature, hkey, Or.inl hfile'⟩

end Contents

section Chain

variable {signed : List UInt8 → List UInt8 → Prop} {key : List UInt8} {manifest : CaseManifest}

/-- Lines that link one to the next, each signed and of the manifest's case and examiner. -/
inductive Chain (platform : Platform) (signed : List UInt8 → List UInt8 → Prop) (key : List UInt8)
    (manifest : CaseManifest) : String → List (List Char) → String → Prop where
  | nil (prev : String) : Chain platform signed key manifest prev [] prev
  | cons {prev last : String} {line : List Char} {lines : List (List Char)} (entry : AuditEntry)
      (parsed : (platform.parse (String.ofList line)).bind readAuditEntry = some entry)
      (caseNo : entry.caseNo = manifest.caseNo) (examiner : entry.examinerId = manifest.examinerId)
      (link : entry.prevHash = prev) (isSigned : signed key entry.unsignedJson)
      (rest : Chain platform signed key manifest (platform.sha256Hex (utf8 line)) lines last) :
      Chain platform signed key manifest prev (line :: lines) last

theorem chain_of_foldlM
    (hsound : ∀ message signature, platform.verifies key message signature = true → signed key message)
    {lines : List (List Char)} {prev last : String}
    (h : lines.foldlM (checkLine platform key manifest) prev = .ok last) :
    Chain platform signed key manifest prev lines last := by
  induction lines generalizing prev with
  | nil =>
    rw [List.foldlM_nil, pure_ok] at h
    exact h ▸ .nil prev
  | cons line lines ih =>
    rw [List.foldlM_cons, bind_ok] at h
    obtain ⟨next, hnext, h⟩ := h
    unfold checkLine at hnext
    simp only [bind_ok, refuseIf_ok, okOr_ok, pure_ok, not_or, not_not, Bool.not_eq_false] at hnext
    obtain ⟨entry, hparsed, _, ⟨hcase, hexaminer⟩, _, hlink, sig, _, _, hverifies, rfl⟩ := hnext
    exact .cons entry hparsed hcase hexaminer hlink (hsound _ _ hverifies) (ih h)

/-- The audit log of an archive is one signed chain that ends in the head of the signed manifest. -/
def AuditChained (platform : Platform) (signed : List UInt8 → List UInt8 → Prop)
    (key : List UInt8) (archive : Archive) : Prop :=
  ∃ hashes manifestText manifest audit,
    readZipEntry archive "hashes.txt" = some hashes ∧ signed key hashes ∧
    readZipText archive "case-manifest.json" = some manifestText ∧
    signedManifestMatches platform hashes (Bytes.ofString manifestText) = true ∧
    (platform.parse manifestText).bind readManifest = some manifest ∧
    readZipText archive "audit-chain.jsonl" = some audit ∧ auditLines audit ≠ [] ∧
    Chain platform signed key manifest zeroHash (auditLines audit) manifest.auditChainHeadHash

end Chain

section Accepted

variable {signed : List UInt8 → List UInt8 → Prop} {key : List UInt8} {archive : Archive}

theorem checkSignature_ok {manifest : CaseManifest} {text : String}
    (hsound : ∀ message signature, platform.verifies key message signature = true → signed key message)
    (h : checkSignature platform archive key manifest text = .ok ()) :
    ∃ hashes, readZipEntry archive "hashes.txt" = some hashes ∧ signed key hashes ∧
      signedManifestMatches platform hashes (Bytes.ofString text) = true := by
  unfold checkSignature at h
  simp only [bind_ok, refuseIf_ok, okOr_ok, not_not, Bool.not_eq_false] at h
  obtain ⟨hashes, hhashes, sig, _, pk, _, bytes, _, _, _, _, rfl, _, _, _, _, sigBytes, _, _, _, _,
    hverifies, hmatches⟩ := h
  exact ⟨hashes, hhashes, hsound _ _ hverifies, hmatches⟩

/-- What is known of an accepted archive. -/
structure Accepted (platform : Platform) (signed : List UInt8 → List UInt8 → Prop)
    (key : List UInt8) (archive : Archive) (bytes : List UInt8) (manifest : CaseManifest) :
    Prop where
  manifestBytes : readZipEntry archive "case-manifest.json" = some bytes
  parsed : ∃ text, Bytes.toString bytes = some text ∧
    (platform.parse text).bind readManifest = some manifest
  files : FilesMatch platform archive manifest
  bound : ∃ hashes, readZipEntry archive "hashes.txt" = some hashes ∧ signed key hashes ∧
    signedManifestMatches platform hashes bytes = true
  audit : ∃ audit, readZipText archive "audit-chain.jsonl" = some audit ∧ auditLines audit ≠ [] ∧
    Chain platform signed key manifest zeroHash (auditLines audit) manifest.auditChainHeadHash

theorem verifyArchive_ok
    (hsound : ∀ message signature, platform.verifies key message signature = true → signed key message)
    (h : verifyArchive platform key archive = .ok ()) :
    ∃ bytes manifest, Accepted platform signed key archive bytes manifest := by
  unfold verifyArchive at h
  simp only [bind_ok, okOr_ok] at h
  obtain ⟨text, htext, manifest, hmanifest, _, hfiles, _, hsignature, hchain⟩ := h
  obtain ⟨bytes, hbytes, hutf8⟩ := Option.bind_eq_some_iff.mp htext
  have hbound := checkSignature_ok hsound hsignature
  rw [Bytes.ofString_of_toString hutf8] at hbound
  unfold checkChain at hchain
  simp only [bind_ok, refuseIf_ok, okOr_ok, not_or, not_not] at hchain
  obtain ⟨audit, haudit, last, hfold, hnonempty, rfl⟩ := hchain
  exact ⟨bytes, manifest, hbytes, ⟨text, hutf8, hmanifest⟩, checkFiles_ok hfiles, hbound, audit,
    haudit, hnonempty, chain_of_foldlM hsound hfold⟩

theorem Accepted.auditChained {bytes : List UInt8} {manifest : CaseManifest}
    (h : Accepted platform signed key archive bytes manifest) :
    AuditChained platform signed key archive := by
  obtain ⟨text, htext, hparsed⟩ := h.parsed
  obtain ⟨hashes, hhashes, hsigned, hmatches⟩ := h.bound
  obtain ⟨audit, haudit, hnonempty, hchain⟩ := h.audit
  have hread : readZipText archive "case-manifest.json" = some text := by
    rw [readZipText, h.manifestBytes, Option.bind_some, htext]
  rw [← Bytes.ofString_of_toString htext] at hmatches
  exact ⟨hashes, text, manifest, audit, hhashes, hsigned, hread, hmatches, hparsed, haudit,
    hnonempty, hchain⟩

/-- The hash list determines the manifest. -/
theorem Accepted.manifestBytes_eq {archive' : Archive} {key' bytes bytes' : List UInt8}
    {manifest manifest' : CaseManifest} (h : Accepted platform signed key archive bytes manifest)
    (h' : Accepted platform signed key' archive' bytes' manifest')
    (hfree : CollisionFree platform archive archive')
    (hhashes : readZipEntry archive "hashes.txt" = readZipEntry archive' "hashes.txt") :
    bytes = bytes' := by
  obtain ⟨hashes, hread, _, hmatches⟩ := h.bound
  obtain ⟨hashes', hread', _, hmatches'⟩ := h'.bound
  obtain rfl : hashes = hashes' := by
    rw [hread, hread'] at hhashes
    exact Option.some.inj hhashes
  have hsame := signedManifestMatches_unique hmatches hmatches'
  obtain ⟨entry, hentry, _, hdata⟩ := exists_entry_of_readZipEntry h.manifestBytes
  obtain ⟨entry', hentry', _, hdata'⟩ := exists_entry_of_readZipEntry h'.manifestBytes
  exact hfree entry hentry entry' hentry' bytes hdata bytes' hdata' hsame

theorem Accepted.manifest_eq {archive' : Archive} {key' bytes : List UInt8}
    {manifest manifest' : CaseManifest} (h : Accepted platform signed key archive bytes manifest)
    (h' : Accepted platform signed key' archive' bytes manifest') : manifest = manifest' := by
  obtain ⟨text, htext, hparsed⟩ := h.parsed
  obtain ⟨text', htext', hparsed'⟩ := h'.parsed
  obtain rfl : text = text' := Option.some.inj (htext.symm.trans htext')
  exact Option.some.inj (hparsed.symm.trans hparsed')

/-- Two accepted archives with one hash list have the same files. -/
theorem Accepted.contents_eq {archive' : Archive} {key' bytes bytes' : List UInt8}
    {manifest manifest' : CaseManifest} (h : Accepted platform signed key archive bytes manifest)
    (h' : Accepted platform signed key' archive' bytes' manifest')
    (hfree : CollisionFree platform archive archive')
    (hhashes : readZipEntry archive "hashes.txt" = readZipEntry archive' "hashes.txt") :
    contents archive = contents archive' := by
  have hbytes := h.manifestBytes_eq h' hfree hhashes
  subst hbytes
  have hmanifest := h.manifest_eq h'
  subst hmanifest
  have hread := h.manifestBytes.trans h'.manifestBytes.symm
  apply Set.Subset.antisymm
  · exact contents_subset h.files h'.files hfree hread hhashes
  · exact contents_subset h'.files h.files hfree.symm hread.symm hhashes.symm

end Accepted

section Complete

variable {signed : List UInt8 → List UInt8 → Prop}

theorem main_eq_zero {files : Files} {program path key : String} {archive : Archive}
    (hfile : files path = some (some archive))
    (h : main platform files [program, path, "--trusted-key", key] = 0) :
    ∃ trustedKey, Hex.decode key.toList = some trustedKey ∧
      verifyArchive platform trustedKey archive = .ok () := by
  unfold main at h
  cases hrun : runMain platform files [program, path, "--trusted-key", key] with
  | ok u =>
    simp only [runMain, bind_ok, refuseIf_ok, okOr_ok, hfile] at hrun
    obtain ⟨_, _, trusted, hkey, bundle, hbundle, opened, hopened, hverified⟩ := hrun
    obtain rfl : some archive = bundle := Option.some.inj hbundle
    obtain rfl : archive = opened := Option.some.inj hopened
    exact ⟨trusted, Option.eq_some_of_filter_eq_some hkey, hverified⟩
  | error failure =>
    rw [hrun] at h
    cases failure <;> cases h

theorem main_of_verifyArchive {files : Files} {program path key : String} {archive : Archive}
    {trustedKey : List UInt8} (hfile : files path = some (some archive))
    (hkey : Hex.decode key.toList = some trustedKey) (hlength : trustedKey.length = 32)
    (h : verifyArchive platform trustedKey archive = .ok ()) :
    main platform files [program, path, "--trusted-key", key] = 0 := by
  have hrun : runMain platform files [program, path, "--trusted-key", key] = .ok () := by
    simp only [runMain, bind_ok, refuseIf_ok, okOr_ok, hfile]
    refine ⟨(), by decide, trustedKey, ?_, some archive, rfl, archive, rfl, h⟩
    rw [hkey, Option.filter_some, if_pos (by simpa using hlength)]
  rw [main, hrun]

/-- Accepted archives with one trusted key and one hash list have the same files, and the audit log
of an accepted archive is one signed chain. -/
theorem accepted_files_agree_and_audit_chained
    (hsound : ∀ key message signature,
      platform.verifies key message signature = true → signed key message) :
    (∀ files program path path' key first second, files path = some (some first) →
      files path' = some (some second) →
      main platform files [program, path, "--trusted-key", key] = 0 →
      main platform files [program, path', "--trusted-key", key] = 0 →
      readZipEntry first "hashes.txt" = readZipEntry second "hashes.txt" →
      CollisionFree platform first second → contents first = contents second) ∧
    ∀ files program path key archive, files path = some (some archive) →
      main platform files [program, path, "--trusted-key", key] = 0 →
      ∃ trustedKey, Hex.decode key.toList = some trustedKey ∧
        AuditChained platform signed trustedKey archive := by
  refine ⟨?_, ?_⟩
  · intro files program path path' key first second hfile hfile' h h' hhashes hfree
    obtain ⟨trusted, _, hverified⟩ := main_eq_zero hfile h
    obtain ⟨trusted', _, hverified'⟩ := main_eq_zero hfile' h'
    obtain ⟨bytes, manifest, haccepted⟩ := verifyArchive_ok (hsound trusted) hverified
    obtain ⟨bytes', manifest', haccepted'⟩ := verifyArchive_ok (hsound trusted') hverified'
    exact haccepted.contents_eq haccepted' hfree hhashes
  · intro files program path key archive hfile h
    obtain ⟨trusted, hkey, hverified⟩ := main_eq_zero hfile h
    obtain ⟨bytes, manifest, haccepted⟩ := verifyArchive_ok (hsound trusted) hverified
    exact ⟨trusted, hkey, haccepted.auditChained⟩

end Complete

section Directories

theorem readZipEntry_append {archive : Archive} {entry : Entry} {name : String}
    (h : entry.name ≠ some name) :
    readZipEntry (archive ++ [entry]) name = readZipEntry archive name := by
  have hnone : [entry].find? (fun e => e.name = some name) = none := by simp [h]
  rw [readZipEntry, readZipEntry, List.find?_append, hnone, Option.or_none]

theorem readZipText_append {archive : Archive} {entry : Entry} {name : String}
    (h : entry.name ≠ some name) :
    readZipText (archive ++ [entry]) name = readZipText archive name := by
  rw [readZipText, readZipText, readZipEntry_append h]

theorem checkFile_directory {expected : List (String × String)} {checked : Checked} {name : String}
    {data : Option (List UInt8)} (h : name ∉ special) :
    checkFile platform expected checked ⟨some name, true, data⟩ = .ok checked := by
  unfold checkFile
  simp only [bind_ok, okOr_ok]
  refine ⟨name, rfl, ?_⟩
  rw [if_neg h]
  rfl

/-- A directory with any data may be added: nothing that is signed names directories. -/
theorem verifyArchive_append_directory {key : List UInt8} {archive : Archive} {name : String}
    (data : Option (List UInt8)) (hspecial : name ∉ special) (hfresh : some name ∉ archive.map Entry.name)
    (h : verifyArchive platform key archive = .ok ()) :
    verifyArchive platform key (archive ++ [⟨some name, true, data⟩]) = .ok () := by
  have hother : ∀ n, readZipText archive n ≠ none ∨ n ∈ special → name ≠ n := by
    rintro n hn rfl
    rcases hn with hn | hn
    · have hnone : archive.find? (fun e => e.name = some name) = none := by
        rw [List.find?_eq_none]
        intro entry hentry hname
        exact hfresh (List.mem_map.mpr ⟨entry, hentry, of_decide_eq_true hname⟩)
      rw [readZipText, readZipEntry, hnone] at hn
      exact hn rfl
    · exact hspecial hn
  have hread : ∀ n, readZipText archive n ≠ none ∨ n ∈ special →
      readZipText (archive ++ [⟨some name, true, data⟩]) n = readZipText archive n := by
    intro n hn
    exact readZipText_append fun hsame => hother n hn (Option.some.inj hsame)
  have hhashes : readZipEntry (archive ++ [⟨some name, true, data⟩]) "hashes.txt" =
      readZipEntry archive "hashes.txt" := by
    apply readZipEntry_append
    exact fun hsame => hother _ (Or.inr (by decide)) (Option.some.inj hsame)
  have hmanifestText := hread "case-manifest.json" (Or.inr (by decide))
  have hsig := hread "signature.sig" (Or.inr (by decide))
  have hkey := hread "verify-pubkey.hex" (Or.inr (by decide))
  unfold verifyArchive at h ⊢
  simp only [bind_ok, okOr_ok] at h ⊢
  obtain ⟨text, htext, manifest, hmanifest, _, hfiles, _, hsignature, hchain⟩ := h
  refine ⟨text, hmanifestText.trans htext, manifest, hmanifest, (), ?_, (), ?_, ?_⟩
  · unfold checkFiles at hfiles ⊢
    simp only [bind_ok, refuseIf_ok, not_not] at hfiles ⊢
    obtain ⟨_, hnames, _, hexpected, checked, hchecked, hmatch⟩ := hfiles
    refine ⟨(), ?_, (), hexpected, checked, ?_, hmatch⟩
    · rw [List.filterMap_append, List.nodup_append]
      refine ⟨hnames, by simp, ?_⟩
      rintro n hn n' hn' rfl
      obtain ⟨entry, hentry, hname⟩ := List.mem_filterMap.mp hn
      obtain rfl : n = name := by simpa using hn'
      exact hfresh (List.mem_map.mpr ⟨entry, hentry, hname⟩)
    · rw [List.foldlM_append, bind_ok]
      refine ⟨checked, hchecked, ?_⟩
      rw [List.foldlM_cons, checkFile_directory hspecial]
      rfl
  · unfold checkSignature at hsignature ⊢
    rwa [hhashes, hsig, hkey]
  · unfold checkChain at hchain ⊢
    cases haudit : readZipText archive "audit-chain.jsonl" with
    | none =>
      rw [haudit] at hchain
      cases hchain
    | some audit =>
      rw [hread "audit-chain.jsonl" (Or.inl (by simp [haudit]))]
      exact hchain

end Directories

section Sample

theorem ofString_ofList (text : List Char) : Bytes.ofString (String.ofList text) = utf8 text := by
  rw [Bytes.ofString, String.toByteArray_ofList]
  simp [List.utf8Encode, utf8]

theorem toString_utf8 (text : List Char) : Bytes.toString (utf8 text) = some (String.ofList text) := by
  rw [← ofString_ofList, Bytes.toString_ofString]

/-- A bundle of one audit line. -/
def sampleEntry : AuditEntry :=
  ⟨5, "E", "C", "open", none, none, zeroHash, String.ofList (List.replicate 128 '7')⟩

def sampleLineValue : Value :=
  .object [("ts", Serde.ofNatural 5), ("examiner_id", .string "E"), ("case_no", .string "C"),
    ("op", .string "open"), ("prev_hash", .string zeroHash),
    ("sig", .string (String.ofList (List.replicate 128 '7')))]

def sampleLine : List Char := sampleLineValue.write

/-- A hash of the first three bytes, which all files here differ in. -/
def sampleHash (data : List UInt8) : List UInt8 := data.take 3 ++ List.replicate 29 0

def sampleHex (text : List Char) : String := String.ofList (Hex.encode (sampleHash (utf8 text)))

def sampleKey : List Char := List.replicate 64 'a'

def sampleManifest : Value :=
  .object [("case_no", .string "C"), ("examiner_id", .string "E"), ("examiner_name", .string "N"),
    ("agency", .string "A"), ("warrant_ref", .string "W"), ("started_at", Serde.ofNatural 1),
    ("finalized_at", Serde.ofNatural 9), ("audit_chain_head_hash", .string (sampleHex sampleLine)),
    ("session_key_public_hex", .string (String.ofList sampleKey)),
    ("file_hashes", .array [.array [.string "audit-chain.jsonl",
      .string (sampleHex (sampleLine ++ ['\n']))]])]

def sampleParse (text : String) : Option Value :=
  if text = String.ofList sampleManifest.write then some sampleManifest
  else if text = String.ofList sampleLine then some sampleLineValue
  else none

def samplePlatform : Platform where
  parse := sampleParse
  sha256 := sampleHash
  onCurve _ := true
  verifies _ _ signature := signature = List.replicate 64 0x77

def sampleFile (name : String) (text : List Char) : Entry := ⟨some name, false, some (utf8 text)⟩

def sampleHashes : List Char := (sampleHex sampleManifest.write).toList ++ "  case-manifest.json".toList

def sampleArchive : Archive :=
  [sampleFile "case-manifest.json" sampleManifest.write,
    sampleFile "hashes.txt" (sampleHashes ++ ['\n']),
    sampleFile "signature.sig" (List.replicate 128 '7'),
    sampleFile "verify-pubkey.hex" sampleKey,
    sampleFile "audit-chain.jsonl" (sampleLine ++ ['\n'])]

/-- The manifest's digest, as it is written. -/
def sampleDigest : List Char := Hex.encode (sampleHash (utf8 sampleManifest.write))

theorem sampleHashes_eq : sampleHashes = sampleDigest ++ [' ', ' ', 'c', 'a', 's', 'e', '-', 'm', 'a',
    'n', 'i', 'f', 'e', 's', 't', '.', 'j', 's', 'o', 'n'] := by
  have hname : "  case-manifest.json".toList = [' ', ' ', 'c', 'a', 's', 'e', '-', 'm', 'a', 'n', 'i',
      'f', 'e', 's', 't', '.', 'j', 's', 'o', 'n'] := String.toList_ofList
  rw [sampleHashes, sampleHex, String.toList_ofList, sampleDigest, hname]

/-- The closed facts about the files of the bundle. -/
theorem sample_facts : sampleLine ≠ sampleManifest.write ∧
    Hex.decode sampleKey = some (List.replicate 32 0xaa) ∧
    (Hex.decode (List.replicate 128 '7')).filter (·.length = 64) = some (List.replicate 64 0x77) ∧
    '\n' ∉ sampleHashes ∧
    matchLines (utf8 sampleDigest) 0 [AsciiText.withoutReturn sampleHashes] = true := by
  rw [sampleHashes_eq]
  decide +kernel

theorem signedManifestMatches_sample : signedManifestMatches samplePlatform
    (utf8 (sampleHashes ++ ['\n'])) (Bytes.ofString (String.ofList sampleManifest.write)) = true := by
  obtain ⟨_, _, _, hnewline, hmatches⟩ := sample_facts
  rw [signedManifestMatches, toString_utf8, ofString_ofList]
  simp only [String.toList_ofList, Platform.sha256Hex]
  rw [AsciiText.lines_newline hnewline]
  exact hmatches

theorem trim_replicate (n : ℕ) {c : Char} (h : AsciiText.isWhiteSpace c = false) :
    AsciiText.trim (String.ofList (List.replicate n c)) = String.ofList (List.replicate n c) := by
  simp [AsciiText.trim, AsciiText.trimChars, List.rdropWhile, h]

theorem newline_not_mem_writeString (s : String) : '\n' ∉ writeString s := by
  have hchar (c : Char) : '\n' ∉ escapeChar c := by
    by_cases hc : c = '\n'
    · rw [hc]
      decide
    unfold escapeChar
    split
    all_goals try decide
    split
    · next hsmall =>
      have hdigits : ∀ n < 32, '\n' ∉ ['\\', 'u', '0', '0', hexDigit (n / 16), hexDigit (n % 16)] := by
        decide
      exact hdigits c.toNat hsmall
    · exact fun hmem => hc (List.mem_singleton.mp hmem).symm
  rw [writeString, List.cons_append, List.mem_cons, List.mem_append, List.mem_flatMap]
  rintro (h | ⟨c, -, h⟩ | h)
  · revert h
    decide
  · exact hchar c h
  · revert h
    decide

theorem auditLines_sample : auditLines (String.ofList (sampleLine ++ ['\n'])) = [sampleLine] := by
  have hnewline : '\n' ∉ sampleLine := by
    have hnumber : '\n' ∉ (Serde.ofNatural 5).write := by decide
    simp [sampleLine, sampleLineValue, Value.write, Value.writeMembers, commaSeparated,
      newline_not_mem_writeString, hnumber]
  obtain ⟨inside, hinside⟩ : ∃ inside, sampleLine = '{' :: inside ++ ['}'] := ⟨_, Value.write.eq_7 _⟩
  have hplain : AsciiText.withoutReturn sampleLine = sampleLine := by
    rw [AsciiText.withoutReturn, hinside, List.getLast?_concat, if_neg (by decide)]
  have htext : AsciiText.trimChars sampleLine ≠ [] := by
    rw [AsciiText.trimChars, hinside, List.cons_append, List.dropWhile_cons_of_neg (by decide),
      ← List.cons_append, List.rdropWhile_concat_neg _ _ _ (by decide)]
    exact List.cons_ne_nil _ _
  rw [auditLines, String.toList_ofList, AsciiText.lines_newline hnewline, hplain,
    List.filter_cons_of_pos, List.filter_nil]
  exact decide_eq_true htext

def sampleCase : CaseManifest where
  caseNo := "C"
  examinerId := "E"
  examinerName := "N"
  agency := "A"
  warrantRef := "W"
  startedAt := 1
  finalizedAt := 9
  auditChainHeadHash := sampleHex sampleLine
  sessionKeyPublicHex := String.ofList sampleKey
  fileHashes := [("audit-chain.jsonl", sampleHex (sampleLine ++ ['\n']))]

theorem readManifest_sample : readManifest sampleManifest = some sampleCase := rfl

theorem sampleParse_manifest :
    sampleParse (String.ofList sampleManifest.write) = some sampleManifest := by
  rw [sampleParse, if_pos rfl]

theorem sampleParse_line : sampleParse (String.ofList sampleLine) = some sampleLineValue := by
  have hother : ¬ String.ofList sampleLine = String.ofList sampleManifest.write := by
    intro h
    exact absurd (String.ofList_injective h) sample_facts.1
  rw [sampleParse, if_neg hother, if_pos rfl]

theorem checkLine_sample : checkLine samplePlatform (List.replicate 32 0xaa) sampleCase zeroHash
    sampleLine = .ok (sampleHex sampleLine) := by
  have hparse : samplePlatform.parse = sampleParse := by rw [samplePlatform]
  have hread : readAuditEntry sampleLineValue = some sampleEntry := rfl
  unfold checkLine
  simp only [bind_ok, refuseIf_ok, okOr_ok]
  refine ⟨sampleEntry, ?_, (), by decide, (), by decide, List.replicate 64 0x77, ?_, (), by decide, rfl⟩
  · rw [hparse, sampleParse_line, Option.bind_some, hread]
  · rw [sampleEntry, String.toList_ofList]
    exact sample_facts.2.2.1

theorem sample_accepted :
    verifyArchive samplePlatform (List.replicate 32 0xaa) sampleArchive = .ok () := by
  have hread : ∀ name text, readZipEntry sampleArchive name = some (utf8 text) →
      readZipText sampleArchive name = some (String.ofList text) := by
    intro name text h
    rw [readZipText, h, Option.bind_some, toString_utf8]
  have hparse : samplePlatform.parse = sampleParse := by rw [samplePlatform]
  obtain ⟨_, hdecoded, hsignature, _⟩ := sample_facts
  have hsig := hread "signature.sig" _ rfl
  have hkey := hread "verify-pubkey.hex" _ rfl
  unfold verifyArchive
  simp only [bind_ok, okOr_ok]
  refine ⟨_, hread "case-manifest.json" _ rfl, sampleCase, ?_, (), ?_, (), ?_, ?_⟩
  · rw [hparse, sampleParse_manifest, Option.bind_some, readManifest_sample]
  · unfold checkFiles
    simp only [bind_ok, refuseIf_ok]
    refine ⟨(), by decide, (), by decide, ⟨["audit-chain.jsonl"], 0⟩, rfl, by decide⟩
  · unfold checkSignature
    rw [hsig, hkey]
    simp only [bind_ok, refuseIf_ok, okOr_ok]
    refine ⟨utf8 (sampleHashes ++ ['\n']), rfl, String.ofList (List.replicate 128 '7'), ?_,
      String.ofList sampleKey, ?_, List.replicate 32 0xaa, ?_, (), by decide, (), by decide, (), ?_, (),
      by decide, List.replicate 64 0x77, ?_, (), by decide, (), by decide, ?_⟩
    · rw [Option.map_some, trim_replicate 128 (by decide)]
    · rw [Option.map_some, sampleKey, trim_replicate 64 (by decide)]
    · rw [String.toList_ofList]
      exact hdecoded
    · simp [sampleCase, AsciiText.eqIgnoreCase]
    · rw [String.toList_ofList]
      exact (Option.filter_eq_some_iff.mp hsignature).1
    · rw [signedManifestMatches_sample]
      decide
  · unfold checkChain
    rw [hread "audit-chain.jsonl" _ rfl]
    simp only [bind_ok, refuseIf_ok, okOr_ok]
    refine ⟨_, rfl, sampleHex sampleLine, ?_, ?_⟩
    · rw [auditLines_sample, List.foldlM_cons, checkLine_sample]
      rfl
    · rw [auditLines_sample]
      decide

/-- A directory that holds data. -/
def hidden : Entry := ⟨some "hidden/", true, some [1, 2, 3]⟩

def sampleFiles : Files := fun path =>
  if path = "a" then some (some sampleArchive) else some (some (sampleArchive ++ [hidden]))

theorem sample_collisionFree :
    CollisionFree samplePlatform sampleArchive (sampleArchive ++ [hidden]) := by
  have hnames : ∀ entry ∈ sampleArchive, ∀ entry' ∈ sampleArchive ++ [hidden], ∀ data ∈ entry.data,
      ∀ data' ∈ entry'.data, sampleHash data = sampleHash data' →
        ∃ name ∈ entry.name, entry'.name = some name := by
    decide +kernel
  intro entry hentry entry' hentry' data hdata data' hdata' hsame
  obtain ⟨name, hname, hname'⟩ := hnames entry hentry entry' hentry' data hdata data' hdata' hsame
  have hnodup : ((sampleArchive ++ [hidden]).filterMap Entry.name).Nodup := by decide
  have hread := readZipEntry_of_mem hnodup (List.mem_append_left _ hentry) hname
  rw [readZipEntry_of_mem hnodup hentry' hname', hdata, hdata'] at hread
  exact (Option.some.inj hread).symm

theorem main_sample :
    main samplePlatform sampleFiles ["", "a", "--trusted-key", String.ofList sampleKey] = 0 ∧
      main samplePlatform sampleFiles ["", "b", "--trusted-key", String.ofList sampleKey] = 0 := by
  have hkey : Hex.decode (String.ofList sampleKey).toList = some (List.replicate 32 0xaa) := by
    rw [String.toList_ofList]
    exact sample_facts.2.1
  have hadded := verifyArchive_append_directory (some [1, 2, 3]) (by decide : "hidden/" ∉ special)
    (by decide) sample_accepted
  refine ⟨?_, ?_⟩
  · exact main_of_verifyArchive rfl hkey (by decide) sample_accepted
  · exact main_of_verifyArchive rfl hkey (by decide) hadded

/-- All entries of an archive with their data but the signature and its key. -/
def allContents (archive : Archive) : Set (String × List UInt8) :=
  {file | ∃ entry ∈ archive, entry.name = some file.1 ∧ entry.data = some file.2 ∧
    file.1 ≠ "signature.sig" ∧ file.1 ≠ "verify-pubkey.hex"}

/-- A directory with data can be added to a bundle. -/
theorem added_directory_accepted :
    ¬ ∀ (platform : Platform) (files : Files) (program path path' key : String)
      (first second : Archive), files path = some (some first) → files path' = some (some second) →
      main platform files [program, path, "--trusted-key", key] = 0 →
      main platform files [program, path', "--trusted-key", key] = 0 →
      readZipEntry first "hashes.txt" = readZipEntry second "hashes.txt" →
      CollisionFree platform first second → allContents first = allContents second := by
  intro hall
  have hsame := hall samplePlatform sampleFiles "" "a" "b" (String.ofList sampleKey) _ _ rfl rfl
    main_sample.1 main_sample.2 rfl sample_collisionFree
  have hmem : ("hidden/", [1, 2, 3]) ∈ allContents (sampleArchive ++ [hidden]) :=
    ⟨hidden, by simp, rfl, rfl, by decide, by decide⟩
  rw [← hsame] at hmem
  obtain ⟨entry, hentry, hname, _⟩ := hmem
  exact absurd hname (by revert entry; decide)

theorem accepted_files_agree_and_audit_chained_sample :
    contents sampleArchive = contents (sampleArchive ++ [hidden]) ∧
      ∃ trustedKey, Hex.decode (String.ofList sampleKey).toList = some trustedKey ∧
        AuditChained samplePlatform (fun _ _ => True) trustedKey sampleArchive := by
  have hall := @accepted_files_agree_and_audit_chained samplePlatform (fun _ _ => True)
    (fun _ _ _ _ => trivial)
  refine ⟨?_, ?_⟩
  · exact hall.1 sampleFiles "" "a" "b" (String.ofList sampleKey) _ _ rfl rfl main_sample.1
      main_sample.2 rfl sample_collisionFree
  · exact hall.2 sampleFiles "" "a" (String.ofList sampleKey) _ rfl main_sample.1

end Sample

end CaseBundle
