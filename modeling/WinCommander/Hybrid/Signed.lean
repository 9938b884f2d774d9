import WinCommander.Hybrid.Jws
import WinCommander.Library.JsonSize

/-!
# What an accepted envelope means

An accepted envelope was signed by both keys for the purpose and the epoch; and what both keys sign
is put together to an envelope that is accepted.
-/

namespace HybridJws

open Json Outcome

section Canonical

theorem decodeCanonical_ok {value : String} {limit : ℕ} {bytes : List UInt8} :
    decodeCanonical value limit = .ok bytes ↔
      value.utf8ByteSize ≤ (limit + 2) / 3 * 4 ∧ Base64Url.decode value.toList = some bytes ∧
        bytes.length ≤ limit ∧ Base64Url.encode bytes = value.toList := by
  unfold decodeCanonical
  simp only [bind_ok, refuseIf_ok, okOr_ok, pure_ok, not_or, not_lt, not_not]
  constructor
  · rintro ⟨_, hsize, decoded, hdecode, _, ⟨hlength, hencode⟩, rfl⟩
    exact ⟨hsize, hdecode, hlength, hencode⟩
  · rintro ⟨hsize, hdecode, hlength, hencode⟩
    exact ⟨(), hsize, bytes, hdecode, (), ⟨hlength, hencode⟩, rfl⟩

theorem size_encode (bytes : List UInt8) :
    size (Base64Url.encode bytes) = (Base64Url.encode bytes).length :=
  size_eq_length (Base64Url.utf8Size_of_mem_encode bytes)

/-- Bytes within the limit are encoded within the limit of the text. -/
theorem decodeCanonical_encode {bytes : List UInt8} {limit : ℕ} (h : bytes.length ≤ limit) :
    decodeCanonical (String.ofList (Base64Url.encode bytes)) limit = .ok bytes := by
  have hlength := Base64Url.length_encode bytes
  rw [decodeCanonical_ok, String.toList_ofList, utf8ByteSize_ofList, size_encode]
  refine ⟨?_, Base64Url.decode_encode bytes, h, rfl⟩
  omega

end Canonical

section Soundness

variable {schemes : Schemes} {parse : List UInt8 → Option Value}
  {signed : List UInt8 → List UInt8 → Prop}

/-- A key has signed a payload under a header of the given purpose and epoch. -/
def SignedUnder (parse : List UInt8 → Option Value) (signed : List UInt8 → List UInt8 → Prop)
    (key : List UInt8) (alg kid : String) (purpose : Purpose) (epoch : ℕ) (payload : List UInt8) :
    Prop :=
  ∃ header bytes fields, signed key (signingInput header (Base64Url.encode payload)) ∧
    Base64Url.decode header = some bytes ∧ (parse bytes).bind readProtected = some fields ∧
    fields = ⟨alg, kid, jwsType, critical, profile, purpose.name, epoch⟩

/-- Both trusted keys have signed what was verified. -/
structure BothSigned (parse : List UInt8 → Option Value)
    (signedEd signedPq : List UInt8 → List UInt8 → Prop) (trust : Trust) (verified : Verified) :
    Prop where
  ed : SignedUnder parse signedEd trust.ed25519Public "Ed25519" trust.edKeyId trust.purpose
    verified.epoch verified.payload
  pq : SignedUnder parse signedPq trust.mlDsa65Public "ML-DSA-65" trust.pqKeyId trust.purpose
    verified.epoch verified.payload
  minimum : trust.minimumEpoch ≤ verified.epoch

/-- What has been found was signed, at one epoch. -/
structure Found.Sound (parse : List UInt8 → Option Value)
    (signedEd signedPq : List UInt8 → List UInt8 → Prop) (trust : Trust) (payload : List UInt8)
    (found : Found) : Prop where
  ed : found.ed = true → ∃ epoch, found.commonEpoch = some epoch ∧
    SignedUnder parse signedEd trust.ed25519Public "Ed25519" trust.edKeyId trust.purpose epoch payload
  pq : found.pq = true → ∃ epoch, found.commonEpoch = some epoch ∧
    SignedUnder parse signedPq trust.mlDsa65Public "ML-DSA-65" trust.pqKeyId trust.purpose epoch payload
  minimum : ∀ epoch, found.commonEpoch = some epoch → trust.minimumEpoch ≤ epoch

/-- The header of an entry that is in the trusted context. -/
structure InContext (parse : List UInt8 → Option Value) (trust : Trust) (found : Found)
    (entry : SignatureEntry) (header : ProtectedHeader) : Prop where
  decoded : ∃ bytes, Base64Url.decode entry.header.toList = some bytes ∧
    (parse bytes).bind readProtected = some header
  typ : header.typ = jwsType
  crit : header.crit = critical
  profile : header.profile = HybridJws.profile
  purpose : header.purpose = trust.purpose.name
  minimum : trust.minimumEpoch ≤ header.epoch
  common : ∀ epoch, found.commonEpoch = some epoch → epoch = header.epoch

theorem checkEntry_ok {trust : Trust} {payload : String} {found found' : Found}
    {entry : SignatureEntry} (h : checkEntry schemes parse trust payload found entry = .ok found') :
    ∃ header, InContext parse trust found entry header ∧
      ((header.alg = "Ed25519" ∧ header.kid = trust.edKeyId ∧
          found' = { found with ed := true, commonEpoch := some header.epoch } ∧
          ∃ signature, schemes.verifyEd trust.ed25519Public
            (signingInput entry.header.toList payload.toList) signature = true) ∨
        (header.alg = "ML-DSA-65" ∧ header.kid = trust.pqKeyId ∧
          found' = { found with pq := true, commonEpoch := some header.epoch } ∧
          ∃ signature, schemes.verifyPq trust.mlDsa65Public
            (signingInput entry.header.toList payload.toList) signature = true)) := by
  unfold checkEntry at h
  simp only [bind_ok, refuseIf_ok, okOr_ok] at h
  obtain ⟨bytes, hbytes, header, hheader, _, hcontext, h⟩ := h
  simp only [not_or, ne_eq, not_not, not_lt, not_exists, not_and] at hcontext
  obtain ⟨htyp, hcrit, hprofile, hpurpose, hminimum, hcommon⟩ := hcontext
  have hdecode := (decodeCanonical_ok.mp hbytes).2.1
  refine ⟨header, ⟨⟨bytes, hdecode, hheader⟩, htyp, hcrit, hprofile, hpurpose, hminimum, hcommon⟩, ?_⟩
  by_cases hed : header.alg = "Ed25519" ∧ found.ed = false ∧ header.kid = trust.edKeyId
  · rw [if_pos hed] at h
    simp only [bind_ok, refuseIf_ok, pure_ok, Bool.not_eq_false] at h
    obtain ⟨signature, _, _, _, _, hverify, rfl⟩ := h
    exact Or.inl ⟨hed.1, hed.2.2, rfl, signature, hverify⟩
  · rw [if_neg hed] at h
    by_cases hpq : header.alg = "ML-DSA-65" ∧ found.pq = false ∧ header.kid = trust.pqKeyId
    · rw [if_pos hpq] at h
      simp only [bind_ok, refuseIf_ok, pure_ok, Bool.not_eq_false] at h
      obtain ⟨signature, _, _, hverify, rfl⟩ := h
      exact Or.inr ⟨hpq.1, hpq.2.2, rfl, signature, hverify⟩
    · rw [if_neg hpq] at h
      cases h

variable {signedEd signedPq : List UInt8 → List UInt8 → Prop}
  (hed : ∀ key message signature, schemes.verifyEd key message signature = true → signedEd key message)
  (hpq : ∀ key message signature, schemes.verifyPq key message signature = true → signedPq key message)

include hed hpq

theorem checkEntry_sound {trust : Trust} {text : String} {payload : List UInt8}
    (htext : Base64Url.encode payload = text.toList) {found found' : Found} {entry : SignatureEntry}
    (h : checkEntry schemes parse trust text found entry = .ok found')
    (hsound : found.Sound parse signedEd signedPq trust payload) :
    found'.Sound parse signedEd signedPq trust payload := by
  obtain ⟨header, hcontext, h⟩ := checkEntry_ok h
  obtain ⟨bytes, hdecode, hparse⟩ := hcontext.decoded
  have hfields : header = ⟨header.alg, header.kid, jwsType, critical, profile, trust.purpose.name,
      header.epoch⟩ := by
    rw [← hcontext.typ, ← hcontext.crit, ← hcontext.profile, ← hcontext.purpose]
  have hepoch : ∀ epoch, found.commonEpoch = some epoch → some header.epoch = some epoch := by
    intro epoch hfound
    rw [hcontext.common epoch hfound]
  rcases h with ⟨halg, hkid, rfl, signature, hverify⟩ | ⟨halg, hkid, rfl, signature, hverify⟩
  · have hsigned := hed _ _ _ hverify
    rw [← htext] at hsigned
    rw [halg, hkid] at hfields
    refine ⟨?_, ?_, ?_⟩
    · intro _
      exact ⟨header.epoch, rfl, entry.header.toList, bytes, header, hsigned, hdecode, hparse, hfields⟩
    · intro hfound
      obtain ⟨epoch, hcommon, hpqSigned⟩ := hsound.pq hfound
      exact ⟨epoch, hepoch epoch hcommon, hpqSigned⟩
    · intro epoch hcommon
      rw [← Option.some.inj hcommon]
      exact hcontext.minimum
  · have hsigned := hpq _ _ _ hverify
    rw [← htext] at hsigned
    rw [halg, hkid] at hfields
    refine ⟨?_, ?_, ?_⟩
    · intro hfound
      obtain ⟨epoch, hcommon, hedSigned⟩ := hsound.ed hfound
      exact ⟨epoch, hepoch epoch hcommon, hedSigned⟩
    · intro _
      exact ⟨header.epoch, rfl, entry.header.toList, bytes, header, hsigned, hdecode, hparse, hfields⟩
    · intro epoch hcommon
      rw [← Option.some.inj hcommon]
      exact hcontext.minimum

theorem checkEntries_sound {trust : Trust} {text : String} {payload : List UInt8}
    (htext : Base64Url.encode payload = text.toList) {entries : List SignatureEntry}
    {found found' : Found}
    (h : entries.foldlM (checkEntry schemes parse trust text) found = .ok found')
    (hsound : found.Sound parse signedEd signedPq trust payload) :
    found'.Sound parse signedEd signedPq trust payload := by
  induction entries generalizing found with
  | nil =>
    rw [List.foldlM_nil, pure_ok] at h
    exact h ▸ hsound
  | cons entry entries ih =>
    rw [List.foldlM_cons, bind_ok] at h
    obtain ⟨next, hnext, hrest⟩ := h
    exact ih hrest (checkEntry_sound hed hpq htext hnext hsound)

/-- An accepted envelope was signed under both keys, for one purpose and at one epoch. -/
theorem verify_sound {input : List UInt8} {trust : Trust} {verified : Verified}
    (h : verify schemes parse input trust = .ok verified) :
    BothSigned parse signedEd signedPq trust verified := by
  unfold verify at h
  simp only [bind_ok, refuseIf_ok, okOr_ok, pure_ok, not_or, Bool.not_eq_false] at h
  obtain ⟨_, _, envelope, _, _, _, payload, hpayload, found, hfound, _, ⟨hedFound, hpqFound⟩, epoch,
    hepoch, rfl⟩ := h
  have htext := (decodeCanonical_ok.mp hpayload).2.2.2
  have hstart : Found.Sound parse signedEd signedPq trust payload ⟨false, false, none⟩ :=
    ⟨by simp, by simp, by simp⟩
  have hsound := checkEntries_sound hed hpq htext hfound hstart
  obtain ⟨edEpoch, hedEpoch, hedSigned⟩ := hsound.ed hedFound
  obtain ⟨pqEpoch, hpqEpoch, hpqSigned⟩ := hsound.pq hpqFound
  rw [hepoch, Option.some.injEq] at hedEpoch hpqEpoch
  subst hedEpoch hpqEpoch
  exact ⟨hedSigned, hpqSigned, hsound.minimum epoch hepoch⟩

end Soundness

section Sizes

variable {trust : Trust} {epoch : ℕ}

theorem size_ofNatural_le {n : ℕ} (h : n < 2 ^ 64) : size (Serde.ofNatural n).write ≤ 20 := by
  have hliteral : (Serde.ofNatural n).write = Nat.toDigits 10 n := by
    show (Nat.repr n).toList = _
    rw [Nat.repr_eq_ofList_toDigits, String.toList_ofList]
  have hdigits : ∀ c ∈ Nat.toDigits 10 n, c.utf8Size = 1 := by
    intro c hc
    have hdigit := Nat.isDigit_of_mem_toDigits (by decide) (by decide) hc
    simp only [Char.isDigit, Bool.and_eq_true, decide_eq_true_eq] at hdigit
    exact Char.utf8Size_eq_one_iff.mpr (UInt32.le_trans hdigit.2 (by decide))
  rw [hliteral, size_eq_length hdigits, Nat.length_toDigits_le_iff (by decide) (by decide)]
  omega

/-- A header with key ids of the admitted length fits, however much of them is escaped. -/
theorem length_headerBytes_le {alg kid : String} (purpose : Purpose)
    (halg : size (writeString alg) ≤ 11) (hkid : kid.utf8ByteSize ≤ 128) (hepoch : epoch < 2 ^ 64) :
    (headerBytes alg kid purpose epoch).length ≤ maxHeaderLen := by
  have hbound := size_write_object_le [("alg", .string alg), ("crit", .array (critical.map .string)),
    ("epoch", Serde.ofNatural epoch), ("kid", .string kid), ("profile", .string profile),
    ("purpose", .string purpose.name), ("typ", .string jwsType)]
  have hnumber := size_ofNatural_le hepoch
  have hkid' := size_writeString_le kid
  have hcrit : size (Value.array (critical.map .string)).write = 29 := by decide
  have hnames : size (writeString "alg") = 5 ∧ size (writeString "crit") = 6 ∧
      size (writeString "epoch") = 7 ∧ size (writeString "kid") = 5 ∧
      size (writeString "profile") = 9 ∧ size (writeString "purpose") = 9 ∧
      size (writeString "typ") = 5 := by decide
  have hprofile : size (writeString profile) = 33 := by decide
  have hpurpose : size (writeString purpose.name) ≤ 22 := by cases purpose <;> decide
  have htyp : size (writeString jwsType) = 37 := by decide
  have hstring : ∀ s, (Value.string s).write = writeString s := fun _ => rfl
  simp only [List.map_cons, List.map_nil, List.sum_cons, List.sum_nil, List.length_cons,
    List.length_nil, size_writeMember, hcrit, hnames, hstring, hprofile, htyp] at hbound
  simp only [headerBytes, headerValue, length_utf8, maxHeaderLen]
  omega

end Sizes

section Completeness

variable {schemes : Schemes} {parse : List UInt8 → Option Value} {trust : Trust} {epoch : ℕ}

/-- The values that are written here. -/
inductive Written : Value → Prop where
  | header (alg kid : String) (purpose : Purpose) (epoch : ℕ) (h : epoch < 2 ^ 64) :
      Written (headerValue alg kid purpose epoch)
  | envelope (payload edHeader pqHeader : List Char) (edSignature pqSignature : List UInt8) :
      Written (envelopeValue payload [entryValue edHeader edSignature, entryValue pqHeader pqSignature])

theorem exactFields_object {names : List String} {ms : List (String × Value)} {vs : List Value}
    (hnodup : (ms.map Prod.fst).Nodup) (hnames : ∀ m ∈ ms, m.1 ∈ names)
    (hvalues : names.mapM (fun name => ms.lookup name) = some vs) :
    exactFields names (.object ms) = some vs := by
  show (if (ms.map Prod.fst).Nodup ∧ ∀ m ∈ ms, m.1 ∈ names then
    names.mapM fun name => ms.lookup name else none) = some vs
  rw [if_pos ⟨hnodup, hnames⟩, hvalues]

theorem readProtected_headerValue {alg kid : String} {purpose : Purpose} (h : epoch < 2 ^ 64) :
    readProtected (headerValue alg kid purpose epoch) =
      some ⟨alg, kid, jwsType, critical, profile, purpose.name, epoch⟩ := by
  have hfields : exactFields ["alg", "kid", "typ", "crit", "profile", "purpose", "epoch"]
      (headerValue alg kid purpose epoch) = some [.string alg, .string kid, .string jwsType,
        .array (critical.map .string), .string profile, .string purpose.name,
        Serde.ofNatural epoch] :=
    exactFields_object (by simp) (by simp) rfl
  have hcrit : readStrings (.array (critical.map .string)) = some critical := rfl
  simp only [readProtected, hfields, hcrit, Value.asU64_ofNatural h, Value.asStr, Option.bind_eq_bind,
    Option.bind_some]

theorem readEntry_entryValue (header : List Char) (signature : List UInt8) :
    readEntry (entryValue header signature) =
      some ⟨String.ofList header, String.ofList (Base64Url.encode signature)⟩ := by
  have hfields : exactFields ["protected", "signature"] (entryValue header signature) =
      some [.string (String.ofList header), .string (String.ofList (Base64Url.encode signature))] :=
    exactFields_object (by simp) (by simp) rfl
  simp only [readEntry, hfields, Value.asStr, Option.bind_eq_bind, Option.bind_some]

theorem readEnvelope_envelopeValue (payload first second : List Char)
    (firstSignature secondSignature : List UInt8) :
    readEnvelope (envelopeValue payload [entryValue first firstSignature,
      entryValue second secondSignature]) = some ⟨String.ofList payload,
        [⟨String.ofList first, String.ofList (Base64Url.encode firstSignature)⟩,
          ⟨String.ofList second, String.ofList (Base64Url.encode secondSignature)⟩]⟩ := by
  have hfields : exactFields ["payload", "signatures"] (envelopeValue payload
      [entryValue first firstSignature, entryValue second secondSignature]) =
      some [.string (String.ofList payload), .array [entryValue first firstSignature,
        entryValue second secondSignature]] :=
    exactFields_object (by simp) (by simp) rfl
  simp only [readEnvelope, hfields, Value.asStr, Option.bind_eq_bind, Option.bind_some,
    List.mapM_cons, List.mapM_nil, readEntry_entryValue, Option.pure_def]

private theorem escapeChar_digit : ∀ n : Fin 64,
    escapeChar (Base64Url.digit n.val) = [Base64Url.digit n.val] := by decide +kernel

theorem size_writeString_encode (bytes : List UInt8) :
    3 * size (writeString (String.ofList (Base64Url.encode bytes))) ≤ 4 * bytes.length + 8 := by
  have hlength := Base64Url.length_encode bytes
  have hplain : ∀ c ∈ Base64Url.encode bytes, escapeChar c = [c] := by
    intro c hc
    obtain ⟨n, hn, rfl⟩ := Base64Url.mem_encode hc
    exact escapeChar_digit ⟨n, hn⟩
  rw [size_writeString_plain hplain, size_encode]
  omega

theorem size_entryValue_le (header : List Char) (signature : List UInt8) :
    size (entryValue header signature).write ≤ size (writeString (String.ofList header)) +
      size (writeString (String.ofList (Base64Url.encode signature))) + 28 := by
  have hbound := size_write_object_le [("protected", .string (String.ofList header)),
    ("signature", .string (String.ofList (Base64Url.encode signature)))]
  have hnames : size (writeString "protected") = 11 ∧ size (writeString "signature") = 11 := by
    decide
  have hstring : ∀ s, (Value.string s).write = writeString s := fun _ => rfl
  simp only [List.map_cons, List.map_nil, List.sum_cons, List.sum_nil, List.length_cons,
    List.length_nil, size_writeMember, hnames, hstring] at hbound
  rw [entryValue]
  generalize size (Value.object _).write = total at hbound ⊢
  generalize size (writeString (String.ofList header)) = headerSize at hbound ⊢
  generalize size (writeString (String.ofList (Base64Url.encode signature))) = signatureSize at hbound ⊢
  omega

theorem size_envelopeValue_le (payload : List Char) (first second : Value) :
    size (envelopeValue payload [first, second]).write ≤ size (writeString (String.ofList payload)) +
      size first.write + size second.write + 31 := by
  have hbound := size_write_object_le [("payload", .string (String.ofList payload)),
    ("signatures", .array [first, second])]
  have harray := size_write_array_le [first, second]
  have hnames : size (writeString "payload") = 9 ∧ size (writeString "signatures") = 12 := by decide
  have hstring : ∀ s, (Value.string s).write = writeString s := fun _ => rfl
  simp only [List.map_cons, List.map_nil, List.sum_cons, List.sum_nil, List.length_cons,
    List.length_nil, size_writeMember, hnames, hstring] at hbound harray
  rw [envelopeValue]
  generalize size (Value.object _).write = total at hbound ⊢
  generalize size (Value.array _).write = entries at hbound harray
  generalize size (writeString (String.ofList payload)) = payloadSize at hbound ⊢
  omega

/-- The text of an envelope is never too long for the verifier. -/
theorem length_envelope_le {payload first second firstSignature secondSignature : List UInt8}
    (hpayload : payload.length ≤ maxPayloadLen) (hfirst : first.length ≤ maxHeaderLen)
    (hsecond : second.length ≤ maxHeaderLen) (hfirstSignature : firstSignature.length ≤ 3309)
    (hsecondSignature : secondSignature.length ≤ 3309) :
    (utf8 (envelopeValue (Base64Url.encode payload)
      [entryValue (Base64Url.encode first) firstSignature,
        entryValue (Base64Url.encode second) secondSignature]).write).length ≤ maxEnvelopeLen := by
  have henvelope := size_envelopeValue_le (Base64Url.encode payload)
    (entryValue (Base64Url.encode first) firstSignature)
    (entryValue (Base64Url.encode second) secondSignature)
  have hfirstEntry := size_entryValue_le (Base64Url.encode first) firstSignature
  have hsecondEntry := size_entryValue_le (Base64Url.encode second) secondSignature
  have hpayloadText := size_writeString_encode payload
  have hfirstText := size_writeString_encode first
  have hsecondText := size_writeString_encode second
  have hfirstSignatureText := size_writeString_encode firstSignature
  have hsecondSignatureText := size_writeString_encode secondSignature
  have hmax : 3 * maxEnvelopeLen = 4 * maxPayloadLen + 3 * 16384 + 8 := by decide
  rw [length_utf8]
  simp only [maxHeaderLen] at hfirst hsecond
  generalize size (envelopeValue _ _).write = total at henvelope ⊢
  generalize size (entryValue (Base64Url.encode first) _).write = a at henvelope hfirstEntry
  generalize size (entryValue (Base64Url.encode second) _).write = b at henvelope hsecondEntry
  generalize maxEnvelopeLen = most at hmax ⊢
  generalize maxPayloadLen = most' at hmax hpayload
  omega

section Verified

variable (hparse : ∀ v, Written v → parse (utf8 v.write) = some v) (hepoch : epoch < 2 ^ 64)
  (hminimum : trust.minimumEpoch ≤ epoch)

include hparse hepoch in
theorem readProtected_headerBytes (alg kid : String) (purpose : Purpose) :
    (parse (headerBytes alg kid purpose epoch)).bind readProtected =
      some ⟨alg, kid, jwsType, critical, profile, purpose.name, epoch⟩ := by
  rw [headerBytes, hparse _ (.header alg kid purpose epoch hepoch), Option.bind_some,
    readProtected_headerValue hepoch]

/-- An entry as it is read back: an encoded header, and an encoded signature. -/
def entry (header signature : List UInt8) : SignatureEntry :=
  ⟨String.ofList (Base64Url.encode header), String.ofList (Base64Url.encode signature)⟩

include hparse hepoch hminimum in
/-- The entry of the first key is accepted, whatever has been found for the second. -/
theorem checkEntry_ed {payload : String} {signature : List UInt8} {pq : Bool}
    {commonEpoch : Option ℕ} (hkid : trust.edKeyId.utf8ByteSize ≤ 128)
    (hcommon : ∀ e ∈ commonEpoch, e = epoch) (hlength : signature.length = 64)
    (hverify : schemes.verifyEd trust.ed25519Public (signingInput
      (Base64Url.encode (headerBytes "Ed25519" trust.edKeyId trust.purpose epoch)) payload.toList)
      signature = true) :
    checkEntry schemes parse trust payload ⟨false, pq, commonEpoch⟩
      (entry (headerBytes "Ed25519" trust.edKeyId trust.purpose epoch) signature) =
      .ok ⟨true, pq, some epoch⟩ := by
  have hheader := decodeCanonical_encode
    (length_headerBytes_le trust.purpose (by decide : size (writeString "Ed25519") ≤ 11) hkid hepoch)
  have hread := readProtected_headerBytes hparse hepoch "Ed25519" trust.edKeyId trust.purpose
  have hsignature := decodeCanonical_encode (Nat.le_of_eq hlength)
  unfold checkEntry
  simp only [bind_ok, refuseIf_ok, okOr_ok]
  refine ⟨_, hheader, _, hread, (), ?_, ?_⟩
  · simp only [ne_eq, not_true_eq_false, false_or, not_or, not_lt, not_exists, not_and, not_not]
    exact ⟨hminimum, hcommon⟩
  · rw [if_pos ⟨rfl, trivial, rfl⟩]
    simp only [bind_ok, refuseIf_ok, pure_ok]
    refine ⟨signature, hsignature, (), by simp [hlength], (), ?_, trivial⟩
    rw [entry, String.toList_ofList, hverify]
    decide

include hparse hepoch hminimum in
theorem checkEntry_pq {payload : String} {signature : List UInt8} {ed : Bool}
    {commonEpoch : Option ℕ} (hkid : trust.pqKeyId.utf8ByteSize ≤ 128)
    (hcommon : ∀ e ∈ commonEpoch, e = epoch) (hlength : signature.length = 3309)
    (hverify : schemes.verifyPq trust.mlDsa65Public (signingInput
      (Base64Url.encode (headerBytes "ML-DSA-65" trust.pqKeyId trust.purpose epoch)) payload.toList)
      signature = true) :
    checkEntry schemes parse trust payload ⟨ed, false, commonEpoch⟩
      (entry (headerBytes "ML-DSA-65" trust.pqKeyId trust.purpose epoch) signature) =
      .ok ⟨ed, true, some epoch⟩ := by
  have hheader := decodeCanonical_encode
    (length_headerBytes_le trust.purpose (by decide : size (writeString "ML-DSA-65") ≤ 11) hkid hepoch)
  have hread := readProtected_headerBytes hparse hepoch "ML-DSA-65" trust.pqKeyId trust.purpose
  have hsignature := decodeCanonical_encode (Nat.le_of_eq hlength)
  have hother : ¬("ML-DSA-65" = "Ed25519" ∧ ed = false ∧ trust.pqKeyId = trust.edKeyId) := by
    rintro ⟨h, -⟩
    exact absurd h (by decide)
  unfold checkEntry
  simp only [bind_ok, refuseIf_ok, okOr_ok]
  refine ⟨_, hheader, _, hread, (), ?_, ?_⟩
  · simp only [ne_eq, not_true_eq_false, false_or, not_or, not_lt, not_exists, not_and, not_not]
    exact ⟨hminimum, hcommon⟩
  · rw [if_neg hother, if_pos ⟨rfl, trivial, rfl⟩]
    simp only [bind_ok, refuseIf_ok, pure_ok]
    refine ⟨signature, hsignature, (), ?_, trivial⟩
    rw [entry, String.toList_ofList, hverify]
    decide

include hparse in
/-- What two entries of an envelope are accepted as. -/
theorem verify_envelope {payload first second firstSignature secondSignature : List UInt8}
    (hpayload : payload.length ≤ maxPayloadLen) (hids : ¬ trust.MalformedKeyIds)
    (hfirst : first.length ≤ maxHeaderLen) (hsecond : second.length ≤ maxHeaderLen)
    (hfirstSignature : firstSignature.length ≤ 3309)
    (hsecondSignature : secondSignature.length ≤ 3309)
    (hentries : [entry first firstSignature, entry second secondSignature].foldlM
      (checkEntry schemes parse trust (String.ofList (Base64Url.encode payload)))
        ⟨false, false, none⟩ = .ok ⟨true, true, some epoch⟩) :
    verify schemes parse (utf8 (envelopeValue (Base64Url.encode payload)
      [entryValue (Base64Url.encode first) firstSignature,
        entryValue (Base64Url.encode second) secondSignature]).write) trust =
      .ok ⟨payload, epoch⟩ := by
  have hlength := length_envelope_le hpayload hfirst hsecond hfirstSignature hsecondSignature
  have hread : (parse (utf8 (envelopeValue (Base64Url.encode payload)
      [entryValue (Base64Url.encode first) firstSignature,
        entryValue (Base64Url.encode second) secondSignature]).write)).bind readEnvelope =
      some ⟨String.ofList (Base64Url.encode payload),
        [entry first firstSignature, entry second secondSignature]⟩ := by
    rw [hparse _ (.envelope _ _ _ _ _), Option.bind_some, readEnvelope_envelopeValue]
    rfl
  have hdecode := decodeCanonical_encode hpayload
  unfold verify
  rw [hread]
  simp only [bind_ok, refuseIf_ok, okOr_ok, pure_ok, not_or, not_lt]
  refine ⟨(), ⟨hlength, hids⟩, ⟨_, _⟩, rfl, (), ?_, payload, hdecode, ⟨true, true, some epoch⟩,
    hentries, (), ?_, epoch, rfl, rfl⟩
  · exact fun h => h rfl
  · simp only [reduceCtorEq, not_false_iff, and_self]

end Verified

section Assembled

theorem splitOnce_append {header : List Char} (h : '.' ∉ header) (payload : List Char) :
    splitOnce (header ++ '.' :: payload) = some (header, payload) := by
  have hplain : ∀ c ∈ header, decide (c ≠ '.') = true := by
    intro c hc
    exact decide_eq_true (ne_of_mem_of_not_mem hc h)
  unfold splitOnce
  rw [if_pos (by simp), List.takeWhile_append_of_pos hplain, List.dropWhile_append_of_pos hplain]
  simp

/-- What may be signed under a policy. -/
structure Admissible (trust : Trust) (payload : List UInt8) (epoch : ℕ) : Prop where
  payload : payload.length ≤ maxPayloadLen
  nonzero : epoch ≠ 0
  fits : epoch < 2 ^ 64
  minimum : trust.minimumEpoch ≤ epoch
  ids : ¬ trust.MalformedKeyIds

/-- A signer of every message: its signatures have the length of its scheme, and they verify. -/
def Signs (sign : List UInt8 → Except VerifyError (List UInt8))
    (check : List UInt8 → List UInt8 → Bool) (length : ℕ) : Prop :=
  ∀ message, ∃ signature, sign message = .ok signature ∧ signature.length = length ∧
    check message signature = true

variable {payload : List UInt8} {signEd signPq : List UInt8 → Except VerifyError (List UInt8)}

theorem Admissible.kids (h : Admissible trust payload epoch) :
    trust.edKeyId.utf8ByteSize ≤ 128 ∧ trust.pqKeyId.utf8ByteSize ≤ 128 := by
  have hids := h.ids
  simp only [Trust.MalformedKeyIds, not_or, not_lt] at hids
  exact ⟨hids.2.2.1, hids.2.2.2.1⟩

theorem encodedHeader_ok {alg kid : String} {purpose : Purpose}
    (halg : size (writeString alg) ≤ 11) (hkid : kid.utf8ByteSize ≤ 128) (hepoch : epoch < 2 ^ 64) :
    encodedHeader alg kid purpose epoch =
      .ok (Base64Url.encode (headerBytes alg kid purpose epoch)) := by
  have hlength := length_headerBytes_le purpose halg hkid hepoch
  simp only [encodedHeader, bind_ok, refuseIf_ok, pure_ok, not_lt]
  exact ⟨(), hlength, trivial⟩

theorem signingInputs_ok (h : Admissible trust payload epoch) :
    signingInputs payload epoch trust =
      .ok ⟨Base64Url.encode (headerBytes "Ed25519" trust.edKeyId trust.purpose epoch) ++
          '.' :: Base64Url.encode payload,
        Base64Url.encode (headerBytes "ML-DSA-65" trust.pqKeyId trust.purpose epoch) ++
          '.' :: Base64Url.encode payload⟩ := by
  have hed : encodedHeader "Ed25519" trust.edKeyId trust.purpose epoch = _ :=
    encodedHeader_ok (by decide) h.kids.1 h.fits
  have hpq : encodedHeader "ML-DSA-65" trust.pqKeyId trust.purpose epoch = _ :=
    encodedHeader_ok (by decide) h.kids.2 h.fits
  simp only [signingInputs, bind_ok, refuseIf_ok, pure_ok, not_or, not_lt]
  exact ⟨(), ⟨h.payload, h.nonzero, h.minimum, h.ids⟩, _, hed, _, hpq, rfl⟩

/-- An envelope that holds what both keys sign is accepted in both orders of its entries. -/
theorem verify_both (hparse : ∀ v, Written v → parse (utf8 v.write) = some v)
    (h : Admissible trust payload epoch) {edSignature pqSignature : List UInt8}
    (hedLength : edSignature.length = 64) (hpqLength : pqSignature.length = 3309)
    (hed : schemes.verifyEd trust.ed25519Public (signingInput
      (Base64Url.encode (headerBytes "Ed25519" trust.edKeyId trust.purpose epoch))
      (Base64Url.encode payload)) edSignature = true)
    (hpq : schemes.verifyPq trust.mlDsa65Public (signingInput
      (Base64Url.encode (headerBytes "ML-DSA-65" trust.pqKeyId trust.purpose epoch))
      (Base64Url.encode payload)) pqSignature = true) {first second : Value}
    (horder : (first, second) = (entryValue (Base64Url.encode
          (headerBytes "Ed25519" trust.edKeyId trust.purpose epoch)) edSignature,
        entryValue (Base64Url.encode
          (headerBytes "ML-DSA-65" trust.pqKeyId trust.purpose epoch)) pqSignature) ∨
      (second, first) = (entryValue (Base64Url.encode
          (headerBytes "Ed25519" trust.edKeyId trust.purpose epoch)) edSignature,
        entryValue (Base64Url.encode
          (headerBytes "ML-DSA-65" trust.pqKeyId trust.purpose epoch)) pqSignature)) :
    verify schemes parse
      (utf8 (envelopeValue (Base64Url.encode payload) [first, second]).write) trust =
      .ok ⟨payload, epoch⟩ := by
  obtain ⟨hedKid, hpqKid⟩ := h.kids
  have hedHeader := length_headerBytes_le trust.purpose
    (by decide : size (writeString "Ed25519") ≤ 11) hedKid h.fits
  have hpqHeader := length_headerBytes_le trust.purpose
    (by decide : size (writeString "ML-DSA-65") ≤ 11) hpqKid h.fits
  have hedSize : edSignature.length ≤ 3309 := by omega
  rw [← String.toList_ofList (l := Base64Url.encode payload)] at hed hpq
  rcases horder with horder | horder
  · have hentries : [entry (headerBytes "Ed25519" trust.edKeyId trust.purpose epoch) edSignature,
        entry (headerBytes "ML-DSA-65" trust.pqKeyId trust.purpose epoch) pqSignature].foldlM
        (checkEntry schemes parse trust (String.ofList (Base64Url.encode payload)))
        ⟨false, false, none⟩ = .ok ⟨true, true, some epoch⟩ := by
      simp only [List.foldlM_cons, List.foldlM_nil, bind_ok, pure_ok]
      exact ⟨_, checkEntry_ed hparse h.fits h.minimum hedKid (by simp) hedLength hed, _,
        checkEntry_pq hparse h.fits h.minimum hpqKid (by simp) hpqLength hpq, rfl⟩
    have hverify := verify_envelope hparse h.payload h.ids hedHeader hpqHeader hedSize
      (Nat.le_of_eq hpqLength) hentries
    obtain ⟨rfl, rfl⟩ := Prod.mk.inj horder
    exact hverify
  · have hentries : [entry (headerBytes "ML-DSA-65" trust.pqKeyId trust.purpose epoch) pqSignature,
        entry (headerBytes "Ed25519" trust.edKeyId trust.purpose epoch) edSignature].foldlM
        (checkEntry schemes parse trust (String.ofList (Base64Url.encode payload)))
        ⟨false, false, none⟩ = .ok ⟨true, true, some epoch⟩ := by
      simp only [List.foldlM_cons, List.foldlM_nil, bind_ok, pure_ok]
      exact ⟨_, checkEntry_pq hparse h.fits h.minimum hpqKid (by simp) hpqLength hpq, _,
        checkEntry_ed hparse h.fits h.minimum hedKid (by simp) hedLength hed, rfl⟩
    have hverify := verify_envelope hparse h.payload h.ids hpqHeader hedHeader
      (Nat.le_of_eq hpqLength) hedSize hentries
    obtain ⟨rfl, rfl⟩ := Prod.mk.inj horder
    exact hverify

/-- What correct signers are given is put together, and it is accepted in both orders. -/
theorem assemble_ok (hparse : ∀ v, Written v → parse (utf8 v.write) = some v)
    (h : Admissible trust payload epoch)
    (hed : Signs signEd (schemes.verifyEd trust.ed25519Public) 64)
    (hpq : Signs signPq (schemes.verifyPq trust.mlDsa65Public) 3309) :
    ∃ first second, assemble schemes parse payload epoch trust signEd signPq =
        .ok (utf8 (envelopeValue (Base64Url.encode payload) [first, second]).write) ∧
      verify schemes parse (utf8 (envelopeValue (Base64Url.encode payload)
        [first, second]).write) trust = .ok ⟨payload, epoch⟩ ∧
      verify schemes parse (utf8 (envelopeValue (Base64Url.encode payload)
        [second, first]).write) trust = .ok ⟨payload, epoch⟩ := by
  obtain ⟨edSignature, hsignEd, hedLength, hedVerifies⟩ := hed (signingInput
    (Base64Url.encode (headerBytes "Ed25519" trust.edKeyId trust.purpose epoch))
    (Base64Url.encode payload))
  obtain ⟨pqSignature, hsignPq, hpqLength, hpqVerifies⟩ := hpq (signingInput
    (Base64Url.encode (headerBytes "ML-DSA-65" trust.pqKeyId trust.purpose epoch))
    (Base64Url.encode payload))
  have hverify := verify_both hparse h hedLength hpqLength hedVerifies hpqVerifies (Or.inl rfl)
  have hswapped := verify_both hparse h hedLength hpqLength hedVerifies hpqVerifies (Or.inr rfl)
  refine ⟨_, _, ?_, hverify, hswapped⟩
  have hlength := length_envelope_le h.payload
    (length_headerBytes_le trust.purpose (by decide : size (writeString "Ed25519") ≤ 11) h.kids.1
      h.fits)
    (length_headerBytes_le trust.purpose (by decide : size (writeString "ML-DSA-65") ≤ 11) h.kids.2
      h.fits) (by omega : edSignature.length ≤ 3309) (Nat.le_of_eq hpqLength)
  unfold assemble
  rw [signingInputs_ok h]
  simp only [bind_ok, refuseIf_ok, okOr_ok, pure_ok]
  refine ⟨_, rfl, _, splitOnce_append (Base64Url.dot_notMem_encode _) _, _,
    splitOnce_append (Base64Url.dot_notMem_encode _) _, edSignature, hsignEd, (), by simp [hedLength],
    pqSignature, hsignPq, (), by simp [hpqLength], (), Nat.not_lt.mpr hlength, _, hverify, (),
    by simp, rfl⟩

end Assembled

end Completeness

section Agreement

variable {schemes : Schemes} {parse : List UInt8 → Option Value}
  {signedEd signedPq : List UInt8 → List UInt8 → Prop}

/-- Nothing is accepted that both keys have not signed for the purpose and one epoch, and whatever
correct signers are given to put together is accepted in both orders of the signatures. -/
theorem accepted_both_signed_and_assembled_accepted
    (hed : ∀ key message signature,
      schemes.verifyEd key message signature = true → signedEd key message)
    (hpq : ∀ key message signature,
      schemes.verifyPq key message signature = true → signedPq key message)
    (hparse : ∀ v, Written v → parse (utf8 v.write) = some v) :
    (∀ input trust verified, verify schemes parse input trust = .ok verified →
      BothSigned parse signedEd signedPq trust verified) ∧
    ∀ payload epoch trust signEd signPq, Admissible trust payload epoch →
      Signs signEd (schemes.verifyEd trust.ed25519Public) 64 →
      Signs signPq (schemes.verifyPq trust.mlDsa65Public) 3309 →
      ∃ first second, assemble schemes parse payload epoch trust signEd signPq =
          .ok (utf8 (envelopeValue (Base64Url.encode payload) [first, second]).write) ∧
        verify schemes parse (utf8 (envelopeValue (Base64Url.encode payload)
          [first, second]).write) trust = .ok ⟨payload, epoch⟩ ∧
        verify schemes parse (utf8 (envelopeValue (Base64Url.encode payload)
          [second, first]).write) trust = .ok ⟨payload, epoch⟩ := by
  refine ⟨?_, ?_⟩
  · intro input trust verified h
    exact verify_sound hed hpq h
  · intro payload epoch trust signEd signPq h hsignEd hsignPq
    exact assemble_ok hparse h hsignEd hsignPq

/-- Reading as the inverse of writing. -/
noncomputable def readBack (bytes : List UInt8) : Option Value :=
  open Classical in if h : ∃ v : Value, utf8 v.write = bytes then some h.choose else none

theorem readBack_write (v : Value) : readBack (utf8 v.write) = some v := by
  have hwritten : ∃ w : Value, utf8 w.write = utf8 v.write := ⟨v, rfl⟩
  rw [readBack, dif_pos hwritten, Value.write_injective (utf8_injective hwritten.choose_spec)]

/-- Two keys of one byte, whose signatures name the key and the length of what is signed. -/
def sampleSchemes : Schemes where
  verifyEd key message signature :=
    key = [1] ∧ signature = 1 :: List.replicate 63 (UInt8.ofNat message.length)
  verifyPq key message signature :=
    key = [2] ∧ signature = 2 :: List.replicate 3308 (UInt8.ofNat message.length)

def sampleTrust : Trust := ⟨.licence, 2, "ed", [1], "pq", [2]⟩

theorem accepted_both_signed_and_assembled_accepted_sample :
    (∀ input trust verified, verify sampleSchemes readBack input trust = .ok verified →
      BothSigned readBack (fun key _ => key = [1]) (fun key _ => key = [2]) trust verified) ∧
    ∃ first second, assemble sampleSchemes readBack [7, 8] 3 sampleTrust
          (fun message => .ok (1 :: List.replicate 63 (UInt8.ofNat message.length)))
          (fun message => .ok (2 :: List.replicate 3308 (UInt8.ofNat message.length))) =
        .ok (utf8 (envelopeValue (Base64Url.encode [7, 8]) [first, second]).write) ∧
      verify sampleSchemes readBack (utf8 (envelopeValue (Base64Url.encode [7, 8])
        [first, second]).write) sampleTrust = .ok ⟨[7, 8], 3⟩ ∧
      verify sampleSchemes readBack (utf8 (envelopeValue (Base64Url.encode [7, 8])
        [second, first]).write) sampleTrust = .ok ⟨[7, 8], 3⟩ := by
  have hall := @accepted_both_signed_and_assembled_accepted sampleSchemes readBack
    (fun key _ => key = [1]) (fun key _ => key = [2])
    (fun _ _ _ h => (of_decide_eq_true h).1) (fun _ _ _ h => (of_decide_eq_true h).1)
    (fun v _ => readBack_write v)
  refine ⟨hall.1, hall.2 [7, 8] 3 sampleTrust _ _ ⟨by decide, by decide, by decide, by decide,
    by decide⟩ ?_ ?_⟩
  · intro message
    exact ⟨_, rfl, congrArg Nat.succ List.length_replicate, decide_eq_true ⟨rfl, rfl⟩⟩
  · intro message
    exact ⟨_, rfl, congrArg Nat.succ List.length_replicate, decide_eq_true ⟨rfl, rfl⟩⟩

end Agreement

end HybridJws
