import Mathlib
import WinCommander.Wipe.Token

/-!
# The contract of wipe tokens

Parsing inverts the encoding and is inverted by it, no read leaves the input, and a token is
accepted only for its device and its lifetime.  The one thing that may fail is the end of the
lifetime, a sum that wraps.
-/

namespace WipeAuth

open Outcome

section Panics

variable {α β : Type}

/-- The computation does not panic. -/
def Quiet (x : Except Fault α) : Prop := ∀ message, x ≠ .error (.panicked message)

theorem quiet_ok (a : α) : Quiet (.ok a) := by
  intro message h
  exact absurd h (by simp)

theorem quiet_refused (e : WipeTokenError) : Quiet (.error (.refused e) : Except Fault α) := by
  intro message h
  exact absurd h (by simp)

theorem quiet_refuseIf (bad : Prop) [Decidable bad] (e : WipeTokenError) :
    Quiet (refuseIf bad (.refused e)) := by
  unfold refuseIf
  split
  · exact quiet_refused e
  · exact quiet_ok ()

theorem quiet_okOr (o : Option α) (e : WipeTokenError) : Quiet (okOr o (.refused e)) := by
  cases o with
  | none => exact quiet_refused e
  | some a => exact quiet_ok a

/-- A sequence does not panic when neither of its parts does. -/
theorem Quiet.bind {x : Except Fault α} {f : α → Except Fault β} (h : Quiet x)
    (hf : ∀ a, x = .ok a → Quiet (f a)) : Quiet (x >>= f) := by
  cases x with
  | error e =>
    intro message heq
    exact h message (by cases heq; rfl)
  | ok a => exact hf a rfl

end Panics

section Reading

variable {bytes rest part : List UInt8} {pos n : ℕ}

/-- What is left of the input behind an offset. -/
def At (bytes : List UInt8) (pos : ℕ) (rest : List UInt8) : Prop :=
  ∃ pre, bytes = pre ++ rest ∧ pos = pre.length

theorem at_start (bytes : List UInt8) : At bytes 0 bytes := ⟨[], rfl, rfl⟩

theorem At.length (h : At bytes pos rest) : bytes.length = pos + rest.length := by
  obtain ⟨pre, rfl, rfl⟩ := h
  exact List.length_append

theorem readExact_short (h : At bytes pos rest) (hn : rest.length < n) :
    readExact bytes n pos = .error (.refused .badFormat) := by
  have hlength := h.length
  have hbad : bytes.length < pos + n := by omega
  rw [readExact, refuseIf, if_pos hbad]
  rfl

/-- A read takes what is next, and the rest is left behind the new offset. -/
theorem readExact_append (h : At bytes pos (part ++ rest)) :
    readExact bytes part.length pos = .ok (part, pos + part.length) ∧
      At bytes (pos + part.length) rest := by
  have hlength := h.length
  rw [List.length_append] at hlength
  obtain ⟨pre, rfl, rfl⟩ := h
  constructor
  · apply bind_ok.mpr
    refine ⟨(), refuseIf_neg _ (by omega), bind_ok.mpr ⟨part, ?_, rfl⟩⟩
    apply bind_ok.mpr
    refine ⟨(), refuseIf_neg _ (by omega), ?_⟩
    rw [Bytes.between_append]
    rfl
  · exact ⟨pre ++ part, (List.append_assoc ..).symm, List.length_append.symm⟩

theorem readExact_ok {pos' : ℕ} (h : At bytes pos rest)
    (hread : readExact bytes n pos = .ok (part, pos')) :
    ∃ rest', rest = part ++ rest' ∧ part.length = n ∧ At bytes pos' rest' := by
  by_cases hn : rest.length < n
  · rw [readExact_short h hn] at hread
    exact absurd hread (by simp)
  · have hsplit : rest = rest.take n ++ rest.drop n := (List.take_append_drop n rest).symm
    have htake : (rest.take n).length = n := by
      rw [List.length_take]
      omega
    rw [hsplit] at h
    have happend := readExact_append h
    rw [htake, hread] at happend
    obtain ⟨rfl, rfl⟩ := Prod.mk.inj (Except.ok.inj happend.1)
    exact ⟨rest.drop n, hsplit, htake, happend.2⟩

theorem quiet_readExact (h : At bytes pos rest) (n : ℕ) : Quiet (readExact bytes n pos) := by
  by_cases hn : rest.length < n
  · rw [readExact_short h hn]
    exact quiet_refused _
  · have htake : (rest.take n).length = n := by
      rw [List.length_take]
      omega
    rw [← List.take_append_drop n rest] at h
    have happend := readExact_append h
    rw [htake] at happend
    rw [happend.1]
    exact quiet_ok _

theorem readByte_cons {byte : UInt8} (h : At bytes pos (byte :: rest)) :
    readByte bytes pos = .ok (byte, pos + 1) ∧ At bytes (pos + 1) rest := by
  have hsplit : At bytes pos ([byte] ++ rest) := h
  have hread := readExact_append hsplit
  exact ⟨bind_ok.mpr ⟨_, hread.1, rfl⟩, hread.2⟩

theorem readByte_ok {byte : UInt8} {pos' : ℕ} (h : At bytes pos rest)
    (hread : readByte bytes pos = .ok (byte, pos')) :
    ∃ rest', rest = byte :: rest' ∧ At bytes pos' rest' := by
  obtain ⟨⟨part, next⟩, hexact, hbyte⟩ := bind_ok.mp hread
  obtain ⟨rest', hrest, hlength, hnext⟩ := readExact_ok h hexact
  obtain ⟨first, rfl⟩ := List.length_eq_one_iff.mp hlength
  cases hbyte
  exact ⟨rest', hrest, hnext⟩

theorem quiet_readByte (h : At bytes pos rest) : Quiet (readByte bytes pos) := by
  apply (quiet_readExact h 1).bind
  intro read hread
  obtain ⟨rest', _, hlength, _⟩ := readExact_ok h hread
  obtain ⟨first, hfirst⟩ := List.length_eq_one_iff.mp hlength
  show Quiet (do let byte ← okOr read.1.head? _; _)
  rw [hfirst]
  exact quiet_ok _

theorem readArray_append (array : { part : List UInt8 // part.length = n })
    (h : At bytes pos (array.val ++ rest)) :
    readArray bytes n pos = .ok (array, pos + n) ∧ At bytes (pos + n) rest := by
  have hread := readExact_append h
  rw [array.property] at hread
  refine ⟨bind_ok.mpr ⟨_, hread.1, bind_ok.mpr ⟨array, ?_, rfl⟩⟩, hread.2⟩
  exact dif_pos array.property

theorem readArray_ok {array : { part : List UInt8 // part.length = n }} {pos' : ℕ}
    (h : At bytes pos rest) (hread : readArray bytes n pos = .ok (array, pos')) :
    ∃ rest', rest = array.val ++ rest' ∧ At bytes pos' rest' := by
  obtain ⟨⟨part, next⟩, hexact, hread⟩ := bind_ok.mp hread
  obtain ⟨rest', hrest, hlength, hnext⟩ := readExact_ok h hexact
  obtain ⟨array', harray, hread⟩ := bind_ok.mp hread
  have hvalue : (⟨part, hlength⟩ : { part : List UInt8 // part.length = n }) = array' := by
    have hdif : tryInto n part = .ok ⟨part, hlength⟩ := dif_pos hlength
    rw [hdif] at harray
    exact Except.ok.inj harray
  cases hread
  rw [← hvalue]
  exact ⟨rest', hrest, hnext⟩

theorem quiet_readArray (h : At bytes pos rest) (n : ℕ) : Quiet (readArray bytes n pos) := by
  apply (quiet_readExact h n).bind
  intro read hread
  obtain ⟨rest', _, hlength, _⟩ := readExact_ok h hread
  have hdif : tryInto n read.1 = .ok ⟨read.1, hlength⟩ := dif_pos hlength
  show Quiet (do let part ← tryInto n read.1; _)
  rw [hdif]
  exact quiet_ok _

end Reading

section Strings

variable {bytes rest : List UInt8} {pos : ℕ} {text : String}

/-- A text as the encoder writes it. -/
def stringBytes (text : String) : List UInt8 :=
  Bytes.toBe 2 (Bytes.ofString text).length ++ Bytes.ofString text

theorem readString_append (hlength : (Bytes.ofString text).length ≤ 65535)
    (h : At bytes pos (stringBytes text ++ rest)) :
    readString bytes pos = .ok (text, pos + (stringBytes text).length) ∧
      At bytes (pos + (stringBytes text).length) rest := by
  rw [stringBytes, List.append_assoc] at h
  have hprefix := readArray_append ⟨_, Bytes.length_toBe 2 (Bytes.ofString text).length⟩ h
  have hbody := readExact_append hprefix.2
  have hvalue : Bytes.ofBe (Bytes.toBe 2 (Bytes.ofString text).length) =
      (Bytes.ofString text).length := Bytes.ofBe_toBe_of_lt (by norm_num; omega)
  have hend : pos + (stringBytes text).length = pos + 2 + (Bytes.ofString text).length := by
    rw [stringBytes, List.length_append, Bytes.length_toBe]
    omega
  rw [hend]
  refine ⟨bind_ok.mpr ⟨_, hprefix.1, bind_ok.mpr ⟨(Bytes.ofString text,
    pos + 2 + (Bytes.ofString text).length), ?_, bind_ok.mpr ⟨text, ?_, rfl⟩⟩⟩, hbody.2⟩
  · dsimp only
    rw [hvalue]
    exact hbody.1
  · exact okOr_ok.mpr (Bytes.toString_ofString text)

theorem readString_ok {pos' : ℕ} (h : At bytes pos rest)
    (hread : readString bytes pos = .ok (text, pos')) :
    (Bytes.ofString text).length ≤ 65535 ∧
      ∃ rest', rest = stringBytes text ++ rest' ∧ At bytes pos' rest' := by
  obtain ⟨⟨prefixBytes, afterPrefix⟩, hprefix, hread⟩ := bind_ok.mp hread
  obtain ⟨⟨part, afterPart⟩, hpart, hread⟩ := bind_ok.mp hread
  obtain ⟨text', htext, hread⟩ := bind_ok.mp hread
  cases hread
  obtain ⟨rest₁, hrest, hafter⟩ := readArray_ok h hprefix
  obtain ⟨rest₂, hrest₁, hlength, hend⟩ := readExact_ok hafter hpart
  have hbytes : Bytes.ofString text = part := Bytes.ofString_of_toString (okOr_ok.mp htext)
  have hbound := Bytes.ofBe_lt prefixBytes.val
  rw [prefixBytes.property, ← hlength] at hbound
  have hwritten : Bytes.toBe 2 part.length = prefixBytes.val := by
    have hinverse := Bytes.toBe_ofBe prefixBytes.val
    rw [prefixBytes.property, ← hlength] at hinverse
    exact hinverse
  constructor
  · rw [hbytes]
    omega
  · refine ⟨rest₂, ?_, hend⟩
    rw [hrest, hrest₁, stringBytes, hbytes, hwritten, List.append_assoc]

theorem quiet_readString (h : At bytes pos rest) : Quiet (readString bytes pos) := by
  apply (quiet_readArray h 2).bind
  intro read hread
  obtain ⟨rest₁, _, hafter⟩ := readArray_ok h hread
  apply (quiet_readExact hafter _).bind
  intro part _
  apply (quiet_okOr _ _).bind
  intro text _
  exact quiet_ok _

end Strings

section Payload

variable {bytes : List UInt8} {f : VerifiedToken}

theorem i64OfBytes_i64Bytes (x : Int64) : i64OfBytes (i64Bytes x) = x := by
  have hlt : x.toUInt64.toNat < 256 ^ 8 := x.toUInt64.toNat_lt
  rw [i64OfBytes, i64Bytes, Bytes.ofBe_toBe_of_lt hlt, UInt64.ofNat_toNat]
  rfl

theorem i64Bytes_i64OfBytes (part : { part : List UInt8 // part.length = 8 }) :
    i64Bytes (i64OfBytes part.val) = part.val := by
  have hlt := Bytes.ofBe_lt part.val
  have hinverse := Bytes.toBe_ofBe part.val
  rw [part.property] at hlt hinverse
  have hbits : (UInt64.ofNat (Bytes.ofBe part.val)).toInt64.toUInt64 =
      UInt64.ofNat (Bytes.ofBe part.val) := rfl
  rw [i64Bytes, i64OfBytes, hbits, UInt64.toNat_ofNat_of_lt' hlt, hinverse]

/-- The payload of a token that has the lengths for it. -/
def payloadBytes (f : VerifiedToken) : List UInt8 :=
  f.version :: (stringBytes f.deviceId ++ (f.nonce.val ++ (i64Bytes f.issuedAt ++
    (i64Bytes f.expiresAt ++ (stringBytes f.action ++ [])))))

/-- Both texts fit behind their lengths. -/
def Fits (f : VerifiedToken) : Prop :=
  (Bytes.ofString f.deviceId).length ≤ 65535 ∧ (Bytes.ofString f.action).length ≤ 65535

theorem canonicalPayloadBytes_ok_iff : canonicalPayloadBytes f.version f.deviceId f.nonce f.issuedAt
    f.expiresAt f.action = .ok bytes ↔ Fits f ∧ payloadBytes f = bytes := by
  simp only [canonicalPayloadBytes, u16Length, bind_ok, refuseIf_ok, pure_ok, Fits, payloadBytes,
    stringBytes, List.append_assoc, List.singleton_append, Nat.not_lt]
  constructor
  · intro h
    obtain ⟨_, ⟨_, hdev, rfl⟩, _, ⟨_, hact, rfl⟩, hbytes⟩ := h
    exact ⟨⟨hdev, hact⟩, hbytes⟩
  · intro h
    exact ⟨_, ⟨(), h.1.1, rfl⟩, _, ⟨(), h.1.2, rfl⟩, h.2⟩

private theorem parse_payloadBytes (h : Fits f) : parsePayloadBytes (payloadBytes f) = .ok f := by
  have hversion := readByte_cons (at_start (payloadBytes f))
  have hdevice := readString_append h.1 hversion.2
  have hnonce := readArray_append f.nonce hdevice.2
  have hissued := readArray_append ⟨i64Bytes f.issuedAt, Bytes.length_toBe ..⟩ hnonce.2
  have hexpires := readArray_append ⟨i64Bytes f.expiresAt, Bytes.length_toBe ..⟩ hissued.2
  have haction := readString_append h.2 hexpires.2
  have hlength := haction.2.length
  rw [List.length_nil, Nat.add_zero] at hlength
  refine bind_ok.mpr ⟨_, hversion.1, bind_ok.mpr ⟨_, hdevice.1, bind_ok.mpr ⟨_, hnonce.1,
    bind_ok.mpr ⟨_, hissued.1, bind_ok.mpr ⟨_, hexpires.1, bind_ok.mpr ⟨_, haction.1,
    bind_ok.mpr ⟨(), refuseIf_neg _ (not_not_intro hlength.symm), ?_⟩⟩⟩⟩⟩⟩⟩
  show Except.ok _ = _
  rw [i64OfBytes_i64Bytes, i64OfBytes_i64Bytes]

private theorem payloadBytes_of_parse (h : parsePayloadBytes bytes = .ok f) :
    Fits f ∧ payloadBytes f = bytes := by
  obtain ⟨⟨version, pos₁⟩, hversion, h⟩ := bind_ok.mp h
  obtain ⟨⟨deviceId, pos₂⟩, hdevice, h⟩ := bind_ok.mp h
  obtain ⟨⟨nonce, pos₃⟩, hnonce, h⟩ := bind_ok.mp h
  obtain ⟨⟨issuedAt, pos₄⟩, hissued, h⟩ := bind_ok.mp h
  obtain ⟨⟨expiresAt, pos₅⟩, hexpires, h⟩ := bind_ok.mp h
  obtain ⟨⟨action, pos₆⟩, haction, h⟩ := bind_ok.mp h
  obtain ⟨_, hend, h⟩ := bind_ok.mp h
  cases h
  obtain ⟨rest₁, hrest, hat₁⟩ := readByte_ok (at_start bytes) hversion
  obtain ⟨hdev, rest₂, hrest₁, hat₂⟩ := readString_ok hat₁ hdevice
  obtain ⟨rest₃, hrest₂, hat₃⟩ := readArray_ok hat₂ hnonce
  obtain ⟨rest₄, hrest₃, hat₄⟩ := readArray_ok hat₃ hissued
  obtain ⟨rest₅, hrest₄, hat₅⟩ := readArray_ok hat₄ hexpires
  obtain ⟨hact, rest₆, hrest₅, hat₆⟩ := readString_ok hat₅ haction
  have hlast : rest₆ = [] := by
    have hlength := hat₆.length
    have hpos : pos₆ = bytes.length := not_not.mp (refuseIf_ok.mp hend)
    exact List.length_eq_zero_iff.mp (by omega)
  refine ⟨⟨hdev, hact⟩, ?_⟩
  show version :: _ = _
  rw [i64Bytes_i64OfBytes, i64Bytes_i64OfBytes, hrest, hrest₁, hrest₂, hrest₃, hrest₄, hrest₅, hlast]

/-- A byte string is parsed to the fields that it encodes, and to no others. -/
theorem parse_ok_iff : parsePayloadBytes bytes = .ok f ↔
    canonicalPayloadBytes f.version f.deviceId f.nonce f.issuedAt f.expiresAt f.action = .ok bytes := by
  rw [canonicalPayloadBytes_ok_iff]
  constructor
  · exact payloadBytes_of_parse
  · intro h
    rw [← h.2]
    exact parse_payloadBytes h.1

/-- No input makes the parser read outside of it. -/
theorem quiet_parsePayloadBytes (bytes : List UInt8) : Quiet (parsePayloadBytes bytes) := by
  apply (quiet_readByte (at_start bytes)).bind
  intro version hversion
  obtain ⟨rest₁, _, hat₁⟩ := readByte_ok (at_start bytes) hversion
  apply (quiet_readString hat₁).bind
  intro deviceId hdevice
  obtain ⟨_, rest₂, _, hat₂⟩ := readString_ok hat₁ hdevice
  apply (quiet_readArray hat₂ 32).bind
  intro nonce hnonce
  obtain ⟨rest₃, _, hat₃⟩ := readArray_ok hat₂ hnonce
  apply (quiet_readArray hat₃ 8).bind
  intro issuedAt hissued
  obtain ⟨rest₄, _, hat₄⟩ := readArray_ok hat₃ hissued
  apply (quiet_readArray hat₄ 8).bind
  intro expiresAt hexpires
  obtain ⟨rest₅, _, hat₅⟩ := readArray_ok hat₄ hexpires
  apply (quiet_readString hat₅).bind
  intro action _
  apply (quiet_refuseIf _ _).bind
  intro _ _
  exact quiet_ok _

end Payload

section Tokens

variable {SigningKey VerifyingKey : Type} {scheme : Scheme SigningKey VerifyingKey}
  {deviceId : String} {ttlSecs nowUnix : Int64} {signingKey : SigningKey} {nonce : Nonce}

theorem splitOnce_append {before after : List Char} (h : '.' ∉ before) :
    splitOnce (before ++ '.' :: after) = some (before, after) := by
  induction before with
  | nil => rfl
  | cons c before ih =>
    rw [List.mem_cons, not_or] at h
    rw [List.cons_append, splitOnce, if_neg (Ne.symm h.1), ih h.2]
    rfl

/-- The fields of a token that is issued. -/
def issued (deviceId : String) (ttlSecs nowUnix : Int64) (nonce : Nonce) : VerifiedToken :=
  ⟨1, deviceId, nonce, nowUnix, nowUnix + ttlSecs, "wipe"⟩

private theorem fits_issued (h : (Bytes.ofString deviceId).length ≤ 65535) :
    Fits (issued deviceId ttlSecs nowUnix nonce) := by
  refine ⟨h, ?_⟩
  show (Bytes.ofString "wipe").length ≤ 65535
  decide

/-- An issued token is the payload of its fields and the signature over it. -/
theorem issueWipeToken_ok {token : String}
    (h : issueWipeToken scheme deviceId ttlSecs nowUnix signingKey nonce = .ok token) :
    ∃ payload, parsePayloadBytes payload = .ok (issued deviceId ttlSecs nowUnix nonce) ∧
      tokenParts scheme token = .ok (payload, scheme.sign signingKey payload) := by
  obtain ⟨payload, hpayload, htoken⟩ := bind_ok.mp h
  cases htoken
  refine ⟨payload, parse_ok_iff.mpr hpayload, ?_⟩
  apply bind_ok.mpr
  refine ⟨(scheme.encode payload, scheme.encode (scheme.sign signingKey payload)), ?_, ?_⟩
  · rw [String.toList_ofList, splitOnce_append (scheme.dot_notMem_encode payload)]
    rfl
  · refine bind_ok.mpr ⟨payload, okOr_ok.mpr (scheme.decode_encode _), bind_ok.mpr ⟨_,
      okOr_ok.mpr (scheme.decode_encode _), bind_ok.mpr ⟨(), ?_, rfl⟩⟩⟩
    exact refuseIf_neg _ (not_not_intro (scheme.length_sign _ _))

theorem verifyWipeToken_ok_iff {token expectedDeviceId : String} {verifyingKey : VerifyingKey}
    {parsed : VerifiedToken} :
    verifyWipeToken scheme token verifyingKey expectedDeviceId nowUnix = .ok parsed ↔
      ∃ payload signature, tokenParts scheme token = .ok (payload, signature) ∧
        scheme.isWeak verifyingKey = false ∧
        scheme.verifyStrict verifyingKey payload signature = true ∧
        parsePayloadBytes payload = .ok parsed ∧ parsed.version = 1 ∧ parsed.action = "wipe" ∧
        parsed.deviceId = expectedDeviceId ∧ parsed.issuedAt ≤ nowUnix ∧
        nowUnix ≤ parsed.expiresAt := by
  simp only [verifyWipeToken, bind_ok, refuseIf_ok, pure_ok, Bool.not_eq_true, Bool.not_eq_false,
    not_not, Int64.not_lt]
  constructor
  · intro h
    obtain ⟨⟨payload, signature⟩, hparts, _, hweak, _, hverify, parsed', hparse, _, hversion, _,
      haction, _, hdevice, _, hissued, _, hexpires, rfl⟩ := h
    exact ⟨payload, signature, hparts, hweak, hverify, hparse, hversion, haction, hdevice, hissued,
      hexpires⟩
  · intro h
    obtain ⟨payload, signature, hparts, hweak, hverify, hparse, hversion, haction, hdevice, hissued,
      hexpires⟩ := h
    exact ⟨(payload, signature), hparts, (), hweak, (), hverify, parsed, hparse, (), hversion, (),
      haction, (), hdevice, (), hissued, (), hexpires, rfl⟩

/-- An issued token is accepted exactly between its two times. -/
theorem verify_issued_iff {token : String} {now : Int64} {parsed : VerifiedToken}
    (h : issueWipeToken scheme deviceId ttlSecs nowUnix signingKey nonce = .ok token) :
    verifyWipeToken scheme token (scheme.verifyingKey signingKey) deviceId now = .ok parsed ↔
      parsed = issued deviceId ttlSecs nowUnix nonce ∧ nowUnix ≤ now ∧ now ≤ nowUnix + ttlSecs := by
  obtain ⟨payload, hparse, hparts⟩ := issueWipeToken_ok h
  rw [verifyWipeToken_ok_iff]
  constructor
  · intro hverify
    obtain ⟨payload', signature', hparts', _, _, hparse', _, _, _, hissued, hexpires⟩ := hverify
    rw [hparts] at hparts'
    cases hparts'
    rw [hparse] at hparse'
    cases hparse'
    exact ⟨rfl, hissued, hexpires⟩
  · intro hissued
    obtain ⟨rfl, hstart, hend⟩ := hissued
    exact ⟨payload, _, hparts, scheme.isWeak_verifyingKey _, scheme.verifyStrict_sign _ _, hparse,
      rfl, rfl, rfl, hstart, hend⟩

private theorem toInt_add_of_lt (hlow : -2 ^ 63 ≤ nowUnix.toInt + ttlSecs.toInt)
    (h : nowUnix.toInt + ttlSecs.toInt < 2 ^ 63) :
    (nowUnix + ttlSecs).toInt = nowUnix.toInt + ttlSecs.toInt := by
  rw [Int64.toInt_add, Int.bmod_eq_of_le (by omega) (by omega)]

/-- A lifetime that ends beyond the range is over before it begins. -/
private theorem add_lt_of_overflow (h : 2 ^ 63 ≤ nowUnix.toInt + ttlSecs.toInt) :
    nowUnix + ttlSecs < nowUnix := by
  have hnow := nowUnix.toInt_lt
  have httl := ttlSecs.toInt_lt
  have hwrap : (nowUnix + ttlSecs).toInt = nowUnix.toInt + ttlSecs.toInt - 2 ^ 64 := by
    have hshift : (nowUnix.toInt + ttlSecs.toInt - 2 ^ 64 + (2 ^ 64 : ℕ)).bmod (2 ^ 64) =
        (nowUnix.toInt + ttlSecs.toInt - 2 ^ 64).bmod (2 ^ 64) := Int.add_bmod_right _ _
    have hcancel : nowUnix.toInt + ttlSecs.toInt - 2 ^ 64 + (2 ^ 64 : ℕ) =
        nowUnix.toInt + ttlSecs.toInt := by omega
    rw [hcancel] at hshift
    rw [Int64.toInt_add, hshift, Int.bmod_eq_of_le (by omega) (by omega)]
  rw [Int64.lt_iff_toInt_lt, hwrap]
  omega

/-- What the encoder, the parser and the verifier owe one another, for one call of the issuer. -/
structure Contract (scheme : Scheme SigningKey VerifyingKey) (deviceId : String)
    (ttlSecs nowUnix : Int64) (signingKey : SigningKey) (nonce : Nonce) : Prop where
  parses : ∀ f : VerifiedToken, (Bytes.ofString f.deviceId).length ≤ 65535 →
    (Bytes.ofString f.action).length ≤ 65535 →
      ∃ bytes, canonicalPayloadBytes f.version f.deviceId f.nonce f.issuedAt f.expiresAt f.action =
        .ok bytes ∧ parsePayloadBytes bytes = .ok f
  reencodes : ∀ bytes f, parsePayloadBytes bytes = .ok f →
    canonicalPayloadBytes f.version f.deviceId f.nonce f.issuedAt f.expiresAt f.action = .ok bytes
  inRange : ∀ bytes message, parsePayloadBytes bytes ≠ .error (.panicked message)
  sound : ∀ token verifyingKey expectedDeviceId now parsed,
    verifyWipeToken scheme token verifyingKey expectedDeviceId now = .ok parsed →
      parsed.version = 1 ∧ parsed.action = "wipe" ∧ parsed.deviceId = expectedDeviceId ∧
        parsed.issuedAt ≤ now ∧ now ≤ parsed.expiresAt ∧
        ∃ payload signature, tokenParts scheme token = .ok (payload, signature) ∧
          parsePayloadBytes payload = .ok parsed ∧
          scheme.verifyStrict verifyingKey payload signature = true
  complete : ∀ token, issueWipeToken scheme deviceId ttlSecs nowUnix signingKey nonce = .ok token →
    ∀ now : Int64, nowUnix ≤ now → now.toInt ≤ nowUnix.toInt + ttlSecs.toInt →
      ∃ parsed, verifyWipeToken scheme token (scheme.verifyingKey signingKey) deviceId now =
        .ok parsed

/-- The issued token lives from the first second to the last of its lifetime. -/
private theorem complete_of_lt (h : nowUnix.toInt + ttlSecs.toInt < 2 ^ 63) {token : String}
    (hissue : issueWipeToken scheme deviceId ttlSecs nowUnix signingKey nonce = .ok token)
    {now : Int64} (hstart : nowUnix ≤ now) (hend : now.toInt ≤ nowUnix.toInt + ttlSecs.toInt) :
    ∃ parsed, verifyWipeToken scheme token (scheme.verifyingKey signingKey) deviceId now =
      .ok parsed := by
  refine ⟨_, (verify_issued_iff hissue).mpr ⟨rfl, hstart, ?_⟩⟩
  have hlow := now.le_toInt
  rw [Int64.le_iff_toInt_le, toInt_add_of_lt (by omega) h]
  exact hend

private theorem issued_of_length (scheme : Scheme SigningKey VerifyingKey)
    (ttlSecs nowUnix : Int64) (signingKey : SigningKey) (nonce : Nonce)
    (h : (Bytes.ofString deviceId).length ≤ 65535) :
    ∃ token, issueWipeToken scheme deviceId ttlSecs nowUnix signingKey nonce = .ok token := by
  have hfits : Fits (issued deviceId ttlSecs nowUnix nonce) := fits_issued h
  exact ⟨_, bind_ok.mpr ⟨_, canonicalPayloadBytes_ok_iff.mpr ⟨hfits, rfl⟩, rfl⟩⟩

/-- A lifetime beyond the range is refused at its first second. -/
private theorem lt_of_complete (hlength : (Bytes.ofString deviceId).length ≤ 65535)
    (h : Contract scheme deviceId ttlSecs nowUnix signingKey nonce) :
    nowUnix.toInt + ttlSecs.toInt < 2 ^ 63 := by
  by_contra hoverflow
  obtain ⟨token, hissue⟩ := issued_of_length scheme ttlSecs nowUnix signingKey nonce hlength
  have hnow := nowUnix.toInt_lt
  obtain ⟨parsed, hverify⟩ := h.complete token hissue nowUnix (le_refl _) (by omega)
  have hend := ((verify_issued_iff hissue).mp hverify).2.2
  exact absurd (add_lt_of_overflow (by omega)) (Int64.not_lt.mpr hend)

variable (scheme deviceId ttlSecs nowUnix signingKey nonce)

/-- The contract holds for a call of the issuer exactly when the end of the lifetime is in range,
or the device id is too long for a token. -/
theorem contract_iff : Contract scheme deviceId ttlSecs nowUnix signingKey nonce ↔
    ((Bytes.ofString deviceId).length ≤ 65535 → nowUnix.toInt + ttlSecs.toInt < 2 ^ 63) := by
  constructor
  · intro h hlength
    exact lt_of_complete hlength h
  · intro h
    constructor
    · intro f hdevice haction
      exact ⟨_, canonicalPayloadBytes_ok_iff.mpr ⟨⟨hdevice, haction⟩, rfl⟩,
        parse_payloadBytes ⟨hdevice, haction⟩⟩
    · intro bytes f hparse
      exact parse_ok_iff.mp hparse
    · exact quiet_parsePayloadBytes
    · intro token verifyingKey expectedDeviceId now parsed hverify
      obtain ⟨payload, signature, hparts, _, hsigned, hparse, hversion, haction, hdevice, hissued,
        hexpires⟩ := verifyWipeToken_ok_iff.mp hverify
      exact ⟨hversion, haction, hdevice, hissued, hexpires, payload, signature, hparts, hparse, hsigned⟩
    · intro token hissue now hstart hend
      have hlength : (Bytes.ofString deviceId).length ≤ 65535 := by
        obtain ⟨payload, hpayload, _⟩ := bind_ok.mp hissue
        exact (canonicalPayloadBytes_ok_iff (f := issued deviceId ttlSecs nowUnix nonce)
          |>.mp hpayload).1.1
      exact complete_of_lt (h hlength) hissue hstart hend

end Tokens

section EndlessLifetime

/-- The signature of the provisioning key over the one payload that is signed here. -/
private def endlessSignature : List UInt8 := 
  [213, 31, 54, 128, 114, 99, 27, 146, 0, 109, 124, 93, 252, 76, 123, 180, 201, 205, 41, 6, 9,
    251, 238, 98, 115, 210, 6, 192, 100, 68, 35, 203, 190, 144, 112, 158, 244, 127, 50, 87, 236,
    36, 132, 59, 170, 143, 144, 163, 154, 214, 11, 104, 63, 107, 238, 150, 203, 144, 104, 103,
    182, 224, 66, 13]

private def sevens : Nonce := ⟨List.replicate 32 7, List.length_replicate⟩

private def endless : VerifiedToken := issued "device-1" Int64.maxValue 1 sevens

private def recordedSign (payload : List UInt8) : List UInt8 :=
  if payload = payloadBytes endless then endlessSignature else List.replicate 64 0

private def recordedScheme : Scheme Unit Unit where
  encode := Base64Url.encode
  decode := Base64Url.decode
  verifyingKey := id
  isWeak _ := false
  sign _ := recordedSign
  verifyStrict _ message signature := decide (signature = recordedSign message)
  decode_encode := Base64Url.decode_encode
  dot_notMem_encode := Base64Url.dot_notMem_encode
  length_sign := by
    intro _ message
    unfold recordedSign
    split <;> rfl
  isWeak_verifyingKey _ := rfl
  verifyStrict_sign _ _ := decide_eq_true rfl

/-- A token that is issued for the longest lifetime is never accepted. -/
theorem endless_token_refused :
    ¬ Contract recordedScheme "device-1" Int64.maxValue 1 () sevens := by
  intro h
  have hlength : (Bytes.ofString "device-1").length ≤ 65535 := by decide
  exact absurd (lt_of_complete hlength h) (by decide)

end EndlessLifetime

end WipeAuth
