import Mathlib
import WinCommander.Library.Base64Url
import WinCommander.Library.Bytes
import WinCommander.Library.MachineInt
import WinCommander.Library.Outcome

/-!
# Wipe authorization tokens

A token is a payload of six fields, two of them behind a 16-bit length, and a signature over it.
The parser reads at offsets, and the model lets a read outside the input and a failed conversion
panic, as they would.
-/

namespace WipeAuth

open Outcome

inductive WipeTokenError where
  | badFormat
  | badSignature
  | wrongDevice
  | expired
  | notYetValid
  | wrongVersion
  | wrongAction
  deriving DecidableEq

/-- A function fails with an error, or it panics. -/
inductive Fault where
  | refused (e : WipeTokenError)
  | panicked (message : String)
  deriving DecidableEq

abbrev Nonce := { bytes : List UInt8 // bytes.length = 32 }

structure VerifiedToken where
  version : UInt8
  deviceId : String
  nonce : Nonce
  issuedAt : Int64
  expiresAt : Int64
  action : String
  deriving DecidableEq

/-- The signature scheme and the text form of bytes, as their documentation promises them: a
signing key is not weak, and what it signs verifies. -/
structure Scheme (SigningKey VerifyingKey : Type) where
  encode : List UInt8 → List Char
  decode : List Char → Option (List UInt8)
  verifyingKey : SigningKey → VerifyingKey
  isWeak : VerifyingKey → Bool
  sign : SigningKey → List UInt8 → List UInt8
  verifyStrict : VerifyingKey → List UInt8 → List UInt8 → Bool
  decode_encode : ∀ bytes, decode (encode bytes) = some bytes
  dot_notMem_encode : ∀ bytes, '.' ∉ encode bytes
  length_sign : ∀ key message, (sign key message).length = 64
  isWeak_verifyingKey : ∀ key, isWeak (verifyingKey key) = false
  verifyStrict_sign : ∀ key message, verifyStrict (verifyingKey key) message (sign key message) = true

section Codec

def i64Bytes (x : Int64) : List UInt8 := Bytes.toBe 8 x.toUInt64.toNat

def i64OfBytes (bytes : List UInt8) : Int64 := (UInt64.ofNat (Bytes.ofBe bytes)).toInt64

/-- A length that does not fit in 16 bits panics. -/
def u16Length (bytes : List UInt8) (message : String) : Except Fault (List UInt8) := do
  refuseIf (65535 < bytes.length) (.panicked message)
  pure (Bytes.toBe 2 bytes.length)

def canonicalPayloadBytes (version : UInt8) (deviceId : String) (nonce : Nonce)
    (issuedAt expiresAt : Int64) (action : String) : Except Fault (List UInt8) := do
  let devBytes := Bytes.ofString deviceId
  let actBytes := Bytes.ofString action
  let devLen ← u16Length devBytes "device_id length fits in u16 (max 65535 bytes)"
  let actLen ← u16Length actBytes "action length fits in u16"
  pure ([version] ++ (devLen ++ (devBytes ++ (nonce.val ++ (i64Bytes issuedAt ++
    (i64Bytes expiresAt ++ (actLen ++ (actBytes ++ []))))))))

variable (bytes : List UInt8)

/-- The slice between two offsets; a range outside the input panics. -/
def slice (start stop : ℕ) : Except Fault (List UInt8) := do
  refuseIf (stop < start ∨ bytes.length < stop) (.panicked "range out of bounds")
  pure (Bytes.between bytes start stop)

/-- The next `n` bytes and the offset after them. -/
def readExact (n pos : ℕ) : Except Fault (List UInt8 × ℕ) := do
  refuseIf (bytes.length < pos + n) (.refused .badFormat)
  let part ← slice bytes pos (pos + n)
  pure (part, pos + n)

/-- A slice as an array of a fixed size. -/
def tryInto (n : ℕ) (part : List UInt8) : Except Fault { part : List UInt8 // part.length = n } :=
  if h : part.length = n then .ok ⟨part, h⟩ else .error (.panicked "slice has another length")

def readArray (n pos : ℕ) : Except Fault ({ part : List UInt8 // part.length = n } × ℕ) := do
  let (part, pos) ← readExact bytes n pos
  let part ← tryInto n part
  pure (part, pos)

def readByte (pos : ℕ) : Except Fault (UInt8 × ℕ) := do
  let (part, pos) ← readExact bytes 1 pos
  let byte ← okOr part.head? (.panicked "index out of bounds")
  pure (byte, pos)

/-- A text behind its 16-bit length. -/
def readString (pos : ℕ) : Except Fault (String × ℕ) := do
  let (length, pos) ← readArray bytes 2 pos
  let (part, pos) ← readExact bytes (Bytes.ofBe length.val) pos
  let text ← okOr (Bytes.toString part) (.refused .badFormat)
  pure (text, pos)

def parsePayloadBytes : Except Fault VerifiedToken := do
  let (version, pos) ← readByte bytes 0
  let (deviceId, pos) ← readString bytes pos
  let (nonce, pos) ← readArray bytes 32 pos
  let (issuedAt, pos) ← readArray bytes 8 pos
  let (expiresAt, pos) ← readArray bytes 8 pos
  let (action, pos) ← readString bytes pos
  refuseIf (pos ≠ bytes.length) (.refused .badFormat)
  pure {
    version := version
    deviceId := deviceId
    nonce := nonce
    issuedAt := i64OfBytes issuedAt.val
    expiresAt := i64OfBytes expiresAt.val
    action := action }

end Codec

section Tokens

variable {SigningKey VerifyingKey : Type} (scheme : Scheme SigningKey VerifyingKey)

/-- The text before and after the first dot. -/
def splitOnce : List Char → Option (List Char × List Char)
  | [] => none
  | c :: text =>
    if c = '.' then some ([], text)
    else (splitOnce text).map fun parts => (c :: parts.1, parts.2)

/-- The sum of the clock and the lifetime wraps, as in a release build. -/
def issueWipeToken (deviceId : String) (ttlSecs nowUnix : Int64) (signingKey : SigningKey)
    (nonce : Nonce) : Except Fault String := do
  let issuedAt := nowUnix
  let expiresAt := nowUnix + ttlSecs
  let payload ← canonicalPayloadBytes 1 deviceId nonce issuedAt expiresAt "wipe"
  pure (String.ofList (scheme.encode payload ++ '.' :: scheme.encode (scheme.sign signingKey payload)))

/-- The signed bytes of a token and its signature. -/
def tokenParts (token : String) : Except Fault (List UInt8 × List UInt8) := do
  let (payloadB64, sigB64) ← okOr (splitOnce token.toList) (.refused .badFormat)
  let payloadBytes ← okOr (scheme.decode payloadB64) (.refused .badFormat)
  let sigBytes ← okOr (scheme.decode sigB64) (.refused .badFormat)
  refuseIf (sigBytes.length ≠ 64) (.refused .badFormat)
  pure (payloadBytes, sigBytes)

def verifyWipeToken (token : String) (verifyingKey : VerifyingKey) (expectedDeviceId : String)
    (nowUnix : Int64) : Except Fault VerifiedToken := do
  let (payloadBytes, signature) ← tokenParts scheme token
  refuseIf (scheme.isWeak verifyingKey = true) (.refused .badSignature)
  refuseIf (scheme.verifyStrict verifyingKey payloadBytes signature = false) (.refused .badSignature)
  let parsed ← parsePayloadBytes payloadBytes
  refuseIf (parsed.version ≠ 1) (.refused .wrongVersion)
  refuseIf (parsed.action ≠ "wipe") (.refused .wrongAction)
  refuseIf (parsed.deviceId ≠ expectedDeviceId) (.refused .wrongDevice)
  refuseIf (nowUnix < parsed.issuedAt) (.refused .notYetValid)
  refuseIf (parsed.expiresAt < nowUnix) (.refused .expired)
  pure parsed

end Tokens

end WipeAuth
