import Mathlib
import WinCommander.Library.Outcome

/-!
# Detached Ed25519 signatures

The base64 codec and the signature scheme come from outside the repository: they are a parameter
here.  What the repository adds to them, the length and weak-key checks around the strict
verification, is written out.
-/

namespace FleetProto

/-- The codec and the signature scheme the protocol is built on. -/
structure Crypto (Key : Type) where
  b64Decode : String → Except String (List UInt8)
  b64Encode : List UInt8 → String
  keyFromBytes : List UInt8 → Except String Key
  keyToBytes : Key → List UInt8
  isWeak : Key → Bool
  verifyStrict : Key → List UInt8 → List UInt8 → Bool

variable {Key : Type}

/-- Verify a base64 signature against a base64 32-byte key; any decode error is a refusal. -/
def verifySignatureB64 (crypto : Crypto Key) (publicKeyB64 : String) (msg : List UInt8)
    (signatureB64 : String) : Bool :=
  match crypto.b64Decode publicKeyB64, crypto.b64Decode signatureB64 with
  | .ok keyBytes, .ok sigBytes =>
    if keyBytes.length = 32 ∧ sigBytes.length = 64 then
      match crypto.keyFromBytes keyBytes with
      | .ok vk => !crypto.isWeak vk && crypto.verifyStrict vk msg sigBytes
      | .error _ => false
    else false
  | _, _ => false

/-- A base64 table and the signatures made with the keys in it, as recorded from a real run. -/
structure Recording where
  texts : List (String × List UInt8)
  signed : List (List UInt8 × List UInt8 × List UInt8)

/-- A scheme that behaves as recorded and knows nothing else. -/
def Recording.crypto (r : Recording) : Crypto (List UInt8) where
  b64Decode text :=
    match r.texts.lookup text with
    | some bytes => .ok bytes
    | none => .error "Invalid symbol 45, offset 0."
  b64Encode bytes := ((r.texts.find? fun t => t.2 == bytes).map Prod.fst).getD ""
  keyFromBytes := .ok
  keyToBytes key := key
  isWeak _ := false
  verifyStrict key msg sig := decide ((key, msg, sig) ∈ r.signed)

/-- A recorded signature verifies. -/
theorem Recording.verifies (r : Recording) {keyB64 signatureB64 : String}
    {key msg sig : List UInt8} (hkey : r.texts.lookup keyB64 = some key)
    (hsig : r.texts.lookup signatureB64 = some sig)
    (hlength : key.length = 32 ∧ sig.length = 64) (hsigned : (key, msg, sig) ∈ r.signed) :
    verifySignatureB64 r.crypto keyB64 msg signatureB64 = true := by
  have hkeyText : r.crypto.b64Decode keyB64 = .ok key := by
    show (match r.texts.lookup keyB64 with | some bytes => _ | none => _) = _
    rw [hkey]
  have hsigText : r.crypto.b64Decode signatureB64 = .ok sig := by
    show (match r.texts.lookup signatureB64 with | some bytes => _ | none => _) = _
    rw [hsig]
  unfold verifySignatureB64
  rw [hkeyText, hsigText]
  dsimp only
  rw [if_pos hlength]
  show (!false && decide ((key, msg, sig) ∈ r.signed)) = true
  rw [decide_eq_true hsigned]
  rfl

namespace Recorded

def serverKey : List UInt8 :=
  [121, 181, 86, 46, 143, 230, 84, 249, 64, 120, 177, 18, 232, 169, 139, 167, 144, 31, 133, 58,
    230, 149, 190, 215, 224, 227, 145, 11, 173, 4, 150, 100]

def operatorKey : List UInt8 :=
  [173, 193, 64, 17, 248, 45, 28, 86, 217, 86, 170, 79, 157, 115, 216, 133, 131, 97, 166, 6, 4,
    133, 37, 224, 208, 140, 99, 141, 199, 93, 216, 199]

def serverKeyB64 : String := "ebVWLo/mVPlAeLES6KmLp5AfhTrmlb7X4OORC60ElmQ="

def operatorKeyB64 : String := "rcFAEfgtHFbZVqpPnXPYhYNhpgYEhSXg0Ixjjcdd2Mc="

end Recorded

end FleetProto
