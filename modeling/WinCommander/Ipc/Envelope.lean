import Mathlib
import WinCommander.Library.Bytes
import WinCommander.Library.Hex
import WinCommander.Library.JsonDepth
import WinCommander.Library.JsonSame

/-!
# The messages between the two processes

Each message is one JSON object that says its kind.  A signed message carries the text of another
one, and the tag of that text under the token of the session.
-/

namespace Ipc

open Json

/-- A value as it is in memory: objects are maps, and numbers are tokens. -/
structure JsonValue extends Document where
  tokens : value.AllNumbers Number.IsToken

@[ext] theorem JsonValue.ext {v w : JsonValue} (h : v.value = w.value) : v = w := by
  obtain ⟨⟨v, _⟩, _⟩ := v
  obtain ⟨⟨w, _⟩, _⟩ := w
  simp only at h
  subst h
  rfl

structure Hello where
  protocolVersion : String
  sessionToken : String
  binaryHash : Option String
  freeVersion : Option String
  proVersion : Option String
  vaultRuntimeVersion : Option UInt32

structure Request where
  requestId : UInt64
  featureId : String
  diagnosticOperationId : Option String
  args : JsonValue

structure Response where
  requestId : UInt64
  result : JsonValue

structure ErrorReply where
  requestId : UInt64
  kind : String
  message : String

structure Notification where
  event : String
  payload : JsonValue

structure SignedEnvelope where
  tag : String
  inner : String

inductive Envelope where
  | hello (message : Hello)
  | request (message : Request)
  | response (message : Response)
  | error (message : ErrorReply)
  | notification (message : Notification)
  | bye
  | signed (message : SignedEnvelope)

section Code

def natural (n : ℕ) : Value := .number (Number.ofInt n)

/-- A member that is left out where there is nothing to write. -/
def optionalMember {α : Type} (key : String) (write : α → Value) (o : Option α) :
    List (String × Value) := (o.map fun a => (key, write a)).toList

def tagged (kind : String) (members : List (String × Value)) : Value :=
  .object (("kind", .string kind) :: members)

def Envelope.toValue : Envelope → Value
  | .hello m => tagged "hello" ([("protocol_version", .string m.protocolVersion),
      ("session_token", .string m.sessionToken)] ++
      optionalMember "binary_hash" .string m.binaryHash ++
      optionalMember "free_version" .string m.freeVersion ++
      optionalMember "pro_version" .string m.proVersion ++
      optionalMember "vault_runtime_version" (fun v => natural v.toNat) m.vaultRuntimeVersion)
  | .request m => tagged "request" ([("request_id", natural m.requestId.toNat),
      ("feature_id", .string m.featureId)] ++
      optionalMember "diagnostic_operation_id" .string m.diagnosticOperationId ++
      [("args", m.args.value)])
  | .response m => tagged "response" [("request_id", natural m.requestId.toNat),
      ("result", m.result.value)]
  | .error m => tagged "error" [("request_id", natural m.requestId.toNat),
      ("error_kind", .string m.kind), ("message", .string m.message)]
  | .notification m => tagged "notification" [("event", .string m.event),
      ("payload", m.payload.value)]
  | .bye => tagged "bye" []
  | .signed m => tagged "signed" [("tag", .string m.tag), ("inner", .string m.inner)]

/-- Writing cannot fail: all keys are strings. -/
def Envelope.toText (e : Envelope) : List Char := e.toValue.write

def Envelope.toVec (e : Envelope) : List UInt8 := utf8 e.toText

/-- A keyed hash, which is code of another library. -/
abbrev Hmac := List UInt8 → List UInt8 → List UInt8

def signBody (hmac : Hmac) (sessionToken : String) (body : List UInt8) : String :=
  String.ofList (Hex.encode (hmac (Bytes.ofString sessionToken) body))

def verifyBody (hmac : Hmac) (sessionToken : String) (body : List UInt8)
    (expectedTagHex : String) : Bool :=
  let actual := Bytes.ofString (signBody hmac sessionToken body)
  let expected := Bytes.ofString expectedTagHex
  if actual.length ≠ expected.length then false else actual = expected

def Envelope.sign (hmac : Hmac) (sessionToken : String) : Envelope → Envelope
  | .signed m => .signed m
  | e =>
    let inner := String.ofList e.toText
    .signed ⟨signBody hmac sessionToken (Bytes.ofString inner), inner⟩

/-- The reader of the messages, which is code of another library.  It follows arrays and objects to
a depth of 127, and it need not keep every number: it keeps the integers of 64 bits. -/
structure SerdeJson where
  keeps : Number → Prop
  keeps_integer : ∀ n : ℕ, n < 2 ^ 64 → keeps (Number.ofInt n)
  fromSlice : List UInt8 → Except String Envelope
  fromSlice_toVec : ∀ e : Envelope, e.toValue.depth ≤ 127 → e.toValue.AllNumbers keeps →
    fromSlice e.toVec = .ok e
  fromSlice_deep : ∀ e : Envelope, 127 < e.toValue.depth → ∃ message,
    fromSlice e.toVec = .error message

def Envelope.verifyAndUnwrap (serde : SerdeJson) (hmac : Hmac) (sessionToken : String) :
    Envelope → Except String Envelope
  | .signed m =>
    if verifyBody hmac sessionToken (Bytes.ofString m.inner) m.tag then
      (serde.fromSlice (Bytes.ofString m.inner)).mapError fun _ =>
        "inner envelope deserialisation failed"
    else .error "HMAC tag mismatch — frame may have been tampered with or replayed"
  | _ => .error "envelope was not signed"

end Code

section Writing

theorem get_object (ms : List (String × Value)) (key : String) :
    (Value.object ms).get key = ms.lookup key := rfl

theorem ofInt_natCast_injective {m n : ℕ} (h : Number.ofInt m = Number.ofInt n) : m = n :=
  Int.ofNat.inj (Number.ofInt_injective h)

theorem lookup_member (key k : String) (v : Value) (ms : List (String × Value)) :
    ((k, v) :: ms).lookup key = if key = k then some v else ms.lookup key :=
  Keyed.lookup_cons key k v ms

theorem lookup_optional {α : Type} (key k : String) (write : α → Value) (o : Option α)
    (ms : List (String × Value)) :
    (optionalMember k write o ++ ms).lookup key =
      if key = k then (o.map write).or (ms.lookup key) else ms.lookup key := by
  cases o with
  | none =>
    show ms.lookup key = _
    split <;> rfl
  | some a =>
    show ((k, write a) :: ms).lookup key = _
    rw [lookup_member]
    rfl

theorem lookup_optional_last {α : Type} (key k : String) (write : α → Value) (o : Option α) :
    (optionalMember k write o).lookup key = if key = k then o.map write else none := by
  have hlast := lookup_optional key k write o []
  rw [List.append_nil, List.lookup_nil, Option.or_none] at hlast
  exact hlast

theorem natural_injective {m n : ℕ} (h : natural m = natural n) : m = n :=
  ofInt_natCast_injective (Value.number.inj h)

theorem map_string_injective {o o' : Option String}
    (h : o.map Value.string = o'.map Value.string) : o = o' :=
  Option.map_injective (fun _ _ => Value.string.inj) h

/-- The fields of a message show under their keys. -/
theorem hello_injective {m n : Hello}
    (h : (Envelope.hello m).toValue = (Envelope.hello n).toValue) : m = n := by
  have hget : ∀ key, (Envelope.hello m).toValue.get key = (Envelope.hello n).toValue.get key := by
    intro key
    rw [h]
  have hprotocol := hget "protocol_version"
  have htoken := hget "session_token"
  have hhash := hget "binary_hash"
  have hfree := hget "free_version"
  have hpro := hget "pro_version"
  have hvault := hget "vault_runtime_version"
  simp [Envelope.toValue, tagged, get_object, lookup_member, lookup_optional, lookup_optional_last]
    at hprotocol htoken hhash hfree hpro hvault
  have hversion : m.vaultRuntimeVersion = n.vaultRuntimeVersion :=
    Option.map_injective (fun v w hvw => UInt32.toNat_inj.mp (natural_injective hvw)) hvault
  cases m
  cases n
  exact Hello.mk.injEq .. ▸ ⟨hprotocol, htoken, map_string_injective hhash,
    map_string_injective hfree, map_string_injective hpro, hversion⟩

theorem request_injective {m n : Request}
    (h : (Envelope.request m).toValue = (Envelope.request n).toValue) : m = n := by
  have hget : ∀ key,
      (Envelope.request m).toValue.get key = (Envelope.request n).toValue.get key := by
    intro key
    rw [h]
  have hid := hget "request_id"
  have hfeature := hget "feature_id"
  have hdiagnostic := hget "diagnostic_operation_id"
  have hargs := hget "args"
  simp [Envelope.toValue, tagged, get_object, lookup_member, lookup_optional]
    at hid hfeature hdiagnostic hargs
  cases m
  cases n
  exact Request.mk.injEq .. ▸ ⟨UInt64.toNat_inj.mp (natural_injective hid), hfeature,
    map_string_injective hdiagnostic, JsonValue.ext hargs⟩

theorem response_injective {m n : Response}
    (h : (Envelope.response m).toValue = (Envelope.response n).toValue) : m = n := by
  simp [Envelope.toValue, tagged] at h
  cases m
  cases n
  exact Response.mk.injEq .. ▸ ⟨UInt64.toNat_inj.mp (natural_injective h.1), JsonValue.ext h.2⟩

theorem error_injective {m n : ErrorReply}
    (h : (Envelope.error m).toValue = (Envelope.error n).toValue) : m = n := by
  simp [Envelope.toValue, tagged] at h
  cases m
  cases n
  exact ErrorReply.mk.injEq .. ▸ ⟨UInt64.toNat_inj.mp (natural_injective h.1), h.2.1, h.2.2⟩

theorem notification_injective {m n : Notification}
    (h : (Envelope.notification m).toValue = (Envelope.notification n).toValue) : m = n := by
  simp [Envelope.toValue, tagged] at h
  cases m
  cases n
  exact Notification.mk.injEq .. ▸ ⟨h.1, JsonValue.ext h.2⟩

theorem signed_injective {m n : SignedEnvelope}
    (h : (Envelope.signed m).toValue = (Envelope.signed n).toValue) : m = n := by
  simp [Envelope.toValue, tagged] at h
  cases m
  cases n
  exact SignedEnvelope.mk.injEq .. ▸ ⟨h.1, h.2⟩

theorem toValue_injective {e f : Envelope} (h : e.toValue = f.toValue) : e = f := by
  have hkind : e.toValue.get "kind" = f.toValue.get "kind" := by rw [h]
  cases e with
  | hello m =>
    cases f with
    | hello n => exact congrArg _ (hello_injective h)
    | _ => simp [Envelope.toValue, tagged, get_object] at hkind
  | request m =>
    cases f with
    | request n => exact congrArg _ (request_injective h)
    | _ => simp [Envelope.toValue, tagged, get_object] at hkind
  | response m =>
    cases f with
    | response n => exact congrArg _ (response_injective h)
    | _ => simp [Envelope.toValue, tagged, get_object] at hkind
  | error m =>
    cases f with
    | error n => exact congrArg _ (error_injective h)
    | _ => simp [Envelope.toValue, tagged, get_object] at hkind
  | notification m =>
    cases f with
    | notification n => exact congrArg _ (notification_injective h)
    | _ => simp [Envelope.toValue, tagged, get_object] at hkind
  | signed m =>
    cases f with
    | signed n => exact congrArg _ (signed_injective h)
    | _ => simp [Envelope.toValue, tagged, get_object] at hkind
  | bye =>
    cases f with
    | bye => rfl
    | _ => simp [Envelope.toValue, tagged, get_object] at hkind

theorem toVec_injective {e f : Envelope} (h : e.toVec = f.toVec) : e = f :=
  toValue_injective (Value.write_injective (utf8_injective h))

end Writing

end Ipc
