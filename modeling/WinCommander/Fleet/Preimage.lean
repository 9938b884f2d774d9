import Mathlib
import WinCommander.Fleet.Numbers
import WinCommander.Library.JsonSame

/-!
# The signed text of a request

A device signs its method, its path and its payload, of which the member that carries the signature
is left out.  The payload is written with sorted keys and with every number in its normal form.
-/

namespace FleetAgent

open Json Outcome

section Code

mutual

/-- The text of a value; the first member in the order of the keys that has no text fails. -/
def canonicalJson : Value → Except Failure (List Char)
  | .null => .ok "null".toList
  | .bool true => .ok "true".toList
  | .bool false => .ok "false".toList
  | .number n => normalizeJsonNumber n.literal
  | .string s => .ok (writeString s)
  | .array es => do
    let texts ← (canonicalElems es).mapM id
    pure ('[' :: commaSeparated texts ++ [']'])
  | .object ms => do
    let texts ← (Keyed.sortOn Prod.fst (canonicalMembers ms)).mapM fun m =>
      m.2.map fun text => writeString m.1 ++ ':' :: text
    pure ('{' :: commaSeparated texts ++ ['}'])

def canonicalElems : List Value → List (Except Failure (List Char))
  | [] => []
  | e :: es => canonicalJson e :: canonicalElems es

def canonicalMembers : List (String × Value) → List (String × Except Failure (List Char))
  | [] => []
  | (k, v) :: ms => (k, canonicalJson v) :: canonicalMembers ms

end

def versionLine : List Char := "fleet-hmac-v2\n".toList

def requestHmacPreimageV2 (method path : String) (payload : Value) :
    Except Failure (List UInt8) :=
  match payload with
  | .object members => do
    let canonical ← canonicalJson (.object (members.filter fun m => m.1 ≠ "hmac"))
    pure (utf8 (versionLine ++ (method.toList.map Char.toUpper ++ '\n' ::
      (path.toList ++ '\n' :: canonical))))
  | _ => .error (.error "request HMAC payload must be a JSON object")

end Code

section Texts

variable {v : Value} {text : List Char}

/-- A literal that the code normalises. -/
def Limited (n : Number) : Prop := ∃ t : Token, WithinLimits t ∧ t.render = n.literal

theorem canonicalElems_eq (es : List Value) : canonicalElems es = es.map canonicalJson := by
  induction es with
  | nil => rfl
  | cons e es ih => rw [canonicalElems, ih, List.map_cons]

theorem canonicalMembers_eq (ms : List (String × Value)) :
    canonicalMembers ms = ms.map fun m => (m.1, canonicalJson m.2) := by
  induction ms with
  | nil => rfl
  | cons m ms ih => rw [canonicalMembers, ih, List.map_cons]

/-- What the code does not refuse is within its limits. -/
theorem withinLimits_of_ok {t : Token} (h : normalizeJsonNumber t.render = .ok text) :
    WithinLimits t := by
  unfold normalizeJsonNumber at h
  obtain ⟨_, hlength, h⟩ := Outcome.bind_ok.mp h
  rw [refuseIf_ok, length_utf8_of_numeric t.render_numeric, Nat.not_lt] at hlength
  refine ⟨hlength, ?_⟩
  have hunsigned : (if decide (t.render.head? = some '-') then t.render.tail else t.render) =
      t.unsigned := by
    unfold Token.render
    cases t.negative with
    | true => simp
    | false => simp [t.head?_unsigned]
  dsimp only at h
  rw [hunsigned] at h
  obtain ⟨parts, hsplit, _⟩ := Outcome.bind_ok.mp h
  unfold splitExponent at hsplit
  rw [t.splitOnce_unsigned] at hsplit
  unfold Token.exponentValue
  cases he : t.exponent with
  | none => simp
  | some e =>
    rw [he] at hsplit
    simp only [Option.map_some] at hsplit
    obtain ⟨parsed, hparsed, hsplit⟩ := Outcome.bind_ok.mp hsplit
    obtain ⟨_, hsmall, _⟩ := Outcome.bind_ok.mp hsplit
    rw [okOr_ok, parseI32, signedDecimal_signed, Option.filter_eq_some_iff] at hparsed
    rw [refuseIf_ok] at hsmall
    have hvalue : e.value = parsed := Option.some.inj hparsed.1
    rw [Option.elim_some, hvalue, abs_le]
    omega

theorem normalizeJsonNumber_iff {n : Number} (hn : n.IsToken) :
    normalizeJsonNumber n.literal = .ok text ↔ Limited n ∧ n.normal.literal = text := by
  constructor
  · intro h
    obtain ⟨t, ht⟩ := hn
    rw [← ht] at h
    have hlimits := withinLimits_of_ok h
    obtain ⟨u, hnormal, hvalue, hresult⟩ := normalizeJsonNumber_normal hlimits
    rw [h, Except.ok.injEq] at hresult
    rw [Number.normal_eq hnormal ⟨t, ht, hvalue.symm⟩]
    exact ⟨⟨t, hlimits, ht⟩, hresult.symm⟩
  · intro h
    obtain ⟨t, hlimits, ht⟩ := h.1
    obtain ⟨u, hnormal, hvalue, hresult⟩ := normalizeJsonNumber_normal hlimits
    rw [← ht, hresult, ← h.2, Number.normal_eq hnormal ⟨t, ht, hvalue.symm⟩]
    rfl

/-- A list of computations whose successes are known. -/
theorem mapM_ok_of_iff {α β : Type} {f : α → Except Failure β} {P : α → Prop} {g : α → β}
    {as : List α} (h : ∀ a ∈ as, ∀ b, f a = .ok b ↔ P a ∧ g a = b) {bs : List β} :
    as.mapM f = .ok bs ↔ (∀ a ∈ as, P a) ∧ as.map g = bs := by
  rw [Outcome.mapM_ok]
  induction as generalizing bs with
  | nil =>
    constructor
    · intro hnil
      cases hnil
      exact ⟨by simp, rfl⟩
    · intro hnil
      rw [← hnil.2]
      exact .nil
  | cons a as ih =>
    rw [List.forall_mem_cons] at h
    rw [List.forall_mem_cons, List.map_cons]
    constructor
    · intro hcons
      cases hcons with
      | cons ha has =>
        have hhead := (h.1 _).mp ha
        have htail := (ih h.2).mp has
        exact ⟨⟨hhead.1, htail.1⟩, by rw [hhead.2, htail.2]⟩
    · intro hparts
      rw [← hparts.2]
      exact .cons ((h.1 _).mpr ⟨hparts.1.1, rfl⟩) ((ih h.2).mpr ⟨hparts.1.2, rfl⟩)

/-- The text of a member that stands under its key. -/
noncomputable def writeNormal (m : String × Value) : List Char :=
  writeString m.1 ++ ':' :: m.2.normalNumbers.normalize.write

theorem write_normal_array (es : List Value) : (Value.array es).normalNumbers.normalize.write =
    '[' :: commaSeparated (es.map fun e => e.normalNumbers.normalize.write) ++ [']'] := by
  rw [Value.normalNumbers_array, Value.normalize, Value.normalizeElems_eq, Value.write,
    writeElems_eq, List.map_map, List.map_map]
  rfl

theorem write_normal_object (ms : List (String × Value)) :
    (Value.object ms).normalNumbers.normalize.write =
      '{' :: commaSeparated ((Keyed.sortOn Prod.fst ms).map writeNormal) ++ ['}'] := by
  have hsort : Keyed.sortOn Prod.fst
        (ms.map fun m => (m.1, m.2.normalNumbers.normalize)) =
      (Keyed.sortOn Prod.fst ms).map fun m => (m.1, m.2.normalNumbers.normalize) :=
    Keyed.sortOn_map (fun _ => rfl) ms
  rw [Value.normalNumbers_object, Value.normalize, Value.normalizeMembers_eq, List.map_map,
    Value.write, writeMembers_eq]
  simp only [Function.comp_def]
  rw [hsort, List.map_map]
  rfl

/-- A value has a text exactly when its numbers are within the limits, and the text is that of its
normal form. -/
theorem canonicalJson_iff (hv : v.AllNumbers Number.IsToken) : canonicalJson v = .ok text ↔
    v.AllNumbers Limited ∧ v.normalNumbers.normalize.write = text := by
  have hleaf : ∀ {w : Value} {t : List Char}, w.AllNumbers Limited →
      w.normalNumbers.normalize.write = t → ∀ text, (Except.ok t : Except Failure _) = .ok text ↔
        w.AllNumbers Limited ∧ w.normalNumbers.normalize.write = text := by
    intro w t hw ht text
    rw [Except.ok.injEq, ht]
    exact (and_iff_right hw).symm
  induction v generalizing text with
  | null =>
    rw [canonicalJson]
    exact hleaf .null rfl text
  | bool b =>
    cases b with
    | false =>
      rw [canonicalJson]
      exact hleaf (.bool false) rfl text
    | true =>
      rw [canonicalJson]
      exact hleaf (.bool true) rfl text
  | number n =>
    cases hv with
    | number hn =>
      rw [canonicalJson, normalizeJsonNumber_iff hn]
      constructor
      · intro h
        exact ⟨.number h.1, h.2⟩
      · intro h
        cases h.1 with
        | number hlimited => exact ⟨hlimited, h.2⟩
  | string s =>
    rw [canonicalJson]
    exact hleaf (.string s) rfl text
  | array es ih =>
    cases hv with
    | array hes =>
      have htexts : ∀ texts, (canonicalElems es).mapM id = .ok texts ↔
          (∀ e ∈ es, e.AllNumbers Limited) ∧
            (es.map fun e => e.normalNumbers.normalize.write) = texts := by
        intro texts
        rw [canonicalElems_eq, List.mapM_map]
        exact mapM_ok_of_iff fun e he b => ih e he (hes e he)
      rw [canonicalJson, Outcome.bind_ok, write_normal_array]
      simp only [htexts, Outcome.pure_ok]
      constructor
      · intro h
        obtain ⟨texts, ⟨hlimited, htexts⟩, htext⟩ := h
        exact ⟨.array hlimited, by rw [htexts, htext]⟩
      · intro h
        cases h.1 with
        | array hlimited => exact ⟨_, ⟨hlimited, rfl⟩, h.2⟩
  | object ms ih =>
    cases hv with
    | object hms =>
      have htexts : ∀ texts, ((Keyed.sortOn Prod.fst (canonicalMembers ms)).mapM fun m =>
            m.2.map fun text => writeString m.1 ++ ':' :: text) = .ok texts ↔
          (∀ m ∈ Keyed.sortOn Prod.fst ms, m.2.AllNumbers Limited) ∧
            (Keyed.sortOn Prod.fst ms).map writeNormal = texts := by
        intro texts
        have hsort : Keyed.sortOn Prod.fst (ms.map fun m => (m.1, canonicalJson m.2)) =
            (Keyed.sortOn Prod.fst ms).map fun m => (m.1, canonicalJson m.2) :=
          Keyed.sortOn_map (fun _ => rfl) ms
        rw [canonicalMembers_eq, hsort, List.mapM_map]
        apply mapM_ok_of_iff
        intro m hm b
        have hmem := Keyed.mem_sortOn.mp hm
        show (canonicalJson m.2).map _ = .ok b ↔ _
        rw [Outcome.map_eq_ok]
        simp only [ih m hmem (hms m hmem)]
        constructor
        · intro h
          obtain ⟨t, ⟨hlimited, ht⟩, hb⟩ := h
          exact ⟨hlimited, by rw [writeNormal, ht, hb]⟩
        · intro h
          exact ⟨_, ⟨h.1, rfl⟩, h.2⟩
      rw [canonicalJson, Outcome.bind_ok, write_normal_object]
      simp only [htexts, Outcome.pure_ok, Keyed.mem_sortOn]
      constructor
      · intro h
        obtain ⟨texts, ⟨hlimited, htexts⟩, htext⟩ := h
        exact ⟨.object hlimited, by rw [htexts, htext]⟩
      · intro h
        cases h.1 with
        | object hlimited => exact ⟨_, ⟨hlimited, rfl⟩, h.2⟩

end Texts

section Requests

/-- A request whose method and path are one line each, with a payload as it is in memory: objects
are maps, and numbers are tokens. -/
structure SignedRequest where
  method : String
  path : String
  payload : Value
  uniqueKeys : payload.UniqueKeys
  tokens : payload.AllNumbers Number.IsToken
  methodLine : '\n' ∉ method.toList
  pathLine : '\n' ∉ path.toList

def SignedRequest.preimage (r : SignedRequest) : Except Failure (List UInt8) :=
  requestHmacPreimageV2 r.method r.path r.payload

/-- The payload without its signature. -/
def SignedRequest.body (r : SignedRequest) : Value :=
  match r.payload with
  | .object members => .object (members.filter fun m => m.1 ≠ "hmac")
  | v => v

/-- The payload is an object, and the numbers that are signed are within the limits. -/
structure SignedRequest.Signable (r : SignedRequest) : Prop where
  isObject : ∃ members, r.payload = .object members
  limited : r.body.AllNumbers Limited

/-- The methods are the same but for the case of ASCII letters, the paths are the same, and the
payloads are the same data. -/
structure SignedRequest.Same (r r' : SignedRequest) : Prop where
  method : r.method.toList.map Char.toUpper = r'.method.toList.map Char.toUpper
  path : r.path = r'.path
  body : Value.Same r.body r'.body

variable {r r' : SignedRequest} {bytes : List UInt8}

theorem uniqueKeys_filter {members : List (String × Value)} {p : String × Value → Bool}
    (h : (Value.object members).UniqueKeys) : (Value.object (members.filter p)).UniqueKeys := by
  cases h with
  | object hkeys hmembers =>
    apply Value.UniqueKeys.object
    · exact hkeys.sublist (List.filter_sublist.map Prod.fst)
    · intro m hm
      exact hmembers m (List.mem_of_mem_filter hm)

theorem allNumbers_filter {P : Number → Prop} {members : List (String × Value)}
    {p : String × Value → Bool} (h : (Value.object members).AllNumbers P) :
    (Value.object (members.filter p)).AllNumbers P := by
  cases h with
  | object hmembers =>
    apply Value.AllNumbers.object
    intro m hm
    exact hmembers m (List.mem_of_mem_filter hm)

theorem SignedRequest.body_uniqueKeys (r : SignedRequest) : r.body.UniqueKeys := by
  have hkeys := r.uniqueKeys
  unfold body
  split
  · next heq =>
    rw [heq] at hkeys
    exact uniqueKeys_filter hkeys
  · exact hkeys

theorem SignedRequest.body_tokens (r : SignedRequest) : r.body.AllNumbers Number.IsToken := by
  have htokens := r.tokens
  unfold body
  split
  · next heq =>
    rw [heq] at htokens
    exact allNumbers_filter htokens
  · exact htokens

/-- The signed text: a line for the method, one for the path, and the payload. -/
noncomputable def SignedRequest.signedText (r : SignedRequest) : List Char :=
  versionLine ++ (r.method.toList.map Char.toUpper ++ '\n' ::
    (r.path.toList ++ '\n' :: r.body.normalNumbers.normalize.write))

theorem SignedRequest.preimage_iff :
    r.preimage = .ok bytes ↔ r.Signable ∧ utf8 r.signedText = bytes := by
  unfold preimage requestHmacPreimageV2
  cases hpayload : r.payload with
  | object members =>
    have hbody : r.body = .object (members.filter fun m => m.1 ≠ "hmac") := by
      rw [body, hpayload]
    have htokens := r.body_tokens
    rw [hbody] at htokens
    have hsignable : r.Signable ↔
        (Value.object (members.filter fun m => m.1 ≠ "hmac")).AllNumbers Limited := by
      rw [← hbody]
      exact ⟨SignedRequest.Signable.limited, fun h => ⟨⟨members, hpayload⟩, h⟩⟩
    rw [hsignable, signedText, hbody]
    simp only [Outcome.bind_ok, canonicalJson_iff htokens, Outcome.pure_ok]
    constructor
    · intro h
      obtain ⟨text, ⟨hlimited, htext⟩, hbytes⟩ := h
      rw [← htext] at hbytes
      exact ⟨hlimited, hbytes⟩
    · intro h
      exact ⟨_, ⟨h.1, rfl⟩, h.2⟩
  | _ =>
    constructor
    · intro h
      exact absurd h (by simp)
    · intro h
      obtain ⟨members, hobject⟩ := h.1.isObject
      exact absurd (hpayload.symm.trans hobject) (by simp)

theorem toUpper_ne_newline {c : Char} (h : c ≠ '\n') : c.toUpper ≠ '\n' := by
  unfold Char.toUpper
  split
  · next hlower =>
    intro heq
    have hvalue := congrArg (fun d : Char => d.val.toNat) heq
    have hlow : 97 ≤ c.val.toNat := hlower.1
    have hhigh : c.val.toNat ≤ 122 := hlower.2
    have hshift : ('A'.val - 'a'.val).toNat = 2 ^ 32 - 32 := by decide
    have hnewline : ('\n' : Char).val.toNat = 10 := rfl
    simp only [UInt32.toNat_add, hshift, hnewline] at hvalue
    omega
  · exact h

/-- A line ends where it says. -/
theorem line_inj {line line' rest rest' : List Char} (h : '\n' ∉ line) (h' : '\n' ∉ line')
    (heq : line ++ '\n' :: rest = line' ++ '\n' :: rest') : line = line' ∧ rest = rest' := by
  have hlines : ∀ {l : List Char}, '\n' ∉ l → ∀ x ∈ l, (x == '\n') = false := by
    intro l hl x hx
    rw [beq_eq_false_iff_ne]
    intro hnewline
    exact hl (hnewline ▸ hx)
  have hmark : ('\n' == '\n') = true := rfl
  have hsplit := splitOnce_append (hlines h) hmark rest
  rw [heq, splitOnce_append (hlines h') hmark rest'] at hsplit
  have hpair := Prod.mk.inj (Option.some.inj hsplit)
  exact ⟨hpair.1.symm, hpair.2.symm⟩

theorem SignedRequest.newline_notMem (r : SignedRequest) :
    '\n' ∉ r.method.toList.map Char.toUpper := by
  intro hmem
  obtain ⟨c, hc, heq⟩ := List.mem_map.mp hmem
  apply toUpper_ne_newline _ heq
  intro hnewline
  exact r.methodLine (hnewline ▸ hc)

theorem SignedRequest.signedText_eq_iff : r.signedText = r'.signedText ↔ r.Same r' := by
  have hbody : r.body.normalNumbers.normalize.write = r'.body.normalNumbers.normalize.write ↔
      Value.Same r.body r'.body := by
    rw [Value.same_iff, ← Value.normalize_eq_iff r.body_uniqueKeys.normalNumbers]
    exact ⟨Value.write_injective, congrArg Value.write⟩
  unfold signedText
  rw [List.append_cancel_left_eq]
  constructor
  · intro h
    obtain ⟨hmethod, hrest⟩ := line_inj r.newline_notMem r'.newline_notMem h
    obtain ⟨hpath, htext⟩ := line_inj r.pathLine r'.pathLine hrest
    exact ⟨hmethod, String.toList_inj.mp hpath, hbody.mp htext⟩
  · intro h
    rw [h.method, h.path, hbody.mpr h.body]

/-- A request has a preimage exactly when its payload is an object with numbers within the limits,
and two of these have one preimage exactly when they are the same request. -/
theorem request_hmac_preimage_v2 :
    (∀ r : SignedRequest, (∃ bytes, r.preimage = .ok bytes) ↔ r.Signable) ∧
      ∀ r r' : SignedRequest, r.Signable → r'.Signable →
        (r.preimage = r'.preimage ↔ r.Same r') := by
  constructor
  · intro r
    constructor
    · intro h
      obtain ⟨bytes, hbytes⟩ := h
      exact (SignedRequest.preimage_iff.mp hbytes).1
    · intro h
      exact ⟨_, SignedRequest.preimage_iff.mpr ⟨h, rfl⟩⟩
  · intro r r' hr hr'
    have hfirst := SignedRequest.preimage_iff.mpr ⟨hr, rfl⟩
    have hsecond := SignedRequest.preimage_iff.mpr ⟨hr', rfl⟩
    rw [hfirst, hsecond, Except.ok.injEq, ← SignedRequest.signedText_eq_iff]
    exact ⟨utf8_injective, congrArg utf8⟩

/-- A request with one number. -/
def countRequest (t : Token) : SignedRequest where
  method := "POST"
  path := "/v1"
  payload := .object [("count", .number (Number.ofToken t))]
  uniqueKeys := by
    apply Value.UniqueKeys.object
    · simp
    · intro m hm
      rw [List.mem_singleton] at hm
      rw [hm]
      exact .number _
  tokens := by
    apply Value.AllNumbers.object
    intro m hm
    rw [List.mem_singleton] at hm
    rw [hm]
    exact .number ⟨t, rfl⟩
  methodLine := by decide
  pathLine := by decide

theorem one_ne_nil : [Token.digit 1] ≠ [] := List.cons_ne_nil _ _

theorem one_noLeadingZero (ds : List (Fin 10)) (h : [Token.digit 1] = 0 :: ds) : ds = [] :=
  (List.cons.inj h).2.symm

/-- One and a thousand zeros, with the largest exponent. -/
def thousandZeros : Token where
  negative := false
  integer := [Token.digit 1]
  fraction := []
  exponent := longToken.exponent
  nonempty := one_ne_nil
  noLeadingZero := one_noLeadingZero

theorem tenthDigits_ne_nil : [1, 0, 0, 1].map Token.digit ≠ [] := List.cons_ne_nil _ _

theorem zero_ne_nil : [Token.digit 0] ≠ [] := List.cons_ne_nil _ _

theorem zero_noLeadingZero (ds : List (Fin 10)) (h : [Token.digit 0] = 0 :: ds) : ds = [] :=
  (List.cons.inj h).2.symm

/-- The same number, a tenth of it with an exponent beyond the limit. -/
def tenthToken : Token where
  negative := false
  integer := [Token.digit 0]
  fraction := [Token.digit 1]
  exponent := some ⟨false, none, [1, 0, 0, 1].map Token.digit, tenthDigits_ne_nil⟩
  nonempty := zero_ne_nil
  noLeadingZero := zero_noLeadingZero

theorem value_tenthToken : tenthToken.value = thousandZeros.value := by
  have hexponent : tenthToken.exponentValue = 1001 ∧ thousandZeros.exponentValue = 1000 := by
    decide
  have hvalue : tenthToken.magnitude = thousandZeros.magnitude := by
    unfold Token.magnitude
    rw [hexponent.1, hexponent.2]
    rfl
  exact hvalue

/-- Of two requests with one number the one that writes it beyond the limits has no preimage. -/
theorem request_hmac_preimage_v2_limits :
    ¬ ∀ r r' : SignedRequest, r.preimage = r'.preimage ↔ r.Same r' := by
  intro h
  have hsame : (countRequest thousandZeros).Same (countRequest tenthToken) := by
    refine ⟨rfl, rfl, ?_⟩
    exact Value.Same.member "count" [] []
      (.number ⟨thousandZeros, rfl, rfl⟩ ⟨tenthToken, rfl, value_tenthToken⟩)
  have hequal := (h _ _).mpr hsame
  have hfirst : (countRequest thousandZeros).preimage.toOption.isSome = true := by
    decide +kernel
  have hsecond : (countRequest tenthToken).preimage.toOption.isSome = false := by
    decide +kernel
  rw [hequal, hsecond] at hfirst
  exact absurd hfirst (by decide)

end Requests

end FleetAgent
