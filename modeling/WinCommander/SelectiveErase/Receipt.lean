import WinCommander.RebootWipe.Orchestrator

/-!
# Receipts of a selective erase

Which targets count as the system volume, and what a receipt says after the reply of the handler and
the reads of the header.
-/

namespace SelectiveErase

open Json

section Targets

def normDrive (s : String) : String :=
  String.ofList (((AsciiText.trimChars s.toList).rdropWhile (· = '\\')).map Char.toUpper)

/-- What a raw device path starts with. -/
def devicePrefixes : List (List Char) := ["\\\\.\\".toList, "\\\\?\\".toList]

def upperPath (path : String) : List Char := (AsciiText.trimChars path.toList).map Char.toUpper

def isSystemDevicePath (path sysDrive : String) : Bool :=
  let p := upperPath path
  let sys := (normDrive sysDrive).toList
  (devicePrefixes.any fun start => p = start ++ sys) ||
    devicePrefixes.any fun start => start.isPrefixOf p

def isOsTarget (kind : String) (mountPoint path : Option String) (sysDrive : String) : Bool :=
  let sys := normDrive sysDrive
  if kind = "bitlocker" then
    match mountPoint with
    | some mp => normDrive mp = sys
    | none => true
  else if kind = "veracrypt" then
    match path with
    | some p => isSystemDevicePath p sys
    | none => true
  else true

end Targets

section Receipts

structure EraseReceipt where
  kind : String
  label : String
  action : String
  status : String
  verified : Bool
  escrowWarning : Option String
  recoveryProtectorsRemaining : Option Int64
  keyEvicted : Bool
  detail : String
  deriving DecidableEq

def statusText (handler : Value) : Option String := (handler.get "status").bind Value.asStr

def render (handler : Value) : String := String.ofList handler.write

def veracryptReceipt (label : String) (handler : Value) (keyEvicted : Bool) : EraseReceipt :=
  let ok := statusText handler = some "destroyed"
  { kind := "veracrypt"
    label := label
    action := "veracrypt_header_destroy"
    status := if ok then "erased" else "failed"
    verified := ok
    escrowWarning := none
    recoveryProtectorsRemaining := none
    keyEvicted := keyEvicted
    detail :=
      if ok then
        "Header (primary + backup) overwritten with random data and flushed; the container can no longer be mounted with its password. (Overwrite issued + flushed; not independently re-mounted to verify.)"
      else "VeraCrypt header destroy did not confirm success: " ++ render handler }

/-- A warning that is no text is read as none. -/
def escrowText (handler : Value) : String :=
  ((handler.get "escrow_warning").bind Value.asStr).getD ""

def protectorsRemaining (handler : Value) : Option Int64 :=
  (handler.get "recovery_protectors_remaining").bind Value.asI64

def bitlockerVerdict (handler : Value) (keyEvicted isOs : Bool) : String × String :=
  if statusText handler ≠ some "ok" then
    ("failed", "BitLocker protector removal failed: " ++ render handler)
  else if ¬ (escrowText handler = "" ∧ protectorsRemaining handler = some 0) then
    ("erased_with_caveat",
      "Protectors removed, but a recovery key may survive (escrowed to AD/Entra, or protectors remain) — NOT guaranteed unrecoverable.")
  else if isOs then
    ("erased",
      "Key protectors removed. The machine will not boot after restart, and the data becomes unrecoverable once this session ends — the drive's key stays in memory until then.")
  else if keyEvicted then
    ("erased",
      "All key protectors removed and the volume locked (key evicted from memory); without an escrowed recovery key the data is unrecoverable.")
  else
    ("erased_with_caveat",
      "Protectors removed, but the volume's key could not be evicted from memory — it stays readable until you reboot or dismount it, and is unrecoverable after that.")

def bitlockerReceipt (label : String) (handler : Value) (keyEvicted isOs : Bool) : EraseReceipt :=
  let (status, detail) := bitlockerVerdict handler keyEvicted isOs
  { kind := "bitlocker"
    label := label
    action := "bitlocker_protectors_removed"
    status := status
    verified := statusText handler = some "ok" ∧ protectorsRemaining handler = some 0
    escrowWarning := if escrowText handler = "" then none else some (escrowText handler)
    recoveryProtectorsRemaining := protectorsRemaining handler
    keyEvicted := keyEvicted
    detail := detail }

def mapReceipt (kind label : String) (handler : Value) (keyEvicted isOs : Bool) : EraseReceipt :=
  if kind = "veracrypt" then veracryptReceipt label handler keyEvicted
  else if kind = "bitlocker" then bitlockerReceipt label handler keyEvicted isOs
  else
    { kind := kind
      label := label
      action := "unknown"
      status := "failed"
      verified := false
      escrowWarning := none
      recoveryProtectorsRemaining := none
      keyEvicted := keyEvicted
      detail := "unknown target kind" }

def headerVerifyBytes : ℕ := 128 * 1024

/-- The header is what one read of the file returns, which may be less than was asked for. -/
def headerPrefix (read : Option (List UInt8)) : Option (List UInt8) :=
  read.bind fun bytes => if bytes = [] then none else some (bytes.take headerVerifyBytes)

def applyHeaderVerification (receipt : EraseReceipt) (pre post : Option (List UInt8)) :
    EraseReceipt :=
  if receipt.status ≠ "erased" then receipt
  else
    match pre, post with
    | some a, some b =>
        if a = b then
          { receipt with
            verified := false
            status := "erased_with_caveat"
            detail := receipt.detail ++
              " INDEPENDENT VERIFICATION FAILED: the on-disk header bytes are unchanged from before the erase call — do not treat this container as confirmed erased." }
        else
          { receipt with
            verified := true
            detail := receipt.detail ++
              " Independently verified: the on-disk header bytes changed after the erase call." }
    | _, _ =>
        { receipt with
          detail := receipt.detail ++
            " Independent verification unavailable (could not read the container header before/after the call); relying on the handler's self-report only." }

/-- The receipt that an erase of a kind returns. -/
def eraseReceipt (kind label : String) (handler : Value) (keyEvicted isOs : Bool)
    (pre post : Option (List UInt8)) : EraseReceipt :=
  if kind = "veracrypt" then
    applyHeaderVerification (mapReceipt kind label handler keyEvicted isOs) pre post
  else mapReceipt kind label handler keyEvicted isOs

end Receipts

section Honesty

/-- Two headers differ at an offset that both have. -/
def DifferAtOffset (a b : List UInt8) : Prop :=
  ∃ (i : ℕ) (x y : UInt8), a[i]? = some x ∧ b[i]? = some y ∧ x ≠ y

/-- The handler reported no escrow warning. -/
def NoEscrowWarning (handler : Value) : Prop :=
  ∀ w, handler.get "escrow_warning" = some w → w = .null ∨ w = .string ""

/-- What a receipt that says "erased" must rest on. -/
structure Erased (kind : String) (handler : Value) (pre post : Option (List UInt8)) : Prop where
  known : kind = "veracrypt" ∨ kind = "bitlocker"
  destroyed : kind = "veracrypt" → statusText handler = some "destroyed"
  header : kind = "veracrypt" → ∀ a b, pre = some a → post = some b → DifferAtOffset a b
  ok : kind = "bitlocker" → statusText handler = some "ok"
  escrow : kind = "bitlocker" → NoEscrowWarning handler
  protectors : kind = "bitlocker" → protectorsRemaining handler = some 0

/-- Whatever else is known of the target, its receipt says "erased" only with reason. -/
def HonestReceipts (handler : Value) (pre post : Option (List UInt8)) : Prop :=
  ∀ kind label keyEvicted isOs,
    (eraseReceipt kind label handler keyEvicted isOs pre post).status = "erased" →
      Erased kind handler pre post

/-- The warning of a successful reply is a text, and neither header is a shorter read of the other. -/
structure Comparable (handler : Value) (pre post : Option (List UInt8)) : Prop where
  warning : statusText handler = some "ok" → protectorsRemaining handler = some 0 →
    ∀ w, handler.get "escrow_warning" = some w → w = .null ∨ ∃ text, w = .string text
  headers : statusText handler = some "destroyed" →
    ∀ a b, pre = some a → post = some b → a <+: b ∨ b <+: a → a = b

variable {handler : Value} {pre post : Option (List UInt8)}

theorem differAtOffset_or_prefix (a b : List UInt8) : DifferAtOffset a b ∨ a <+: b ∨ b <+: a := by
  induction a generalizing b with
  | nil => exact Or.inr (Or.inl List.nil_prefix)
  | cons x a ih =>
    cases b with
    | nil => exact Or.inr (Or.inr List.nil_prefix)
    | cons y b =>
      by_cases hxy : x = y
      · rw [hxy]
        rcases ih b with ⟨i, u, w, hu, hw, hne⟩ | hprefix | hprefix
        · exact Or.inl ⟨i + 1, u, w, by simpa using hu, by simpa using hw, hne⟩
        · exact Or.inr (Or.inl (List.cons_prefix_cons.mpr ⟨rfl, hprefix⟩))
        · exact Or.inr (Or.inr (List.cons_prefix_cons.mpr ⟨rfl, hprefix⟩))
      · exact Or.inl ⟨0, x, y, rfl, rfl, hxy⟩

theorem DifferAtOffset.not_initial {a b : List UInt8} (h : DifferAtOffset a b) :
    ¬ (a <+: b ∨ b <+: a) := by
  obtain ⟨i, x, y, hx, hy, hne⟩ := h
  rintro (⟨rest, rfl⟩ | ⟨rest, rfl⟩)
  · have hlt := (List.getElem?_eq_some_iff.mp hx).1
    rw [List.getElem?_append_left hlt, hx] at hy
    exact hne (Option.some.inj hy)
  · have hlt := (List.getElem?_eq_some_iff.mp hy).1
    rw [List.getElem?_append_left hlt, hy] at hx
    exact hne (Option.some.inj hx).symm

/-- A receipt stays good unless both headers were read and are the same. -/
theorem applyHeaderVerification_erased (receipt : EraseReceipt) :
    (applyHeaderVerification receipt pre post).status = "erased" ↔
      receipt.status = "erased" ∧ ∀ a b, pre = some a → post = some b → a ≠ b := by
  by_cases hstatus : receipt.status = "erased"
  · cases pre with
    | none => simp [applyHeaderVerification, hstatus]
    | some a =>
      cases post with
      | none => simp [applyHeaderVerification, hstatus]
      | some b => by_cases hsame : a = b <;> simp [applyHeaderVerification, hstatus, hsame]
  · simp [applyHeaderVerification, hstatus]

theorem veracryptReceipt_erased {label : String} {keyEvicted : Bool} :
    (veracryptReceipt label handler keyEvicted).status = "erased" ↔
      statusText handler = some "destroyed" := by
  have hreceipt : (veracryptReceipt label handler keyEvicted).status =
      if statusText handler = some "destroyed" then "erased" else "failed" := rfl
  rw [hreceipt]
  by_cases hstatus : statusText handler = some "destroyed" <;> simp [hstatus]

theorem veracrypt_erased {label : String} {keyEvicted isOs : Bool} :
    (eraseReceipt "veracrypt" label handler keyEvicted isOs pre post).status = "erased" ↔
      statusText handler = some "destroyed" ∧ ∀ a b, pre = some a → post = some b → a ≠ b := by
  rw [eraseReceipt, if_pos rfl, mapReceipt, if_pos rfl, applyHeaderVerification_erased,
    veracryptReceipt_erased]

theorem bitlocker_erased {label : String} {keyEvicted isOs : Bool} :
    (eraseReceipt "bitlocker" label handler keyEvicted isOs pre post).status = "erased" ↔
      statusText handler = some "ok" ∧ escrowText handler = "" ∧
        protectorsRemaining handler = some 0 ∧ (isOs = true ∨ keyEvicted = true) := by
  have hreceipt : (eraseReceipt "bitlocker" label handler keyEvicted isOs pre post).status =
      (bitlockerVerdict handler keyEvicted isOs).1 := rfl
  rw [hreceipt, bitlockerVerdict]
  by_cases hstatus : statusText handler = some "ok"
  · by_cases hclean : escrowText handler = "" ∧ protectorsRemaining handler = some 0
    · cases isOs <;> cases keyEvicted <;> simp [hstatus, hclean]
    · rw [if_neg (not_not.mpr hstatus), if_pos hclean]
      exact iff_of_false (by decide) fun h => hclean ⟨h.2.1, h.2.2.1⟩
  · simp [hstatus]

/-- A warning that is read as none, and is a text if it is there, is none. -/
theorem noEscrowWarning_of_text (hempty : escrowText handler = "")
    (htext : ∀ w, handler.get "escrow_warning" = some w → w = .null ∨ ∃ text, w = .string text) :
    NoEscrowWarning handler := by
  intro w hw
  rcases htext w hw with hnull | ⟨text, rfl⟩
  · exact Or.inl hnull
  · have htext' : text = "" := by simpa [escrowText, hw, Value.asStr] using hempty
    exact Or.inr (by rw [htext'])

theorem honestReceipts_iff : HonestReceipts handler pre post ↔ Comparable handler pre post := by
  constructor
  · intro h
    constructor
    · intro hstatus hremaining w hw
      by_cases htext : ∃ text, w = .string text
      · exact Or.inr htext
      · have hempty : escrowText handler = "" := by
          cases w with
          | string text => exact absurd ⟨text, rfl⟩ htext
          | null | bool | number | array | object => simp [escrowText, hw, Value.asStr]
        have herased := h "bitlocker" "" true false
          (bitlocker_erased.mpr ⟨hstatus, hempty, hremaining, Or.inr rfl⟩)
        rcases herased.escrow rfl w hw with hnull | hstring
        · exact Or.inl hnull
        · exact absurd ⟨"", hstring⟩ htext
    · intro hstatus a b ha hb hprefix
      by_contra hne
      have hheaders : ∀ a' b', pre = some a' → post = some b' → a' ≠ b' := by
        intro a' b' ha' hb'
        rw [ha] at ha'
        rw [hb] at hb'
        rw [← Option.some.inj ha', ← Option.some.inj hb']
        exact hne
      have herased := h "veracrypt" "" true false (veracrypt_erased.mpr ⟨hstatus, hheaders⟩)
      exact (herased.header rfl a b ha hb).not_initial hprefix
  · intro h kind label keyEvicted isOs hstatus
    by_cases hvera : kind = "veracrypt"
    · subst hvera
      obtain ⟨hdestroyed, hheaders⟩ := veracrypt_erased.mp hstatus
      refine ⟨Or.inl rfl, fun _ => hdestroyed, ?_, fun hk => absurd hk (by decide),
        fun hk => absurd hk (by decide), fun hk => absurd hk (by decide)⟩
      intro _ a b ha hb
      rcases differAtOffset_or_prefix a b with hdiffer | hprefix
      · exact hdiffer
      · exact absurd (h.headers hdestroyed a b ha hb hprefix) (hheaders a b ha hb)
    · by_cases hbit : kind = "bitlocker"
      · subst hbit
        obtain ⟨hok, hescrow, hremaining, _⟩ := bitlocker_erased.mp hstatus
        refine ⟨Or.inr rfl, fun hk => absurd hk (by decide), fun hk => absurd hk (by decide),
          fun _ => hok, fun _ => ?_, fun _ => hremaining⟩
        exact noEscrowWarning_of_text hescrow (h.warning hok hremaining)
      · simp [eraseReceipt, mapReceipt, hvera, hbit] at hstatus

end Honesty

end SelectiveErase
