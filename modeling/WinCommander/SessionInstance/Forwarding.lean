import Mathlib
import WinCommander.Library.Bytes
import WinCommander.Library.Run

/-!
# Arguments forwarded to the running instance

A second launch writes its arguments to the pipe of the first and ends.  The first does what they ask
for, or keeps them until it is ready.  It becomes ready while the listener of the pipe is running.
-/

namespace SessionInstance

section Arguments

def isFlag (arg : String) : Bool := decide (['-', '-'] <+: arg.toList)

/-- What a second launch forwards of its arguments, of which the first is the program. -/
def duplicateForwardArguments (args : List String) : Option (List String) :=
  let background := args.any fun arg => arg = "--autostart" || arg = "--minimized"
  let meaningful := (args.drop 1).filter fun arg =>
    !(arg = "--autostart" || arg = "--minimized") && !(background && arg = "--elevated-relaunch")
  if meaningful ≠ [] then some meaningful
  else if background then none
  else some ["--focus"]

def join (args : List String) : String :=
  String.ofList (List.intercalate ['|'] (args.map String.toList))

def split (payload : String) : List String :=
  (payload.toList.splitOn '|').map String.ofList

def bufferSize : ℕ := 8192

/-- One read takes what is there of the bytes, up to the size of the buffer. -/
def readPayload (fromUtf8Lossy : List UInt8 → String) (bytes : List UInt8) (available : ℕ) : String :=
  fromUtf8Lossy (bytes.take (min available bufferSize))

/-- What is not another verb is shredded. -/
def resolveContextMenuEvent (hasFlag : String → Bool) : String :=
  if hasFlag "--safe-paste" then "safe-paste-requested"
  else if hasFlag "--scrub" then "scrub-requested"
  else "shred-requested"

/-- What is done with the paths of a launch. -/
inductive Work where
  | nothing
  | contextShred (paths : List String)
  | safePaste (paths : List String)
  | emit (event : String) (paths : List String)
  deriving DecidableEq

def menuWork (hasFlag : String → Bool) (paths : List String) : Work :=
  if paths = [] then .nothing
  else
    let event := resolveContextMenuEvent hasFlag
    if event = "safe-paste-requested" then .safePaste paths else .emit event paths

/-- What a first launch does with its own arguments. -/
def setupWork (args : List String) : Work :=
  menuWork (fun flag => args.contains flag) ((args.drop 1).filter fun arg => !isFlag arg)

end Arguments

section Handling

/-- What is shown of the running instance. -/
inductive Shown where
  | unchanged
  | calculator
  | window
  deriving DecidableEq

/-- What a forwarded payload leads to. -/
inductive Outcome where
  | exit
  | queue
  | handled (shown : Shown) (work : Work)
  deriving DecidableEq

/-- What the running instance is, but for whether it is ready. -/
structure Primary where
  elevated : Bool
  hasWindow : Bool
  calculatorMode : Bool

def shouldExitForElevationHandoff (requested elevated : Bool) : Bool := requested && !elevated

def shouldRevealExistingInstance (parts : List String) (elevated : Bool) : Bool :=
  parts.contains "--focus" || (elevated && parts.contains "--elevated-relaunch" &&
    !parts.contains "--autostart" && !parts.contains "--minimized")

def shownFor (primary : Primary) (parts paths : List String) : Shown :=
  if !primary.hasWindow || parts.contains "--safe-paste" || parts.contains "--context-shred" then
    .unchanged
  else if shouldRevealExistingInstance parts primary.elevated || decide (paths ≠ []) then
    if primary.calculatorMode then .calculator else .window
  else .unchanged

/-- A hand-over to an elevated instance ends this one.  All else waits until it is ready. -/
def handleForwardedArgs (primary : Primary) (ready : Bool) (payload : String) : Outcome :=
  let parts := split payload
  let requested := parts.contains "--elevated-relaunch" && !parts.contains "--autostart" &&
    !parts.contains "--minimized"
  let paths := parts.filter fun arg => !isFlag arg
  if shouldExitForElevationHandoff requested primary.elevated then .exit
  else if !ready then .queue
  else .handled (shownFor primary parts paths)
    (if parts.contains "--context-shred" then .contextShred paths
     else menuWork (fun flag => parts.contains flag) paths)

end Handling

section RoundTrip

/-- Arguments without the separator are split as they were joined. -/
theorem split_join {args : List String} (hne : args ≠ []) (h : ∀ arg ∈ args, '|' ∉ arg.toList) :
    split (join args) = args := by
  have hlists : (join args).toList.splitOn '|' = args.map String.toList := by
    rw [join, String.toList_ofList]
    apply List.splitOn_intercalate
    · exact List.forall_mem_map.mpr h
    · rw [ne_eq, List.map_eq_nil_iff]
      exact hne
  rw [split, hlists, List.map_map]
  conv_rhs => rw [← List.map_id args]
  exact List.map_congr_left fun arg _ => String.ofList_toList

theorem readPayload_whole {fromUtf8Lossy : List UInt8 → String} {text : String} {available : ℕ}
    (hlossy : ∀ s, fromUtf8Lossy (Bytes.ofString s) = s) (hall : text.utf8ByteSize ≤ available)
    (hfits : text.utf8ByteSize ≤ bufferSize) :
    readPayload fromUtf8Lossy (Bytes.ofString text) available = text := by
  have hlength : (Bytes.ofString text).length = text.utf8ByteSize := rfl
  rw [readPayload, List.take_of_length_le (by omega), hlossy]

theorem duplicateForwardArguments_ne_nil {args forwarded : List String}
    (h : duplicateForwardArguments args = some forwarded) : forwarded ≠ [] := by
  rw [duplicateForwardArguments] at h
  split at h
  · next hmeaningful =>
    rw [← Option.some.inj h]
    exact hmeaningful
  · split at h
    · cases h
    · rw [← Option.some.inj h]
      exact List.cons_ne_nil _ _

/-- A flag that says how the program is started, and not what for. -/
def startupFlags : List String := ["--autostart", "--minimized", "--elevated-relaunch", "--focus"]

/-- All but flags of the start is forwarded. -/
theorem mem_forwarded {args forwarded : List String}
    (h : duplicateForwardArguments args = some forwarded) {arg : String} (harg : arg ∉ startupFlags) :
    arg ∈ forwarded ↔ arg ∈ args.drop 1 := by
  simp only [startupFlags, List.mem_cons, List.not_mem_nil, or_false, not_or] at harg
  rw [duplicateForwardArguments] at h
  split at h
  · rw [← Option.some.inj h, List.mem_filter]
    simp [harg]
  · next hnone =>
    rw [ne_eq, not_not] at hnone
    have habsent : arg ∉ args.drop 1 := by
      intro hmem
      have hkept : arg ∈ (args.drop 1).filter fun a => !(a = "--autostart" || a = "--minimized") &&
          !((args.any fun a => a = "--autostart" || a = "--minimized") && a = "--elevated-relaunch") := by
        rw [List.mem_filter]
        exact ⟨hmem, by simp [harg]⟩
      rw [hnone] at hkept
      exact absurd hkept List.not_mem_nil
    split at h
    · cases h
    · rw [← Option.some.inj h, List.mem_singleton]
      exact iff_of_false harg.2.2.2 habsent

theorem isFlag_of_mem_startupFlags {arg : String} (h : arg ∈ startupFlags) : isFlag arg = true := by
  have hall : ∀ flag ∈ startupFlags, isFlag flag = true := by decide
  exact hall arg h

/-- The paths are forwarded in their order. -/
theorem paths_forwarded {args forwarded : List String}
    (h : duplicateForwardArguments args = some forwarded) :
    (forwarded.filter fun arg => !isFlag arg) = (args.drop 1).filter fun arg => !isFlag arg := by
  have hplain (arg : String) (harg : isFlag arg = false) : arg ∉ startupFlags := by
    intro hmem
    rw [isFlag_of_mem_startupFlags hmem] at harg
    cases harg
  have hmeaningful : (((args.drop 1).filter fun a => !(a = "--autostart" || a = "--minimized") &&
      !((args.any fun a => a = "--autostart" || a = "--minimized") && a = "--elevated-relaunch")).filter
        fun arg => !isFlag arg) = (args.drop 1).filter fun arg => !isFlag arg := by
    rw [List.filter_filter]
    apply List.filter_congr
    intro arg _
    cases hflag : isFlag arg with
    | true => rfl
    | false =>
      have harg := hplain arg hflag
      simp only [startupFlags, List.mem_cons, List.not_mem_nil, or_false, not_or] at harg
      simp [harg]
  rw [duplicateForwardArguments] at h
  split at h
  · rw [← Option.some.inj h, hmeaningful]
  · next hnone =>
    rw [ne_eq, not_not] at hnone
    rw [hnone] at hmeaningful
    rw [← hmeaningful]
    split at h
    · cases h
    · rw [← Option.some.inj h]
      decide

def textOrMark (bytes : List UInt8) : String := (Bytes.toString bytes).getD "\uFFFD"

theorem textOrMark_ofString (s : String) : textOrMark (Bytes.ofString s) = s := by
  rw [textOrMark, Bytes.toString_ofString, Option.getD_some]

/-- The parts of the beginning of joined texts: the first of them, and the beginning of the next. -/
theorem splitOn_take_intercalate {α : Type} [DecidableEq α] {sep : α} {xs : List (List α)}
    (hne : xs ≠ []) (h : ∀ x ∈ xs, sep ∉ x) (n : ℕ) : ∃ k part named, xs[k]? = some named ∧
      part <+: named ∧ ((List.intercalate [sep] xs).take n).splitOn sep = xs.take k ++ [part] := by
  induction xs generalizing n with
  | nil => exact absurd rfl hne
  | cons x xs ih =>
    rw [List.forall_mem_cons] at h
    have hfirst (hshort : n ≤ x.length) : (x.take n).splitOn sep = [x.take n] :=
      List.splitOn_eq_singleton fun hmem => h.1 (List.mem_of_mem_take hmem)
    cases xs with
    | nil =>
      have hone : (x.take n).splitOn sep = [x.take n] :=
        List.splitOn_eq_singleton fun hmem => h.1 (List.mem_of_mem_take hmem)
      refine ⟨0, x.take n, x, rfl, List.take_prefix n x, ?_⟩
      rw [List.intercalate_singleton, hone]
      rfl
    | cons y ys =>
      rw [List.intercalate_cons_cons, List.append_assoc, List.singleton_append]
      by_cases hshort : n ≤ x.length
      · refine ⟨0, x.take n, x, rfl, List.take_prefix n x, ?_⟩
        rw [List.take_append_of_le_length hshort, hfirst hshort]
        rfl
      · obtain ⟨k, part, named, hnamed, hpart, hsplit⟩ :=
          ih (List.cons_ne_nil y ys) h.2 (n - x.length - 1)
        refine ⟨k + 1, part, named, hnamed, hpart, ?_⟩
        have hlong : n = x.length + (n - x.length - 1 + 1) := by omega
        rw [hlong, List.take_length_add_append, List.take_succ_cons,
          List.splitOn_append_cons_self_of_not_mem h.1, hsplit]
        rfl

theorem join_split (payload : String) : join (split payload) = payload := by
  rw [join, split, List.map_map]
  have hid : (String.toList ∘ String.ofList : List Char → List Char) = id := by
    funext cs
    exact String.toList_ofList
  rw [hid, List.map_id, List.intercalate_splitOn, String.ofList_toList]

/-- A cut between two characters. -/
theorem readPayload_cut {fromUtf8Lossy : List UInt8 → String} {text rest : String} {available : ℕ}
    (hlossy : ∀ s, fromUtf8Lossy (Bytes.ofString s) = s)
    (hcut : text.utf8ByteSize = min (min available bufferSize) (text ++ rest).utf8ByteSize) :
    readPayload fromUtf8Lossy (Bytes.ofString (text ++ rest)) available = text := by
  have hbytes : Bytes.ofString (text ++ rest) = Bytes.ofString text ++ Bytes.ofString rest := by
    rw [Bytes.ofString, String.toByteArray_append, ByteArray.data_append, Array.toList_append]
    rfl
  have hsizes : (text ++ rest).utf8ByteSize = text.utf8ByteSize + (Bytes.ofString rest).length :=
    String.utf8ByteSize_append
  have hlength : text.utf8ByteSize = (Bytes.ofString text).length := rfl
  have htake : (Bytes.ofString (text ++ rest)).take (min available bufferSize) =
      Bytes.ofString text := by
    rw [hbytes]
    rcases Nat.le_total (text ++ rest).utf8ByteSize (min available bufferSize) with hall | hpart
    · have hnone : Bytes.ofString rest = [] := List.eq_nil_of_length_eq_zero (by omega)
      rw [hnone, List.append_nil, List.take_of_length_le (by omega)]
    · have hhere : min available bufferSize = (Bytes.ofString text).length := by omega
      rw [hhere, List.take_left]
  rw [readPayload, htake, hlossy]

end RoundTrip

section Readiness

/-- Where the listener is with the payload that it has read. -/
inductive Listener where
  | waiting
  | read (payload : String)
  | found (payload : String)

/-- Where the start of the running instance is. -/
inductive Startup where
  | before
  | stored
  | replaying (rest : List String)

structure State where
  ready : Bool
  pendingForwards : List String
  listener : Listener
  startup : Startup
  exited : Bool

def State.start : State := ⟨false, [], .waiting, .before, false⟩

/-- The steps of the listener and those of the start. -/
inductive Action where
  | receive (payload : String)
  | check
  | push
  | store
  | take
  | replay

variable (primary : Primary)

/-- A step that cannot be taken changes nothing. -/
@[grind =] def step (s : State) : Action → State
  | .receive payload =>
    match s.exited, s.listener with
    | false, .waiting => { s with listener := .read payload }
    | _, _ => s
  | .check =>
    match s.exited, s.listener with
    | false, .read payload =>
      match handleForwardedArgs primary s.ready payload with
      | .exit => { s with listener := .waiting, exited := true }
      | .queue => { s with listener := .found payload }
      | .handled _ _ => { s with listener := .waiting }
    | _, _ => s
  | .push =>
    match s.exited, s.listener with
    | false, .found payload =>
      { s with listener := .waiting, pendingForwards := s.pendingForwards ++ [payload] }
    | _, _ => s
  | .store =>
    match s.exited, s.startup with
    | false, .before => { s with ready := true, startup := .stored }
    | _, _ => s
  | .take =>
    match s.exited, s.startup with
    | false, .stored => { s with pendingForwards := [], startup := .replaying s.pendingForwards }
    | _, _ => s
  | .replay =>
    match s.exited, s.startup with
    | false, .replaying (payload :: rest) =>
      match handleForwardedArgs primary s.ready payload with
      | .exit => { s with startup := .replaying rest, exited := true }
      | .queue =>
        { s with startup := .replaying rest, pendingForwards := s.pendingForwards ++ [payload] }
      | .handled _ _ => { s with startup := .replaying rest }
    | _, _ => s

/-- The payloads that a step takes in. -/
@[grind =] def received (s : State) : Action → List String
  | .receive payload =>
    match s.exited, s.listener with
    | false, .waiting => [payload]
    | _, _ => []
  | _ => []

/-- The payloads that a step does what they ask for. -/
@[grind =] def handled (s : State) : Action → List String
  | .check =>
    match s.exited, s.listener with
    | false, .read payload =>
      if handleForwardedArgs primary s.ready payload = .queue then [] else [payload]
    | _, _ => []
  | .replay =>
    match s.exited, s.startup with
    | false, .replaying (payload :: _) =>
      if handleForwardedArgs primary s.ready payload = .queue then [] else [payload]
    | _, _ => []
  | _ => []

def Listener.held : Listener → List String
  | .waiting => []
  | .read payload => [payload]
  | .found payload => [payload]

def Listener.late : Listener → List String
  | .found payload => [payload]
  | _ => []

def Startup.rest : Startup → List String
  | .replaying rest => rest
  | _ => []

/-- The payloads that are still to be dealt with. -/
def State.openForwards (s : State) : List String :=
  s.listener.held ++ s.startup.rest ++ s.pendingForwards

end Readiness

section Delivery

variable {primary : Primary}

/-- Only what is asked of an instance that is not ready waits. -/
theorem not_queue_of_ready (payload : String) : handleForwardedArgs primary true payload ≠ .queue := by
  simp only [handleForwardedArgs]
  split
  · simp
  · simp

/-- The instance is ready from the store on. -/
def Coherent (s : State) : Prop := s.ready = false → s.startup = .before

theorem step_coherent {s : State} (hs : Coherent s) (a : Action) : Coherent (step primary s a) := by
  cases a with
  | receive payload =>
    simp only [step]
    split
    · exact hs
    · exact hs
  | check =>
    simp only [step]
    split
    · split
      · exact hs
      · exact hs
      · exact hs
    · exact hs
  | push =>
    simp only [step]
    split
    · exact hs
    · exact hs
  | store =>
    simp only [step]
    split
    · intro hready
      cases hready
    · exact hs
  | take =>
    simp only [step]
    split
    · next hstored =>
      intro hready
      rw [hs hready] at hstored
      cases hstored
    · exact hs
  | replay =>
    simp only [step]
    split
    · next hreplaying =>
      have hbefore : s.ready ≠ false := by
        intro hready
        rw [hs hready] at hreplaying
        cases hreplaying
      split
      · exact fun hready => absurd hready hbefore
      · exact fun hready => absurd hready hbefore
      · exact fun hready => absurd hready hbefore
    · exact hs

/-- Every payload is in one place, from when it is received until it is handled. -/
theorem step_conserves (s : State) (a : Action) :
    (received s a ++ s.openForwards).Perm (handled primary s a ++ (step primary s a).openForwards) := by
  cases a with
  | receive payload =>
    simp only [received, handled, step]
    split
    · next hlistener =>
      rw [State.openForwards, State.openForwards, hlistener]
      exact List.Perm.refl _
    · exact List.Perm.refl _
  | check =>
    simp only [received, handled, step]
    split
    · next payload hexited hlistener =>
      cases houtcome : handleForwardedArgs primary s.ready payload with
      | exit =>
        rw [State.openForwards, State.openForwards, hlistener, if_neg (by simp)]
        exact List.Perm.refl _
      | queue =>
        rw [State.openForwards, State.openForwards, hlistener, if_pos rfl]
        exact List.Perm.refl _
      | handled shown work =>
        rw [State.openForwards, State.openForwards, hlistener, if_neg (by simp)]
        exact List.Perm.refl _
    · exact List.Perm.refl _
  | push =>
    simp only [received, handled, step]
    split
    · next payload hexited hlistener =>
      rw [State.openForwards, State.openForwards, hlistener]
      simp only [Listener.held, List.nil_append]
      rw [List.append_assoc, ← List.append_assoc s.startup.rest]
      exact List.perm_append_comm
    · exact List.Perm.refl _
  | store =>
    simp only [received, handled, step]
    split
    · next hstartup =>
      rw [State.openForwards, State.openForwards, hstartup]
      exact List.Perm.refl _
    · exact List.Perm.refl _
  | take =>
    simp only [received, handled, step]
    split
    · next hstartup =>
      rw [State.openForwards, State.openForwards, hstartup]
      simp only [Startup.rest, List.nil_append, List.append_nil]
      exact List.Perm.refl _
    · exact List.Perm.refl _
  | replay =>
    simp only [received, handled, step]
    split
    · next payload rest hexited hstartup =>
      have hmoved : (s.listener.held ++ payload :: rest ++ s.pendingForwards).Perm
          ([payload] ++ (s.listener.held ++ rest ++ s.pendingForwards)) := by
        rw [List.append_assoc, List.append_assoc]
        exact List.perm_middle
      cases houtcome : handleForwardedArgs primary s.ready payload with
      | exit =>
        rw [State.openForwards, State.openForwards, hstartup, if_neg (by simp)]
        exact hmoved
      | queue =>
        rw [State.openForwards, State.openForwards, hstartup, if_pos rfl]
        have hqueued : ([payload] ++ (s.listener.held ++ rest ++ s.pendingForwards)).Perm
            (s.listener.held ++ rest ++ (s.pendingForwards ++ [payload])) := by
          rw [← List.append_assoc (s.listener.held ++ rest)]
          exact List.perm_append_comm
        exact hmoved.trans hqueued
      | handled shown work =>
        rw [State.openForwards, State.openForwards, hstartup, if_neg (by simp)]
        exact hmoved
    · exact List.Perm.refl _

/-- From any state, what is received and what was open is handled or open. -/
theorem run_conserves (s : State) (acts : List Action) :
    (Machine.outputs (step primary) received s acts ++ s.openForwards).Perm
      (Machine.outputs (step primary) (handled primary) s acts ++
        (Machine.run (step primary) s acts).openForwards) := by
  induction acts generalizing s with
  | nil => exact List.Perm.refl _
  | cons a acts ih =>
    have hhead := @step_conserves primary s a
    have htail := ih (step primary s a)
    simp only [Machine.outputs, Machine.run_cons]
    generalize Machine.outputs (step primary) received (step primary s a) acts = later at htail ⊢
    have hmoved : (received s a ++ later ++ s.openForwards).Perm
        (later ++ (received s a ++ s.openForwards)) := by
      rw [← List.append_assoc]
      exact List.perm_append_comm.append_right _
    have hback : (later ++ (handled primary s a ++ (step primary s a).openForwards)).Perm
        (handled primary s a ++ (later ++ (step primary s a).openForwards)) := by
      rw [← List.append_assoc, ← List.append_assoc]
      exact List.perm_append_comm.append_right _
    apply (hmoved.trans (hhead.append_left later)).trans
    apply hback.trans
    rw [List.append_assoc]
    exact htail.append_left _

/-- The start has taken what was pending, once and for all. -/
structure Drained (s : State) : Prop where
  ready : s.ready = true
  startup : ∃ rest, s.startup = .replaying rest

/-- After that, what the listener had found too early stays behind, and nothing else. -/
theorem step_drained {s : State} (hs : Drained s) (a : Action) : Drained (step primary s a) ∧
    (step primary s a).pendingForwards ++ (step primary s a).listener.late =
      s.pendingForwards ++ s.listener.late := by
  obtain ⟨hready, rest, hrest⟩ := hs
  cases a with
  | receive payload =>
    simp only [step]
    split
    · next hlistener =>
      rw [hlistener]
      exact ⟨⟨hready, rest, hrest⟩, rfl⟩
    · exact ⟨⟨hready, rest, hrest⟩, rfl⟩
  | check =>
    simp only [step]
    split
    · next payload hexited hlistener =>
      have hnow := @not_queue_of_ready primary payload
      rw [hready, hlistener]
      cases houtcome : handleForwardedArgs primary true payload with
      | queue => exact absurd houtcome hnow
      | exit => exact ⟨⟨rfl, rest, hrest⟩, rfl⟩
      | handled shown work => exact ⟨⟨rfl, rest, hrest⟩, rfl⟩
    · exact ⟨⟨hready, rest, hrest⟩, rfl⟩
  | push =>
    simp only [step]
    split
    · next payload hexited hlistener =>
      rw [hlistener]
      exact ⟨⟨hready, rest, hrest⟩, List.append_nil _⟩
    · exact ⟨⟨hready, rest, hrest⟩, rfl⟩
  | store =>
    simp only [step, hrest]
    split
    · next hbefore => cases hbefore
    · exact ⟨⟨hready, rest, hrest⟩, rfl⟩
  | take =>
    simp only [step, hrest]
    split
    · next hstored => cases hstored
    · exact ⟨⟨hready, rest, hrest⟩, rfl⟩
  | replay =>
    simp only [step]
    split
    · next payload rest' hexited hstartup =>
      have hnow := @not_queue_of_ready primary payload
      rw [hready]
      cases houtcome : handleForwardedArgs primary true payload with
      | queue => exact absurd houtcome hnow
      | exit => exact ⟨⟨rfl, rest', rfl⟩, rfl⟩
      | handled shown work => exact ⟨⟨rfl, rest', rfl⟩, rfl⟩
    · exact ⟨⟨hready, rest, hrest⟩, rfl⟩

theorem run_drained {s : State} (hs : Drained s) (acts : List Action) :
    (Machine.run (step primary) s acts).pendingForwards ++
      (Machine.run (step primary) s acts).listener.late = s.pendingForwards ++ s.listener.late := by
  induction acts generalizing s with
  | nil => rfl
  | cons a acts ih =>
    obtain ⟨hnext, hlate⟩ := @step_drained primary s hs a
    rw [Machine.run_cons, ih hnext, hlate]

/-- What becomes of the forwarded payloads in a run. -/
structure Delivered (primary : Primary) (acts : List Action) : Prop where
  /-- Each is handled as often as it was received, or it is still to be dealt with. -/
  conserved : (Machine.outputs (step primary) received .start acts).Perm
    (Machine.outputs (step primary) (handled primary) .start acts ++
      (Machine.run (step primary) .start acts).openForwards)
  /-- After the drain the one payload stays behind that the listener had found too early and had not
  put aside. -/
  left : ∀ xs ys, acts = xs ++ .take :: ys →
    (Machine.run (step primary) .start xs).startup = .stored →
    (Machine.run (step primary) .start xs).exited = false →
    (Machine.run (step primary) .start acts).pendingForwards ++
      (Machine.run (step primary) .start acts).listener.late =
        (Machine.run (step primary) .start xs).listener.late

/-- In every interleaving of the listener and the start a forwarded payload is handled once, unless the
listener looks before the store and puts it aside after the drain: then it is never handled. -/
theorem forwards_delivered (primary : Primary) (acts : List Action) : Delivered primary acts where
  conserved := by
    have hall := @run_conserves primary .start acts
    rwa [show State.start.openForwards = [] from rfl, List.append_nil] at hall
  left := by
    intro xs ys hacts hstored hrunning
    have hstart : Coherent State.start := fun _ => rfl
    have hcoherent : Coherent (Machine.run (step primary) .start xs) :=
      Machine.run_invariant (I := Coherent) (P := fun _ _ => True)
        (fun _ a hs _ => step_coherent hs a) hstart (Machine.Throughout.of_forall (fun _ _ => trivial) _ xs)
    rw [hacts, Machine.run_append, Machine.run_cons]
    generalize Machine.run (step primary) .start xs = s at hstored hrunning hcoherent ⊢
    have hready : s.ready = true := by
      cases hready : s.ready with
      | true => rfl
      | false =>
        rw [hcoherent hready] at hstored
        cases hstored
    have htaken : step primary s .take =
        { s with pendingForwards := [], startup := .replaying s.pendingForwards } := by
      simp only [step, hrunning, hstored]
    have hdrained : Drained (step primary s .take) := by
      rw [htaken]
      exact ⟨hready, s.pendingForwards, rfl⟩
    rw [run_drained hdrained, htaken]
    rfl

end Delivery

end SessionInstance
