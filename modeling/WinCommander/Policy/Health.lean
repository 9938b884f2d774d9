import Mathlib
import WinCommander.Library.MachineInt
import WinCommander.Policy.Store

/-!
# Reported health of the policy store

The service reports, for each subtree, whether its rules are compiled.  A failed attempt lowers
the flag and touches nothing else.  The flag is raised again by an install that stores an epoch,
but not by a redelivery of the stored content, and while content rules are present the clipboard
report is theirs.
-/

namespace PolicyStore

open FleetProto Outcome

structure SubtreeHealth where
  policyCurrent : Bool
  rulesCompiled : Bool
  lastAttemptUnix : Option Int64
  deriving DecidableEq

structure PolicyStoreHealth where
  clipboard : SubtreeHealth
  inkReceipt : SubtreeHealth

section Subtree

variable {Key : Type} {host : Host Key} {C : SubtreeCompiler}

def ManagedSubtree.health (m : ManagedSubtree C) : SubtreeHealth where
  policyCurrent := m.compiled.isSome
  rulesCompiled := m.rulesCompiled
  lastAttemptUnix := m.lastAttemptUnix

/-- The last attempt failed although an epoch is installed. -/
def ManagedSubtree.Lagging (m : ManagedSubtree C) : Prop :=
  m.version ≠ none ∧ m.rulesCompiled = false

/-- What was written is read back as it was. -/
def EpochCodec.Exact (codec : EpochCodec) : Prop :=
  ∀ input bytes, codec.toVec input = some bytes → codec.fromSlice bytes = some input

variable (host)

/-- The compiled rules are those of the epoch in the file. -/
def Slot.Corresponds (slot : Slot C) : Prop :=
  ∃ bytes input pair, slot.file = some bytes ∧ host.codec.fromSlice bytes = some input ∧
    verifyAndCompile host C none input = .ok pair ∧ slot.memory.compiled = some pair.2

/-- The install would store the epoch: its version is higher and every check passes. -/
def Slot.Accepts (slot : Slot C) (input : EpochInstallInput) (faults : InstallFaults) : Prop :=
  (∀ v, slot.memory.version = some v → v < input.version) ∧
    (persist host C input faults).toBool = true

/-- Memory and file agree: a version in memory comes with the compiled rules of the file, and
without a version there are none. -/
structure Slot.Settled (slot : Slot C) : Prop where
  installed : slot.memory.version ≠ none → slot.Corresponds host
  empty : slot.memory.version = none →
    slot.memory.compiled = none ∧ slot.memory.rulesCompiled = false

variable {host}

/-- Everything but the health flags is as it was. -/
structure Slot.Unchanged (slot slot' : Slot C) : Prop where
  input : slot'.memory.input = slot.memory.input
  version : slot'.memory.version = slot.memory.version
  raw : slot'.memory.raw = slot.memory.raw
  compiled : slot'.memory.compiled = slot.memory.compiled
  file : slot'.file = slot.file

theorem Slot.unchanged_refl (slot : Slot C) : slot.Unchanged slot := ⟨rfl, rfl, rfl, rfl, rfl⟩

theorem Slot.unchanged_fail (slot : Slot C) (now : Int64) :
    slot.Unchanged { slot with memory := slot.memory.fail now } := ⟨rfl, rfl, rfl, rfl, rfl⟩

theorem ManagedSubtree.not_lagging_swap (input : EpochInstallInput) (pair : C.Raw × C.Compiled)
    (lastAttemptUnix : Option Int64) :
    ¬ (ManagedSubtree.swap input pair lastAttemptUnix : ManagedSubtree C).Lagging := by
  intro h
  exact absurd h.2 (by simp [ManagedSubtree.swap])

/-- A compilation that passes met no fault. -/
private theorem verifyAndCompile_none {fault : Option (List String)} {input : EpochInstallInput}
    {pair : C.Raw × C.Compiled} (h : verifyAndCompile host C fault input = .ok pair) :
    verifyAndCompile host C none input = .ok pair := by
  cases fault with
  | none => exact h
  | some errors =>
    simp only [verifyAndCompile, bind_ok, SubtreeCompiler.compileUnder] at h
    obtain ⟨_, _, _, _, _, hcompiled, _⟩ := h
    exact absurd hcompiled (by simp)

private theorem persist_ok {input : EpochInstallInput} {faults : InstallFaults}
    {pair : C.Raw × C.Compiled} {bytes : List UInt8}
    (h : persist host C input faults = .ok (pair, bytes)) :
    verifyAndCompile host C none input = .ok pair ∧ host.codec.toVec input = some bytes := by
  simp only [persist, bind_ok, okOr_ok, pure_ok, Prod.mk.injEq] at h
  obtain ⟨pair', hcompiled, bytes', hbytes, _, _, rfl, rfl⟩ := h
  exact ⟨verifyAndCompile_none hcompiled, hbytes⟩

private theorem persist_of_compiled {input : EpochInstallInput} {pair : C.Raw × C.Compiled}
    {bytes : List UInt8} (hcompiled : verifyAndCompile host C none input = .ok pair)
    (hbytes : host.codec.toVec input = some bytes) :
    persist host C input ⟨none, none⟩ = .ok (pair, bytes) := by
  apply bind_ok.mpr
  refine ⟨pair, hcompiled, bind_ok.mpr ⟨bytes, okOr_ok.mpr hbytes, ?_⟩⟩
  exact bind_ok.mpr ⟨(), rfl, rfl⟩

theorem Slot.Settled.corresponds_iff {slot : Slot C} (h : slot.Settled host) :
    slot.Corresponds host ↔ slot.memory.version ≠ none := by
  constructor
  · intro hcorresponds hversion
    obtain ⟨bytes, input, pair, _, _, _, hcompiled⟩ := hcorresponds
    rw [(h.empty hversion).1] at hcompiled
    exact absurd hcompiled (by simp)
  · exact h.installed

/-- The flag tells the truth unless the subtree lags. -/
theorem Slot.Settled.flag_iff {slot : Slot C} (h : slot.Settled host) :
    (slot.memory.rulesCompiled = true ↔ slot.Corresponds host) ↔ ¬ slot.memory.Lagging := by
  rw [h.corresponds_iff, ManagedSubtree.Lagging]
  by_cases hversion : slot.memory.version = none
  · simp [hversion, (h.empty hversion).2]
  · simp [hversion]

theorem Slot.settled_new (file : Option (List UInt8)) :
    Slot.Settled host { memory := (ManagedSubtree.new : ManagedSubtree C), file := file } where
  installed h := absurd rfl h
  empty _ := ⟨rfl, rfl⟩

theorem Slot.settled_swap {input : EpochInstallInput} {pair : C.Raw × C.Compiled}
    {bytes : List UInt8} (hread : host.codec.fromSlice bytes = some input)
    (hcompiled : verifyAndCompile host C none input = .ok pair) (lastAttemptUnix : Option Int64) :
    Slot.Settled host
      { memory := ManagedSubtree.swap input pair lastAttemptUnix, file := some bytes } where
  installed _ := ⟨bytes, input, pair, rfl, hread, hcompiled, rfl⟩
  empty h := absurd h (by simp [ManagedSubtree.swap])

theorem Slot.Settled.fail {slot : Slot C} (h : slot.Settled host) (now : Int64) :
    Slot.Settled host { slot with memory := slot.memory.fail now } where
  installed := h.installed
  empty hversion := ⟨(h.empty hversion).1, rfl⟩

theorem Slot.Settled.install (hexact : host.codec.Exact) {slot : Slot C} (h : slot.Settled host)
    (input : EpochInstallInput) (now : Int64) (faults : InstallFaults) :
    (slot.install host input now faults).1.Settled host := by
  rcases slot.install_cases host input now faults with ⟨e, heq⟩ | ⟨pair, bytes, _, hpersist, heq⟩
  · rw [heq]
    exact h.fail now
  · have hstored := persist_ok hpersist
    rw [heq]
    exact Slot.settled_swap (hexact input bytes hstored.2) hstored.1 (some now)

/-- A new process starts settled, whatever its load meets. -/
theorem Slot.settled_restart (slot : Slot C) (faults : LoadFaults) :
    (slot.restart host faults).1.Settled host := by
  unfold Slot.restart Slot.loadAtStartup
  cases hread : Slot.read { slot with memory := ManagedSubtree.new : Slot C } faults.read with
  | error kind => exact Slot.settled_new slot.file
  | ok bytes =>
    have hfile : slot.file = some bytes := by
      unfold Slot.read at hread
      split at hread
      · simp at hread
      · exact okOr_ok.mp hread
    dsimp only
    cases hinput : host.codec.fromSlice bytes with
    | none => exact Slot.settled_new slot.file
    | some input =>
      dsimp only
      cases hcompiled : verifyAndCompile host C faults.compile input with
      | error e => exact Slot.settled_new slot.file
      | ok pair =>
        show Slot.Settled host { memory := ManagedSubtree.swap input pair none, file := slot.file }
        rw [hfile]
        exact Slot.settled_swap hinput (verifyAndCompile_none hcompiled) none

theorem Slot.install_of_accepts {slot : Slot C} {input : EpochInstallInput}
    {faults : InstallFaults} (h : slot.Accepts host input faults) (now : Int64) :
    ∃ pair bytes, slot.install host input now faults =
      ({ memory := ManagedSubtree.swap input pair (some now), file := some bytes }, .ok ()) := by
  have hguard : versionGuard slot.memory.version input.version = .ok () := versionGuard_ok.mpr h.1
  cases hpersist : persist host C input faults with
  | error e =>
    have hpassed := h.2
    rw [hpersist] at hpassed
    exact absurd hpassed (by simp [Except.toBool])
  | ok result =>
    refine ⟨result.1, result.2, ?_⟩
    unfold Slot.install
    rw [hguard, hpersist]
    rfl

theorem Slot.accepts_of_install_ok {slot : Slot C} {input : EpochInstallInput} {now : Int64}
    {faults : InstallFaults} (h : (slot.install host input now faults).2 = .ok ()) :
    slot.Accepts host input faults := by
  rcases slot.install_cases host input now faults with ⟨e, heq⟩ | ⟨pair, bytes, hguard, hpersist, _⟩
  · rw [heq] at h
    exact absurd h (by simp)
  · refine ⟨hguard, ?_⟩
    rw [hpersist]
    rfl

theorem Slot.unchanged_of_install_error {slot : Slot C} {input : EpochInstallInput} {now : Int64}
    {faults : InstallFaults} {e : PolicyStoreError}
    (h : (slot.install host input now faults).2 = .error e) :
    slot.Unchanged (slot.install host input now faults).1 := by
  rcases slot.install_cases host input now faults with ⟨e', heq⟩ | ⟨pair, bytes, _, _, heq⟩
  · rw [heq]
    exact slot.unchanged_fail now
  · rw [heq] at h
    exact absurd h (by simp)

end Subtree

section Store

variable {Key : Type} {clipRules : ClipRules}

/-- While content rules were installed or attempted, the clipboard report is theirs. -/
def clipboardHealth (store : Store clipRules) : SubtreeHealth :=
  if (store .contentRules).memory.version.isSome ||
      (store .contentRules).memory.lastAttemptUnix.isSome then
    (store .contentRules).memory.health
  else (store .clipboardGuard).memory.health

def inkReceiptHealth (store : Store clipRules) : SubtreeHealth := (store .inkReceipt).memory.health

def health (store : Store clipRules) : PolicyStoreHealth where
  clipboard := clipboardHealth store
  inkReceipt := inkReceiptHealth store

/-- The report that covers a subtree. -/
def PolicyStoreHealth.report (h : PolicyStoreHealth) : Subtree → SubtreeHealth
  | .clipboardGuard | .contentRules => h.clipboard
  | .inkReceipt => h.inkReceipt

/-- The subtree whose state that report shows. -/
def reported (store : Store clipRules) : Subtree → Subtree
  | .clipboardGuard | .contentRules =>
    if (store .contentRules).memory.version.isSome ||
        (store .contentRules).memory.lastAttemptUnix.isSome then .contentRules
    else .clipboardGuard
  | .inkReceipt => .inkReceipt

theorem report_eq (store : Store clipRules) (t : Subtree) :
    (health store).report t = (store (reported store t)).memory.health := by
  have hclipboard : clipboardHealth store =
      (store (reported store .clipboardGuard)).memory.health := by
    by_cases hpresent : ((store .contentRules).memory.version.isSome ||
        (store .contentRules).memory.lastAttemptUnix.isSome) = true
    · have hreported : reported store .clipboardGuard = .contentRules := if_pos hpresent
      rw [hreported, clipboardHealth, if_pos hpresent]
    · have hreported : reported store .clipboardGuard = .clipboardGuard := if_neg hpresent
      rw [hreported, clipboardHealth, if_neg hpresent]
  cases t with
  | clipboardGuard => exact hclipboard
  | contentRules => exact hclipboard
  | inkReceipt => rfl

variable (host : Host Key)

/-- A subtree is reported as compiled exactly when the rules in use are those of its file. -/
def Faithful (store : Store clipRules) (t : Subtree) : Prop :=
  ((health store).report t).rulesCompiled = true ↔
    (store (reported store t)).Corresponds host

/-- Over a run, every accepted install leaves a faithful report and every refused one leaves the
policy of every subtree as it was. -/
structure HealthFaithful (store : Store clipRules) (calls : List StoreCall) : Prop where
  accepted : ∀ xs target input now faults ys,
    calls = xs ++ .install target input now faults :: ys →
      (installEpoch host target (Machine.run (storeStep host) store xs target) input now
          faults).2 = .ok () →
        Faithful host
          (Machine.run (storeStep host) store (xs ++ [.install target input now faults])) target
  refused : ∀ xs target input now faults ys e,
    calls = xs ++ .install target input now faults :: ys →
      (installEpoch host target (Machine.run (storeStep host) store xs target) input now
          faults).2 = .error e →
        ∀ t, (Machine.run (storeStep host) store xs t).Unchanged
          (Machine.run (storeStep host) store (xs ++ [.install target input now faults]) t)

/-- The epoch has the version and the content that are installed already. -/
def Repeats : (t : Subtree) → Slot (compiler clipRules t) → EpochInstallInput → Prop
  | .contentRules, slot, input =>
    slot.memory.version = some input.version ∧
      ∃ offered, offeredContent host clipRules input = .ok offered ∧ slot.memory.raw = some offered
  | _, _, _ => False

/-- While the content rules lag, no call repeats them and no call installs clipboard rules. -/
def ContentNotLagging (store : Store clipRules) : StoreCall → Prop
  | .install target input _ faults =>
    (store .contentRules).memory.Lagging →
      ¬ Repeats host target (store target) input ∧
        ¬ (target = .clipboardGuard ∧ (store target).Accepts host input faults)
  | .restart _ => True

variable {host}

theorem installEpoch_of_repeats {t : Subtree} {slot : Slot (compiler clipRules t)}
    {input : EpochInstallInput} (h : Repeats host t slot input) (now : Int64)
    (faults : InstallFaults) : installEpoch host t slot input now faults = (slot, .ok ()) := by
  cases t with
  | clipboardGuard => exact h.elim
  | inkReceipt => exact h.elim
  | contentRules =>
    obtain ⟨hversion, offered, hoffered, hraw⟩ := h
    show installContentEpoch host slot input now faults = _
    unfold installContentEpoch
    rw [if_pos hversion, hoffered]
    exact if_pos hraw

/-- Without a repetition a call either installs or fails before the install is tried. -/
theorem installEpoch_of_not_repeats {t : Subtree} {slot : Slot (compiler clipRules t)}
    {input : EpochInstallInput} (h : ¬ Repeats host t slot input) (now : Int64)
    (faults : InstallFaults) :
    installEpoch host t slot input now faults = slot.install host input now faults ∨
      ∃ e, installEpoch host t slot input now faults = (slot, .error e) := by
  cases t with
  | clipboardGuard => exact Or.inl rfl
  | inkReceipt => exact Or.inl rfl
  | contentRules =>
    show installContentEpoch host slot input now faults = _ ∨
      ∃ e, installContentEpoch host slot input now faults = _
    unfold installContentEpoch
    by_cases hversion : slot.memory.version = some input.version
    · rw [if_pos hversion]
      cases hoffered : offeredContent host clipRules input with
      | error e => exact Or.inr ⟨e, rfl⟩
      | ok offered =>
        have hraw : slot.memory.raw ≠ some offered := fun hraw =>
          h ⟨hversion, offered, hoffered, hraw⟩
        exact Or.inl (if_neg hraw)
    · exact Or.inl (if_neg hversion)

theorem not_repeats_of_accepts {t : Subtree} {slot : Slot (compiler clipRules t)}
    {input : EpochInstallInput} {faults : InstallFaults} (h : slot.Accepts host input faults) :
    ¬ Repeats host t slot input := by
  intro hrepeats
  cases t with
  | clipboardGuard => exact hrepeats
  | inkReceipt => exact hrepeats
  | contentRules => exact absurd (h.1 _ hrepeats.1) (lt_irrefl _)

theorem installEpoch_of_accepts {t : Subtree} {slot : Slot (compiler clipRules t)}
    {input : EpochInstallInput} {faults : InstallFaults} (h : slot.Accepts host input faults)
    (now : Int64) :
    ∃ pair bytes, installEpoch host t slot input now faults =
      ({ memory := ManagedSubtree.swap input pair (some now), file := some bytes }, .ok ()) := by
  have hinstall : installEpoch host t slot input now faults =
      slot.install host input now faults := by
    cases t with
    | clipboardGuard => rfl
    | inkReceipt => rfl
    | contentRules => exact if_neg fun hversion => absurd (h.1 _ hversion) (lt_irrefl _)
  rw [hinstall]
  exact Slot.install_of_accepts h now

/-- A call is accepted as a repetition or as an install. -/
theorem repeats_or_accepts {t : Subtree} {slot : Slot (compiler clipRules t)}
    {input : EpochInstallInput} {now : Int64} {faults : InstallFaults}
    (h : (installEpoch host t slot input now faults).2 = .ok ()) :
    Repeats host t slot input ∨ slot.Accepts host input faults := by
  by_cases hrepeats : Repeats host t slot input
  · exact Or.inl hrepeats
  · rcases installEpoch_of_not_repeats hrepeats now faults with heq | ⟨e, heq⟩
    · rw [heq] at h
      exact Or.inr (Slot.accepts_of_install_ok h)
    · rw [heq] at h
      exact absurd h (by simp)

theorem unchanged_of_installEpoch_error {t : Subtree} {slot : Slot (compiler clipRules t)}
    {input : EpochInstallInput} {now : Int64} {faults : InstallFaults} {e : PolicyStoreError}
    (h : (installEpoch host t slot input now faults).2 = .error e) :
    slot.Unchanged (installEpoch host t slot input now faults).1 := by
  rcases installEpoch_cases t slot input now faults with heq | heq
  · rw [heq] at h ⊢
    exact Slot.unchanged_of_install_error h
  · rw [heq]
    exact slot.unchanged_refl

theorem unchanged_storeStep_of_error {store : Store clipRules} {target : Subtree}
    {input : EpochInstallInput} {now : Int64} {faults : InstallFaults} {e : PolicyStoreError}
    (h : (installEpoch host target (store target) input now faults).2 = .error e) (t : Subtree) :
    (store t).Unchanged (storeStep host store (.install target input now faults) t) := by
  by_cases ht : t = target
  · subst ht
    rw [storeStep, Function.update_self]
    exact unchanged_of_installEpoch_error h
  · rw [storeStep, Function.update_of_ne ht]
    exact (store t).unchanged_refl

theorem settled_storeStep (hexact : host.codec.Exact) {store : Store clipRules}
    (h : ∀ t, (store t).Settled host) (call : StoreCall) (t : Subtree) :
    (storeStep host store call t).Settled host := by
  cases call with
  | restart faults => exact (store t).settled_restart (faults t)
  | install target input now faults =>
    by_cases ht : t = target
    · subst ht
      rw [storeStep, Function.update_self]
      rcases installEpoch_cases t (store t) input now faults with heq | heq
      · rw [heq]
        exact (h t).install hexact input now faults
      · rw [heq]
        exact h t
    · rw [storeStep, Function.update_of_ne ht]
      exact h t

theorem settled_run (hexact : host.codec.Exact) (files : Subtree → Option (List UInt8))
    (calls : List StoreCall) :
    ∀ t, (Machine.run (storeStep host) (opened clipRules files) calls t).Settled host :=
  Machine.run_invariant (I := fun store : Store clipRules => ∀ t, (store t).Settled host)
    (P := fun _ _ => True) (fun _ call h _ => settled_storeStep hexact h call)
    (fun t => Slot.settled_new (files t)) (Machine.Throughout.of_forall (fun _ _ => trivial) _ calls)

theorem faithful_iff {store : Store clipRules} (h : ∀ t, (store t).Settled host) (t : Subtree) :
    Faithful host store t ↔ ¬ (store (reported store t)).memory.Lagging := by
  rw [Faithful, report_eq]
  exact (h (reported store t)).flag_iff

private theorem reported_content {store : Store clipRules}
    (h : (store .contentRules).memory.version ≠ none) :
    reported store .contentRules = .contentRules := by
  have hsome : (store .contentRules).memory.version.isSome = true := Option.isSome_iff_ne_none.mpr h
  simp [reported, hsome]

/-- After a repetition the report still lags if it did. -/
private theorem lagging_of_repeats {store : Store clipRules} {target : Subtree}
    {input : EpochInstallInput} {now : Int64} {faults : InstallFaults}
    (h : Repeats host target (store target) input) :
    (storeStep host store (.install target input now faults) (reported
        (storeStep host store (.install target input now faults)) target)).memory.Lagging ↔
      (store .contentRules).memory.Lagging := by
  have hstore : storeStep host store (.install target input now faults) = store := by
    rw [storeStep, installEpoch_of_repeats h]
    exact Function.update_eq_self target store
  rw [hstore]
  cases target with
  | clipboardGuard => exact h.elim
  | inkReceipt => exact h.elim
  | contentRules =>
    have hversion : (store .contentRules).memory.version ≠ none := by
      rw [h.1]
      simp
    rw [reported_content hversion]

/-- After an install the report lags only as that of clipboard rules, when content rules lag. -/
private theorem lagging_of_accepts {store : Store clipRules} {target : Subtree}
    {input : EpochInstallInput} {now : Int64} {faults : InstallFaults}
    (h : (store target).Accepts host input faults) :
    (storeStep host store (.install target input now faults) (reported
        (storeStep host store (.install target input now faults)) target)).memory.Lagging ↔
      target = .clipboardGuard ∧ (store .contentRules).memory.Lagging := by
  obtain ⟨pair, bytes, heq⟩ := installEpoch_of_accepts h now
  have hself : storeStep host store (.install target input now faults) target =
      { memory := ManagedSubtree.swap input pair (some now), file := some bytes } := by
    rw [storeStep, Function.update_self, heq]
  have hswapped : ¬ (storeStep host store (.install target input now faults)
      target).memory.Lagging := by
    rw [hself]
    exact ManagedSubtree.not_lagging_swap input pair (some now)
  cases target with
  | inkReceipt => exact iff_of_false hswapped (by simp)
  | contentRules =>
    have hversion : (storeStep host store (.install .contentRules input now faults)
        .contentRules).memory.version ≠ none := by
      rw [hself]
      simp [ManagedSubtree.swap]
    rw [reported_content hversion]
    exact iff_of_false hswapped (by simp)
  | clipboardGuard =>
    have hcontent : storeStep host store (.install .clipboardGuard input now faults) .contentRules =
        store .contentRules := by
      rw [storeStep]
      exact Function.update_of_ne (by decide) _ _
    by_cases hpresent : ((store .contentRules).memory.version.isSome ||
        (store .contentRules).memory.lastAttemptUnix.isSome) = true
    · have hreported : reported (storeStep host store (.install .clipboardGuard input now faults))
          .clipboardGuard = .contentRules := by
        unfold reported
        rw [hcontent, if_pos hpresent]
      rw [hreported, hcontent]
      simp
    · have hreported : reported (storeStep host store (.install .clipboardGuard input now faults))
          .clipboardGuard = .clipboardGuard := by
        unfold reported
        rw [hcontent, if_neg hpresent]
      rw [hreported]
      refine iff_of_false hswapped fun hlagging => hlagging.2.1 ?_
      simp only [Bool.or_eq_true, not_or, Bool.not_eq_true, Option.isSome_eq_false_iff,
        Option.isNone_iff_eq_none] at hpresent
      exact hpresent.1

/-- An accepted call leaves a faithful report exactly when it meets the condition. -/
private theorem faithful_storeStep_iff (hexact : host.codec.Exact) {store : Store clipRules}
    (h : ∀ t, (store t).Settled host) {target : Subtree} {input : EpochInstallInput} {now : Int64}
    {faults : InstallFaults}
    (hok : Repeats host target (store target) input ∨ (store target).Accepts host input faults) :
    Faithful host (storeStep host store (.install target input now faults)) target ↔
      ContentNotLagging host store (.install target input now faults) := by
  rw [faithful_iff (settled_storeStep hexact h _)]
  show _ ↔ (_ → ¬ _ ∧ ¬ (_ ∧ _))
  rcases hok with hrepeats | haccepts
  · rw [lagging_of_repeats hrepeats]
    constructor
    · intro hnot hlagging
      exact absurd hlagging hnot
    · intro hcondition hlagging
      exact (hcondition hlagging).1 hrepeats
  · rw [lagging_of_accepts haccepts]
    constructor
    · intro hnot hlagging
      exact ⟨not_repeats_of_accepts haccepts, fun hclipboard => hnot ⟨hclipboard.1, hlagging⟩⟩
    · intro hcondition hlagging
      exact (hcondition hlagging.2).2 ⟨hlagging.1, haccepts⟩

/-- A call that is not accepted meets the condition. -/
private theorem contentNotLagging_of_refused {store : Store clipRules} {target : Subtree}
    {input : EpochInstallInput} {now : Int64} {faults : InstallFaults}
    (hrefused : ¬ (Repeats host target (store target) input ∨
      (store target).Accepts host input faults)) :
    ContentNotLagging host store (.install target input now faults) := by
  intro _
  exact ⟨fun h => hrefused (Or.inl h), fun h => hrefused (Or.inr h.2)⟩

private theorem installEpoch_ok_of {t : Subtree} {slot : Slot (compiler clipRules t)}
    {input : EpochInstallInput} {faults : InstallFaults}
    (h : Repeats host t slot input ∨ slot.Accepts host input faults) (now : Int64) :
    (installEpoch host t slot input now faults).2 = .ok () := by
  rcases h with hrepeats | haccepts
  · rw [installEpoch_of_repeats hrepeats]
  · obtain ⟨pair, bytes, heq⟩ := installEpoch_of_accepts haccepts now
    rw [heq]

private theorem contentNotLagging_of_healthFaithful (hexact : host.codec.Exact)
    {files : Subtree → Option (List UInt8)} {calls : List StoreCall}
    (h : HealthFaithful host (opened clipRules files) calls) :
    Machine.Throughout (storeStep host) (ContentNotLagging host) (opened clipRules files) calls := by
  apply (Machine.throughout_iff _ _).mpr
  intro xs call ys hcalls
  cases call with
  | restart faults => trivial
  | install target input now faults =>
    by_cases hok : Repeats host target (Machine.run (storeStep host) (opened clipRules files) xs
        target) input ∨ (Machine.run (storeStep host) (opened clipRules files) xs target).Accepts
          host input faults
    · have hfaithful := h.accepted xs target input now faults ys hcalls (installEpoch_ok_of hok now)
      rw [Machine.run_append] at hfaithful
      exact (faithful_storeStep_iff hexact (settled_run hexact files xs) hok).mp hfaithful
    · exact contentNotLagging_of_refused hok

private theorem healthFaithful_of_contentNotLagging (hexact : host.codec.Exact)
    {files : Subtree → Option (List UInt8)} {calls : List StoreCall}
    (h : Machine.Throughout (storeStep host) (ContentNotLagging host) (opened clipRules files)
      calls) : HealthFaithful host (opened clipRules files) calls where
  accepted := by
    intro xs target input now faults ys hcalls hok
    have hcondition := (Machine.throughout_iff _ _).mp h xs _ ys hcalls
    rw [Machine.run_append]
    apply (faithful_storeStep_iff hexact (settled_run hexact files xs) (repeats_or_accepts hok)).mpr
    exact hcondition
  refused := by
    intro xs target input now faults ys e _ herror t
    rw [Machine.run_append]
    exact unchanged_storeStep_of_error herror t

end Store

section Redelivery

open FleetProto.Recorded Json

private def contentSignature : List UInt8 :=
  [174, 107, 15, 196, 233, 99, 62, 110, 113, 101, 136, 21, 219, 101, 26, 72, 216, 227, 25, 162, 15,
    232, 206, 20, 227, 109, 155, 127, 92, 50, 230, 98, 140, 65, 74, 143, 28, 123, 246, 204, 238,
    154, 118, 226, 173, 82, 2, 212, 217, 174, 147, 65, 130, 13, 45, 228, 231, 100, 168, 250, 6, 181,
    105, 10]

private def contentSubtree : Value := .object [
  ("enabled", .bool false), ("revision", intValue 0), ("rules", .array []),
  ("schemaVersion", intValue 1), ("tuning", .object [])]

private def contentConfig : Document where
  value := .object [("contentRules", contentSubtree)]
  uniqueKeys := by
    refine .object (by simp) fun m hm => ?_
    rw [List.mem_singleton.mp hm]
    refine .object (by decide) fun m hm => ?_
    simp only [List.mem_cons, List.not_mem_nil, or_false] at hm
    rcases hm with rfl | rfl | rfl | rfl | rfl
    · exact .bool false
    · exact .number _
    · exact .array (by simp)
    · exact .number _
    · exact .object (by simp) (by simp)

/-- Version 5 of the content rules, switched off, as the fleet server signs it. -/
private def content : EpochInstallInput where
  version := 5
  config := contentConfig
  lockedPaths := []
  managed := true
  targetKind := "org"
  targetId := none
  signatureB64 :=
    "rmsPxOljPm5xZYgV22UaSNjjGaIP6M4U422bf1wy5mKMQUqPHHv2zO6aduKtUgLU2a6TQYINLeTnZKj6BrVpCg=="
  signerKeyB64 := serverKeyB64

private def contentBytes : List UInt8 :=
  utf8 ("\x7b\"version\":5,\"config\":\x7b\"contentRules\":\x7b\"enabled\":false,\"revision\":0," ++
    "\"rules\":[],\"schemaVersion\":1,\"tuning\":\x7b\x7d\x7d\x7d,\"locked_paths\":[]," ++
    "\"managed\":true,\"target_kind\":\"org\",\"target_id\":null,\"signature_b64\":\"" ++
    content.signatureB64 ++ "\",\"signer_key_b64\":\"" ++ serverKeyB64 ++ "\"\x7d").toList

/-- The format of that one file. -/
private def contentCodec : EpochCodec where
  toVec input := if input = content then some contentBytes else none
  fromSlice bytes := if bytes = contentBytes then some content else none
  version_fromSlice := by
    intro input bytes h
    split at h
    · next hinput =>
      rw [← Option.some.inj h, if_pos rfl, hinput]
      rfl
    · exact absurd h (by simp)

private theorem contentCodec_exact : contentCodec.Exact := by
  intro input bytes h
  unfold contentCodec at h ⊢
  dsimp only at h ⊢
  split at h
  · next hinput => rw [← Option.some.inj h, if_pos rfl, hinput]
  · exact absurd h (by simp)

private def contentRecording : Recording where
  texts := [(serverKeyB64, serverKey), (content.signatureB64, contentSignature)]
  signed := [(serverKey, epochPreimage content.signingInput, contentSignature)]

private def contentHost : Host (List UInt8) where
  crypto := contentRecording.crypto
  pinnedSigningKeyB64 := serverKeyB64
  codec := contentCodec

/-- The one content that is read here is switched off and compiles to no rules. -/
private def offRules : ClipRules where
  Rules := Unit
  ContentRulesSubtree := Unit
  CompiledRuleSet := Unit
  contentRulesEq := inferInstance
  rulesFromValue _ := none
  contentRulesFromValue v := if v = contentSubtree then some () else none
  compile _ := .ok ()
  compileContentRules _ := .ok ()

private def quiet : InstallFaults := ⟨none, none⟩

private theorem content_signed : verifyEpochSignature contentHost content = .ok () := by
  have hkey : contentRecording.texts.lookup serverKeyB64 = some serverKey := rfl
  have hsig : contentRecording.texts.lookup content.signatureB64 = some contentSignature := rfl
  have hverifies : verifySignatureB64 contentRecording.crypto serverKeyB64
      (epochPreimage content.signingInput) content.signatureB64 = true :=
    contentRecording.verifies hkey hsig (by decide) List.mem_cons_self
  apply bind_ok.mpr
  refine ⟨(), refuseIf_neg _ (not_not_intro rfl), refuseIf_neg _ ?_⟩
  show ¬ verifySignatureB64 contentRecording.crypto serverKeyB64 _ _ = false
  rw [hverifies]
  decide

private theorem content_extracted :
    (contentRulesCompiler offRules).extractRaw content.config.value = .ok () := by
  apply bind_ok.mpr
  refine ⟨contentSubtree, okOr_ok.mpr rfl, okOr_ok.mpr ?_⟩
  show (if contentSubtree = contentSubtree then some () else none) = some ()
  exact if_pos rfl

private theorem content_persisted : persist contentHost (contentRulesCompiler offRules) content quiet =
    .ok (((), ()), contentBytes) := by
  apply persist_of_compiled
  · exact bind_ok.mpr ⟨(), content_signed, bind_ok.mpr ⟨(), content_extracted, rfl⟩⟩
  · show (if content = content then some contentBytes else none) = _
    exact if_pos rfl

/-- An older version that arrives late is refused by the version guard. -/
private def late : EpochInstallInput := { content with version := 4 }

private def slotAfter (rulesCompiled : Bool) (now : Int64) : Slot (contentRulesCompiler offRules) where
  memory :=
    { ManagedSubtree.swap content ((), ()) (some now) with rulesCompiled := rulesCompiled }
  file := some contentBytes

private theorem content_installed :
    storeStep contentHost (opened offRules fun _ => none) (.install .contentRules content 1000 quiet)
      .contentRules = slotAfter true 1000 := by
  rw [storeStep, Function.update_self, installEpoch_of_none rfl]
  exact congrArg Prod.fst (Slot.install_of_persist rfl content_persisted)

private theorem late_refused {store : Store offRules}
    (h : store .contentRules = slotAfter true 1000) :
    storeStep contentHost store (.install .contentRules late 2000 quiet) .contentRules =
      slotAfter false 2000 := by
  rw [storeStep, Function.update_self, h]
  show (installContentEpoch contentHost (slotAfter true 1000) late 2000 quiet).1 = _
  rw [installContentEpoch, if_neg (by decide)]
  rfl

private def lateRun : List StoreCall := [
  .install .contentRules content 1000 quiet,
  .install .contentRules late 2000 quiet]

end Redelivery

end PolicyStore
