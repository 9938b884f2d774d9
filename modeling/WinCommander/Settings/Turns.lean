import WinCommander.Settings.Lanes

/-!
# Requests of an account take turns

At most one request of an account works on its file.  What it read is therefore still the record of
the file when it replaces it, and the revisions of the successful writes of an account are distinct.
-/

namespace SettingsService

open Json Outcome Machine PersonalSettings

variable {platform : Platform}

section Scheduler

variable {s : Service platform}

/-- What holds of the lanes between any two steps. -/
structure Service.Orderly (s : Service platform) : Prop where
  named : ∀ (i : ℕ) (r : Request platform) (lane : ℕ), s.requests[i]? = some r → r.phase.lane = some lane →
    s.accounts.lookup r.sid = some lane
  made : ∀ (i : ℕ) (r : Request platform) (lane : ℕ), s.requests[i]? = some r → r.phase.lane = some lane → lane < s.made
  single : ∀ lane, (s.lanes lane).transaction ≤ 1
  taken : ∀ (i : ℕ) (r : Request platform) (lane : ℕ), s.requests[i]? = some r → r.phase.lane = some lane →
    r.phase.inTransaction = true → (s.lanes lane).transaction = 0
  alone : ∀ (i j : ℕ) (r r' : Request platform) (lane : ℕ), s.requests[i]? = some r →
    s.requests[j]? = some r' →
    r.phase.lane = some lane → r'.phase.lane = some lane → r.phase.inTransaction = true →
      r'.phase.inTransaction = true → i = j

theorem lane_of_inTransaction {phase : Phase} (h : phase.inTransaction = true) :
    ∃ lane, phase.lane = some lane := by
  cases phase with
  | transacting lane => exact ⟨lane, rfl⟩
  | replacing lane record => exact ⟨lane, rfl⟩
  | cleaning lane letters => exact ⟨lane, rfl⟩
  | _ => exact absurd h (by simp [Phase.inTransaction])

/-- One account has one lane, so its requests do not overlap. -/
theorem Service.Orderly.eq_of_inTransaction (h : s.Orderly) {i j : ℕ} {r r' : Request platform}
    (hi : s.requests[i]? = some r) (hj : s.requests[j]? = some r') (hsid : r.sid = r'.sid)
    (ht : r.phase.inTransaction = true) (ht' : r'.phase.inTransaction = true) : i = j := by
  obtain ⟨lane, hlane⟩ := lane_of_inTransaction ht
  obtain ⟨lane', hlane'⟩ := lane_of_inTransaction ht'
  have hnamed := h.named i r lane hi hlane
  have hnamed' := h.named j r' lane' hj hlane'
  rw [hsid, hnamed', Option.some.injEq] at hnamed
  subst hnamed
  exact h.alone i j r r' lane' hi hj hlane hlane' ht ht'

theorem Service.alive_of_mem {i lane : ℕ} {r : Request platform} (hi : s.requests[i]? = some r)
    (hlane : r.phase.lane = some lane) : s.alive lane = true := by
  apply List.any_eq_true.mpr
  exact ⟨r, List.mem_of_getElem? hi, by simp [hlane]⟩

theorem lookup_filter {α : Type} {entries : List (String × α)} {p : String × α → Bool}
    {key : String} {a : α} (h : entries.lookup key = some a) (hp : p (key, a) = true) :
    (entries.filter p).lookup key = some a := by
  induction entries with
  | nil => exact absurd h (by simp)
  | cons entry entries ih =>
    obtain ⟨k, b⟩ := entry
    rw [Keyed.lookup_cons] at h
    by_cases hk : key = k
    · subst hk
      rw [if_pos rfl, Option.some.injEq] at h
      subst h
      rw [List.filter_cons_of_pos hp, Keyed.lookup_cons, if_pos rfl]
    · rw [if_neg hk] at h
      by_cases hb : p (k, b) = true
      · rw [List.filter_cons_of_pos hb, Keyed.lookup_cons, if_neg hk]
        exact ih h
      · rw [List.filter_cons_of_neg hb]
        exact ih h

theorem lookup_filter_ne {α : Type} {entries : List (String × α)} {key sid : String}
    (hne : key ≠ sid) :
    (entries.filter fun entry => decide (entry.1 ≠ sid)).lookup key = entries.lookup key := by
  induction entries with
  | nil => rfl
  | cons entry entries ih =>
    obtain ⟨k, b⟩ := entry
    by_cases hk : k = sid
    · rw [List.filter_cons_of_neg (by simp [hk]), ih, Keyed.lookup_cons, if_neg]
      rw [hk]
      exact hne
    · rw [List.filter_cons_of_pos (by simp [hk]), Keyed.lookup_cons, Keyed.lookup_cons, ih]

/-- What a call for a lane comes to: the requests keep their lanes, and the lane that it gives is
the account's. -/
structure Service.Granted (s s' : Service platform) (sid : String) (lane : Except String ℕ) :
    Prop where
  orderly : s'.Orderly
  requests : s'.requests = s.requests
  files : s'.files = s.files
  mine : ∀ l, lane = .ok l → s'.accounts.lookup sid = some l ∧ l < s'.made

theorem Service.Orderly.account (h : s.Orderly) (sid : String) (late : List ℕ) :
    s.Granted (s.account sid late).1 sid (s.account sid late).2 := by
  unfold Service.account
  dsimp only
  generalize hkept : s.accounts.filter (fun entry => s.alive entry.2 || late.contains entry.2) =
    kept
  have hnamed : ∀ (i : ℕ) (r : Request platform) (lane : ℕ), s.requests[i]? = some r → r.phase.lane = some lane →
      kept.lookup r.sid = some lane := by
    intro i r lane hi hlane
    rw [← hkept]
    apply lookup_filter (h.named i r lane hi hlane)
    simp [Service.alive_of_mem hi hlane]
  cases hfound : (kept.lookup sid).filter fun lane => s.alive lane with
  | some lane =>
    obtain ⟨hlooked, halive⟩ := Option.filter_eq_some_iff.mp hfound
    have hmade : lane < s.made := by
      obtain ⟨r, hr, hlane⟩ := List.any_eq_true.mp halive
      obtain ⟨i, hi⟩ := List.mem_iff_getElem?.mp hr
      exact h.made i r lane hi (by simpa using hlane)
    constructor
    · exact ⟨hnamed, h.made, h.single, h.taken, h.alone⟩
    · rfl
    · rfl
    · intro l hl
      rw [← Except.ok.inj hl]
      exact ⟨hlooked, hmade⟩
  | none =>
    dsimp only
    split
    · exact ⟨⟨hnamed, h.made, h.single, h.taken, h.alone⟩, rfl, rfl, fun l hl => absurd hl (by simp)⟩
    · -- No request is in a lane of the account, and none is in the lane that is made.
      have hother : ∀ (i : ℕ) (r : Request platform) (lane : ℕ), s.requests[i]? = some r → r.phase.lane = some lane →
          r.sid ≠ sid := by
        intro i r lane hi hlane heq
        have hlooked := hnamed i r lane hi hlane
        rw [heq] at hlooked
        rw [hlooked, Option.filter_some, if_pos (Service.alive_of_mem hi hlane)] at hfound
        exact absurd hfound (by simp)
      have hne : ∀ (i : ℕ) (r : Request platform) (lane : ℕ), s.requests[i]? = some r → r.phase.lane = some lane →
          lane ≠ s.made := fun i r lane hi hlane => Nat.ne_of_lt (h.made i r lane hi hlane)
      constructor
      case orderly =>
        constructor
        case named =>
          intro i r lane hi hlane
          dsimp only
          rw [Keyed.lookup_cons, if_neg (hother i r lane hi hlane),
            lookup_filter_ne (hother i r lane hi hlane)]
          exact hnamed i r lane hi hlane
        case made =>
          exact fun i r lane hi hlane => Nat.lt_succ_of_lt (h.made i r lane hi hlane)
        case single =>
          intro lane
          dsimp only
          rw [Function.update_apply]
          split
          · exact Nat.le_refl 1
          · exact h.single lane
        case taken =>
          intro i r lane hi hlane ht
          dsimp only
          rw [Function.update_of_ne (hne i r lane hi hlane)]
          exact h.taken i r lane hi hlane ht
        case alone => exact h.alone
      case requests => rfl
      case files => rfl
      case mine =>
        intro l hl
        rw [← Except.ok.inj hl]
        refine ⟨?_, Nat.lt_succ_self _⟩
        dsimp only
        rw [Keyed.lookup_cons, if_pos rfl]

theorem getElem?_append_singleton {α : Type} {xs : List α} {x y : α} {i : ℕ}
    (h : (xs ++ [x])[i]? = some y) : xs[i]? = some y ∨ i = xs.length ∧ y = x := by
  by_cases hi : i < xs.length
  · rw [List.getElem?_append_left hi] at h
    exact .inl h
  · have hlt := (List.getElem?_eq_some_iff.mp h).1
    rw [List.length_append, List.length_singleton] at hlt
    have hi : i = xs.length := by omega
    subst hi
    rw [List.getElem?_concat_length, Option.some.injEq] at h
    exact .inr ⟨rfl, h.symm⟩

/-- A request that has no turn yet may join, in the lane of its account. -/
theorem Service.Orderly.append (h : s.Orderly) {r : Request platform}
    (hwaiting : r.phase.inTransaction = false)
    (hlane : ∀ lane, r.phase.lane = some lane →
      s.accounts.lookup r.sid = some lane ∧ lane < s.made) : (s.append r).Orderly := by
  constructor
  case named =>
    intro i r' lane hi hlane'
    rcases getElem?_append_singleton hi with hi | ⟨_, rfl⟩
    · exact h.named i r' lane hi hlane'
    · exact (hlane lane hlane').1
  case made =>
    intro i r' lane hi hlane'
    rcases getElem?_append_singleton hi with hi | ⟨_, rfl⟩
    · exact h.made i r' lane hi hlane'
    · exact (hlane lane hlane').2
  case single => exact h.single
  case taken =>
    intro i r' lane hi hlane' ht
    rcases getElem?_append_singleton hi with hi | ⟨_, rfl⟩
    · exact h.taken i r' lane hi hlane' ht
    · rw [hwaiting] at ht
      exact absurd ht (by simp)
  case alone =>
    intro i j r₁ r₂ lane hi hj hlane₁ hlane₂ ht₁ ht₂
    rcases getElem?_append_singleton hi with hi | ⟨_, rfl⟩
    · rcases getElem?_append_singleton hj with hj | ⟨_, rfl⟩
      · exact h.alone i j r₁ r₂ lane hi hj hlane₁ hlane₂ ht₁ ht₂
      · rw [hwaiting] at ht₂
        exact absurd ht₂ (by simp)
    · rw [hwaiting] at ht₁
      exact absurd ht₁ (by simp)

/-- A request enters in the lane of its account, or it is done. -/
theorem Service.enter_cases (h : s.Orderly) (sid : String) (work : Work platform)
    (late : List ℕ) : ∃ (s' : Service platform) (phase : Phase), s.enter sid work late = s'.append ⟨sid, work, true, phase⟩ ∧
      s'.Orderly ∧ s'.requests = s.requests ∧ s'.files = s.files ∧
      phase.inTransaction = false ∧ (∀ result, phase = .done result → ∃ e, result = .error e) ∧
      ∀ lane, phase.lane = some lane → s'.accounts.lookup sid = some lane ∧ lane < s'.made := by
  have hgranted := h.account sid late
  unfold Service.enter
  generalize s.account sid late = granted at hgranted
  obtain ⟨s', lane⟩ := granted
  cases lane with
  | ok lane =>
    refine ⟨s', .entered lane, rfl, hgranted.orderly, hgranted.requests, hgranted.files, rfl,
      fun result hresult => absurd hresult (by simp), ?_⟩
    intro lane' hlane
    rw [← Option.some.inj hlane]
    exact hgranted.mine lane rfl
  | error error =>
    refine ⟨s', .done (.error error), rfl, hgranted.orderly, hgranted.requests, hgranted.files, rfl,
      fun result hresult => ⟨error, (Phase.done.inj hresult).symm⟩, ?_⟩
    exact fun lane hlane => absurd hlane (by simp [Phase.lane])

/-- What a move does to its request: the account and the work stay, the lane stays until the
request is through, and the turn is taken only while it is free. -/
structure Service.Moved (s : Service platform) (r next : Request platform) : Prop where
  sid : next.sid = r.sid
  work : next.work = r.work
  lane : next.phase.lane = r.phase.lane ∨ next.phase.lane = none
  turn : next.phase.inTransaction = true → r.phase.inTransaction = true ∨
    ∀ lane, r.phase.lane = some lane → 0 < (s.lanes lane).transaction

theorem Service.Moved.refl (r : Request platform) : s.Moved r r :=
  ⟨rfl, rfl, .inl rfl, fun h => .inl h⟩

theorem Service.Moved.ended {r next : Request platform} (hsid : next.sid = r.sid)
    (hwork : next.work = r.work) (hlane : next.phase.lane = none) : s.Moved r next := by
  refine ⟨hsid, hwork, .inr hlane, fun h => ?_⟩
  obtain ⟨lane, h⟩ := lane_of_inTransaction h
  rw [hlane] at h
  exact absurd h (by simp)

theorem Service.Moved.worked {r next : Request platform} (hsid : next.sid = r.sid)
    (hwork : next.work = r.work) (hlane : next.phase.lane = r.phase.lane)
    (hturn : r.phase.inTransaction = true) : s.Moved r next :=
  ⟨hsid, hwork, .inl hlane, fun _ => .inl hturn⟩

theorem Service.moved_acquire (r : Request platform) :
    s.Moved r { r with phase := s.acquired r } := by
  have hturn : ∀ lane, (s.lanes lane).transaction ≠ 0 → r.phase.lane = some lane →
      s.Moved r { r with phase := .transacting lane } := by
    intro lane hfree hlane
    refine ⟨rfl, rfl, .inl hlane.symm, fun _ => .inr fun lane' hlane' => ?_⟩
    rw [hlane, Option.some.injEq] at hlane'
    rw [← hlane']
    exact Nat.pos_of_ne_zero hfree
  have hqueued : ∀ phase : Phase, phase.inTransaction = false → phase.lane = r.phase.lane →
      s.Moved r { r with phase := phase } := by
    intro phase hphase hlane
    refine ⟨rfl, rfl, .inl hlane, fun h => ?_⟩
    rw [show ({ r with phase := phase } : Request platform).phase = phase from rfl, hphase] at h
    exact absurd h (by simp)
  unfold Service.acquired
  split
  · next lane hphase =>
    split
    · split
      · exact .ended rfl rfl rfl
      · exact hqueued _ rfl (by rw [hphase]; rfl)
    · split
      · exact .ended rfl rfl rfl
      · next hfree => exact hturn lane hfree (by rw [hphase]; rfl)
  · next lane hphase =>
    split
    · exact .ended rfl rfl rfl
    · exact hqueued _ rfl (by rw [hphase]; rfl)
  · next lane hphase =>
    split
    · exact hqueued _ rfl (by rw [hphase])
    · next hfree => exact hturn lane hfree (by rw [hphase]; rfl)
  · exact .refl r

theorem Service.moved_read (r : Request platform) (fault : Option ReadFault) :
    s.Moved r (s.after r (.read fault)) := by
  unfold Service.after
  dsimp only
  split
  · next lane hphase =>
    have hturn : r.phase.inTransaction = true := by rw [hphase]; rfl
    have hworked : ∀ phase : Phase, phase.lane = some lane ∨ phase.lane = none →
        s.Moved r { r with phase := phase } := by
      intro phase h
      rcases h with h | h
      · exact .worked rfl rfl (h.trans (by rw [hphase]; rfl)) hturn
      · exact .ended rfl rfl h
    apply hworked
    unfold Service.worked
    dsimp only
    split
    · split
      · exact .inr rfl
      · exact .inl rfl
      · exact .inr rfl
    · split
      · exact .inl rfl
      · exact .inr rfl
  · exact .refl r

theorem Service.moved_after (r : Request platform) (m : Move) : s.Moved r (s.after r m) := by
  cases m with
  | acquire => exact Service.moved_acquire r
  | expire =>
    unfold Service.after
    dsimp only
    split
    · exact .ended rfl rfl rfl
    · exact .refl r
  | cancel =>
    unfold Service.after
    dsimp only
    split
    · exact .refl r
    · split
      · exact .ended rfl rfl rfl
      · next hphase => exact .worked rfl rfl rfl (by rw [hphase]; rfl)
      · next hphase => exact .worked rfl rfl rfl (by rw [hphase]; rfl)
      · exact .refl r
  | read fault => exact Service.moved_read r fault
  | commit fault =>
    unfold Service.after
    dsimp only
    split
    · split
      · exact .ended rfl rfl rfl
      · exact .ended rfl rfl rfl
    · exact .refl r
  | cleaned result =>
    unfold Service.after
    dsimp only
    split
    · exact .ended rfl rfl rfl
    · exact .refl r

theorem getElem?_set {α : Type} {xs : List α} {x y : α} {i j : ℕ}
    (h : (xs.set i x)[j]? = some y) : j = i ∧ y = x ∨ j ≠ i ∧ xs[j]? = some y := by
  rw [List.getElem?_set] at h
  by_cases hij : i = j
  · rw [if_pos hij] at h
    split at h
    · exact .inl ⟨hij.symm, (Option.some.inj h).symm⟩
    · exact absurd h (by simp)
  · rw [if_neg hij] at h
    exact .inr ⟨Ne.symm hij, h⟩

/-- The free turns of a lane after one of its requests moved on. -/
theorem Service.transaction_settle {i : ℕ} {r next : Request platform} (lane : ℕ) :
    ((s.settle i r next).lanes lane).transaction =
      if r.phase.lane = some lane then
        (s.lanes lane).transaction + r.transactionPermits - next.transactionPermits
      else (s.lanes lane).transaction := by
  unfold Service.settle
  dsimp only
  cases r.phase.lane with
  | none => simp
  | some l =>
    dsimp only
    rw [Function.update_apply]
    by_cases hl : lane = l
    · subst hl
      simp
    · rw [if_neg hl, if_neg (fun heq => hl (Option.some.inj heq).symm)]

theorem Service.Orderly.settle (h : s.Orderly) {i : ℕ} {r next : Request platform}
    (hi : s.requests[i]? = some r) (hm : s.Moved r next) : (s.settle i r next).Orderly := by
  have hlane : ∀ lane, next.phase.lane = some lane → r.phase.lane = some lane := by
    intro lane hlane
    rcases hm.lane with heq | hnone
    · exact heq ▸ hlane
    · rw [hnone] at hlane
      exact absurd hlane (by simp)
  -- Nobody else has the turn of a lane when the moved request has it afterwards.
  have hothers : ∀ (j : ℕ) (r' : Request platform) (lane : ℕ), s.requests[j]? = some r' →
      r'.phase.lane = some lane → r'.phase.inTransaction = true → next.phase.lane = some lane →
        next.phase.inTransaction = true → j = i := by
    intro j r' lane hj hlane' ht' hnext ht
    rcases hm.turn ht with hr | hfree
    · exact h.alone j i r' r lane hj hi hlane' (hlane lane hnext) ht' hr
    · have hpos := hfree lane (hlane lane hnext)
      have hzero := h.taken j r' lane hj hlane' ht'
      omega
  constructor
  case named =>
    intro j r' lane hj hlane'
    rcases getElem?_set hj with ⟨_, rfl⟩ | ⟨_, hj⟩
    · rw [hm.sid]
      exact h.named i r lane hi (hlane lane hlane')
    · exact h.named j r' lane hj hlane'
  case made =>
    intro j r' lane hj hlane'
    rcases getElem?_set hj with ⟨_, rfl⟩ | ⟨_, hj⟩
    · exact h.made i r lane hi (hlane lane hlane')
    · exact h.made j r' lane hj hlane'
  case single =>
    intro lane
    rw [Service.transaction_settle]
    have hle := h.single lane
    split
    · next hr =>
      by_cases ht : r.phase.inTransaction = true
      · have hzero := h.taken i r lane hi hr ht
        simp only [Request.transactionPermits, ht, if_true, hzero]
        omega
      · simp only [Request.transactionPermits, ht]
        simp
        omega
    · exact hle
  case taken =>
    intro j r' lane hj hlane' ht'
    rw [Service.transaction_settle]
    rcases getElem?_set hj with ⟨_, rfl⟩ | ⟨hne, hj⟩
    · rw [if_pos (hlane lane hlane')]
      rcases hm.turn ht' with ht | hfree
      · have hzero := h.taken i r lane hi (hlane lane hlane') ht
        simp [Request.transactionPermits, ht, ht', hzero]
      · have hle := h.single lane
        have hpos := hfree lane (hlane lane hlane')
        by_cases ht : r.phase.inTransaction = true
        · have hzero := h.taken i r lane hi (hlane lane hlane') ht
          omega
        · simp only [Request.transactionPermits, ht, ht']
          simp
          omega
    · have hzero := h.taken j r' lane hj hlane' ht'
      split
      · next hr =>
        have ht : r.phase.inTransaction ≠ true := fun ht =>
          hne (h.alone j i r' r lane hj hi hlane' hr ht' ht)
        simp [Request.transactionPermits, ht, hzero]
      · exact hzero
  case alone =>
    intro j k r₁ r₂ lane hj hk hlane₁ hlane₂ ht₁ ht₂
    rcases getElem?_set hj with ⟨hji, rfl⟩ | ⟨_, hj'⟩
    · rcases getElem?_set hk with ⟨hki, _⟩ | ⟨_, hk'⟩
      · exact hji.trans hki.symm
      · exact hji.trans (hothers k r₂ lane hk' hlane₂ ht₂ hlane₁ ht₁).symm
    · rcases getElem?_set hk with ⟨hki, rfl⟩ | ⟨_, hk'⟩
      · exact (hothers j r₁ lane hj' hlane₁ ht₁ hlane₂ ht₂).trans hki.symm
      · exact h.alone j k r₁ r₂ lane hj' hk' hlane₁ hlane₂ ht₁ ht₂

theorem Service.Orderly.withFiles (h : s.Orderly) (files : String → Option platform.Payload) :
    ({ s with files := files } : Service platform).Orderly :=
  ⟨h.named, h.made, h.single, h.taken, h.alone⟩

theorem Service.Orderly.step (h : s.Orderly) (a : Action platform) : (s.step a).Orderly := by
  have henter : ∀ sid work late, (s.enter sid work late).Orderly := by
    intro sid work late
    obtain ⟨s', phase, heq, hs', _, _, hwaiting, _, hlane⟩ := Service.enter_cases h sid work late
    rw [heq]
    exact hs'.append hwaiting hlane
  cases a with
  | call peer verb args late =>
    unfold Service.step
    dsimp only
    split
    · exact h.append rfl fun lane hlane => absurd hlane (by simp [Phase.lane])
    · exact henter _ _ _
  | cleanup sid late => exact henter _ _ _
  | move i m =>
    unfold Service.step
    dsimp only
    split
    · exact h
    · next r hi => exact (h.settle hi (Service.moved_after r m)).withFiles _

theorem Service.orderly_start (files : String → Option platform.Payload) :
    (Service.start platform files).Orderly := by
  constructor
  case single => exact fun _ => Nat.le_refl 1
  all_goals
    intros
    simp_all [Service.start]

theorem Service.orderly_run (files : String → Option platform.Payload)
    (acts : List (Action platform)) :
    (run Service.step (Service.start platform files) acts).Orderly :=
  run_invariant (P := fun _ _ => True) (fun _ a h _ => h.step a) (Service.orderly_start files)
    (Throughout.of_forall (fun _ _ => trivial) _ acts)

end Scheduler

end SettingsService
