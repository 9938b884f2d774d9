import WinCommander.Settings.Turns

/-!
# The revisions of a record

A write that is about to replace a record still has the record of the file before it, so revisions
go up by one with each successful write and no two of an account's writes succeed at one revision.
-/

namespace SettingsService

open Json Outcome Machine PersonalSettings

variable {platform : Platform} {s : Service platform}

section Steps

/-- The request asks for a write of these arguments. -/
def Request.Writes (r : Request platform) (request : WritePersonalSettingsRequest) : Prop :=
  ∃ verb args, r.work = .request verb args ∧
    parseOperation platform verb args.value = .ok (.write request)

theorem Request.Writes.unique {r : Request platform} {request request' : WritePersonalSettingsRequest}
    (h : r.Writes request) (h' : r.Writes request') : request = request' := by
  obtain ⟨verb, args, hwork, hparse⟩ := h
  obtain ⟨verb', args', hwork', hparse'⟩ := h'
  rw [hwork, Work.request.injEq] at hwork'
  obtain ⟨rfl, rfl⟩ := hwork'
  rw [hparse, Except.ok.injEq, Operation.write.injEq] at hparse'
  exact hparse'

theorem Request.Writes.of_work {r r' : Request platform} {request : WritePersonalSettingsRequest}
    (h : r.Writes request) (hwork : r.work = r'.work) : r'.Writes request := by
  obtain ⟨verb, args, hr, hparse⟩ := h
  exact ⟨verb, args, hwork ▸ hr, hparse⟩

/-- A request that is through stays as it is. -/
theorem Service.after_of_through {r : Request platform} (h : r.phase.lane = none) (m : Move) :
    s.after r m = r := by
  obtain ⟨sid, work, listening, phase⟩ := r
  cases phase with
  | done result => cases m <;> cases work <;> rfl
  | dropped => cases m <;> cases work <;> rfl
  | _ => exact absurd h (by simp [Phase.lane])

/-- A record is about to be written only after the file was read and the revision agreed. -/
theorem Service.after_replacing {r : Request platform} {m : Move} {lane : ℕ}
    {record : PersonalSettingsRecord} (h : (s.after r m).phase = .replacing lane record) :
    r.phase = .replacing lane record ∨ ∃ request current, r.Writes request ∧
      s.stored r.sid = .ok current ∧ replacement current request = .ok record := by
  obtain ⟨sid, work, listening, phase⟩ := r
  cases m with
  | acquire =>
    simp only [Service.after, Service.acquired] at h
    cases phase <;> cases work <;> simp_all <;> split at h <;> simp_all
  | read fault =>
    cases phase with
    | transacting l =>
      simp only [Service.after, Service.worked] at h
      cases work with
      | quickMountLetters =>
        dsimp only at h
        split at h <;> exact absurd h (by simp)
      | request verb args =>
        dsimp only at h
        split at h
        · exact absurd h (by simp)
        · next record' hprepare =>
          cases h
          obtain ⟨request, current, hparse, hcurrent, hrecord⟩ := prepare_replace hprepare
          exact .inr ⟨request, current, ⟨verb, args, rfl, hparse⟩, hcurrent, hrecord⟩
        · exact absurd h (by simp)
    | _ => exact .inl h
  | expire => cases phase <;> first | exact .inl h | exact absurd h (by simp [Service.after])
  | cancel =>
    cases work with
    | quickMountLetters => exact .inl h
    | request verb args =>
      cases phase <;> first | exact .inl h | exact absurd h (by simp [Service.after])
  | commit fault =>
    cases phase with
    | replacing l record' => cases fault <;> exact absurd h (by simp [Service.after])
    | _ => exact .inl h
  | cleaned result => cases phase <;> first | exact .inl h | exact absurd h (by simp [Service.after])

/-- A write succeeds by its commit only. -/
theorem Service.after_done {r : Request platform} {m : Move} {record : PersonalSettingsRecord}
    {request : WritePersonalSettingsRequest} (hwrites : r.Writes request)
    (h : (s.after r m).phase = .done (.ok (.record record))) :
    r.phase = .done (.ok (.record record)) ∨
      ∃ lane, r.phase = .replacing lane record ∧ m = .commit none := by
  obtain ⟨sid, work, listening, phase⟩ := r
  obtain ⟨verb, args, hwork, hparse⟩ := hwrites
  have hwork : work = .request verb args := hwork
  subst hwork
  cases m with
  | acquire =>
    simp only [Service.after, Service.acquired] at h
    cases phase <;> simp_all <;> split at h <;> simp_all
  | read fault =>
    cases phase with
    | transacting l =>
      simp only [Service.after, Service.worked] at h
      split at h
      · next record' hprepare =>
        have hread := (prepare_answer hprepare).1
        rw [hparse] at hread
        exact absurd hread (by simp)
      · exact absurd h (by simp)
      · exact absurd h (by simp)
    | _ => exact .inl h
  | expire => cases phase <;> first | exact .inl h | exact absurd h (by simp [Service.after])
  | cancel => cases phase <;> first | exact .inl h | exact absurd h (by simp [Service.after])
  | commit fault =>
    cases phase with
    | replacing l record' =>
      cases fault with
      | none =>
        simp only [Service.after, Phase.done.injEq, Except.ok.injEq, Reply.record.injEq] at h
        exact .inr ⟨l, by rw [h], rfl⟩
      | some fault => exact absurd h (by simp [Service.after])
    | _ => exact .inl h
  | cleaned result =>
    cases phase with
    | cleaning l letters => cases result <;> exact absurd h (by simp [Service.after, Except.map])
    | _ => exact .inl h

/-- Only the commit of a record writes a file, and that is the file of its account. -/
theorem Service.written_cases (r : Request platform) (m : Move) :
    s.written r m = s.files ∨ ∃ lane record, m = .commit none ∧ r.phase = .replacing lane record ∧
      s.written r m = Function.update s.files (recordPath platform r.sid)
        (some (encrypted platform r.sid record)) := by
  unfold Service.written
  split
  · split
    · next lane record hphase => exact .inr ⟨lane, record, rfl, hphase, rfl⟩
    · exact .inl rfl
  · exact .inl rfl

theorem Service.step_move {i : ℕ} {r : Request platform} (hi : s.requests[i]? = some r) (m : Move) :
    s.step (.move i m) = { s.settle i r (s.after r m) with files := s.written r m } := by
  unfold Service.step
  dsimp only
  rw [hi]

theorem Service.requests_move {i : ℕ} {r : Request platform} (hi : s.requests[i]? = some r)
    (m : Move) : (s.step (.move i m)).requests[i]? = some (s.after r m) := by
  rw [Service.step_move hi]
  show (s.requests.set i (s.after r m))[i]? = _
  rw [List.getElem?_set_self]
  exact (List.getElem?_eq_some_iff.mp hi).1

/-- A step adds a request that is not through with success, or moves one on. -/
theorem Service.step_cases (h : s.Orderly) (a : Action platform) :
    (∃ r : Request platform, (s.step a).requests = s.requests ++ [r] ∧ (s.step a).files = s.files ∧
      (a.sid = some r.sid ∧ r.phase.inTransaction = false ∨ r.sid = "" ∧ r.phase.lane = none) ∧
        ∀ result, r.phase = .done result → ∃ error, result = .error error) ∨
      s.step a = s ∨ ∃ i m r, a = .move i m ∧ s.requests[i]? = some r ∧
        s.step a = { s.settle i r (s.after r m) with files := s.written r m } := by
  have henter : ∀ sid work late, ∃ r : Request platform,
      (s.enter sid work late).requests = s.requests ++ [r] ∧
      (s.enter sid work late).files = s.files ∧ r.sid = sid ∧ r.phase.inTransaction = false ∧
        ∀ result, r.phase = .done result → ∃ error, result = .error error := by
    intro sid work late
    obtain ⟨s', phase, heq, _, hrequests, hfiles, hwaiting, hdone, _⟩ :=
      Service.enter_cases h sid work late
    refine ⟨⟨sid, work, true, phase⟩, ?_, ?_, rfl, hwaiting, hdone⟩
    · rw [heq, ← hrequests]
      rfl
    · rw [heq, ← hfiles]
      rfl
  cases a with
  | call peer verb args late =>
    unfold Service.step
    dsimp only
    split
    · refine .inl ⟨_, rfl, rfl, .inr ⟨rfl, rfl⟩, ?_⟩
      exact fun result hresult => ⟨unauthorized, (Phase.done.inj hresult).symm⟩
    · next sid hsid =>
      obtain ⟨r, hr, hfiles, hrsid, hwaiting, hdone⟩ := henter sid (.request verb args) late
      exact .inl ⟨r, hr, hfiles, .inl ⟨hsid.trans (by rw [hrsid]), hwaiting⟩, hdone⟩
  | cleanup sid late =>
    obtain ⟨r, hr, hfiles, hrsid, hwaiting, hdone⟩ := henter sid .quickMountLetters late
    exact .inl ⟨r, hr, hfiles, .inl ⟨by rw [hrsid]; rfl, hwaiting⟩, hdone⟩
  | move i m =>
    cases hi : s.requests[i]? with
    | none =>
      refine .inr (.inl ?_)
      unfold Service.step
      dsimp only
      rw [hi]
    | some r => exact .inr (.inr ⟨i, m, r, rfl, hi, Service.step_move hi m⟩)

end Steps

section Files

theorem recordPath_injOn {sids : Set String} (h : Set.InjOn platform.digest sids) :
    Set.InjOn (recordPath platform) sids := by
  intro a ha b hb heq
  apply h ha hb
  apply String.toList_inj.mp
  have hlist := congrArg String.toList heq
  rw [recordPath, recordPath, String.toList_append, String.toList_append] at hlist
  exact List.append_cancel_right hlist

/-- What a commit of a record makes of the stored records. -/
theorem Service.stored_commit {sids : Set String} (hdigest : Set.InjOn platform.digest sids)
    {r : Request platform} {request : WritePersonalSettingsRequest}
    {current record : PersonalSettingsRecord} (hsid : r.sid ∈ sids) (hwrites : r.Writes request)
    (hrecord : replacement current request = .ok record) {s' : Service platform}
    (hfiles : s'.files = Function.update s.files (recordPath platform r.sid)
      (some (encrypted platform r.sid record))) :
    s'.stored r.sid = .ok record ∧ ∀ sid ∈ sids, sid ≠ r.sid → s'.stored sid = s.stored sid := by
  obtain ⟨verb, args, _, hparse⟩ := hwrites
  obtain ⟨hargs, hobject, hsize⟩ := parseOperation_write hparse
  obtain ⟨_, _, hvalue, _⟩ := replacement_ok hrecord
  constructor
  · unfold Service.stored
    rw [hfiles, Function.update_self]
    exact readRecord_encrypted hvalue hobject hsize (args.readable request hargs)
  · intro sid hmem hne
    have hpath : recordPath platform sid ≠ recordPath platform r.sid := fun heq =>
      hne (recordPath_injOn hdigest hmem hsid heq)
    unfold Service.stored
    rw [hfiles, Function.update_of_ne hpath]

theorem Service.stored_of_files {s' : Service platform} (h : s'.files = s.files) (sid : String) :
    s'.stored sid = s.stored sid := by
  unfold Service.stored
  rw [h]

end Files

section Invariant

variable {sids : Set String}

/-- What holds between any two steps of the records and of the requests that write them. -/
structure Service.Consistent (sids : Set String) (s : Service platform) : Prop where
  known : ∀ (i : ℕ) (r : Request platform), s.requests[i]? = some r →
    r.sid ∈ sids ∨ r.phase.lane = none ∧ ∀ result, r.phase = .done result → ∃ e, result = .error e
  replacing : ∀ (i : ℕ) (r : Request platform) (lane : ℕ) (record : PersonalSettingsRecord),
    s.requests[i]? = some r → r.phase = .replacing lane record →
      ∃ request current, r.Writes request ∧ s.stored r.sid = .ok current ∧
        replacement current request = .ok record
  written : ∀ (i : ℕ) (r : Request platform) (request : WritePersonalSettingsRequest)
    (record : PersonalSettingsRecord), s.requests[i]? = some r → r.Writes request →
      r.phase = .done (.ok (.record record)) →
        ∃ current, s.stored r.sid = .ok current ∧
          request.expectedRevision.toNat < current.revision.toNat
  apart : ∀ (i j : ℕ) (r r' : Request platform) (request request' : WritePersonalSettingsRequest)
    (record record' : PersonalSettingsRecord), s.requests[i]? = some r →
      s.requests[j]? = some r' → r.Writes request → r'.Writes request' →
        r.phase = .done (.ok (.record record)) → r'.phase = .done (.ok (.record record')) →
          r.sid = r'.sid → i ≠ j → request.expectedRevision ≠ request'.expectedRevision

theorem Service.Consistent.mem (h : s.Consistent sids) {i : ℕ} {r : Request platform}
    (hi : s.requests[i]? = some r)
    (hphase : r.phase.lane.isSome = true ∨ ∃ reply, r.phase = .done (.ok reply)) :
    r.sid ∈ sids := by
  rcases h.known i r hi with hmem | ⟨hlane, hdone⟩
  · exact hmem
  · rcases hphase with hsome | ⟨reply, hreply⟩
    · rw [hlane] at hsome
      exact absurd hsome (by simp)
    · obtain ⟨error, herror⟩ := hdone _ hreply
      exact absurd herror (by simp)

/-- A request that joins changes nothing for the others. -/
theorem Service.Consistent.append (h : s.Consistent sids) {s' : Service platform}
    {r : Request platform} (hrequests : s'.requests = s.requests ++ [r])
    (hfiles : s'.files = s.files)
    (hsid : r.sid ∈ sids ∧ r.phase.inTransaction = false ∨ r.phase.lane = none)
    (hdone : ∀ result, r.phase = .done result → ∃ error, result = .error error) :
    s'.Consistent sids := by
  have hstored := Service.stored_of_files hfiles
  have hold : ∀ (i : ℕ) (r' : Request platform), s'.requests[i]? = some r' →
      s.requests[i]? = some r' ∨ r' = r := by
    intro i r' hi
    rw [hrequests] at hi
    exact (getElem?_append_singleton hi).imp_right And.right
  have hnew : ∀ record, r.phase ≠ .done (.ok (.record record)) := by
    intro record hphase
    obtain ⟨error, herror⟩ := hdone _ hphase
    exact absurd herror (by simp)
  constructor
  case known =>
    intro i r' hi
    rcases hold i r' hi with hi | rfl
    · exact h.known i r' hi
    · rcases hsid with ⟨hmem, _⟩ | hlane
      · exact .inl hmem
      · exact .inr ⟨hlane, hdone⟩
  case replacing =>
    intro i r' lane record hi hphase
    rcases hold i r' hi with hi | rfl
    · rw [hstored]
      exact h.replacing i r' lane record hi hphase
    · rw [hphase] at hsid
      exact absurd hsid (by simp [Phase.inTransaction, Phase.lane])
  case written =>
    intro i r' request record hi hwrites hphase
    rcases hold i r' hi with hi | rfl
    · rw [hstored]
      exact h.written i r' request record hi hwrites hphase
    · exact absurd hphase (hnew record)
  case apart =>
    intro i j r₁ r₂ request request' record record' hi hj hwrites hwrites' hphase hphase'
    rcases hold i r₁ hi with hi | rfl
    · rcases hold j r₂ hj with hj | rfl
      · exact h.apart i j r₁ r₂ request request' record record' hi hj hwrites hwrites' hphase
          hphase'
      · exact absurd hphase' (hnew record')
    · exact absurd hphase (hnew record)

/-- A move that writes no file. -/
theorem Service.Consistent.moved (h : s.Consistent sids) {s' : Service platform} {i : ℕ} {m : Move}
    {r : Request platform} (hi : s.requests[i]? = some r)
    (hrequests : s'.requests = s.requests.set i (s.after r m)) (hfiles : s'.files = s.files)
    (hcommit : ∀ lane record, m = .commit none → r.phase ≠ .replacing lane record) :
    s'.Consistent sids := by
  have hstored := Service.stored_of_files hfiles
  have hmoved := Service.moved_after (s := s) r m
  have hold : ∀ (j : ℕ) (r' : Request platform), s'.requests[j]? = some r' →
      j = i ∧ r' = s.after r m ∨ j ≠ i ∧ s.requests[j]? = some r' := by
    intro j r' hj
    rw [hrequests] at hj
    exact getElem?_set hj
  -- The request has succeeded after the move only if it had before.
  have hdone : ∀ (j : ℕ) (r' : Request platform) (request : WritePersonalSettingsRequest)
      (record : PersonalSettingsRecord), s'.requests[j]? = some r' → r'.Writes request →
        r'.phase = .done (.ok (.record record)) → s.requests[j]? = some r' := by
    intro j r' request record hj hwrites hphase
    rcases hold j r' hj with ⟨rfl, rfl⟩ | ⟨_, hj⟩
    · rcases Service.after_done (hwrites.of_work hmoved.work) hphase with hr | ⟨lane, hr, hm⟩
      · rw [Service.after_of_through (by rw [hr]; rfl)]
        exact hi
      · exact absurd hr (hcommit lane record hm)
    · exact hj
  constructor
  case known =>
    intro j r' hj
    rcases hold j r' hj with ⟨rfl, rfl⟩ | ⟨_, hj⟩
    · rcases h.known j r hi with hmem | ⟨hlane, hdone⟩
      · rw [hmoved.sid]
        exact .inl hmem
      · rw [Service.after_of_through hlane]
        exact .inr ⟨hlane, hdone⟩
    · exact h.known j r' hj
  case replacing =>
    intro j r' lane record hj hphase
    rw [hstored]
    rcases hold j r' hj with ⟨rfl, rfl⟩ | ⟨_, hj⟩
    · rw [hmoved.sid]
      have hfound : ∃ request current, r.Writes request ∧ s.stored r.sid = .ok current ∧
          replacement current request = .ok record := by
        rcases Service.after_replacing hphase with hr | hread
        · exact h.replacing j r lane record hi hr
        · exact hread
      obtain ⟨request, current, hwrites, hcurrent, hrecord⟩ := hfound
      exact ⟨request, current, hwrites.of_work hmoved.work.symm, hcurrent, hrecord⟩
    · exact h.replacing j r' lane record hj hphase
  case written =>
    intro j r' request record hj hwrites hphase
    rw [hstored]
    exact h.written j r' request record (hdone j r' request record hj hwrites hphase) hwrites hphase
  case apart =>
    intro j k r₁ r₂ request request' record record' hj hk hwrites hwrites' hphase hphase'
    exact h.apart j k r₁ r₂ request request' record record'
      (hdone j r₁ request record hj hwrites hphase)
      (hdone k r₂ request' record' hk hwrites' hphase') hwrites hwrites' hphase hphase'

/-- A commit puts the record in place that its request prepared from the record before. -/
theorem Service.Consistent.committed (h : s.Consistent sids) (ho : s.Orderly)
    (hdigest : Set.InjOn platform.digest sids) {s' : Service platform} {i lane : ℕ}
    {r : Request platform} {record : PersonalSettingsRecord} (hi : s.requests[i]? = some r)
    (hphase : r.phase = .replacing lane record)
    (hrequests : s'.requests = s.requests.set i (s.after r (.commit none)))
    (hfiles : s'.files = Function.update s.files (recordPath platform r.sid)
      (some (encrypted platform r.sid record))) : s'.Consistent sids := by
  obtain ⟨request, current, hwrites, hcurrent, hrecord⟩ := h.replacing i r lane record hi hphase
  have hmem : r.sid ∈ sids := h.mem hi (.inl (by rw [hphase]; rfl))
  obtain ⟨hmine, hothers⟩ := Service.stored_commit hdigest hmem hwrites hrecord hfiles
  obtain ⟨hexpected, hnext, _, _⟩ := replacement_ok hrecord
  have hafter : s.after r (.commit none) = { r with phase := .done (.ok (.record record)) } := by
    unfold Service.after
    simp only [hphase]
  have hold : ∀ (j : ℕ) (r' : Request platform), s'.requests[j]? = some r' →
      j = i ∧ r' = { r with phase := .done (.ok (.record record)) } ∨
        j ≠ i ∧ s.requests[j]? = some r' := by
    intro j r' hj
    rw [hrequests, hafter] at hj
    exact getElem?_set hj
  -- An earlier write of the account was made at an earlier revision.
  have hearlier : ∀ (j : ℕ) (r' : Request platform) (request' : WritePersonalSettingsRequest)
      (record' : PersonalSettingsRecord), s.requests[j]? = some r' → r'.Writes request' →
        r'.phase = .done (.ok (.record record')) → r'.sid = r.sid →
          request'.expectedRevision.toNat < request.expectedRevision.toNat := by
    intro j r' request' record' hj hwrites' hphase' hsid
    obtain ⟨current', hcurrent', hlt⟩ := h.written j r' request' record' hj hwrites' hphase'
    rw [hsid, hcurrent, Except.ok.injEq] at hcurrent'
    rw [hexpected, hcurrent']
    exact hlt
  constructor
  case known =>
    intro j r' hj
    rcases hold j r' hj with ⟨_, rfl⟩ | ⟨_, hj⟩
    · exact .inl hmem
    · exact h.known j r' hj
  case replacing =>
    intro j r' lane' record' hj hphase'
    rcases hold j r' hj with ⟨_, rfl⟩ | ⟨hne, hj⟩
    · exact absurd hphase' (by simp)
    · have hsid : r'.sid ≠ r.sid := fun hsid =>
        hne (ho.eq_of_inTransaction hj hi hsid (by rw [hphase']; rfl) (by rw [hphase]; rfl))
      rw [hothers r'.sid (h.mem hj (.inl (by rw [hphase']; rfl))) hsid]
      exact h.replacing j r' lane' record' hj hphase'
  case written =>
    intro j r' request' record' hj hwrites' hphase'
    rcases hold j r' hj with ⟨_, rfl⟩ | ⟨_, hj⟩
    · refine ⟨record, hmine, ?_⟩
      rw [hwrites'.unique (hwrites.of_work rfl), hexpected, hnext]
      exact Nat.lt_succ_self _
    · by_cases hsid : r'.sid = r.sid
      · have hlt := hearlier j r' request' record' hj hwrites' hphase' hsid
        rw [hexpected] at hlt
        refine ⟨record, hsid ▸ hmine, ?_⟩
        omega
      · rw [hothers r'.sid (h.mem hj (.inr ⟨_, hphase'⟩)) hsid]
        exact h.written j r' request' record' hj hwrites' hphase'
  case apart =>
    intro j k r₁ r₂ request₁ request₂ record₁ record₂ hj hk hwrites₁ hwrites₂ hphase₁ hphase₂ hsid
      hne
    have hme : ∀ {request' : WritePersonalSettingsRequest},
        ({ r with phase := .done (.ok (.record record)) } : Request platform).Writes request' →
          request' = request := fun hwrites' => hwrites'.unique (hwrites.of_work rfl)
    rcases hold j r₁ hj with ⟨hji, rfl⟩ | ⟨_, hj'⟩
    · rcases hold k r₂ hk with ⟨hki, _⟩ | ⟨_, hk'⟩
      · exact absurd (hji.trans hki.symm) hne
      · have hlt := hearlier k r₂ request₂ record₂ hk' hwrites₂ hphase₂ hsid.symm
        rw [hme hwrites₁]
        intro heq
        rw [heq] at hlt
        exact absurd hlt (Nat.lt_irrefl _)
    · rcases hold k r₂ hk with ⟨_, rfl⟩ | ⟨_, hk'⟩
      · have hlt := hearlier j r₁ request₁ record₁ hj' hwrites₁ hphase₁ hsid
        rw [hme hwrites₂]
        intro heq
        rw [heq] at hlt
        exact absurd hlt (Nat.lt_irrefl _)
      · exact h.apart j k r₁ r₂ request₁ request₂ record₁ record₂ hj' hk' hwrites₁ hwrites₂ hphase₁
          hphase₂ hsid hne

/-- The accounts of a run. -/
def Within (sids : Set String) (_ : Service platform) (a : Action platform) : Prop :=
  ∀ sid, a.sid = some sid → sid ∈ sids

theorem Service.Consistent.step (h : s.Consistent sids) (ho : s.Orderly)
    (hdigest : Set.InjOn platform.digest sids) {a : Action platform} (ha : Within sids s a) :
    (s.step a).Consistent sids := by
  rcases Service.step_cases ho a with ⟨r, hrequests, hfiles, hsid, hdone⟩ | heq | ⟨i, m, r, _, hi, heq⟩
  · apply h.append hrequests hfiles _ hdone
    rcases hsid with ⟨hsid, hwaiting⟩ | ⟨_, hlane⟩
    · exact .inl ⟨ha r.sid hsid, hwaiting⟩
    · exact .inr hlane
  · rw [heq]
    exact h
  · rw [heq]
    rcases Service.written_cases (s := s) r m with hfiles | ⟨lane, record, rfl, hphase, hfiles⟩
    · by_cases hcommit : ∃ lane record, m = .commit none ∧ r.phase = .replacing lane record
      · obtain ⟨lane, record, rfl, hphase⟩ := hcommit
        apply h.committed ho hdigest hi hphase rfl
        show s.written r (.commit none) = _
        unfold Service.written
        simp only [hphase]
      · apply h.moved hi rfl hfiles
        exact fun lane record hm hphase => hcommit ⟨lane, record, hm, hphase⟩
    · exact h.committed ho hdigest hi hphase rfl hfiles

theorem Service.consistent_start (files : String → Option platform.Payload) :
    (Service.start platform files).Consistent sids := by
  constructor
  all_goals
    intros
    simp_all [Service.start]

end Invariant

section Runs

variable {sids : Set String}

/-- A state of the service that a run of these accounts comes to, from any files. -/
def Reaches (sids : Set String) (s : Service platform) : Prop :=
  ∃ files acts, (∀ a ∈ acts, ∀ sid, Action.sid platform a = some sid → sid ∈ sids) ∧
    run Service.step (Service.start platform files) acts = s

theorem Reaches.orderly (h : Reaches sids s) : s.Orderly := by
  obtain ⟨files, acts, _, rfl⟩ := h
  exact Service.orderly_run files acts

theorem throughout_within {acts : List (Action platform)}
    (h : ∀ a ∈ acts, ∀ sid, a.sid = some sid → sid ∈ sids) (s : Service platform) :
    Throughout Service.step (Within sids) s acts := by
  induction acts generalizing s with
  | nil => trivial
  | cons a acts ih =>
    rw [List.forall_mem_cons] at h
    exact ⟨h.1, ih h.2 _⟩

theorem consistent_of_run (ho : s.Orderly) (hs : s.Consistent sids)
    (hdigest : Set.InjOn platform.digest sids) {acts : List (Action platform)}
    (h : ∀ a ∈ acts, ∀ sid, a.sid = some sid → sid ∈ sids) :
    (run Service.step s acts).Orderly ∧ (run Service.step s acts).Consistent sids :=
  run_invariant (I := fun s => s.Orderly ∧ s.Consistent sids)
    (fun _ a hs ha => ⟨hs.1.step a, hs.2.step hs.1 hdigest ha⟩) ⟨ho, hs⟩ (throughout_within h s)

theorem Reaches.consistent (h : Reaches sids s) (hdigest : Set.InjOn platform.digest sids) :
    s.Consistent sids := by
  obtain ⟨files, acts, hacts, rfl⟩ := h
  exact (consistent_of_run (Service.orderly_start files) (Service.consistent_start files) hdigest
    hacts).2

/-- A request that is through stays through, and in its place. -/
theorem requests_run_of_through {i : ℕ} {r : Request platform} (ho : s.Orderly)
    (hi : s.requests[i]? = some r) (hr : r.phase.lane = none) (acts : List (Action platform)) :
    (run Service.step s acts).requests[i]? = some r := by
  have hstep : ∀ (s : Service platform) (a : Action platform),
      (s.Orderly ∧ s.requests[i]? = some r) → True →
        (s.step a).Orderly ∧ (s.step a).requests[i]? = some r := by
    intro s a hs _
    refine ⟨hs.1.step a, ?_⟩
    rcases Service.step_cases hs.1 a with ⟨r', hrequests, _⟩ | heq | ⟨j, m, r', _, hj, heq⟩
    · rw [hrequests, List.getElem?_append_left (List.getElem?_eq_some_iff.mp hs.2).1]
      exact hs.2
    · rw [heq]
      exact hs.2
    · rw [heq]
      show (s.requests.set j (s.after r' m))[i]? = some r
      by_cases hij : j = i
      · subst hij
        have hsame : r = r' := Option.some.inj (hs.2.symm.trans hj)
        subst hsame
        rw [Service.after_of_through hr, List.getElem?_set_self]
        exact (List.getElem?_eq_some_iff.mp hj).1
      · rw [List.getElem?_set_ne hij]
        exact hs.2
  exact (run_invariant (I := fun s => s.Orderly ∧ s.requests[i]? = some r) hstep ⟨ho, hi⟩
    (Throughout.of_forall (fun _ _ => trivial) s acts)).2

/-- A request about to write stays so until its commit, whatever the others do. -/
theorem requests_run_of_replacing {i lane : ℕ} {r : Request platform}
    {record : PersonalSettingsRecord} (ho : s.Orderly) (hi : s.requests[i]? = some r)
    (hr : r.phase = .replacing lane record) {acts : List (Action platform)}
    (hacts : ∀ a ∈ acts, ∀ fault, a ≠ .move i (.commit fault)) :
    ∃ r', (run Service.step s acts).requests[i]? = some r' ∧ r'.phase = .replacing lane record := by
  induction acts generalizing s r with
  | nil => exact ⟨r, hi, hr⟩
  | cons a acts ih =>
    rw [List.forall_mem_cons] at hacts
    have hnext : ∃ r', (s.step a).requests[i]? = some r' ∧ r'.phase = .replacing lane record := by
      rcases Service.step_cases ho a with ⟨r', hrequests, _⟩ | heq | ⟨j, m, r', ha, hj, heq⟩
      · refine ⟨r, ?_, hr⟩
        rw [hrequests, List.getElem?_append_left (List.getElem?_eq_some_iff.mp hi).1]
        exact hi
      · exact ⟨r, by rw [heq]; exact hi, hr⟩
      · by_cases hij : j = i
        · subst hij
          have hsame : r = r' := Option.some.inj (hi.symm.trans hj)
          subst hsame
          refine ⟨s.after r m, ?_, ?_⟩
          · rw [ha]
            exact Service.requests_move hi m
          · obtain ⟨sid, work, listening, phase⟩ := r
            have hphase : phase = .replacing lane record := hr
            subst hphase
            cases m with
            | commit fault => exact absurd ha (hacts.1 fault)
            | cancel => cases work <;> rfl
            | _ => rfl
        · refine ⟨r, ?_, hr⟩
          rw [heq]
          show (s.requests.set j (s.after r' m))[i]? = some r
          rw [List.getElem?_set_ne hij]
          exact hi
    obtain ⟨r', hi', hr'⟩ := hnext
    exact ih (ho.step a) hi' hr' hacts.2

/-- A step either leaves an account's record alone or replaces it by its successor. -/
theorem stored_step (ho : s.Orderly) (hs : s.Consistent sids)
    (hdigest : Set.InjOn platform.digest sids) (a : Action platform) {sid : String}
    (hsid : sid ∈ sids) :
    (s.step a).stored sid = s.stored sid ∨ ∃ i lane r request current record,
      a = .move i (.commit none) ∧ s.requests[i]? = some r ∧ r.sid = sid ∧
        r.phase = .replacing lane record ∧ r.Writes request ∧ s.stored sid = .ok current ∧
          replacement current request = .ok record ∧ (s.step a).stored sid = .ok record := by
  rcases Service.step_cases ho a with ⟨r, _, hfiles, _⟩ | heq | ⟨i, m, r, ha, hi, heq⟩
  · exact .inl (Service.stored_of_files hfiles sid)
  · exact .inl (by rw [heq])
  · have hfiles' : (s.step a).files = s.written r m := by rw [heq]
    rcases Service.written_cases (s := s) r m with hfiles | ⟨lane, record, rfl, hphase, hfiles⟩
    · exact .inl (Service.stored_of_files (hfiles'.trans hfiles) sid)
    · obtain ⟨request, current, hwrites, hcurrent, hrecord⟩ := hs.replacing i r lane record hi hphase
      have hmem : r.sid ∈ sids := hs.mem hi (.inl (by rw [hphase]; rfl))
      obtain ⟨hmine, hothers⟩ :=
        Service.stored_commit hdigest hmem hwrites hrecord (hfiles'.trans hfiles)
      by_cases heq' : sid = r.sid
      · subst heq'
        exact .inr ⟨i, lane, r, request, current, record, ha, hi, rfl, hphase, hwrites, hcurrent,
          hrecord, hmine⟩
      · exact .inl (hothers sid hsid heq')

/-- Revisions and the notice that something is to be recovered only go up. -/
def Onward (sids : Set String) (s s' : Service platform) : Prop :=
  ∀ sid ∈ sids, ∀ current, s.stored sid = .ok current → ∃ later, s'.stored sid = .ok later ∧
    current.revision.toNat ≤ later.revision.toNat ∧
      (current.legacyRecoveryRequired = true → later.legacyRecoveryRequired = true)

theorem onward_step (ho : s.Orderly) (hs : s.Consistent sids)
    (hdigest : Set.InjOn platform.digest sids) (a : Action platform) :
    Onward sids s (s.step a) := by
  intro sid hsid current hcurrent
  rcases stored_step ho hs hdigest a hsid with
    hsame | ⟨i, lane, r, request, current', record, _, _, _, _, _, hcurrent', hrecord, hstored⟩
  · exact ⟨current, hsame.trans hcurrent, Nat.le_refl _, id⟩
  · rw [hcurrent, Except.ok.injEq] at hcurrent'
    subst hcurrent'
    obtain ⟨_, hnext, _, hlegacy⟩ := replacement_ok hrecord
    refine ⟨record, hstored, by omega, ?_⟩
    intro hold
    rw [hlegacy, hold, Bool.true_or]

theorem onward_run (ho : s.Orderly) (hs : s.Consistent sids)
    (hdigest : Set.InjOn platform.digest sids) {acts : List (Action platform)}
    (h : ∀ a ∈ acts, ∀ sid, a.sid = some sid → sid ∈ sids) :
    Onward sids s (run Service.step s acts) := by
  apply run_relates (I := fun s => s.Orderly ∧ s.Consistent sids) (P := Within sids)
    (R := Onward sids)
  · exact fun s sid _ current hcurrent => ⟨current, hcurrent, Nat.le_refl _, id⟩
  · intro s t u hst htu sid hsid current hcurrent
    obtain ⟨middle, hmiddle, hle, hkeep⟩ := hst sid hsid current hcurrent
    obtain ⟨later, hlater, hle', hkeep'⟩ := htu sid hsid middle hmiddle
    exact ⟨later, hlater, hle.trans hle', fun hlegacy => hkeep' (hkeep hlegacy)⟩
  · exact fun s a hs ha => ⟨hs.1.step a, hs.2.step hs.1 hdigest ha⟩
  · exact fun s a hs _ => onward_step hs.1 hs.2 hdigest a
  · exact ⟨ho, hs⟩
  · exact throughout_within h s

/-- A move reads and writes the file of its own account only. -/
theorem step_withFiles (s : Service platform) (a : Action platform)
    (files : String → Option platform.Payload)
    (h : ∀ i m r, a = .move i m → s.requests[i]? = some r →
      files (recordPath platform r.sid) = s.files (recordPath platform r.sid)) :
    let t := ({ s with files := files } : Service platform).step a
    t = { s.step a with files := t.files } ∧ ∀ path, t.files path = files path ∨
      ∃ i m r, a = .move i m ∧ s.requests[i]? = some r ∧ path = recordPath platform r.sid ∧
        t.files path = (s.step a).files path := by
  intro t
  have haccount : ∀ sid late, ({ s with files := files } : Service platform).account sid late =
      ({ (s.account sid late).1 with files := files }, (s.account sid late).2) := by
    intro sid late
    unfold Service.account
    simp only [show Service.alive ({ s with files := files } : Service platform) = s.alive from rfl]
    split
    · rfl
    · split <;> rfl
  have henter : ∀ sid work late, ({ s with files := files } : Service platform).enter sid work late =
      { s.enter sid work late with files := files } := by
    intro sid work late
    unfold Service.enter
    rw [haccount]
    generalize s.account sid late = granted
    obtain ⟨s', lane⟩ := granted
    cases lane <;> rfl
  cases a with
  | call peer verb args late =>
    have ht : t = { s.step (.call peer verb args late) with files := files } := by
      show Service.step _ _ = _
      unfold Service.step
      dsimp only
      split
      · rfl
      · exact henter _ _ _
    exact ⟨by rw [ht], fun path => .inl (by rw [ht])⟩
  | cleanup sid late =>
    have ht : t = { s.step (.cleanup sid late) with files := files } := henter _ _ _
    exact ⟨by rw [ht], fun path => .inl (by rw [ht])⟩
  | move i m =>
    cases hi : s.requests[i]? with
    | none =>
      have ht : t = { s with files := files } := by
        show Service.step _ _ = _
        unfold Service.step
        dsimp only
        rw [hi]
      have hs : s.step (.move i m) = s := by
        unfold Service.step
        dsimp only
        rw [hi]
      rw [ht, hs]
      exact ⟨rfl, fun path => .inl rfl⟩
    | some r =>
      have hfile := h i m r rfl hi
      have hafter : ({ s with files := files } : Service platform).after r m = s.after r m := by
        cases m with
        | read fault =>
          unfold Service.after Service.worked
          dsimp only
          rw [hfile]
        | _ => rfl
      have ht : t = { s.settle i r (s.after r m) with
          files := ({ s with files := files } : Service platform).written r m } := by
        show Service.step _ _ = _
        rw [Service.step_move (s := { s with files := files }) hi, hafter]
        rfl
      rw [Service.step_move hi, ht]
      refine ⟨rfl, fun path => ?_⟩
      dsimp only
      rcases Service.written_cases (s := { s with files := files }) r m with
        hfiles | ⟨lane, record, rfl, hphase, hfiles⟩
      · exact .inl (by rw [hfiles])
      · by_cases hpath : path = recordPath platform r.sid
        · refine .inr ⟨i, .commit none, r, rfl, hi, hpath, ?_⟩
          rw [hfiles, hpath, Function.update_self]
          unfold Service.written
          simp only [hphase, Function.update_self]
        · rw [hfiles, Function.update_of_ne hpath]
          exact .inl rfl

end Runs

section Contract

/-- The store of the personal settings under any order of requests.  Digests are assumed to tell the
accounts of a run apart. -/
structure ServiceContract (platform : Platform) : Prop where
  exclusive : ∀ (sids : Set String) (s : Service platform), Reaches sids s →
    ∀ (i j : ℕ) (r r' : Request platform), s.requests[i]? = some r → s.requests[j]? = some r' → r.sid = r'.sid →
      r.phase.inTransaction = true → r'.phase.inTransaction = true → i = j
  swaps : ∀ (sids : Set String) (s : Service platform), Set.InjOn platform.digest sids →
    Reaches sids s → ∀ (i lane : ℕ) (r : Request platform) request current
      (during : List (Action platform)), s.requests[i]? = some r →
      r.phase = .transacting lane → r.Writes request → s.stored r.sid = .ok current →
        current.revision.toNat + 1 < 2 ^ 64 →
          (∀ a ∈ during, ∀ fault, a ≠ .move i (.commit fault)) →
            ((∃ r' record,
              (run Service.step s (.move i (.read none) :: during ++ [.move i (.commit none)])).requests[i]? =
                some r' ∧ r'.phase = .done (.ok (.record record))) ↔
              request.expectedRevision = current.revision)
  advances : ∀ (sids : Set String) (s : Service platform), Set.InjOn platform.digest sids →
    Reaches sids s → ∀ a (i : ℕ) (r : Request platform) request record, (s.step a).requests[i]? = some r → r.Writes request →
      r.phase = .done (.ok (.record record)) → s.requests[i]? ≠ some r →
        ∃ current, s.stored r.sid = .ok current ∧ request.expectedRevision = current.revision ∧
          record.revision.toNat = current.revision.toNat + 1 ∧
            record.value = some request.value ∧ (s.step a).stored r.sid = .ok record
  once : ∀ (sids : Set String) (s : Service platform), Set.InjOn platform.digest sids →
    Reaches sids s → ∀ (i j : ℕ) (r r' : Request platform) request request' record record',
      s.requests[i]? = some r →
      s.requests[j]? = some r' → r.Writes request → r'.Writes request' →
        r.phase = .done (.ok (.record record)) → r'.phase = .done (.ok (.record record')) →
          r.sid = r'.sid → i ≠ j → request.expectedRevision ≠ request'.expectedRevision
  refused : ∀ (files : String → Option platform.Payload) xs i m ys
    (r : Request platform),
    (run Service.step (Service.start platform files) (xs ++ .move i m :: ys)).requests[i]? = some r →
      (∀ reply, r.phase ≠ .done (.ok reply)) →
        ((run Service.step (Service.start platform files) xs).step (.move i m)).files =
          (run Service.step (Service.start platform files) xs).files
  isolated : ∀ (s : Service platform) (a : Action platform) (files : String → Option platform.Payload),
    (∀ i m r, a = .move i m → s.requests[i]? = some r →
      files (recordPath platform r.sid) = s.files (recordPath platform r.sid)) →
        let t := ({ s with files := files } : Service platform).step a
        t = { s.step a with files := t.files } ∧ ∀ path, t.files path = files path ∨
          ∃ i m r, a = .move i m ∧ s.requests[i]? = some r ∧ path = recordPath platform r.sid ∧
            t.files path = (s.step a).files path
  others : ∀ (sids : Set String) (s : Service platform), Set.InjOn platform.digest sids →
    Reaches sids s → ∀ i m (r : Request platform), s.requests[i]? = some r → ∀ sid ∈ sids, sid ≠ r.sid →
      (s.step (.move i m)).stored sid = s.stored sid
  sticky : ∀ (sids : Set String) (s : Service platform), Set.InjOn platform.digest sids →
    Reaches sids s → ∀ acts, (∀ a ∈ acts, ∀ sid, Action.sid platform a = some sid → sid ∈ sids) →
      ∀ sid ∈ sids, ∀ current, s.stored sid = .ok current → current.legacyRecoveryRequired = true →
        ∃ later, (run Service.step s acts).stored sid = .ok later ∧
          later.legacyRecoveryRequired = true

private theorem swap {i lane : ℕ} {r : Request platform}
    {request : WritePersonalSettingsRequest} {current : PersonalSettingsRecord}
    {during : List (Action platform)} (ho : s.Orderly) (hi : s.requests[i]? = some r)
    (hphase : r.phase = .transacting lane) (hwrites : r.Writes request)
    (hcurrent : s.stored r.sid = .ok current)
    (hduring : ∀ a ∈ during, ∀ fault, a ≠ .move i (.commit fault)) :
    (∃ r' record,
      (run Service.step s (.move i (.read none) :: during ++ [.move i (.commit none)])).requests[i]? =
        some r' ∧ r'.phase = .done (.ok (.record record))) ↔
      ∃ record, replacement current request = .ok record := by
  obtain ⟨verb, args, hwork, hparse⟩ := hwrites
  have hprepared := prepare_write hparse hcurrent
  have hread : s.after r (.read none) = { r with phase := s.worked r lane none } := by
    unfold Service.after
    simp only [hphase]
  have hreq := Service.requests_move hi (.read none)
  rw [hread] at hreq
  have horder := ho.step (.move i (.read none))
  rw [List.cons_append, run_cons, run_append, run_cons, run_nil]
  generalize s.step (.move i (.read none)) = s₁ at hreq horder
  cases hrecord : replacement current request with
  | error error =>
    have hworked : s.worked r lane none = .done (.error error) := by
      unfold Service.worked
      rw [hwork]
      dsimp only
      rw [hprepared, hrecord]
      rfl
    rw [hworked] at hreq
    have hend := requests_run_of_through horder hreq rfl (during ++ [.move i (.commit none)])
    rw [run_append, run_cons, run_nil] at hend
    simp [hend]
  | ok record =>
    have hworked : s.worked r lane none = .replacing lane record := by
      unfold Service.worked
      rw [hwork]
      dsimp only
      rw [hprepared, hrecord]
      rfl
    rw [hworked] at hreq
    obtain ⟨r', hr', hphase'⟩ := requests_run_of_replacing horder hreq rfl hduring
    have hend := Service.requests_move hr' (.commit none)
    refine iff_of_true ⟨_, record, hend, ?_⟩ ⟨record, rfl⟩
    unfold Service.after
    simp only [hphase']

private theorem advanced {sids : Set String} (ho : s.Orderly) (hs : s.Consistent sids)
    (hdigest : Set.InjOn platform.digest sids) {a : Action platform} {i : ℕ} {r : Request platform}
    {request : WritePersonalSettingsRequest} {record : PersonalSettingsRecord}
    (hi : (s.step a).requests[i]? = some r) (hwrites : r.Writes request)
    (hphase : r.phase = .done (.ok (.record record))) (hnew : s.requests[i]? ≠ some r) :
    ∃ current, s.stored r.sid = .ok current ∧ request.expectedRevision = current.revision ∧
      record.revision.toNat = current.revision.toNat + 1 ∧
        record.value = some request.value ∧ (s.step a).stored r.sid = .ok record := by
  rcases Service.step_cases ho a with ⟨r', hrequests, _, _, hdone⟩ | heq | ⟨j, m, r', _, hj, heq⟩
  · rw [hrequests] at hi
    rcases getElem?_append_singleton hi with hi | ⟨_, rfl⟩
    · exact absurd hi hnew
    · obtain ⟨error, herror⟩ := hdone _ hphase
      exact absurd herror (by simp)
  · rw [heq] at hi
    exact absurd hi hnew
  · have hset : (s.requests.set j (s.after r' m))[i]? = some r := by rw [heq] at hi; exact hi
    rcases getElem?_set hset with ⟨rfl, rfl⟩ | ⟨_, hi⟩
    · have hmoved := Service.moved_after (s := s) r' m
      have hwrites' := hwrites.of_work hmoved.work
      rcases Service.after_done hwrites' hphase with hsame | ⟨lane, hreplacing, rfl⟩
      · rw [Service.after_of_through (by rw [hsame]; rfl)] at hnew
        exact absurd hj hnew
      · obtain ⟨request', current, hrequest', hcurrent, hrecord⟩ :=
          hs.replacing i r' lane record hj hreplacing
        rw [hrequest'.unique hwrites'] at hrecord
        obtain ⟨hexpected, hnext, hvalue, _⟩ := replacement_ok hrecord
        have hmem : r'.sid ∈ sids := hs.mem hj (.inl (by rw [hreplacing]; rfl))
        have hfiles : (s.step a).files = Function.update s.files (recordPath platform r'.sid)
            (some (encrypted platform r'.sid record)) := by
          rw [heq]
          show s.written r' (.commit none) = _
          unfold Service.written
          simp only [hreplacing]
        rw [hmoved.sid]
        exact ⟨current, hcurrent, hexpected, hnext, hvalue,
          (Service.stored_commit hdigest hmem hwrites' hrecord hfiles).1⟩
    · exact absurd hi hnew

theorem serviceContract (platform : Platform) : ServiceContract platform := by
  constructor
  case exclusive =>
    intro sids s hs i j r r' hi hj hsid ht ht'
    exact hs.orderly.eq_of_inTransaction hi hj hsid ht ht'
  case swaps =>
    intro sids s _ hs i lane r request current during hi hphase hwrites hcurrent hbound hduring
    rw [swap hs.orderly hi hphase hwrites hcurrent hduring]
    exact replacement_isOk_iff hbound
  case advances =>
    intro sids s hdigest hs a i r request record hi hwrites hphase hnew
    exact advanced hs.orderly (hs.consistent hdigest) hdigest hi hwrites hphase hnew
  case once =>
    intro sids s hdigest hs
    exact (hs.consistent hdigest).apart
  case refused =>
    intro files xs i m ys r hend hphase
    rw [run_append, run_cons] at hend
    have horder := Service.orderly_run files xs
    generalize run Service.step (Service.start platform files) xs = s at hend horder
    cases hi : s.requests[i]? with
    | none =>
      unfold Service.step
      dsimp only
      rw [hi]
    | some r' =>
      rw [Service.step_move hi]
      rcases Service.written_cases (s := s) r' m with hfiles | ⟨lane, record, rfl, hreplacing, _⟩
      · exact hfiles
      · have hdone : s.after r' (.commit none) = { r' with phase := .done (.ok (.record record)) } := by
          unfold Service.after
          simp only [hreplacing]
        have hnext := Service.requests_move hi (.commit none)
        rw [hdone] at hnext
        rw [requests_run_of_through (horder.step _) hnext rfl ys, Option.some.injEq] at hend
        exact absurd (by rw [← hend]) (hphase (.record record))
  case isolated => exact step_withFiles
  case others =>
    intro sids s hdigest hs i m r hi sid hsid hne
    rcases stored_step hs.orderly (hs.consistent hdigest) hdigest (.move i m) hsid with
      hsame | ⟨j, _, r', _, _, _, ha, hj, hr', _⟩
    · exact hsame
    · cases ha
      rw [hi, Option.some.injEq] at hj
      subst hj
      exact absurd hr'.symm hne
  case sticky =>
    intro sids s hdigest hs acts hacts sid hsid current hcurrent hlegacy
    obtain ⟨later, hlater, _, hkeep⟩ :=
      onward_run hs.orderly (hs.consistent hdigest) hdigest hacts sid hsid current hcurrent
    exact ⟨later, hlater, hkeep hlegacy⟩

/-- A platform whose files name their account and hold the record as it is. -/
def plainPlatform : Platform where
  Payload := String × StoredRecord
  size _ := 0
  toVec _ := []
  readable _ := True
  protect sid stored := (sid, stored)
  unprotect sid payload := if payload.1 = sid then some payload.2 else none
  digest sid := sid
  unprotect_protect _ _ _ _ _ := if_pos rfl
  size_protect _ _ _ _ _ := Nat.zero_le _

/-- A write at the stored revision whose value is no object is refused. -/
theorem scalar_refused : ¬ ∀ (s : Service plainPlatform), Reaches Set.univ s →
    ∀ i lane (r : Request plainPlatform) args request current, s.requests[i]? = some r →
      r.phase = .transacting lane → r.work = .request writePersonalSettingsVerb args →
        writeRequest args.value = .ok request → s.stored r.sid = .ok current →
          ((∃ r' record, (run Service.step s
            [.move i (.read none), .move i (.commit none)]).requests[i]? = some r' ∧
              r'.phase = .done (.ok (.record record))) ↔
            request.expectedRevision = current.revision) := by
  intro h
  let args : Args plainPlatform := ⟨.object [("expectedRevision", Serde.ofNatural 0),
    ("value", .null), ("legacyRecoveryRequired", .bool false)], fun _ _ => trivial⟩
  let acts : List (Action plainPlatform) := [.call (some "S-1-5-21-42") writePersonalSettingsVerb args [],
    .move 0 .acquire, .move 0 .acquire, .move 0 .acquire]
  have hreaches : Reaches Set.univ (run Service.step (Service.start plainPlatform fun _ => none) acts) :=
    ⟨fun _ => none, acts, fun _ _ _ _ => trivial, rfl⟩
  have hiff := h _ hreaches 0 0 ⟨"S-1-5-21-42", .request writePersonalSettingsVerb args, true,
    .transacting 0⟩ args ⟨0, .null, false⟩ defaultRecord rfl rfl rfl rfl rfl
  obtain ⟨r', record, hr', hphase⟩ := hiff.mpr rfl
  have hend : (run Service.step (run Service.step (Service.start plainPlatform fun _ => none) acts)
      [.move 0 (.read none), .move 0 (.commit none)]).requests[0]? =
        some ⟨"S-1-5-21-42", .request writePersonalSettingsVerb args, true,
          .done (.error invalid)⟩ := rfl
  rw [hend, Option.some.injEq] at hr'
  rw [← hr'] at hphase
  exact absurd hphase (by simp)

end Contract

end SettingsService
