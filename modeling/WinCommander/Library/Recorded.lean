import WinCommander.Library.Fallible

/-!
# Actions on record

The state of an action is the record of what it did.  An action that stops at the first event that is
not in order has nothing but good events behind the last one.
-/

universe u

namespace Fallible

variable {E ε α β : Type u}

/-- Ask for an answer, put it on record, and fail where it is a failure. -/
def recorded {ε' : Type u} (fail : ε' → ε) (answer : ℕ → Except ε' α) (event : Except ε' α → E) :
    Fallible (List E) ε α := fun log =>
  ((answer log.length).mapError fail, log ++ [event (answer log.length)])

theorem recorded_ok {ε' : Type u} {fail : ε' → ε} {answer : ℕ → Except ε' α}
    {event : Except ε' α → E} {a : α} {log log' : List E} :
    recorded fail answer event log = (.ok a, log') ↔
      answer log.length = .ok a ∧ log' = log ++ [event (.ok a)] := by
  unfold recorded
  cases h : answer log.length with
  | error e => simp [Except.mapError]
  | ok b =>
    simp only [Except.mapError, Prod.mk.injEq, Except.ok.injEq]
    constructor
    · rintro ⟨hb, hlog⟩
      rw [← hlog, hb]
      exact ⟨rfl, rfl⟩
    · rintro ⟨hb, hlog⟩
      rw [hlog, hb]
      exact ⟨rfl, rfl⟩

/-- Put an event on record and go on. -/
def observe (event : E) : Fallible (List E) ε PUnit := fun log => (.ok ⟨⟩, log ++ [event])

theorem observe_ok {event : E} {u : PUnit} {log log' : List E} :
    (observe event : Fallible (List E) ε PUnit) log = (.ok u, log') ↔ log' = log ++ [event] := by
  simp [observe, eq_comm]

/-- An action adds events of a kind to the record; but for the last one they are good, and so is the
last one if the action succeeds. -/
structure Stops (kind good : E → Prop) (log : List E) (result : Except ε α × List E)
    (added : List E) : Prop where
  record : result.2 = log ++ added
  kinds : ∀ e ∈ added, kind e
  before : ∀ e ∈ added.dropLast, good e
  success : ∀ a, result.1 = .ok a → ∀ e ∈ added, good e

def StopsAt (kind good : E → Prop) (x : Fallible (List E) ε α) (log : List E) : Prop :=
  ∃ added, Stops kind good log (x log) added

variable {kind good : E → Prop} {x : Fallible (List E) ε α} {log : List E}

theorem stopsAt_quiet (h : (x log).2 = log) : StopsAt kind good x log :=
  ⟨[], by rw [h, List.append_nil], by simp, by simp, by simp⟩

/-- One event, which is good if the action succeeds. -/
theorem stopsAt_one {e : E} (hrecord : (x log).2 = log ++ [e]) (hkind : kind e)
    (hgood : ∀ a, (x log).1 = .ok a → good e) : StopsAt kind good x log := by
  refine ⟨[e], hrecord, by simpa using hkind, by simp, ?_⟩
  intro a ha e' he'
  rw [List.mem_singleton.mp he']
  exact hgood a ha

theorem stopsAt_observe {event : E} (hkind : kind event) (hgood : good event) :
    StopsAt kind good (observe event : Fallible (List E) ε PUnit) log :=
  stopsAt_one rfl hkind fun _ _ => hgood

theorem stopsAt_recorded {ε' : Type u} {fail : ε' → ε} {answer : ℕ → Except ε' α}
    {event : Except ε' α → E} (hkind : kind (event (answer log.length)))
    (hgood : ∀ a, answer log.length = .ok a → good (event (.ok a))) :
    StopsAt kind good (recorded fail answer event) log := by
  apply stopsAt_one rfl hkind
  intro a ha
  cases hanswer : answer log.length with
  | ok b => exact hgood b hanswer
  | error e => simp [recorded, hanswer, Except.mapError] at ha

theorem StopsAt.bind {f : α → Fallible (List E) ε β} (hx : StopsAt kind good x log)
    (hf : ∀ a log', x log = (.ok a, log') → StopsAt kind good (f a) log') :
    StopsAt kind good (x >>= f) log := by
  obtain ⟨added, hadded⟩ := hx
  rw [StopsAt, bind_apply]
  cases hresult : x log with
  | mk r log₁ =>
    rw [hresult] at hadded
    have hlog : log₁ = log ++ added := hadded.record
    cases r with
    | error e =>
      exact ⟨added, hlog, hadded.kinds, hadded.before, fun a h => absurd h (by simp)⟩
    | ok a =>
      have hfirst : ∀ e ∈ added, good e := hadded.success a rfl
      obtain ⟨more, hmore⟩ := hf a log₁ hresult
      refine ⟨added ++ more, ?_, ?_, ?_, ?_⟩
      · rw [hmore.record, hlog, List.append_assoc]
      · intro e he
        exact (List.mem_append.mp he).elim (hadded.kinds e) (hmore.kinds e)
      · intro e he
        by_cases hempty : more = []
        · rw [hempty, List.append_nil] at he
          exact hfirst e (added.dropLast_sublist.subset he)
        · rw [List.dropLast_append_of_ne_nil hempty] at he
          exact (List.mem_append.mp he).elim (hfirst e) (hmore.before e)
      · intro b hb e he
        exact (List.mem_append.mp he).elim (hfirst e) (hmore.success b hb e)

theorem StopsAt.mono {kind' : E → Prop} (h : StopsAt kind good x log)
    (hkind : ∀ e, kind e → kind' e) : StopsAt kind' good x log := by
  obtain ⟨added, hadded⟩ := h
  exact ⟨added, hadded.record, fun e he => hkind e (hadded.kinds e he), hadded.before,
    hadded.success⟩

theorem StopsAt.extends (h : StopsAt kind good x log) : ∃ added, (x log).2 = log ++ added := by
  obtain ⟨added, hadded⟩ := h
  exact ⟨added, hadded.record⟩

/-- An action that records nothing. -/
def Quiet (x : Fallible (List E) ε α) : Prop := ∀ log, (x log).2 = log

theorem quiet_pure (a : α) : Quiet (pure a : Fallible (List E) ε α) := fun _ => rfl

theorem quiet_ask (f : List E → Except ε α) : Quiet (ask f) := fun _ => rfl

theorem bind_record {f : α → Fallible (List E) ε β} (hf : ∀ a, Quiet (f a)) (log : List E) :
    ((x >>= f) log).2 = (x log).2 := by
  rw [bind_apply]
  cases x log with
  | mk r log₁ =>
    cases r with
    | error e => rfl
    | ok a => exact hf a log₁

theorem Quiet.bind {f : α → Fallible (List E) ε β} (hx : Quiet x) (hf : ∀ a, Quiet (f a)) :
    Quiet (x >>= f) := fun log => (bind_record hf log).trans (hx log)

theorem bind_extends {f : α → Fallible (List E) ε β}
    (hf : ∀ a log, StopsAt kind good (f a) log) (log : List E) :
    ∃ more, ((x >>= f) log).2 = (x log).2 ++ more := by
  rw [bind_apply]
  cases x log with
  | mk r log₁ =>
    cases r with
    | error e => exact ⟨[], by rw [List.append_nil]⟩
    | ok a => exact (hf a log₁).extends

theorem bind_of_ok {f : α → Fallible (List E) ε β} {a : α} {log' : List E}
    (h : x log = (.ok a, log')) : (x >>= f) log = f a log' := by
  rw [bind_apply, h]

theorem StopsAt.each {f : α → Fallible (List E) ε PUnit}
    (h : ∀ a log, StopsAt kind good (f a) log) (xs : List α) (log : List E) :
    StopsAt kind good (Fallible.each f xs) log := by
  induction xs generalizing log with
  | nil => exact stopsAt_quiet rfl
  | cons x xs ih => exact (h x log).bind fun _ log' _ => ih log'

theorem StopsAt.collect {f : α → Fallible (List E) ε β}
    (h : ∀ a log, StopsAt kind good (f a) log) (xs : List α) (log : List E) :
    StopsAt kind good (Fallible.collect f xs) log := by
  induction xs generalizing log with
  | nil => exact stopsAt_quiet rfl
  | cons x xs ih =>
    exact (h x log).bind fun b log' _ => (ih log').bind fun bs log'' _ => stopsAt_quiet rfl

/-- An event that the first part of a record does not have comes after it. -/
theorem before_of_append {first more before after : List E} {e : E}
    (h : first ++ more = before ++ e :: after) (he : e ∉ first) :
    ∃ rest, before = first ++ rest := by
  rcases List.append_eq_append_iff.mp h with ⟨rest, hbefore, -⟩ | ⟨rest, hfirst, hrest⟩
  · exact ⟨rest, hbefore⟩
  · cases rest with
    | nil => exact ⟨[], by rw [hfirst, List.append_nil, List.append_nil]⟩
    | cons e' rest =>
      have hhead : e = e' := (List.cons.inj hrest).1
      rw [hfirst, hhead] at he
      exact absurd (List.mem_append_right before List.mem_cons_self) he

/-- From an empty record: an event that is not good is the last one, and the action failed. -/
theorem StopsAt.split (h : StopsAt kind good x []) {before after : List E} {e : E}
    (hlog : (x []).2 = before ++ e :: after) (he : ¬ good e) :
    after = [] ∧ ∃ failure, (x []).1 = .error failure := by
  obtain ⟨added, hadded⟩ := h
  have hsplit : added = before ++ e :: after := by
    rw [← hlog, hadded.record, List.nil_append]
  constructor
  · by_contra hafter
    apply he
    apply hadded.before
    rw [hsplit, List.dropLast_append_of_ne_nil (by simp), List.dropLast_cons_of_ne_nil hafter]
    exact List.mem_append_right before List.mem_cons_self
  · cases hr : (x []).1 with
    | error failure => exact ⟨failure, rfl⟩
    | ok a => exact absurd (hadded.success a hr e (by simp [hsplit])) he

end Fallible
