import Mathlib.Data.List.Nodup
import Mathlib.Data.List.Basic

/-!
# The first of each key

A pass over a list that keeps what has a key that was not seen before.
-/

namespace FirstOfKey

variable {α κ : Type*} [DecidableEq κ] (key : α → κ)

def firsts (seen : List κ) : List α → List α
  | [] => []
  | a :: as => if key a ∈ seen then firsts seen as else a :: firsts (key a :: seen) as

variable {key}

@[simp] theorem firsts_nil (seen : List κ) : firsts key seen [] = [] := rfl

theorem firsts_cons_of_mem {seen : List κ} {a : α} {as : List α} (h : key a ∈ seen) :
    firsts key seen (a :: as) = firsts key seen as := if_pos h

theorem firsts_cons_of_not_mem {seen : List κ} {a : α} {as : List α} (h : key a ∉ seen) :
    firsts key seen (a :: as) = a :: firsts key (key a :: seen) as := if_neg h

theorem mem_firsts {seen : List κ} {as : List α} {a : α} :
    a ∈ firsts key seen as ↔ key a ∉ seen ∧ as.find? (key · = key a) = some a := by
  induction as generalizing seen with
  | nil => simp
  | cons b as ih =>
    by_cases hb : key b ∈ seen
    · rw [firsts_cons_of_mem hb, ih]
      by_cases hsame : key b = key a
      · simp [hsame ▸ hb]
      · simp [hsame]
    · rw [firsts_cons_of_not_mem hb, List.mem_cons, ih, List.mem_cons, not_or]
      by_cases hsame : key b = key a
      · rw [List.find?_cons, hsame] at *
        simp only [decide_true, Option.some.injEq]
        constructor
        · rintro (rfl | h)
          · exact ⟨hb, rfl⟩
          · exact absurd trivial h.1.1
        · rintro ⟨-, rfl⟩
          exact .inl rfl
      · have hne : a ≠ b := fun h => hsame (congrArg key h.symm)
        have hkey : key a ≠ key b := Ne.symm hsame
        simp [hsame, hne, hkey]

theorem nodup_firsts (seen : List κ) (as : List α) : ((firsts key seen as).map key).Nodup := by
  induction as generalizing seen with
  | nil => simp
  | cons a as ih =>
    by_cases ha : key a ∈ seen
    · rw [firsts_cons_of_mem ha]
      exact ih seen
    · rw [firsts_cons_of_not_mem ha, List.map_cons, List.nodup_cons]
      refine ⟨?_, ih (key a :: seen)⟩
      intro hmem
      obtain ⟨b, hb, hkey⟩ := List.mem_map.mp hmem
      have hunseen := (mem_firsts.mp hb).1
      exact hunseen (hkey ▸ List.mem_cons_self)

/-- What is the only one with its key is kept, in order. -/
theorem filter_sublist_firsts {seen : List κ} {as : List α} {p : α → Bool}
    (honce : ∀ a ∈ as, p a = true → key a ∉ seen ∧ as.countP (key · = key a) = 1) :
    (as.filter p).Sublist (firsts key seen as) := by
  induction as generalizing seen with
  | nil => simp
  | cons b as ih =>
    have hrest : ∀ a ∈ as, p a = true → key b ≠ key a ∧ as.countP (key · = key a) = 1 := by
      intro a ha hp
      have hcount := (honce a (List.mem_cons_of_mem b ha) hp).2
      have hpos : 0 < as.countP (key · = key a) := List.countP_pos_iff.mpr ⟨a, ha, by simp⟩
      by_cases hsame : key b = key a
      · simp only [List.countP_cons, hsame, decide_true, if_true] at hcount
        omega
      · simp only [List.countP_cons, hsame, decide_false, Bool.false_eq_true, if_false,
          Nat.add_zero] at hcount
        exact ⟨hsame, hcount⟩
    by_cases hb : key b ∈ seen
    · have hskip : p b = false := by
        by_contra hp
        exact (honce b List.mem_cons_self (by simpa using hp)).1 hb
      rw [firsts_cons_of_mem hb, List.filter_cons_of_neg (by simp [hskip])]
      apply ih
      intro a ha hp
      exact ⟨(honce a (List.mem_cons_of_mem b ha) hp).1, (hrest a ha hp).2⟩
    · have hsub : (as.filter p).Sublist (firsts key (key b :: seen) as) := by
        apply ih
        intro a ha hp
        have hunseen := (honce a (List.mem_cons_of_mem b ha) hp).1
        have hkeep := hrest a ha hp
        exact ⟨by simp [hunseen, Ne.symm hkeep.1], hkeep.2⟩
      rw [firsts_cons_of_not_mem hb]
      cases hp : p b with
      | true =>
        rw [List.filter_cons_of_pos hp]
        exact hsub.cons_cons b
      | false =>
        rw [List.filter_cons_of_neg (by simp [hp])]
        exact hsub.cons b

/-- What was seen is passed over. -/
theorem firsts_append_of_seen {seen : List κ} {as bs : List α} (h : ∀ a ∈ as, key a ∈ seen) :
    firsts key seen (as ++ bs) = firsts key seen bs := by
  induction as with
  | nil => rfl
  | cons a as ih =>
    rw [List.cons_append, firsts_cons_of_mem (h a List.mem_cons_self)]
    exact ih fun b hb => h b (List.mem_cons_of_mem a hb)

theorem firsts_eq_self (seen : List κ) {as : List α} (hnd : (as.map key).Nodup)
    (hunseen : ∀ a ∈ as, key a ∉ seen) : firsts key seen as = as := by
  induction as generalizing seen with
  | nil => rfl
  | cons a as ih =>
    rw [List.map_cons, List.nodup_cons] at hnd
    rw [firsts_cons_of_not_mem (hunseen a List.mem_cons_self), ih (key a :: seen) hnd.2]
    intro b hb hseen
    rcases List.mem_cons.mp hseen with hsame | hold
    · exact hnd.1 (hsame ▸ List.mem_map_of_mem hb)
    · exact hunseen b (List.mem_cons_of_mem a hb) hold

theorem filter_eq_singleton {as : List α} (hnd : (as.map key).Nodup) {a : α} (ha : a ∈ as) :
    as.filter (key · = key a) = [a] := by
  induction as with
  | nil => exact absurd ha List.not_mem_nil
  | cons b as ih =>
    rw [List.map_cons, List.nodup_cons] at hnd
    rcases List.mem_cons.mp ha with rfl | hmem
    · have hrest : as.filter (key · = key a) = [] := by
        apply List.filter_eq_nil_iff.mpr
        intro c hc hsame
        have hkey : key c = key a := by simpa using hsame
        exact hnd.1 (hkey ▸ List.mem_map_of_mem hc)
      rw [List.filter_cons_of_pos (by simp), hrest]
    · have hne : key b ≠ key a := fun h => hnd.1 (h ▸ List.mem_map_of_mem hmem)
      rw [List.filter_cons_of_neg (by simpa using hne), ih hnd.2 hmem]

end FirstOfKey
