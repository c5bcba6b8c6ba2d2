import Mathlib.Logic.Function.Iterate

/-!
# The Gregorian calendar

Days are counted from the first day of the year 0, before which the calendar does not go. Later
days have later dates, and the first days of the years are where they should be.
-/

namespace Calendar

variable {m n y : Nat}

structure Date where
  year : Nat
  month : Nat
  day : Nat
deriving DecidableEq

def isLeap (y : Nat) : Bool := y % 4 = 0 ∧ (y % 100 ≠ 0 ∨ y % 400 = 0)

def daysInMonth (y m : Nat) : Nat :=
  if m = 2 then if isLeap y then 29 else 28
  else if m = 4 ∨ m = 6 ∨ m = 9 ∨ m = 11 then 30
  else 31

def Date.next (d : Date) : Date :=
  if d.day < daysInMonth d.year d.month then ⟨d.year, d.month, d.day + 1⟩
  else if d.month < 12 then ⟨d.year, d.month + 1, 1⟩
  else ⟨d.year + 1, 1, 1⟩

def date (n : Nat) : Date := Date.next^[n] ⟨0, 1, 1⟩

structure Date.Valid (d : Date) : Prop where
  month_pos : 1 ≤ d.month
  month_le : d.month ≤ 12
  day_pos : 1 ≤ d.day
  day_le : d.day ≤ daysInMonth d.year d.month

theorem daysInMonth_bounds (y m : Nat) : 28 ≤ daysInMonth y m ∧ daysInMonth y m ≤ 31 := by
  rw [daysInMonth]
  split
  · split <;> omega
  · split <;> omega

theorem Date.Valid.next {d : Date} (h : d.Valid) : d.next.Valid := by
  have hfirst : ∀ y m, 1 ≤ daysInMonth y m := fun y m =>
    Nat.le_trans (by decide) (daysInMonth_bounds y m).1
  rw [Date.next]
  split
  · next hday => exact ⟨h.month_pos, h.month_le, Nat.le_add_left _ _, hday⟩
  · split
    · next hmonth => exact ⟨Nat.le_add_left _ _, hmonth, Nat.le_refl _, hfirst _ _⟩
    · exact ⟨Nat.le_refl _, show 1 ≤ 12 by decide, Nat.le_refl _, hfirst _ _⟩

theorem date_succ : date (n + 1) = (date n).next :=
  Function.iterate_succ_apply' Date.next n _

theorem valid_date (n : Nat) : (date n).Valid := by
  induction n with
  | zero => exact ⟨by decide, by decide, by decide, by decide⟩
  | succ n ih =>
    rw [date_succ]
    exact ih.next

/-! ### Order -/

def Date.Before (d e : Date) : Prop :=
  d.year < e.year ∨ d.year = e.year ∧ (d.month < e.month ∨ d.month = e.month ∧ d.day < e.day)

theorem Date.Before.trans {d e f : Date} (h : d.Before e) (h' : e.Before f) : d.Before f := by
  unfold Date.Before at h h' ⊢
  omega

theorem Date.before_next {d : Date} : d.Before d.next := by
  rw [Date.next]
  split
  · exact .inr ⟨rfl, .inr ⟨rfl, Nat.lt_succ_self _⟩⟩
  · split
    · exact .inr ⟨rfl, .inl (Nat.lt_succ_self _)⟩
    · exact .inl (Nat.lt_succ_self _)

theorem date_before (h : m < n) : (date m).Before (date n) := by
  induction n with
  | zero => exact absurd h (Nat.not_lt_zero m)
  | succ n ih =>
    rw [date_succ]
    rcases Nat.lt_succ_iff_lt_or_eq.1 h with h | rfl
    · exact (ih h).trans (Date.before_next)
    · exact Date.before_next

theorem date_before_iff : (date m).Before (date n) ↔ m < n := by
  refine ⟨fun h => ?_, date_before⟩
  rcases Nat.lt_trichotomy m n with hlt | rfl | hgt
  · exact hlt
  · unfold Date.Before at h
    omega
  · have h' := date_before hgt
    unfold Date.Before at h h'
    omega

theorem date_inj : date m = date n ↔ m = n := by
  refine ⟨fun heq => ?_, fun heq => by rw [heq]⟩
  have hmn : ¬ m < n := by
    rw [← date_before_iff, heq, date_before_iff]
    exact Nat.lt_irrefl n
  have hnm : ¬ n < m := by
    rw [← date_before_iff, heq, date_before_iff]
    exact Nat.lt_irrefl n
  omega

/-! ### Years -/

def monthStart (y : Nat) : Nat → Nat
  | 0 => 0
  | m + 1 => monthStart y m + daysInMonth y (m + 1)

theorem iterate_in_month {k : Nat} (h : k < daysInMonth y m) :
    Date.next^[k] ⟨y, m, 1⟩ = ⟨y, m, k + 1⟩ := by
  induction k with
  | zero => rfl
  | succ k ih =>
    rw [Function.iterate_succ_apply', ih (Nat.lt_of_succ_lt h), Date.next, if_pos h]

theorem iterate_month :
    Date.next^[daysInMonth y m] ⟨y, m, 1⟩ = if m < 12 then ⟨y, m + 1, 1⟩ else ⟨y + 1, 1, 1⟩ := by
  obtain ⟨k, hk⟩ : ∃ k, daysInMonth y m = k + 1 :=
    ⟨daysInMonth y m - 1, by have := (daysInMonth_bounds y m).1; omega⟩
  have hlast : k < daysInMonth y m := hk ▸ Nat.lt_succ_self k
  rw [hk, Function.iterate_succ_apply', iterate_in_month hlast, Date.next,
    if_neg (by rw [hk]; exact Nat.lt_irrefl _)]

theorem iterate_monthStart (h : m < 12) : Date.next^[monthStart y m] ⟨y, 1, 1⟩ = ⟨y, m + 1, 1⟩ := by
  induction m with
  | zero => rfl
  | succ m ih =>
    rw [monthStart, Nat.add_comm, Function.iterate_add_apply, ih (Nat.lt_of_succ_lt h),
      iterate_month, if_pos h]

theorem iterate_year : Date.next^[monthStart y 12] ⟨y, 1, 1⟩ = ⟨y + 1, 1, 1⟩ := by
  rw [monthStart, Nat.add_comm, Function.iterate_add_apply, iterate_monthStart (by decide),
    iterate_month, if_neg (by decide)]

theorem monthStart_year : monthStart y 12 = if isLeap y then 366 else 365 := by
  simp only [monthStart, daysInMonth]
  cases isLeap y <;> rfl

def yearStart (y : Nat) : Nat := 365 * y + (y + 3) / 4 + (y + 399) / 400 - (y + 99) / 100

theorem yearStart_succ : yearStart (y + 1) = monthStart y 12 + yearStart y := by
  -- each of the three counts goes up after a multiple
  have h4 : (y + 1 + 3) / 4 = (y + 3) / 4 + if y % 4 = 0 then 1 else 0 := by split <;> omega
  have h100 : (y + 1 + 99) / 100 = (y + 99) / 100 + if y % 100 = 0 then 1 else 0 := by
    split <;> omega
  have h400 : (y + 1 + 399) / 400 = (y + 399) / 400 + if y % 400 = 0 then 1 else 0 := by
    split <;> omega
  have hle : (y + 99) / 100 ≤ 365 * y := by omega
  have hcentury : y % 400 = 0 → y % 100 = 0 := by omega
  have hfourth : y % 100 = 0 → y % 4 = 0 := by omega
  rw [monthStart_year, yearStart, yearStart, isLeap, h4, h100, h400]
  simp only [decide_eq_true_eq]
  generalize (y + 3) / 4 = a, (y + 99) / 100 = b, (y + 399) / 400 = c at hle ⊢
  by_cases hmod4 : y % 4 = 0 <;> by_cases hmod100 : y % 100 = 0 <;>
    by_cases hmod400 : y % 400 = 0 <;>
      simp [hmod4, hmod100, hmod400] at hcentury hfourth ⊢ <;> omega

theorem date_yearStart (y : Nat) : date (yearStart y) = ⟨y, 1, 1⟩ := by
  induction y with
  | zero => rfl
  | succ y ih =>
    rw [date] at ih ⊢
    rw [yearStart_succ, Function.iterate_add_apply, ih, iterate_year]

theorem year_lt_of_lt (h : n < yearStart y) : (date n).year < y := by
  have hbefore := date_before h
  have hvalid := valid_date n
  rw [date_yearStart] at hbefore
  have hmonth := hvalid.month_pos
  have hday := hvalid.day_pos
  unfold Date.Before at hbefore
  simp only at hbefore
  omega

end Calendar
