import Mathlib.Data.Nat.Basic
import Mathlib.Order.Monotone.Basic
import Goodmoneying.Library.TimeGrid

/-!
# The proleptic Gregorian calendar

Dates of the years 1 to 9999, and their ordinals: day 1 is the first of January of year 1.
`Date.ofOrdinal` finds the date of an ordinal by estimating the year and correcting the
estimate by at most one (`daysBeforeYear_yearOf`), then searching the month
(`daysBeforeMonth_monthOf`). Every ordinal from 1 to `maxOrdinal` is that of exactly the date
found (`ordinal_ofOrdinal`).

The months are the cells of a grid on the days (`monthGrid`).
-/

namespace Goodmoneying.Library

variable {year n : ℕ}

/-- Whether `year` has a 29th of February. -/
def isLeap (year : ℕ) : Prop := year % 4 = 0 ∧ (year % 100 ≠ 0 ∨ year % 400 = 0)

instance (year : ℕ) : Decidable (isLeap year) := inferInstanceAs (Decidable (_ ∧ _))

/-- The length of a month. -/
def daysInMonth (year month : ℕ) : ℕ :=
  if month = 2 then if isLeap year then 29 else 28
  else if month = 4 ∨ month = 6 ∨ month = 9 ∨ month = 11 then 30
  else 31

/-- The days before the first of January of `year`. -/
def daysBeforeYear (year : ℕ) : ℕ :=
  (year - 1) * 365 + (year - 1) / 4 - (year - 1) / 100 + (year - 1) / 400

/-- The days of `year` before the first of `month`. -/
def daysBeforeMonth (year : ℕ) : ℕ → ℕ
  | 0 => 0
  | 1 => 0
  | month + 2 => daysBeforeMonth year (month + 1) + daysInMonth year (month + 1)

/-- A date of the years 1 to 9999. -/
structure Date where
  year : ℕ
  month : ℕ
  day : ℕ
  year_range : 1 ≤ year ∧ year ≤ 9999
  month_range : 1 ≤ month ∧ month ≤ 12
  day_range : 1 ≤ day ∧ day ≤ daysInMonth year month
  deriving DecidableEq

/-- The number of the day, counted from the first of January of year 1. -/
def Date.ordinal (date : Date) : ℕ :=
  daysBeforeYear date.year + daysBeforeMonth date.year date.month + date.day

/-- The ordinal of the last of December of year 9999. -/
def maxOrdinal : ℕ := 3652059

/-- The year of the day that has `n` days before it. -/
def yearOf (n : ℕ) : ℕ :=
  let estimate := n * 400 / 146097 + 1
  if n < daysBeforeYear estimate then estimate - 1
  else if n < daysBeforeYear (estimate + 1) then estimate
  else estimate + 1

/-- The last month up to `last` that begins after at most `n` days of `year`. -/
def monthOf (year n : ℕ) : ℕ → ℕ
  | 0 => 0
  | last + 1 => if daysBeforeMonth year (last + 1) ≤ n then last + 1 else monthOf year n last

theorem daysBeforeMonth_thirteen (year : ℕ) :
    daysBeforeMonth year 13 = if isLeap year then 366 else 365 := by
  by_cases h : isLeap year <;> simp [daysBeforeMonth, daysInMonth, h]

theorem succ_div_eq (y k : ℕ) :
    (y + 1) / k = y / k + if (y + 1) % k = 0 then 1 else 0 := by
  rw [Nat.succ_div]
  simp [Nat.dvd_iff_mod_eq_zero]

/-- Years follow each other without gaps. -/
theorem daysBeforeYear_succ (h : 1 ≤ year) :
    daysBeforeYear (year + 1) = daysBeforeYear year + daysBeforeMonth year 13 := by
  obtain ⟨y, rfl⟩ := Nat.exists_eq_add_of_le' h
  have h4 := succ_div_eq y 4
  have h100 := succ_div_eq y 100
  have h400 := succ_div_eq y 400
  have hdvd : (y + 1) % 100 = 0 → (y + 1) % 4 = 0 := by omega
  have hdvd' : (y + 1) % 400 = 0 → (y + 1) % 100 = 0 := by omega
  have hle : y / 100 ≤ y / 4 := Nat.div_le_div_left (by omega) (by omega)
  have hyear : daysBeforeMonth (y + 1) 13 = 366 ∧ isLeap (y + 1) ∨
      daysBeforeMonth (y + 1) 13 = 365 ∧ ¬ isLeap (y + 1) := by
    rw [daysBeforeMonth_thirteen]
    split_ifs with hleap <;> simp [hleap]
  simp only [daysBeforeYear, Nat.add_sub_cancel]
  unfold isLeap at hyear
  -- only how the quotients grow matters, so they are taken as numbers
  generalize y / 4 = a, (y + 1) / 4 = a', (y + 1) % 4 = r at *
  generalize y / 100 = b, (y + 1) / 100 = b', (y + 1) % 100 = s at *
  generalize y / 400 = c, (y + 1) / 400 = c', (y + 1) % 400 = t at *
  split_ifs at * <;> omega

/-- The year that is found has the day. -/
theorem daysBeforeYear_yearOf (n : ℕ) :
    1 ≤ yearOf n ∧ daysBeforeYear (yearOf n) ≤ n ∧ n < daysBeforeYear (yearOf n + 1) := by
  unfold yearOf daysBeforeYear
  dsimp only
  split_ifs <;> omega

theorem yearOf_le (h : n < maxOrdinal) : yearOf n ≤ 9999 := by
  have := (daysBeforeYear_yearOf n).2.1
  unfold daysBeforeYear maxOrdinal at *
  omega

/-- The month found is the one around the day. -/
theorem daysBeforeMonth_monthOf {last : ℕ} (hlast : 1 ≤ last)
    (h : n < daysBeforeMonth year (last + 1)) :
    1 ≤ monthOf year n last ∧ monthOf year n last ≤ last ∧
      daysBeforeMonth year (monthOf year n last) ≤ n ∧
      n < daysBeforeMonth year (monthOf year n last + 1) := by
  induction last with
  | zero => omega
  | succ last ih =>
    rw [monthOf]
    by_cases hle : daysBeforeMonth year (last + 1) ≤ n
    · rw [if_pos hle]
      exact ⟨hlast, le_refl _, hle, h⟩
    · rw [if_neg hle]
      have hlast' : 1 ≤ last := by
        cases last with
        | zero => simp [daysBeforeMonth] at hle
        | succ last => omega
      obtain ⟨h₁, h₂, h₃, h₄⟩ := ih hlast' (by omega)
      exact ⟨h₁, by omega, h₃, h₄⟩

theorem daysBeforeMonth_succ (year : ℕ) {month : ℕ} (h : 1 ≤ month) :
    daysBeforeMonth year (month + 1) = daysBeforeMonth year month + daysInMonth year month := by
  obtain ⟨month, rfl⟩ := Nat.exists_eq_add_of_le' h
  rfl

/-- The day within its year of the day that has `n` days before it, counted from zero. -/
def dayOfYear (n : ℕ) : ℕ := n - daysBeforeYear (yearOf n)

/-- The month of the day that has `n` days before it. -/
def monthOfDay (n : ℕ) : ℕ := monthOf (yearOf n) (dayOfYear n) 12

/-- The month found is one of the year, and the day lies in it. -/
theorem daysBeforeMonth_monthOfDay (n : ℕ) : 1 ≤ monthOfDay n ∧ monthOfDay n ≤ 12 ∧
      daysBeforeMonth (yearOf n) (monthOfDay n) ≤ dayOfYear n ∧
      dayOfYear n <
        daysBeforeMonth (yearOf n) (monthOfDay n) + daysInMonth (yearOf n) (monthOfDay n) := by
  obtain ⟨hyear, hle, hlt⟩ := daysBeforeYear_yearOf n
  have hday : dayOfYear n < daysBeforeMonth (yearOf n) (12 + 1) := by
    rw [daysBeforeYear_succ hyear] at hlt
    show n - daysBeforeYear (yearOf n) < daysBeforeMonth (yearOf n) 13
    omega
  obtain ⟨hone, hlast, hfrom, hto⟩ := daysBeforeMonth_monthOf (by omega) hday
  rw [daysBeforeMonth_succ _ hone] at hto
  exact ⟨hone, hlast, hfrom, hto⟩

/-- The date of an ordinal within the calendar. -/
def Date.ofOrdinal (ordinal : ℕ) (h : 1 ≤ ordinal ∧ ordinal ≤ maxOrdinal) : Date where
  year := yearOf (ordinal - 1)
  month := monthOfDay (ordinal - 1)
  day := dayOfYear (ordinal - 1) -
    daysBeforeMonth (yearOf (ordinal - 1)) (monthOfDay (ordinal - 1)) + 1
  year_range := ⟨(daysBeforeYear_yearOf _).1, yearOf_le (by omega)⟩
  month_range := ⟨(daysBeforeMonth_monthOfDay _).1, (daysBeforeMonth_monthOfDay _).2.1⟩
  day_range := by
    have := (daysBeforeMonth_monthOfDay (ordinal - 1)).2.2
    omega

/-- The date found has the ordinal it was sought by. -/
theorem ordinal_ofOrdinal {ordinal : ℕ} (h : 1 ≤ ordinal ∧ ordinal ≤ maxOrdinal) :
    (Date.ofOrdinal ordinal h).ordinal = ordinal := by
  have hyear := (daysBeforeYear_yearOf (ordinal - 1)).2.1
  have hmonth := (daysBeforeMonth_monthOfDay (ordinal - 1)).2.2.1
  have hday : dayOfYear (ordinal - 1) = ordinal - 1 - daysBeforeYear (yearOf (ordinal - 1)) := rfl
  simp only [Date.ordinal, Date.ofOrdinal]
  omega

/-! ## Months as cells -/

theorem daysBeforeYear_mono : Monotone daysBeforeYear := by
  apply monotone_nat_of_le_succ
  intro year
  cases year with
  | zero => exact le_refl _
  | succ year =>
    rw [daysBeforeYear_succ (Nat.le_add_left 1 year)]
    exact Nat.le_add_right _ _

theorem daysBeforeMonth_mono (year : ℕ) : Monotone (daysBeforeMonth year) := by
  apply monotone_nat_of_le_succ
  intro month
  cases month with
  | zero => exact le_refl _
  | succ month =>
    rw [daysBeforeMonth_succ year (Nat.le_add_left 1 month)]
    exact Nat.le_add_right _ _

/-- The year and the month of a day are determined by where the day lies. -/
theorem monthOfDay_unique {month : ℕ} (hyear : 1 ≤ year) (hmonth : 1 ≤ month ∧ month ≤ 12) {k : ℕ}
    (hk : k < daysInMonth year month) :
    yearOf (daysBeforeYear year + daysBeforeMonth year month + k) = year ∧
      monthOfDay (daysBeforeYear year + daysBeforeMonth year month + k) = month := by
  have hlast : daysBeforeMonth year (month + 1) ≤ daysBeforeMonth year 13 :=
    daysBeforeMonth_mono year (by omega)
  rw [daysBeforeMonth_succ year hmonth.1] at hlast
  have hnext := daysBeforeYear_succ hyear
  have hyearOf : yearOf (daysBeforeYear year + daysBeforeMonth year month + k) = year := by
    obtain ⟨-, hfrom, hto⟩ :=
      daysBeforeYear_yearOf (daysBeforeYear year + daysBeforeMonth year month + k)
    rcases lt_trichotomy (yearOf (daysBeforeYear year + daysBeforeMonth year month + k)) year with
      h | h | h
    · have := daysBeforeYear_mono (Nat.succ_le_of_lt h)
      rw [Nat.succ_eq_add_one] at this
      omega
    · exact h
    · have := daysBeforeYear_mono (Nat.succ_le_of_lt h)
      rw [Nat.succ_eq_add_one] at this
      omega
  refine ⟨hyearOf, ?_⟩
  obtain ⟨hone, -, hfrom, hto⟩ :=
    daysBeforeMonth_monthOfDay (daysBeforeYear year + daysBeforeMonth year month + k)
  rw [dayOfYear, hyearOf] at hfrom hto
  rw [← daysBeforeMonth_succ year hone] at hto
  have hsucc := daysBeforeMonth_succ year hmonth.1
  rcases lt_trichotomy
    (monthOfDay (daysBeforeYear year + daysBeforeMonth year month + k)) month with h | h | h
  · have := daysBeforeMonth_mono year (Nat.succ_le_of_lt h)
    rw [Nat.succ_eq_add_one] at this
    omega
  · exact h
  · have := daysBeforeMonth_mono year (Nat.succ_le_of_lt h)
    rw [Nat.succ_eq_add_one] at this
    omega

/-- The days before the first of the month of the day that has `n` days before it. -/
def monthStart (n : ℕ) : ℕ := daysBeforeYear (yearOf n) + daysBeforeMonth (yearOf n) (monthOfDay n)

theorem monthStart_le (n : ℕ) : monthStart n ≤ n := by
  have hyear := (daysBeforeYear_yearOf n).2.1
  have hmonth := (daysBeforeMonth_monthOfDay n).2.2.1
  unfold dayOfYear at hmonth
  unfold monthStart
  omega

theorem lt_monthStart_add (n : ℕ) : n < monthStart n + daysInMonth (yearOf n) (monthOfDay n) := by
  have hmonth := (daysBeforeMonth_monthOfDay n).2.2.2
  unfold dayOfYear at hmonth
  unfold monthStart
  omega

/-- The days of one month have its year and its number. -/
theorem monthOfDay_of_mem {m : ℕ} (hfrom : monthStart n ≤ m)
    (hto : m < monthStart n + daysInMonth (yearOf n) (monthOfDay n)) :
    yearOf m = yearOf n ∧ monthOfDay m = monthOfDay n := by
  obtain ⟨k, rfl⟩ := Nat.exists_eq_add_of_le hfrom
  obtain ⟨hone, hlast, -⟩ := daysBeforeMonth_monthOfDay n
  exact monthOfDay_unique (daysBeforeYear_yearOf n).1 ⟨hone, hlast⟩ (by omega)

theorem daysInMonth_pos (year month : ℕ) : 0 < daysInMonth year month := by
  unfold daysInMonth
  split_ifs <;> omega

theorem daysInMonth_le (year month : ℕ) : daysInMonth year month ≤ 31 := by
  unfold daysInMonth
  split_ifs <;> omega

theorem monthOfDay_monthStart (n : ℕ) :
    yearOf (monthStart n) = yearOf n ∧ monthOfDay (monthStart n) = monthOfDay n :=
  monthOfDay_of_mem (le_refl _) (by have := daysInMonth_pos (yearOf n) (monthOfDay n); omega)

/-- The grid of the months, on the days. -/
def monthGrid : Grid where
  start := monthStart
  next n := n + daysInMonth (yearOf n) (monthOfDay n)
  start_le := monthStart_le
  lt_next n := by
    obtain ⟨hyear, hmonth⟩ := monthOfDay_monthStart n
    rw [hyear, hmonth]
    exact lt_monthStart_add n
  start_eq {n m} hfrom hto := by
    obtain ⟨hyear, hmonth⟩ := monthOfDay_monthStart n
    rw [hyear, hmonth] at hto
    obtain ⟨hyear', hmonth'⟩ := monthOfDay_of_mem hfrom hto
    rw [monthStart, monthStart, hyear', hmonth']

/-- The calendar ends with year 9999. -/
theorem Date.ordinal_le (date : Date) : 1 ≤ date.ordinal ∧ date.ordinal ≤ maxOrdinal := by
  have hmonth := daysBeforeMonth_succ date.year date.month_range.1
  have hlast := daysBeforeMonth_mono date.year (show date.month + 1 ≤ 13 by
    have := date.month_range
    omega)
  have hyear := daysBeforeYear_succ date.year_range.1
  have hend : daysBeforeYear (date.year + 1) ≤ maxOrdinal :=
    daysBeforeYear_mono (show date.year + 1 ≤ 10000 by
      have := date.year_range
      omega)
  have hday := date.day_range
  unfold Date.ordinal
  omega

/-- Dates compare by the year, the month and the day. -/
theorem Date.ordinal_lt_iff {date other : Date} : date.ordinal < other.ordinal ↔
    date.year < other.year ∨ date.year = other.year ∧
      (date.month < other.month ∨ date.month = other.month ∧ date.day < other.day) := by
  have hmono : ∀ first last : Date, (first.year < last.year ∨ first.year = last.year ∧
      (first.month < last.month ∨ first.month = last.month ∧ first.day < last.day)) →
      first.ordinal < last.ordinal := by
    intro first last h
    have hsucc := daysBeforeMonth_succ first.year first.month_range.1
    have hday := first.day_range
    have hday' := last.day_range
    unfold Date.ordinal
    rcases h with hyear | ⟨hyear, hmonth | ⟨hmonth, hlt⟩⟩
    · have hend := daysBeforeMonth_mono first.year (show first.month + 1 ≤ 13 by
        have := first.month_range
        omega)
      have hnext := daysBeforeYear_succ first.year_range.1
      have hle : daysBeforeYear (first.year + 1) ≤ daysBeforeYear last.year :=
        daysBeforeYear_mono hyear
      omega
    · have hle : daysBeforeMonth first.year (first.month + 1) ≤
          daysBeforeMonth first.year last.month := daysBeforeMonth_mono first.year hmonth
      rw [← hyear]
      omega
    · rw [← hyear, ← hmonth]
      omega
  constructor
  · intro h
    by_contra hnot
    have hback : (other.year < date.year ∨ other.year = date.year ∧
        (other.month < date.month ∨ other.month = date.month ∧ other.day < date.day)) ∨
        date.year = other.year ∧ date.month = other.month ∧ date.day = other.day := by
      omega
    rcases hback with hback | ⟨hyear, hmonth, hday⟩
    · exact absurd (hmono other date hback) (by omega)
    · unfold Date.ordinal at h
      rw [hyear, hmonth, hday] at h
      exact lt_irrefl _ h
  · exact hmono date other

/-- A date is determined by its ordinal. -/
theorem Date.ordinal_eq_iff {date other : Date} : date.ordinal = other.ordinal ↔
    date.year = other.year ∧ date.month = other.month ∧ date.day = other.day := by
  constructor
  · intro h
    have hnot := mt Date.ordinal_lt_iff.mpr (show ¬ date.ordinal < other.ordinal by omega)
    have hnot' := mt Date.ordinal_lt_iff.mpr (show ¬ other.ordinal < date.ordinal by omega)
    omega
  · rintro ⟨hyear, hmonth, hday⟩
    rw [Date.ordinal, Date.ordinal, hyear, hmonth, hday]

theorem Date.ordinal_injective : Function.Injective Date.ordinal := by
  intro date other h
  obtain ⟨hyear, hmonth, hday⟩ := Date.ordinal_eq_iff.mp h
  cases date
  cases other
  simp_all

end Goodmoneying.Library
