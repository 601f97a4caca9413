import Goodmoneying.Library.ExceptRules
import Goodmoneying.Program.Datetimes

/-!
# Times in UTC

The datetimes of the candle tables: read from the database in UTC, so compared and grouped by
their fields. A time is the microseconds since the beginning of the calendar, which ends with
year 9999; its fields are quotients of that number.
-/

namespace Goodmoneying.Program

open Library

/-- A `datetime` in UTC. -/
@[ext]
structure UtcTime where
  microseconds : ℕ
  in_calendar : microseconds < maxOrdinal * dayMicroseconds

namespace UtcTime

variable (t : UtcTime)

instance : LinearOrder UtcTime :=
  LinearOrder.lift' UtcTime.microseconds fun _ _ => UtcTime.ext

theorem le_def {t u : UtcTime} : t ≤ u ↔ t.microseconds ≤ u.microseconds := Iff.rfl

theorem lt_def {t u : UtcTime} : t < u ↔ t.microseconds < u.microseconds := Iff.rfl

/-- The days before the day of the time. -/
def day : ℕ := t.microseconds / dayMicroseconds

theorem day_lt : t.day < maxOrdinal := by
  have := t.in_calendar
  exact Nat.div_lt_of_lt_mul (by rwa [mul_comm])

def hour : Fin 24 :=
  ⟨t.microseconds % dayMicroseconds / 3600000000, by unfold dayMicroseconds; omega⟩

def minute : Fin 60 := ⟨t.microseconds % 3600000000 / 60000000, by omega⟩

/-- Monday is 0: the calendar begins on a Monday. -/
def weekday : ℕ := t.day % 7

/-- The time with its offset, which is zero. -/
def datetime : Datetime where
  date := .ofOrdinal (t.day + 1) ⟨Nat.le_add_left 1 _, t.day_lt⟩
  timeOfDay := ⟨t.microseconds % dayMicroseconds, Nat.mod_lt _ (by decide)⟩
  utcoffset := ⟨0, by decide⟩

/-- The wall clock of a datetime, taken as UTC. -/
def ofDatetime (value : Datetime) : UtcTime where
  microseconds := (value.date.ordinal - 1) * dayMicroseconds + value.timeOfDay
  in_calendar := by
    obtain ⟨hone, hlast⟩ := value.date.ordinal_le
    have htime := value.timeOfDay.isLt
    unfold dayMicroseconds at *
    omega

theorem zero_in_calendar : 0 < maxOrdinal * dayMicroseconds := by decide

/-- A number of microseconds within the calendar. -/
theorem toNat_in_calendar {value : ℤ} (h : 0 ≤ value ∧ value.toNat < maxOrdinal * dayMicroseconds) :
    value.toNat < maxOrdinal * dayMicroseconds := h.2

/-- `t + timedelta(microseconds=delta)`. -/
def addTimedelta (delta : ℤ) : Except PythonError UtcTime :=
  if h : 0 ≤ (t.microseconds : ℤ) + delta ∧
      (t.microseconds : ℤ) + delta < (maxOrdinal * dayMicroseconds : ℕ) then
    .ok ⟨((t.microseconds : ℤ) + delta).toNat, by omega⟩
  else .error (.overflowError "date value out of range")

/-- `t.replace(year=year, month=month)`. -/
def replace (year month : ℕ) : Except PythonError UtcTime :=
  ofDatetime <$> t.datetime.replace year month

/-- `t.replace(hour=hour, minute=minute, second=0, microsecond=0)`. -/
def replaceClock (hour : Fin 24) (minute : Fin 60) : UtcTime where
  microseconds := t.day * dayMicroseconds + hour * 3600000000 + minute * 60000000
  in_calendar := by
    have := t.day_lt
    unfold dayMicroseconds
    omega

/-- `t.replace(day=1, hour=0, minute=0, second=0, microsecond=0)`. -/
def firstOfMonth : UtcTime where
  microseconds := monthStart t.day * dayMicroseconds
  in_calendar := by
    have := t.day_lt
    have := monthStart_le t.day
    exact Nat.mul_lt_mul_of_pos_right (by omega) (by decide)

theorem addTimedelta_eq_ok {t u : UtcTime} {delta : ℤ} :
    t.addTimedelta delta = .ok u ↔ (u.microseconds : ℤ) = t.microseconds + delta := by
  unfold addTimedelta
  constructor
  · intro h
    split_ifs at h with hrange
    obtain rfl := Except.ok.inj h
    exact Int.toNat_of_nonneg hrange.1
  · intro h
    have hbound := u.in_calendar
    rw [dif_pos (by omega)]
    congr 1
    ext
    show Int.toNat _ = _
    omega

/-- The microsecond before a time that is not the first one. -/
theorem addTimedelta_neg_one {t : UtcTime} (h : 0 < t.microseconds) :
    t.addTimedelta (-1) = .ok ⟨t.microseconds - 1, by
      have := t.in_calendar
      omega⟩ := by
  rw [addTimedelta_eq_ok]
  show ((t.microseconds - 1 : ℕ) : ℤ) = _
  omega

/-- A time taken apart and put together again. -/
@[simp] theorem ofDatetime_datetime : ofDatetime t.datetime = t := by
  ext
  simp only [ofDatetime, datetime, ordinal_ofOrdinal, Nat.add_sub_cancel, day]
  exact Nat.div_add_mod' _ _

theorem day_ofDatetime (value : Datetime) : (ofDatetime value).day + 1 = value.date.ordinal ∧
      (ofDatetime value).microseconds % dayMicroseconds = value.timeOfDay := by
  have hone := value.date.ordinal_le.1
  have htime := value.timeOfDay.isLt
  simp only [day, ofDatetime]
  rw [mul_comm, Nat.mul_add_div (by decide), Nat.mul_add_mod, Nat.div_eq_of_lt htime,
    Nat.mod_eq_of_lt htime]
  omega

/-- A datetime in UTC taken as a time and back. -/
theorem datetime_ofDatetime {value : Datetime} (h : value.utcoffset.microseconds = 0) :
    (ofDatetime value).datetime = value := by
  obtain ⟨hday, htime⟩ := day_ofDatetime value
  obtain ⟨date, timeOfDay, offset, bound⟩ := value
  obtain rfl : offset = 0 := h
  have hdate : (ofDatetime ⟨date, timeOfDay, 0, bound⟩).datetime.date = date := by
    apply Date.ordinal_injective
    simp only [datetime, ordinal_ofOrdinal]
    exact hday
  have hclock : (ofDatetime ⟨date, timeOfDay, 0, bound⟩).datetime.timeOfDay = timeOfDay :=
    Fin.ext htime
  rw [Datetime.mk.injEq]
  exact ⟨hdate, hclock, rfl⟩

theorem wallClock_datetime :
    t.datetime.wallClock = (t.microseconds : ℤ) + (dayMicroseconds : ℕ) := by
  have hsplit := Nat.div_add_mod' t.microseconds dayMicroseconds
  simp only [Datetime.wallClock, datetime, ordinal_ofOrdinal, day]
  push_cast
  unfold dayMicroseconds at *
  omega

/-- Adding a `timedelta` to the time adds it to the datetime. -/
theorem datetime_addTimedelta (delta : ℤ) :
    t.datetime.addTimedelta delta = datetime <$> t.addTimedelta delta := by
  -- the clock stays within the calendar of the one exactly if it does for the other
  have hrange : (1 ≤ (t.datetime.wallClock + delta) / (dayMicroseconds : ℕ) ∧
      (t.datetime.wallClock + delta) / (dayMicroseconds : ℕ) ≤ maxOrdinal) ↔
      0 ≤ (t.microseconds : ℤ) + delta ∧
        (t.microseconds : ℤ) + delta < (maxOrdinal * dayMicroseconds : ℕ) := by
    rw [wallClock_datetime]
    unfold dayMicroseconds maxOrdinal
    omega
  by_cases h : 0 ≤ (t.microseconds : ℤ) + delta ∧
      (t.microseconds : ℤ) + delta < (maxOrdinal * dayMicroseconds : ℕ)
  · obtain ⟨moved, hmoved⟩ : ∃ moved, t.datetime.addTimedelta delta = .ok moved := by
      unfold Datetime.addTimedelta
      exact ⟨_, dif_pos (hrange.mpr h)⟩
    obtain ⟨hinstant, hoffset⟩ := Datetime.instant_addTimedelta hmoved
    have hzero : moved.utcoffset.microseconds = 0 := by rw [hoffset]; rfl
    have hadd : t.addTimedelta delta = .ok (ofDatetime moved) := by
      have hclock := wallClock_datetime (ofDatetime moved)
      rw [datetime_ofDatetime hzero] at hclock
      rw [addTimedelta_eq_ok]
      have hzero' : t.datetime.utcoffset.microseconds = 0 := rfl
      simp only [Datetime.instant, hzero, hzero', wallClock_datetime, hclock] at hinstant
      linarith
    rw [hmoved, hadd]
    exact congrArg Except.ok (datetime_ofDatetime hzero).symm
  · unfold Datetime.addTimedelta addTimedelta
    rw [dif_neg h]
    exact dif_neg (mt hrange.mp h)

/-- Replacing the year and the month of the time replaces those of the datetime. -/
theorem datetime_replace (year month : ℕ) :
    t.datetime.replace year month = datetime <$> t.replace year month := by
  have hzero : ∀ value, t.datetime.replace year month = .ok value →
      value.utcoffset.microseconds = 0 := by
    intro value hvalue
    unfold Datetime.replace at hvalue
    split_ifs at hvalue
    obtain rfl := Except.ok.inj hvalue
    rfl
  rw [replace]
  cases hvalue : t.datetime.replace year month with
  | error error => rfl
  | ok value => exact congrArg Except.ok (datetime_ofDatetime (hzero value hvalue)).symm

/-- The day of the month, counted from zero. -/
def dayOfMonth : ℕ := t.day - monthStart t.day

/-- Replacing the year and the month keeps the day of the month and the time of the day. -/
theorem replace_eq_ok {t u : UtcTime} {year month : ℕ} :
    t.replace year month = .ok u ↔ (1 ≤ year ∧ year ≤ 9999) ∧ (1 ≤ month ∧ month ≤ 12) ∧
      t.dayOfMonth < daysInMonth year month ∧
      u.microseconds =
        (daysBeforeYear year + daysBeforeMonth year month + t.dayOfMonth) * dayMicroseconds +
          t.microseconds % dayMicroseconds := by
  have hday : t.datetime.date.day = t.dayOfMonth + 1 := by
    have hle := monthStart_le t.day
    simp only [datetime, Date.ofOrdinal, Nat.add_sub_cancel, dayOfMonth, dayOfYear]
    unfold monthStart
    rw [Nat.sub_sub]
  rw [replace, map_eq_ok]
  unfold Datetime.replace
  constructor
  · rintro ⟨value, hvalue, rfl⟩
    split_ifs at hvalue with hyear hmonth hlast
    obtain rfl := Except.ok.inj hvalue
    refine ⟨hyear, hmonth, by omega, ?_⟩
    simp only [ofDatetime, Date.ordinal, hday]
    rw [← Nat.add_assoc, Nat.add_sub_cancel]
    rfl
  · rintro ⟨hyear, hmonth, hlast, hat⟩
    refine ⟨_, by rw [dif_pos hyear, dif_pos hmonth, dif_pos (by omega)], ?_⟩
    ext
    simp only [ofDatetime, Date.ordinal, hday, hat]
    rw [← Nat.add_assoc, Nat.add_sub_cancel]
    rfl

end UtcTime

end Goodmoneying.Program
