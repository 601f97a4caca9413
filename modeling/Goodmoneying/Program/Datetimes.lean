import Goodmoneying.Library.Calendar
import Goodmoneying.Library.TextOrder
import Goodmoneying.Program.Values

/-!
# Datetimes with their text

The `datetime` of Python where its fields matter: a wall clock of the years 1 to 9999 with a
fixed offset from UTC (the connections of the program read times in UTC, its reports in the
fixed offset of KST). Datetimes compare by the instant they denote; `timedelta`s are added to
the wall clock; `isoformat` writes the fields, and `fromisoformat` reads texts of that form
back (`fromisoformat_isoformat`).
-/

namespace Goodmoneying.Program

open Library

variable {time : ℕ} {c : Char}

/-- The exceptions of the language and its library. -/
inductive PythonError where
  | valueError (message : String)
  | overflowError (message : String)
  | invalidOperation
  | divisionByZero
  | keyError
  deriving DecidableEq, Repr

/-- The microseconds of a day. -/
abbrev dayMicroseconds : ℕ := 86400000000

/-- An offset from UTC in microseconds, shorter than a day. -/
structure UtcOffset where
  microseconds : ℤ
  bound : |microseconds| < dayMicroseconds
  deriving DecidableEq

/-- A `datetime` that knows its offset; `timeOfDay` counts microseconds from midnight. -/
structure Datetime where
  date : Date
  timeOfDay : Fin dayMicroseconds
  utcoffset : UtcOffset
  deriving DecidableEq

variable {value : Datetime}

namespace Datetime

/-- The wall clock, in microseconds. -/
def wallClock (value : Datetime) : ℤ :=
  (value.date.ordinal : ℤ) * dayMicroseconds + (value.timeOfDay : ℕ)

/-- The instant denoted: what datetimes are compared by. -/
def instant (value : Datetime) : Instant :=
  value.wallClock - dayMicroseconds - value.utcoffset.microseconds

/-- `value + timedelta(microseconds=delta)`: on the wall clock, within the years of the
calendar. -/
def addTimedelta (value : Datetime) (delta : ℤ) : Except PythonError Datetime :=
  let day := (value.wallClock + delta) / dayMicroseconds
  if h : 1 ≤ day ∧ day ≤ maxOrdinal then
    .ok { date := .ofOrdinal day.toNat (by omega)
          timeOfDay := ⟨((value.wallClock + delta) % dayMicroseconds).toNat, by
            unfold dayMicroseconds
            omega⟩
          utcoffset := value.utcoffset }
  else .error (.overflowError "date value out of range")

/-- `value.replace(year=year, month=month)`. -/
def replace (value : Datetime) (year month : ℕ) : Except PythonError Datetime :=
  if hyear : 1 ≤ year ∧ year ≤ 9999 then
    if hmonth : 1 ≤ month ∧ month ≤ 12 then
      if hday : value.date.day ≤ daysInMonth year month then
        .ok { value with
          date := ⟨year, month, value.date.day, hyear, hmonth, value.date.day_range.1, hday⟩ }
      else .error (.valueError "day is out of range for month")
    else .error (.valueError "month must be in 1..12")
  else .error (.valueError ("year " ++ toString year ++ " is out of range"))

/-- Adding a `timedelta` moves the instant by it and keeps the offset. -/
theorem instant_addTimedelta {moved : Datetime} {delta : ℤ}
    (h : value.addTimedelta delta = .ok moved) :
    moved.instant = value.instant + delta ∧ moved.utcoffset = value.utcoffset := by
  unfold addTimedelta at h
  dsimp only at h
  split_ifs at h with hday
  obtain rfl := Except.ok.inj h
  refine ⟨?_, rfl⟩
  have hsplit : ∀ clock : ℤ, 1 ≤ clock / (dayMicroseconds : ℕ) →
      ((clock / (dayMicroseconds : ℕ)).toNat : ℤ) * (dayMicroseconds : ℕ) +
        ((clock % (dayMicroseconds : ℕ)).toNat : ℤ) = clock := by
    intro clock hclock
    unfold dayMicroseconds at *
    push_cast at *
    omega
  simp only [instant, wallClock, ordinal_ofOrdinal]
  simp only [wallClock] at hday
  rw [hsplit _ hday.1]
  ring

end Datetime

/-! ## Texts -/

/-- `HH:MM`, then `:SS` when wanted or not zero, then `.ffffff` when not zero. -/
def clockText (seconds : Bool) (time : ℕ) : List Char :=
  fixedDigits 2 (time / 3600000000) ++ ':' :: fixedDigits 2 (time / 60000000 % 60) ++
    (if seconds ∨ time % 60000000 ≠ 0 then ':' :: fixedDigits 2 (time / 1000000 % 60) else []) ++
    if time % 1000000 ≠ 0 then '.' :: fixedDigits 6 (time % 1000000) else []

/-- The sign of an offset and its clock. -/
def UtcOffset.text (offset : UtcOffset) : List Char :=
  (if offset.microseconds < 0 then '-' else '+') :: clockText false offset.microseconds.natAbs

/-- `value.isoformat()`. -/
def Datetime.isoformat (value : Datetime) : String :=
  .ofList (fixedDigits 4 value.date.year ++ '-' :: (fixedDigits 2 value.date.month ++
    '-' :: (fixedDigits 2 value.date.day ++
      'T' :: (clockText true value.timeOfDay ++ value.utcoffset.text))))

/-- `str(value)`: a blank between the date and the clock. -/
def Datetime.str (value : Datetime) : String :=
  .ofList (fixedDigits 4 value.date.year ++ '-' :: (fixedDigits 2 value.date.month ++
    '-' :: (fixedDigits 2 value.date.day ++
      ' ' :: (clockText true value.timeOfDay ++ value.utcoffset.text))))

/-- Read the seconds of a clock, and its microseconds. -/
def readSeconds : List Char → Option ℕ
  | [] => some 0
  | text => do
    let text ← readChar ':' text
    let (second, text) ← readDigits 2 text
    if text = [] then pure (second * 1000000)
    else
      let text ← readChar '.' text
      let (microsecond, text) ← readDigits 6 text
      if text = [] then pure (second * 1000000 + microsecond) else none

/-- Read a clock that `clockText` writes; the result counts microseconds. -/
def readClock (text : List Char) : Option ℕ := do
  let (hour, text) ← readDigits 2 text
  let text ← readChar ':' text
  let (minute, text) ← readDigits 2 text
  let rest ← readSeconds text
  if minute < 60 ∧ rest < 60000000 then pure (hour * 3600000000 + minute * 60000000 + rest)
  else none

/-- Whether a character is the sign of an offset. -/
def isSign (c : Char) : Bool := c = '+' || c = '-'

/-- Read an offset from UTC. -/
def readOffset : List Char → Option UtcOffset
  | [] => none
  | sign :: text => do
    let time ← readClock text
    if h : time < dayMicroseconds then
      if sign = '-' then pure ⟨-time, by rw [abs_neg, Nat.abs_cast]; exact_mod_cast h⟩
      else if sign = '+' then pure ⟨time, by rw [Nat.abs_cast]; exact_mod_cast h⟩
      else none
    else none

/-- Read a datetime in the form `isoformat` writes. -/
def readDatetime (text : List Char) : Option Datetime := do
  let (year, text) ← readDigits 4 text
  let text ← readChar '-' text
  let (month, text) ← readDigits 2 text
  let text ← readChar '-' text
  let (day, text) ← readDigits 2 text
  let text ← readChar 'T' text
  let time ← readClock (text.takeWhile fun c => !isSign c)
  let utcoffset ← readOffset (text.dropWhile fun c => !isSign c)
  if h : (1 ≤ year ∧ year ≤ 9999) ∧ (1 ≤ month ∧ month ≤ 12) ∧
      (1 ≤ day ∧ day ≤ daysInMonth year month) ∧ time < dayMicroseconds then
    pure ⟨⟨year, month, day, h.1, h.2.1, h.2.2.1⟩, ⟨time, h.2.2.2⟩, utcoffset⟩
  else none

/-- `datetime.fromisoformat(text)`, of the texts `isoformat` writes. -/
def Datetime.fromisoformat (text : String) : Except PythonError Datetime :=
  match readDatetime text.toList with
  | some value => .ok value
  | none => .error (.valueError ("Invalid isoformat string: " ++ text))

/-- The optional part of a clock reads back. -/
theorem readSeconds_clockText (seconds : Bool) (time : ℕ) :
    readSeconds
      ((if seconds ∨ time % 60000000 ≠ 0 then ':' :: fixedDigits 2 (time / 1000000 % 60) else []) ++
        if time % 1000000 ≠ 0 then '.' :: fixedDigits 6 (time % 1000000) else []) =
      some (time % 60000000) := by
  have hsecond : time / 1000000 % 60 < 10 ^ 2 := by omega
  have hmicro : time % 1000000 < 10 ^ 6 := by omega
  by_cases hwritten : seconds ∨ time % 60000000 ≠ 0
  · rw [if_pos hwritten]
    by_cases hzero : time % 1000000 = 0
    · have hread := readDigits_fixedDigits hsecond []
      rw [List.append_nil] at hread
      simp [hzero, readSeconds, hread]
      omega
    · simp [hzero, readSeconds, readDigits_fixedDigits hsecond]
      have hread := readDigits_fixedDigits hmicro []
      rw [List.append_nil] at hread
      simp [hread]
      omega
  · obtain ⟨-, hzero⟩ := not_or.mp hwritten
    have hzero : time % 60000000 = 0 := by omega
    rw [if_neg hwritten, if_neg (by omega)]
    simp [readSeconds, hzero]

/-- A clock reads back. -/
theorem readClock_clockText (seconds : Bool) (h : time < dayMicroseconds) :
    readClock (clockText seconds time) = some time := by
  unfold dayMicroseconds at h
  have hhour : time / 3600000000 < 10 ^ 2 := by omega
  have hminute : time / 60000000 % 60 < 10 ^ 2 := by omega
  have hrest : time / 60000000 % 60 < 60 ∧ time % 60000000 < 60000000 := by omega
  rw [clockText, List.append_assoc, List.append_assoc, List.cons_append, readClock]
  simp only [readDigits_fixedDigits hhour, readChar_cons, Option.bind_eq_bind, Option.bind_some,
    readDigits_fixedDigits hminute, readSeconds_clockText, if_pos hrest]
  have hsum : time / 3600000000 * 3600000000 + time / 60000000 % 60 * 60000000 +
      time % 60000000 = time := by omega
  rw [hsum]
  rfl

theorem mem_clockText {seconds : Bool} (hc : c ∈ clockText seconds time) :
    c.isDigit = true ∨ c = ':' ∨ c = '.' := by
  unfold clockText at hc
  grind [isDigit_of_mem_fixedDigits]

/-- A clock holds no sign. -/
theorem isSign_of_mem_clockText {seconds : Bool} (hc : c ∈ clockText seconds time) :
    isSign c = false := by
  rcases mem_clockText hc with hdigit | rfl | rfl
  · by_contra hsign
    simp only [isSign, Bool.not_eq_false, Bool.or_eq_true, decide_eq_true_eq] at hsign
    rcases hsign with rfl | rfl <;> exact absurd hdigit (by decide)
  · rfl
  · rfl

/-- The characters of a datetime. -/
theorem mem_isoformat (hc : c ∈ value.isoformat.toList) :
    c.isDigit = true ∨ c ∈ ['-', 'T', ':', '.', '+'] := by
  rw [Datetime.isoformat, String.toList_ofList] at hc
  simp only [UtcOffset.text, List.mem_append, List.mem_cons] at hc
  grind [isDigit_of_mem_fixedDigits, mem_clockText]

/-- An offset reads back. -/
theorem readOffset_text (offset : UtcOffset) : readOffset offset.text = some offset := by
  obtain ⟨micros, hbound⟩ := offset
  have hlt : micros.natAbs < dayMicroseconds := by
    rw [Int.abs_eq_natAbs] at hbound
    exact_mod_cast hbound
  rw [UtcOffset.text, readOffset]
  simp only [readClock_clockText false hlt, Option.bind_eq_bind, Option.bind_some, dif_pos hlt]
  by_cases hneg : micros < 0
  · simp [hneg, abs_of_neg hneg]
  · simp [hneg, abs_of_nonneg (not_lt.mp hneg)]

/-- The text of a datetime reads back as the datetime. -/
theorem fromisoformat_isoformat (value : Datetime) :
    Datetime.fromisoformat value.isoformat = .ok value := by
  obtain ⟨⟨year, month, day, hyear, hmonth, hday⟩, ⟨time, htime⟩, offset⟩ := value
  have hdays := daysInMonth_le year month
  have hsign : ∀ c ∈ clockText true time, (!isSign c) = true := fun c hc => by
    rw [isSign_of_mem_clockText hc]
    rfl
  have htake : (clockText true time ++ offset.text).takeWhile (fun c => !isSign c) =
      clockText true time := by
    rw [List.takeWhile_append_of_pos hsign, UtcOffset.text]
    split_ifs <;> simp [isSign]
  have hdrop : (clockText true time ++ offset.text).dropWhile (fun c => !isSign c) =
      offset.text := by
    rw [List.dropWhile_append_of_pos hsign, UtcOffset.text]
    split_ifs <;> simp [isSign]
  have hread : readDatetime (Datetime.isoformat
      ⟨⟨year, month, day, hyear, hmonth, hday⟩, ⟨time, htime⟩, offset⟩).toList =
      some ⟨⟨year, month, day, hyear, hmonth, hday⟩, ⟨time, htime⟩, offset⟩ := by
    rw [Datetime.isoformat, String.toList_ofList, readDatetime]
    simp only [readDigits_fixedDigits (show year < 10 ^ 4 by omega), readChar_cons,
      readDigits_fixedDigits (show month < 10 ^ 2 by omega),
      readDigits_fixedDigits (show day < 10 ^ 2 by omega), Option.bind_eq_bind, Option.bind_some,
      htake, hdrop, readClock_clockText true htime, readOffset_text]
    rw [dif_pos ⟨hyear, hmonth, hday, htime⟩]
    rfl
  rw [Datetime.fromisoformat, hread]

/-! ## The order of the texts -/

/-- Clocks with one offset after them compare as their times. -/
theorem clockText_lt_iff {other : ℕ} (htime : time < dayMicroseconds)
    (hother : other < dayMicroseconds) (offset : List Char) :
    clockText true time ++ '+' :: offset < clockText true other ++ '+' :: offset ↔
      time < other := by
  unfold dayMicroseconds at htime hother
  -- a point comes after the sign, so no microseconds come before some
  have hmicros : ∀ m n : ℕ, m < 10 ^ 6 → n < 10 ^ 6 →
      ((if m ≠ 0 then '.' :: fixedDigits 6 m else []) ++ '+' :: offset <
        (if n ≠ 0 then '.' :: fixedDigits 6 n else []) ++ '+' :: offset ↔ m < n) := by
    intro m n hm hn
    by_cases hmzero : m = 0
    · by_cases hnzero : n = 0
      · simp [hmzero, hnzero]
      · simp only [hmzero, hnzero, ne_eq, not_true_eq_false, not_false_eq_true, if_true, if_false,
          List.nil_append, List.cons_append, List.cons_lt_cons_iff]
        simp only [show ('+' : Char) < '.' by decide, true_or, true_iff]
        omega
    · by_cases hnzero : n = 0
      · simp only [hmzero, hnzero, ne_eq, not_true_eq_false, not_false_eq_true, if_true, if_false,
          List.nil_append, List.cons_append, List.cons_lt_cons_iff]
        simp
      · simp only [hmzero, hnzero, ne_eq, not_false_eq_true, if_true, List.cons_append,
          cons_lt_cons_same, fixedDigits_append_lt_iff hm hn, lt_irrefl, and_false, or_false]
  have hhour : time / 3600000000 < 10 ^ 2 ∧ other / 3600000000 < 10 ^ 2 := by omega
  have hminute : time / 60000000 % 60 < 10 ^ 2 ∧ other / 60000000 % 60 < 10 ^ 2 := by omega
  have hsecond : time / 1000000 % 60 < 10 ^ 2 ∧ other / 1000000 % 60 < 10 ^ 2 := by omega
  have hmicro : time % 1000000 < 10 ^ 6 ∧ other % 1000000 < 10 ^ 6 := by omega
  simp only [clockText, true_or, if_true, List.append_assoc, List.cons_append,
    fixedDigits_append_lt_iff hhour.1 hhour.2, fixedDigits_append_lt_iff hminute.1 hminute.2,
    fixedDigits_append_lt_iff hsecond.1 hsecond.2, cons_lt_cons_same,
    hmicros _ _ hmicro.1 hmicro.2]
  omega

/-- The texts of datetimes in UTC compare as the instants. -/
theorem Datetime.str_lt_iff {other : Datetime} (hvalue : value.utcoffset.microseconds = 0)
    (hother : other.utcoffset.microseconds = 0) :
    value.str < other.str ↔ value.instant < other.instant := by
  have hoffset : ∀ offset : UtcOffset, offset.microseconds = 0 →
      offset.text = '+' :: clockText false 0 := by
    intro offset hzero
    simp [UtcOffset.text, hzero]
  have hyear : value.date.year < 10 ^ 4 ∧ other.date.year < 10 ^ 4 := by
    have h := value.date.year_range
    have h' := other.date.year_range
    omega
  have hmonth : value.date.month < 10 ^ 2 ∧ other.date.month < 10 ^ 2 := by
    have h := value.date.month_range
    have h' := other.date.month_range
    omega
  have hday : value.date.day < 10 ^ 2 ∧ other.date.day < 10 ^ 2 := by
    have h := value.date.day_range
    have h' := other.date.day_range
    have hmax := daysInMonth_le value.date.year value.date.month
    have hmax' := daysInMonth_le other.date.year other.date.month
    omega
  have htime := value.timeOfDay.isLt
  have htime' := other.timeOfDay.isLt
  have hinstant : value.instant < other.instant ↔ value.date.ordinal < other.date.ordinal ∨
      value.date.ordinal = other.date.ordinal ∧ (value.timeOfDay : ℕ) < other.timeOfDay := by
    have hclock : ∀ utc : Datetime, utc.utcoffset.microseconds = 0 → utc.instant =
        (utc.date.ordinal : ℤ) * 86400000000 + (utc.timeOfDay : ℕ) - 86400000000 := by
      intro utc hutc
      rw [Datetime.instant, Datetime.wallClock, hutc, sub_zero]
      rfl
    have hsplit : ∀ m n s t : ℕ, s < 86400000000 → t < 86400000000 →
        ((m : ℤ) * 86400000000 + s - 86400000000 < (n : ℤ) * 86400000000 + t - 86400000000 ↔
          m < n ∨ m = n ∧ s < t) := by
      omega
    rw [hclock _ hvalue, hclock _ hother]
    exact hsplit _ _ _ _ htime htime'
  rw [String.lt_iff_toList_lt, Datetime.str, Datetime.str, String.toList_ofList,
    String.toList_ofList, hoffset _ hvalue, hoffset _ hother]
  simp only [fixedDigits_append_lt_iff hyear.1 hyear.2, fixedDigits_append_lt_iff hmonth.1 hmonth.2,
    fixedDigits_append_lt_iff hday.1 hday.2, cons_lt_cons_same, clockText_lt_iff htime htime']
  rw [hinstant, Date.ordinal_lt_iff, Date.ordinal_eq_iff]
  simp only [and_or_left, or_assoc, and_assoc]

end Goodmoneying.Program
