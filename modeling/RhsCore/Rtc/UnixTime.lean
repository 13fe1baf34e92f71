import RhsCore.Lib.Calendar

/-!
# Unix time and calendar dates

The two conversions of `hal/rhs_hal_rtc/unixtime/unixtime.c`, on the machine
integers of the source.  The decoder guesses the year as `days / 365`, counts the
leap days of the years before the guess, and divides again; the encoder evaluates
a closed formula.

The guess is one year too late on the last days of a year, and when that year is
itself a leap year its own leap day is subtracted from the day count before the
year is over.  `leapYearTail` names those days; on them the decoded date is the
day before, and on all others it is the right one.

## Main definitions

* `DatetimeT` — the fields of `datetime_t`.
* `convertUnixTime2Date`, `convertDate2UnixTime` — the two conversions.
* `leapYearTail` — the days that the decoder maps to the day before.
-/

namespace RhsCore.UnixTime
open RhsCore.Calendar

/-! ## The source's functions -/

/-- `datetime_t`. -/
structure DatetimeT where
  hours : UInt32
  minutes : UInt32
  seconds : UInt32
  mseconds : UInt32
  day : UInt32
  month : UInt32
  year : UInt32
  weekday : UInt32
  deriving DecidableEq, Repr

/-- The leap-year test, as both loops of the decoder write it. -/
def isLeapYear (y : UInt32) : Bool := (y % 4 == 0 && y % 100 != 0) || y % 400 == 0

/-- `month_days`, with February set for the year. -/
def monthDays (leap : Bool) : List UInt8 :=
  [31, if leap then 29 else 28, 31, 30, 31, 30, 31, 31, 30, 31, 30, 31]

/-- `week_days`: day zero of the epoch is a Thursday. -/
def weekDays : List UInt32 := [4, 5, 6, 0, 1, 2, 3]

/-- The values of `i` in `for (int i = 1972; i < year; i += 4)`. -/
def leapLoopYears (year : UInt32) : List ℕ := List.range' 1972 ((year.toNat - 1972 + 3) / 4) 4

/-- The leap days counted by that loop, in an `unsigned char`. -/
def countLeapDays (year : UInt32) : UInt8 :=
  (leapLoopYears year).foldl (fun acc i => if isLeapYear (UInt32.ofNat i) then acc + 1 else acc) 0

/-- The month loop: stop at the first month whose preceding days cover
`dayOfYear`, and return that month with the days counted so far. -/
def monthLoop (dayOfYear : UInt32) : List UInt8 → UInt32 → UInt16 → UInt32 × UInt16
  | [], month, tempDays => (month, tempDays)
  | len :: rest, month, tempDays =>
      if dayOfYear ≤ tempDays.toUInt32 then (month, tempDays)
      else monthLoop dayOfYear rest (month + 1) (tempDays + len.toUInt16)

/-- `convert_unix_time_2_date`.  The source never assigns `mseconds`, so the
caller gets what the local held, which is `unassigned` here. -/
def convertUnixTime2Date (unassigned : UInt32) (seconds : UInt64) : DatetimeT :=
  let daysSinceEpoch := (seconds / 60 / 60 / 24).toUInt32
  let ballparkYear := 1970 + daysSinceEpoch / 365
  let leapDays := (countLeapDays ballparkYear).toUInt32
  let year := 1970 + (daysSinceEpoch - leapDays) / 365
  let dayOfYear := (daysSinceEpoch - leapDays) % 365 + 1
  let months := monthDays (isLeapYear year)
  let (month, counted) := monthLoop dayOfYear months 0 0
  let tempDays := counted - (months.getD (month - 1).toNat 0).toUInt16
  { hours := (seconds / 60 / 60 % 24).toUInt32
    minutes := (seconds / 60 % 60).toUInt32
    seconds := (seconds % 60).toUInt32
    mseconds := unassigned
    day := dayOfYear - tempDays.toUInt32
    month := month
    year := year
    weekday := weekDays.getD (daysSinceEpoch % 7).toNat 0 }

/-- The day count of the encoder's formula, for a year that begins in March. -/
def marchDays (y m d : UInt32) : UInt32 :=
  365 * y + y / 4 - y / 100 + y / 400 + (30 * m + 3 * (m + 1) / 5 + d) - 719561

/-- `convert_date_2_unix_time`: January and February count as months 13 and 14 of
the previous year. -/
def convertDate2UnixTime (date : DatetimeT) : UInt32 :=
  let days :=
    if date.month ≤ 2 then marchDays (date.year - 1) (date.month + 12) date.day
    else marchDays date.year date.month date.day
  days * 86400 + (3600 * date.hours + 60 * date.minutes + date.seconds)

/-! ## The encoder -/

theorem leapsBefore_1970 {y : ℕ} (h : 1970 ≤ y) :
    leapsBefore 1970 y + 477 = leapQuotients (y - 1) := by
  obtain ⟨k, rfl⟩ : ∃ k, y = k + 1 := ⟨y - 1, by omega⟩
  have hk : leapsBefore 1970 (k + 1) + leapQuotients 1969 = leapQuotients k :=
    leapsBefore_add_leapQuotients (by omega)
  have hq : leapQuotients 1969 = 477 := by decide
  simp only [Nat.add_sub_cancel]
  omega

theorem toNat_marchDays {y m d : UInt32} {n : ℕ} (hy : y.toNat < 10000) (hm : m.toNat < 20)
    (hd : d.toNat ≤ 31)
    (hn : 365 * y.toNat + leapQuotients y.toNat + 30 * m.toNat + 3 * (m.toNat + 1) / 5 + d.toNat
      = n + 719561) :
    (marchDays y m d).toNat = n := by
  rw [leapQuotients] at hn
  have hyear : (365 * y + y / 4 - y / 100 + y / 400).toNat =
      365 * y.toNat + y.toNat / 4 - y.toNat / 100 + y.toNat / 400 := by
    simp only [UInt32.toNat_add, UInt32.toNat_mul, UInt32.toNat_sub, UInt32.toNat_div,
      UInt32.reduceToNat]
    omega
  have hmonth : (30 * m + 3 * (m + 1) / 5 + d).toNat =
      30 * m.toNat + 3 * (m.toNat + 1) / 5 + d.toNat := by
    simp (disch := omega) only [UInt32.toNat_add, UInt32.toNat_mul, UInt32.toNat_div,
      UInt32.reduceToNat, Nat.mod_eq_of_lt]
  simp only [marchDays, UInt32.toNat_sub, UInt32.toNat_add _ (30 * m + _ + d), hyear, hmonth,
    UInt32.reduceToNat]
  omega

/-- On a date of the calendar the encoder counts the days since 1970 and then the
seconds of the day, modulo `2 ^ 32`. -/
theorem toNat_convertDate2UnixTime (date : DatetimeT)
    (hv : ValidDate date.year.toNat date.month.toNat date.day.toNat)
    (hlo : 1970 ≤ date.year.toNat) (hhi : date.year.toNat < 10000) :
    (convertDate2UnixTime date).toNat =
      (86400 * dayNumber 1970 date.year.toNat date.month.toNat date.day.toNat
        + 3600 * date.hours.toNat + 60 * date.minutes.toNat + date.seconds.toNat) % 2 ^ 32 := by
  have hm := hv.month_le
  have hm1 := hv.month_pos
  have hd := hv.day_le.trans (monthLength_le _ _)
  have hd1 := hv.day_pos
  have hs := leapsBefore_1970 hlo
  have hdays : (if date.month ≤ 2 then marchDays (date.year - 1) (date.month + 12) date.day
      else marchDays date.year date.month date.day).toNat
      = dayNumber 1970 date.year.toNat date.month.toNat date.day.toNat := by
    rw [dayNumber, yearStart]
    split
    case isTrue h =>
      have h2 : date.month.toNat ≤ 2 := by simpa [UInt32.le_iff_toNat_le] using h
      have hm12 : (date.month + 12).toNat = date.month.toNat + 12 := by
        simp only [UInt32.toNat_add, UInt32.reduceToNat]; omega
      have hy1 : (date.year - 1).toNat = date.year.toNat - 1 := by
        simp only [UInt32.toNat_sub, UInt32.reduceToNat]; omega
      have hb := daysBeforeMonth_early (y := date.year.toNat) hm1 h2
      apply toNat_marchDays (by omega) (by omega) hd
      rw [hm12, hy1]
      omega
    case isFalse h =>
      have h2 : 2 < date.month.toNat := by simpa [UInt32.le_iff_toNat_le] using h
      have hb := daysBeforeMonth_late (y := date.year.toNat) h2 hm
      have hq := leapQuotients_succ (date.year.toNat - 1)
      rw [Nat.sub_add_cancel (by omega)] at hq
      apply toNat_marchDays hhi (by omega) hd
      omega
  simp only [convertDate2UnixTime, UInt32.toNat_add, UInt32.toNat_mul, hdays, UInt32.reduceToNat]
  omega

/-! ## The decoder's loops -/

theorem isLeapYear_eq (y : UInt32) : isLeapYear y = decide (IsLeap y.toNat) := by
  rw [Bool.eq_iff_iff, decide_eq_true_eq]
  simp [isLeapYear, IsLeap, ← UInt32.toNat_inj]

/-- After `k` turns the leap-day loop has counted the leap years up to `1968 + 4 * k`. -/
theorem toNat_foldl_leapDays (k : ℕ) (hk : k ≤ 255) :
    ∃ acc : UInt8, (List.range' 1972 k 4).foldl
      (fun acc i => if isLeapYear (UInt32.ofNat i) then acc + 1 else acc) (0 : UInt8) = acc ∧
      acc.toNat + 477 = leapQuotients (4 * (492 + k)) ∧ acc.toNat ≤ k := by
  induction k with
  | zero => exact ⟨0, rfl, by decide⟩
  | succ k ih =>
      obtain ⟨acc, hacc, hcount, hle⟩ := ih (by omega)
      have hy : (UInt32.ofNat (1972 + 4 * k)).toNat = 4 * (492 + k) + 4 := by
        rw [UInt32.toNat_ofNat']; omega
      rw [List.range'_concat, List.foldl_append, hacc]
      simp only [List.foldl_cons, List.foldl_nil, isLeapYear_eq, hy, decide_eq_true_eq]
      refine ⟨_, rfl, ?_⟩
      have hq : leapQuotients (4 * (492 + (k + 1))) = leapQuotients (4 * (492 + k))
          + if IsLeap (4 * (492 + k) + 4) then 1 else 0 := leapQuotients_add_four (492 + k)
      rw [hq]
      split
      · simp only [UInt8.toNat_add, UInt8.reduceToNat]
        omega
      · omega

theorem toNat_countLeapDays {y : UInt32} (hlo : 1970 ≤ y.toNat) (hhi : y.toNat < 2900) :
    (countLeapDays y).toNat = leapsBefore 1970 y.toNat := by
  obtain ⟨acc, hacc, hcount, -⟩ := toNat_foldl_leapDays ((y.toNat - 1972 + 3) / 4) (by omega)
  have hl := leapsBefore_1970 hlo
  rw [countLeapDays, leapLoopYears, hacc]
  simp only [leapQuotients] at hcount hl
  omega

/-- The month loop stops at the month in which the day of the year lies. -/
theorem monthLoop_spec (doy : UInt32) (lens : List UInt8) (month : UInt32) (temp : UInt16)
    (hlo : temp.toNat < doy.toNat) (hhi : doy.toNat ≤ temp.toNat + (lens.map UInt8.toNat).sum)
    (hmonth : month.toNat + lens.length < 2 ^ 32)
    (htemp : temp.toNat + (lens.map UInt8.toNat).sum < 2 ^ 16) :
    ∃ k < lens.length,
      (monthLoop doy lens month temp).1.toNat = month.toNat + (k + 1) ∧
      (monthLoop doy lens month temp).2.toNat
        = temp.toNat + ((lens.map UInt8.toNat).take (k + 1)).sum ∧
      temp.toNat + ((lens.map UInt8.toNat).take k).sum < doy.toNat ∧
      doy.toNat ≤ temp.toNat + ((lens.map UInt8.toNat).take (k + 1)).sum := by
  induction lens generalizing month temp with
  | nil => simp at hhi; omega
  | cons len rest ih =>
      simp only [List.map_cons, List.sum_cons, List.length_cons] at hhi hmonth htemp
      have hgo : ¬ doy ≤ temp.toUInt32 := by
        rw [UInt32.le_iff_toNat_le, UInt16.toNat_toUInt32]; omega
      have hm1 : (month + 1).toNat = month.toNat + 1 := by
        simp only [UInt32.toNat_add, UInt32.reduceToNat]; omega
      have ht1 : (temp + len.toUInt16).toNat = temp.toNat + len.toNat := by
        simp only [UInt16.toNat_add, UInt8.toNat_toUInt16]; omega
      simp only [monthLoop, if_neg hgo]
      by_cases hnext : doy.toNat ≤ temp.toNat + len.toNat
      · -- the loop leaves at its next test
        have hstop : monthLoop doy rest (month + 1) (temp + len.toUInt16)
            = (month + 1, temp + len.toUInt16) := by
          cases rest with
          | nil => rfl
          | cons _ _ =>
              rw [monthLoop, if_pos]
              rw [UInt32.le_iff_toNat_le, UInt16.toNat_toUInt32, ht1]
              exact hnext
        refine ⟨0, by simp, by simpa [hstop] using hm1, by simpa [hstop] using ht1, ?_, ?_⟩
        · simpa using hlo
        · simpa using hnext
      · obtain ⟨k, hk, h1, h2, h3, h4⟩ := ih (month + 1) (temp + len.toUInt16)
          (by omega) (by omega) (by omega) (by rw [ht1]; omega)
        refine ⟨k + 1, by simpa using hk, ?_⟩
        rw [ht1] at h2 h3 h4
        simp only [h1, h2, List.map_cons, List.take_succ_cons, List.sum_cons]
        omega

/-! ## The decoder's year -/

/-- The last `leapsBefore 1970 y + 1` days of a leap year `y`. -/
def leapYearTail (n : ℕ) : Prop :=
  ∃ y, 1970 ≤ y ∧ IsLeap y ∧ n < yearStart 1970 (y + 1) ∧
    yearStart 1970 (y + 1) ≤ n + leapsBefore 1970 y + 1

/-- The days by which the decoder is behind on day `n`, which lies in year `y`. -/
def lag (y n : ℕ) : ℕ :=
  if IsLeap y ∧ yearStart 1970 (y + 1) ≤ n + leapsBefore 1970 y + 1 then 1 else 0

/-- The first leap year after 1970 is 1972, and they are four years apart. -/
theorem four_mul_leapsBefore_le {y : ℕ} (h : 1970 ≤ y) :
    4 * leapsBefore 1970 y ≤ y - 1970 + 1 := by
  have := leapsBefore_1970 h
  simp only [leapQuotients] at this
  omega

theorem leapYearTail_iff {y n : ℕ} (hn : n ≤ 49710) (hy : 1970 ≤ y)
    (hlo : yearStart 1970 y ≤ n) (hhi : n < yearStart 1970 (y + 1)) :
    leapYearTail n ↔ lag y n = 1 := by
  rw [lag]
  constructor
  · rintro ⟨z, hz, hleap, hzhi, htail⟩
    have hs := yearStart_succ hz
    have hL := four_mul_leapsBefore_le hz
    have hyz : y = z := by
      apply year_unique hy hz hlo hhi _ hzhi
      rw [yearLength, if_pos hleap] at hs
      have hL' : leapsBefore 1970 z ≤ 365 := by
        rw [yearStart] at hs htail
        omega
      clear hL
      omega
    subst hyz
    rw [if_pos ⟨hleap, htail⟩]
  · intro h
    split at h
    · rename_i hc
      exact ⟨y, hy, hc.1, hhi, hc.2⟩
    · omega

/-- Without the leap days of the guessed year, the day count is 365 days for every year up
to the right one and then, but for the lag, the day of that year. -/
theorem decode_days {n y : ℕ} (hn : n ≤ 49710) (hy : 1970 ≤ y) (hlo : yearStart 1970 y ≤ n)
    (hhi : n < yearStart 1970 (y + 1)) :
    ∃ r < 365, n - leapsBefore 1970 (1970 + n / 365) = 365 * (y - 1970) + r ∧
      r + lag y n = n - yearStart 1970 y := by
  have hL := four_mul_leapsBefore_le hy
  have hsucc := yearStart_succ hy
  have hstart : yearStart 1970 y = 365 * (y - 1970) + leapsBefore 1970 y := rfl
  have hL' : leapsBefore 1970 y ≤ 36 := by omega
  clear hL
  rw [lag]
  by_cases hg : n / 365 = y - 1970
  · -- the guess is right
    have hy' : 1970 + n / 365 = y := by omega
    have hlag : ¬ (IsLeap y ∧ yearStart 1970 (y + 1) ≤ n + leapsBefore 1970 y + 1) := by
      rintro ⟨hl, htail⟩
      rw [yearLength, if_pos hl] at hsucc
      omega
    rw [hy', if_neg hlag]
    exact ⟨n - yearStart 1970 y, by omega, by omega, by omega⟩
  · -- the guess is one year too late
    have hlen : yearLength y ≤ 366 := by rw [yearLength]; split <;> omega
    have hy' : 1970 + n / 365 = y + 1 := by omega
    have hd1 : 365 * (y - 1970) + 365 ≤ n := by omega
    rw [hy', leapsBefore_succ hy]
    rw [yearLength] at hsucc
    by_cases hl : IsLeap y
    · rw [if_pos hl] at hsucc
      have htail : yearStart 1970 (y + 1) ≤ n + leapsBefore 1970 y + 1 := by
        clear hg hy'
        omega
      rw [if_pos hl, if_pos ⟨hl, htail⟩]
      exact ⟨n - yearStart 1970 y - 1, by omega, by omega, by omega⟩
    · rw [if_neg hl] at hsucc
      rw [if_neg hl, if_neg (fun h => hl h.1)]
      exact ⟨n - yearStart 1970 y, by omega, by omega, by omega⟩

/-- Taking off the leap days does not wrap. -/
theorem toNat_sub_countLeapDays {d : UInt32} (hd : d.toNat ≤ 49710) :
    (d - (countLeapDays (1970 + d / 365)).toUInt32).toNat
      = d.toNat - leapsBefore 1970 (1970 + d.toNat / 365) := by
  have hguess : (1970 + d / 365).toNat = 1970 + d.toNat / 365 := by
    simp only [UInt32.toNat_add, UInt32.toNat_div, UInt32.reduceToNat]
    omega
  have hcount := toNat_countLeapDays (y := 1970 + d / 365) (by omega) (by omega)
  rw [hguess] at hcount
  have hle := four_mul_leapsBefore_le (y := 1970 + d.toNat / 365) (by omega)
  have hle' : leapsBefore 1970 (1970 + d.toNat / 365) ≤ d.toNat := by omega
  rw [UInt32.toNat_sub_of_le]
  · rw [UInt8.toNat_toUInt32, hcount]
  · rw [UInt32.le_iff_toNat_le, UInt8.toNat_toUInt32, hcount]
    exact hle'

/-- The year and the day of the year that the decoder computes. -/
theorem decode_year {d : UInt32} {y : ℕ} (hd : d.toNat ≤ 49710) (hy : 1970 ≤ y)
    (hlo : yearStart 1970 y ≤ d.toNat) (hhi : d.toNat < yearStart 1970 (y + 1)) :
    (1970 + (d - (countLeapDays (1970 + d / 365)).toUInt32) / 365).toNat = y ∧
      ((d - (countLeapDays (1970 + d / 365)).toUInt32) % 365 + 1).toNat + lag y d.toNat
        = d.toNat - yearStart 1970 y + 1 ∧
      0 < ((d - (countLeapDays (1970 + d / 365)).toUInt32) % 365 + 1).toNat := by
  obtain ⟨r, hr, hdays, hlag⟩ := decode_days hd hy hlo hhi
  have hsub := toNat_sub_countLeapDays hd
  rw [hdays] at hsub
  have hsmall := (d - (countLeapDays (1970 + d / 365)).toUInt32).toNat_lt
  have hyear : (1970 + (d - (countLeapDays (1970 + d / 365)).toUInt32) / 365).toNat = y := by
    simp only [UInt32.toNat_add, UInt32.toNat_div, hsub, UInt32.reduceToNat]
    omega
  have hdoy : ((d - (countLeapDays (1970 + d / 365)).toUInt32) % 365 + 1).toNat = r + 1 := by
    simp only [UInt32.toNat_add, UInt32.toNat_mod, hsub, UInt32.reduceToNat]
    omega
  refine ⟨hyear, ?_, ?_⟩
  · rw [hdoy]
    omega
  · rw [hdoy]
    exact Nat.succ_pos r

/-! ## The decoded date -/

@[simp] theorem map_toNat_monthDays (leap : Bool) :
    (monthDays leap).map UInt8.toNat = monthLengths leap := by
  cases leap <;> rfl

theorem toNat_getD_monthDays (y k : ℕ) :
    ((monthDays (decide (IsLeap y))).getD k 0).toNat = monthLength y (k + 1) := by
  simp only [monthLength, ← map_toNat_monthDays, Nat.add_sub_cancel,
    List.getD_eq_getElem?_getD, List.getElem?_map]
  cases (monthDays (decide (IsLeap y)))[k]? <;> rfl

/-- The month and the day of the month that the decoder computes from the day of the year. -/
theorem decode_month {doy : UInt32} {y : ℕ} (hpos : 0 < doy.toNat)
    (hle : doy.toNat ≤ yearLength y) :
    ∃ month counted, monthLoop doy (monthDays (decide (IsLeap y))) 0 0 = (month, counted) ∧
      let temp := counted - ((monthDays (decide (IsLeap y))).getD (month - 1).toNat 0).toUInt16
      ValidDate y month.toNat (doy - temp.toUInt32).toNat ∧
        daysBeforeMonth y month.toNat + (doy - temp.toUInt32).toNat = doy.toNat := by
  obtain ⟨k, hk, hmonth, hcounted, hbefore, hafter⟩ := monthLoop_spec doy
    (monthDays (decide (IsLeap y))) 0 0 hpos
    (by rw [map_toNat_monthDays, sum_monthLengths]; simpa using hle)
    (by cases decide (IsLeap y) <;> decide) (by cases decide (IsLeap y) <;> decide)
  simp only [map_toNat_monthDays, UInt32.reduceToNat, UInt16.reduceToNat, Nat.zero_add]
    at hmonth hcounted hbefore hafter
  have hk12 : k < 12 := by simpa [monthDays] using hk
  rcases hloop : monthLoop doy (monthDays (decide (IsLeap y))) 0 0 with ⟨month, counted⟩
  rw [hloop] at hmonth hcounted
  dsimp only at hmonth hcounted
  have htake : ((monthLengths (decide (IsLeap y))).take (k + 1)).sum
      = daysBeforeMonth y (k + 1) + monthLength y (k + 1) := daysBeforeMonth_succ (by omega)
  have htake' : ((monthLengths (decide (IsLeap y))).take k).sum = daysBeforeMonth y (k + 1) := rfl
  have hlen := monthLength_le y (k + 1)
  rw [htake] at hcounted hafter
  rw [htake'] at hbefore
  have hone : (1 : UInt32) ≤ month := by
    simp only [UInt32.le_iff_toNat_le, UInt32.reduceToNat]
    omega
  have hindex : (month - 1).toNat = k := by
    rw [UInt32.toNat_sub_of_le _ _ hone, hmonth]
    simp
  have htemp : (counted -
      ((monthDays (decide (IsLeap y))).getD (month - 1).toNat 0).toUInt16).toNat
        = daysBeforeMonth y (k + 1) := by
    rw [hindex, UInt16.toNat_sub_of_le]
    · rw [UInt8.toNat_toUInt16, toNat_getD_monthDays, hcounted]
      omega
    · rw [UInt16.le_iff_toNat_le, UInt8.toNat_toUInt16, toNat_getD_monthDays, hcounted]
      omega
  have hday : (doy - (counted - ((monthDays (decide (IsLeap y))).getD
      (month - 1).toNat 0).toUInt16).toUInt32).toNat = doy.toNat - daysBeforeMonth y (k + 1) := by
    rw [UInt32.toNat_sub_of_le]
    · rw [UInt16.toNat_toUInt32, htemp]
    · rw [UInt32.le_iff_toNat_le, UInt16.toNat_toUInt32, htemp]
      omega
  refine ⟨month, counted, rfl, ?_, ?_⟩
  · rw [hday, hmonth]
    exact ⟨by omega, by omega, by omega, by omega⟩
  · rw [hday, hmonth]
    omega

/-- The decoded date is a date of the calendar, in the year of the day count, and
it lies `lag` days before the right one. -/
theorem convertUnixTime2Date_spec (unassigned t : UInt32) {y : ℕ} (hy : 1970 ≤ y)
    (hlo : yearStart 1970 y ≤ t.toNat / 86400) (hhi : t.toNat / 86400 < yearStart 1970 (y + 1)) :
    let date := convertUnixTime2Date unassigned t.toUInt64
    date.year.toNat = y ∧ ValidDate y date.month.toNat date.day.toNat ∧
      dayNumber 1970 y date.month.toNat date.day.toNat + lag y (t.toNat / 86400)
        = t.toNat / 86400 := by
  have ht := t.toNat_lt
  have hd : (t.toUInt64 / 60 / 60 / 24).toUInt32.toNat = t.toNat / 86400 := by
    simp only [UInt64.toNat_toUInt32, UInt64.toNat_div, UInt32.toNat_toUInt64, UInt64.reduceToNat]
    omega
  rw [← hd] at hlo hhi ⊢
  obtain ⟨hyear, hdoy, hdoy_pos⟩ := decode_year (by omega) hy hlo hhi
  have hlen := yearStart_succ hy
  obtain ⟨month, counted, hloop, hvalid, hday⟩ := decode_month (y := y) hdoy_pos (by omega)
  simp only [convertUnixTime2Date, isLeapYear_eq, hyear, hloop]
  have hday_pos := hvalid.day_pos
  refine ⟨trivial, hvalid, ?_⟩
  rw [dayNumber]
  omega

/-- The decoded time of day. -/
theorem convertUnixTime2Date_timeOfDay (unassigned t : UInt32) :
    let date := convertUnixTime2Date unassigned t.toUInt64
    3600 * date.hours.toNat + 60 * date.minutes.toNat + date.seconds.toNat
      = t.toNat % 86400 := by
  have ht := t.toNat_lt
  simp only [convertUnixTime2Date, UInt64.toNat_toUInt32, UInt64.toNat_mod, UInt64.toNat_div,
    UInt32.toNat_toUInt64, UInt64.reduceToNat]
  omega

/-! ## The round trip -/

/-- Decoding an instant and encoding the date again gives the instant back,
except on the tail of a leap year, where a day is lost. -/
theorem convertDate2UnixTime_convertUnixTime2Date (unassigned t : UInt32) :
    convertDate2UnixTime (convertUnixTime2Date unassigned t.toUInt64) = t ↔
      ¬ leapYearTail (t.toNat / 86400) := by
  have ht := t.toNat_lt
  obtain ⟨y, hy, hlo, hhi⟩ := exists_year 1970 (t.toNat / 86400)
  obtain ⟨hyear, hvalid, hday⟩ := convertUnixTime2Date_spec unassigned t hy hlo hhi
  have htail := leapYearTail_iff (by omega) hy hlo hhi
  have hlag : lag y (t.toNat / 86400) ≤ 1 := by rw [lag]; split <;> omega
  have hy10000 : y < 10000 := by
    rw [yearStart] at hlo
    omega
  have henc := toNat_convertDate2UnixTime (convertUnixTime2Date unassigned t.toUInt64)
    (by rw [hyear]; exact hvalid) (by omega) (by omega)
  rw [← UInt32.toNat_inj, henc, hyear, htail]
  have htime := convertUnixTime2Date_timeOfDay unassigned t
  dsimp only at htime
  rw [Nat.add_assoc, Nat.add_assoc, ← Nat.add_assoc (3600 * _), htime]
  generalize dayNumber 1970 y _ _ = days at hday
  clear htime henc hlo hhi
  omega

/-- The last day of 1972 decodes to the day before it. -/
theorem last_day_of_1972_lost :
    convertDate2UnixTime (convertUnixTime2Date 0 (94608000 : UInt32).toUInt64) ≠ 94608000 := by
  decide

end RhsCore.UnixTime
