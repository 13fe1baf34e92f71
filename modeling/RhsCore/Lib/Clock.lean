import Mathlib.Data.List.Lex
import Mathlib.Logic.Function.Iterate
import RhsCore.Lib.Calendar

/-!
# Clocks that run through a calendar

A date and a time of day that move on by a second at a time.  What the calendar
fixes is how long its months are and which year follows a year, so the clock is
stated over those two; the Gregorian clock is one instance, and a clock that
keeps less of the year is another.

## Main definitions

* `Date`, `Instant` — a day, and a second of a day.
* `Rules` — the month lengths and the succession of years of a calendar.
* `Rules.nextDay`, `Rules.tick` — the day after, the second after.
* `gregorian` — the rules of `Calendar`.
* `Date.number`, `Instant.seconds` — the days and the seconds since a base year.
* `firstSecond` — the first second of a year, by which the year of an instant is told.
* `Rules.tick_map` — two clocks that agree on the day after agree on the second after.
-/

namespace RhsCore.Calendar

/-! ## Dates and instants -/

/-- A day of a calendar. -/
@[ext] structure Date where
  year : ℕ
  month : ℕ
  day : ℕ
  deriving DecidableEq, Repr

/-- A second of a day. -/
@[ext] structure Instant where
  date : Date
  hour : ℕ
  minute : ℕ
  second : ℕ
  deriving DecidableEq, Repr

/-- The fields in the order in which dates are compared. -/
def Date.fields (d : Date) : List ℕ := [d.year, d.month, d.day]

/-- The fields in the order in which instants are compared. -/
def Instant.fields (i : Instant) : List ℕ :=
  i.date.fields ++ [i.hour, i.minute, i.second]

/-- A time of day that a clock shows. -/
structure Instant.ValidTime (i : Instant) : Prop where
  hour_lt : i.hour < 24
  minute_lt : i.minute < 60
  second_lt : i.second < 60

instance (i : Instant) : Decidable i.ValidTime :=
  decidable_of_iff (i.hour < 24 ∧ i.minute < 60 ∧ i.second < 60)
    ⟨fun h => ⟨h.1, h.2.1, h.2.2⟩, fun h => ⟨h.1, h.2, h.3⟩⟩

instance (y m d : ℕ) : Decidable (ValidDate y m d) :=
  decidable_of_iff (1 ≤ m ∧ m ≤ 12 ∧ 1 ≤ d ∧ d ≤ monthLength y m)
    ⟨fun h => ⟨h.1, h.2.1, h.2.2.1, h.2.2.2⟩, fun h => ⟨h.1, h.2, h.3, h.4⟩⟩

/-- A day of the Gregorian calendar. -/
def Date.Valid (d : Date) : Prop := ValidDate d.year d.month d.day

/-- A second of the Gregorian calendar. -/
structure Instant.Valid (i : Instant) : Prop where
  date : i.date.Valid
  time : i.ValidTime

/-! ## The day after and the second after -/

/-- What a clock needs to know of its calendar. -/
structure Rules where
  monthLength : ℕ → ℕ → ℕ
  nextYear : ℕ → ℕ

namespace Rules

/-- The day after `d`. -/
def nextDay (c : Rules) (d : Date) : Date :=
  if d.day < c.monthLength d.year d.month then { d with day := d.day + 1 }
  else if d.month < 12 then ⟨d.year, d.month + 1, 1⟩
  else ⟨c.nextYear d.year, 1, 1⟩

/-- The second after `i`. -/
def tick (c : Rules) (i : Instant) : Instant :=
  if i.second < 59 then { i with second := i.second + 1 }
  else if i.minute < 59 then ⟨i.date, i.hour, i.minute + 1, 0⟩
  else if i.hour < 23 then ⟨i.date, i.hour + 1, 0, 0⟩
  else ⟨c.nextDay i.date, 0, 0, 0⟩

variable {c c' : Rules}

theorem validTime_tick {i : Instant} (h : i.ValidTime) : (c.tick i).ValidTime := by
  have h1 := h.hour_lt
  have h2 := h.minute_lt
  have h3 := h.second_lt
  simp only [tick]
  split_ifs <;> constructor <;> dsimp only <;> omega

/-- Two clocks under a map of their dates: where the map takes one clock's day after to the
other's, it takes the second after to the second after. -/
theorem tick_map {f : Date → Date} {i : Instant}
    (h : 23 ≤ i.hour → 59 ≤ i.minute → 59 ≤ i.second →
      f (c.nextDay i.date) = c'.nextDay (f i.date)) :
    { c.tick i with date := f (c.tick i).date } = c'.tick { i with date := f i.date } := by
  simp only [tick]
  split_ifs with hsecond hminute hhour
  · rfl
  · rfl
  · rfl
  · rw [h (not_lt.mp hhour) (not_lt.mp hminute) (not_lt.mp hsecond)]

/-- The seconds of a day, counted from midnight. -/
theorem iterate_tick_midnight (d : Date) {n : ℕ} (hn : n < 86400) :
    c.tick^[n] ⟨d, 0, 0, 0⟩ = ⟨d, n / 3600, n / 60 % 60, n % 60⟩ := by
  induction n with
  | zero => rfl
  | succ n ih =>
      rw [Function.iterate_succ_apply', ih (by omega)]
      simp only [tick]
      split_ifs <;> simp only [Instant.mk.injEq, true_and] <;> omega

/-- A day has 86400 of them. -/
theorem iterate_tick_day (d : Date) :
    c.tick^[86400] ⟨d, 0, 0, 0⟩ = ⟨c.nextDay d, 0, 0, 0⟩ := by
  have hlast : c.tick^[86399] ⟨d, 0, 0, 0⟩ = ⟨d, 23, 59, 59⟩ :=
    iterate_tick_midnight d (by omega)
  rw [show 86400 = 86399 + 1 from rfl, Function.iterate_succ_apply', hlast]
  rfl

end Rules

/-- The Gregorian calendar. -/
def gregorian : Rules := ⟨monthLength, (· + 1)⟩

theorem nextDay_gregorian (d : Date) : gregorian.nextDay d =
    if d.day < monthLength d.year d.month then { d with day := d.day + 1 }
    else if d.month < 12 then ⟨d.year, d.month + 1, 1⟩
    else ⟨d.year + 1, 1, 1⟩ := rfl

/-! ## Days, numbered -/

variable {e : ℕ} {d d' : Date} {i j : Instant}

/-- The days from the first of January of `e` to `d`. -/
def Date.number (e : ℕ) (d : Date) : ℕ := dayNumber e d.year d.month d.day

/-- The seconds from the beginning of the year `e` to `i`. -/
def Instant.seconds (e : ℕ) (i : Instant) : ℕ :=
  86400 * i.date.number e + 3600 * i.hour + 60 * i.minute + i.second

theorem daysBeforeMonth_mono {y m k : ℕ} (h1 : 1 ≤ m) (h : m ≤ k) :
    daysBeforeMonth y m ≤ daysBeforeMonth y k := by
  induction k, h using Nat.le_induction with
  | base => exact le_rfl
  | succ k hk ih =>
      rw [daysBeforeMonth_succ (by omega)]
      omega

/-- After December comes the end of the year. -/
theorem daysBeforeMonth_thirteen (y : ℕ) : daysBeforeMonth y 13 = yearLength y := by
  rw [← sum_monthLengths, daysBeforeMonth, List.take_of_length_le]
  simp [monthLengths]

/-- No month is empty. -/
theorem monthLength_pos {y m : ℕ} (h1 : 1 ≤ m) (h12 : m ≤ 12) : 28 ≤ monthLength y m := by
  interval_cases m <;> by_cases hl : IsLeap y <;> simp [monthLength, monthLengths, hl]

theorem Date.Valid.number_lt (h : d.Valid) (he : e ≤ d.year) :
    d.number e < yearStart e (d.year + 1) := by
  have h1 := h.month_pos
  have h12 := h.month_le
  have hd1 := h.day_pos
  have hd := h.day_le
  have hsucc := daysBeforeMonth_succ (y := d.year) h1
  have hyear := daysBeforeMonth_thirteen d.year
  have hmono := daysBeforeMonth_mono (y := d.year) (m := d.month + 1) (k := 13)
    (by omega) (by omega)
  rw [Date.number, dayNumber, yearStart_succ he]
  omega

/-- The day after a day is a day. -/
theorem Date.Valid.nextDay (h : d.Valid) : (gregorian.nextDay d).Valid := by
  have h1 := h.month_pos
  have h12 := h.month_le
  have hd1 := h.day_pos
  rw [nextDay_gregorian]
  split_ifs with hday hmonth
  · exact ⟨h1, h12, by dsimp only; omega, hday⟩
  · have hpos := monthLength_pos (y := d.year) (m := d.month + 1) (by omega) (by omega)
    exact ⟨by dsimp only; omega, by dsimp only; omega, le_rfl, by dsimp only; omega⟩
  · have hpos := monthLength_pos (y := d.year + 1) (m := 1) (by omega) (by omega)
    exact ⟨le_rfl, by dsimp only; omega, le_rfl, by dsimp only; omega⟩

/-- The day after has the next number. -/
theorem Date.Valid.number_nextDay (h : d.Valid) (he : e ≤ d.year) :
    (gregorian.nextDay d).number e = d.number e + 1 := by
  have h1 := h.month_pos
  have h12 := h.month_le
  have hd1 := h.day_pos
  have hd := h.day_le
  have hsucc := daysBeforeMonth_succ (y := d.year) h1
  rw [nextDay_gregorian]
  split_ifs with hday hmonth
  · simp only [Date.number, dayNumber]
    omega
  · simp only [Date.number, dayNumber, hsucc]
    omega
  · have hm : d.month = 12 := by omega
    have hyear : daysBeforeMonth d.year (12 + 1) = yearLength d.year :=
      daysBeforeMonth_thirteen d.year
    rw [hm] at hsucc hday hd
    simp only [Date.number, dayNumber, yearStart_succ he, hm]
    have hfirst : daysBeforeMonth (d.year + 1) 1 = 0 := by simp [daysBeforeMonth]
    omega

theorem Rules.year_le_nextDay (d : Date) : d.year ≤ (gregorian.nextDay d).year := by
  rw [nextDay_gregorian]
  split_ifs <;> dsimp only <;> omega

/-! ## Instants, numbered -/

theorem Instant.Valid.tick (h : i.Valid) : (gregorian.tick i).Valid := by
  refine ⟨?_, Rules.validTime_tick h.time⟩
  simp only [Rules.tick]
  split_ifs
  · exact h.date
  · exact h.date
  · exact h.date
  · exact h.date.nextDay

/-- The second after has the next number. -/
theorem Instant.Valid.seconds_tick (h : i.Valid) (he : e ≤ i.date.year) :
    (gregorian.tick i).seconds e = i.seconds e + 1 := by
  have h1 := h.time.hour_lt
  have h2 := h.time.minute_lt
  have h3 := h.time.second_lt
  have hnext := h.date.number_nextDay he
  simp only [Rules.tick]
  split_ifs <;> simp only [Instant.seconds] <;> omega

theorem Rules.year_le_tick (i : Instant) : i.date.year ≤ (gregorian.tick i).date.year := by
  simp only [Rules.tick]
  split_ifs
  · exact le_rfl
  · exact le_rfl
  · exact le_rfl
  · exact Rules.year_le_nextDay i.date

/-- `n` seconds later it is a valid instant, of no earlier year, numbered `n` higher. -/
theorem Instant.Valid.iterate_tick (h : i.Valid) (he : e ≤ i.date.year) (n : ℕ) :
    (gregorian.tick^[n] i).Valid ∧ e ≤ (gregorian.tick^[n] i).date.year ∧
      (gregorian.tick^[n] i).seconds e = i.seconds e + n := by
  induction n with
  | zero => exact ⟨h, he, rfl⟩
  | succ n ih =>
      obtain ⟨hv, hy, hs⟩ := ih
      rw [Function.iterate_succ_apply']
      refine ⟨hv.tick, hy.trans (Rules.year_le_tick _), ?_⟩
      rw [hv.seconds_tick hy, hs]
      rfl

/-- `n` days later it is a valid date, of no earlier year, numbered `n` higher. -/
theorem Date.Valid.iterate_nextDay (h : d.Valid) (he : e ≤ d.year) (n : ℕ) :
    (gregorian.nextDay^[n] d).Valid ∧ e ≤ (gregorian.nextDay^[n] d).year ∧
      (gregorian.nextDay^[n] d).number e = d.number e + n := by
  induction n with
  | zero => exact ⟨h, he, rfl⟩
  | succ n ih =>
      obtain ⟨hv, hy, hs⟩ := ih
      rw [Function.iterate_succ_apply']
      refine ⟨hv.nextDay, hy.trans (Rules.year_le_nextDay _), ?_⟩
      rw [hv.number_nextDay hy, hs]
      rfl

/-! ## Earlier is a smaller number -/

/-- Of two days the earlier has the smaller number. -/
theorem Date.Valid.number_lt_number (h : d.Valid) (he : e ≤ d.year)
    (hlt : d.fields < d'.fields) : d.number e < d'.number e := by
  simp only [Date.fields, List.cons_lt_cons_iff, List.not_lt_nil, and_false, or_false] at hlt
  rcases hlt with hyear | ⟨hyear, hmonth | ⟨hmonth, hday⟩⟩
  · have hend := h.number_lt he
    have hmono := yearStart_mono (e := e) (y := d.year + 1) (z := d'.year) (by omega) hyear
    have hstart : yearStart e d'.year ≤ d'.number e := by
      rw [Date.number, dayNumber]
      omega
    omega
  · have hsucc := daysBeforeMonth_succ (y := d.year) h.month_pos
    have hmono := daysBeforeMonth_mono (y := d.year) (m := d.month + 1) (k := d'.month)
      (by omega) hmonth
    have hd := h.day_le
    have hd1 := h.day_pos
    simp only [Date.number, dayNumber, ← hyear]
    omega
  · have hd1 := h.day_pos
    simp only [Date.number, dayNumber, ← hyear, ← hmonth]
    omega

theorem Date.Valid.eq_of_number_eq (h : d.Valid) (h' : d'.Valid) (he : e ≤ d.year)
    (he' : e ≤ d'.year) (heq : d.number e = d'.number e) : d = d' := by
  rcases lt_trichotomy d.fields d'.fields with hlt | hfields | hlt
  · exact absurd heq (h.number_lt_number he hlt).ne
  · simp only [Date.fields, List.cons.injEq, and_true] at hfields
    exact Date.ext hfields.1 hfields.2.1 hfields.2.2
  · exact absurd heq.symm (h'.number_lt_number he' hlt).ne

/-- The day numbered `n` is the `n`-th after the first of January of the base year. -/
theorem Date.Valid.iterate_number (h : d.Valid) (he : e ≤ d.year) :
    gregorian.nextDay^[d.number e] ⟨e, 1, 1⟩ = d := by
  have hfirst : Date.Valid ⟨e, 1, 1⟩ :=
    ⟨le_rfl, Nat.succ_le_succ (Nat.zero_le _), le_rfl,
      (by omega : 1 ≤ 28).trans (monthLength_pos (y := e) (m := 1) le_rfl (by decide))⟩
  obtain ⟨hv, hy, hn⟩ := hfirst.iterate_nextDay (e := e) le_rfl (d.number e)
  apply hv.eq_of_number_eq h hy he
  rw [hn]
  simp [Date.number, dayNumber, daysBeforeMonth]

/-- Of two instants the earlier has the smaller number. -/
theorem Instant.Valid.seconds_lt_seconds (h : i.Valid) (he : e ≤ i.date.year)
    (hlt : i.fields < j.fields) : i.seconds e < j.seconds e := by
  have h1 := h.time.hour_lt
  have h2 := h.time.minute_lt
  have h3 := h.time.second_lt
  rcases lt_trichotomy i.date.fields j.date.fields with hdate | hdate | hdate
  · have hnum := h.date.number_lt_number he hdate
    simp only [Instant.seconds]
    omega
  · have hfields := hdate
    simp only [Date.fields, List.cons.injEq, and_true] at hfields
    have hd : i.date = j.date := Date.ext hfields.1 hfields.2.1 hfields.2.2
    simp only [Instant.fields, hd, Date.fields, List.cons_append, List.nil_append,
      List.cons_lt_cons_iff, lt_irrefl, true_and, false_or, and_false, or_false] at hlt
    simp only [Instant.seconds, hd]
    omega
  · simp only [Date.fields, List.cons_lt_cons_iff, List.not_lt_nil, and_false, or_false] at hdate
    simp only [Instant.fields, Date.fields, List.cons_append, List.nil_append,
      List.cons_lt_cons_iff] at hlt
    omega

/-- The order of the fields is the order of the numbers. -/
theorem Instant.Valid.fields_lt_iff (h : i.Valid) (h' : j.Valid) (he : e ≤ i.date.year)
    (he' : e ≤ j.date.year) : i.fields < j.fields ↔ i.seconds e < j.seconds e := by
  refine ⟨h.seconds_lt_seconds he, fun hlt => ?_⟩
  rcases lt_trichotomy i.fields j.fields with hfields | hfields | hfields
  · exact hfields
  · simp only [Instant.fields, Date.fields, List.cons_append, List.nil_append, List.cons.injEq,
      and_true] at hfields
    simp only [Instant.seconds, Date.number, hfields] at hlt
    exact absurd hlt (lt_irrefl _)
  · exact absurd (h'.seconds_lt_seconds he' hfields) (by omega)

theorem Instant.Valid.fields_le_iff (h : i.Valid) (h' : j.Valid) (he : e ≤ i.date.year)
    (he' : e ≤ j.date.year) : i.fields ≤ j.fields ↔ i.seconds e ≤ j.seconds e := by
  rw [← not_lt, ← not_lt, h'.fields_lt_iff h he' he]

/-- Instants are told apart by their numbers. -/
theorem Instant.Valid.eq_of_seconds_eq (h : i.Valid) (h' : j.Valid) (he : e ≤ i.date.year)
    (he' : e ≤ j.date.year) (heq : i.seconds e = j.seconds e) : i = j := by
  have h1 := h.time.hour_lt
  have h2 := h.time.minute_lt
  have h3 := h.time.second_lt
  have h1' := h'.time.hour_lt
  have h2' := h'.time.minute_lt
  have h3' := h'.time.second_lt
  simp only [Instant.seconds] at heq
  have hdate : i.date = j.date := h.date.eq_of_number_eq h'.date he he' (by omega)
  rw [hdate] at heq
  exact Instant.ext hdate (by omega) (by omega) (by omega)

/-- The instant numbered `n` higher is `n` seconds later. -/
theorem Instant.Valid.iterate_tick_eq (h : i.Valid) (h' : j.Valid) (he : e ≤ i.date.year)
    (he' : e ≤ j.date.year) {n : ℕ} (hn : j.seconds e = i.seconds e + n) :
    gregorian.tick^[n] i = j := by
  obtain ⟨hv, hy, hs⟩ := h.iterate_tick he n
  exact hv.eq_of_seconds_eq h' hy he' (hs.trans hn.symm)

/-- The first second of a year. -/
def firstSecond (y : ℕ) : Instant := ⟨⟨y, 1, 1⟩, 0, 0, 0⟩

theorem seconds_firstSecond (e y : ℕ) : (firstSecond y).seconds e = 86400 * yearStart e y := rfl

/-- The year of an instant is the last that has begun. -/
theorem Instant.Valid.le_year_iff (h : i.Valid) (he : e ≤ i.date.year) {y : ℕ} (hy : e ≤ y) :
    y ≤ i.date.year ↔ (firstSecond y).seconds e ≤ i.seconds e := by
  have h1 := h.time.hour_lt
  have h2 := h.time.minute_lt
  have h3 := h.time.second_lt
  rw [seconds_firstSecond, Instant.seconds]
  constructor
  · intro hle
    have hstart := yearStart_mono hy hle
    have hnumber : yearStart e i.date.year ≤ i.date.number e := by
      rw [Date.number, dayNumber, Nat.add_assoc]
      exact Nat.le_add_right _ _
    omega
  · intro hle
    by_contra hlt
    have hend := h.date.number_lt he
    have hstart := yearStart_mono (e := e) (y := i.date.year + 1) (z := y) (by omega) (by omega)
    omega

end RhsCore.Calendar
