import Mathlib.Algebra.Order.BigOperators.Group.Finset
import Mathlib.Order.Interval.Finset.Nat
import Mathlib.Tactic.IntervalCases

/-!
# The proleptic Gregorian calendar, counted in days

Years, months and days are natural numbers; a date is numbered by the days that
separate it from the first of January of a base year.  Everything is stated over
an arbitrary base year, so a program that counts from its own epoch instantiates
the base and keeps the lemmas.

## Main definitions

* `IsLeap`, `yearLength`, `monthLengths` — the calendar's rules.
* `leapsBefore e y` — how many leap years lie in `[e, y)`.
* `yearStart e y` — the day number of the first of January of `y`.
* `dayNumber e y m d` — the day number of a date.
* `exists_year` — every day number falls into exactly one year.
-/

namespace RhsCore.Calendar

/-! ## Years -/

/-- The Gregorian leap-year rule. -/
def IsLeap (y : ℕ) : Prop := (y % 4 = 0 ∧ y % 100 ≠ 0) ∨ y % 400 = 0

instance : DecidablePred IsLeap := fun y =>
  inferInstanceAs (Decidable ((y % 4 = 0 ∧ y % 100 ≠ 0) ∨ y % 400 = 0))

/-- The number of days in a year. -/
def yearLength (y : ℕ) : ℕ := if IsLeap y then 366 else 365

/-- How many leap years lie in `[e, y)`. -/
@[irreducible] def leapsBefore (e y : ℕ) : ℕ := ((Finset.Ico e y).filter IsLeap).card

/-- The day number of the first of January of `y`, counted from that of `e`. -/
def yearStart (e y : ℕ) : ℕ := 365 * (y - e) + leapsBefore e y

@[simp] theorem leapsBefore_self (e : ℕ) : leapsBefore e e = 0 := by
  rw [leapsBefore]
  simp

@[simp] theorem yearStart_self (e : ℕ) : yearStart e e = 0 := by simp [yearStart]

theorem leapsBefore_succ {e y : ℕ} (h : e ≤ y) :
    leapsBefore e (y + 1) = leapsBefore e y + if IsLeap y then 1 else 0 := by
  simp only [leapsBefore]
  rw [Nat.Ico_succ_right_eq_insert_Ico h, Finset.filter_insert]
  split
  · rw [Finset.card_insert_of_notMem (by simp)]
  · rfl

/-- One more year adds that year's length. -/
theorem yearStart_succ {e y : ℕ} (h : e ≤ y) :
    yearStart e (y + 1) = yearStart e y + yearLength y := by
  have hsub : y + 1 - e = (y - e) + 1 := by omega
  simp only [yearStart, yearLength, leapsBefore_succ h, hsub]
  split <;> omega

/-- The inclusion–exclusion count of the leap years up to and including `y`. -/
def leapQuotients (y : ℕ) : ℕ := y / 4 - y / 100 + y / 400

theorem leapQuotients_succ (y : ℕ) :
    leapQuotients (y + 1) = leapQuotients y + if IsLeap (y + 1) then 1 else 0 := by
  have h4 : (y + 1) / 4 = y / 4 + if 4 ∣ y + 1 then 1 else 0 := Nat.succ_div
  have h100 : (y + 1) / 100 = y / 100 + if 100 ∣ y + 1 then 1 else 0 := Nat.succ_div
  have h400 : (y + 1) / 400 = y / 400 + if 400 ∣ y + 1 then 1 else 0 := Nat.succ_div
  have hle : y / 100 ≤ y / 4 := Nat.div_le_div_left (by decide) (by decide)
  simp only [leapQuotients, h4, h100, h400]
  clear h4 h100 h400
  by_cases d100 : 100 ∣ y + 1
  · have d4 : 4 ∣ y + 1 := Nat.dvd_trans (by decide) d100
    by_cases d400 : 400 ∣ y + 1
    · have hleap : IsLeap (y + 1) := by rw [IsLeap]; omega
      rw [if_pos d4, if_pos d100, if_pos d400, if_pos hleap]
      omega
    · have hleap : ¬ IsLeap (y + 1) := by rw [IsLeap]; omega
      rw [if_pos d4, if_pos d100, if_neg d400, if_neg hleap]
      omega
  · have d400 : ¬ 400 ∣ y + 1 := fun d400 => d100 (Nat.dvd_trans (by decide) d400)
    by_cases d4 : 4 ∣ y + 1
    · have hleap : IsLeap (y + 1) := by rw [IsLeap]; omega
      rw [if_pos d4, if_neg d100, if_neg d400, if_pos hleap]
      omega
    · have hleap : ¬ IsLeap (y + 1) := by rw [IsLeap]; omega
      rw [if_neg d4, if_neg d100, if_neg d400, if_neg hleap]
      rfl

/-- Only the last of four consecutive years can be leap. -/
theorem leapQuotients_add_four (k : ℕ) :
    leapQuotients (4 * k + 4) = leapQuotients (4 * k) + if IsLeap (4 * k + 4) then 1 else 0 := by
  have h1 : ¬ IsLeap (4 * k + 1) := by rw [IsLeap]; omega
  have h2 : ¬ IsLeap (4 * k + 2) := by rw [IsLeap]; omega
  have h3 : ¬ IsLeap (4 * k + 3) := by rw [IsLeap]; omega
  rw [leapQuotients_succ, leapQuotients_succ, leapQuotients_succ, leapQuotients_succ,
    if_neg h1, if_neg h2, if_neg h3]
  rfl

/-- The leap years of `[e + 1, y]`, as a difference of quotient counts. -/
theorem leapsBefore_add_leapQuotients {e y : ℕ} (h : e ≤ y) :
    leapsBefore (e + 1) (y + 1) + leapQuotients e = leapQuotients y := by
  induction y, h using Nat.le_induction with
  | base => simp
  | succ y hy ih =>
      rw [leapsBefore_succ (by omega), leapQuotients_succ y, ← ih]
      omega

/-- Every day number falls into a year that starts no later and ends after it. -/
theorem exists_year (e n : ℕ) :
    ∃ y, e ≤ y ∧ yearStart e y ≤ n ∧ n < yearStart e (y + 1) := by
  induction n with
  | zero =>
      refine ⟨e, le_rfl, by simp, ?_⟩
      rw [yearStart_succ le_rfl, yearStart_self, yearLength]
      split <;> omega
  | succ n ih =>
      obtain ⟨y, hy, hlo, hhi⟩ := ih
      by_cases hn : n + 1 < yearStart e (y + 1)
      · exact ⟨y, hy, by omega, hn⟩
      · refine ⟨y + 1, by omega, by omega, ?_⟩
        rw [yearStart_succ (e := e) (y := y + 1) (by omega), yearLength]
        split <;> omega

/-- Year starts are ordered like the years. -/
theorem yearStart_mono {e y z : ℕ} (hy : e ≤ y) (hyz : y ≤ z) :
    yearStart e y ≤ yearStart e z := by
  induction z, hyz using Nat.le_induction with
  | base => exact le_rfl
  | succ z hz ih =>
      rw [yearStart_succ (by omega)]
      omega

/-- The year of a day number is unique. -/
theorem year_unique {e n y z : ℕ} (hy : e ≤ y) (hz : e ≤ z)
    (hylo : yearStart e y ≤ n) (hyhi : n < yearStart e (y + 1))
    (hzlo : yearStart e z ≤ n) (hzhi : n < yearStart e (z + 1)) : y = z := by
  rcases lt_trichotomy y z with h | h | h
  · have := yearStart_mono (e := e) (y := y + 1) (z := z) (by omega) h
    omega
  · exact h
  · have := yearStart_mono (e := e) (y := z + 1) (z := y) (by omega) h
    omega

/-! ## Months -/

/-- The lengths of the twelve months of a year, January first. -/
def monthLengths (leap : Bool) : List ℕ :=
  [31, if leap then 29 else 28, 31, 30, 31, 30, 31, 31, 30, 31, 30, 31]

/-- The days of the year that precede month `m`, with January numbered one. -/
def daysBeforeMonth (y m : ℕ) : ℕ := ((monthLengths (decide (IsLeap y))).take (m - 1)).sum

/-- The length of month `m` of year `y`; zero when there is no such month. -/
def monthLength (y m : ℕ) : ℕ := (monthLengths (decide (IsLeap y))).getD (m - 1) 0

/-- A date of the calendar. -/
structure ValidDate (y m d : ℕ) : Prop where
  month_pos : 1 ≤ m
  month_le : m ≤ 12
  day_pos : 1 ≤ d
  day_le : d ≤ monthLength y m

/-- The day number of a date, counted from the first of January of `e`. -/
def dayNumber (e y m d : ℕ) : ℕ := yearStart e y + daysBeforeMonth y m + (d - 1)

/-- A month's days end where the next month's begin. -/
theorem daysBeforeMonth_succ {y m : ℕ} (h : 1 ≤ m) :
    daysBeforeMonth y (m + 1) = daysBeforeMonth y m + monthLength y m := by
  obtain ⟨k, rfl⟩ : ∃ k, m = k + 1 := ⟨m - 1, by omega⟩
  simp only [daysBeforeMonth, monthLength, Nat.add_sub_cancel]
  rw [List.take_add_one, List.sum_append, List.getD_eq_getElem?_getD]
  cases (monthLengths (decide (IsLeap y)))[k]? <;> simp

/-- In a year that begins in March, January is month 13 and February month 14. -/
theorem daysBeforeMonth_early {y m : ℕ} (h1 : 1 ≤ m) (h2 : m ≤ 2) :
    daysBeforeMonth y m + 398 = 30 * (m + 12) + 3 * (m + 13) / 5 := by
  interval_cases m <;> simp [daysBeforeMonth, monthLengths]

/-- Months from March on lie five to a run of 153 days. -/
theorem daysBeforeMonth_late {y m : ℕ} (h1 : 2 < m) (h2 : m ≤ 12) :
    daysBeforeMonth y m + 33 = 30 * m + 3 * (m + 1) / 5 + if IsLeap y then 1 else 0 := by
  interval_cases m <;> by_cases hl : IsLeap y <;> simp [daysBeforeMonth, monthLengths, hl]

theorem monthLength_le (y m : ℕ) : monthLength y m ≤ 31 := by
  simp only [monthLength, monthLengths]
  rcases Nat.lt_or_ge (m - 1) 12 with h | h
  · generalize m - 1 = k at h
    interval_cases k <;> by_cases hl : IsLeap y <;> simp [hl]
  · simp [List.getD_eq_getElem?_getD, h]

/-- The months fill the year. -/
theorem sum_monthLengths (y : ℕ) : (monthLengths (decide (IsLeap y))).sum = yearLength y := by
  by_cases h : IsLeap y <;> simp [monthLengths, yearLength, h]

end RhsCore.Calendar
