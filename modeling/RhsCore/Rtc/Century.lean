import RhsCore.Rtc.Rtc

/-!
# The clock between a setting and a reading

The peripheral counts seconds, days, months and two digits of the year by itself; the bit
that says which century they belong to stays as it was written.  A reading is right as
long as neither shows: no century has ended, and the peripheral's twenty-ninth of February
of its year 0, which 1900 does not have, has not been passed.

## Main definitions

* `RtcState`, `RtcState.second` — the peripheral and its second.
* `RtcStep` — what the vendor's calls do to it.
* `twoDigits`, `withCentury` — an instant in the peripheral, and back.
* `reading_eq_iff` — when a reading is right.
* `timestamp_read_back` — what is read of a clock that was set to a timestamp.
-/

namespace RhsCore.UnixTime
open RhsCore.Calendar

/-! ## The peripheral -/

/-- The backup register, the clock with its two digits of the year, and the weekday. -/
structure RtcState where
  register : UInt32
  clock : Instant
  weekday : ℕ
  deriving DecidableEq, Repr

/-- The peripheral's calendar: every fourth year is a leap year, and 0 follows 99. -/
def rtcRules : Rules where
  monthLength yy m := (monthLengths (decide (yy % 4 = 0))).getD (m - 1) 0
  nextYear yy := (yy + 1) % 100

/-- A second passes. -/
def RtcState.second (s : RtcState) : RtcState where
  register := s.register
  clock := rtcRules.tick s.clock
  weekday := if s.clock.hour = 23 ∧ s.clock.minute = 59 ∧ s.clock.second = 59 then
    s.weekday % 7 + 1 else s.weekday

/-- A call that succeeds stores or returns the fields; what one that fails does is open. -/
def RtcStep (s : RtcState) : (o : RtcOp) → RtcOp.Ans o → RtcState → Prop
  | .getRegister _, value, s' => (value : UInt32) = s.register ∧ s' = s
  | .setRegister _ value, _, s' => s' = { s with register := value }
  | .setDate sDate, status, s' => (status : Bool) = true →
      s' = { s with
        clock.date := ⟨sDate.year.toNat, sDate.month.toNat, sDate.date.toNat⟩
        weekday := sDate.weekDay.toNat }
  | .setTime sTime, status, s' => (status : Bool) = true →
      s' = { s with
        clock := ⟨s.clock.date, sTime.hours.toNat, sTime.minutes.toNat, sTime.seconds.toNat⟩ }
  | .getTime, read, s' => s' = s ∧ ((read : Bool × RTCTimeTypeDef).1 = true →
      (read : Bool × RTCTimeTypeDef).2.hours.toNat = s.clock.hour ∧
      (read : Bool × RTCTimeTypeDef).2.minutes.toNat = s.clock.minute ∧
      (read : Bool × RTCTimeTypeDef).2.seconds.toNat = s.clock.second)
  | .getDate, read, s' => s' = s ∧ ((read : Bool × RTCDateTypeDef).1 = true →
      (read : Bool × RTCDateTypeDef).2.year.toNat = s.clock.date.year ∧
      (read : Bool × RTCDateTypeDef).2.month.toNat = s.clock.date.month ∧
      (read : Bool × RTCDateTypeDef).2.date.toNat = s.clock.date.day ∧
      (read : Bool × RTCDateTypeDef).2.weekDay.toNat = s.weekday)

/-! ## Two digits of a year -/

/-- The date as the peripheral keeps it. -/
def twoDigits (d : Date) : Date := ⟨d.year % 100, d.month, d.day⟩

/-- The date as it is read in the century that begins with the year `first`. -/
def withCentury (first : ℕ) (d : Date) : Date := ⟨first + d.year, d.month, d.day⟩

/-- An instant with another date. -/
def onDate (f : Date → Date) (i : Instant) : Instant := { i with date := f i.date }

/-- The century of the register. -/
def century (reg : UInt32) : ℕ := if year2000 reg then 2000 else 1900

@[simp] theorem iterate_second_register (s : RtcState) (n : ℕ) :
    (RtcState.second^[n] s).register = s.register := by
  induction n with
  | zero => rfl
  | succ n ih =>
      rw [Function.iterate_succ_apply']
      exact ih

@[simp] theorem iterate_second_clock (s : RtcState) (n : ℕ) :
    (RtcState.second^[n] s).clock = rtcRules.tick^[n] s.clock := by
  induction n with
  | zero => rfl
  | succ n ih =>
      rw [Function.iterate_succ_apply', Function.iterate_succ_apply', ← ih]
      rfl

/-- The last second of February 1900, and the first of the March after it. -/
def february1900 : Instant := ⟨⟨1900, 2, 28⟩, 23, 59, 59⟩
def march1900 : Instant := ⟨⟨1900, 3, 1⟩, 0, 0, 0⟩

theorem tick_february1900 : gregorian.tick february1900 = march1900 := by decide

theorem valid_february1900 : february1900.Valid := ⟨by rw [Date.Valid]; decide, by decide⟩

theorem valid_march1900 : march1900.Valid := tick_february1900 ▸ valid_february1900.tick

theorem year_february1900 : 1900 ≤ february1900.date.year := le_rfl

theorem year_march1900 : 1900 ≤ march1900.date.year := le_rfl

theorem seconds_march1900 : march1900.seconds 1900 = february1900.seconds 1900 + 1 := by
  rw [← tick_february1900, valid_february1900.seconds_tick year_february1900]

/-- Between 1901 and 2099 every fourth year is a leap year. -/
theorem isLeap_iff_twoDigits {y : ℕ} (hlo : 1901 ≤ y) (hhi : y ≤ 2099) :
    IsLeap y ↔ y % 100 % 4 = 0 := by
  rw [IsLeap]
  omega

theorem monthLength_twoDigits {y m : ℕ} (hlo : 1900 ≤ y) (hhi : y ≤ 2099)
    (h : ¬ (y = 1900 ∧ m = 2)) : rtcRules.monthLength (y % 100) m = monthLength y m := by
  rcases Nat.eq_or_lt_of_le hlo with rfl | hlo'
  · have hleap : ¬ IsLeap 1900 := by decide
    simp only [rtcRules, monthLength, hleap, Nat.reduceMod, decide_true, decide_false]
    have hm : m - 1 ≠ 1 ∨ m = 1 := by omega
    simp only [monthLengths]
    rcases Nat.lt_or_ge (m - 1) 12 with hlt | hge
    · have hne : m - 1 ≠ 1 := by omega
      generalize m - 1 = k at hlt hne
      interval_cases k <;> simp at hne ⊢
    · simp [List.getD_eq_getElem?_getD, hge]
  · simp only [rtcRules, monthLength, isLeap_iff_twoDigits hlo' hhi]

theorem nextDay_rtcRules (d : Date) : rtcRules.nextDay (twoDigits d) =
    if d.day < rtcRules.monthLength (d.year % 100) d.month then
      ⟨d.year % 100, d.month, d.day + 1⟩
    else if d.month < 12 then ⟨d.year % 100, d.month + 1, 1⟩
    else ⟨(d.year % 100 + 1) % 100, 1, 1⟩ := rfl

/-- Except at the end of February 1900, the peripheral goes from day to day as the calendar
does. -/
theorem twoDigits_nextDay {d : Date} (hlo : 1900 ≤ d.year) (hhi : d.year ≤ 2099)
    (hv : d.Valid) (h : d ≠ february1900.date) :
    twoDigits (gregorian.nextDay d) = rtcRules.nextDay (twoDigits d) := by
  by_cases hfeb : d.year = 1900 ∧ d.month = 2
  · have hlen : monthLength d.year d.month = 28 := by rw [hfeb.1, hfeb.2]; decide
    have hday : d.day < 28 := by
      have hle := hv.day_le
      rw [hlen] at hle
      apply Nat.lt_of_le_of_ne hle
      intro h28
      exact h (Date.ext hfeb.1 hfeb.2 h28)
    have hlen' : rtcRules.monthLength (d.year % 100) d.month = 29 := by
      rw [hfeb.1, hfeb.2]
      decide
    rw [nextDay_gregorian, nextDay_rtcRules, hlen, hlen', if_pos hday, if_pos (by omega)]
    rfl
  · have hlen := monthLength_twoDigits hlo hhi hfeb
    rw [nextDay_gregorian, nextDay_rtcRules, hlen]
    split_ifs
    · rfl
    · rfl
    · simp only [twoDigits, Nat.mod_add_mod]

/-- So it does from second to second, except there. -/
theorem onDate_tick {i : Instant} (hv : i.Valid) (hlo : 1900 ≤ i.date.year)
    (hhi : i.date.year ≤ 2099) (h : i ≠ february1900) :
    onDate twoDigits (gregorian.tick i) = rtcRules.tick (onDate twoDigits i) := by
  refine Rules.tick_map fun hhour hminute hsecond => ?_
  apply twoDigits_nextDay hlo hhi hv.date
  intro hdate
  have h1 := hv.time.hour_lt
  have h2 := hv.time.minute_lt
  have h3 := hv.time.second_lt
  exact h (Instant.ext hdate (by dsimp only [february1900]; omega)
    (by dsimp only [february1900]; omega) (by dsimp only [february1900]; omega))

/-- **The peripheral follows the calendar** over any time that ends by 2099 and does not pass
the end of February 1900. -/
theorem onDate_iterate_tick {i : Instant} (hv : i.Valid) (hlo : 1900 ≤ i.date.year) {n : ℕ}
    (hhi : (gregorian.tick^[n] i).date.year ≤ 2099)
    (h : ∀ k < n, gregorian.tick^[k] i ≠ february1900) :
    onDate twoDigits (gregorian.tick^[n] i) = rtcRules.tick^[n] (onDate twoDigits i) := by
  induction n with
  | zero => rfl
  | succ n ih =>
      obtain ⟨hvn, hyn, -⟩ := hv.iterate_tick hlo n
      rw [Function.iterate_succ_apply'] at hhi
      have hhin := (Rules.year_le_tick _).trans hhi
      have hih := ih hhin fun k hk => h k (by omega)
      rw [Function.iterate_succ_apply', Function.iterate_succ_apply', ← hih,
        onDate_tick hvn hyn hhin (h n (by omega))]

/-- It keeps to its two digits. -/
theorem iterate_tick_year_lt {i : Instant} (h : i.date.year < 100) (n : ℕ) :
    (rtcRules.tick^[n] i).date.year < 100 := by
  induction n with
  | zero => exact h
  | succ n ih =>
      rw [Function.iterate_succ_apply']
      generalize rtcRules.tick^[n] i = j at ih
      have hday : (rtcRules.nextDay j.date).year < 100 := by
        simp only [Rules.nextDay]
        split_ifs
        · exact ih
        · exact ih
        · exact Nat.mod_lt _ (by decide)
      simp only [Rules.tick]
      split_ifs
      · exact ih
      · exact ih
      · exact ih
      · exact hday

/-! ## Setting and reading -/

variable {unassigned : UInt32} {datetime out : DatetimeT} {log : List (Event RtcOp.Ans)}
  {s s' : RtcState}

/-- After a setting the peripheral shows the instant, and the register its century. -/
theorem served_rhsHalRtcSetDatetime (hv : datetime.instant.Valid) {u : Unit}
    (h : Prog.Exec (rhsHalRtcSetDatetime unassigned datetime) log (.ok u))
    (hs : Prog.Served RtcStep s log s') :
    s'.clock = onDate twoDigits datetime.instant ∧
      year2000 s'.register = decide (2000 ≤ datetime.year) := by
  obtain ⟨reg, rfl⟩ := exec_rhsHalRtcSetDatetime_iff.mp h
  obtain ⟨s₁, -, hs₁⟩ := Prog.served_cons_iff.mp hs
  obtain ⟨s₂, hset, hs₂⟩ := Prog.served_cons_iff.mp hs₁
  obtain ⟨s₃, hdate, hs₃⟩ := Prog.served_cons_iff.mp hs₂
  obtain ⟨s₄, htime, hs₄⟩ := Prog.served_cons_iff.mp hs₃
  obtain rfl := Prog.served_nil_iff.mp hs₄
  rw [htime rfl, hdate rfl, hset]
  have hhour : datetime.hours.toNat < 24 := hv.time.hour_lt
  have hminute : datetime.minutes.toNat < 60 := hv.time.minute_lt
  have hsecond : datetime.seconds.toNat < 60 := hv.time.second_lt
  have hm12 : datetime.month.toNat ≤ 12 := hv.date.month_le
  have hd31 : datetime.day.toNat ≤ 31 := hv.date.day_le.trans (monthLength_le _ _)
  have hyear : (datetime.year % 100).toUInt8.toNat = datetime.year.toNat % 100 := by
    simp only [UInt32.toNat_toUInt8, UInt32.toNat_mod, UInt32.reduceToNat]
    omega
  constructor
  · simp only [sDateOf, sTimeOf, onDate, twoDigits, DatetimeT.instant, hyear,
      toNat_toUInt8 (show datetime.month.toNat < 256 by omega),
      toNat_toUInt8 (show datetime.day.toNat < 256 by omega),
      toNat_toUInt8 (show datetime.hours.toNat < 256 by omega),
      toNat_toUInt8 (show datetime.minutes.toNat < 256 by omega),
      toNat_toUInt8 (show datetime.seconds.toNat < 256 by omega)]
  · simp only [year2000_withYear2000]

/-- A reading is the instant that the peripheral shows, in the century of the register. -/
theorem served_rhsHalRtcGetDatetime (h : Prog.Exec rhsHalRtcGetDatetime log (.ok out))
    (hs : Prog.Served RtcStep s log s') (hyear : s.clock.date.year < 100) :
    out.instant = onDate (withCentury (century s.register)) s.clock := by
  obtain ⟨reg, sTime, sDate, rfl, rfl⟩ := exec_rhsHalRtcGetDatetime_iff.mp h
  obtain ⟨s₁, ⟨hreg, rfl⟩, hs₁⟩ := Prog.served_cons_iff.mp hs
  obtain ⟨s₂, ⟨rfl, htime⟩, hs₂⟩ := Prog.served_cons_iff.mp hs₁
  obtain ⟨s₃, ⟨rfl, hdate⟩, -⟩ := Prog.served_cons_iff.mp hs₂
  obtain rfl : reg = _ := hreg
  obtain ⟨hhours, hminutes, hseconds⟩ := htime rfl
  obtain ⟨hyy, hmonth, hday, -⟩ := hdate rfl
  dsimp only at hhours hminutes hseconds hyy hmonth hday
  have hfull : (datetimeOf s₃.register sTime sDate).year.toNat
      = century s₃.register + s₃.clock.date.year := by
    simp only [datetimeOf, century]
    split <;> simp only [UInt32.toNat_add, UInt8.toNat_toUInt32, UInt32.reduceToNat, hyy] <;> omega
  simp only [DatetimeT.instant, hfull]
  simp only [datetimeOf, UInt8.toNat_toUInt32, hmonth, hday, hhours, hminutes, hseconds, onDate,
    withCentury]

/-- What a peripheral that answers is set to. -/
def settingOf (datetime : DatetimeT) (s : RtcState) : RtcState where
  register := withYear2000 s.register (decide (2000 ≤ datetime.year))
  clock := ⟨⟨(sDateOf datetime).year.toNat, (sDateOf datetime).month.toNat,
    (sDateOf datetime).date.toNat⟩, (sTimeOf 0 datetime).hours.toNat,
    (sTimeOf 0 datetime).minutes.toNat, (sTimeOf 0 datetime).seconds.toNat⟩
  weekday := (sDateOf datetime).weekDay.toNat

/-- It lets a setting return. -/
theorem exists_setting (unassigned : UInt32) (datetime : DatetimeT) (s : RtcState) :
    ∃ log, Prog.Exec (rhsHalRtcSetDatetime unassigned datetime) log (.ok ()) ∧
      Prog.Served RtcStep s log (settingOf datetime s) :=
  ⟨_, exec_rhsHalRtcSetDatetime_iff.mpr ⟨s.register, rfl⟩,
    .cons ⟨rfl, rfl⟩ (.cons rfl (.cons (fun _ => rfl) (.cons (fun _ => rfl) (.nil _))))⟩

/-- Fields that fit into a byte. -/
structure RtcState.Fits (s : RtcState) : Prop where
  year_lt : s.clock.date.year < 256
  month_lt : s.clock.date.month < 256
  day_lt : s.clock.date.day < 256
  hour_lt : s.clock.hour < 256
  minute_lt : s.clock.minute < 256
  second_lt : s.clock.second < 256
  weekday_lt : s.weekday < 256

/-- And a reading. -/
theorem exists_reading (h : s.Fits) : ∃ log out, Prog.Exec rhsHalRtcGetDatetime log (.ok out) ∧
    Prog.Served RtcStep s log s := by
  have hbyte {k : ℕ} (hk : k < 256) : (UInt8.ofNat k).toNat = k := UInt8.toNat_ofNat_of_lt' hk
  refine ⟨_, _, exec_rhsHalRtcGetDatetime_iff.mpr ⟨s.register,
    { hours := UInt8.ofNat s.clock.hour, minutes := UInt8.ofNat s.clock.minute,
      seconds := UInt8.ofNat s.clock.second, subSeconds := 0, secondFraction := 255 },
    { weekDay := UInt8.ofNat s.weekday, month := UInt8.ofNat s.clock.date.month,
      date := UInt8.ofNat s.clock.date.day, year := UInt8.ofNat s.clock.date.year },
    rfl, rfl⟩, .cons ⟨rfl, rfl⟩ (.cons ⟨rfl, fun _ => ?_⟩ (.cons ⟨rfl, fun _ => ?_⟩ (.nil _)))⟩
  · exact ⟨hbyte h.hour_lt, hbyte h.minute_lt, hbyte h.second_lt⟩
  · exact ⟨hbyte h.year_lt, hbyte h.month_lt, hbyte h.day_lt, hbyte h.weekday_lt⟩

/-! ## When the reading is right -/

/-- A date between 1900 and 2099 is read back in its own century. -/
theorem withCentury_twoDigits {d : Date} {first : ℕ} (hlo : first ≤ d.year)
    (hhi : d.year < first + 100) (hfirst : first % 100 = 0) :
    withCentury first (twoDigits d) = d := by
  refine Date.ext ?_ rfl rfl
  simp only [withCentury, twoDigits]
  omega

/-- A second of the end of February 1900 passed on the way from `i`. -/
theorem exists_february1900_iff {i : Instant} (hv : i.Valid) (hlo : 1900 ≤ i.date.year) {n : ℕ} :
    (∃ k < n, gregorian.tick^[k] i = february1900) ↔
      i.fields < march1900.fields ∧ march1900.fields ≤ (gregorian.tick^[n] i).fields := by
  obtain ⟨hvn, hyn, hsn⟩ := hv.iterate_tick hlo n
  rw [hv.fields_lt_iff valid_march1900 hlo year_march1900,
    valid_march1900.fields_le_iff hvn year_march1900 hyn, hsn, seconds_march1900]
  constructor
  · rintro ⟨k, hk, hkfeb⟩
    obtain ⟨-, -, hsk⟩ := hv.iterate_tick hlo k
    rw [hkfeb] at hsk
    omega
  · rintro ⟨hbefore, hafter⟩
    refine ⟨february1900.seconds 1900 - i.seconds 1900, by omega, ?_⟩
    exact hv.iterate_tick_eq valid_february1900 hlo year_february1900 (by omega)

/-- From a later year on, the end of February 1900 does not come. -/
theorem iterate_tick_ne_february1900 {i : Instant} (hv : i.Valid) (hlo : 1901 ≤ i.date.year)
    (k : ℕ) : gregorian.tick^[k] i ≠ february1900 := by
  intro hfeb
  obtain ⟨-, hyk, -⟩ := hv.iterate_tick hlo k
  rw [hfeb] at hyk
  exact absurd hyk (by decide)

/-- The two clocks side by side, read in the right century. -/
theorem reading_of_not_passed {i : Instant} (hv : i.Valid) (hlo : 1900 ≤ i.date.year) {n : ℕ}
    {first : ℕ} (hfirst : first % 100 = 0) (hstart : first ≤ (gregorian.tick^[n] i).date.year)
    (hstop : (gregorian.tick^[n] i).date.year < first + 100)
    (hend : (gregorian.tick^[n] i).date.year ≤ 2099)
    (h : ∀ k < n, gregorian.tick^[k] i ≠ february1900) :
    onDate (withCentury first) (rtcRules.tick^[n] (onDate twoDigits i))
      = gregorian.tick^[n] i := by
  rw [← onDate_iterate_tick hv hlo hend h]
  simp only [onDate]
  rw [withCentury_twoDigits hstart hstop hfirst]

/-- From the first of March 1900 on, the two clocks go side by side. -/
theorem reading_since_march1900 {m : ℕ} (hend : (gregorian.tick^[m] march1900).date.year < 2000) :
    onDate (withCentury 1900) (rtcRules.tick^[m] (onDate twoDigits march1900))
      = gregorian.tick^[m] march1900 := by
  obtain ⟨-, hy, -⟩ := valid_march1900.iterate_tick year_march1900 m
  refine reading_of_not_passed valid_march1900 year_march1900 (by decide) hy (by omega) (by omega)
    fun j _ hj => ?_
  obtain ⟨-, -, hs⟩ := valid_march1900.iterate_tick year_march1900 j
  rw [hj, seconds_march1900] at hs
  omega

/-- Once past the end of February 1900, the peripheral is a day behind until the year 2000. -/
theorem behind_after_february1900 {k : ℕ}
    (hend : (gregorian.tick^[k] march1900).date.year < 2000) :
    onDate (withCentury 1900) (rtcRules.tick^[k + 1] (onDate twoDigits february1900))
      ≠ gregorian.tick^[k] march1900 := by
  obtain ⟨hv, hy, hs⟩ := valid_march1900.iterate_tick year_march1900 k
  have hfirst : rtcRules.tick (onDate twoDigits february1900) = ⟨⟨0, 2, 29⟩, 0, 0, 0⟩ := by decide
  rw [Function.iterate_succ_apply, hfirst]
  intro heq
  rcases Nat.lt_or_ge k 86400 with hk | hk
  · -- the peripheral's own twenty-ninth of February
    rw [Rules.iterate_tick_midnight _ hk] at heq
    have hdate : (gregorian.tick^[k] march1900).date = ⟨1900, 2, 29⟩ := by
      rw [← heq]
      rfl
    have hday := hv.date.day_le
    have hlen : monthLength 1900 2 = 28 := by decide
    rw [hdate, hlen] at hday
    exact absurd hday (by decide)
  · obtain ⟨m, rfl⟩ : ∃ m, k = m + 86400 := ⟨k - 86400, by omega⟩
    have hnext : rtcRules.nextDay ⟨0, 2, 29⟩ = twoDigits march1900.date := by decide
    obtain ⟨hvm, hym, hsm⟩ := valid_march1900.iterate_tick year_march1900 m
    have hle : (gregorian.tick^[m] march1900).date.year < 2000 := by
      obtain ⟨-, hyear, -⟩ := hvm.iterate_tick le_rfl 86400
      rw [← Function.iterate_add_apply, Nat.add_comm] at hyear
      omega
    rw [Function.iterate_add_apply, Rules.iterate_tick_day, hnext] at heq
    have hstart : (⟨twoDigits march1900.date, 0, 0, 0⟩ : Instant)
      = onDate twoDigits march1900 := rfl
    rw [hstart, reading_since_march1900 hle] at heq
    rw [heq, hs] at hsm
    omega

theorem reading_of_passed {i : Instant} (hv : i.Valid) (hlo : 1900 ≤ i.date.year) {n k : ℕ}
    (hk : k < n) (hfeb : gregorian.tick^[k] i = february1900)
    (hend : (gregorian.tick^[n] i).date.year < 2000) :
    onDate (withCentury 1900) (rtcRules.tick^[n] (onDate twoDigits i))
      ≠ gregorian.tick^[n] i := by
  obtain ⟨m, rfl⟩ : ∃ m, n = m + 1 + k := ⟨n - 1 - k, by omega⟩
  have hnext : gregorian.tick^[m + 1 + k] i = gregorian.tick^[m] march1900 := by
    rw [Function.iterate_add_apply, hfeb, Function.iterate_succ_apply, tick_february1900]
  have hclock : rtcRules.tick^[k] (onDate twoDigits i) = onDate twoDigits february1900 := by
    rw [← hfeb]
    refine (onDate_iterate_tick hv hlo (by rw [hfeb]; decide) fun j hj hjfeb => ?_).symm
    obtain ⟨-, -, hsk⟩ := hv.iterate_tick hlo k
    obtain ⟨-, -, hsj⟩ := hv.iterate_tick hlo j
    rw [hfeb] at hsk
    rw [hjfeb] at hsj
    omega
  rw [hnext] at hend ⊢
  rw [Function.iterate_add_apply, hclock]
  exact behind_after_february1900 hend

/-- Read in the first century: it must not have ended, and the end of its February 1900 not
passed. -/
theorem reading_first_iff {i : Instant} (hv : i.Valid) (hlo : 1900 ≤ i.date.year) {n : ℕ}
    (hend : (gregorian.tick^[n] i).date.year ≤ 2099) :
    onDate (withCentury 1900) (rtcRules.tick^[n] (onDate twoDigits i)) = gregorian.tick^[n] i ↔
      (gregorian.tick^[n] i).date.year < 2000 ∧
        ¬ (i.fields < march1900.fields ∧ march1900.fields ≤ (gregorian.tick^[n] i).fields) := by
  have hdigits : (onDate twoDigits i).date.year < 100 := Nat.mod_lt _ (by decide)
  rw [← exists_february1900_iff hv hlo]
  constructor
  · intro heq
    have hin : (gregorian.tick^[n] i).date.year < 2000 := by
      -- the digits are read in the first century
      rw [← heq]
      exact Nat.add_lt_add_left (iterate_tick_year_lt hdigits n) 1900
    refine ⟨hin, ?_⟩
    rintro ⟨k, hk, hfeb⟩
    exact reading_of_passed hv hlo hk hfeb hin heq
  · rintro ⟨hin, hpass⟩
    obtain ⟨-, hyn, -⟩ := hv.iterate_tick hlo n
    exact reading_of_not_passed hv hlo (by decide) hyn (by omega) hend
      fun k hk hfeb => hpass ⟨k, hk, hfeb⟩

/-- Read in the second, there is nothing to be passed. -/
theorem reading_second {i : Instant} (hv : i.Valid) (hnew : 2000 ≤ i.date.year) {n : ℕ}
    (hend : (gregorian.tick^[n] i).date.year ≤ 2099) :
    onDate (withCentury 2000) (rtcRules.tick^[n] (onDate twoDigits i))
      = gregorian.tick^[n] i := by
  obtain ⟨-, hyn, -⟩ := hv.iterate_tick hnew n
  exact reading_of_not_passed hv (by omega) (by decide) hyn (by omega) hend
    fun k _ => iterate_tick_ne_february1900 hv (by omega) k

/-- What is read after a setting and `n` seconds: what the peripheral has come to, in the
century that was set. -/
theorem reading_instant (hv : datetime.instant.Valid) (n : ℕ) {log' : List (Event RtcOp.Ans)}
    {s'' : RtcState} {u : Unit}
    (hset : Prog.Exec (rhsHalRtcSetDatetime unassigned datetime) log (.ok u))
    (hs : Prog.Served RtcStep s log s')
    (hget : Prog.Exec rhsHalRtcGetDatetime log' (.ok out))
    (hs' : Prog.Served RtcStep (RtcState.second^[n] s') log' s'') :
    out.instant = onDate (withCentury (if 2000 ≤ datetime.year.toNat then 2000 else 1900))
      (rtcRules.tick^[n] (onDate twoDigits datetime.instant)) := by
  obtain ⟨hclock, hregister⟩ := served_rhsHalRtcSetDatetime hv hset hs
  have hyear : (RtcState.second^[n] s').clock.date.year < 100 := by
    rw [iterate_second_clock, hclock]
    exact iterate_tick_year_lt (Nat.mod_lt _ (by decide)) n
  have hcentury : century s'.register = if 2000 ≤ datetime.year.toNat then 2000 else 1900 := by
    simp only [century, hregister, decide_eq_true_eq, UInt32.le_iff_toNat_le, UInt32.reduceToNat]
  rw [served_rhsHalRtcGetDatetime hget hs' hyear, iterate_second_register, hcentury,
    iterate_second_clock, hclock]

/-- **When a reading is right**: set to any instant of the two centuries and read after `n`
seconds that end by 2099, the clock gives that instant and `n` seconds exactly if it was set
in the second century, or the first has not ended and the end of February 1900 not passed. -/
theorem reading_eq_iff (hv : datetime.instant.Valid) (hlo : 1900 ≤ datetime.year.toNat)
    (hhi : datetime.year.toNat ≤ 2099) (n : ℕ)
    (hend : (gregorian.tick^[n] datetime.instant).date.year ≤ 2099)
    {log' : List (Event RtcOp.Ans)} {s'' : RtcState} {u : Unit}
    (hset : Prog.Exec (rhsHalRtcSetDatetime unassigned datetime) log (.ok u))
    (hs : Prog.Served RtcStep s log s')
    (hget : Prog.Exec rhsHalRtcGetDatetime log' (.ok out))
    (hs' : Prog.Served RtcStep (RtcState.second^[n] s') log' s'') :
    out.instant = gregorian.tick^[n] datetime.instant ↔
      2000 ≤ datetime.year.toNat ∨
        (gregorian.tick^[n] datetime.instant).date.year < 2000 ∧
          ¬ (datetime.instant.fields < march1900.fields ∧
            march1900.fields ≤ (gregorian.tick^[n] datetime.instant).fields) := by
  have hout := reading_instant hv n hset hs hget hs'
  rcases Nat.lt_or_ge datetime.year.toNat 2000 with hold | hnew
  · rw [if_neg (by omega)] at hout
    rw [hout, reading_first_iff hv hlo hend]
    constructor
    · exact .inr
    · intro h
      exact h.resolve_left (by omega)
  · rw [if_pos hnew] at hout
    rw [hout, reading_second hv hnew hend]
    exact iff_of_true rfl (.inl hnew)

/-- The peripheral before it is set, and two datetimes to set it to. -/
def unset : RtcState := ⟨0, ⟨⟨0, 1, 1⟩, 0, 0, 0⟩, 1⟩
def leapDay2024 : DatetimeT := ⟨23, 59, 59, 0, 29, 2, 2024, 4⟩
def lastOf1999 : DatetimeT := ⟨23, 59, 59, 0, 31, 12, 1999, 5⟩

/-- A second after the leap day of 2024. -/
theorem reading_eq_iff_leapDay2024 :
    ∃ log log' out, Prog.Exec (rhsHalRtcSetDatetime 0 leapDay2024) log (.ok ()) ∧
      Prog.Served RtcStep unset log (settingOf leapDay2024 unset) ∧
      Prog.Exec rhsHalRtcGetDatetime log' (.ok out) ∧
      Prog.Served RtcStep (RtcState.second^[1] (settingOf leapDay2024 unset)) log'
        (RtcState.second^[1] (settingOf leapDay2024 unset)) ∧
      out.instant = ⟨⟨2024, 3, 1⟩, 0, 0, 0⟩ := by
  have hv : leapDay2024.instant.Valid := ⟨by rw [Date.Valid]; decide, by decide⟩
  obtain ⟨log, hset, hs⟩ := exists_setting 0 leapDay2024 unset
  obtain ⟨log', out, hget, hs'⟩ :=
    exists_reading (s := RtcState.second^[1] (settingOf leapDay2024 unset))
      (by constructor <;> decide)
  refine ⟨log, log', out, hset, hs, hget, hs', ?_⟩
  exact (reading_eq_iff hv (by decide) (by decide) 1 (by decide) hset hs hget hs').mpr
    (.inl (by decide))

/-- **A century too early**: a second after the end of 1999 the clock reads 1900. -/
theorem second_after_1999_reads_1900 :
    ∃ log log' out, Prog.Exec (rhsHalRtcSetDatetime 0 lastOf1999) log (.ok ()) ∧
      Prog.Served RtcStep unset log (settingOf lastOf1999 unset) ∧
      Prog.Exec rhsHalRtcGetDatetime log' (.ok out) ∧
      Prog.Served RtcStep (RtcState.second^[1] (settingOf lastOf1999 unset)) log'
        (RtcState.second^[1] (settingOf lastOf1999 unset)) ∧
      lastOf1999.instant.Valid ∧ gregorian.tick^[1] lastOf1999.instant = ⟨⟨2000, 1, 1⟩, 0, 0, 0⟩ ∧
      out.instant = ⟨⟨1900, 1, 1⟩, 0, 0, 0⟩ := by
  obtain ⟨log, hset, hs⟩ := exists_setting 0 lastOf1999 unset
  obtain ⟨log', out, hget, hs'⟩ :=
    exists_reading (s := RtcState.second^[1] (settingOf lastOf1999 unset))
      (by constructor <;> decide)
  refine ⟨log, log', out, hset, hs, hget, hs', ⟨by rw [Date.Valid]; decide, by decide⟩,
    by decide, ?_⟩
  rw [served_rhsHalRtcGetDatetime hget hs' (by decide)]
  decide

/-! ## Timestamps -/

theorem seconds_firstSecond_2100 :
    (firstSecond 2100).seconds 1970 = lastOf2099.seconds 1970 + 1 := by
  have hv : lastOf2099.Valid := ⟨by rw [Date.Valid]; decide, by decide⟩
  have htick : gregorian.tick lastOf2099 = firstSecond 2100 := by decide
  rw [← htick, hv.seconds_tick (by decide)]

/-- A second that the decoder keeps is decoded to that second. -/
theorem seconds_timestampOf {t mseconds : UInt32}
    (ht : t.toNat ≤ lastOf2099.seconds 1970) (htail : ¬ leapYearTail (t.toNat / 86400)) :
    let datetime := timestampOf unassigned t.toUInt64 mseconds
    datetime.instant.Valid ∧ 1970 ≤ datetime.instant.date.year ∧
      datetime.instant.seconds 1970 = t.toNat := by
  intro datetime
  obtain ⟨hv, hlo, -, behind, hbehind, hnumber, hbehind_iff⟩ :=
    timestampOf_spec unassigned mseconds t ht
  have htime : 3600 * datetime.instant.hour + 60 * datetime.instant.minute
      + datetime.instant.second = t.toNat % 86400 := convertUnixTime2Date_timeOfDay unassigned t
  rw [hbehind_iff] at htail
  refine ⟨hv, hlo, ?_⟩
  rw [Instant.seconds]
  change datetime.instant.date.number 1970 + behind = _ at hnumber
  omega

/-- Reading the timestamp is reading the clock and encoding what was read. -/
theorem exec_rhsHalRtcGetTimestamp {read : UInt64 × UInt32}
    (h : Prog.Exec rhsHalRtcGetTimestamp log (.ok read)) :
    ∃ out, Prog.Exec rhsHalRtcGetDatetime log (.ok out) ∧
      read = ((convertDate2UnixTime out).toUInt64, out.mseconds) := by
  obtain ⟨out, l₁, l₂, hget, hret, rfl⟩ := Prog.exec_bind_ok_iff.mp h
  obtain ⟨rfl, hread⟩ := Prog.exec_ret_iff.mp hret
  exact ⟨out, by simpa using hget, Except.ok.inj hread⟩

/-- Since 1970 a reading is right while the century that was set goes on. -/
theorem reading_of_same_century {i : Instant} (hv : i.Valid) (hlo : 1970 ≤ i.date.year) {n : ℕ}
    (hlast : (gregorian.tick^[n] i).date.year < 2100)
    (hsame : 2000 ≤ i.date.year ∨ (gregorian.tick^[n] i).date.year < 2000) :
    onDate (withCentury (if 2000 ≤ i.date.year then 2000 else 1900))
      (rtcRules.tick^[n] (onDate twoDigits i)) = gregorian.tick^[n] i := by
  obtain ⟨-, hyn, -⟩ := hv.iterate_tick hlo n
  rcases Nat.lt_or_ge i.date.year 2000 with hold | hnew
  · have hin := hsame.resolve_left (by omega)
    rw [if_neg (by omega)]
    exact reading_of_not_passed hv (by omega) (by decide) (by omega) hin (by omega)
      fun k _ => iterate_tick_ne_february1900 hv (by omega) k
  · rw [if_pos hnew]
    exact reading_second hv hnew (Nat.le_of_lt_succ hlast)

/-- **A timestamp is read back**: set to a second that the decoder keeps and read after `n`
seconds of the same century, the clock gives that second and `n`. -/
theorem timestamp_read_back {seconds : UInt64} {mseconds : UInt32} {n : ℕ}
    (hend : seconds.toNat + n < (firstSecond 2100).seconds 1970)
    (htail : ¬ leapYearTail (seconds.toNat / 86400))
    (hsame : (firstSecond 2000).seconds 1970 ≤ seconds.toNat ∨
      seconds.toNat + n < (firstSecond 2000).seconds 1970)
    {log' : List (Event RtcOp.Ans)} {s'' : RtcState} {u : Unit} {read : UInt64 × UInt32}
    (hset : Prog.Exec (rhsHalRtcSetTimestamp unassigned seconds mseconds) log (.ok u))
    (hs : Prog.Served RtcStep s log s')
    (hget : Prog.Exec rhsHalRtcGetTimestamp log' (.ok read))
    (hs' : Prog.Served RtcStep (RtcState.second^[n] s') log' s'') :
    read.1.toNat = seconds.toNat + n := by
  have hsmall : seconds.toNat ≤ lastOf2099.seconds 1970 := by
    rw [seconds_firstSecond_2100] at hend
    omega
  obtain ⟨t, rfl, hnat⟩ := exists_toUInt64_eq hsmall
  rw [← hnat] at hend htail hsame hsmall ⊢
  obtain ⟨hv, hlo, hseconds⟩ := seconds_timestampOf hsmall htail
  obtain ⟨out, hgetDatetime, rfl⟩ := exec_rhsHalRtcGetTimestamp hget
  have hout := reading_instant hv n hset hs hgetDatetime hs'
  set i := (timestampOf unassigned t.toUInt64 mseconds).instant
  obtain ⟨hvn, hyn, hsn⟩ := hv.iterate_tick hlo n
  have hlast : (gregorian.tick^[n] i).date.year < 2100 := by
    rw [← Nat.not_le, hvn.le_year_iff hyn (by decide), hsn, hseconds]
    exact Nat.not_le.mpr hend
  have hequal : out.instant = gregorian.tick^[n] i := by
    refine hout.trans (reading_of_same_century hv hlo hlast ?_)
    rwa [hv.le_year_iff hlo (by decide), ← Nat.not_le, hvn.le_year_iff hyn (by decide),
      Nat.not_le, hsn, hseconds]
  have hencoded : (convertDate2UnixTime out).toNat = out.instant.seconds 1970 % 2 ^ 32 := by
    rw [← hequal] at hvn hyn hlast
    exact toNat_convertDate2UnixTime out hvn.date hyn (hlast.trans (by decide))
  rw [seconds_firstSecond_2100, seconds_lastOf2099] at hend
  rw [UInt32.toNat_toUInt64, hencoded, hequal, hsn, hseconds, Nat.mod_eq_of_lt (by omega)]

end RhsCore.UnixTime
