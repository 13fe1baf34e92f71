import RhsCore.Lib.Clock
import RhsCore.Lib.Flags
import RhsCore.Lib.Program
import RhsCore.Rtc.UnixTime

/-!
# The real-time clock

`hal/rhs_hal_rtc/rhs_hal_rtc.c`, down to the vendor's calls.  The peripheral counts two
digits of the year; in which century they are is a bit of a backup register that is
written when the clock is set and at no other time.

The peripheral runs through a calendar of its own, in which every fourth of its hundred
years is a leap year and the year after 99 is 0.

## Main definitions

* `RtcOp`, `Rtc` — the vendor's calls, and programs that make them.
* `rhsHalRtcSetDatetime`, `rhsHalRtcGetDatetime` — setting and reading the clock.
* `rhsHalRtcSetTimestamp`, `rhsHalRtcGetTimestamp` — the same in seconds since 1970.
* `RtcValid` — what the documentation asks of the fields of the clock.
* `RtcState`, `RtcState.second`, `RtcStep` — the peripheral, its second, its answers.
-/

namespace RhsCore.UnixTime
open RhsCore.Calendar

/-! ## The source's functions -/

/-- `RHSHalRtcRegister`. -/
inductive RHSHalRtcRegister
  | system
  deriving DecidableEq, Repr

/-- `RTC_DateTypeDef`. -/
structure RTCDateTypeDef where
  weekDay : UInt8
  month : UInt8
  date : UInt8
  year : UInt8
  deriving DecidableEq, Repr

/-- `RTC_TimeTypeDef`; the 24-hour format and the daylight saving bits never change. -/
structure RTCTimeTypeDef where
  hours : UInt8
  minutes : UInt8
  seconds : UInt8
  subSeconds : UInt32
  secondFraction : UInt32
  deriving DecidableEq, Repr

/-- The vendor's calls. -/
inductive RtcOp
  | getRegister (reg : RHSHalRtcRegister)
  | setRegister (reg : RHSHalRtcRegister) (value : UInt32)
  | setDate (sDate : RTCDateTypeDef)
  | setTime (sTime : RTCTimeTypeDef)
  | getTime
  | getDate
  deriving DecidableEq, Repr

/-- What they answer; a status is whether it is `HAL_OK`. -/
def RtcOp.Ans : RtcOp → Type
  | .getRegister _ => UInt32
  | .setRegister .. => Unit
  | .setDate _ => Bool
  | .setTime _ => Bool
  | .getTime => Bool × RTCTimeTypeDef
  | .getDate => Bool × RTCDateTypeDef

/-- Programs over the vendor's calls. -/
abbrev Rtc (α : Type) := Prog RtcOp RtcOp.Ans α

/-- `rhs_hal_rtc_get_register`. -/
def rhsHalRtcGetRegister (reg : RHSHalRtcRegister) : Rtc UInt32 := .call (.getRegister reg) .ret

/-- `rhs_hal_rtc_set_register`. -/
def rhsHalRtcSetRegister (reg : RHSHalRtcRegister) (value : UInt32) : Rtc Unit :=
  .call (.setRegister reg value) .ret

/-- `HAL_RTC_SetDate`. -/
def halRtcSetDate (sDate : RTCDateTypeDef) : Rtc Bool := .call (.setDate sDate) .ret

/-- `HAL_RTC_SetTime`. -/
def halRtcSetTime (sTime : RTCTimeTypeDef) : Rtc Bool := .call (.setTime sTime) .ret

/-- `HAL_RTC_GetTime`. -/
def halRtcGetTime : Rtc (Bool × RTCTimeTypeDef) := .call .getTime .ret

/-- `HAL_RTC_GetDate`. -/
def halRtcGetDate : Rtc (Bool × RTCDateTypeDef) := .call .getDate .ret

/-- A status other than `HAL_OK` is a crash. -/
def rhsCrashUnless (status : Bool) : Rtc Unit :=
  if status then .ret () else .halt .crash

/-- The bit `year2000` of `SystemReg`, behind the four of `log_level`. -/
def year2000 (reg : UInt32) : Bool := decide (HasFlag reg 4)

/-- The register with that bit written. -/
def withYear2000 (reg : UInt32) (value : Bool) : UInt32 :=
  if value then reg ||| 0x10 else reg &&& ~~~ 0x10

/-- The date that is set. -/
def sDateOf (datetime : DatetimeT) : RTCDateTypeDef :=
  { weekDay := datetime.weekday.toUInt8
    month := datetime.month.toUInt8
    date := datetime.day.toUInt8
    year := (datetime.year % 100).toUInt8 }

/-- The time that is set; the fractions of a second are not, and `unassigned` is what the
local held. -/
def sTimeOf (unassigned : UInt32) (datetime : DatetimeT) : RTCTimeTypeDef :=
  { hours := datetime.hours.toUInt8
    minutes := datetime.minutes.toUInt8
    seconds := datetime.seconds.toUInt8
    subSeconds := unassigned
    secondFraction := unassigned }

/-- `rhs_hal_rtc_set_datetime`. -/
def rhsHalRtcSetDatetime (unassigned : UInt32) (datetime : DatetimeT) : Rtc Unit := do
  let reg ← rhsHalRtcGetRegister .system
  rhsHalRtcSetRegister .system (withYear2000 reg (decide (2000 ≤ datetime.year)))
  let dateStatus ← halRtcSetDate (sDateOf datetime)
  rhsCrashUnless dateStatus
  let timeStatus ← halRtcSetTime (sTimeOf unassigned datetime)
  rhsCrashUnless timeStatus

/-- The date and time that a reading of the clock is taken for. -/
def datetimeOf (reg : UInt32) (sTime : RTCTimeTypeDef) (sDate : RTCDateTypeDef) : DatetimeT :=
  { hours := sTime.hours.toUInt32
    minutes := sTime.minutes.toUInt32
    seconds := sTime.seconds.toUInt32
    mseconds := ((sTime.secondFraction - sTime.subSeconds).toUInt64 * 1000
      / (sTime.secondFraction + 1).toUInt64).toUInt32
    day := sDate.date.toUInt32
    month := sDate.month.toUInt32
    year := if year2000 reg then 2000 + sDate.year.toUInt32 else 1900 + sDate.year.toUInt32
    weekday := sDate.weekDay.toUInt32 }

/-- `rhs_hal_rtc_get_datetime`. -/
def rhsHalRtcGetDatetime : Rtc DatetimeT := do
  let reg ← rhsHalRtcGetRegister .system
  let (timeStatus, sTime) ← halRtcGetTime
  rhsCrashUnless timeStatus
  let (dateStatus, sDate) ← halRtcGetDate
  rhsCrashUnless dateStatus
  pure (datetimeOf reg sTime sDate)

/-- The `datetime` of `rhs_hal_rtc_set_timestamp`. -/
def timestampOf (unassigned : UInt32) (seconds : UInt64) (mseconds : UInt32) : DatetimeT :=
  { convertUnixTime2Date unassigned seconds with mseconds := mseconds }

/-- `rhs_hal_rtc_set_timestamp`. -/
def rhsHalRtcSetTimestamp (unassigned : UInt32) (seconds : UInt64) (mseconds : UInt32) :
    Rtc Unit :=
  rhsHalRtcSetDatetime unassigned (timestampOf unassigned seconds mseconds)

/-- `rhs_hal_rtc_get_timestamp`: the seconds and the milliseconds. -/
def rhsHalRtcGetTimestamp : Rtc (UInt64 × UInt32) := do
  let datetime ← rhsHalRtcGetDatetime
  pure ((convertDate2UnixTime datetime).toUInt64, datetime.mseconds)

/-! ## Instants of a `datetime_t` -/

/-- The second that a `datetime_t` names. -/
def DatetimeT.instant (datetime : DatetimeT) : Instant :=
  { date := ⟨datetime.year.toNat, datetime.month.toNat, datetime.day.toNat⟩
    hour := datetime.hours.toNat
    minute := datetime.minutes.toNat
    second := datetime.seconds.toNat }

/-- The last second that 32 bits count. -/
def lastOfUInt32 : Instant := ⟨⟨2106, 2, 7⟩, 6, 28, 15⟩

/-- The last second of the hundred years that the documentation allows. -/
def lastOf2099 : Instant := ⟨⟨2099, 12, 31⟩, 23, 59, 59⟩

theorem number_1970 {d : Date} (h : 1970 ≤ d.year) : d.number 1970 + 477 =
    365 * (d.year - 1970) + leapQuotients (d.year - 1)
      + daysBeforeMonth d.year d.month + (d.day - 1) := by
  have hleap := leapsBefore_1970 h
  rw [Date.number, dayNumber, yearStart]
  omega

theorem valid_lastOfUInt32 : lastOfUInt32.Valid :=
  ⟨by rw [Date.Valid]; decide, by decide⟩

theorem seconds_lastOfUInt32 : lastOfUInt32.seconds 1970 = 4294967295 := by
  have hnumber : Date.number 1970 ⟨2106, 2, 7⟩ + 477 = 365 * 136 + 510 + 31 + 6 :=
    number_1970 (d := ⟨2106, 2, 7⟩) (by decide)
  have hdate : Date.number 1970 lastOfUInt32.date = 49710 := Nat.add_right_cancel hnumber
  rw [Instant.seconds, hdate]
  rfl

theorem seconds_lastOf2099 : lastOf2099.seconds 1970 = 4102444799 := by
  have hnumber : Date.number 1970 ⟨2099, 12, 31⟩ + 477 = 365 * 129 + 509 + 334 + 30 :=
    number_1970 (d := ⟨2099, 12, 31⟩) (by decide)
  have hdate : Date.number 1970 lastOf2099.date = 47481 := Nat.add_right_cancel hnumber
  rw [Instant.seconds, hdate]
  rfl

/-- **The encoder**: on every second from 1970 to the last that 32 bits count, it returns
the days since the first of January 1970, told off one by one, and the seconds of the day. -/
theorem convertDate2UnixTime_eq_seconds (date : DatetimeT) (hv : date.instant.Valid)
    (hlo : [1970, 1, 1, 0, 0, 0] ≤ date.instant.fields)
    (hhi : date.instant.fields ≤ lastOfUInt32.fields) :
    ∃ days, gregorian.nextDay^[days] ⟨1970, 1, 1⟩ = date.instant.date ∧
      (convertDate2UnixTime date).toNat = 86400 * days
        + (3600 * date.hours.toNat + 60 * date.minutes.toNat + date.seconds.toNat) := by
  have hyear : 1970 ≤ date.year.toNat := by
    rw [← not_lt] at hlo
    simp only [Instant.fields, Date.fields, DatetimeT.instant, List.cons_append, List.nil_append,
      List.cons_lt_cons_iff] at hlo
    omega
  have hbound : date.instant.seconds 1970 ≤ lastOfUInt32.seconds 1970 :=
    (hv.fields_le_iff valid_lastOfUInt32 hyear (by decide)).mp hhi
  rw [seconds_lastOfUInt32] at hbound
  have hyear' : date.year.toNat < 10000 := by
    rw [← not_lt] at hhi
    simp only [lastOfUInt32, Instant.fields, Date.fields, DatetimeT.instant, List.cons_append,
      List.nil_append, List.cons_lt_cons_iff] at hhi
    omega
  have henc := toNat_convertDate2UnixTime date hv.date hyear hyear'
  refine ⟨date.instant.date.number 1970, hv.date.iterate_number hyear, ?_⟩
  simp only [Instant.seconds, DatetimeT.instant, Date.number] at hbound ⊢
  rw [henc, Nat.mod_eq_of_lt (by omega)]
  omega

/-- The last second, at which the year of the epoch is 136 years away. -/
theorem convertDate2UnixTime_last :
    ∃ days, gregorian.nextDay^[days] ⟨1970, 1, 1⟩ = lastOfUInt32.date ∧
      (convertDate2UnixTime ⟨6, 28, 15, 0, 7, 2, 2106, 7⟩).toNat
        = 86400 * days + (3600 * 6 + 60 * 28 + 15) :=
  convertDate2UnixTime_eq_seconds ⟨6, 28, 15, 0, 7, 2, 2106, 7⟩ valid_lastOfUInt32
    (by decide) (by decide)

/-! ## What is programmed -/

variable {unassigned mseconds reg : UInt32} {datetime out : DatetimeT}
  {log : List (Event RtcOp.Ans)}

theorem exec_rhsCrashUnless_iff {status : Bool} {u : Unit} :
    Prog.Exec (rhsCrashUnless status) log (.ok u) ↔ log = [] ∧ status = true := by
  cases status <;> simp [rhsCrashUnless]

/-- **What setting the clock does**: the century goes into the register, and the date and the
time to the peripheral. -/
theorem exec_rhsHalRtcSetDatetime_iff {u : Unit} :
    Prog.Exec (rhsHalRtcSetDatetime unassigned datetime) log (.ok u) ↔ ∃ reg : UInt32,
      log = [⟨.getRegister .system, reg⟩,
        ⟨.setRegister .system (withYear2000 reg (decide (2000 ≤ datetime.year))), ()⟩,
        ⟨.setDate (sDateOf datetime), true⟩, ⟨.setTime (sTimeOf unassigned datetime), true⟩] := by
  simp only [rhsHalRtcSetDatetime, Prog.exec_bind_ok_iff, exec_rhsCrashUnless_iff]
  constructor
  · rintro ⟨reg, l₁, l₂, hreg, ⟨v, l₃, l₄, hset, ⟨dateStatus, l₅, l₆, hdate, ⟨w, l₇, l₈,
      ⟨rfl, rfl⟩, ⟨timeStatus, l₉, l₁₀, htime, ⟨rfl, rfl⟩, rfl⟩, rfl⟩, rfl⟩, rfl⟩, rfl⟩
    obtain rfl := Prog.exec_op_iff.mp hreg
    obtain rfl := Prog.exec_op_iff.mp hset
    obtain rfl := Prog.exec_op_iff.mp hdate
    obtain rfl := Prog.exec_op_iff.mp htime
    exact ⟨reg, rfl⟩
  · rintro ⟨reg, rfl⟩
    exact ⟨reg, _, _, Prog.exec_op_iff.mpr rfl, ⟨(), _, _, Prog.exec_op_iff.mpr rfl,
      ⟨true, _, _, Prog.exec_op_iff.mpr rfl, ⟨(), [], _, ⟨rfl, rfl⟩,
        ⟨true, _, _, Prog.exec_op_iff.mpr rfl, ⟨rfl, rfl⟩, rfl⟩, rfl⟩, rfl⟩, rfl⟩, rfl⟩

/-- **What reading it does**. -/
theorem exec_rhsHalRtcGetDatetime_iff :
    Prog.Exec rhsHalRtcGetDatetime log (.ok out) ↔ ∃ (reg : UInt32) (sTime : RTCTimeTypeDef)
      (sDate : RTCDateTypeDef), out = datetimeOf reg sTime sDate ∧
        log = [⟨.getRegister .system, reg⟩, ⟨.getTime, (true, sTime)⟩,
          ⟨.getDate, (true, sDate)⟩] := by
  simp only [rhsHalRtcGetDatetime, Prog.exec_bind_ok_iff, exec_rhsCrashUnless_iff]
  constructor
  · rintro ⟨reg, l₁, l₂, hreg, ⟨⟨timeStatus, sTime⟩, l₃, l₄, htime, ⟨v, l₅, l₆, ⟨rfl, rfl⟩,
      ⟨⟨dateStatus, sDate⟩, l₇, l₈, hdate, ⟨w, l₉, l₁₀, ⟨rfl, rfl⟩, hret, rfl⟩, rfl⟩, rfl⟩,
      rfl⟩, rfl⟩
    obtain rfl := Prog.exec_op_iff.mp hreg
    obtain rfl := Prog.exec_op_iff.mp htime
    obtain rfl := Prog.exec_op_iff.mp hdate
    obtain ⟨rfl, hout⟩ := Prog.exec_ret_iff.mp hret
    exact ⟨reg, sTime, sDate, Except.ok.inj hout, rfl⟩
  · rintro ⟨reg, sTime, sDate, rfl, rfl⟩
    exact ⟨reg, _, _, Prog.exec_op_iff.mpr rfl, ⟨(true, sTime), _, _, Prog.exec_op_iff.mpr rfl,
      ⟨(), [], _, ⟨rfl, rfl⟩, ⟨(true, sDate), _, _, Prog.exec_op_iff.mpr rfl,
        ⟨(), [], [], ⟨rfl, rfl⟩, .ret _, rfl⟩, rfl⟩, rfl⟩, rfl⟩, rfl⟩

/-- The year that a register and a date of the peripheral stand for. -/
def fullYear (reg : UInt32) (sDate : RTCDateTypeDef) : ℕ :=
  (if year2000 reg then 2000 else 1900) + sDate.year.toNat

/-- The weekday of day `n` since 1970, Monday being 1 and Sunday 7; day zero was a Thursday. -/
def weekdayOf (n : ℕ) : ℕ := (n + 3) % 7 + 1

/-- **What the documentation asks** of the fields in the peripheral and the century beside
them. -/
structure RtcValid (reg : UInt32) (sDate : RTCDateTypeDef) (sTime : RTCTimeTypeDef) : Prop where
  hours_lt : sTime.hours.toNat < 24
  minutes_lt : sTime.minutes.toNat < 60
  seconds_lt : sTime.seconds.toNat < 60
  year_le : sDate.year.toNat ≤ 99
  date : ValidDate (fullYear reg sDate) sDate.month.toNat sDate.date.toNat
  weekday_pos : 1 ≤ sDate.weekDay.toNat
  weekday_le : sDate.weekDay.toNat ≤ 7
  weekday_eq : sDate.weekDay.toNat = weekdayOf
    (dayNumber 1970 (fullYear reg sDate) sDate.month.toNat sDate.date.toNat)

@[simp] theorem year2000_withYear2000 (reg : UInt32) (value : Bool) :
    year2000 (withYear2000 reg value) = value := by
  cases value
  · simp only [year2000, withYear2000, Bool.false_eq_true, if_false, decide_eq_false_iff_not,
      hasFlag_and_not, not_and, not_not]
    intro _
    decide
  · simp only [year2000, withYear2000, if_true, decide_eq_true_eq, hasFlag_or]
    exact .inr (by decide)

/-- The century and the two digits make up the year. -/
theorem fullYear_sDateOf (reg : UInt32) (hlo : 1900 ≤ datetime.year.toNat)
    (hhi : datetime.year.toNat ≤ 2099) :
    fullYear (withYear2000 reg (decide (2000 ≤ datetime.year))) (sDateOf datetime)
      = datetime.year.toNat := by
  have hyear : (sDateOf datetime).year.toNat = datetime.year.toNat % 100 := by
    simp only [sDateOf, UInt32.toNat_toUInt8, UInt32.toNat_mod, UInt32.reduceToNat]
    omega
  simp only [fullYear, year2000_withYear2000, decide_eq_true_eq, UInt32.le_iff_toNat_le, hyear,
    UInt32.reduceToNat]
  split <;> omega

/-- A month, a day, an hour, a minute or a second keeps its value in a byte. -/
theorem toNat_toUInt8 {field : UInt32} (h : field.toNat < 256) :
    field.toUInt8.toNat = field.toNat := by
  rw [UInt32.toNat_toUInt8, Nat.mod_eq_of_lt h]

/-- Of a valid instant between 1900 and 2099 every field but the weekday is valid. -/
theorem rtcValid_iff_weekday (hv : datetime.instant.Valid) (hlo : 1900 ≤ datetime.year.toNat)
    (hhi : datetime.year.toNat ≤ 2099) (hweekday : datetime.weekday.toNat < 256) :
    RtcValid (withYear2000 reg (decide (2000 ≤ datetime.year))) (sDateOf datetime)
        (sTimeOf unassigned datetime) ↔
      1 ≤ datetime.weekday.toNat ∧ datetime.weekday.toNat ≤ 7 ∧
        datetime.weekday.toNat = weekdayOf (datetime.instant.date.number 1970) := by
  have hhour : datetime.hours.toNat < 24 := hv.time.hour_lt
  have hminute : datetime.minutes.toNat < 60 := hv.time.minute_lt
  have hsecond : datetime.seconds.toNat < 60 := hv.time.second_lt
  have hm12 : datetime.month.toNat ≤ 12 := hv.date.month_le
  have hd31 : datetime.day.toNat ≤ 31 := hv.date.day_le.trans (monthLength_le _ _)
  have hfull := fullYear_sDateOf reg hlo hhi
  have hmonth : (sDateOf datetime).month.toNat = datetime.month.toNat := toNat_toUInt8 (by omega)
  have hday : (sDateOf datetime).date.toNat = datetime.day.toNat := toNat_toUInt8 (by omega)
  have hwd : (sDateOf datetime).weekDay.toNat = datetime.weekday.toNat := toNat_toUInt8 hweekday
  constructor
  · intro h
    have hpos := h.weekday_pos
    have hle := h.weekday_le
    have heq := h.weekday_eq
    rw [hwd] at hpos hle
    rw [hfull, hmonth, hday, hwd] at heq
    exact ⟨hpos, hle, heq⟩
  · intro h
    refine ⟨?_, ?_, ?_, ?_, ?_, ?_, ?_, ?_⟩
    · exact (toNat_toUInt8 (by omega)).trans_lt hhour
    · exact (toNat_toUInt8 (by omega)).trans_lt hminute
    · exact (toNat_toUInt8 (by omega)).trans_lt hsecond
    · simp only [sDateOf, UInt32.toNat_toUInt8, UInt32.toNat_mod, UInt32.reduceToNat]
      omega
    · rw [hfull, hmonth, hday]
      exact hv.date
    · rw [hwd]
      exact h.1
    · rw [hwd]
      exact h.2.1
    · rw [hfull, hmonth, hday, hwd]
      exact h.2.2

/-! ## What a timestamp programs -/

/-- The decoded weekday counts from Sunday as zero. -/
theorem toNat_weekday (unassigned t : UInt32) :
    (convertUnixTime2Date unassigned t.toUInt64).weekday.toNat = (t.toNat / 86400 + 4) % 7 := by
  have ht := t.toNat_lt
  have htable : ∀ k < 7, (weekDays.getD k 0).toNat = (k + 4) % 7 := by decide
  have hdays : (t.toUInt64 / 60 / 60 / 24).toUInt32.toNat = t.toNat / 86400 := by
    simp only [UInt64.toNat_toUInt32, UInt64.toNat_div, UInt32.toNat_toUInt64, UInt64.reduceToNat]
    omega
  simp only [convertUnixTime2Date, UInt32.toNat_mod, hdays, UInt32.reduceToNat]
  rw [htable _ (Nat.mod_lt _ (by decide))]
  omega

/-- The years of the days up to the last of 2099. -/
theorem year_le_2099 {y n : ℕ} (hlo : yearStart 1970 y ≤ n) (hn : n ≤ 47481) : y ≤ 2099 := by
  by_contra hlate
  have hmono := yearStart_mono (e := 1970) (y := 2100) (z := y) (by decide) (by omega)
  have hleap : leapsBefore 1970 2100 + 477 = 509 := leapsBefore_1970 (by decide)
  have hstart : yearStart 1970 2100 = 365 * (2100 - 1970) + leapsBefore 1970 2100 := rfl
  omega

/-- The time of day that is decoded is one. -/
theorem validTime_convertUnixTime2Date (unassigned : UInt32) (seconds : UInt64) :
    (convertUnixTime2Date unassigned seconds).instant.ValidTime := by
  constructor <;>
    simp only [DatetimeT.instant, convertUnixTime2Date, UInt64.toNat_toUInt32, UInt64.toNat_mod,
      UInt64.reduceToNat] <;>
    omega

/-- A timestamp is decoded to a second of the calendar: its own, or on the days that the
decoder loses the one a day before. -/
theorem timestampOf_spec (unassigned mseconds t : UInt32)
    (ht : t.toNat ≤ lastOf2099.seconds 1970) :
    let datetime := timestampOf unassigned t.toUInt64 mseconds
    datetime.instant.Valid ∧ 1970 ≤ datetime.year.toNat ∧ datetime.year.toNat ≤ 2099 ∧
      ∃ behind ≤ 1, datetime.instant.date.number 1970 + behind = t.toNat / 86400 ∧
        (leapYearTail (t.toNat / 86400) ↔ behind = 1) := by
  intro datetime
  rw [seconds_lastOf2099] at ht
  obtain ⟨y, hy, hlo, hhi⟩ := exists_year 1970 (t.toNat / 86400)
  have hy2099 : y ≤ 2099 := year_le_2099 hlo (by omega)
  obtain ⟨hyear, hvalid, hday⟩ := convertUnixTime2Date_spec unassigned t hy hlo hhi
  have hlag : lag y (t.toNat / 86400) ≤ 1 := by rw [lag]; split <;> omega
  have hyear' : datetime.year.toNat = y := hyear
  refine ⟨⟨?_, validTime_convertUnixTime2Date unassigned t.toUInt64⟩, by omega, by omega,
    lag y (t.toNat / 86400), hlag, ?_, leapYearTail_iff (by omega) hy hlo hhi⟩
  · rw [Date.Valid, DatetimeT.instant, hyear']
    exact hvalid
  · rw [Date.number, DatetimeT.instant, hyear']
    exact hday

/-- Up to the end of 2099 the seconds fit into 32 bits. -/
theorem exists_toUInt64_eq {seconds : UInt64} (h : seconds.toNat ≤ lastOf2099.seconds 1970) :
    ∃ t : UInt32, t.toUInt64 = seconds ∧ t.toNat = seconds.toNat := by
  rw [seconds_lastOf2099] at h
  have hnat : seconds.toUInt32.toNat = seconds.toNat := by
    rw [UInt64.toNat_toUInt32]
    omega
  exact ⟨seconds.toUInt32, by rw [← UInt64.toNat_inj, UInt32.toNat_toUInt64, hnat], hnat⟩

/-- The fields of a timestamp are valid, but for the weekday: it is 0 on a Sunday, and where
the date is the day before, it is not that day's. -/
theorem rtcValid_timestamp_iff (unassigned mseconds reg t : UInt32)
    (ht : t.toNat ≤ lastOf2099.seconds 1970)
    (hdate : datetime = timestampOf unassigned t.toUInt64 mseconds) :
    RtcValid (withYear2000 reg (decide (2000 ≤ datetime.year))) (sDateOf datetime)
        (sTimeOf unassigned datetime) ↔
      weekdayOf (t.toNat / 86400) ≠ 7 ∧ ¬ leapYearTail (t.toNat / 86400) := by
  obtain ⟨hv, hlo, hhi, behind, hbehind, hnumber, htail⟩ :=
    timestampOf_spec unassigned mseconds t ht
  rw [← hdate] at hv hlo hhi hnumber
  have hwd : datetime.weekday.toNat = (t.toNat / 86400 + 4) % 7 := by
    rw [hdate]
    exact toNat_weekday unassigned t
  rw [rtcValid_iff_weekday hv (by omega) hhi (by omega), htail, hwd, weekdayOf, weekdayOf]
  generalize datetime.instant.date.number 1970 = days at hnumber
  omega

theorem exec_rhsHalRtcSetTimestamp (unassigned reg : UInt32) (seconds : UInt64)
    (mseconds : UInt32) :
    let datetime := timestampOf unassigned seconds mseconds
    Prog.Exec (rhsHalRtcSetTimestamp unassigned seconds mseconds)
      [⟨.getRegister .system, reg⟩,
        ⟨.setRegister .system (withYear2000 reg (decide (2000 ≤ datetime.year))), ()⟩,
        ⟨.setDate (sDateOf datetime), true⟩, ⟨.setTime (sTimeOf unassigned datetime), true⟩]
      (.ok ()) :=
  exec_rhsHalRtcSetDatetime_iff.mpr ⟨reg, rfl⟩

/-- What a run sets the clock to. -/
structure Programs (log : List (Event RtcOp.Ans)) (reg : UInt32) (sDate : RTCDateTypeDef)
    (sTime : RTCTimeTypeDef) : Prop where
  register : .setRegister .system reg ∈ log.map (·.1)
  date : .setDate sDate ∈ log.map (·.1)
  time : .setTime sTime ∈ log.map (·.1)

/-- **When a timestamp programs what the documentation asks**: up to the end of 2099, on every
day that is not a Sunday and not one that the decoder loses. -/
theorem rtcValid_rhsHalRtcSetTimestamp_iff (seconds : UInt64)
    (hseconds : seconds.toNat ≤ lastOf2099.seconds 1970) {u : Unit}
    (h : Prog.Exec (rhsHalRtcSetTimestamp unassigned seconds mseconds) log (.ok u)) :
    (∀ reg sDate sTime, Programs log reg sDate sTime → RtcValid reg sDate sTime) ↔
      weekdayOf (seconds.toNat / 86400) ≠ 7 ∧ ¬ leapYearTail (seconds.toNat / 86400) := by
  obtain ⟨t, rfl, hnat⟩ := exists_toUInt64_eq hseconds
  obtain ⟨reg, rfl⟩ := exec_rhsHalRtcSetDatetime_iff.mp h
  rw [← hnat] at hseconds ⊢
  rw [← rtcValid_timestamp_iff unassigned mseconds reg t hseconds rfl]
  constructor
  · intro hall
    exact hall _ _ _ ⟨by simp, by simp, by simp⟩
  · rintro hvalid reg' sDate sTime ⟨hreg, hdate, htime⟩
    simp only [List.map_cons, List.map_nil, List.mem_cons, reduceCtorEq, RtcOp.setRegister.injEq,
      RtcOp.setDate.injEq, RtcOp.setTime.injEq, List.not_mem_nil, true_and, or_false, false_or]
      at hreg hdate htime
    rw [hreg, hdate, htime]
    exact hvalid

/-- The first second of 1970, a Thursday. -/
theorem rtcValid_rhsHalRtcSetTimestamp_zero : ∃ log,
    Prog.Exec (rhsHalRtcSetTimestamp 0 0 0) log (.ok ()) ∧
      ∀ reg sDate sTime, Programs log reg sDate sTime → RtcValid reg sDate sTime := by
  have h := exec_rhsHalRtcSetTimestamp 0 0 0 0
  refine ⟨_, h, (rtcValid_rhsHalRtcSetTimestamp_iff 0 (Nat.zero_le _) h).mpr ⟨by decide, ?_⟩⟩
  rintro ⟨y, hy, -, -, htail⟩
  rw [show (0 : UInt64).toNat / 86400 = 0 from rfl] at htail
  have hL := four_mul_leapsBefore_le hy
  rw [yearStart_succ hy, yearStart, yearLength] at htail
  split at htail <;> omega

/-- **The first Sunday** gets weekday 0. -/
theorem sunday_programs_weekday_zero : ∃ log,
    Prog.Exec (rhsHalRtcSetTimestamp 0 259200 0) log (.ok ()) ∧
      ∃ reg sDate sTime, Programs log reg sDate sTime ∧ sDate.weekDay = 0 ∧
        ¬ RtcValid reg sDate sTime := by
  have h := exec_rhsHalRtcSetTimestamp 0 0 259200 0
  have hzero : (sDateOf (timestampOf 0 259200 0)).weekDay = 0 := by
    decide
  refine ⟨_, h, withYear2000 0 (decide (2000 ≤ (timestampOf 0 259200 0).year)),
    sDateOf (timestampOf 0 259200 0), sTimeOf 0 (timestampOf 0 259200 0),
    ⟨by simp, by simp, by simp⟩, hzero, fun hvalid => ?_⟩
  have hpos := hvalid.weekday_pos
  rw [hzero] at hpos
  exact absurd hpos (by decide)

end RhsCore.UnixTime
