import RhsCore.Core.Kernel
import RhsCore.Core.ThreadFlags
import RhsCore.Lib.Interp

/-!
# The cycle counter

`hal/rhs_hal_cortex` on the cores that have `DWT->CYCCNT`, and `rhs_delay_ms` of
`core/kernel.c` over it.  A time in microseconds becomes a number of cycles, which the
counter is compared with until it has advanced so far.

Callers that have milliseconds multiply by 1000 first, in 32 bits, and nothing looks at
that product but the assertion that the second one fits.

## Main definitions

* `CortexOp`, `CortexProg` — what is done with the counter, and programs that do it.
* `rhsHalCortexTimerGet`, `rhsHalCortexDelayUs`, `rhsDelayMs` — the calls.
* `cycles`, `CountsExactly` — the cycles that milliseconds are, and that no others count.
* `Exact` — the milliseconds for which this is so.
-/

namespace RhsCore.Cortex

open Prog
open ThreadFlags (portMaxDelay)

/-- What is done with the counter, or instead of it. -/
inductive CortexOp
  /-- `DWT->CYCCNT`. -/
  | cyccnt
  /-- `(DWT->CYCCNT - start) < ticks`. -/
  | cyccntBefore (start ticks : UInt32)
  /-- `rhs_delay_tick`. -/
  | delayTick (ticks : UInt32)
  deriving DecidableEq, Repr

@[reducible] def CortexOp.Ans : CortexOp → Type
  | .cyccnt => UInt32
  | .cyccntBefore _ _ => Bool
  | .delayTick _ => Unit

/-- The number of cycles that the counter is compared with. -/
def CortexOp.cycleCount : CortexOp → Option UInt32
  | .cyccnt => none
  | .cyccntBefore _ ticks => some ticks
  | .delayTick _ => none

/-- Programs over the counter. -/
abbrev CortexProg := Prog CortexOp CortexOp.Ans

/-- The clock, and where the code runs: `RHS_IS_ISR()`, `xTaskGetSchedulerState()`. -/
structure Board where
  systemCoreClock : UInt32
  isIsr : Bool
  scheduler : SchedulerState
  deriving DecidableEq, Repr

/-- `rhs_assert`. -/
def rhsAssert {O : Type} {Ans : O → Type} (condition : Bool) : Prog O Ans Unit :=
  if condition then .ret () else .halt .crash

/-! ## The calls -/

/-- `RHS_HAL_CORTEX_INSTRUCTIONS_PER_MICROSECOND`. -/
def instructionsPerMicrosecond (systemCoreClock : UInt32) : UInt32 := systemCoreClock / 1000000

/-- `UINT32_MAX`. -/
def uint32Max : UInt32 := 0xFFFFFFFF

/-- `RHSHalCortexTimer`. -/
structure RHSHalCortexTimer where
  start : UInt32
  value : UInt32
  deriving DecidableEq, Repr

/-- `rhs_hal_cortex_timer_get`. -/
def rhsHalCortexTimerGet (board : Board) (timeoutUs : UInt32) : CortexProg RHSHalCortexTimer := do
  let perMicrosecond := instructionsPerMicrosecond board.systemCoreClock
  rhsAssert (timeoutUs < uint32Max / perMicrosecond)
  let start ← op .cyccnt
  return { start := start, value := perMicrosecond * timeoutUs }

/-- `rhs_hal_cortex_timer_is_expired`. -/
def rhsHalCortexTimerIsExpired (timer : RHSHalCortexTimer) : CortexProg Bool := do
  let before ← op (.cyccntBefore timer.start timer.value)
  return !before

/-- A turn of the loop of a delay. -/
def delayTurn (start timeTicks : UInt32) : CortexProg (Unit ⊕ Unit) := do
  if ← op (.cyccntBefore start timeTicks) then return .inl () else return .inr ()

/-- `rhs_hal_cortex_delay_us`. -/
def rhsHalCortexDelayUs (board : Board) (bound : ℕ) (microseconds : UInt32) : CortexProg Unit := do
  let perMicrosecond := instructionsPerMicrosecond board.systemCoreClock
  rhsAssert (microseconds < uint32Max / perMicrosecond)
  let start ← op .cyccnt
  let timeTicks := perMicrosecond * microseconds
  iter (fun _ : Unit => delayTurn start timeTicks) bound ()

/-- `rhs_delay_us`. -/
def rhsDelayUs (board : Board) (bound : ℕ) (microseconds : UInt32) : CortexProg Unit :=
  rhsHalCortexDelayUs board bound microseconds

/-- `rhs_delay_ms`, where a tick is a millisecond. -/
def rhsDelayMs (board : Board) (bound : ℕ) (milliseconds : UInt32) : CortexProg Unit :=
  if !board.isIsr && board.scheduler = .running then
    let milliseconds :=
      if 0 < milliseconds ∧ milliseconds < portMaxDelay - 1 then milliseconds + 1
      else milliseconds
    op (CortexOp.delayTick milliseconds)
  else if 0 < milliseconds then rhsDelayUs board bound (milliseconds * 1000)
  else return ()

/-! ## The two products -/

/-- The cycles that so many milliseconds are. -/
def cycles (board : Board) (milliseconds : UInt32) : ℕ :=
  milliseconds.toNat * 1000 * (board.systemCoreClock.toNat / 1000000)

/-- The assertion of a timer or a delay of so many milliseconds holds. -/
def Admitted (board : Board) (milliseconds : UInt32) : Prop :=
  milliseconds * 1000 < uint32Max / instructionsPerMicrosecond board.systemCoreClock

instance (board : Board) (milliseconds : UInt32) : Decidable (Admitted board milliseconds) :=
  inferInstanceAs (Decidable (_ < _))

/-- The first product does not wrap, or what is left of it is not admitted. -/
def Exact (board : Board) (milliseconds : UInt32) : Prop :=
  milliseconds.toNat * 1000 < 2 ^ 32 ∨ ¬ Admitted board milliseconds

instance (board : Board) (milliseconds : UInt32) : Decidable (Exact board milliseconds) :=
  inferInstanceAs (Decidable (_ ∨ _))

variable {board : Board} {milliseconds : UInt32}

/-- A clock below 1 MHz admits nothing. -/
theorem Admitted.pos (h : Admitted board milliseconds) :
    0 < (instructionsPerMicrosecond board.systemCoreClock).toNat := by
  rw [Admitted, UInt32.lt_iff_toNat_lt, UInt32.toNat_div] at h
  by_contra hzero
  rw [Nat.eq_zero_of_not_pos hzero, Nat.div_zero] at h
  omega

/-- A clock that admits anything admits a quarter of a second. -/
theorem Admitted.short {timeout : UInt32} (h : Admitted board timeout)
    (hshort : milliseconds.toNat ≤ 255) : Admitted board milliseconds := by
  have hclock := board.systemCoreClock.toNat_lt
  have hper : (instructionsPerMicrosecond board.systemCoreClock).toNat ≤ 4294 := by
    rw [instructionsPerMicrosecond, UInt32.toNat_div]
    change _ / 1000000 ≤ _
    omega
  have hquotient : (2 ^ 32 - 1) / 4294 ≤
      (2 ^ 32 - 1) / (instructionsPerMicrosecond board.systemCoreClock).toNat :=
    Nat.div_le_div_left hper h.pos
  rw [Admitted, UInt32.lt_iff_toNat_lt, UInt32.toNat_div, UInt32.toNat_mul]
  change milliseconds.toNat * 1000 % 2 ^ 32 < (2 ^ 32 - 1) / _
  rw [Nat.mod_eq_of_lt (by omega)]
  omega

/-- **What is admitted does not wrap again**: the count is right exactly if the first product
did not wrap. -/
theorem count_eq_cycles_iff (h : Admitted board milliseconds) :
    (instructionsPerMicrosecond board.systemCoreClock * (milliseconds * 1000)).toNat =
        cycles board milliseconds ↔
      milliseconds.toNat * 1000 < 2 ^ 32 := by
  have hpos := h.pos
  rw [Admitted, UInt32.lt_iff_toNat_lt, UInt32.toNat_div] at h
  have hper : (instructionsPerMicrosecond board.systemCoreClock).toNat =
      board.systemCoreClock.toNat / 1000000 := UInt32.toNat_div _ _
  have hus : (milliseconds * 1000).toNat = milliseconds.toNat * 1000 % 2 ^ 32 :=
    UInt32.toNat_mul _ _
  have hmax : uint32Max.toNat = 2 ^ 32 - 1 := rfl
  have hfits : (milliseconds * 1000).toNat *
      (instructionsPerMicrosecond board.systemCoreClock).toNat < 2 ^ 32 := by
    have hlt := (Nat.lt_div_iff_mul_lt hpos).mp h
    omega
  rw [UInt32.toNat_mul, Nat.mul_comm, Nat.mod_eq_of_lt hfits, cycles, ← hper,
    Nat.mul_left_inj (Nat.pos_iff_ne_zero.mp hpos), hus]
  exact ⟨fun heq => by omega, Nat.mod_eq_of_lt⟩

/-! ## What is counted -/

/-- If an operation compares the counter with a number of cycles, it is `n`. -/
def Counts {O : Type} (cycleCount : O → Option UInt32) (n : ℕ) (o : O) : Prop :=
  ∀ count ∈ cycleCount o, count.toNat = n

/-- **No other number of cycles counts**: whatever bounds its loops, an assertion of the
program fails, or the counter is compared with `n` only. -/
def CountsExactly {O : Type} {Ans : O → Type} {α : Type} (cycleCount : O → Option UInt32) (n : ℕ)
    (p : ℕ → Prog O Ans α) : Prop :=
  ∀ bound log r, Exec (p bound) log r →
    r = .error .crash ∨ ∀ e ∈ log, Counts cycleCount n e.1

section

variable {O : Type} {Ans : O → Type} {α : Type} {cycleCount : O → Option UInt32} {n : ℕ}
  {p : ℕ → Prog O Ans α}

theorem countsExactly_of_uses (h : ∀ bound, (p bound).Uses (Counts cycleCount n)) :
    CountsExactly cycleCount n p :=
  fun bound _ _ hexec => .inr ((h bound).of_mem hexec)

/-- One comparison with another number, on the way to a result, is enough. -/
theorem not_countsExactly {bound : ℕ} {log : List (Event Ans)} {a : α} {e : Event Ans}
    {count : UInt32} (hexec : Exec (p bound) log (.ok a)) (he : e ∈ log)
    (hcount : count ∈ cycleCount e.1) (hne : count.toNat ≠ n) : ¬ CountsExactly cycleCount n p := by
  intro hexact
  rcases hexact bound log _ hexec with hcrash | hall
  · cases hcrash
  · exact hne (hall e he count hcount)

theorem uses_rhsAssert {allowed : O → Prop} (condition : Bool) :
    (rhsAssert condition : Prog O Ans Unit).Uses allowed := by
  cases condition <;> trivial

/-- Behind an assertion. -/
theorem countsExactly_rhsAssert_iff {condition : Bool} :
    CountsExactly cycleCount n (fun bound => rhsAssert condition >>= fun _ => p bound) ↔
      condition = false ∨ CountsExactly cycleCount n p := by
  cases condition with
  | true => simp [CountsExactly, rhsAssert]
  | false => simp [CountsExactly, rhsAssert]

@[simp] theorem exec_rhsAssert_iff {condition : Bool} {log : List (Event Ans)} {u : Unit} :
    Exec (rhsAssert condition : Prog O Ans Unit) log (.ok u) ↔ condition = true ∧ log = [] := by
  cases condition <;> simp [rhsAssert]

end

/-! ## Timers -/

/-- A timer is got only if it is admitted, and its value is the second product. -/
theorem exec_rhsHalCortexTimerGet_iff {log : List (Event CortexOp.Ans)}
    {timer : RHSHalCortexTimer} :
    Exec (rhsHalCortexTimerGet board (milliseconds * 1000)) log (.ok timer) ↔
      Admitted board milliseconds ∧ log = [⟨.cyccnt, timer.start⟩] ∧
        timer.value =
          instructionsPerMicrosecond board.systemCoreClock * (milliseconds * 1000) := by
  simp only [rhsHalCortexTimerGet, exec_bind_ok_iff, exec_rhsAssert_iff, decide_eq_true_eq]
  constructor
  · rintro ⟨_, _, l, ⟨hadmitted, rfl⟩, ⟨start, l₁, _, hread, hret, rfl⟩, rfl⟩
    obtain ⟨rfl, ht⟩ := exec_ret_iff.mp hret
    obtain rfl := Except.ok.inj ht
    refine ⟨hadmitted, ?_, rfl⟩
    rw [List.append_nil]
    exact exec_op_iff.mp hread
  · rintro ⟨hadmitted, rfl, hvalue⟩
    refine ⟨(), [], _, ⟨hadmitted, rfl⟩, ⟨timer.start, _, [], exec_op_iff.mpr rfl, ?_, rfl⟩, rfl⟩
    rw [← hvalue]
    exact .ret timer

/-- Getting a timer compares nothing. -/
theorem uses_rhsHalCortexTimerGet (us : UInt32) (n : ℕ) :
    (rhsHalCortexTimerGet board us).Uses (Counts CortexOp.cycleCount n) := by
  refine Uses.bind (uses_rhsAssert _) fun _ _ _ => ⟨?_, fun _ => uses_ret⟩
  simp [Counts, CortexOp.cycleCount]

/-- A timer that may be got has the right value if its milliseconds are exact. -/
theorem value_eq_cycles {log : List (Event CortexOp.Ans)} {timer : RHSHalCortexTimer}
    (hexact : Exact board milliseconds)
    (h : Exec (rhsHalCortexTimerGet board (milliseconds * 1000)) log (.ok timer)) :
    timer.value.toNat = cycles board milliseconds := by
  obtain ⟨hadmitted, -, hvalue⟩ := exec_rhsHalCortexTimerGet_iff.mp h
  rw [hvalue, count_eq_cycles_iff hadmitted]
  exact hexact.resolve_right (not_not_intro hadmitted)

/-! ## Delays -/

/-- A turn of a delay is its last if the counter has advanced far enough. -/
theorem exec_delayTurn_last (start timeTicks : UInt32) :
    Exec (delayTurn start timeTicks) [⟨.cyccntBefore start timeTicks, false⟩] (.ok (.inr ())) := by
  rw [delayTurn, op_bind]
  exact exec_call_iff.mpr ⟨false, [], rfl, .ret _⟩

/-- Outside of the running kernel, a delay reads the counter until it has advanced as far as
the second product says. -/
theorem uses_rhsDelayMs
    (h : (board.isIsr = false ∧ board.scheduler = .running) ∨ Exact board milliseconds)
    (bound : ℕ) :
    (rhsDelayMs board bound milliseconds).Uses
      (Counts CortexOp.cycleCount (cycles board milliseconds)) := by
  rw [rhsDelayMs]
  split
  · exact ⟨by simp [Counts, CortexOp.cycleCount], fun _ => uses_ret⟩
  rename_i hwithout
  have hexact : Exact board milliseconds := by
    refine h.resolve_left ?_
    rintro ⟨hisr, hstate⟩
    exact hwithout (by simp [hisr, hstate])
  split
  swap
  · exact uses_ret
  refine Uses.bind (uses_rhsAssert _) fun _ _ hassert => ⟨?_, fun start => ?_⟩
  · simp [Counts, CortexOp.cycleCount]
  have hadmitted : Admitted board milliseconds := by
    simpa [Admitted] using (exec_rhsAssert_iff.mp hassert).1
  have hcount := (count_eq_cycles_iff hadmitted).mpr
    (hexact.resolve_right (not_not_intro hadmitted))
  refine uses_iter (fun _ => True) ?_ (fun _ _ _ _ _ => trivial) trivial
  intro _ _
  refine ⟨?_, fun before => ?_⟩
  · simpa [Counts, CortexOp.cycleCount] using hcount
  · cases before <;> exact uses_ret

/-- A delay that is admitted can end with the first turn of its loop. -/
theorem exec_rhsDelayUs (h : Admitted board milliseconds) (bound : ℕ) :
    Exec (rhsDelayUs board (bound + 1) (milliseconds * 1000))
      [⟨.cyccnt, 0⟩, ⟨.cyccntBefore 0 (instructionsPerMicrosecond board.systemCoreClock *
        (milliseconds * 1000)), false⟩] (.ok ()) := by
  rw [rhsDelayUs, rhsHalCortexDelayUs]
  refine exec_bind_ok_iff.mpr ⟨(), [], _, exec_rhsAssert_iff.mpr ⟨?_, rfl⟩, ?_, rfl⟩
  · simpa [Admitted] using h
  · rw [op_bind]
    refine exec_call_iff.mpr ⟨0, _, rfl, ?_⟩
    exact exec_iter_succ_iff.mpr (.inr (.inl ⟨(), exec_delayTurn_last _ _, rfl⟩))

/-- A delay that is admitted can end. -/
theorem exists_rhsDelayMs (h : Admitted board milliseconds) (bound : ℕ) :
    ∃ log, Exec (rhsDelayMs board (bound + 1) milliseconds) log (.ok ()) := by
  rw [rhsDelayMs]
  split
  · exact ⟨_, exec_op_iff.mpr rfl⟩
  split
  · exact ⟨_, exec_rhsDelayUs h bound⟩
  · exact ⟨[], .ret ()⟩

/-- **A delay** takes as many cycles as its milliseconds, or none, exactly if the kernel runs
or the milliseconds are exact. -/
theorem countsExactly_rhsDelayMs_iff :
    CountsExactly CortexOp.cycleCount (cycles board milliseconds)
        (fun bound => rhsDelayMs board bound milliseconds) ↔
      (board.isIsr = false ∧ board.scheduler = .running) ∨ Exact board milliseconds := by
  constructor
  · intro hexact
    by_contra hwraps
    rw [not_or, Exact, not_or, not_not] at hwraps
    obtain ⟨hwithout, hwraps, hadmitted⟩ := hwraps
    have hpos : 0 < milliseconds := by
      rw [UInt32.lt_iff_toNat_lt, UInt32.toNat_zero]
      omega
    have hwithout' : ¬ (!board.isIsr && decide (board.scheduler = .running)) = true := by
      simpa using hwithout
    -- the counter is read, and found to have advanced far enough
    have hexec : Exec (rhsDelayMs board 1 milliseconds)
        [⟨.cyccnt, 0⟩, ⟨.cyccntBefore 0 (instructionsPerMicrosecond board.systemCoreClock *
          (milliseconds * 1000)), false⟩] (.ok ()) := by
      rw [rhsDelayMs, if_neg hwithout', if_pos hpos]
      exact exec_rhsDelayUs hadmitted 0
    refine not_countsExactly (p := fun bound => rhsDelayMs board bound milliseconds) hexec
      (List.mem_cons_of_mem _ List.mem_cons_self) rfl ?_ hexact
    rwa [ne_eq, count_eq_cycles_iff hadmitted]
  · exact fun h => countsExactly_of_uses (uses_rhsDelayMs h)

end RhsCore.Cortex
