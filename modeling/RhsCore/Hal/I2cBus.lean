import RhsCore.Hal.Cortex
import RhsCore.Hal.I2cTransfer

/-!
# I2C transfers, down to the registers

`rhs_hal_i2c_transaction` on the STM32F7 and the STM32G0, and the calls on top of it, with
the timer of the transfer counted in cycles.

## Main definitions

* `BusOp`, `BusProg` — what is done with the counter and the registers, and programs that
  do it.
* `rhsHalI2cTransaction`, `rhsHalI2cIsDeviceReady` — a transaction, and the probe.
* `perform` — how the bus performs the transfers of a driver.
* `countsExactly_iff` — when the timers count what the milliseconds say.
-/

namespace RhsCore.I2cBus

open Prog Cortex
open I2cTransfer (Access IsrFlag)

/-! ## Operations -/

/-- `LL_I2C_MODE_…`. -/
inductive EndSignal
  | softend
  | reload
  | autoend
  deriving DecidableEq, Repr

/-- `LL_I2C_GENERATE_…`. -/
inductive StartSignal
  | startRead
  | startWrite
  | restart7BitRead
  | restart7BitWrite
  | restart10BitRead
  | restart10BitWrite
  | noStartStop
  deriving DecidableEq, Repr

/-- What is done with the counter and the registers. -/
inductive BusOp
  | cortex (o : CortexOp)
  | register (o : Access)
  /-- `LL_I2C_IsActiveFlag_BUSY`. -/
  | isActiveFlagBusy
  /-- `LL_I2C_HandleTransfer` with `LL_I2C_ADDRSLAVE_7BIT`. -/
  | handleTransfer (slaveAddr transferSize : UInt32) (endMode : EndSignal)
      (request : StartSignal)
  deriving DecidableEq, Repr

@[reducible] def BusOp.Ans : BusOp → Type
  | .cortex o => o.Ans
  | .register o => o.Ans
  | .isActiveFlagBusy => Bool
  | .handleTransfer _ _ _ _ => Unit

/-- Programs over the counter and the registers. -/
abbrev BusProg := Prog BusOp BusOp.Ans

/-- The cycles that an operation compares the counter with. -/
def BusOp.cycleCount : BusOp → Option UInt32
  | .cortex o => o.cycleCount
  | .register _ => none
  | .isActiveFlagBusy => none
  | .handleTransfer _ _ _ _ => none

/-- One operation. -/
def bus (o : BusOp) : BusProg o.Ans := .call o .ret

/-- The counter alone. -/
def cortex {α : Type} (p : CortexProg α) : BusProg α := p.interp fun o => bus (.cortex o)

/-- The accesses of a transfer with this timer. -/
def register (timer : RHSHalCortexTimer) : (o : Access) → BusProg o.Ans
  | .timerIsExpired => cortex (rhsHalCortexTimerIsExpired timer)
  | .isActiveFlag flag => bus (.register (.isActiveFlag flag))
  | .isr endMask => bus (.register (.isr endMask))
  | .transmitData8 byte => bus (.register (.transmitData8 byte))
  | .receiveData8 => bus (.register .receiveData8)
  | .nackNextData => bus (.register .nackNextData)
  | .clearFlag flag => bus (.register (.clearFlag flag))

/-! ## A transaction -/

/-- `rhs_hal_i2c_get_start_signal`. -/
def rhsHalI2cGetStartSignal (begins : RHSHalI2cBegin) (tenBitAddress read : Bool) :
    StartSignal :=
  match begins with
  | .restart =>
      if read then if tenBitAddress then .restart10BitRead else .restart7BitRead
      else if tenBitAddress then .restart10BitWrite else .restart7BitWrite
  | .resume => .noStartStop
  | .start => if read then .startRead else .startWrite

/-- `rhs_hal_i2c_get_end_signal`. -/
def rhsHalI2cGetEndSignal : RHSHalI2cEnd → EndSignal
  | .awaitRestart => .softend
  | .pause => .reload
  | .stop => .autoend

/-- `LL_I2C_IsActiveFlag_STOP` and so on. -/
def flag (f : IsrFlag) : BusProg Bool := bus (.register (.isActiveFlag f))

/-- `LL_I2C_ClearFlag_STOP` and `LL_I2C_ClearFlag_NACK`. -/
def clearFlag (f : IsrFlag) : BusProg Unit := bus (.register (.clearFlag f))

/-- A turn of the loop of `rhs_hal_i2c_wait_for_idle`: only a new transaction looks at the
bus. -/
def waitForIdleTurn (begins : RHSHalI2cBegin) (timer : RHSHalCortexTimer) :
    BusProg (Unit ⊕ Bool) := do
  if ← cortex (rhsHalCortexTimerIsExpired timer) then return .inr false
  if begins ≠ .start then return .inr true
  if ← bus .isActiveFlagBusy then return .inl () else return .inr true

/-- `rhs_hal_i2c_wait_for_idle`. -/
def rhsHalI2cWaitForIdle (bound : ℕ) (begins : RHSHalI2cBegin) (timer : RHSHalCortexTimer) :
    BusProg Bool :=
  iter (fun _ : Unit => waitForIdleTurn begins timer) bound ()

/-- `rhs_hal_i2c_transaction`: whether it succeeded, and what was stored at `data`. -/
def rhsHalI2cTransaction (bound : ℕ) (address : UInt16) (tenBit : Bool) (data : ℕ → UInt8)
    (size : UInt32) (begins : RHSHalI2cBegin) (ends : RHSHalI2cEnd) (read : Bool)
    (timer : RHSHalCortexTimer) : BusProg (Bool × List UInt8) := do
  if ← rhsHalI2cWaitForIdle bound begins timer then
    let request := rhsHalI2cGetStartSignal begins tenBit read
    let mode := rhsHalI2cGetEndSignal ends
    bus (.handleTransfer (address.toUInt32 <<< 1) size mode request)
    (I2cTransfer.rhsHalI2cTransfer bound data size.toNat ends read).interp (register timer)
  else return (false, [])

/-- `rhs_hal_i2c_tx_ext` behind its assertion. -/
def txExt (board : Board) (bound : ℕ) (address : UInt16) (tenBit : Bool) (data : List UInt8)
    (begins : RHSHalI2cBegin) (ends : RHSHalI2cEnd) (timeout : UInt32) : BusProg Bool := do
  let timer ← cortex (rhsHalCortexTimerGet board (timeout * 1000))
  let (success, _) ← rhsHalI2cTransaction bound address tenBit (fun i => data.getD i 0)
    (UInt32.ofNat data.length) begins ends false timer
  return success

/-- `rhs_hal_i2c_rx_ext` behind its assertion. -/
def rxExt (board : Board) (bound : ℕ) (address : UInt16) (tenBit : Bool) (size : UInt32)
    (begins : RHSHalI2cBegin) (ends : RHSHalI2cEnd) (timeout : UInt32) :
    BusProg (Bool × List UInt8) := do
  let timer ← cortex (rhsHalCortexTimerGet board (timeout * 1000))
  rhsHalI2cTransaction bound address tenBit (fun _ => 0) size begins ends true timer

/-- How a bus performs transfers, and the delays between them. -/
def perform (board : Board) (bound : ℕ) : (o : I2cOp) → BusProg o.Ans
  | .txExt address tenBit data begins ends timeout =>
      txExt board bound address tenBit data begins ends timeout
  | .rxExt address tenBit size begins ends timeout =>
      rxExt board bound address tenBit size begins ends timeout
  | .delayMs ms => cortex (Cortex.rhsDelayMs board bound ms)

/-! ## The probe -/

/-- A turn of the loop that waits for an answer. -/
def answeredTurn (timer : RHSHalCortexTimer) : BusProg (Unit ⊕ Bool) := do
  let tmp1 ← flag .stop
  let tmp2 ← flag .nack
  if tmp1 || tmp2 then return .inr true
  if ← cortex (rhsHalCortexTimerIsExpired timer) then return .inr false
  return .inl ()

/-- A turn of the loop that waits for the stop. -/
def stoppedTurn (timer : RHSHalCortexTimer) : BusProg (Unit ⊕ Bool) := do
  if ← flag .stop then return .inr true
  if ← cortex (rhsHalCortexTimerIsExpired timer) then return .inr false
  return .inl ()

/-- What the probe does with an answer. -/
def answer (bound : ℕ) (timer : RHSHalCortexTimer) : BusProg Bool := do
  let nack ← flag .nack
  if !nack then
    if !(← iter (fun _ : Unit => stoppedTurn timer) bound ()) then return false
    clearFlag .stop
    return true
  else
    if !(← iter (fun _ : Unit => stoppedTurn timer) bound ()) then return false
    clearFlag .stop
    clearFlag .nack
    return false

/-- The probe, with its timer. -/
def probe (bound : ℕ) (i2cAddr : UInt8) (timer : RHSHalCortexTimer) : BusProg Bool := do
  if !(← rhsHalI2cWaitForIdle bound .start timer) then return false
  bus (.handleTransfer (i2cAddr.toUInt32 <<< 1) 0 .autoend .startWrite)
  if !(← iter (fun _ : Unit => answeredTurn timer) bound ()) then return false
  answer bound timer

/-- `rhs_hal_i2c_is_device_ready`; a missing handle is `NULL`. -/
def rhsHalI2cIsDeviceReady (board : Board) (bound : ℕ) (handle : Option RHSHalI2cBusHandle)
    (i2cAddr : UInt8) (timeout : UInt32) : BusProg Bool := do
  Cortex.rhsAssert handle.isSome
  Cortex.rhsAssert (handle.any fun handle => handle.current)
  Cortex.rhsAssert (0 < timeout)
  let timer ← cortex (rhsHalCortexTimerGet board (timeout * 1000))
  probe bound i2cAddr timer

/-! ## What a transaction does -/

variable {board : Board} {timer : RHSHalCortexTimer} {allowed : BusOp → Prop} {n : ℕ}

/-- All but starting a transfer is allowed to a transaction with this timer. -/
structure Permits (allowed : BusOp → Prop) (timer : RHSHalCortexTimer) : Prop where
  isExpired : allowed (.cortex (.cyccntBefore timer.start timer.value))
  register : ∀ o, allowed (.register o)
  busy : allowed .isActiveFlagBusy

theorem uses_bus {o : BusOp} (h : allowed o) : (bus o).Uses allowed := ⟨h, fun _ => uses_ret⟩

/-- What is allowed to the counter alone. -/
theorem uses_cortex {α : Type} {p : CortexProg α} (h : p.Uses fun o => allowed (.cortex o)) :
    (cortex p).Uses allowed := h.interp fun _ ho => uses_bus ho

theorem Permits.uses_isExpired (h : Permits allowed timer) :
    (cortex (rhsHalCortexTimerIsExpired timer)).Uses allowed :=
  uses_cortex ⟨h.isExpired, fun _ => uses_ret⟩

theorem Permits.uses_register (h : Permits allowed timer) (o : Access) :
    (I2cBus.register timer o).Uses allowed := by
  cases o with
  | timerIsExpired => exact h.uses_isExpired
  | isActiveFlag flag => exact uses_bus (h.register _)
  | isr endMask => exact uses_bus (h.register _)
  | transmitData8 byte => exact uses_bus (h.register _)
  | receiveData8 => exact uses_bus (h.register _)
  | nackNextData => exact uses_bus (h.register _)
  | clearFlag flag => exact uses_bus (h.register _)

theorem Permits.uses_rhsHalI2cWaitForIdle (h : Permits allowed timer) (bound : ℕ)
    (begins : RHSHalI2cBegin) : (rhsHalI2cWaitForIdle bound begins timer).Uses allowed := by
  refine uses_iter (fun _ => True) ?_ (fun _ _ _ _ _ => trivial) trivial
  intro _ _
  refine Uses.bind h.uses_isExpired fun _ expired _ => ?_
  cases expired with
  | true => exact uses_ret
  | false =>
      simp only [Bool.false_eq_true, if_false]
      split
      · exact uses_ret
      · refine Uses.bind (uses_bus h.busy) fun _ busy _ => ?_
        cases busy <;> exact uses_ret

/-- **A transaction** starts one transfer, if it starts one, and that of its own size. -/
theorem Permits.uses_rhsHalI2cTransaction (h : Permits allowed timer) (bound : ℕ)
    {address : UInt16} {tenBit : Bool} (data : ℕ → UInt8) {size : UInt32}
    {begins : RHSHalI2cBegin} {ends : RHSHalI2cEnd} {read : Bool}
    (hstart : allowed (.handleTransfer (address.toUInt32 <<< 1) size (rhsHalI2cGetEndSignal ends)
      (rhsHalI2cGetStartSignal begins tenBit read))) :
    (rhsHalI2cTransaction bound address tenBit data size begins ends read timer).Uses allowed := by
  refine Uses.bind (h.uses_rhsHalI2cWaitForIdle bound begins) fun _ idle _ => ?_
  cases idle with
  | false => exact uses_ret
  | true =>
      refine Uses.bind (uses_bus hstart) fun _ _ _ => ?_
      exact (uses_true _).interp fun o _ => h.uses_register o

theorem Permits.uses_stopped (h : Permits allowed timer) (bound : ℕ) :
    (iter (fun _ : Unit => stoppedTurn timer) bound ()).Uses allowed := by
  refine uses_iter (fun _ => True) ?_ (fun _ _ _ _ _ => trivial) trivial
  intro _ _
  refine Uses.bind (uses_bus (h.register _)) fun _ stop _ => ?_
  cases stop with
  | true => exact uses_ret
  | false =>
      refine Uses.bind h.uses_isExpired fun _ expired _ => ?_
      cases expired <;> exact uses_ret

theorem Permits.uses_answered (h : Permits allowed timer) (bound : ℕ) :
    (iter (fun _ : Unit => answeredTurn timer) bound ()).Uses allowed := by
  refine uses_iter (fun _ => True) ?_ (fun _ _ _ _ _ => trivial) trivial
  intro _ _
  refine Uses.bind (uses_bus (h.register _)) fun _ stop _ => ?_
  refine Uses.bind (uses_bus (h.register _)) fun _ nack _ => ?_
  split
  · exact uses_ret
  · refine Uses.bind h.uses_isExpired fun _ expired _ => ?_
    cases expired <;> exact uses_ret

theorem Permits.uses_answer (h : Permits allowed timer) (bound : ℕ) :
    (answer bound timer).Uses allowed := by
  refine Uses.bind (uses_bus (h.register _)) fun _ nack _ => ?_
  split
  · refine Uses.bind (h.uses_stopped bound) fun _ stopped _ => ?_
    cases stopped with
    | false => exact uses_ret
    | true => exact Uses.bind (uses_bus (h.register _)) fun _ _ _ => uses_ret
  · refine Uses.bind (h.uses_stopped bound) fun _ stopped _ => ?_
    cases stopped with
    | false => exact uses_ret
    | true =>
        refine Uses.bind (uses_bus (h.register _)) fun _ _ _ => ?_
        exact Uses.bind (uses_bus (h.register _)) fun _ _ _ => uses_ret

/-- **The probe** starts a transfer of no bytes. -/
theorem Permits.uses_probe (h : Permits allowed timer) (bound : ℕ) {i2cAddr : UInt8}
    (hstart : allowed (.handleTransfer (i2cAddr.toUInt32 <<< 1) 0 .autoend .startWrite)) :
    (probe bound i2cAddr timer).Uses allowed := by
  refine Uses.bind (h.uses_rhsHalI2cWaitForIdle bound .start) fun _ idle _ => ?_
  cases idle with
  | false => exact uses_ret
  | true =>
      refine Uses.bind (uses_bus hstart) fun _ _ _ => ?_
      refine Uses.bind (h.uses_answered bound) fun _ answered _ => ?_
      cases answered with
      | false => exact uses_ret
      | true => exact h.uses_answer bound

/-- Only the counter is compared, and with the value of the timer. -/
theorem permits_counts (h : timer.value.toNat = n) :
    Permits (Counts BusOp.cycleCount n) timer where
  isExpired := by simpa [Counts, BusOp.cycleCount, CortexOp.cycleCount] using h
  register := by simp [Counts, BusOp.cycleCount]
  busy := by simp [Counts, BusOp.cycleCount]

/-- Starting a transfer compares nothing. -/
theorem counts_handleTransfer (slaveAddr transferSize : UInt32) (endMode : EndSignal)
    (request : StartSignal) :
    Counts BusOp.cycleCount n (.handleTransfer slaveAddr transferSize endMode request) := by
  simp [Counts, BusOp.cycleCount]

/-! ## The calls with a timeout -/

/-- What the counter alone does, it does on the bus. -/
theorem exec_cortex {α : Type} {p : CortexProg α} {log : List (Event CortexOp.Ans)}
    {r : Except Halt α} (h : Exec p log r) :
    Exec (cortex p) (log.map fun e => ⟨.cortex e.1, e.2⟩) r := by
  induction h with
  | ret a => exact .ret a
  | halt e => exact .halt e
  | @call o k _ _ a _ ih =>
      change Exec (.call (.cortex o) fun a => cortex (k a)) _ _
      exact exec_call_iff.mpr ⟨a, _, rfl, ih⟩

/-- A timer that is admitted can be got. -/
theorem exec_timer {timeout : UInt32} (h : Admitted board timeout) (start : UInt32) :
    Exec (cortex (rhsHalCortexTimerGet board (timeout * 1000))) [⟨.cortex .cyccnt, start⟩]
      (.ok ⟨start, instructionsPerMicrosecond board.systemCoreClock * (timeout * 1000)⟩) := by
  have hexec : Exec (rhsHalCortexTimerGet board (timeout * 1000)) [⟨.cyccnt, start⟩]
      (.ok ⟨start, instructionsPerMicrosecond board.systemCoreClock * (timeout * 1000)⟩) :=
    exec_rhsHalCortexTimerGet_iff.mpr ⟨h, rfl, rfl⟩
  exact exec_cortex hexec

/-- A timer that is expired at once. -/
theorem exec_isExpired (timer : RHSHalCortexTimer) :
    Exec (cortex (rhsHalCortexTimerIsExpired timer))
      [⟨.cortex (.cyccntBefore timer.start timer.value), false⟩] (.ok true) := by
  have hexec : Exec (rhsHalCortexTimerIsExpired timer)
      [⟨.cyccntBefore timer.start timer.value, false⟩] (.ok true) := by
    rw [rhsHalCortexTimerIsExpired, op_bind]
    exact exec_call_iff.mpr ⟨false, [], rfl, .ret _⟩
  exact exec_cortex hexec

/-- With such a timer the bus is not waited for. -/
theorem exec_rhsHalI2cWaitForIdle_expired (begins : RHSHalI2cBegin) (timer : RHSHalCortexTimer) :
    Exec (rhsHalI2cWaitForIdle 1 begins timer)
      [⟨.cortex (.cyccntBefore timer.start timer.value), false⟩] (.ok false) := by
  refine exec_iter_succ_iff.mpr (.inr (.inl ⟨false, ?_, rfl⟩))
  exact exec_bind_ok_iff.mpr ⟨true, _, [], exec_isExpired timer, .ret _, rfl⟩

/-- **A call with a timeout** counts what its milliseconds say exactly if they are exact. -/
theorem countsExactly_timer_iff {α : Type} {timeout : UInt32}
    {f : ℕ → RHSHalCortexTimer → BusProg α}
    (huses : ∀ bound timer n, timer.value.toNat = n →
      (f bound timer).Uses (Counts BusOp.cycleCount n))
    (hexpired : ∀ timer, ∃ a, Exec (f 1 timer)
      [⟨.cortex (.cyccntBefore timer.start timer.value), false⟩] (.ok a)) :
    CountsExactly BusOp.cycleCount (cycles board timeout)
        (fun bound => cortex (rhsHalCortexTimerGet board (timeout * 1000)) >>= f bound) ↔
      Exact board timeout := by
  constructor
  · intro hexact
    by_contra hwraps
    rw [Exact, not_or, not_not] at hwraps
    obtain ⟨hwraps, hadmitted⟩ := hwraps
    obtain ⟨a, ha⟩ := hexpired
      ⟨0, instructionsPerMicrosecond board.systemCoreClock * (timeout * 1000)⟩
    have hexec := exec_bind_ok_iff.mpr ⟨_, _, _, exec_timer hadmitted 0, ha, rfl⟩
    refine not_countsExactly
      (p := fun bound => cortex (rhsHalCortexTimerGet board (timeout * 1000)) >>= f bound) hexec
      (List.mem_append_right _ List.mem_cons_self) rfl ?_ hexact
    rwa [ne_eq, count_eq_cycles_iff hadmitted]
  · intro hexact
    refine countsExactly_of_uses fun bound => ?_
    refine Uses.bind (uses_cortex (uses_rhsHalCortexTimerGet _ _)) fun log timer htimer => ?_
    obtain ⟨log', hget, -⟩ := exec_interp_ok_iff.mp htimer
    exact huses bound timer _ (value_eq_cycles hexact hget)

/-- `rhs_hal_i2c_tx_ext`, performed. -/
theorem interp_rhsHalI2cTxExt (board : Board) (bound : ℕ) (handle : RHSHalI2cBusHandle)
    (address : UInt16) (tenBit : Bool) (data : List UInt8) (begins : RHSHalI2cBegin)
    (ends : RHSHalI2cEnd) (timeout : UInt32) :
    (rhsHalI2cTxExt handle address tenBit data begins ends timeout).interp (perform board bound) =
      Cortex.rhsAssert handle.current >>= fun _ =>
        txExt board bound address tenBit data begins ends timeout := by
  rw [rhsHalI2cTxExt, interp_bind, RhsCore.rhsAssert, Cortex.rhsAssert]
  cases handle.current with
  | true => exact bind_ret _
  | false => rfl

/-- `rhs_hal_i2c_rx_ext`, performed. -/
theorem interp_rhsHalI2cRxExt (board : Board) (bound : ℕ) (handle : RHSHalI2cBusHandle)
    (address : UInt16) (tenBit : Bool) (size : UInt32) (begins : RHSHalI2cBegin)
    (ends : RHSHalI2cEnd) (timeout : UInt32) :
    (rhsHalI2cRxExt handle address tenBit size begins ends timeout).interp (perform board bound) =
      Cortex.rhsAssert handle.current >>= fun _ =>
        rxExt board bound address tenBit size begins ends timeout := by
  rw [rhsHalI2cRxExt, interp_bind, RhsCore.rhsAssert, Cortex.rhsAssert]
  cases handle.current with
  | true => exact bind_ret _
  | false => rfl

section

variable {handle : RHSHalI2cBusHandle} {address : UInt16} {tenBit : Bool} {data : List UInt8}
  {size timeout : UInt32} {begins : RHSHalI2cBegin} {ends : RHSHalI2cEnd}

theorem countsExactly_txExt_iff :
    CountsExactly BusOp.cycleCount (cycles board timeout) (fun bound =>
        (rhsHalI2cTxExt handle address tenBit data begins ends timeout).interp
          (perform board bound)) ↔
      handle.current = false ∨ Exact board timeout := by
  simp only [interp_rhsHalI2cTxExt, countsExactly_rhsAssert_iff]
  apply or_congr_right
  apply countsExactly_timer_iff
  · intro bound timer n h
    refine Uses.bind ?_ fun _ _ _ => uses_ret
    exact (permits_counts h).uses_rhsHalI2cTransaction bound _ (counts_handleTransfer _ _ _ _)
  · intro timer
    refine ⟨false, exec_bind_ok_iff.mpr
      ⟨(false, []), _, [], ?_, .ret _, (List.append_nil _).symm⟩⟩
    exact exec_bind_ok_iff.mpr
      ⟨false, _, [], exec_rhsHalI2cWaitForIdle_expired begins timer, .ret _, rfl⟩

theorem countsExactly_rxExt_iff :
    CountsExactly BusOp.cycleCount (cycles board timeout) (fun bound =>
        (rhsHalI2cRxExt handle address tenBit size begins ends timeout).interp
          (perform board bound)) ↔
      handle.current = false ∨ Exact board timeout := by
  simp only [interp_rhsHalI2cRxExt, countsExactly_rhsAssert_iff]
  apply or_congr_right
  apply countsExactly_timer_iff
  · intro bound timer n h
    exact (permits_counts h).uses_rhsHalI2cTransaction bound _ (counts_handleTransfer _ _ _ _)
  · intro timer
    refine ⟨(false, []), ?_⟩
    exact exec_bind_ok_iff.mpr
      ⟨false, _, [], exec_rhsHalI2cWaitForIdle_expired begins timer, .ret _, rfl⟩

theorem countsExactly_isDeviceReady_iff {handle : Option RHSHalI2cBusHandle} {i2cAddr : UInt8} :
    CountsExactly BusOp.cycleCount (cycles board timeout) (fun bound =>
        rhsHalI2cIsDeviceReady board bound handle i2cAddr timeout) ↔
      (handle.any fun handle => handle.current) = false ∨ Exact board timeout := by
  have htimer : CountsExactly BusOp.cycleCount (cycles board timeout) (fun bound =>
      cortex (rhsHalCortexTimerGet board (timeout * 1000)) >>= probe bound i2cAddr) ↔
        Exact board timeout := by
    apply countsExactly_timer_iff
    · intro bound timer n h
      exact (permits_counts h).uses_probe bound (counts_handleTransfer _ _ _ _)
    · intro timer
      refine ⟨false, ?_⟩
      exact exec_bind_ok_iff.mpr
        ⟨false, _, [], exec_rhsHalI2cWaitForIdle_expired .start timer, .ret _, rfl⟩
  -- a timeout of zero is refused, and is exact
  have hzero : ¬ 0 < timeout → Exact board timeout := by
    intro h
    left
    rw [UInt32.lt_iff_toNat_lt, UInt32.toNat_zero] at h
    omega
  simp only [rhsHalI2cIsDeviceReady, countsExactly_rhsAssert_iff, htimer, decide_eq_false_iff_not]
  cases handle with
  | none => simp
  | some handle =>
      simp only [Option.isSome_some, Bool.true_eq_false, false_or, Option.any_some]
      apply or_congr_right
      exact ⟨fun h => h.elim hzero id, .inr⟩

end

/-- **Every count is what the milliseconds say**, unless an assertion fails, exactly if the
product with 1000 does not wrap, or what is left of it is refused as well. -/
theorem countsExactly_iff (board : Board) (handle : RHSHalI2cBusHandle) (address : UInt16)
    (tenBit : Bool) (data : List UInt8) (size : UInt32) (begins : RHSHalI2cBegin)
    (ends : RHSHalI2cEnd) (probed : Option RHSHalI2cBusHandle) (i2cAddr : UInt8)
    (milliseconds : UInt32) :
    (CountsExactly BusOp.cycleCount (cycles board milliseconds) (fun bound =>
        (rhsHalI2cTxExt handle address tenBit data begins ends milliseconds).interp
          (perform board bound)) ↔
      handle.current = false ∨ Exact board milliseconds) ∧
    (CountsExactly BusOp.cycleCount (cycles board milliseconds) (fun bound =>
        (rhsHalI2cRxExt handle address tenBit size begins ends milliseconds).interp
          (perform board bound)) ↔
      handle.current = false ∨ Exact board milliseconds) ∧
    (CountsExactly BusOp.cycleCount (cycles board milliseconds) (fun bound =>
        rhsHalI2cIsDeviceReady board bound probed i2cAddr milliseconds) ↔
      (probed.any fun handle => handle.current) = false ∨ Exact board milliseconds) ∧
    (CountsExactly CortexOp.cycleCount (cycles board milliseconds) (fun bound =>
        Cortex.rhsDelayMs board bound milliseconds) ↔
      (board.isIsr = false ∧ board.scheduler = .running) ∨ Exact board milliseconds) :=
  ⟨countsExactly_txExt_iff, countsExactly_rxExt_iff, countsExactly_isDeviceReady_iff,
    countsExactly_rhsDelayMs_iff⟩

/-- A board at 216 MHz, before the kernel runs. -/
def stm32F765 : Board := { systemCoreClock := 216000000, isIsr := false, scheduler := .notStarted }

/-- 4294968 ms are 704 µs: more than an hour is less than a millisecond. -/
theorem timeout_wraps :
    ¬ CountsExactly BusOp.cycleCount (cycles stm32F765 4294968) (fun bound =>
        (rhsHalI2cTxExt ⟨true⟩ 0x50 false [0] .start .stop 4294968).interp
          (perform stm32F765 bound)) ∧
    ¬ CountsExactly CortexOp.cycleCount (cycles stm32F765 4294968) (fun bound =>
        Cortex.rhsDelayMs stm32F765 bound 4294968) := by
  constructor
  · rw [countsExactly_txExt_iff]
    decide
  · rw [countsExactly_rhsDelayMs_iff]
    decide

end RhsCore.I2cBus
