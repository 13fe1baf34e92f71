import RhsCore.Lib.Program
import Mathlib.Data.Nat.Notation

/-!
# I2C transfers

`hal/rhs_hal_i2c`, from `rhs_hal_i2c_tx_ext` and `rhs_hal_i2c_rx_ext` upwards: these two
are the operations, and whether a transfer succeeds is the bus's answer.

A transfer says how it begins and how it ends, and the header says what may follow what.

## Main definitions

* `I2cOp`, `I2c` — transfers, and programs that perform them.
* `rhsHalI2cTrx`, `rhsHalI2cWriteMem` — the calls made of two transfers.
* `Transfer`, `transfers` — what of a log the chaining rules are about.
* `Obeys` — the chaining rules.
-/

namespace RhsCore

/-- `RHSHalI2cBegin`. -/
inductive RHSHalI2cBegin
  | start
  | restart
  | resume
  deriving DecidableEq, Repr

/-- `RHSHalI2cEnd`. -/
inductive RHSHalI2cEnd
  | stop
  | awaitRestart
  | pause
  deriving DecidableEq, Repr

/-- A transfer, or a delay between two. -/
inductive I2cOp
  | txExt (address : UInt16) (tenBit : Bool) (data : List UInt8) (begins : RHSHalI2cBegin)
      (ends : RHSHalI2cEnd) (timeout : UInt32)
  | rxExt (address : UInt16) (tenBit : Bool) (size : UInt32) (begins : RHSHalI2cBegin)
      (ends : RHSHalI2cEnd) (timeout : UInt32)
  | delayMs (ms : UInt32)
  deriving DecidableEq, Repr

/-- Whether a transfer succeeded, and the bytes received. -/
def I2cOp.Ans : I2cOp → Type
  | .txExt .. => Bool
  | .rxExt .. => Bool × List UInt8
  | .delayMs _ => Unit

/-- Programs over I2C transfers. -/
abbrev I2c (α : Type) := Prog I2cOp I2cOp.Ans α

/-- `RHSHalI2cBusHandle`: whether it is its bus's current handle. -/
structure RHSHalI2cBusHandle where
  current : Bool
  deriving DecidableEq, Repr

/-- `rhs_assert`. -/
def rhsAssert (condition : Bool) : I2c Unit :=
  if condition then .ret () else .halt .crash

/-- `rhs_hal_i2c_tx_ext`. -/
def rhsHalI2cTxExt (handle : RHSHalI2cBusHandle) (address : UInt16) (tenBit : Bool)
    (data : List UInt8) (begins : RHSHalI2cBegin) (ends : RHSHalI2cEnd) (timeout : UInt32) :
    I2c Bool := do
  rhsAssert handle.current
  .call (.txExt address tenBit data begins ends timeout) fun success => .ret success

/-- `rhs_hal_i2c_rx_ext`. -/
def rhsHalI2cRxExt (handle : RHSHalI2cBusHandle) (address : UInt16) (tenBit : Bool)
    (size : UInt32) (begins : RHSHalI2cBegin) (ends : RHSHalI2cEnd) (timeout : UInt32) :
    I2c (Bool × List UInt8) := do
  rhsAssert handle.current
  .call (.rxExt address tenBit size begins ends timeout) fun received => .ret received

/-- `rhs_delay_ms`. -/
def rhsDelayMs (ms : UInt32) : I2c Unit := .call (.delayMs ms) fun _ => .ret ()

@[simp] theorem exec_rhsDelayMs_iff {ms : UInt32} {log : List (Event I2cOp.Ans)} {u : Unit} :
    Prog.Exec (rhsDelayMs ms) log (.ok u) ↔ log = [⟨.delayMs ms, ()⟩] := by
  simp only [rhsDelayMs, Prog.exec_call_iff, Prog.exec_ret_iff]
  constructor
  · rintro ⟨a, l, rfl, rfl, -⟩
    rfl
  · rintro rfl
    exact ⟨(), [], rfl, rfl, trivial⟩

@[simp] theorem exec_rhsAssert_iff {condition : Bool} {log : List (Event I2cOp.Ans)} {u : Unit} :
    Prog.Exec (rhsAssert condition) log (.ok u) ↔ condition = true ∧ log = [] := by
  cases condition <;> simp [rhsAssert]

theorem exec_rhsHalI2cTxExt_iff {handle : RHSHalI2cBusHandle} {address : UInt16}
    {tenBit : Bool} {data : List UInt8} {begins : RHSHalI2cBegin} {ends : RHSHalI2cEnd}
    {timeout : UInt32} {log : List (Event I2cOp.Ans)} {success : Bool} :
    Prog.Exec (rhsHalI2cTxExt handle address tenBit data begins ends timeout) log (.ok success) ↔
      handle.current = true ∧
        log = [⟨.txExt address tenBit data begins ends timeout, success⟩] := by
  simp only [rhsHalI2cTxExt, Prog.exec_bind_ok_iff, exec_rhsAssert_iff, Prog.exec_call_iff]
  constructor
  · rintro ⟨u, l₁, l₂, ⟨hcurrent, rfl⟩, ⟨a, l, rfl, hret⟩, rfl⟩
    cases hret
    exact ⟨hcurrent, rfl⟩
  · rintro ⟨hcurrent, rfl⟩
    exact ⟨(), [], _, ⟨hcurrent, rfl⟩, ⟨success, [], rfl, .ret success⟩, rfl⟩

/-- On an acquired handle a transfer returns. -/
theorem returns_rhsHalI2cTxExt {handle : RHSHalI2cBusHandle} (h : handle.current = true)
    (address : UInt16) (tenBit : Bool) (data : List UInt8) (begins : RHSHalI2cBegin)
    (ends : RHSHalI2cEnd) (timeout : UInt32) :
    (rhsHalI2cTxExt handle address tenBit data begins ends timeout).Returns := by
  rw [rhsHalI2cTxExt, rhsAssert, if_pos h]
  exact Prog.returns_call_iff.mpr fun success => Prog.returns_ret

theorem exec_rhsHalI2cRxExt_iff {handle : RHSHalI2cBusHandle} {address : UInt16}
    {tenBit : Bool} {size : UInt32} {begins : RHSHalI2cBegin} {ends : RHSHalI2cEnd}
    {timeout : UInt32} {log : List (Event I2cOp.Ans)} {r : Bool × List UInt8} :
    Prog.Exec (rhsHalI2cRxExt handle address tenBit size begins ends timeout) log (.ok r) ↔
      handle.current = true ∧
        log = [⟨.rxExt address tenBit size begins ends timeout, r⟩] := by
  simp only [rhsHalI2cRxExt, Prog.exec_bind_ok_iff, exec_rhsAssert_iff, Prog.exec_call_iff]
  constructor
  · rintro ⟨u, l₁, l₂, ⟨hcurrent, rfl⟩, ⟨a, l, rfl, hret⟩, rfl⟩
    cases hret
    exact ⟨hcurrent, rfl⟩
  · rintro ⟨hcurrent, rfl⟩
    exact ⟨(), [], _, ⟨hcurrent, rfl⟩, ⟨r, [], rfl, .ret r⟩, rfl⟩

/-- `rhs_hal_i2c_trx`: what was received is returned also when the first transfer failed. -/
def rhsHalI2cTrx (handle : RHSHalI2cBusHandle) (address : UInt8) (txData : List UInt8)
    (rxSize : UInt32) (timeout : UInt32) : I2c (Bool × List UInt8) := do
  let tx ← rhsHalI2cTxExt handle address.toUInt16 false txData .start .stop timeout
  let (rx, rxData) ← rhsHalI2cRxExt handle address.toUInt16 false rxSize .start .stop timeout
  pure (tx && rx, rxData)

/-- `rhs_hal_i2c_write_mem`. -/
def rhsHalI2cWriteMem (handle : RHSHalI2cBusHandle) (i2cAddr memAddr : UInt8)
    (data : List UInt8) (timeout : UInt32) : I2c Bool := do
  rhsAssert handle.current
  rhsAssert (0 < timeout)
  let tx1 ← rhsHalI2cTxExt handle i2cAddr.toUInt16 false [memAddr] .start .pause timeout
  let tx2 ← rhsHalI2cTxExt handle i2cAddr.toUInt16 false data .resume .stop timeout
  pure (tx1 && tx2)

theorem exec_rhsHalI2cTrx_iff {handle : RHSHalI2cBusHandle} {address : UInt8}
    {txData : List UInt8} {rxSize timeout : UInt32} {log : List (Event I2cOp.Ans)}
    {r : Bool × List UInt8} :
    Prog.Exec (rhsHalI2cTrx handle address txData rxSize timeout) log (.ok r) ↔
      handle.current = true ∧ ∃ tx rx, r = (tx && rx, r.2) ∧
        log = [⟨.txExt address.toUInt16 false txData .start .stop timeout, tx⟩,
          ⟨.rxExt address.toUInt16 false rxSize .start .stop timeout, (rx, r.2)⟩] := by
  simp only [rhsHalI2cTrx, Prog.exec_bind_ok_iff, exec_rhsHalI2cTxExt_iff,
    exec_rhsHalI2cRxExt_iff, Prog.pure_eq, Prog.exec_ret_iff]
  constructor
  · rintro ⟨tx, l₁, l₂, ⟨hcurrent, rfl⟩, ⟨⟨rx, bytes⟩, l₃, l₄, ⟨-, rfl⟩, ⟨rfl, hr⟩, rfl⟩, rfl⟩
    cases hr
    exact ⟨hcurrent, tx, rx, rfl, rfl⟩
  · rintro ⟨hcurrent, tx, rx, hr, rfl⟩
    refine ⟨tx, _, _, ⟨hcurrent, rfl⟩, ⟨(rx, r.2), _, [], ⟨hcurrent, rfl⟩, ⟨rfl, ?_⟩, rfl⟩, rfl⟩
    rw [← hr]

theorem exec_rhsHalI2cWriteMem_iff {handle : RHSHalI2cBusHandle} {i2cAddr memAddr : UInt8}
    {data : List UInt8} {timeout : UInt32} {log : List (Event I2cOp.Ans)} {success : Bool} :
    Prog.Exec (rhsHalI2cWriteMem handle i2cAddr memAddr data timeout) log (.ok success) ↔
      handle.current = true ∧ 0 < timeout ∧ ∃ tx1 tx2, success = (tx1 && tx2) ∧
        log = [⟨.txExt i2cAddr.toUInt16 false [memAddr] .start .pause timeout, tx1⟩,
          ⟨.txExt i2cAddr.toUInt16 false data .resume .stop timeout, tx2⟩] := by
  simp only [rhsHalI2cWriteMem, Prog.exec_bind_ok_iff, exec_rhsHalI2cTxExt_iff,
    exec_rhsAssert_iff, Prog.pure_eq, Prog.exec_ret_iff, decide_eq_true_eq]
  constructor
  · rintro ⟨u, l₁, l₂, ⟨hcurrent, rfl⟩, ⟨u', l₃, l₄, ⟨htimeout, rfl⟩, ⟨tx1, l₅, l₆, ⟨-, rfl⟩,
      ⟨tx2, l₇, l₈, ⟨-, rfl⟩, ⟨rfl, hr⟩, rfl⟩, rfl⟩, rfl⟩, rfl⟩
    exact ⟨hcurrent, htimeout, tx1, tx2, Except.ok.inj hr, rfl⟩
  · rintro ⟨hcurrent, htimeout, tx1, tx2, rfl, rfl⟩
    exact ⟨(), [], _, ⟨hcurrent, rfl⟩, ⟨(), [], _, ⟨htimeout, rfl⟩, ⟨tx1, _, _, ⟨hcurrent, rfl⟩,
      ⟨tx2, _, [], ⟨hcurrent, rfl⟩, ⟨rfl, rfl⟩, rfl⟩, rfl⟩, rfl⟩, rfl⟩

/-! ## Chaining -/

/-- A transfer as the chaining rules see it. -/
structure Transfer where
  begins : RHSHalI2cBegin
  ends : RHSHalI2cEnd
  read : Bool
  success : Bool
  deriving DecidableEq, Repr

/-- The transfer of an operation and its answer. -/
def transfer : Event I2cOp.Ans → Option Transfer
  | ⟨.txExt _ _ _ begins ends _, success⟩ =>
      some { begins := begins, ends := ends, read := false, success := success }
  | ⟨.rxExt _ _ _ begins ends _, (success, _)⟩ =>
      some { begins := begins, ends := ends, read := true, success := success }
  | ⟨.delayMs _, _⟩ => none

/-- The transfers of a log. -/
def transfers (log : List (Event I2cOp.Ans)) : List Transfer := log.filterMap transfer

/-- **The chaining rules**, after the transfer `prev`: a transfer that resumes follows a
successful one of its direction that paused, and the last one ends in a stop. -/
def Obeys : Option Transfer → List Transfer → Prop
  | prev, [] => ∀ t ∈ prev, t.ends = .stop
  | prev, t :: ts =>
      (t.begins = .resume →
        ∃ p ∈ prev, p.ends = .pause ∧ p.success = true ∧ p.read = t.read) ∧
      Obeys (some t) ts

/-- Every transfer that pauses succeeds. -/
def PausesSucceed (ts : List Transfer) : Prop := ∀ t ∈ ts, t.ends = .pause → t.success = true

end RhsCore
