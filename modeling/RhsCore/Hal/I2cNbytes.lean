import RhsCore.Hal.I2cBus

/-!
# The length of a transfer

NBYTES, the length field that `LL_I2C_HandleTransfer` fills, has 8 bits.  A transfer that is
performed is started with its own length, whatever that is.

On a device that answers at once every transfer succeeds, of any length: nothing between a
driver and the registers cuts a transfer into pieces.

## Main definitions

* `FitsNbytes` — an operation starts no transfer that NBYTES cannot hold.
* `answersAtOnce` — the device that answers at once.
-/

namespace RhsCore.I2cBus

open Prog Cortex
open I2cTransfer (Access IsrFlag)

/-- The number of bytes that a transfer is started with. -/
def BusOp.transferSize : BusOp → Option UInt32
  | .cortex _ => none
  | .register _ => none
  | .isActiveFlagBusy => none
  | .handleTransfer _ transferSize _ _ => some transferSize

/-- If a transfer is started, it has a byte or more, and NBYTES can hold their number. -/
def FitsNbytes (o : BusOp) : Prop := ∀ n ∈ o.transferSize, 1 ≤ n.toNat ∧ n.toNat ≤ 255

variable {board : Board} {bound : ℕ} {timer : RHSHalCortexTimer}

/-! ## What is started -/

theorem fitsNbytes_cortex {α : Type} (p : CortexProg α) : (cortex p).Uses FitsNbytes := by
  refine uses_cortex ((uses_true p).mono ?_)
  simp [FitsNbytes, BusOp.transferSize]

theorem permits_fitsNbytes (timer : RHSHalCortexTimer) : Permits FitsNbytes timer := by
  constructor <;> simp [FitsNbytes, BusOp.transferSize]

/-- A timer that is got is admitted. -/
theorem admitted_of_exec {timeout : UInt32} {log : List (Event BusOp.Ans)}
    (h : Exec (cortex (rhsHalCortexTimerGet board (timeout * 1000))) log (.ok timer)) :
    Admitted board timeout := by
  obtain ⟨_, hget, -⟩ := exec_interp_ok_iff.mp h
  exact (exec_rhsHalCortexTimerGet_iff.mp hget).1

/-- What is performed for an operation of a driver fits if the operation does, or its timer
is refused. -/
theorem fitsNbytes_perform {o : I2cOp}
    (htx : ∀ address tenBit data begins ends timeout,
      o = .txExt address tenBit data begins ends timeout → Admitted board timeout →
        1 ≤ data.length ∧ data.length ≤ 255)
    (hrx : ∀ address tenBit size begins ends timeout,
      o = .rxExt address tenBit size begins ends timeout → Admitted board timeout →
        1 ≤ size.toNat ∧ size.toNat ≤ 255) :
    (perform board bound o).Uses FitsNbytes := by
  cases o with
  | txExt address tenBit data begins ends timeout =>
      refine Uses.bind (fitsNbytes_cortex _) fun _ timer htimer => ?_
      refine Uses.bind ?_ fun _ _ _ => uses_ret
      apply (permits_fitsNbytes timer).uses_rhsHalI2cTransaction
      have hlength := htx _ _ _ _ _ _ rfl (admitted_of_exec htimer)
      have hsize : (UInt32.ofNat data.length).toNat = data.length := by
        rw [UInt32.toNat_ofNat']
        exact Nat.mod_eq_of_lt (by omega)
      simpa [FitsNbytes, BusOp.transferSize, hsize] using hlength
  | rxExt address tenBit size begins ends timeout =>
      refine Uses.bind (fitsNbytes_cortex _) fun _ timer htimer => ?_
      apply (permits_fitsNbytes timer).uses_rhsHalI2cTransaction
      have hlength := hrx _ _ _ _ _ _ rfl (admitted_of_exec htimer)
      simpa [FitsNbytes, BusOp.transferSize] using hlength
  | delayMs ms => exact fitsNbytes_cortex _

/-- A transaction that succeeds started its transfer. -/
theorem handleTransfer_mem {address : UInt16} {tenBit : Bool} {data : ℕ → UInt8} {size : UInt32}
    {begins : RHSHalI2cBegin} {ends : RHSHalI2cEnd} {read : Bool} {stored : List UInt8}
    {log : List (Event BusOp.Ans)}
    (h : Exec (rhsHalI2cTransaction bound address tenBit data size begins ends read timer) log
      (.ok (true, stored))) :
    ∃ e ∈ log, e.1.transferSize = some size := by
  rw [rhsHalI2cTransaction, exec_bind_ok_iff] at h
  obtain ⟨idle, l₁, l₂, -, h, rfl⟩ := h
  cases idle with
  | false => cases (exec_ret_iff.mp h).2
  | true =>
      rw [if_pos rfl, exec_bind_ok_iff] at h
      obtain ⟨_, l₃, l₄, hstart, -, rfl⟩ := h
      obtain rfl := exec_op_iff.mp hstart
      exact ⟨_, List.mem_append_right _ (List.mem_append_left _ List.mem_cons_self), rfl⟩

/-! ## A device that answers at once -/

/-- Its registers: there is room, a byte or the end whenever that is asked for. -/
def registersAtOnce : (o : Access) → o.Ans
  | .timerIsExpired => false
  | .isActiveFlag flag => decide (flag ≠ .stop ∧ flag ≠ .nack)
  | .isr _ => true
  | .transmitData8 _ => ()
  | .receiveData8 => 0
  | .nackNextData => ()
  | .clearFlag _ => ()

/-- Its bus is idle, and no time goes by. -/
def answersAtOnce : (o : BusOp) → o.Ans
  | .cortex .cyccnt => 0
  | .cortex (.cyccntBefore _ _) => true
  | .cortex (.delayTick _) => ()
  | .register o => registersAtOnce o
  | .isActiveFlagBusy => false
  | .handleTransfer _ _ _ _ => ()

theorem eval_register (timer : RHSHalCortexTimer) (o : Access) :
    (register timer o).eval answersAtOnce = .ok (registersAtOnce o) := by
  cases o <;> rfl

theorem eval_rhsHalI2cWaitForIdle (hbound : 0 < bound) (begins : RHSHalI2cBegin) :
    (rhsHalI2cWaitForIdle bound begins timer).eval answersAtOnce = .ok true := by
  obtain ⟨b, rfl⟩ := Nat.exists_eq_succ_of_ne_zero (Nat.pos_iff_ne_zero.mp hbound)
  cases begins <;> rfl

section

open I2cTransfer

theorem eval_readByte (ends : RHSHalI2cEnd) (x : Loop) :
    (readByte ends x).eval registersAtOnce =
      .ok { size := x.size - 1, offset := x.offset + 1, stored := x.stored ++ [0] } := by
  have hnack : (nackLastByte ends x).eval registersAtOnce = .ok () := by
    rw [nackLastByte]
    split <;> rfl
  rw [readByte, eval_bind_of_ok hnack]
  rfl

theorem eval_writeByte (hbound : 0 < bound) (data : ℕ → UInt8) (x : Loop) :
    (writeByte bound data x).eval registersAtOnce =
      .ok { x with size := x.size - 1, offset := x.offset + 1 } := by
  obtain ⟨b, rfl⟩ := Nat.exists_eq_succ_of_ne_zero (Nat.pos_iff_ne_zero.mp hbound)
  have htransmit : (transmitByte data x).eval registersAtOnce =
      .ok { x with size := x.size - 1, offset := x.offset + 1 } := rfl
  have hcomplete (y : Loop) : (waitForComplete (b + 1) y).eval registersAtOnce = .ok () := by
    rw [waitForComplete]
    split <;> rfl
  rw [writeByte, eval_bind_of_ok htransmit, eval_bind_of_ok (hcomplete _)]
  rfl

/-- Every turn moves a byte. -/
theorem eval_transferTurn (hbound : 0 < bound) (data : ℕ → UInt8) (ends : RHSHalI2cEnd)
    (read : Bool) {x : Loop} (hsize : x.size ≠ 0) :
    ∃ x', (transferTurn bound data ends read x).eval registersAtOnce = .ok (.inl x') ∧
      x'.size = x.size - 1 := by
  have hgoesOn : expiredOrAborted.eval registersAtOnce = .ok false := rfl
  rw [transferTurn, if_neg hsize, eval_bind_of_ok hgoesOn]
  cases read with
  | true =>
      have hbyte : (moveByte bound data ends true x).eval registersAtOnce = _ :=
        eval_readByte ends x
      rw [eval_bind_of_ok hbyte]
      exact ⟨_, rfl, rfl⟩
  | false =>
      have hbyte : (moveByte bound data ends false x).eval registersAtOnce = _ :=
        eval_writeByte hbound data x
      rw [eval_bind_of_ok hbyte]
      exact ⟨_, rfl, rfl⟩

/-- The loop of a transfer moves all the bytes: by induction on its bound. -/
theorem eval_transferLoop (hbound : 0 < bound) (data : ℕ → UInt8) (ends : RHSHalI2cEnd)
    (read : Bool) {n : ℕ} {x : Loop} (hn : x.size < n) :
    ∃ x', (iter (transferTurn bound data ends read) n x).eval registersAtOnce =
      .ok (true, x') := by
  induction n generalizing x with
  | zero => omega
  | succ n ih =>
      rw [iter]
      by_cases hsize : x.size = 0
      · refine ⟨x, ?_⟩
        rw [transferTurn, if_pos hsize]
        rfl
      · obtain ⟨x', hturn, hsize'⟩ := eval_transferTurn hbound data ends read hsize
        rw [eval_bind_of_ok hturn]
        exact ih (by omega)

/-- **A transfer of any length succeeds** on such a device. -/
theorem eval_rhsHalI2cTransfer (data : ℕ → UInt8) {size : ℕ} (hbound : size < bound)
    (ends : RHSHalI2cEnd) (read : Bool) :
    ∃ stored, (rhsHalI2cTransfer bound data size ends read).eval registersAtOnce =
      .ok (true, stored) := by
  have hpos : 0 < bound := by omega
  obtain ⟨x', hloop⟩ := eval_transferLoop hpos data ends read
    (x := { size := size, offset := 0, stored := [] }) hbound
  have hend : (waitForEndIf bound ends true).eval registersAtOnce = .ok true := by
    obtain ⟨b, rfl⟩ := Nat.exists_eq_succ_of_ne_zero (Nat.ne_zero_of_lt hbound)
    rfl
  have hclear : (clearFlags ends).eval registersAtOnce = .ok () := by
    cases ends <;> rfl
  refine ⟨x'.stored, ?_⟩
  rw [rhsHalI2cTransfer, eval_bind_of_ok hloop, eval_bind_of_ok hend, eval_bind_of_ok hclear]
  rfl

end

/-- So does a transaction. -/
theorem eval_rhsHalI2cTransaction (timer : RHSHalCortexTimer) (address : UInt16) (tenBit : Bool)
    (data : ℕ → UInt8) {size : UInt32} (hbound : size.toNat < bound) (begins : RHSHalI2cBegin)
    (ends : RHSHalI2cEnd) (read : Bool) :
    ∃ stored, (rhsHalI2cTransaction bound address tenBit data size begins ends read timer).eval
      answersAtOnce = .ok (true, stored) := by
  obtain ⟨stored, htransfer⟩ := eval_rhsHalI2cTransfer data hbound ends read
  refine ⟨stored, ?_⟩
  rw [rhsHalI2cTransaction, eval_bind_of_ok (eval_rhsHalI2cWaitForIdle (by omega) begins),
    if_pos rfl]
  exact (eval_interp (eval_register timer) _).trans htransfer

theorem eval_rhsHalCortexTimerGet {timeout : UInt32} (h : Admitted board timeout) :
    (cortex (rhsHalCortexTimerGet board (timeout * 1000))).eval answersAtOnce =
      .ok ⟨0, instructionsPerMicrosecond board.systemCoreClock * (timeout * 1000)⟩ := by
  have hassert : decide (timeout * 1000 <
      uint32Max / instructionsPerMicrosecond board.systemCoreClock) = true := decide_eq_true h
  rw [cortex, rhsHalCortexTimerGet, interp_bind, Cortex.rhsAssert, if_pos hassert]
  rfl

section

variable {address : UInt16} {tenBit : Bool} {data : List UInt8} {size timeout : UInt32}
  {begins : RHSHalI2cBegin} {ends : RHSHalI2cEnd}

/-- **Every transfer can succeed**, if its timer is admitted. -/
theorem exists_txExt (hadmitted : Admitted board timeout) (hlength : data.length < 2 ^ 32)
    (hbound : data.length < bound) :
    ∃ log, Exec (perform board bound (.txExt address tenBit data begins ends timeout)) log
      (.ok true) := by
  have hsize : (UInt32.ofNat data.length).toNat < bound := by
    rw [UInt32.toNat_ofNat', Nat.mod_eq_of_lt hlength]
    exact hbound
  obtain ⟨stored, htransaction⟩ := eval_rhsHalI2cTransaction
    ⟨0, instructionsPerMicrosecond board.systemCoreClock * (timeout * 1000)⟩
    address tenBit (fun i => data.getD i 0) hsize begins ends false
  have heval : (txExt board bound address tenBit data begins ends timeout).eval answersAtOnce =
      .ok true := by
    rw [txExt, eval_bind_of_ok (eval_rhsHalCortexTimerGet hadmitted),
      eval_bind_of_ok htransaction]
    rfl
  exact exists_exec_of_eval heval

theorem exists_rxExt (hadmitted : Admitted board timeout) (hbound : size.toNat < bound) :
    ∃ log stored, Exec (perform board bound (.rxExt address tenBit size begins ends timeout)) log
      (.ok (true, stored)) := by
  obtain ⟨stored, htransaction⟩ := eval_rhsHalI2cTransaction
    ⟨0, instructionsPerMicrosecond board.systemCoreClock * (timeout * 1000)⟩
    address tenBit (fun _ => 0) hbound begins ends true
  have heval : (rxExt board bound address tenBit size begins ends timeout).eval answersAtOnce =
      .ok (true, stored) := by
    rw [rxExt, eval_bind_of_ok (eval_rhsHalCortexTimerGet hadmitted)]
    exact htransaction
  obtain ⟨log, hexec⟩ := exists_exec_of_eval heval
  exact ⟨log, stored, hexec⟩

/-- A transfer that succeeds was started with its own length. -/
theorem transferSize_of_txExt {log : List (Event BusOp.Ans)}
    (h : Exec (perform board bound (.txExt address tenBit data begins ends timeout)) log
      (.ok true)) :
    ∃ e ∈ log, e.1.transferSize = some (UInt32.ofNat data.length) := by
  obtain ⟨timer, l₁, l₂, -, hrest, rfl⟩ := exec_bind_ok_iff.mp h
  obtain ⟨⟨success, stored⟩, l₃, l₄, htransaction, hret, rfl⟩ := exec_bind_ok_iff.mp hrest
  obtain ⟨rfl, hr⟩ := exec_ret_iff.mp hret
  obtain rfl : success = true := (Except.ok.inj hr).symm
  obtain ⟨e, he, hsize⟩ := handleTransfer_mem htransaction
  exact ⟨e, List.mem_append_right _ (List.mem_append_left _ he), hsize⟩

theorem transferSize_of_rxExt {log : List (Event BusOp.Ans)} {stored : List UInt8}
    (h : Exec (perform board bound (.rxExt address tenBit size begins ends timeout)) log
      (.ok (true, stored))) :
    ∃ e ∈ log, e.1.transferSize = some size := by
  obtain ⟨timer, l₁, l₂, -, htransaction, rfl⟩ := exec_bind_ok_iff.mp h
  obtain ⟨e, he, hsize⟩ := handleTransfer_mem htransaction
  exact ⟨e, List.mem_append_right _ he, hsize⟩

end

end RhsCore.I2cBus
