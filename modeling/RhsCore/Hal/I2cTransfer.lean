import Mathlib.Algebra.Group.Nat.Defs
import RhsCore.Hal.I2c

/-!
# One I2C transfer

`rhs_hal_i2c_transfer` on the STM32F7 and the STM32G0, register access by register access.
What a flag reads, and whether the timer is expired, is the answer to each access.

The loops end when a flag appears or the timer is expired; their bound is arbitrary, and
what is said holds of every bound that lets the transfer return.

## Main definitions

* `Access`, `I2cRegs` — the accesses, and programs that make them.
* `rhsHalI2cTransfer` — the transfer.
* `Moved` — all the bytes were transferred, in order.
* `transfer_at` — where the loop ends, and when the transfer succeeds.
-/

namespace RhsCore.I2cTransfer

open Prog

/-! ## Register accesses -/

/-- The flags of `ISR` that are read. -/
inductive IsrFlag
  | stop
  | nack
  | txe
  | rxne
  | tc
  | tcr
  deriving DecidableEq, Repr

/-- What a transfer does with the timer and the registers. -/
inductive Access
  /-- `rhs_hal_cortex_timer_is_expired`. -/
  | timerIsExpired
  /-- `LL_I2C_IsActiveFlag_STOP` and so on. -/
  | isActiveFlag (flag : IsrFlag)
  /-- `i2c->ISR & end_mask`: whether any of these flags is set. -/
  | isr (endMask : List IsrFlag)
  /-- `LL_I2C_TransmitData8`. -/
  | transmitData8 (byte : UInt8)
  /-- `LL_I2C_ReceiveData8`. -/
  | receiveData8
  /-- `LL_I2C_AcknowledgeNextData` with `LL_I2C_NACK`. -/
  | nackNextData
  /-- `LL_I2C_ClearFlag_NACK` and `LL_I2C_ClearFlag_STOP`. -/
  | clearFlag (flag : IsrFlag)
  deriving DecidableEq, Repr

@[reducible] def Access.Ans : Access → Type
  | .timerIsExpired => Bool
  | .isActiveFlag _ => Bool
  | .isr _ => Bool
  | .receiveData8 => UInt8
  | _ => Unit

/-- Programs over register accesses. -/
abbrev I2cRegs := Prog Access Access.Ans

/-- One access. -/
def access (o : Access) : I2cRegs o.Ans := .call o .ret

/-! ## The transfer -/

/-- `a || b`, where `b` is only evaluated if `a` is false. -/
def orElse (a b : I2cRegs Bool) : I2cRegs Bool := do
  if ← a then return true else b

/-- `rhs_hal_i2c_transfer_is_aborted`. -/
def rhsHalI2cTransferIsAborted : I2cRegs Bool :=
  orElse (access (.isActiveFlag .stop)) (access (.isActiveFlag .nack))

/-- `rhs_hal_cortex_timer_is_expired(timer) || rhs_hal_i2c_transfer_is_aborted(i2c)`. -/
def expiredOrAborted : I2cRegs Bool := orElse (access .timerIsExpired) rhsHalI2cTransferIsAborted

/-- `end_mask`. -/
def endMask (ends : RHSHalI2cEnd) : List IsrFlag :=
  if ends = .stop then [.stop] else [.tc, .tcr]

/-- A turn of the loop of `rhs_hal_i2c_wait_for_end`. -/
def waitForEndTurn (ends : RHSHalI2cEnd) : I2cRegs (Unit ⊕ Bool) := do
  if ← access (.isr (endMask ends)) then return .inr true
  if ← access .timerIsExpired then return .inr false
  return .inl ()

/-- `rhs_hal_i2c_wait_for_end`. -/
def rhsHalI2cWaitForEnd (bound : ℕ) (ends : RHSHalI2cEnd) : I2cRegs Bool :=
  Prog.iter (fun _ : Unit => waitForEndTurn ends) bound ()

/-- A turn of the loop that waits for TC or TCR after the last byte. -/
def waitForCompleteTurn : I2cRegs (Unit ⊕ Unit) := do
  if ← orElse (access (.isActiveFlag .tc)) (access (.isActiveFlag .tcr)) then return .inr ()
  if ← expiredOrAborted then return .inr ()
  return .inl ()

/-- The variables of the loop: how many bytes are left, how far `data` has advanced, and
what has been stored through it. -/
structure Loop where
  size : ℕ
  offset : ℕ
  stored : List UInt8
  deriving DecidableEq, Repr

/-- There is no acknowledge for the last byte. -/
def nackLastByte (ends : RHSHalI2cEnd) (x : Loop) : I2cRegs Unit :=
  if x.size = 1 ∧ ends = .stop then access .nackNextData else return ()

/-- A byte is read, if there is one. -/
def readByte (ends : RHSHalI2cEnd) (x : Loop) : I2cRegs Loop := do
  nackLastByte ends x
  if ← access (.isActiveFlag .rxne) then
    let byte ← access .receiveData8
    return { size := x.size - 1, offset := x.offset + 1, stored := x.stored ++ [byte] }
  else return x

/-- A byte is written, if there is room for it. -/
def transmitByte (data : ℕ → UInt8) (x : Loop) : I2cRegs Loop := do
  if ← access (.isActiveFlag .txe) then
    access (.transmitData8 (data x.offset))
    return { x with size := x.size - 1, offset := x.offset + 1 }
  else return x

/-- After the last byte, TC or TCR is waited for. -/
def waitForComplete (bound : ℕ) (x : Loop) : I2cRegs Unit :=
  if x.size = 0 then Prog.iter (fun _ : Unit => waitForCompleteTurn) bound () else return ()

/-- The two together. -/
def writeByte (bound : ℕ) (data : ℕ → UInt8) (x : Loop) : I2cRegs Loop := do
  let x ← transmitByte data x
  waitForComplete bound x
  return x

/-- `if (read)`. -/
def moveByte (bound : ℕ) (data : ℕ → UInt8) (ends : RHSHalI2cEnd) (read : Bool) (x : Loop) :
    I2cRegs Loop :=
  if read then readByte ends x else writeByte bound data x

/-- A turn of the loop; it leaves with `ret`, the success so far. -/
def transferTurn (bound : ℕ) (data : ℕ → UInt8) (ends : RHSHalI2cEnd) (read : Bool) (x : Loop) :
    I2cRegs (Loop ⊕ Bool × Loop) := do
  if x.size = 0 then return .inr (true, x)
  let shouldStop ← expiredOrAborted
  let x ← moveByte bound data ends read x
  return if shouldStop then .inr (decide (x.size = 0), x) else .inl x

/-- The end is waited for, if all went well. -/
def waitForEndIf (bound : ℕ) (ends : RHSHalI2cEnd) (ended : Bool) : I2cRegs Bool :=
  if ended then rhsHalI2cWaitForEnd bound ends else return false

/-- NACK is always cleared, and STOP if it was asked for. -/
def clearFlags (ends : RHSHalI2cEnd) : I2cRegs Unit := do
  access (.clearFlag .nack)
  if ends = .stop then access (.clearFlag .stop) else return ()

/-- `rhs_hal_i2c_transfer`: whether it succeeded, and what was stored at `data`. -/
def rhsHalI2cTransfer (bound : ℕ) (data : ℕ → UInt8) (size : ℕ) (ends : RHSHalI2cEnd)
    (read : Bool) : I2cRegs (Bool × List UInt8) := do
  let left ←
    Prog.iter (transferTurn bound data ends read) bound { size := size, offset := 0, stored := [] }
  let success ← waitForEndIf bound ends left.1
  clearFlags ends
  return (success, left.2.stored)

/-! ## What is seen and done -/

/-- The bytes written, in order. -/
def written (log : List (Event Access.Ans)) : List UInt8 :=
  log.filterMap fun
    | ⟨.transmitData8 byte, _⟩ => some byte
    | _ => none

/-- The bytes read, in order. -/
def received (log : List (Event Access.Ans)) : List UInt8 :=
  log.filterMap fun
    | ⟨.receiveData8, byte⟩ => some byte
    | _ => none

/-- How often TXE was seen. -/
def txeSeen (log : List (Event Access.Ans)) : ℕ :=
  log.countP fun
    | ⟨.isActiveFlag .txe, seen⟩ => seen
    | _ => false

/-- The flag that ends the transfer was seen. -/
def endSeen (log : List (Event Access.Ans)) : Bool :=
  log.any fun
    | ⟨.isr _, seen⟩ => seen
    | _ => false

/-- An access that neither moves a byte, nor looks for room, nor ends the transfer. -/
def Waits : Access → Prop
  | .isActiveFlag flag => flag ≠ .txe
  | .isr _ => False
  | .transmitData8 _ => False
  | .receiveData8 => False
  | .clearFlag _ => False
  | _ => True

/-- Of the log, nothing counts. -/
structure Idle (log : List (Event Access.Ans)) : Prop where
  written : written log = []
  received : received log = []
  txeSeen : txeSeen log = 0
  endSeen : endSeen log = false

variable {log l₁ l₂ : List (Event Access.Ans)}

@[simp] theorem written_append : written (l₁ ++ l₂) = written l₁ ++ written l₂ :=
  List.filterMap_append

@[simp] theorem received_append : received (l₁ ++ l₂) = received l₁ ++ received l₂ :=
  List.filterMap_append

@[simp] theorem txeSeen_append : txeSeen (l₁ ++ l₂) = txeSeen l₁ + txeSeen l₂ :=
  List.countP_append

@[simp] theorem endSeen_append : endSeen (l₁ ++ l₂) = (endSeen l₁ || endSeen l₂) :=
  List.any_append

theorem Idle.append (h₁ : Idle l₁) (h₂ : Idle l₂) : Idle (l₁ ++ l₂) where
  written := by simp [h₁.written, h₂.written]
  received := by simp [h₁.received, h₂.received]
  txeSeen := by simp [h₁.txeSeen, h₂.txeSeen]
  endSeen := by simp [h₁.endSeen, h₂.endSeen]

theorem Idle.of_forall (h : ∀ e ∈ log, Waits e.1) : Idle log := by
  induction log with
  | nil => exact ⟨rfl, rfl, rfl, rfl⟩
  | cons e log ih =>
      have hrest := ih fun e he => h e (List.mem_cons_of_mem _ he)
      have hwaits := h e List.mem_cons_self
      have hhead : Idle [e] := by
        obtain ⟨o, answer⟩ := e
        cases o with
        | isActiveFlag flag =>
            cases flag with
            | txe => exact absurd rfl hwaits
            | _ => exact ⟨rfl, rfl, rfl, rfl⟩
        | isr _ => exact hwaits.elim
        | transmitData8 _ => exact hwaits.elim
        | receiveData8 => exact hwaits.elim
        | clearFlag _ => exact hwaits.elim
        | _ => exact ⟨rfl, rfl, rfl, rfl⟩
      exact hhead.append hrest

theorem idle_of_uses {α : Type} {p : I2cRegs α} {r : Except Halt α} (hp : p.Uses Waits)
    (h : Exec p log r) : Idle log := .of_forall (hp.of_mem h)

theorem waits_orElse {a b : I2cRegs Bool} (ha : a.Uses Waits) (hb : b.Uses Waits) :
    (orElse a b).Uses Waits := by
  refine Uses.bind ha fun _ seen _ => ?_
  cases seen with
  | true => exact uses_ret
  | false => exact hb

theorem waits_flag {flag : IsrFlag} (h : flag ≠ .txe) :
    (access (.isActiveFlag flag)).Uses Waits := ⟨h, fun _ => uses_ret⟩

theorem waits_expiredOrAborted : expiredOrAborted.Uses Waits :=
  waits_orElse ⟨trivial, fun _ => uses_ret⟩
    (waits_orElse (waits_flag (by decide)) (waits_flag (by decide)))

theorem waits_nackLastByte (ends : RHSHalI2cEnd) (x : Loop) :
    (nackLastByte ends x).Uses Waits := by
  rw [nackLastByte]
  split
  · exact ⟨trivial, fun _ => uses_ret⟩
  · exact uses_ret

theorem waits_waitForComplete (bound : ℕ) (x : Loop) : (waitForComplete bound x).Uses Waits := by
  rw [waitForComplete]
  split
  swap
  · exact uses_ret
  refine uses_iter (fun _ => True) (fun _ _ => ?_) (fun _ _ _ _ _ => trivial) trivial
  refine Uses.bind (waits_orElse (waits_flag (by decide)) (waits_flag (by decide)))
    fun _ complete _ => ?_
  cases complete with
  | true => exact uses_ret
  | false =>
      refine Uses.bind waits_expiredOrAborted fun _ ended _ => ?_
      cases ended with
      | true => exact uses_ret
      | false => exact uses_ret

/-! ## The loop -/

/-- Where the loop is: what was moved so far, and that the end was not looked for. -/
structure At (data : ℕ → UInt8) (size : ℕ) (read : Bool) (pre : List (Event Access.Ans))
    (x : Loop) : Prop where
  size : x.size + x.offset = size
  endSeen : endSeen pre = false
  write : read = false → txeSeen pre = x.offset ∧ written pre = (List.range x.offset).map data
  read : read = true → x.stored = received pre ∧ x.stored.length = x.offset

variable {data : ℕ → UInt8} {size : ℕ} {read : Bool} {pre : List (Event Access.Ans)} {x : Loop}

/-- Accesses that do not count change nothing. -/
theorem At.idle (h : At data size read pre x) (hlog : Idle log) :
    At data size read (pre ++ log) x where
  size := h.size
  endSeen := by simp [h.endSeen, hlog.endSeen]
  write := by simpa [hlog.txeSeen, hlog.written] using h.write
  read := by simpa [hlog.received] using h.read

/-- A turn that writes. -/
theorem At.transmitByte {x' : Loop} (h : At data size false pre x) (hsize : x.size ≠ 0)
    (hexec : Exec (transmitByte data x) log (.ok x')) : At data size false (pre ++ log) x' := by
  simp only [I2cTransfer.transmitByte, access, call_bind, ret_bind, exec_call_iff] at hexec
  obtain ⟨room, l, rfl, hexec⟩ := hexec
  cases room with
  | false =>
      obtain ⟨rfl, hx⟩ := exec_ret_iff.mp hexec
      obtain rfl := Except.ok.inj hx
      refine h.idle ⟨rfl, rfl, rfl, rfl⟩
  | true =>
      simp only [if_true, exec_call_iff] at hexec
      obtain ⟨_, _, rfl, hexec⟩ := hexec
      obtain ⟨rfl, hx⟩ := exec_ret_iff.mp hexec
      obtain rfl := Except.ok.inj hx
      obtain ⟨hroom, hwritten⟩ := h.write rfl
      have hsum := h.size
      refine ⟨by simp; omega, by rw [endSeen_append, h.endSeen]; rfl, fun _ => ⟨?_, ?_⟩, by simp⟩
      · rw [txeSeen_append, hroom]
        rfl
      · rw [written_append, hwritten, List.range_succ, List.map_append]
        rfl

/-- A turn that reads. -/
theorem At.readByte {ends : RHSHalI2cEnd} {x' : Loop} (h : At data size true pre x)
    (hsize : x.size ≠ 0) (hexec : Exec (readByte ends x) log (.ok x')) :
    At data size true (pre ++ log) x' := by
  rw [I2cTransfer.readByte, exec_bind_ok_iff] at hexec
  obtain ⟨_, l₁, l₂, hack, hexec, rfl⟩ := hexec
  rw [← List.append_assoc]
  have h₁ := h.idle (idle_of_uses (waits_nackLastByte ends x) hack)
  simp only [access, call_bind, ret_bind, exec_call_iff] at hexec
  obtain ⟨there, l, rfl, hexec⟩ := hexec
  cases there with
  | false =>
      obtain ⟨rfl, hx⟩ := exec_ret_iff.mp hexec
      obtain rfl := Except.ok.inj hx
      exact h₁.idle ⟨rfl, rfl, rfl, rfl⟩
  | true =>
      simp only [if_true, exec_call_iff] at hexec
      obtain ⟨byte, _, rfl, hexec⟩ := hexec
      obtain ⟨rfl, hx⟩ := exec_ret_iff.mp hexec
      obtain rfl := Except.ok.inj hx
      obtain ⟨hstored, hlength⟩ := h₁.read rfl
      have hsum := h.size
      refine ⟨by simp; omega, by rw [endSeen_append, h₁.endSeen]; rfl, by simp, fun _ => ⟨?_, ?_⟩⟩
      · rw [received_append, ← hstored]
        rfl
      · simp [hlength]

/-- **One turn** of the loop moves at most one byte, and leaves with success only if none is
left. -/
theorem At.turn {bound : ℕ} {ends : RHSHalI2cEnd} {v : Loop ⊕ Bool × Loop}
    (h : At data size read pre x)
    (hexec : Exec (transferTurn bound data ends read x) log (.ok v)) :
    ∃ x', (v = .inl x' ∨ v = .inr (decide (x'.size = 0), x')) ∧
      At data size read (pre ++ log) x' := by
  rw [transferTurn] at hexec
  split at hexec
  · rename_i hzero
    obtain ⟨rfl, hv⟩ := exec_ret_iff.mp hexec
    refine ⟨x, .inr ?_, by simpa using h⟩
    rw [Except.ok.inj hv, hzero]
    rfl
  · rename_i hsize
    rw [exec_bind_ok_iff] at hexec
    obtain ⟨shouldStop, l₁, l₂, hstop, hexec, rfl⟩ := hexec
    have h₁ := h.idle (idle_of_uses waits_expiredOrAborted hstop)
    rw [exec_bind_ok_iff] at hexec
    obtain ⟨x', l₃, l₄, hbyte, hexec, rfl⟩ := hexec
    obtain ⟨rfl, hv⟩ := exec_ret_iff.mp hexec
    refine ⟨x', ?_, ?_⟩
    · rw [Except.ok.inj hv]
      cases shouldStop with
      | true => exact .inr rfl
      | false => exact .inl rfl
    · rw [List.append_nil, ← List.append_assoc]
      cases read with
      | true =>
          rw [moveByte, if_pos rfl] at hbyte
          exact h₁.readByte hsize hbyte
      | false =>
          rw [moveByte, if_neg (by decide), writeByte, exec_bind_ok_iff] at hbyte
          obtain ⟨x₁, l₅, l₆, htransmit, hbyte, rfl⟩ := hbyte
          rw [exec_bind_ok_iff] at hbyte
          obtain ⟨_, l₇, l₈, hwait, hbyte, rfl⟩ := hbyte
          obtain ⟨rfl, hx⟩ := exec_ret_iff.mp hbyte
          obtain rfl := Except.ok.inj hx
          rw [List.append_nil, ← List.append_assoc]
          exact (h₁.transmitByte hsize htransmit).idle
            (idle_of_uses (waits_waitForComplete bound x') hwait)

/-! ## The end -/

/-- Waiting for the end succeeds exactly if the flag is seen. -/
theorem waitForEnd_iff {bound : ℕ} {ends : RHSHalI2cEnd} {success : Bool}
    (h : Exec (rhsHalI2cWaitForEnd bound ends) log (.ok success)) :
    endSeen log = success ∧ written log = [] ∧ received log = [] ∧ txeSeen log = 0 := by
  -- as long as it goes on, nothing was seen
  have hturn (pre : List (Event Access.Ans)) (u : Unit) (l : List (Event Access.Ans)) (u' : Unit)
      (hpre : Idle pre) (ht : Exec (waitForEndTurn ends) l (.ok (.inl u'))) : Idle (pre ++ l) := by
    refine hpre.append ?_
    simp only [waitForEndTurn, access, call_bind, ret_bind, exec_call_iff] at ht
    obtain ⟨seen, _, rfl, ht⟩ := ht
    cases seen with
    | true => cases (exec_ret_iff.mp ht).2
    | false =>
        simp only [Bool.false_eq_true, if_false, exec_call_iff] at ht
        obtain ⟨expired, _, rfl, ht⟩ := ht
        cases expired with
        | true => cases (exec_ret_iff.mp ht).2
        | false =>
            obtain ⟨rfl, -⟩ := exec_ret_iff.mp ht
            exact ⟨rfl, rfl, rfl, rfl⟩
  have hinit : Idle ([] : List (Event Access.Ans)) := ⟨rfl, rfl, rfl, rfl⟩
  obtain ⟨_, l₁, l₂, rfl, hidle, hlast⟩ := exec_iter_ok (fun pre _ => Idle pre) hturn hinit h
  rw [List.nil_append] at hidle
  simp only [endSeen_append, written_append, received_append, txeSeen_append, hidle.endSeen,
    hidle.written, hidle.received, hidle.txeSeen, Bool.false_or, List.nil_append, Nat.zero_add]
  simp only [waitForEndTurn, access, call_bind, ret_bind, exec_call_iff] at hlast
  obtain ⟨seen, _, rfl, hlast⟩ := hlast
  cases seen with
  | true =>
      obtain ⟨rfl, hv⟩ := exec_ret_iff.mp hlast
      obtain rfl := Sum.inr.inj (Except.ok.inj hv)
      exact ⟨rfl, rfl, rfl, rfl⟩
  | false =>
      simp only [Bool.false_eq_true, if_false, exec_call_iff] at hlast
      obtain ⟨expired, _, rfl, hlast⟩ := hlast
      cases expired with
      | true =>
          obtain ⟨rfl, hv⟩ := exec_ret_iff.mp hlast
          obtain rfl := Sum.inr.inj (Except.ok.inj hv)
          exact ⟨rfl, rfl, rfl, rfl⟩
      | false => cases (exec_ret_iff.mp hlast).2

theorem exec_clearFlags {ends : RHSHalI2cEnd} {u : Unit}
    (h : Exec (clearFlags ends) log (.ok u)) :
    log = ⟨.clearFlag .nack, ()⟩ :: if ends = .stop then [⟨.clearFlag .stop, ()⟩] else [] := by
  simp only [clearFlags, access, call_bind, ret_bind, exec_call_iff] at h
  obtain ⟨_, _, rfl, h⟩ := h
  split at h
  · rename_i hstop
    simp only [exec_call_iff] at h
    obtain ⟨_, _, rfl, h⟩ := h
    obtain ⟨rfl, -⟩ := exec_ret_iff.mp h
    rw [if_pos hstop]
  · rename_i hstop
    obtain ⟨rfl, -⟩ := exec_ret_iff.mp h
    rw [if_neg hstop]

theorem idle_clearFlags {ends : RHSHalI2cEnd} {u : Unit}
    (h : Exec (clearFlags ends) log (.ok u)) : Idle log := by
  rw [exec_clearFlags h]
  split
  · exact ⟨rfl, rfl, rfl, rfl⟩
  · exact ⟨rfl, rfl, rfl, rfl⟩

/-- A transfer is its loop, the wait for the end and the clearing of the flags. -/
theorem transfer_parts {bound : ℕ} {ends : RHSHalI2cEnd} {success : Bool} {stored : List UInt8}
    (h : Exec (rhsHalI2cTransfer bound data size ends read) log (.ok (success, stored))) :
    ∃ ended x l₁ l₂ l₃, log = l₁ ++ (l₂ ++ l₃) ∧
      Exec (Prog.iter (transferTurn bound data ends read) bound
        { size := size, offset := 0, stored := [] }) l₁ (.ok (ended, x)) ∧
      Exec (waitForEndIf bound ends ended) l₂ (.ok success) ∧
      Exec (clearFlags ends) l₃ (.ok ()) ∧ x.stored = stored := by
  rw [rhsHalI2cTransfer, exec_bind_ok_iff] at h
  obtain ⟨⟨ended, x⟩, l₁, l₂, hloop, h, rfl⟩ := h
  rw [exec_bind_ok_iff] at h
  obtain ⟨success', l₃, l₄, hend, h, rfl⟩ := h
  rw [exec_bind_ok_iff] at h
  obtain ⟨_, l₅, l₆, hclear, h, rfl⟩ := h
  obtain ⟨rfl, hr⟩ := exec_ret_iff.mp h
  obtain ⟨rfl, rfl⟩ := Prod.mk.inj (Except.ok.inj hr)
  exact ⟨ended, x, l₁, l₃, l₅, by simp, hloop, hend, hclear, rfl⟩

/-- **The whole transfer**: where its loop ends, and that it succeeds if nothing is left and
the end is seen. -/
theorem transfer_at {bound : ℕ} {ends : RHSHalI2cEnd} {success : Bool} {stored : List UInt8}
    (h : Exec (rhsHalI2cTransfer bound data size ends read) log (.ok (success, stored))) :
    ∃ x : Loop, x.size + x.offset = size ∧ success = (decide (x.size = 0) && endSeen log) ∧
      (read = false → txeSeen log = x.offset ∧ written log = (List.range x.offset).map data) ∧
      (read = true → stored = received log ∧ stored.length = x.offset) := by
  obtain ⟨ended, x, l₁, l₅, l₇, rfl, hloop, hend, hclear, rfl⟩ := transfer_parts h
  have hinit : At data size read [] { size := size, offset := 0, stored := [] } :=
    ⟨rfl, rfl, fun _ => ⟨rfl, rfl⟩, fun _ => ⟨rfl, rfl⟩⟩
  obtain ⟨x₁, l₃, l₄, rfl, hx₁, hlast⟩ := exec_iter_ok (At data size read)
    (fun pre x l x' hx ht => by
      obtain ⟨x'', hv, hx''⟩ := hx.turn ht
      rcases hv with hv | hv
      · rwa [Sum.inl.inj hv]
      · cases hv) hinit hloop
  obtain ⟨x₂, hv, hx⟩ := hx₁.turn hlast
  rw [List.nil_append] at hx
  obtain ⟨rfl, rfl⟩ : ended = decide (x₂.size = 0) ∧ x = x₂ := by
    rcases hv with hv | hv
    · cases hv
    · exact Prod.mk.inj (Sum.inr.inj hv)
  have hidle := idle_clearFlags hclear
  have hended : success = (decide (x.size = 0) && endSeen l₅) ∧ written l₅ = [] ∧
      received l₅ = [] ∧ txeSeen l₅ = 0 := by
    by_cases hzero : x.size = 0
    · rw [waitForEndIf, if_pos (decide_eq_true hzero)] at hend
      obtain ⟨hseen, hrest⟩ := waitForEnd_iff hend
      exact ⟨by simp [hzero, hseen], hrest⟩
    · rw [waitForEndIf, if_neg (by simp [hzero])] at hend
      obtain ⟨rfl, hended⟩ := exec_ret_iff.mp hend
      exact ⟨by simp [hzero, Except.ok.inj hended], rfl, rfl, rfl⟩
  obtain ⟨hsuccess, hwritten, hreceived, htxe⟩ := hended
  refine ⟨x, hx.size, ?_, ?_, ?_⟩
  · have hbefore := hx.endSeen
    rw [endSeen_append, Bool.or_eq_false_iff] at hbefore
    simpa [hbefore.1, hbefore.2, hidle.endSeen] using hsuccess
  · simpa [hwritten, htxe, hidle.written, hidle.txeSeen] using hx.write
  · simpa [hreceived, hidle.received] using hx.read

/-! ## Answers from a script -/

/-- Registers that answer what they are told, one flag after the other. -/
def scripted : (o : Access) → List Bool → o.Ans × List Bool
  | .timerIsExpired, flags => (flags.headD false, flags.tail)
  | .isActiveFlag _, flags => (flags.headD false, flags.tail)
  | .isr _, flags => (flags.headD false, flags.tail)
  | .receiveData8, flags => (0, flags)
  | .transmitData8 _, flags => ((), flags)
  | .nackNextData, flags => ((), flags)
  | .clearFlag _, flags => ((), flags)

end RhsCore.I2cTransfer
