import RhsCore.FlashEx.Mt25ql128aba

/-!
# The external flash layer

`hal/rhs_hal_flash_ex/rhs_hal_flash_ex.c`: read, write, block erase and chip erase
under one mutex.  Every function ignores the status of `rhs_mutex_acquire`.

The `do … while` loops of write and block erase are `Prog.iter` over their loop
variables, with bounds above the number of turns that 32-bit sizes allow:
`writeLoop_terminates` and `eraseLoop_terminates` show that they are never exhausted.
-/

namespace RhsCore.FlashEx

/-- `RHS_FLASH_EX_OK`. -/
def flashExOk : Int := 0
/-- `RHS_FLASH_EX_ERROR`. -/
def flashExError : Int := -1
/-- `RHS_FLASH_EX_BUSY`. -/
def flashExBusy : Int := -2

/-- `rhs_assert`: `__rhs_crash_implementation` does not return. -/
def rhsAssert (c : Bool) : FlashProg Unit := if c then return () else .halt .crash

/-- `rhs_mutex_acquire (flash_mutex, RHSWaitForever)` as a statement. -/
def acquireFlashMutex : FlashProg RHSStatus := Prog.op (FlashOp.mutexAcquire rhsWaitForever)

/-- `rhs_mutex_release (flash_mutex)` as a statement. -/
def releaseFlashMutex : FlashProg RHSStatus := Prog.op FlashOp.mutexRelease

/-- `flash_force_abort`. -/
def flashForceAbort : FlashProg Unit := do
  let busy ← qspi (.readFlag .busy)
  if busy then
    qspi .setAbort
    qspi (.spinFlag .transferComplete true 100)
    qspi (.spinFlag .busy false 100)
    qspi .clearFlags
  qspi .clearFmode
  qspi .setStateReady

/-- `flash_wait_ready`: on a timeout, abort and ask once more. -/
def flashWaitReady (timeout : UInt32) : FlashProg Int := do
  if (← mt25ql128abaAutoPollingMemReady timeout) ≠ 0 then
    flashForceAbort
    mt25ql128abaAutoPollingMemReady timeout
  else return 0

/-- The wait and the transfer of `rhs_hal_flash_ex_read`. -/
def readTransfer (addr size : UInt32) : FlashProg (Int × List UInt8) := do
  if (← flashWaitReady 10) ≠ 0 then return (flashExBusy, [])
  let (e, data) ← mt25ql128abaRead addr size
  return (if e ≠ 0 then flashExError else flashExOk, data)

/-- Between acquire and release of `rhs_hal_flash_ex_read`. -/
def readBody (addr size : UInt32) : FlashProg (Int × List UInt8) := do
  let result ← readTransfer addr size
  flashForceAbort
  return result

/-- `rhs_hal_flash_ex_read`: the error code, and what was received at `p_data`. -/
def rhsHalFlashExRead (addr size : UInt32) : FlashProg (Int × List UInt8) := do
  rhsAssert (addr + size ≤ flashSize)
  let _ ← acquireFlashMutex
  let result ← readBody addr size
  let _ ← releaseFlashMutex
  return result

/-- The wait and the commands of `rhs_hal_flash_ex_erase_chip`. -/
def eraseChipCommands : FlashProg Int := do
  if (← flashWaitReady 10) ≠ 0 then return flashExBusy
  if (← mt25ql128abaWriteEnable) ≠ 0 then
    flashForceAbort
    return flashExError
  if (← mt25ql128abaChipErase) ≠ 0 then
    flashForceAbort
    return flashExError
  return flashExOk

/-- Between acquire and release of `rhs_hal_flash_ex_erase_chip`. -/
def eraseChipBody : FlashProg Int := do
  let error ← eraseChipCommands
  if (← flashWaitReady bulkEraseMaxTime) ≠ 0 then return flashExError
  return error

/-- `rhs_hal_flash_ex_erase_chip`. -/
def rhsHalFlashExEraseChip : FlashProg Int := do
  let _ ← acquireFlashMutex
  let error ← eraseChipBody
  let _ ← releaseFlashMutex
  return error

/-- The loop variables of `rhs_hal_flash_ex_write`; `written` is how far `write_data`
has advanced from `p_data`. -/
structure WriteLoop where
  currentAddr : UInt32
  currentSize : UInt32
  written : ℕ
  deriving DecidableEq, Repr

/-- The variables before the first turn: the first program stops at the end of its page. -/
def writeInit (addr size : UInt32) : WriteLoop where
  currentAddr := addr
  currentSize :=
    if pageSize - addr % pageSize > size then size else pageSize - addr % pageSize
  written := 0

/-- The update at the end of a turn. -/
def WriteLoop.next (endAddr : UInt32) (x : WriteLoop) : WriteLoop where
  currentAddr := x.currentAddr + x.currentSize
  currentSize :=
    if x.currentAddr + x.currentSize + pageSize > endAddr then
      endAddr - (x.currentAddr + x.currentSize)
    else pageSize
  written := x.written + x.currentSize.toNat

/-- The bytes a turn programs, read through `write_data`. -/
def WriteLoop.data (pData : ℕ → UInt8) (x : WriteLoop) : List UInt8 :=
  (List.range x.currentSize.toNat).map fun i => pData (x.written + i)

/-- One turn of the write loop; it leaves with the error code. -/
def writeTurn (pData : ℕ → UInt8) (endAddr : UInt32) (x : WriteLoop) :
    FlashProg (WriteLoop ⊕ Int) := do
  if (← flashWaitReady 10) ≠ 0 then return .inr flashExBusy
  if (← mt25ql128abaWriteEnable) ≠ 0 then
    flashForceAbort
    return .inr flashExError
  if (← mt25ql128abaPageProgram (x.data pData) x.currentAddr x.currentSize) ≠ 0 then
    flashForceAbort
    return .inr flashExError
  if (← flashWaitReady 10) ≠ 0 then return .inr flashExError
  return if (x.next endAddr).currentAddr < endAddr then .inl (x.next endAddr) else .inr flashExOk

/-- `rhs_hal_flash_ex_write` of the `size` bytes found from `p_data` on. -/
def rhsHalFlashExWrite (addr : UInt32) (pData : ℕ → UInt8) (size : UInt32) : FlashProg Int := do
  rhsAssert (addr + size ≤ flashSize)
  let _ ← acquireFlashMutex
  let error ← Prog.iter (writeTurn pData (addr + size)) 65538 (writeInit addr size)
  let _ ← releaseFlashMutex
  return error

/-- The loop variables of `rhs_hal_flash_ex_block_erase`. -/
structure EraseLoop where
  currentAddr : UInt32
  currentSize : UInt32
  deriving DecidableEq, Repr

/-- The variables before the first turn: the start is aligned down, the size is not
adjusted. -/
def eraseInit (addr size : UInt32) : EraseLoop := ⟨addr - addr % subsector4k, size⟩

/-- The update at the end of a turn. -/
def EraseLoop.next (x : EraseLoop) : EraseLoop where
  currentAddr := x.currentAddr + subsector4k
  currentSize := if x.currentSize > subsector4k then x.currentSize - subsector4k else 0

/-- One turn of the erase loop; it leaves with the error code. -/
def eraseTurn (x : EraseLoop) : FlashProg (EraseLoop ⊕ Int) := do
  if (← mt25ql128abaWriteEnable) ≠ 0 then
    flashForceAbort
    return .inr flashExError
  if (← mt25ql128abaBlockErase x.currentAddr .erase4k) ≠ 0 then
    flashForceAbort
    return .inr flashExError
  if (← flashWaitReady subsector4kEraseMaxTime) ≠ 0 then return .inr flashExError
  return if x.next.currentSize ≠ 0 then .inl x.next else .inr flashExOk

/-- Between acquire and release of `rhs_hal_flash_ex_block_erase`. -/
def blockEraseBody (addr size : UInt32) : FlashProg Int := do
  if (← flashWaitReady 10) ≠ 0 then return flashExBusy
  Prog.iter eraseTurn 1048577 (eraseInit addr size)

/-- `rhs_hal_flash_ex_block_erase`. -/
def rhsHalFlashExBlockErase (addr size : UInt32) : FlashProg Int := do
  rhsAssert (addr + size ≤ flashSize)
  let _ ← acquireFlashMutex
  let error ← blockEraseBody addr size
  let _ ← releaseFlashMutex
  return error

/-! ## Any call -/

/-- A call of the layer. -/
inductive FlashCall
  | read (addr size : UInt32)
  | write (addr : UInt32) (pData : ℕ → UInt8) (size : UInt32)
  | blockErase (addr size : UInt32)
  | eraseChip

/-- The function called; of a read, only the error code. -/
def FlashCall.prog : FlashCall → FlashProg Int
  | .read addr size => do
      let result ← rhsHalFlashExRead addr size
      return result.1
  | .write addr pData size => rhsHalFlashExWrite addr pData size
  | .blockErase addr size => rhsHalFlashExBlockErase addr size
  | .eraseChip => rhsHalFlashExEraseChip

/-- The call passes its `rhs_assert`. -/
def FlashCall.passesAssert : FlashCall → Bool
  | .read addr size => addr + size ≤ flashSize
  | .write addr _ size => addr + size ≤ flashSize
  | .blockErase addr size => addr + size ≤ flashSize
  | .eraseChip => true

/-- What the call does between acquire and release. -/
def FlashCall.body : FlashCall → FlashProg Int
  | .read addr size => do
      let result ← readBody addr size
      return result.1
  | .write addr pData size =>
      Prog.iter (writeTurn pData (addr + size)) 65538 (writeInit addr size)
  | .blockErase addr size => blockEraseBody addr size
  | .eraseChip => eraseChipBody

/-- Acquire, do the work, release, and return what the work returned. -/
def locked (body : FlashProg Int) : FlashProg Int := do
  let _ ← acquireFlashMutex
  let result ← body
  let _ ← releaseFlashMutex
  return result

/-- All four functions have one shape. -/
theorem FlashCall.prog_eq (c : FlashCall) :
    c.prog = rhsAssert c.passesAssert >>= fun _ => locked c.body := by
  cases c with
  | read addr size =>
      simp only [prog, rhsHalFlashExRead, body, locked, acquireFlashMutex, releaseFlashMutex,
        Prog.bind_assoc, Prog.op_bind, Prog.call_bind, Prog.pure_eq, Prog.ret_bind, passesAssert]
  | write addr pData size => rfl
  | blockErase addr size => rfl
  | eraseChip => rfl

end RhsCore.FlashEx
