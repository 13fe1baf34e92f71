import RhsCore.Lib.Program
import RhsCore.Core.Mutex

/-!
# The MT25QL128ABA driver

`hal/rhs_hal_flash_ex/mt25ql128aba`.  A driver function fills a command record and
hands it to the vendor's QSPI layer; the layer and the registers behind it are the
environment, and each call into them is one operation.

The flash layer passes `MT25QL128ABA_QPI_MODE` everywhere, so the records below are
the ones of that mode.  Of `QSPI_CommandTypeDef` they keep the fields that vary;
alternate bytes, double data rate and the instruction mode are the same constants
in every command.
-/

namespace RhsCore.FlashEx

/-! ## Device constants -/

/-- `MT25QL128ABA_FLASH_SIZE`, 16 MiB. -/
def flashSize : UInt32 := 128 * 1024 * 1024 / 8
/-- `MT25QL128ABA_PAGE_SIZE`. -/
def pageSize : UInt32 := 256
/-- `MT25QL128ABA_SUBSECTOR_4K`. -/
def subsector4k : UInt32 := 4 * 1024
/-- `MT25QL128ABA_BULK_ERASE_MAX_TIME`. -/
def bulkEraseMaxTime : UInt32 := 460000
/-- `MT25QL128ABA_SUBSECTOR_4K_ERASE_MAX_TIME`. -/
def subsector4kEraseMaxTime : UInt32 := 400

/-- The instruction codes of `mt25ql128aba.h` that the flash layer sends. -/
inductive Instruction
  /-- `MT25QL128ABA_QUAD_OUTPUT_FAST_READ`, 0x6B. -/
  | quadOutputFastRead
  /-- `MT25QL128ABA_QUAD_INPUT_FAST_PROGRAM`, 0x32. -/
  | quadInputFastProgram
  /-- `MT25QL128ABA_WRITE_ENABLE`, 0x06. -/
  | writeEnable
  /-- `MT25QL128ABA_READ_STATUS_REGISTER`, 0x05. -/
  | readStatusRegister
  /-- `MT25QL128ABA_4KB_SUBSECTOR_ERASE`, 0x20. -/
  | subsectorErase4kb
  /-- `MT25QL128ABA_32KB_SUBSECTOR_ERASE`, 0x52. -/
  | subsectorErase32kb
  /-- `MT25QL128ABA_SECTOR_ERASE`, 0xD8. -/
  | sectorErase
  /-- `MT25QL128ABA_BULK_ERASE`, 0xC7. -/
  | bulkErase
  deriving DecidableEq, Repr

/-- How many lines a phase of a command uses; `none` when the phase is absent. -/
inductive Lines
  | none
  | one
  | four
  deriving DecidableEq, Repr

/-- `QSPI_CommandTypeDef`, without its constant fields.  Addresses are sent with
`QSPI_ADDRESS_24_BITS`. -/
structure QspiCommand where
  instruction : Instruction
  addressMode : Lines := .none
  address : UInt32 := 0
  dataMode : Lines := .none
  nbData : UInt32 := 0
  dummyCycles : UInt32 := 0
  deriving DecidableEq, Repr

/-- `QSPI_AutoPollingTypeDef`: poll until the status bytes under `mask` equal `match'`. -/
structure QspiAutoPolling where
  match' : UInt32
  mask : UInt32
  statusBytesSize : UInt32 := 2
  interval : UInt32 := 0x10
  deriving DecidableEq, Repr

/-- `HAL_StatusTypeDef`. -/
inductive HalStatus
  | ok
  | error
  | busy
  | timeout
  deriving DecidableEq, Repr

/-- A timeout of the vendor layer: its `HAL_QPSI_TIMEOUT_DEFAULT_VALUE`, or a
number of milliseconds. -/
inductive HalTimeout
  | default
  | ms (n : UInt32)
  deriving DecidableEq, Repr

/-- The two status flags of the QUADSPI that are read directly. -/
inductive SrFlag
  | busy
  | transferComplete
  deriving DecidableEq, Repr

/-! ## Operations -/

/-- What is done to the QSPI peripheral: the vendor layer's calls, and the register
accesses of `flash_force_abort`. -/
inductive QspiOp
  /-- `HAL_QSPI_Command`. -/
  | command (cmd : QspiCommand) (timeout : HalTimeout)
  /-- `HAL_QSPI_Transmit` of the bytes at the data pointer. -/
  | transmit (data : List UInt8) (timeout : HalTimeout)
  /-- `HAL_QSPI_Receive`. -/
  | receive (timeout : HalTimeout)
  /-- `HAL_QSPI_AutoPolling`. -/
  | autoPolling (cmd : QspiCommand) (cfg : QspiAutoPolling) (timeout : HalTimeout)
  /-- Read one flag of `SR`. -/
  | readFlag (flag : SrFlag)
  /-- Set `CR.ABORT`. -/
  | setAbort
  /-- Spin until a flag of `SR` has the given value or more than `ticks` have passed. -/
  | spinFlag (flag : SrFlag) (value : Bool) (ticks : UInt32)
  /-- Clear the status flags through `FCR`. -/
  | clearFlags
  /-- Clear `CCR.FMODE`. -/
  | clearFmode
  /-- Assign `HAL_QSPI_STATE_READY` to `hqspi.State`. -/
  | setStateReady
  deriving DecidableEq, Repr

/-- What the peripheral answers. -/
@[reducible] def QspiOp.Ans : QspiOp → Type
  | .command _ _ => HalStatus
  | .transmit _ _ => HalStatus
  | .receive _ => HalStatus × List UInt8
  | .autoPolling _ _ _ => HalStatus
  | .readFlag _ => Bool
  | _ => Unit

/-- The operations of the flash layer: those on its mutex, and those on the QSPI. -/
inductive FlashOp
  | mutexAcquire (timeout : UInt32)
  | mutexRelease
  | qspi (q : QspiOp)
  deriving DecidableEq, Repr

/-- What is answered to an operation of the flash layer. -/
@[reducible] def FlashOp.Ans : FlashOp → Type
  | .mutexAcquire _ => RHSStatus
  | .mutexRelease => RHSStatus
  | .qspi q => q.Ans

/-- A function of the driver or of the flash layer. -/
abbrev FlashProg := Prog FlashOp FlashOp.Ans

/-- One operation on the QSPI. -/
def qspi (q : QspiOp) : FlashProg q.Ans := .call (.qspi q) .ret

/-- The driver's error convention: `0` for `HAL_OK`, `-1` for anything else. -/
def halResult (s : HalStatus) : Int := if s ≠ .ok then -1 else 0

/-! ## Driver functions -/

/-- `mt25ql128aba_qspi_command` with its status check. -/
def sendCommand (cmd : QspiCommand) : FlashProg Int := do
  let s ← qspi (.command cmd .default)
  return halResult s

/-- `mt25ql128aba_read`; the bytes are what the vendor layer put at `pData`. -/
def mt25ql128abaRead (readAddr size : UInt32) : FlashProg (Int × List UInt8) := do
  let s ← sendCommand
    { instruction := .quadOutputFastRead, addressMode := .one, address := readAddr,
      dataMode := .four, nbData := size, dummyCycles := 8 }
  if s ≠ 0 then return (-1, [])
  let (s, data) ← qspi (.receive .default)
  return (halResult s, data)

/-- `mt25ql128aba_write_enable`: latch the write enable and poll until both dies show it. -/
def mt25ql128abaWriteEnable : FlashProg Int := do
  let s ← sendCommand { instruction := .writeEnable }
  if s ≠ 0 then return -1
  let s ← qspi (.autoPolling { instruction := .readStatusRegister, dataMode := .one }
    { match' := 0x0202, mask := 0x0202 } .default)
  return halResult s

/-- `mt25ql128aba_page_program` of the `data` found at `pData`. -/
def mt25ql128abaPageProgram (data : List UInt8) (writeAddr size : UInt32) : FlashProg Int := do
  let s ← sendCommand
    { instruction := .quadInputFastProgram, addressMode := .one, address := writeAddr,
      dataMode := .four, nbData := size }
  if s ≠ 0 then return -1
  let s ← qspi (.transmit data .default)
  return halResult s

/-- `mt25ql128aba_auto_polling_mem_ready`: poll until no write is in progress. -/
def mt25ql128abaAutoPollingMemReady (timeout : UInt32) : FlashProg Int := do
  let s ← qspi (.autoPolling { instruction := .readStatusRegister, dataMode := .one }
    { match' := 0, mask := 0x0101 } (.ms timeout))
  return halResult s

/-- `mt25ql128aba_chip_erase`. -/
def mt25ql128abaChipErase : FlashProg Int := sendCommand { instruction := .bulkErase }

/-- `mt25ql128aba_erase_t`. -/
inductive EraseSize
  | erase4k
  | erase32k
  | eraseSector
  | eraseBulk
  deriving DecidableEq, Repr

/-- `mt25ql128aba_block_erase`. -/
def mt25ql128abaBlockErase (blockAddress : UInt32) (blockSize : EraseSize) : FlashProg Int :=
  match blockSize with
  | .erase4k => erase .subsectorErase4kb
  | .erase32k => erase .subsectorErase32kb
  | .eraseSector => erase .sectorErase
  | .eraseBulk => mt25ql128abaChipErase
where
  erase (i : Instruction) : FlashProg Int :=
    sendCommand { instruction := i, addressMode := .one, address := blockAddress }

end RhsCore.FlashEx
