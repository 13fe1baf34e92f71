import RhsCore.Hal.I2c

/-!
# The EEPROM driver

`drivers/eeprom/eeprom.c`.  A read sends the address and receives the bytes; a write
sends, for each page it touches, the address and then that page's bytes.

The running address of a write has 16 bits and goes out in `address_size` bytes; the
device may have more bytes than either can name.

## Main definitions

* `EepromType`, `eepromInit` — a device, and what is required of its description.
* `eepromRead`, `eepromWrite` — the two calls.
* `writeChunk` — one turn of the loop of a write.
-/

namespace RhsCore.Eeprom

/-- `EepromType`; a missing handle is `NULL`. -/
structure EepromType where
  i2cHandle : Option RHSHalI2cBusHandle
  i2cAddress : UInt8
  size : UInt32
  pageSize : UInt16
  addressSize : UInt8
  writeDelayMs : UInt8
  timeoutMs : UInt32
  deriving DecidableEq, Repr

/-- `EepromStatus`. -/
inductive EepromStatus
  | ok
  | error
  | timeout
  | invalidParam
  | deviceNotReady
  deriving DecidableEq, Repr

/-- `eeprom_init`; a missing device is `NULL`. -/
def eepromInit (eeprom : Option EepromType) : EepromStatus :=
  match eeprom with
  | none => .invalidParam
  | some eeprom =>
      if eeprom.i2cHandle = none ∨ eeprom.size = 0 ∨ eeprom.pageSize = 0 ∨ eeprom.timeoutMs = 0 then
        .invalidParam
      else if eeprom.i2cAddress > 0x7F then .invalidParam
      else if eeprom.addressSize ≠ 1 ∧ eeprom.addressSize ≠ 2 then .invalidParam
      else .ok

/-- The address as it is sent. -/
def addrBuf (eeprom : EepromType) (address : UInt16) : List UInt8 :=
  if eeprom.addressSize = 1 then [address.toUInt8]
  else [(address >>> 8).toUInt8, address.toUInt8]

/-- The bus of the device; a transfer over `NULL` is a crash. -/
def busHandle (eeprom : EepromType) : RHSHalI2cBusHandle :=
  eeprom.i2cHandle.getD { current := false }

/-- `eeprom_read`; `data` is whether there is a buffer. -/
def eepromRead (eeprom : Option EepromType) (address : UInt16) (data : Bool) (size : UInt32) :
    I2c (EepromStatus × List UInt8) :=
  match eeprom with
  | none => pure (.invalidParam, [])
  | some eeprom =>
      if data = false ∨ size = 0 then pure (.invalidParam, [])
      else if address.toUInt32 + size > eeprom.size then pure (.invalidParam, [])
      else do
        let (success, bytes) ← rhsHalI2cTrx (busHandle eeprom) eeprom.i2cAddress
          (addrBuf eeprom address) size eeprom.timeoutMs
        pure (if success then .ok else .error, bytes)

/-- How many of the remaining bytes go into the page of `currentAddress`. -/
def bytesToWrite (eeprom : EepromType) (currentAddress : UInt16) (remaining : ℕ) : ℕ :=
  let pageStart := currentAddress / eeprom.pageSize * eeprom.pageSize
  let pageEnd := pageStart + eeprom.pageSize
  let bytesToPageEnd := pageEnd - currentAddress
  if remaining < bytesToPageEnd.toNat then remaining else bytesToPageEnd.toNat

/-- The transfers of a turn: the address, then the bytes, without a stop between them. -/
def sendPage (eeprom : EepromType) (currentAddress : UInt16) (data : List UInt8) :
    I2c Bool := do
  let success ← rhsHalI2cTxExt (busHandle eeprom) eeprom.i2cAddress.toUInt16 false
    (addrBuf eeprom currentAddress) .start .pause eeprom.timeoutMs
  if success then
    rhsHalI2cTxExt (busHandle eeprom) eeprom.i2cAddress.toUInt16 false data .resume .stop
      eeprom.timeoutMs
  else pure false

/-- One turn of the loop of a write: `currentAddress`, and what remains of the data. -/
def writeChunk (eeprom : EepromType) :
    UInt16 × List UInt8 → I2c ((UInt16 × List UInt8) ⊕ EepromStatus)
  | (_, []) => pure (.inr .ok)
  | (currentAddress, currentData) => do
      let bytes := bytesToWrite eeprom currentAddress currentData.length
      let success ← sendPage eeprom currentAddress (currentData.take bytes)
      if !success then pure (.inr .error)
      else do
        rhsDelayMs eeprom.writeDelayMs.toUInt32
        pure (.inl (currentAddress + UInt16.ofNat bytes, currentData.drop bytes))

/-- The first transfer of a turn: the address. -/
def addressSent (eeprom : EepromType) (currentAddress : UInt16) (success : Bool) :
    Event I2cOp.Ans :=
  ⟨.txExt eeprom.i2cAddress.toUInt16 false (addrBuf eeprom currentAddress) .start .pause
    eeprom.timeoutMs, success⟩

/-- The second: the bytes of the page. -/
def dataSent (eeprom : EepromType) (data : List UInt8) (success : Bool) : Event I2cOp.Ans :=
  ⟨.txExt eeprom.i2cAddress.toUInt16 false data .resume .stop eeprom.timeoutMs, success⟩

/-- The delay behind them. -/
def delayed (eeprom : EepromType) : Event I2cOp.Ans :=
  ⟨.delayMs eeprom.writeDelayMs.toUInt32, ()⟩

theorem exec_sendPage_iff {eeprom : EepromType} {currentAddress : UInt16} {data : List UInt8}
    {log : List (Event I2cOp.Ans)} {success : Bool} :
    Prog.Exec (sendPage eeprom currentAddress data) log (.ok success) ↔
      (busHandle eeprom).current = true ∧
        (log = [addressSent eeprom currentAddress true, dataSent eeprom data success] ∨
          log = [addressSent eeprom currentAddress false] ∧ success = false) := by
  simp only [sendPage, Prog.exec_bind_ok_iff, exec_rhsHalI2cTxExt_iff]
  constructor
  · rintro ⟨tx, l₁, l₂, ⟨hcurrent, rfl⟩, hrest, rfl⟩
    refine ⟨hcurrent, ?_⟩
    cases tx with
    | false =>
        obtain ⟨rfl, hr⟩ := Prog.exec_ret_iff.mp hrest
        exact .inr ⟨rfl, Except.ok.inj hr⟩
    | true =>
        obtain ⟨-, rfl⟩ := exec_rhsHalI2cTxExt_iff.mp hrest
        exact .inl rfl
  · rintro ⟨hcurrent, rfl | ⟨rfl, rfl⟩⟩
    · exact ⟨true, _, _, ⟨hcurrent, rfl⟩, exec_rhsHalI2cTxExt_iff.mpr ⟨hcurrent, rfl⟩, rfl⟩
    · exact ⟨false, _, [], ⟨hcurrent, rfl⟩, .ret false, rfl⟩

theorem exec_writeChunk_nil_iff {eeprom : EepromType} {currentAddress : UInt16}
    {log : List (Event I2cOp.Ans)} {r : (UInt16 × List UInt8) ⊕ EepromStatus} :
    Prog.Exec (writeChunk eeprom (currentAddress, [])) log (.ok r) ↔
      log = [] ∧ r = .inr .ok := by
  simp [writeChunk]

/-- **What a turn with data does**: it sends the address and the bytes of one page and goes
on behind them, or stops at the first transfer that fails. -/
theorem exec_writeChunk_iff {eeprom : EepromType} {currentAddress : UInt16}
    {data : List UInt8} (hdata : data ≠ []) {log : List (Event I2cOp.Ans)}
    {r : (UInt16 × List UInt8) ⊕ EepromStatus} :
    Prog.Exec (writeChunk eeprom (currentAddress, data)) log (.ok r) ↔
      (busHandle eeprom).current = true ∧
      let bytes := bytesToWrite eeprom currentAddress data.length
      (log = [addressSent eeprom currentAddress true, dataSent eeprom (data.take bytes) true,
          delayed eeprom] ∧
        r = .inl (currentAddress + UInt16.ofNat bytes, data.drop bytes)) ∨
      (log = [addressSent eeprom currentAddress true, dataSent eeprom (data.take bytes) false] ∧
        r = .inr .error) ∨
      log = [addressSent eeprom currentAddress false] ∧ r = .inr .error := by
  obtain ⟨b, rest, rfl⟩ := List.exists_cons_of_ne_nil hdata
  simp only [writeChunk, Prog.exec_bind_ok_iff, exec_sendPage_iff]
  constructor
  · rintro ⟨success, l₁, l₂, ⟨hcurrent, hsent⟩, hrest, rfl⟩
    refine ⟨hcurrent, ?_⟩
    cases success with
    | false =>
        obtain ⟨rfl, hr⟩ := Prog.exec_ret_iff.mp hrest
        obtain rfl := Except.ok.inj hr
        rcases hsent with rfl | ⟨rfl, -⟩
        · exact .inr (.inl ⟨rfl, rfl⟩)
        · exact .inr (.inr ⟨rfl, rfl⟩)
    | true =>
        obtain ⟨u, l₃, l₄, hdelay, hret, rfl⟩ := Prog.exec_bind_ok_iff.mp hrest
        obtain rfl := exec_rhsDelayMs_iff.mp hdelay
        obtain ⟨rfl, hr⟩ := Prog.exec_ret_iff.mp hret
        obtain rfl := Except.ok.inj hr
        rcases hsent with rfl | ⟨-, h⟩
        · exact .inl ⟨rfl, rfl⟩
        · cases h
  · rintro ⟨hcurrent, ⟨rfl, rfl⟩ | ⟨rfl, rfl⟩ | ⟨rfl, rfl⟩⟩
    · refine ⟨true, _, [delayed eeprom], ⟨hcurrent, .inl rfl⟩, ?_, rfl⟩
      exact Prog.exec_bind_ok_iff.mpr
        ⟨(), _, [], exec_rhsDelayMs_iff.mpr rfl, .ret _, rfl⟩
    · exact ⟨false, _, [], ⟨hcurrent, .inl rfl⟩, .ret _, rfl⟩
    · exact ⟨false, _, [], ⟨hcurrent, .inr ⟨rfl, rfl⟩⟩, .ret _, rfl⟩

theorem returns_sendPage {eeprom : EepromType} (h : (busHandle eeprom).current = true)
    (currentAddress : UInt16) (data : List UInt8) :
    (sendPage eeprom currentAddress data).Returns := by
  refine Prog.Returns.bind (returns_rhsHalI2cTxExt h _ _ _ _ _ _) fun _ success _ => ?_
  split
  · exact returns_rhsHalI2cTxExt h _ _ _ _ _ _
  · exact Prog.returns_ret

theorem returns_writeChunk {eeprom : EepromType} (h : (busHandle eeprom).current = true)
    (x : UInt16 × List UInt8) : (writeChunk eeprom x).Returns := by
  obtain ⟨currentAddress, data⟩ := x
  cases data with
  | nil => exact Prog.returns_ret
  | cons b rest =>
      refine Prog.Returns.bind (returns_sendPage h _ _) fun _ success _ => ?_
      split
      · exact Prog.returns_ret
      · refine Prog.Returns.bind ?_ fun _ _ _ => Prog.returns_ret
        exact Prog.returns_call_iff.mpr fun _ => Prog.returns_ret

/-- `eeprom_write`; missing data is `NULL`.  Each turn of the loop writes a byte or more. -/
def eepromWrite (eeprom : Option EepromType) (address : UInt16) (data : Option (List UInt8)) :
    I2c EepromStatus :=
  match eeprom, data with
  | some eeprom, some data =>
      if data.length = 0 then pure .invalidParam
      else if address.toUInt32 + UInt32.ofNat data.length > eeprom.size then pure .invalidParam
      else Prog.iter (writeChunk eeprom) (data.length + 1) (address, data)
  | _, _ => pure .invalidParam

end RhsCore.Eeprom
