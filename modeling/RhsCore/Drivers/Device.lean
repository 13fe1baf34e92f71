import RhsCore.Drivers.Chunks
import RhsCore.Lib.Store
import Mathlib.Algebra.Group.Nat.Defs
import Mathlib.Data.Nat.Init

/-!
# The device behind the EEPROM driver

A memory of `size` bytes with a pointer into it.  A write transaction begins with the
address, high byte first; every byte behind it is written where the pointer is, which
goes round inside its page.  A read sends bytes from the pointer on.

## Main definitions

* `Device`, `Device.receive`, `Device.send` — the device, and what transfers do to it.
* `Serves` — the answers of a bus on which successful transfers reach the device.
-/

namespace RhsCore.Eeprom

/-- The device; `received` is how many bytes of the address it has received. -/
structure Device where
  mem : ℕ → UInt8
  pointer : ℕ
  received : ℕ

/-- Where the pointer goes after a byte is written: round inside the page. -/
def nextInPage (eeprom : EepromType) (p : ℕ) : ℕ :=
  p / eeprom.pageSize.toNat * eeprom.pageSize.toNat +
    (p % eeprom.pageSize.toNat + 1) % eeprom.pageSize.toNat

/-- A byte of a write transaction: one of the address, or one to be written. -/
def Device.byte (eeprom : EepromType) (d : Device) (b : UInt8) : Device :=
  if d.received < eeprom.addressSize.toNat then
    { d with
      pointer := if d.received = 0 then b.toNat else d.pointer * 256 + b.toNat
      received := d.received + 1 }
  else { d with mem := Function.update d.mem d.pointer b, pointer := nextInPage eeprom d.pointer }

/-- A write transfer: it continues the transaction, or begins one with an address. -/
def Device.receive (eeprom : EepromType) (d : Device) (begins : RHSHalI2cBegin)
    (data : List UInt8) : Device :=
  data.foldl (Device.byte eeprom) (if begins = .resume then d else { d with received := 0 })

/-- The bytes a read transfer gets: from the pointer on, and round at the end. -/
def Device.send (eeprom : EepromType) (d : Device) (size : ℕ) : List UInt8 :=
  (List.range size).map fun i => d.mem ((d.pointer + i) % eeprom.size.toNat)

/-- What it leaves. -/
def Device.afterSend (eeprom : EepromType) (d : Device) (size : ℕ) : Device :=
  { d with pointer := (d.pointer + size) % eeprom.size.toNat }

/-- `Serves eeprom d log d'`: on a bus on which successful transfers reach the device, and
failed ones do anything, the log takes it from `d` to `d'`. -/
inductive Serves (eeprom : EepromType) : Device → List (Event I2cOp.Ans) → Device → Prop
  | nil (d : Device) : Serves eeprom d [] d
  | tx {d d' : Device} {log : List (Event I2cOp.Ans)} (data : List UInt8)
      (begins : RHSHalI2cBegin) (ends : RHSHalI2cEnd) (timeout : UInt32)
      (h : Serves eeprom (d.receive eeprom begins data) log d') :
      Serves eeprom d
        (⟨.txExt eeprom.i2cAddress.toUInt16 false data begins ends timeout, true⟩ :: log) d'
  | txFails {d mid d' : Device} {log : List (Event I2cOp.Ans)} (data : List UInt8)
      (begins : RHSHalI2cBegin) (ends : RHSHalI2cEnd) (timeout : UInt32)
      (h : Serves eeprom mid log d') :
      Serves eeprom d
        (⟨.txExt eeprom.i2cAddress.toUInt16 false data begins ends timeout, false⟩ :: log) d'
  | rx {d d' : Device} {log : List (Event I2cOp.Ans)} (size : UInt32)
      (begins : RHSHalI2cBegin) (ends : RHSHalI2cEnd) (timeout : UInt32)
      (h : Serves eeprom (d.afterSend eeprom size.toNat) log d') :
      Serves eeprom d
        (⟨.rxExt eeprom.i2cAddress.toUInt16 false size begins ends timeout,
          (true, d.send eeprom size.toNat)⟩ :: log) d'
  | rxFails {d mid d' : Device} {log : List (Event I2cOp.Ans)} (size : UInt32)
      (begins : RHSHalI2cBegin) (ends : RHSHalI2cEnd) (timeout : UInt32) (bytes : List UInt8)
      (h : Serves eeprom mid log d') :
      Serves eeprom d
        (⟨.rxExt eeprom.i2cAddress.toUInt16 false size begins ends timeout, (false, bytes)⟩ :: log)
        d'
  | delay {d d' : Device} {log : List (Event I2cOp.Ans)} (ms : UInt32)
      (h : Serves eeprom d log d') : Serves eeprom d (⟨.delayMs ms, ()⟩ :: log) d'

/-! ## One page -/

/-- The address the device gets: as many low bytes as are sent. -/
def wireAddress (eeprom : EepromType) (address : UInt16) : ℕ :=
  address.toNat % 256 ^ eeprom.addressSize.toNat

/-- A device whose description is accepted. -/
structure Accepted (eeprom : EepromType) : Prop where
  addressSize : eeprom.addressSize = 1 ∨ eeprom.addressSize = 2
  pageSize : eeprom.pageSize ≠ 0

theorem Accepted.pageSize_pos {eeprom : EepromType} (h : Accepted eeprom) :
    0 < eeprom.pageSize.toNat := Eeprom.pageSize_pos h.pageSize

theorem accepted_of_init {eeprom : EepromType} (h : eepromInit (some eeprom) = .ok) :
    Accepted eeprom := by
  simp only [eepromInit] at h
  split at h
  · cases h
  · rename_i hfields
    split at h
    · cases h
    · split at h
      · cases h
      · rename_i haddress
        exact ⟨by tauto, by tauto⟩

/-- The address arrives. -/
theorem receive_addrBuf {eeprom : EepromType} (h : Accepted eeprom) (d : Device)
    (address : UInt16) :
    d.receive eeprom .start (addrBuf eeprom address) =
      { d with
        pointer := wireAddress eeprom address
        received := eeprom.addressSize.toNat } := by
  rcases h.addressSize with hsize | hsize
  · simp [Device.receive, addrBuf, Device.byte, wireAddress, hsize]
  · have hbytes : address.toNat >>> 8 % 256 * 256 + address.toNat % 256 = address.toNat := by
      have hlt := address.toNat_lt
      rw [Nat.shiftRight_eq_div_pow]
      omega
    simp [Device.receive, addrBuf, Device.byte, wireAddress, hsize, hbytes]

/-- The bytes behind it are written one after the other, round inside the page. -/
theorem receive_data {eeprom : EepromType} {d : Device}
    (h : d.received = eeprom.addressSize.toNat) (data : List UInt8) :
    (d.receive eeprom .resume data).mem =
      writeAll ((List.iterate (nextInPage eeprom) d.pointer data.length).zip data) d.mem := by
  simp only [Device.receive, if_true]
  induction data generalizing d with
  | nil => rfl
  | cons b data ih =>
      have hbyte : d.byte eeprom b =
          { d with
            mem := Function.update d.mem d.pointer b
            pointer := nextInPage eeprom d.pointer } := by
        rw [Device.byte, if_neg (by omega)]
      rw [List.foldl_cons, hbyte]
      refine (ih ?_).trans rfl
      exact h

/-- The pointer does not go round before the end of the page. -/
theorem iterate_nextInPage {eeprom : EepromType} (p n : ℕ)
    (h : p % eeprom.pageSize.toNat + n ≤ eeprom.pageSize.toNat) :
    List.iterate (nextInPage eeprom) p n = List.range' p n := by
  induction n generalizing p with
  | zero => rfl
  | succ n ih =>
      cases n with
      | zero => rfl
      | succ n =>
          have hnext : nextInPage eeprom p = p + 1 := by
            rw [nextInPage, Nat.mod_eq_of_lt (a := p % _ + 1) (by omega)]
            have := Nat.div_add_mod' p eeprom.pageSize.toNat
            omega
          have hmod : (p + 1) % eeprom.pageSize.toNat = p % eeprom.pageSize.toNat + 1 := by
            rw [Nat.add_mod, Nat.mod_eq_of_lt (a := 1) (by omega), Nat.mod_eq_of_lt (by omega)]
          rw [List.iterate, hnext, ih (p + 1) (by omega)]
          rfl

end RhsCore.Eeprom
