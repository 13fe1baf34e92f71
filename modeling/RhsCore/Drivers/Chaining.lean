import RhsCore.Drivers.Eeprom

/-!
# The chaining rules along the I2C calls

A transfer that pauses the bus is always meant to be resumed by the next one.  The calls
that pause it do so once a transaction, with the address, and look at the result too late
or not at all: the rules hold exactly when no pausing transfer fails.

## Main definitions

* `Settled` — what a call finds and leaves when it keeps the rules.
* `Chained` — a program keeps the rules exactly if its pausing transfers succeed.
-/

namespace RhsCore.Eeprom

/-- Nothing precedes, or a transfer that ended in a stop. -/
def Settled (prev : Option Transfer) : Prop := ∀ t ∈ prev, t.ends = .stop

/-- The log of a call keeps the rules exactly if every transfer in it that pauses
succeeds. -/
def Chained {α : Type} (p : I2c α) : Prop :=
  ∀ log a, Prog.Exec p log (.ok a) → (Obeys none (transfers log) ↔ PausesSucceed (transfers log))

/-- An address that arrives and is followed by data keeps the rules; what follows starts
afresh. -/
theorem obeys_page_iff {prev : Option Transfer} {eeprom : EepromType} {address : UInt16}
    {data : List UInt8} {success : Bool} {log : List (Event I2cOp.Ans)} :
    Obeys prev
        (transfers (addressSent eeprom address true :: dataSent eeprom data success :: log)) ↔
      Obeys (some ⟨.resume, .stop, false, success⟩) (transfers log) := by
  simp [transfers, transfer, addressSent, dataSent, Obeys]

theorem pausesSucceed_page_iff {eeprom : EepromType} {address : UInt16} {data : List UInt8}
    {success : Bool} {log : List (Event I2cOp.Ans)} :
    PausesSucceed
        (transfers (addressSent eeprom address true :: dataSent eeprom data success :: log)) ↔
      PausesSucceed (transfers log) := by
  simp [transfers, transfer, addressSent, dataSent, PausesSucceed]

/-- An address that does not arrive leaves the bus paused. -/
theorem not_obeys_address {prev : Option Transfer} {eeprom : EepromType} {address : UInt16} :
    ¬ Obeys prev (transfers [addressSent eeprom address false]) := by
  simp [transfers, transfer, addressSent, Obeys]

theorem not_pausesSucceed_address {eeprom : EepromType} {address : UInt16} :
    ¬ PausesSucceed (transfers [addressSent eeprom address false]) := by
  simp [transfers, transfer, addressSent, PausesSucceed]

theorem transfers_delayed (eeprom : EepromType) (log : List (Event I2cOp.Ans)) :
    transfers (delayed eeprom :: log) = transfers log := rfl

theorem obeys_nil {prev : Option Transfer} (h : Settled prev) : Obeys prev (transfers []) := h

theorem pausesSucceed_nil : PausesSucceed (transfers []) := by simp [transfers, PausesSucceed]

/-- **The loop of a write**: by induction on its turns, each of which leaves the bus settled
or ends the loop. -/
theorem obeys_loop_iff {eeprom : EepromType} {n : ℕ} {x : UInt16 × List UInt8}
    {prev : Option Transfer} (hprev : Settled prev) {log : List (Event I2cOp.Ans)}
    {status : EepromStatus}
    (h : Prog.Exec (Prog.iter (writeChunk eeprom) n x) log (.ok status)) :
    Obeys prev (transfers log) ↔ PausesSucceed (transfers log) := by
  induction n generalizing x prev log with
  | zero => simp [Prog.iter] at h
  | succ n ih =>
      obtain ⟨currentAddress, data⟩ := x
      have hsettled : ∀ success, Settled (some ⟨.resume, .stop, false, success⟩) := by
        intro success t ht
        cases ht
        rfl
      rw [Prog.exec_iter_succ_iff] at h
      rcases h with ⟨e, -, he⟩ | ⟨b, hb, -⟩ | ⟨x', l₁, l₂, hturn, hrest, rfl⟩
      · cases he
      · by_cases hdata : data = []
        · rw [hdata, exec_writeChunk_nil_iff] at hb
          obtain ⟨rfl, -⟩ := hb
          exact iff_of_true (obeys_nil hprev) pausesSucceed_nil
        · rw [exec_writeChunk_iff hdata] at hb
          obtain ⟨-, ⟨-, hr⟩ | ⟨rfl, -⟩ | ⟨rfl, -⟩⟩ := hb
          · cases hr
          · rw [obeys_page_iff, pausesSucceed_page_iff]
            exact iff_of_true (obeys_nil (hsettled false)) pausesSucceed_nil
          · exact iff_of_false not_obeys_address not_pausesSucceed_address
      · by_cases hdata : data = []
        · rw [hdata, exec_writeChunk_nil_iff] at hturn
          cases hturn.2
        · rw [exec_writeChunk_iff hdata] at hturn
          obtain ⟨-, ⟨rfl, hr⟩ | ⟨-, hr⟩ | ⟨-, hr⟩⟩ := hturn
          · rw [List.cons_append, List.cons_append, obeys_page_iff, pausesSucceed_page_iff,
              List.cons_append, List.nil_append, transfers_delayed]
            exact ih (hsettled true) hrest
          · cases hr
          · cases hr

theorem chained_eepromWrite (eeprom : Option EepromType) (address : UInt16)
    (data : Option (List UInt8)) : Chained (eepromWrite eeprom address data) := by
  have hsettled : Settled none := by
    intro t ht
    cases ht
  intro log status h
  have hpure : ∀ s : EepromStatus, Prog.Exec (pure s : I2c EepromStatus) log (.ok status) →
      (Obeys none (transfers log) ↔ PausesSucceed (transfers log)) := by
    intro s hs
    obtain ⟨rfl, -⟩ := Prog.exec_ret_iff.mp hs
    exact iff_of_true (obeys_nil hsettled) pausesSucceed_nil
  unfold eepromWrite at h
  split at h
  · split at h
    · exact hpure _ h
    · split at h
      · exact hpure _ h
      · exact obeys_loop_iff hsettled h
  · exact hpure _ h

theorem chained_rhsHalI2cTrx (handle : RHSHalI2cBusHandle) (address : UInt8)
    (txData : List UInt8) (rxSize timeout : UInt32) :
    Chained (rhsHalI2cTrx handle address txData rxSize timeout) := by
  intro log r h
  obtain ⟨-, tx, rx, -, rfl⟩ := exec_rhsHalI2cTrx_iff.mp h
  simp [transfers, transfer, Obeys, PausesSucceed]

theorem chained_rhsHalI2cWriteMem (handle : RHSHalI2cBusHandle) (i2cAddr memAddr : UInt8)
    (data : List UInt8) (timeout : UInt32) :
    Chained (rhsHalI2cWriteMem handle i2cAddr memAddr data timeout) := by
  intro log r h
  obtain ⟨-, -, tx1, tx2, -, rfl⟩ := exec_rhsHalI2cWriteMem_iff.mp h
  simp [transfers, transfer, Obeys, PausesSucceed]

theorem chained_eepromRead (eeprom : Option EepromType) (address : UInt16) (data : Bool)
    (size : UInt32) : Chained (eepromRead eeprom address data size) := by
  intro log r h
  have hpure : ∀ s, Prog.Exec (pure s : I2c (EepromStatus × List UInt8)) log (.ok r) →
      (Obeys none (transfers log) ↔ PausesSucceed (transfers log)) := by
    intro s hs
    obtain ⟨rfl, -⟩ := Prog.exec_ret_iff.mp hs
    simp [transfers, Obeys, PausesSucceed]
  unfold eepromRead at h
  split at h
  · exact hpure _ h
  · split at h
    · exact hpure _ h
    · split at h
      · exact hpure _ h
      · obtain ⟨trx, l₁, l₂, htrx, hret, rfl⟩ := Prog.exec_bind_ok_iff.mp h
        obtain ⟨rfl, -⟩ := Prog.exec_ret_iff.mp hret
        rw [List.append_nil]
        exact chained_rhsHalI2cTrx _ _ _ _ _ _ _ htrx

/-- **The chaining rules hold along each call** exactly if its pausing transfers succeed. -/
theorem chained_all (eeprom : Option EepromType) (address : UInt16)
    (data : Option (List UInt8)) (buffer : Bool) (size : UInt32) (handle : RHSHalI2cBusHandle)
    (i2cAddr memAddr : UInt8) (bytes : List UInt8) (timeout : UInt32) :
    Chained (eepromWrite eeprom address data) ∧
    Chained (eepromRead eeprom address buffer size) ∧
    Chained (rhsHalI2cWriteMem handle i2cAddr memAddr bytes timeout) ∧
    Chained (rhsHalI2cTrx handle i2cAddr bytes size timeout) :=
  ⟨chained_eepromWrite _ _ _, chained_eepromRead _ _ _ _, chained_rhsHalI2cWriteMem _ _ _ _ _,
    chained_rhsHalI2cTrx _ _ _ _ _⟩

/-- A device with one address byte. -/
def smallEeprom : EepromType :=
  { i2cHandle := some ⟨true⟩, i2cAddress := 0x50, size := 256, pageSize := 8, addressSize := 1,
    writeDelayMs := 5, timeoutMs := 100 }

/-- The device does not answer to its address: `eeprom_write` leaves the bus paused, and
`rhs_hal_i2c_write_mem` resumes a transfer that failed. -/
theorem failed_pause_breaks_chaining :
    (∃ log, Prog.Exec (eepromWrite (some smallEeprom) 0 (some [1])) log (.ok .error) ∧
      ¬ Obeys none (transfers log)) ∧
    ∃ log, Prog.Exec (rhsHalI2cWriteMem ⟨true⟩ 0x50 0 [1] 100) log (.ok false) ∧
      ¬ Obeys none (transfers log) := by
  constructor
  · refine ⟨[addressSent smallEeprom 0 false], ?_, not_obeys_address⟩
    have hturn : Prog.Exec (writeChunk smallEeprom (0, [1])) [addressSent smallEeprom 0 false]
        (.ok (.inr .error)) :=
      (exec_writeChunk_iff (by simp)).mpr ⟨rfl, .inr (.inr ⟨rfl, rfl⟩)⟩
    exact Prog.exec_iter_succ_iff.mpr (.inr (.inl ⟨.error, hturn, rfl⟩))
  · refine ⟨_, exec_rhsHalI2cWriteMem_iff.mpr ⟨rfl, by decide, false, false, rfl, rfl⟩, ?_⟩
    simp [transfers, transfer, Obeys]

end RhsCore.Eeprom
