import Mathlib.Algebra.Group.Nat.Defs
import Mathlib.Data.Nat.Init
import RhsCore.Drivers.Eeprom

/-!
# The pages of a write

The loop of `eeprom_write` cuts the data where a page of the device ends.  The end of a page
is computed in 16 bits and may wrap, and so does the address behind the last byte there is;
what is left of the page does not, and it is never nothing.

## Main definitions

* `Chunk`, `chunks` — the bytes of one page, and those of a write, page by page.
* `Split` — they are the data, in order, each inside a page.
* `eepromWrite_split` — a write that meets no failure writes them.
-/

namespace RhsCore.Eeprom

/-! ## Turns -/

theorem pageSize_pos {eeprom : EepromType} (h : eeprom.pageSize ≠ 0) :
    0 < eeprom.pageSize.toNat := by
  rw [ne_eq, ← UInt16.toNat_inj] at h
  exact Nat.pos_of_ne_zero h

/-- The 16-bit arithmetic of a turn: the pages' ends may wrap, the number of bytes does
not. -/
theorem bytesToWrite_eq {eeprom : EepromType} (h : eeprom.pageSize ≠ 0) (currentAddress : UInt16)
    (remaining : ℕ) :
    bytesToWrite eeprom currentAddress remaining =
      min remaining
        (eeprom.pageSize.toNat - currentAddress.toNat % eeprom.pageSize.toNat) := by
  have hmod := Nat.mod_lt currentAddress.toNat (pageSize_pos h)
  have hdiv := Nat.div_add_mod' currentAddress.toNat eeprom.pageSize.toNat
  have haddress := currentAddress.toNat_lt
  have hpage := eeprom.pageSize.toNat_lt
  have hend : (currentAddress / eeprom.pageSize * eeprom.pageSize + eeprom.pageSize -
      currentAddress).toNat =
        eeprom.pageSize.toNat - currentAddress.toNat % eeprom.pageSize.toNat := by
    simp only [UInt16.toNat_sub, UInt16.toNat_add, UInt16.toNat_mul, UInt16.toNat_div]
    omega
  simp only [bytesToWrite, hend]
  split
  · omega
  · omega

theorem bytesToWrite_pos {eeprom : EepromType} (h : eeprom.pageSize ≠ 0) (currentAddress : UInt16)
    {remaining : ℕ} (hremaining : 0 < remaining) :
    0 < bytesToWrite eeprom currentAddress remaining := by
  have hmod := Nat.mod_lt currentAddress.toNat (pageSize_pos h)
  rw [bytesToWrite_eq h]
  omega

theorem bytesToWrite_le {eeprom : EepromType} (h : eeprom.pageSize ≠ 0) (currentAddress : UInt16)
    (remaining : ℕ) : bytesToWrite eeprom currentAddress remaining ≤ remaining := by
  rw [bytesToWrite_eq h]
  exact Nat.min_le_left _ _

theorem exec_loop_nil_iff {eeprom : EepromType} {n : ℕ} {currentAddress : UInt16}
    {log : List (Event I2cOp.Ans)} :
    Prog.Exec (Prog.iter (writeChunk eeprom) (n + 1) (currentAddress, [])) log (.ok .ok) ↔
      log = [] := by
  simp only [Prog.exec_iter_succ_iff, exec_writeChunk_nil_iff]
  constructor
  · rintro (⟨e, -, he⟩ | ⟨b, ⟨rfl, -⟩, -⟩ | ⟨x', l₁, l₂, ⟨-, hr⟩, -⟩)
    · cases he
    · rfl
    · cases hr
  · rintro rfl
    exact .inr (.inl ⟨.ok, ⟨rfl, rfl⟩, rfl⟩)

/-- A write that succeeds has sent this page and goes on to succeed behind it. -/
theorem exec_loop_iff {eeprom : EepromType} {n : ℕ} {currentAddress : UInt16}
    {data : List UInt8} (hdata : data ≠ []) {log : List (Event I2cOp.Ans)} :
    Prog.Exec (Prog.iter (writeChunk eeprom) (n + 1) (currentAddress, data)) log (.ok .ok) ↔
      (busHandle eeprom).current = true ∧
      let bytes := bytesToWrite eeprom currentAddress data.length
      ∃ rest, log = addressSent eeprom currentAddress true ::
          dataSent eeprom (data.take bytes) true :: delayed eeprom :: rest ∧
        Prog.Exec (Prog.iter (writeChunk eeprom) n
          (currentAddress + UInt16.ofNat bytes, data.drop bytes)) rest (.ok .ok) := by
  simp only [Prog.exec_iter_succ_iff, exec_writeChunk_iff hdata]
  constructor
  · rintro (⟨e, -, he⟩ | ⟨b, ⟨-, hturn⟩, hb⟩ | ⟨x', l₁, l₂, ⟨hcurrent, hturn⟩, hrest, rfl⟩)
    · cases he
    · cases hb
      rcases hturn with ⟨-, hr⟩ | ⟨-, hr⟩ | ⟨-, hr⟩ <;> cases hr
    · rcases hturn with ⟨rfl, hr⟩ | ⟨-, hr⟩ | ⟨-, hr⟩
      · cases hr
        exact ⟨hcurrent, l₂, rfl, hrest⟩
      · cases hr
      · cases hr
  · rintro ⟨hcurrent, rest, rfl, hrest⟩
    exact .inr (.inr ⟨_, _, rest, ⟨hcurrent, .inl ⟨rfl, rfl⟩⟩, hrest, rfl⟩)

variable {eeprom : EepromType} {address : UInt16} {data : List UInt8}

/-- A write that is in bounds is its loop. -/
theorem eepromWrite_eq (hdata : data ≠ [])
    (hfits : address.toNat + data.length ≤ eeprom.size.toNat) :
    eepromWrite (some eeprom) address (some data) =
      Prog.iter (writeChunk eeprom) (data.length + 1) (address, data) := by
  have hsize := eeprom.size.toNat_lt
  have hle : ¬ address.toUInt32 + UInt32.ofNat data.length > eeprom.size := by
    rw [gt_iff_lt, UInt32.lt_iff_toNat_lt, UInt32.toNat_add, UInt16.toNat_toUInt32,
      UInt32.toNat_ofNat']
    omega
  rw [eepromWrite, if_neg (by simpa using hdata), if_neg hle]

/-- The loop of a write ends: each turn takes bytes off the data. -/
theorem returns_loop (h : eeprom.pageSize ≠ 0) (hcurrent : (busHandle eeprom).current = true)
    (address : UInt16) (data : List UInt8) :
    (Prog.iter (writeChunk eeprom) (data.length + 1) (address, data)).Returns := by
  apply Prog.returns_iter (fun _ => True) fun x => x.2.length
  · exact fun x _ => returns_writeChunk hcurrent x
  · rintro ⟨currentAddress, rest⟩ log x' - hturn
    refine ⟨trivial, ?_⟩
    by_cases hrest : rest = []
    · rw [hrest, exec_writeChunk_nil_iff] at hturn
      cases hturn.2
    · have hpos := bytesToWrite_pos h currentAddress (List.length_pos_iff.mpr hrest)
      have hle := bytesToWrite_le h currentAddress rest.length
      rw [exec_writeChunk_iff hrest] at hturn
      obtain ⟨-, ⟨-, hr⟩ | ⟨-, hr⟩ | ⟨-, hr⟩⟩ := hturn
      · cases hr
        dsimp only
        rw [List.length_drop]
        omega
      · cases hr
      · cases hr
  · trivial
  · exact Nat.lt_succ_self _

/-- Every write returns. -/
theorem returns_eepromWrite (h : eeprom.pageSize ≠ 0) (hcurrent : (busHandle eeprom).current = true)
    (address : UInt16) (data : List UInt8) :
    (eepromWrite (some eeprom) address (some data)).Returns := by
  unfold eepromWrite
  dsimp only
  split
  · exact Prog.returns_ret
  · split
    · exact Prog.returns_ret
    · exact returns_loop h hcurrent address data

/-! ## Chunks -/

/-- The bytes that go into one page, and where they begin. -/
structure Chunk where
  address : UInt16
  data : List UInt8
  deriving DecidableEq, Repr

/-- The chunks of a write, in at most `n` turns. -/
def chunks (eeprom : EepromType) : ℕ → UInt16 → List UInt8 → List Chunk
  | 0, _, _ => []
  | n + 1, currentAddress, currentData =>
      if currentData = [] then []
      else
        let bytes := bytesToWrite eeprom currentAddress currentData.length
        ⟨currentAddress, currentData.take bytes⟩ ::
          chunks eeprom n (currentAddress + UInt16.ofNat bytes) (currentData.drop bytes)

/-- A turn that writes a chunk. -/
def Chunk.written (eeprom : EepromType) (c : Chunk) : List (Event I2cOp.Ans) :=
  [addressSent eeprom c.address true, dataSent eeprom c.data true, delayed eeprom]

/-- **A loop that succeeds** wrote its chunks, one turn each. -/
theorem exec_loop_ok_iff (hpage : eeprom.pageSize ≠ 0)
    (hcurrent : (busHandle eeprom).current = true) {n : ℕ} {currentAddress : UInt16}
    {currentData : List UInt8} (hn : currentData.length < n)
    {log : List (Event I2cOp.Ans)} :
    Prog.Exec (Prog.iter (writeChunk eeprom) n (currentAddress, currentData)) log (.ok .ok) ↔
      log = (chunks eeprom n currentAddress currentData).flatMap (Chunk.written eeprom) := by
  induction n generalizing currentAddress currentData log with
  | zero => omega
  | succ n ih =>
      rw [chunks]
      split
      · rename_i hnil
        rw [hnil, exec_loop_nil_iff]
        rfl
      · rename_i hdata
        have hpos := bytesToWrite_pos hpage currentAddress (List.length_pos_iff.mpr hdata)
        have hless : (currentData.drop
            (bytesToWrite eeprom currentAddress currentData.length)).length < n := by
          have hlength := List.length_pos_iff.mpr hdata
          rw [List.length_drop]
          omega
        rw [exec_loop_iff hdata]
        simp only [ih hless, hcurrent, true_and, List.flatMap_cons, Chunk.written,
          List.cons_append, List.nil_append]
        constructor
        · rintro ⟨rest, rfl, rfl⟩
          rfl
        · rintro rfl
          exact ⟨_, rfl, rfl⟩

/-- A loop none of whose transfers fails succeeds. -/
theorem status_of_success {n : ℕ} {x : UInt16 × List UInt8} {log : List (Event I2cOp.Ans)}
    {status : EepromStatus}
    (h : Prog.Exec (Prog.iter (writeChunk eeprom) n x) log (.ok status))
    (hok : ∀ t ∈ transfers log, t.success = true) : status = .ok := by
  obtain ⟨⟨currentAddress, rest⟩, l₁, l₂, rfl, hlast⟩ := Prog.exec_iter_last h
  by_cases hrest : rest = []
  · rw [hrest, exec_writeChunk_nil_iff] at hlast
    exact Sum.inr.inj hlast.2
  · rw [exec_writeChunk_iff hrest] at hlast
    have hfails : ∀ t ∈ transfers l₂, t.success = true := by
      intro t ht
      refine hok t ?_
      rw [transfers, List.filterMap_append]
      exact List.mem_append_right _ ht
    rcases hlast with ⟨-, ⟨-, hr⟩ | ⟨rfl, -⟩ | ⟨rfl, -⟩⟩
    · cases hr
    · simp [transfers, transfer, addressSent, dataSent] at hfails
    · simp [transfers, transfer, addressSent] at hfails

/-! ## What is written -/

/-- Each chunk begins where the one before it ended. -/
def Contiguous : ℕ → List Chunk → Prop
  | _, [] => True
  | address, c :: cs => c.address.toNat = address ∧ Contiguous (address + c.data.length) cs

/-- The chunks are the data from `address` on, cut into pieces of pages. -/
structure Split (pageSize address : ℕ) (data : List UInt8) (cs : List Chunk) : Prop where
  nonempty : ∀ c ∈ cs, c.data ≠ []
  page : ∀ c ∈ cs,
    c.address.toNat / pageSize = (c.address.toNat + c.data.length - 1) / pageSize
  contiguous : Contiguous address cs
  data : (cs.map Chunk.data).flatten = data

theorem split_nil (pageSize address : ℕ) : Split pageSize address [] [] where
  nonempty := by simp
  page := by simp
  contiguous := trivial
  data := rfl

/-- Bytes up to the end of a page are in that page. -/
theorem div_eq_of_page {a size pageSize : ℕ} (hpos : 0 < size)
    (hfits : a % pageSize + size ≤ pageSize) : a / pageSize = (a + size - 1) / pageSize := by
  have hdiv := Nat.div_add_mod' a pageSize
  have hlow : a / pageSize * pageSize ≤ a + size - 1 := by omega
  have hhigh : a + size - 1 < (a / pageSize + 1) * pageSize := by
    rw [Nat.add_mul]
    omega
  exact (Nat.div_eq_of_lt_le hlow hhigh).symm

/-- One more chunk in front. -/
theorem Split.cons {pageSize a : ℕ} {front rest : List UInt8} {cs : List Chunk}
    (h : Split pageSize (a + front.length) rest cs) (ha : a < 2 ^ 16) (hfront : front ≠ [])
    (hfits : a % pageSize + front.length ≤ pageSize) :
    Split pageSize a (front ++ rest) (⟨UInt16.ofNat a, front⟩ :: cs) := by
  have haddress : (UInt16.ofNat a).toNat = a := by
    rw [UInt16.toNat_ofNat']
    exact Nat.mod_eq_of_lt ha
  constructor
  · exact List.forall_mem_cons.mpr ⟨hfront, h.nonempty⟩
  · refine List.forall_mem_cons.mpr ⟨?_, h.page⟩
    rw [haddress]
    exact div_eq_of_page (List.length_pos_iff.mpr hfront) hfits
  · exact ⟨haddress, h.contiguous⟩
  · rw [List.map_cons, List.flatten_cons, h.data]

/-- **The chunks of a write**: by induction on the turns, none of which goes beyond the
addresses there are before the data end. -/
theorem split_chunks (hpage : eeprom.pageSize ≠ 0) {n a : ℕ} {currentData : List UInt8}
    (hn : currentData.length < n) (hfits : a + currentData.length ≤ 2 ^ 16) :
    Split eeprom.pageSize.toNat a currentData
      (chunks eeprom n (UInt16.ofNat a) currentData) := by
  induction n generalizing a currentData with
  | zero => omega
  | succ n ih =>
      rw [chunks]
      split
      · rename_i hnil
        rw [hnil]
        exact split_nil _ _
      · rename_i hdata
        have hlength := List.length_pos_iff.mpr hdata
        have hpos := bytesToWrite_pos hpage (UInt16.ofNat a) hlength
        have hle := bytesToWrite_le hpage (UInt16.ofNat a) currentData.length
        have hmod := Nat.mod_lt a (pageSize_pos hpage)
        have hbytes := bytesToWrite_eq hpage (UInt16.ofNat a) currentData.length
        rw [UInt16.toNat_ofNat', Nat.mod_eq_of_lt (a := a) (by omega)] at hbytes
        generalize bytesToWrite eeprom (UInt16.ofNat a) currentData.length = bytes at *
        have htake : (currentData.take bytes).length = bytes := by
          rw [List.length_take]
          exact Nat.min_eq_left hle
        have hrest : Split eeprom.pageSize.toNat (a + bytes) (currentData.drop bytes)
            (chunks eeprom n (UInt16.ofNat (a + bytes)) (currentData.drop bytes)) := by
          apply ih
          · rw [List.length_drop]
            omega
          · rw [List.length_drop]
            omega
        rw [UInt16.ofNat_add] at hrest
        nth_rewrite 1 [← List.take_append_drop bytes currentData]
        apply Split.cons
        · rw [htake]
          exact hrest
        · omega
        · rw [← List.length_pos_iff, htake]
          exact hpos
        · rw [htake, hbytes]
          omega

/-- **A write that meets no failure** ends, and writes the data in chunks, each of them not
empty and inside a page, one behind the other. -/
theorem eepromWrite_split (hpage : eeprom.pageSize ≠ 0)
    (hcurrent : (busHandle eeprom).current = true) (hdata : data ≠ [])
    (hfits : address.toNat + data.length ≤ min eeprom.size.toNat (2 ^ 16)) :
    (eepromWrite (some eeprom) address (some data)).Returns ∧
    ∀ log status, Prog.Exec (eepromWrite (some eeprom) address (some data)) log (.ok status) →
      (∀ t ∈ transfers log, t.success = true) →
      status = .ok ∧ ∃ cs, log = cs.flatMap (Chunk.written eeprom) ∧
        Split eeprom.pageSize.toNat address.toNat data cs := by
  refine ⟨returns_eepromWrite hpage hcurrent address data, ?_⟩
  intro log status h hok
  rw [eepromWrite_eq hdata (by omega)] at h
  obtain rfl := status_of_success h hok
  refine ⟨rfl, _, (exec_loop_ok_iff hpage hcurrent (Nat.lt_succ_self _)).mp h, ?_⟩
  have hsplit : Split eeprom.pageSize.toNat address.toNat data
      (chunks eeprom (data.length + 1) (UInt16.ofNat address.toNat) data) :=
    split_chunks hpage (Nat.lt_succ_self data.length) (by omega)
  rwa [UInt16.ofNat_toNat] at hsplit

/-- A device of 64 KiB whose pages do not divide it. -/
def oddEeprom : EepromType :=
  { i2cHandle := some ⟨true⟩, i2cAddress := 0x50, size := 65536, pageSize := 100, addressSize := 2,
    writeDelayMs := 5, timeoutMs := 100 }

/-- A write up to the last byte, where the end of the page wraps. -/
theorem eepromWrite_split_top :
    (eepromWrite (some oddEeprom) 65490 (some (List.replicate 46 7))).Returns ∧
    ∀ log status,
      Prog.Exec (eepromWrite (some oddEeprom) 65490 (some (List.replicate 46 7))) log
        (.ok status) →
      (∀ t ∈ transfers log, t.success = true) →
      status = .ok ∧ ∃ cs, log = cs.flatMap (Chunk.written oddEeprom) ∧
        Split 100 65490 (List.replicate 46 7) cs :=
  eepromWrite_split (by decide) rfl (by decide) (by decide)

end RhsCore.Eeprom
