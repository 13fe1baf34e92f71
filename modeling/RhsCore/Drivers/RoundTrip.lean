import RhsCore.Drivers.Device
import Mathlib.Data.List.Iterate
import Mathlib.Data.List.Perm.Subperm

/-!
# Reading back what was written

Where the bytes of a write land is decided by the addresses sent, one for each page.  As
long as every page written to begins, or the write begins in it, below what the address
bytes can name, the bytes land in the requested range, one behind the other.

Beyond that, the address of a page is cut off, and its first byte lands where it does not
belong.

## Main definitions

* `writtenAt` — the positions a write of so many bytes writes to, in order.
* `lastPage` — the address sent for the last page of a write.
* `RoundTrips` — what is written can be read back, and nothing else has changed.
-/

namespace RhsCore.Eeprom

/-! ## Pages -/

variable {eeprom : EepromType} {address : UInt16} {data : List UInt8}

/-! ## Where the bytes land -/

/-- Where a write of `remaining` bytes writes, in at most `n` turns. -/
def writtenAt (eeprom : EepromType) : ℕ → UInt16 → ℕ → List ℕ
  | 0, _, _ => []
  | n + 1, currentAddress, remaining =>
      if remaining = 0 then []
      else
        let bytes := bytesToWrite eeprom currentAddress remaining
        List.iterate (nextInPage eeprom) (wireAddress eeprom currentAddress) bytes ++
          writtenAt eeprom n (currentAddress + UInt16.ofNat bytes) (remaining - bytes)

theorem length_writtenAt {eeprom : EepromType} (h : Accepted eeprom) {n : ℕ}
    {currentAddress : UInt16} {remaining : ℕ} (hn : remaining ≤ n) :
    (writtenAt eeprom n currentAddress remaining).length = remaining := by
  induction n generalizing currentAddress remaining with
  | zero =>
      obtain rfl : remaining = 0 := by omega
      rfl
  | succ n ih =>
      rw [writtenAt]
      split
      · rename_i hzero
        simp [hzero]
      · rename_i hne
        have hpos := bytesToWrite_pos h.pageSize currentAddress (Nat.pos_of_ne_zero hne)
        have hle := bytesToWrite_le h.pageSize currentAddress remaining
        simp only [List.length_append, List.length_iterate]
        rw [ih (by omega)]
        omega

/-- A turn writes its page. -/
theorem serves_page_iff {eeprom : EepromType} {d d' : Device} {address : UInt16}
    {data : List UInt8} {log : List (Event I2cOp.Ans)} :
    Serves eeprom d (addressSent eeprom address true :: dataSent eeprom data true ::
        delayed eeprom :: log) d' ↔
      Serves eeprom
        ((d.receive eeprom .start (addrBuf eeprom address)).receive eeprom .resume data)
        log d' := by
  constructor
  · intro h
    cases h with
    | tx _ _ _ _ h =>
        cases h with
        | tx _ _ _ _ h =>
            cases h with
            | delay _ h => exact h
  · intro h
    exact .tx _ _ _ _ (.tx _ _ _ _ (.delay _ h))

/-- **What a write does to the memory**: by induction on the turns of its loop, the bytes go
where `writtenAt` says. -/
theorem mem_of_loop {eeprom : EepromType} (h : Accepted eeprom) {n : ℕ}
    {currentAddress : UInt16} {data : List UInt8} {log : List (Event I2cOp.Ans)}
    {d d' : Device}
    (hloop : Prog.Exec (Prog.iter (writeChunk eeprom) n (currentAddress, data)) log (.ok .ok))
    (hserves : Serves eeprom d log d') :
    d'.mem = writeAll ((writtenAt eeprom n currentAddress data.length).zip data) d.mem := by
  induction n generalizing currentAddress data log d with
  | zero => simp [Prog.iter] at hloop
  | succ n ih =>
      rw [writtenAt]
      by_cases hdata : data = []
      · subst hdata
        obtain rfl := exec_loop_nil_iff.mp hloop
        cases hserves
        rfl
      · rw [if_neg (by simpa using hdata)]
        obtain ⟨-, rest, rfl, hrest⟩ := (exec_loop_iff hdata).mp hloop
        have hmem := ih hrest (serves_page_iff.mp hserves)
        rw [receive_addrBuf h, receive_data rfl, List.length_drop] at hmem
        have hlen : (data.take (bytesToWrite eeprom currentAddress data.length)).length =
            bytesToWrite eeprom currentAddress data.length := by
          rw [List.length_take]
          exact Nat.min_eq_left (bytesToWrite_le h.pageSize currentAddress data.length)
        rw [hlen, ← writeAll_append, ← List.zip_append (by rw [List.length_iterate, hlen]),
          List.take_append_drop] at hmem
        exact hmem

/-- Every write can succeed. -/
theorem exists_loop {eeprom : EepromType} (h : Accepted eeprom)
    (hcurrent : (busHandle eeprom).current = true) {n : ℕ} (currentAddress : UInt16)
    (data : List UInt8) (hn : data.length < n) (d : Device) :
    ∃ log d', Prog.Exec (Prog.iter (writeChunk eeprom) n (currentAddress, data)) log (.ok .ok) ∧
      Serves eeprom d log d' := by
  induction n generalizing currentAddress data d with
  | zero => omega
  | succ n ih =>
      by_cases hdata : data = []
      · subst hdata
        exact ⟨[], d, exec_loop_nil_iff.mpr rfl, .nil d⟩
      · have hpos := bytesToWrite_pos h.pageSize currentAddress (List.length_pos_iff.mpr hdata)
        have hless : (data.drop (bytesToWrite eeprom currentAddress data.length)).length < n := by
          have hlen := List.length_pos_iff.mpr hdata
          rw [List.length_drop]
          omega
        obtain ⟨log, d', hrest, hserves⟩ := ih _ _ hless _
        exact ⟨_, d', (exec_loop_iff hdata).mpr ⟨hcurrent, log, rfl, hrest⟩,
          serves_page_iff.mpr hserves⟩

/-! ## Pages that can be named -/

/-- The address of the last page of a write, or of the write itself if it begins there. -/
def lastPage (eeprom : EepromType) (address size : ℕ) : ℕ :=
  max address ((address + size - 1) / eeprom.pageSize.toNat * eeprom.pageSize.toNat)

/-- The first byte of a page goes where the address sent says. -/
theorem wireAddress_ofNat {eeprom : EepromType} (h : Accepted eeprom) (a : ℕ) :
    wireAddress eeprom (UInt16.ofNat a) = a % 256 ^ eeprom.addressSize.toNat := by
  rw [wireAddress, UInt16.toNat_ofNat']
  rcases h.addressSize with hsize | hsize
  · rw [hsize]
    exact Nat.mod_mod_of_dvd a (by decide)
  · rw [hsize]
    exact Nat.mod_mod_of_dvd a (by decide)

theorem writtenAt_zero (eeprom : EepromType) (n : ℕ) (currentAddress : UInt16) :
    writtenAt eeprom n currentAddress 0 = [] := by
  cases n <;> rfl

/-- How many bytes a turn writes that starts below the top. -/
theorem bytesToWrite_ofNat {eeprom : EepromType} (h : Accepted eeprom) {a : ℕ}
    (ha : a < 256 ^ eeprom.addressSize.toNat) (remaining : ℕ) :
    bytesToWrite eeprom (UInt16.ofNat a) remaining =
      min remaining (eeprom.pageSize.toNat - a % eeprom.pageSize.toNat) := by
  have htop : 256 ^ eeprom.addressSize.toNat ≤ 2 ^ 16 := by
    rcases h.addressSize with hsize | hsize
    · rw [hsize]
      decide
    · rw [hsize]
      decide
  have haddress : (UInt16.ofNat a).toNat = a := by
    rw [UInt16.toNat_ofNat']
    exact Nat.mod_eq_of_lt (by omega)
  rw [bytesToWrite_eq h.pageSize, haddress]

/-- The next page of a write has the same last page. -/
theorem lastPage_next {eeprom : EepromType} (h : Accepted eeprom) {a size : ℕ}
    (hmore : eeprom.pageSize.toNat - a % eeprom.pageSize.toNat < size) :
    lastPage eeprom (a + (eeprom.pageSize.toNat - a % eeprom.pageSize.toNat))
        (size - (eeprom.pageSize.toNat - a % eeprom.pageSize.toNat)) =
      lastPage eeprom a size := by
  have hmod := Nat.mod_lt a h.pageSize_pos
  have hdiv := Nat.div_add_mod' a eeprom.pageSize.toNat
  have hnext : a + (eeprom.pageSize.toNat - a % eeprom.pageSize.toNat) =
      (a / eeprom.pageSize.toNat + 1) * eeprom.pageSize.toNat := by
    rw [Nat.add_mul]
    omega
  have hend : a + (eeprom.pageSize.toNat - a % eeprom.pageSize.toNat) +
      (size - (eeprom.pageSize.toNat - a % eeprom.pageSize.toNat)) - 1 = a + size - 1 := by
    omega
  have hle : (a / eeprom.pageSize.toNat + 1) * eeprom.pageSize.toNat ≤
      (a + size - 1) / eeprom.pageSize.toNat * eeprom.pageSize.toNat := by
    apply Nat.mul_le_mul_right
    rw [Nat.le_div_iff_mul_le h.pageSize_pos, ← hnext]
    omega
  rw [lastPage, lastPage, hend, hnext, Nat.max_eq_right hle, Nat.max_eq_right (by omega)]

/-- **In range**: where the last page can be named, a write goes to the bytes requested, one
after the other. -/
theorem writtenAt_eq_range' {eeprom : EepromType} (h : Accepted eeprom) {n a size : ℕ}
    (hn : size ≤ n) (htop : lastPage eeprom a size < 256 ^ eeprom.addressSize.toNat) :
    writtenAt eeprom n (UInt16.ofNat a) size = List.range' a size := by
  induction n generalizing a size with
  | zero =>
      obtain rfl : size = 0 := by omega
      rfl
  | succ n ih =>
      rw [writtenAt]
      split
      · rename_i hzero
        rw [hzero]
        rfl
      · rename_i hne
        have ha : a < 256 ^ eeprom.addressSize.toNat := by
          have := Nat.le_max_left a
            ((a + size - 1) / eeprom.pageSize.toNat * eeprom.pageSize.toNat)
          rw [lastPage] at htop
          omega
        have hmod := Nat.mod_lt a h.pageSize_pos
        simp only [bytesToWrite_ofNat h ha, wireAddress_ofNat h, Nat.mod_eq_of_lt ha,
          ← UInt16.ofNat_add]
        rw [iterate_nextInPage a _ (by omega)]
        by_cases hmore : eeprom.pageSize.toNat - a % eeprom.pageSize.toNat < size
        · rw [Nat.min_eq_right (by omega),
            ih (by omega) (by rw [lastPage_next h hmore]; exact htop), List.range'_append_1]
          congr 1
          omega
        · rw [Nat.min_eq_left (by omega), Nat.sub_self, writtenAt_zero, List.append_nil]

/-- **Cut off**: where it cannot, a write goes to bytes requested up to some page, and then
to where the rest of that page's address says. -/
theorem writtenAt_cut_off {eeprom : EepromType} (h : Accepted eeprom) {n a size : ℕ}
    (hn : size ≤ n) (hpos : 0 < size)
    (htop : 256 ^ eeprom.addressSize.toNat ≤ lastPage eeprom a size) :
    ∃ m rest, m < size ∧ 256 ^ eeprom.addressSize.toNat ≤ a + m ∧
      writtenAt eeprom n (UInt16.ofNat a) size =
        List.range' a m ++ ((a + m) % 256 ^ eeprom.addressSize.toNat) :: rest := by
  induction n generalizing a size with
  | zero => omega
  | succ n ih =>
      rw [writtenAt, if_neg (by omega)]
      by_cases ha : a < 256 ^ eeprom.addressSize.toNat
      · have hmod := Nat.mod_lt a h.pageSize_pos
        have hmore : eeprom.pageSize.toNat - a % eeprom.pageSize.toNat < size := by
          by_contra hlast
          have hdiv : (a + size - 1) / eeprom.pageSize.toNat = a / eeprom.pageSize.toNat := by
            rw [Nat.div_eq_iff h.pageSize_pos]
            have := Nat.div_add_mod' a eeprom.pageSize.toNat
            omega
          have hle := Nat.div_mul_le_self a eeprom.pageSize.toNat
          rw [lastPage, hdiv, Nat.max_eq_left hle] at htop
          omega
        obtain ⟨m, rest, hm, htopm, hrest⟩ := @ih
          (a + (eeprom.pageSize.toNat - a % eeprom.pageSize.toNat))
          (size - (eeprom.pageSize.toNat - a % eeprom.pageSize.toNat))
          (by omega) (by omega) (by rw [lastPage_next h hmore]; exact htop)
        refine ⟨eeprom.pageSize.toNat - a % eeprom.pageSize.toNat + m, rest, by omega, by omega, ?_⟩
        simp only [bytesToWrite_ofNat h ha, wireAddress_ofNat h, Nat.mod_eq_of_lt ha,
          ← UInt16.ofNat_add]
        rw [iterate_nextInPage a _ (by omega), Nat.min_eq_right (by omega), hrest,
          ← List.append_assoc, List.range'_append_1, Nat.add_assoc]
      · have hbytes := bytesToWrite_pos h.pageSize (UInt16.ofNat a) hpos
        obtain ⟨k, hk⟩ := Nat.exists_eq_succ_of_ne_zero (Nat.pos_iff_ne_zero.mp hbytes)
        simp only [wireAddress_ofNat h, hk, List.iterate, List.cons_append]
        exact ⟨0, _, hpos, Nat.not_lt.mp ha, rfl⟩

/-! ## Writing and reading back -/

/-- A write that succeeds ran its loop to the end. -/
theorem exec_eepromWrite_iff {eeprom : EepromType} {address : UInt16} {data : List UInt8}
    {log : List (Event I2cOp.Ans)} (hdata : data ≠ [])
    (hfits : address.toNat + data.length ≤ eeprom.size.toNat) :
    Prog.Exec (eepromWrite (some eeprom) address (some data)) log (.ok .ok) ↔
      Prog.Exec (Prog.iter (writeChunk eeprom) (data.length + 1) (address, data)) log
        (.ok .ok) := by
  rw [eepromWrite_eq hdata hfits]

/-- A read that succeeds got the bytes from the address sent on. -/
theorem exec_eepromRead_iff {eeprom : EepromType} {address : UInt16} {size : UInt32}
    {log : List (Event I2cOp.Ans)} {out : List UInt8} (hpos : 0 < size.toNat)
    (hfits : address.toNat + size.toNat ≤ eeprom.size.toNat) :
    Prog.Exec (eepromRead (some eeprom) address true size) log (.ok (.ok, out)) ↔
      (busHandle eeprom).current = true ∧
        log = [⟨.txExt eeprom.i2cAddress.toUInt16 false (addrBuf eeprom address) .start .stop
            eeprom.timeoutMs, true⟩,
          ⟨.rxExt eeprom.i2cAddress.toUInt16 false size .start .stop eeprom.timeoutMs,
            (true, out)⟩] := by
  have hsize := eeprom.size.toNat_lt
  have hle : ¬ address.toUInt32 + size > eeprom.size := by
    rw [gt_iff_lt, UInt32.lt_iff_toNat_lt, UInt32.toNat_add, UInt16.toNat_toUInt32]
    omega
  have hne : ¬ (true = false ∨ size = 0) := by
    rintro (h | rfl)
    · cases h
    · simp at hpos
  rw [eepromRead, if_neg hne, if_neg hle]
  simp only [Prog.exec_bind_ok_iff, exec_rhsHalI2cTrx_iff, Prog.pure_eq, Prog.exec_ret_iff]
  constructor
  · rintro ⟨⟨success, bytes⟩, l₁, l₂, ⟨hcurrent, tx, rx, hr, rfl⟩, ⟨rfl, hret⟩, rfl⟩
    obtain ⟨hstatus, rfl⟩ := Prod.mk.inj (Except.ok.inj hret)
    have hsuccess : success = true := by
      by_contra hfailed
      rw [if_neg hfailed] at hstatus
      cases hstatus
    obtain ⟨rfl, -⟩ := Prod.mk.inj hr
    obtain ⟨rfl, rfl⟩ := Bool.and_eq_true_iff.mp hsuccess
    exact ⟨hcurrent, rfl⟩
  · rintro ⟨hcurrent, rfl⟩
    exact ⟨(true, out), _, [], ⟨hcurrent, true, true, rfl, rfl⟩, ⟨rfl, rfl⟩, rfl⟩

/-- What a read gets. -/
def readBack (eeprom : EepromType) (address : UInt16) (size : ℕ) (mem : ℕ → UInt8) : List UInt8 :=
  (List.range size).map fun i => mem ((wireAddress eeprom address + i) % eeprom.size.toNat)

theorem out_of_read {eeprom : EepromType} (h : Accepted eeprom) {address : UInt16}
    {size : UInt32} {out : List UInt8} {d d' : Device}
    (hserves : Serves eeprom d
      [⟨.txExt eeprom.i2cAddress.toUInt16 false (addrBuf eeprom address) .start .stop
          eeprom.timeoutMs, true⟩,
        ⟨.rxExt eeprom.i2cAddress.toUInt16 false size .start .stop eeprom.timeoutMs,
          (true, out)⟩] d') :
    out = readBack eeprom address size.toNat d.mem := by
  cases hserves with
  | tx _ _ _ _ h' =>
      rw [receive_addrBuf h] at h'
      cases h' with
      | rx _ _ _ _ h' => rfl

/-- Every read can succeed. -/
theorem exists_read {eeprom : EepromType} (h : Accepted eeprom)
    (hcurrent : (busHandle eeprom).current = true) (address : UInt16) (size : UInt32)
    (hpos : 0 < size.toNat) (hfits : address.toNat + size.toNat ≤ eeprom.size.toNat)
    (d : Device) :
    ∃ log d', Prog.Exec (eepromRead (some eeprom) address true size) log
        (.ok (.ok, readBack eeprom address size.toNat d.mem)) ∧ Serves eeprom d log d' := by
  have hsend : ∃ d', Serves eeprom (d.receive eeprom .start (addrBuf eeprom address))
      [⟨.rxExt eeprom.i2cAddress.toUInt16 false size .start .stop eeprom.timeoutMs,
        (true, readBack eeprom address size.toNat d.mem)⟩] d' := by
    rw [receive_addrBuf h]
    exact ⟨_, .rx _ _ _ _ (.nil _)⟩
  obtain ⟨d', hd'⟩ := hsend
  exact ⟨_, d', (exec_eepromRead_iff hpos hfits).mpr ⟨hcurrent, rfl⟩, .tx _ _ _ _ hd'⟩

/-- **The round trip**: on every bus on which successful transfers reach the device, a
successful write leaves the other bytes as they were, and a successful read after it gets
the data. -/
def RoundTrips (eeprom : EepromType) (address : UInt16) (data : List UInt8) : Prop :=
  ∀ log d d', Prog.Exec (eepromWrite (some eeprom) address (some data)) log (.ok .ok) →
    Serves eeprom d log d' →
      (∀ i < eeprom.size.toNat, i < address.toNat ∨ address.toNat + data.length ≤ i →
        d'.mem i = d.mem i) ∧
      ∀ log' d'' out,
        Prog.Exec (eepromRead (some eeprom) address true (UInt32.ofNat data.length)) log'
          (.ok (.ok, out)) → Serves eeprom d' log' d'' → out = data

/-- The positions a write writes to. -/
def positions (eeprom : EepromType) (address : UInt16) (size : ℕ) : List ℕ :=
  writtenAt eeprom (size + 1) address size

theorem map_fst_zip_positions (h : Accepted eeprom) (address : UInt16) (data : List UInt8) :
    ((positions eeprom address data.length).zip data).map Prod.fst =
      positions eeprom address data.length :=
  List.map_fst_zip (by rw [positions, length_writtenAt h (by omega)])

/-- A successful write, seen from outside. -/
theorem mem_of_write (h : Accepted eeprom) (hdata : data ≠ [])
    (hfits : address.toNat + data.length ≤ eeprom.size.toNat) {log : List (Event I2cOp.Ans)}
    {d d' : Device}
    (hwrite : Prog.Exec (eepromWrite (some eeprom) address (some data)) log (.ok .ok))
    (hserves : Serves eeprom d log d') :
    d'.mem = writeAll ((positions eeprom address data.length).zip data) d.mem :=
  mem_of_loop h ((exec_eepromWrite_iff hdata hfits).mp hwrite) hserves

/-- From any memory a write can succeed. -/
theorem exists_write (h : Accepted eeprom) (hcurrent : (busHandle eeprom).current = true)
    (address : UInt16) (hdata : data ≠ []) (hfits : address.toNat + data.length ≤ eeprom.size.toNat)
    (mem : ℕ → UInt8) :
    ∃ log d d', d.mem = mem ∧
      Prog.Exec (eepromWrite (some eeprom) address (some data)) log (.ok .ok) ∧
      Serves eeprom d log d' := by
  obtain ⟨log, d', hloop, hserves⟩ := exists_loop h hcurrent address data
    (Nat.lt_succ_self data.length)
    { mem := mem, pointer := 0, received := 0 }
  exact ⟨log, _, d', rfl, (exec_eepromWrite_iff hdata hfits).mpr hloop, hserves⟩

/-- Bytes one after the other: what was written there is read back, and the rest is left. -/
theorem roundTrips_of_positions (h : Accepted eeprom) (hdata : data ≠ [])
    (hfits : address.toNat + data.length ≤ eeprom.size.toNat)
    (haddress : address.toNat < 256 ^ eeprom.addressSize.toNat)
    (hpositions : positions eeprom address data.length =
      List.range' address.toNat data.length) : RoundTrips eeprom address data := by
  intro log d d' hwrite hserves
  have hmem := mem_of_write h hdata hfits hwrite hserves
  have hkeys := map_fst_zip_positions h address data
  rw [hpositions] at hmem hkeys
  constructor
  · intro i _ hout
    rw [hmem]
    apply writeAll_of_not_mem
    rw [hkeys, List.mem_range'_1]
    omega
  · intro log' d'' out hread hserves'
    have hsize := eeprom.size.toNat_lt
    have hpos := List.length_pos_iff.mpr hdata
    have hlen : (UInt32.ofNat data.length).toNat = data.length := by
      rw [UInt32.toNat_ofNat']
      exact Nat.mod_eq_of_lt (by omega)
    obtain ⟨-, rfl⟩ := (exec_eepromRead_iff (by omega) (by omega)).mp hread
    rw [out_of_read h hserves', readBack, hlen]
    apply List.ext_getElem
    · simp
    · intro i hi hi'
      simp only [List.getElem_map, List.getElem_range]
      rw [wireAddress, Nat.mod_eq_of_lt haddress, Nat.mod_eq_of_lt (by omega), hmem]
      apply writeAll_of_nodup
      · rw [hkeys]
        exact List.nodup_range'
      · rw [List.mem_iff_getElem]
        exact ⟨i, by simpa using hi', by simp⟩

/-- A byte outside the range that is written to has changed from some memory. -/
theorem not_roundTrips_of_outside (h : Accepted eeprom)
    (hcurrent : (busHandle eeprom).current = true) (hdata : data ≠ [])
    (hfits : address.toNat + data.length ≤ eeprom.size.toNat) {p : ℕ}
    (hp : p ∈ positions eeprom address data.length) (hlow : p < address.toNat) :
    ¬ RoundTrips eeprom address data := by
  intro hround
  let kvs := (positions eeprom address data.length).zip data
  -- whatever the memory was, the byte becomes the same; so take one in which it was another
  let v := writeAll kvs (fun _ => 0) p
  obtain ⟨log, d, d', hd, hwrite, hserves⟩ :=
    exists_write h hcurrent address hdata hfits fun _ => v + 1
  have hkept := (hround log d d' hwrite hserves).1 p (by omega) (.inl hlow)
  have hp' : p ∈ kvs.map Prod.fst := by
    rw [map_fst_zip_positions h]
    exact hp
  have hwritten : d'.mem p = v := by
    rw [mem_of_write h hdata hfits hwrite hserves]
    exact writeAll_congr_of_mem hp' _ _
  rw [hwritten, hd] at hkept
  simp at hkept

/-- A byte of the range that is not written to is not read back, from some memory. -/
theorem not_roundTrips_of_missing (h : Accepted eeprom)
    (hcurrent : (busHandle eeprom).current = true) (hdata : data ≠ [])
    (hfits : address.toNat + data.length ≤ eeprom.size.toNat)
    (haddress : address.toNat < 256 ^ eeprom.addressSize.toNat) {i : ℕ} (hi : i < data.length)
    (hmissing : address.toNat + i ∉ positions eeprom address data.length) :
    ¬ RoundTrips eeprom address data := by
  intro hround
  obtain ⟨log, d, d', hd, hwrite, hserves⟩ :=
    exists_write h hcurrent address hdata hfits fun _ => data[i] + 1
  have hsize := eeprom.size.toNat_lt
  have hlen : (UInt32.ofNat data.length).toNat = data.length := by
    rw [UInt32.toNat_ofNat']
    exact Nat.mod_eq_of_lt (by omega)
  obtain ⟨log', d'', hread, hserves'⟩ := exists_read h hcurrent address
    (UInt32.ofNat data.length) (by omega) (by omega) d'
  have hout := (hround log d d' hwrite hserves).2 log' d'' _ hread hserves'
  have hbyte : d'.mem (address.toNat + i) = data[i] := by
    have hget := congrArg (fun bytes => bytes[i]?) hout
    simp only [readBack, hlen, List.getElem?_map, List.getElem?_range hi, Option.map_some,
      wireAddress, Nat.mod_eq_of_lt haddress, List.getElem?_eq_getElem hi,
      Option.some.injEq] at hget
    rwa [Nat.mod_eq_of_lt (by omega)] at hget
  have hold : d'.mem (address.toNat + i) = data[i] + 1 := by
    rw [mem_of_write h hdata hfits hwrite hserves, writeAll_of_not_mem, hd]
    rw [map_fst_zip_positions h]
    exact hmissing
  rw [hold] at hbyte
  simp at hbyte

/-- As many positions as bytes: if one is written twice, some byte is not written. -/
theorem exists_missing (h : Accepted eeprom)
    (hdup : ¬ (positions eeprom address data.length).Nodup) :
    ∃ i < data.length, address.toNat + i ∉ positions eeprom address data.length := by
  by_contra hall
  simp only [not_exists, not_and, not_not] at hall
  have hsub : List.range' address.toNat data.length ⊆ positions eeprom address data.length := by
    intro p hp
    rw [List.mem_range'_1] at hp
    have hi := hall (p - address.toNat) (by omega)
    rwa [Nat.add_sub_cancel' hp.1] at hi
  have hperm := (List.subperm_of_subset List.nodup_range' hsub).perm_of_length_le (by
    rw [positions, length_writtenAt h (by omega), List.length_range'])
  exact hdup (hperm.nodup_iff.mp List.nodup_range')

/-- **What is written can be read back**, and nothing else has changed, exactly if the
address of the last page fits into the address bytes.  (On a bus that is not acquired the
assertion fails, and no write returns.) -/
theorem roundTrips_iff (hinit : eepromInit (some eeprom) = .ok) (hdata : data ≠ [])
    (hfits : address.toNat + data.length ≤ eeprom.size.toNat) :
    RoundTrips eeprom address data ↔
      (busHandle eeprom).current = false ∨
        lastPage eeprom address.toNat data.length < 256 ^ eeprom.addressSize.toNat := by
  have h := accepted_of_init hinit
  have hpos := List.length_pos_iff.mpr hdata
  constructor
  · intro hround
    by_contra hnot
    rw [not_or, Bool.not_eq_false, Nat.not_lt] at hnot
    obtain ⟨hcurrent, htop⟩ := hnot
    obtain ⟨m, rest, hm, htopm, hpositions⟩ := writtenAt_cut_off h
      (n := data.length + 1) (a := address.toNat) (by omega) hpos htop
    rw [UInt16.ofNat_toNat] at hpositions
    have hcut : (address.toNat + m) % 256 ^ eeprom.addressSize.toNat <
        256 ^ eeprom.addressSize.toNat := Nat.mod_lt _ (Nat.pow_pos (by decide))
    by_cases hlow : (address.toNat + m) % 256 ^ eeprom.addressSize.toNat < address.toNat
    · refine not_roundTrips_of_outside h hcurrent hdata hfits ?_ hlow hround
      rw [positions, hpositions]
      simp
    · -- the page is written over one before it, so some byte is not written at all
      have hdup : ¬ (positions eeprom address data.length).Nodup := by
        rw [positions, hpositions, List.nodup_append]
        rintro ⟨-, -, hdisjoint⟩
        refine hdisjoint _ ?_ _ (List.mem_cons_self ..) rfl
        rw [List.mem_range'_1]
        omega
      obtain ⟨i, hi, hmissing⟩ := exists_missing h hdup
      exact not_roundTrips_of_missing h hcurrent hdata hfits (by omega) hi hmissing hround
  · rintro (hcurrent | htop)
    · intro log d d' hwrite
      have hloop := (exec_eepromWrite_iff hdata hfits).mp hwrite
      rw [exec_loop_iff hdata, hcurrent] at hloop
      cases hloop.1
    · have haddress : address.toNat < 256 ^ eeprom.addressSize.toNat :=
        Nat.lt_of_le_of_lt (Nat.le_max_left _ _) htop
      apply roundTrips_of_positions h hdata hfits haddress
      have hrange := writtenAt_eq_range' h (n := data.length + 1) (by omega) htop
      rwa [UInt16.ofNat_toNat] at hrange

/-- A device with more bytes than its one address byte can name. -/
def largeEeprom : EepromType :=
  { i2cHandle := some ⟨true⟩, i2cAddress := 0x50, size := 512, pageSize := 8, addressSize := 1,
    writeDelayMs := 5, timeoutMs := 100 }

/-- A byte written at 256 lands at 0. -/
theorem cut_off_address_not_roundTrips : eepromInit (some largeEeprom) = .ok ∧
    ¬ RoundTrips largeEeprom 256 [1] := by
  have hinit : eepromInit (some largeEeprom) = .ok := rfl
  refine ⟨hinit, ?_⟩
  exact not_roundTrips_of_outside (p := 0) (accepted_of_init hinit) rfl (by simp) (by decide)
    (by decide) (by decide)

/-- Four bytes across the end of a page of the same device. -/
theorem page_crossing_roundTrips : RoundTrips largeEeprom 6 [1, 2, 3, 4] :=
  (roundTrips_iff rfl (by simp) (by decide)).mpr (.inr (by decide))

end RhsCore.Eeprom
