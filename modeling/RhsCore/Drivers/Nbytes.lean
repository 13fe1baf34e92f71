import RhsCore.Drivers.RoundTrip
import RhsCore.Hal.I2cNbytes

/-!
# The lengths of the EEPROM's transfers

A read is one transfer of all the bytes, and a write one of all the bytes of a page.  The
length field of the peripheral has 8 bits, and neither the driver nor the calls below it
look at that.

## Main definitions

* `TransfersFit` — every transfer that a program starts has a length that fits.
* `InNbytes` — no page of a write gets more than 255 bytes.
* `transfersFit_iff` — when the transfers of a read and of a write fit.
-/

namespace RhsCore.Eeprom

open Prog I2cBus
open Cortex (Board Admitted)

/-- On this board, every transfer that the program starts fits. -/
def TransfersFit {α : Type} (board : Board) (p : I2c α) : Prop :=
  ∀ bound, (p.interp (perform board bound)).Uses FitsNbytes

variable {board : Board} {eeprom : EepromType} {address : UInt16} {data : List UInt8}

/-! ## What the driver sends -/

/-- An operation of the driver, with the timeout of the device, and so many bytes. -/
def Sends (eeprom : EepromType) (P : ℕ → Prop) : I2cOp → Prop
  | .txExt _ _ data _ _ timeout => timeout = eeprom.timeoutMs ∧ P data.length
  | .rxExt _ _ size _ _ timeout => timeout = eeprom.timeoutMs ∧ P size.toNat
  | .delayMs _ => True

/-- A program that sends only what fits, or whose timer is refused. -/
theorem transfersFit_of_uses {α : Type} {p : I2c α} (eeprom : EepromType)
    (h : p.Uses (Sends eeprom fun n => Admitted board eeprom.timeoutMs → 1 ≤ n ∧ n ≤ 255)) :
    TransfersFit board p := by
  intro bound
  refine h.interp fun o ho => fitsNbytes_perform ?_ ?_
  · rintro address tenBit data begins ends timeout rfl
    obtain ⟨rfl, hlength⟩ := ho
    exact hlength
  · rintro address tenBit size begins ends timeout rfl
    obtain ⟨rfl, hlength⟩ := ho
    exact hlength

theorem uses_rhsHalI2cTxExt {allowed : I2cOp → Prop} {handle : RHSHalI2cBusHandle}
    {slave : UInt16} {tenBit : Bool} {data : List UInt8} {begins : RHSHalI2cBegin}
    {ends : RHSHalI2cEnd} {timeout : UInt32}
    (h : handle.current = true → allowed (.txExt slave tenBit data begins ends timeout)) :
    (rhsHalI2cTxExt handle slave tenBit data begins ends timeout).Uses allowed := by
  rw [rhsHalI2cTxExt, rhsAssert]
  split
  · rename_i hcurrent
    exact ⟨h hcurrent, fun _ => uses_ret⟩
  · trivial

theorem uses_rhsHalI2cRxExt {allowed : I2cOp → Prop} {handle : RHSHalI2cBusHandle}
    {slave : UInt16} {tenBit : Bool} {size : UInt32} {begins : RHSHalI2cBegin}
    {ends : RHSHalI2cEnd} {timeout : UInt32}
    (h : handle.current = true → allowed (.rxExt slave tenBit size begins ends timeout)) :
    (rhsHalI2cRxExt handle slave tenBit size begins ends timeout).Uses allowed := by
  rw [rhsHalI2cRxExt, rhsAssert]
  split
  · rename_i hcurrent
    exact ⟨h hcurrent, fun _ => uses_ret⟩
  · trivial

/-- The address has one byte or two. -/
theorem length_addrBuf (eeprom : EepromType) (address : UInt16) :
    1 ≤ (addrBuf eeprom address).length ∧ (addrBuf eeprom address).length ≤ 2 := by
  rw [addrBuf]
  split <;> simp

/-- **The loop of a write** sends addresses and chunks: by induction on its turns. -/
theorem uses_loop {P : ℕ → Prop} (haddress : ∀ a, P (addrBuf eeprom a).length) {n : ℕ}
    {currentAddress : UInt16} {currentData : List UInt8}
    (hchunks : (busHandle eeprom).current = true →
      ∀ c ∈ chunks eeprom n currentAddress currentData, P c.data.length) :
    (iter (writeChunk eeprom) n (currentAddress, currentData)).Uses (Sends eeprom P) := by
  induction n generalizing currentAddress currentData with
  | zero => trivial
  | succ n ih =>
      rw [iter]
      by_cases hdata : currentData = []
      · rw [hdata]
        trivial
      rw [chunks, if_neg hdata] at hchunks
      have hfirst := fun hcurrent => hchunks hcurrent _ List.mem_cons_self
      refine Uses.bind ?_ fun log v hturn => ?_
      · obtain ⟨b, rest, rfl⟩ := List.exists_cons_of_ne_nil hdata
        refine Uses.bind ?_ fun _ success _ => ?_
        · refine Uses.bind (uses_rhsHalI2cTxExt fun _ => ⟨rfl, haddress _⟩) fun _ sent _ => ?_
          split
          · exact uses_rhsHalI2cTxExt fun hcurrent => ⟨rfl, hfirst hcurrent⟩
          · exact uses_ret
        · split
          · exact uses_ret
          · exact ⟨trivial, fun _ => uses_ret⟩
      · rw [exec_writeChunk_iff hdata] at hturn
        rcases hturn with ⟨-, ⟨-, rfl⟩ | ⟨-, rfl⟩ | ⟨-, rfl⟩⟩
        · exact ih fun hcurrent c hc => hchunks hcurrent c (List.mem_cons_of_mem _ hc)
        · trivial
        · trivial

/-! ## What can be sent -/

/-- Every chunk is a part of the data, and of a page. -/
theorem length_of_mem_chunks (hpage : eeprom.pageSize ≠ 0) {n : ℕ} {currentAddress : UInt16}
    {currentData : List UInt8} {c : Chunk} (hc : c ∈ chunks eeprom n currentAddress currentData) :
    0 < c.data.length ∧ c.data.length ≤ min currentData.length eeprom.pageSize.toNat := by
  induction n generalizing currentAddress currentData with
  | zero => simp [chunks] at hc
  | succ n ih =>
      rw [chunks] at hc
      split at hc
      · simp at hc
      · rename_i hdata
        rcases List.mem_cons.mp hc with rfl | hc
        · have hpos := bytesToWrite_pos hpage currentAddress (List.length_pos_iff.mpr hdata)
          have hbytes := bytesToWrite_eq hpage currentAddress currentData.length
          rw [List.length_take]
          omega
        · have hrest := ih hc
          rw [List.length_drop] at hrest
          omega

/-- A turn that writes a chunk can be performed. -/
theorem exists_perform (hadmitted : Admitted board eeprom.timeoutMs) {c : Chunk} {bound : ℕ}
    (hlength : c.data.length < 2 ^ 32) (hbound : c.data.length < bound) (hbound' : 2 < bound) :
    ∀ e ∈ c.written eeprom, ∃ l, Exec (perform board bound e.1) l (.ok e.2) := by
  have haddress := (length_addrBuf eeprom c.address).2
  rw [Chunk.written]
  refine List.forall_mem_cons.mpr ⟨?_, List.forall_mem_cons.mpr ⟨?_, ?_⟩⟩
  · exact exists_txExt hadmitted (by omega) (by omega)
  · exact exists_txExt hadmitted hlength hbound
  · obtain ⟨b, rfl⟩ := Nat.exists_eq_succ_of_ne_zero (Nat.ne_zero_of_lt hbound')
    have hshort : eeprom.writeDelayMs.toUInt32.toNat ≤ 255 := by
      rw [UInt8.toNat_toUInt32]
      exact Nat.le_of_lt_succ eeprom.writeDelayMs.toNat_lt
    obtain ⟨log, hdelay⟩ := Cortex.exists_rhsDelayMs (hadmitted.short hshort) b
    exact List.forall_mem_singleton.mpr ⟨_, exec_cortex hdelay⟩

/-- **If what a write starts fits, each of its chunks does.** -/
theorem length_le_of_transfersFit (hpage : eeprom.pageSize ≠ 0) (hdata : data ≠ [])
    (hfits : address.toNat + data.length ≤ eeprom.size.toNat)
    (hcurrent : (busHandle eeprom).current = true) (hadmitted : Admitted board eeprom.timeoutMs)
    (h : TransfersFit board (eepromWrite (some eeprom) address (some data))) :
    ∀ c ∈ chunks eeprom (data.length + 1) address data, c.data.length ≤ 255 := by
  intro c hc
  have hsize := eeprom.size.toNat_lt
  let log := (chunks eeprom (data.length + 1) address data).flatMap (Chunk.written eeprom)
  have hexec : Exec (eepromWrite (some eeprom) address (some data)) log (.ok .ok) := by
    rw [eepromWrite_eq hdata hfits, exec_loop_ok_iff hpage hcurrent (Nat.lt_succ_self _)]
  have hperform : ∀ e ∈ log, ∃ l, Exec (perform board (data.length + 3) e.1) l (.ok e.2) := by
    intro e he
    obtain ⟨c, hc, he⟩ := List.mem_flatMap.mp he
    have hle := (length_of_mem_chunks hpage hc).2
    exact exists_perform hadmitted (by omega) (by omega) (by omega) e he
  obtain ⟨log', hlog'⟩ := exists_expands hperform
  have hmem : dataSent eeprom c.data true ∈ log :=
    List.mem_flatMap.mpr ⟨c, hc, List.mem_cons_of_mem _ List.mem_cons_self⟩
  obtain ⟨l, hl, hsub⟩ := hlog'.exists_of_mem hmem
  obtain ⟨e, he, hstarted⟩ := transferSize_of_txExt hl
  have hnbytes := (h _).of_mem (exec_interp_ok_iff.mpr ⟨log, hexec, hlog'⟩) e (hsub he) _ hstarted
  have hle := (length_of_mem_chunks hpage hc).2
  rw [UInt32.toNat_ofNat', Nat.mod_eq_of_lt (by omega)] at hnbytes
  exact hnbytes.2

/-- **The chunks of a write fit**, or nothing is started, exactly if what it starts fits. -/
theorem transfersFit_eepromWrite_iff (hpage : eeprom.pageSize ≠ 0) (hdata : data ≠ [])
    (hfits : address.toNat + data.length ≤ eeprom.size.toNat) :
    TransfersFit board (eepromWrite (some eeprom) address (some data)) ↔
      (busHandle eeprom).current = false ∨ ¬ Admitted board eeprom.timeoutMs ∨
        ∀ c ∈ chunks eeprom (data.length + 1) address data, c.data.length ≤ 255 := by
  constructor
  · intro h
    by_cases hcurrent : (busHandle eeprom).current = true
    · by_cases hadmitted : Admitted board eeprom.timeoutMs
      · exact .inr (.inr (length_le_of_transfersFit hpage hdata hfits hcurrent hadmitted h))
      · exact .inr (.inl hadmitted)
    · exact .inl (Bool.eq_false_iff.mpr hcurrent)
  · intro h
    refine transfersFit_of_uses eeprom ?_
    rw [eepromWrite_eq hdata hfits]
    apply uses_loop
    · intro a _
      have hlength := length_addrBuf eeprom a
      omega
    · intro hcurrent c hc hadmitted
      rw [hcurrent] at h
      have hle := (h.resolve_left (by decide)).resolve_left (not_not_intro hadmitted) c hc
      exact ⟨(length_of_mem_chunks hpage hc).1, hle⟩

/-- **If what a read starts fits, all its bytes do**, which it asks for at once. -/
theorem size_le_of_transfersFit {size : UInt32} (hpos : 0 < size.toNat)
    (hfits : address.toNat + size.toNat ≤ eeprom.size.toNat)
    (hcurrent : (busHandle eeprom).current = true) (hadmitted : Admitted board eeprom.timeoutMs)
    (h : TransfersFit board (eepromRead (some eeprom) address true size)) :
    size.toNat ≤ 255 := by
  have haddress := (length_addrBuf eeprom address).2
  have hsend : ∃ l, Exec (perform board (size.toNat + 3) (.txExt eeprom.i2cAddress.toUInt16 false
      (addrBuf eeprom address) .start .stop eeprom.timeoutMs)) l (.ok true) :=
    exists_txExt hadmitted (by omega) (by omega)
  have hreceive : ∃ l out, Exec (perform board (size.toNat + 3)
      (.rxExt eeprom.i2cAddress.toUInt16 false size .start .stop eeprom.timeoutMs)) l
      (.ok (true, out)) := exists_rxExt hadmitted (by omega)
  obtain ⟨l₁, haddr⟩ := hsend
  obtain ⟨l₂, out, hbytes⟩ := hreceive
  have hlow := exec_interp_ok_iff.mpr ⟨_, (exec_eepromRead_iff hpos hfits).mpr ⟨hcurrent, rfl⟩,
    Expands.cons haddr (.cons hbytes .nil)⟩
  obtain ⟨e, he, hstarted⟩ := transferSize_of_rxExt hbytes
  have hmem : e ∈ l₁ ++ (l₂ ++ []) := by simp [he]
  exact ((h _).of_mem hlow e hmem _ hstarted).2

/-- A read sends its address, and asks for its bytes. -/
theorem uses_eepromRead {P : ℕ → Prop} {size : UInt32}
    (haddress : P (addrBuf eeprom address).length)
    (hsize : (busHandle eeprom).current = true → P size.toNat) :
    (eepromRead (some eeprom) address true size).Uses (Sends eeprom P) := by
  unfold eepromRead
  dsimp only
  split
  · exact uses_ret
  split
  · exact uses_ret
  refine Uses.bind ?_ fun _ _ _ => uses_ret
  refine Uses.bind (uses_rhsHalI2cTxExt fun _ => ⟨rfl, haddress⟩) fun _ _ _ => ?_
  exact Uses.bind (uses_rhsHalI2cRxExt fun hcurrent => ⟨rfl, hsize hcurrent⟩)
    fun _ _ _ => uses_ret

/-- **All the bytes of a read fit**, or nothing is started, exactly if what it starts fits. -/
theorem transfersFit_eepromRead_iff {size : UInt32} (hsize : size ≠ 0)
    (hfits : address.toNat + size.toNat ≤ eeprom.size.toNat) :
    TransfersFit board (eepromRead (some eeprom) address true size) ↔
      (busHandle eeprom).current = false ∨ ¬ Admitted board eeprom.timeoutMs ∨
        size.toNat ≤ 255 := by
  have hpos : 0 < size.toNat := by
    rw [ne_eq, ← UInt32.toNat_inj] at hsize
    exact Nat.pos_of_ne_zero hsize
  constructor
  · intro h
    by_cases hcurrent : (busHandle eeprom).current = true
    · by_cases hadmitted : Admitted board eeprom.timeoutMs
      · exact .inr (.inr (size_le_of_transfersFit hpos hfits hcurrent hadmitted h))
      · exact .inr (.inl hadmitted)
    · exact .inl (Bool.eq_false_iff.mpr hcurrent)
  · intro h
    refine transfersFit_of_uses eeprom ?_
    apply uses_eepromRead
    · intro _
      have hlength := length_addrBuf eeprom address
      omega
    · intro hcurrent hadmitted
      rw [hcurrent] at h
      exact ⟨hpos, (h.resolve_left (by decide)).resolve_left (not_not_intro hadmitted)⟩

/-! ## The pages of a write -/

/-- No chunk is longer, however many there are. -/
def ChunksAtMost (eeprom : EepromType) (m : ℕ) (currentAddress : UInt16)
    (currentData : List UInt8) : Prop :=
  ∀ n, ∀ c ∈ chunks eeprom n currentAddress currentData, c.data.length ≤ m

section

variable {currentAddress : UInt16} {currentData : List UInt8} {m : ℕ}

/-- More turns than bytes find no more chunks. -/
theorem chunks_subset (hpage : eeprom.pageSize ≠ 0) {n n' : ℕ} (hn : currentData.length < n') :
    chunks eeprom n currentAddress currentData ⊆ chunks eeprom n' currentAddress currentData := by
  induction n generalizing currentAddress currentData n' with
  | zero => simp [chunks]
  | succ n ih =>
      obtain ⟨k, rfl⟩ := Nat.exists_eq_succ_of_ne_zero (Nat.ne_zero_of_lt hn)
      rw [chunks, chunks]
      split
      · exact List.Subset.refl _
      · rename_i hdata
        have hlength := List.length_pos_iff.mpr hdata
        have hpos := bytesToWrite_pos hpage currentAddress hlength
        apply List.cons_subset_cons
        apply ih
        rw [List.length_drop]
        omega

theorem chunksAtMost_iff_forall (hpage : eeprom.pageSize ≠ 0) :
    ChunksAtMost eeprom m currentAddress currentData ↔
      ∀ c ∈ chunks eeprom (currentData.length + 1) currentAddress currentData,
        c.data.length ≤ m :=
  ⟨fun h => h _, fun h _ c hc => h c (chunks_subset hpage (Nat.lt_succ_self _) hc)⟩

theorem chunksAtMost_of_le (hpage : eeprom.pageSize ≠ 0)
    (h : min currentData.length eeprom.pageSize.toNat ≤ m) :
    ChunksAtMost eeprom m currentAddress currentData :=
  fun _ _ hc => Nat.le_trans (length_of_mem_chunks hpage hc).2 h

/-- The first chunk, and the others. -/
theorem chunksAtMost_iff_first (hpage : eeprom.pageSize ≠ 0) {bytes : ℕ}
    (hbytes : bytesToWrite eeprom currentAddress currentData.length = bytes) :
    ChunksAtMost eeprom m currentAddress currentData ↔
      bytes ≤ m ∧
        ChunksAtMost eeprom m (currentAddress + UInt16.ofNat bytes) (currentData.drop bytes) := by
  have hle := bytesToWrite_le hpage currentAddress currentData.length
  rw [hbytes] at hle
  by_cases hdata : currentData = []
  · subst hdata
    have hnone (a : UInt16) : ChunksAtMost eeprom m a [] := chunksAtMost_of_le hpage (by simp)
    rw [Nat.le_zero.mp hle, List.drop_nil]
    exact iff_of_true (hnone _) ⟨Nat.zero_le m, hnone _⟩
  · have htake : (currentData.take bytes).length = bytes := by
      rw [List.length_take]
      exact Nat.min_eq_left hle
    have hcons (n : ℕ) : chunks eeprom (n + 1) currentAddress currentData =
        ⟨currentAddress, currentData.take bytes⟩ ::
          chunks eeprom n (currentAddress + UInt16.ofNat bytes) (currentData.drop bytes) := by
      rw [chunks, if_neg hdata, hbytes]
    constructor
    · intro h
      constructor
      · have hfirst := h 1 ⟨currentAddress, currentData.take bytes⟩ (by simp [hcons])
        rwa [htake] at hfirst
      · intro n c hc
        refine h (n + 1) c ?_
        rw [hcons]
        exact List.mem_cons_of_mem _ hc
    · rintro ⟨hfirst, hrest⟩ n c hc
      cases n with
      | zero => simp [chunks] at hc
      | succ n =>
          rw [hcons] at hc
          rcases List.mem_cons.mp hc with rfl | hc
          · rwa [htake]
          · exact hrest n c hc

end

/-- **No page gets more than 255 bytes.**  If pages are longer than that, the bytes up to the
end of the first page are at most 255, those that the next page takes are, and so are the
ones left then; the running address has 16 bits. -/
def InNbytes (pageSize address size : ℕ) : Prop :=
  pageSize ≤ 255 ∨
    let first := min size (pageSize - address % pageSize)
    let second := min (size - first) (pageSize - (address + first) % 2 ^ 16 % pageSize)
    first ≤ 255 ∧ second ≤ 255 ∧ size - first - second ≤ 255

instance (pageSize address size : ℕ) : Decidable (InNbytes pageSize address size) :=
  inferInstanceAs (Decidable (_ ∨ _))

theorem toNat_next (currentAddress : UInt16) (bytes : ℕ) :
    (currentAddress + UInt16.ofNat bytes).toNat = (currentAddress.toNat + bytes) % 2 ^ 16 := by
  rw [UInt16.toNat_add, UInt16.toNat_ofNat']
  omega

/-- Behind two pages that end, a page begins. -/
theorem third_page {p a : ℕ} (ha : a < 2 ^ 16) (hp : p < 2 ^ 16) (hlong : 255 < p)
    (hsecond : p - (a + (p - a % p)) % 2 ^ 16 % p ≤ 255) :
    ((a + (p - a % p)) % 2 ^ 16 + (p - (a + (p - a % p)) % 2 ^ 16 % p)) % 2 ^ 16 % p = 0 := by
  have hmod := Nat.mod_lt a (Nat.zero_lt_of_lt hlong)
  have hdiv := Nat.div_add_mod' a p
  have hend : a + (p - a % p) = a / p * p + p := by omega
  rw [hend] at hsecond ⊢
  -- the first page ends at the top or beyond it, for otherwise the second is a whole page
  have htop : 2 ^ 16 ≤ a / p * p + p := by
    by_contra hlow
    rw [Nat.mod_eq_of_lt (a := a / p * p + p) (by omega), Nat.add_mod_right,
      Nat.mul_mod_left] at hsecond
    omega
  have hwraps : (a / p * p + p) % 2 ^ 16 = a / p * p + p - 2 ^ 16 := by
    rw [Nat.mod_eq_sub_mod htop]
    exact Nat.mod_eq_of_lt (by omega)
  rw [hwraps, Nat.mod_eq_of_lt (a := a / p * p + p - 2 ^ 16) (b := p) (by omega)]
  have hnext : a / p * p + p - 2 ^ 16 + (p - (a / p * p + p - 2 ^ 16)) = p := by omega
  rw [hnext, Nat.mod_eq_of_lt hp, Nat.mod_self]

/-- **The chunks of a write are at most 255 bytes long** exactly if no page gets more. -/
theorem chunksAtMost_iff (hpage : eeprom.pageSize ≠ 0) :
    ChunksAtMost eeprom 255 address data ↔
      InNbytes eeprom.pageSize.toNat address.toNat data.length := by
  have ha := address.toNat_lt
  have hp := eeprom.pageSize.toNat_lt
  by_cases hshort : eeprom.pageSize.toNat ≤ 255
  · exact iff_of_true (chunksAtMost_of_le hpage (by omega)) (.inl hshort)
  rw [InNbytes, or_iff_right hshort, chunksAtMost_iff_first hpage rfl,
    chunksAtMost_iff_first hpage rfl]
  simp only [bytesToWrite_eq hpage, toNat_next, List.length_drop]
  apply and_congr_right
  intro hfirst
  apply and_congr_right
  intro hsecond
  constructor
  · intro h
    by_contra hleft
    -- there is more: the first two pages end, and the third chunk begins with a page
    have hends : min data.length
        (eeprom.pageSize.toNat - address.toNat % eeprom.pageSize.toNat) =
          eeprom.pageSize.toNat - address.toNat % eeprom.pageSize.toNat := by omega
    rw [hends] at h hsecond hleft
    rw [Nat.min_eq_right (by omega)] at h hsecond hleft
    have hthird := ((chunksAtMost_iff_first hpage rfl).mp h).1
    rw [bytesToWrite_eq hpage, toNat_next, toNat_next, third_page ha hp (by omega) hsecond,
      List.length_drop, List.length_drop] at hthird
    omega
  · intro h
    apply chunksAtMost_of_le hpage
    rw [List.length_drop, List.length_drop]
    exact Nat.le_trans (Nat.min_le_left _ _) h

/-! ## Both calls -/

/-- **Every transfer of a read and of a write fits** exactly if the read is of at most 255
bytes, and if no page of the write gets more.  (Where the bus is not acquired or the timer
is refused, nothing is started.) -/
theorem transfersFit_iff (board : Board) (hinit : eepromInit (some eeprom) = .ok)
    {readAddress : UInt16} {size : UInt32} (hsize : size ≠ 0)
    (hread : readAddress.toNat + size.toNat ≤ eeprom.size.toNat) (hdata : data ≠ [])
    (hwrite : address.toNat + data.length ≤ eeprom.size.toNat) :
    (TransfersFit board (eepromRead (some eeprom) readAddress true size) ↔
      (busHandle eeprom).current = false ∨ ¬ Admitted board eeprom.timeoutMs ∨
        size.toNat ≤ 255) ∧
    (TransfersFit board (eepromWrite (some eeprom) address (some data)) ↔
      (busHandle eeprom).current = false ∨ ¬ Admitted board eeprom.timeoutMs ∨
        InNbytes eeprom.pageSize.toNat address.toNat data.length) := by
  have hpage := (accepted_of_init hinit).pageSize
  refine ⟨transfersFit_eepromRead_iff hsize hread, ?_⟩
  rw [transfersFit_eepromWrite_iff hpage hdata hwrite, ← chunksAtMost_iff_forall hpage,
    chunksAtMost_iff hpage]

/-- A device with pages of 256 bytes. -/
def pagedEeprom : EepromType :=
  { i2cHandle := some ⟨true⟩, i2cAddress := 0x50, size := 131072, pageSize := 256,
    addressSize := 2, writeDelayMs := 5, timeoutMs := 100 }

/-- As many bytes as a page has. -/
def fullPage : List UInt8 := List.replicate 256 7

theorem length_fullPage : fullPage.length = 256 := List.length_replicate

theorem fullPage_ne_nil : fullPage ≠ [] := by
  rw [← List.length_pos_iff, length_fullPage]
  decide

/-- A page at once does not fit, either way. -/
theorem page_does_not_fit : eepromInit (some pagedEeprom) = .ok ∧
    ¬ TransfersFit stm32F765 (eepromRead (some pagedEeprom) 0 true 256) ∧
    ¬ TransfersFit stm32F765 (eepromWrite (some pagedEeprom) 0 (some fullPage)) := by
  have hpage : pagedEeprom.pageSize ≠ 0 := by decide
  refine ⟨rfl, ?_, ?_⟩
  · rw [transfersFit_eepromRead_iff (by decide) (by decide)]
    decide
  · rw [transfersFit_eepromWrite_iff hpage fullPage_ne_nil (by rw [length_fullPage]; decide),
      ← chunksAtMost_iff_forall hpage, chunksAtMost_iff hpage, length_fullPage]
    decide

/-- As many bytes in two pages do. -/
theorem two_half_pages_fit :
    TransfersFit stm32F765 (eepromRead (some pagedEeprom) 0 true 255) ∧
    TransfersFit stm32F765 (eepromWrite (some pagedEeprom) 128 (some fullPage)) := by
  have hfits : (128 : UInt16).toNat + fullPage.length ≤ pagedEeprom.size.toNat := by
    rw [length_fullPage]
    decide
  have hread : (0 : UInt16).toNat + (255 : UInt32).toNat ≤ pagedEeprom.size.toNat := by decide
  have hiff := transfersFit_iff stm32F765 rfl (by decide) hread fullPage_ne_nil hfits
  rw [hiff.1, hiff.2, length_fullPage]
  decide

end RhsCore.Eeprom
