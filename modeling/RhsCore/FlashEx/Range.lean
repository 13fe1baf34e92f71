import RhsCore.FlashEx.Coverage

/-!
# Which addresses a call can touch

The assertion `addr + size <= MT25QL128ABA_FLASH_SIZE` is a 32-bit sum, so it also
passes when the sum wraps.  What a call can then reach differs: a read is sent as it
is, a write leaves its loop after one page because the end address has wrapped below
it, and an erase does not look at the end address at all.

## Main definitions

* `FlashCall.allowed` — the addresses the call is meant to touch.
* `FlashCall.Confined` — whatever the device answers, it touches no others.
* `FlashCall.Fits` — the condition for that, given that the assertion passes.
-/

namespace RhsCore.FlashEx

open Prog

/-- Inside the device and, for read and write, inside the request. -/
def FlashCall.allowed : FlashCall → Set ℕ
  | .read addr size | .write addr _ size =>
      Set.Ico addr.toNat (addr.toNat + size.toNat) ∩ Set.Iio flashSize.toNat
  | .blockErase _ _ | .eraseChip => Set.Iio flashSize.toNat

/-- Every memory command of every execution stays inside the allowed addresses. -/
def FlashCall.Confined (c : FlashCall) : Prop :=
  ∀ log r, Exec c.prog log r → ∀ cmd ∈ memoryCommands log, cmd.touched ⊆ c.allowed

/-- Operations on the QSPI that, if they send a memory command, stay inside `S`. -/
def Within (S : Set ℕ) : FlashOp → Prop
  | .qspi q => ∀ cmd, (FlashOp.qspi q).memoryCommand = some cmd → cmd.touched ⊆ S
  | _ => False

theorem Quiet.within {S : Set ℕ} {o : FlashOp} (h : Quiet o) : Within S o := by
  cases o with
  | qspi q =>
      intro cmd hc
      rw [quiet_qspi_iff.mp h] at hc
      cases hc
  | _ => exact h

/-- A call confines its commands if its body does. -/
theorem FlashCall.confined_of_uses {c : FlashCall} (h : c.body.Uses (Within c.allowed)) :
    c.Confined := by
  let inside : FlashOp → Prop :=
    fun o => ∀ cmd, o.memoryCommand = some cmd → cmd.touched ⊆ c.allowed
  have hbody : c.body.Uses inside := by
    refine h.mono fun o ho => ?_
    cases o with
    | qspi q => exact ho
    | _ => exact ho.elim
  have hmutex : ∀ o, o.memoryCommand = none → inside o := by
    intro o ho cmd hc
    rw [ho] at hc
    cases hc
  have hprog : c.prog.Uses inside := by
    rw [prog_eq, rhsAssert]
    split
    · exact uses_locked (hmutex _ rfl) (hmutex _ rfl) hbody
    · exact uses_halt
  intro log r hr cmd hcmd
  obtain ⟨e, he, hc⟩ := List.mem_filterMap.mp hcmd
  exact hprog.of_mem hr e he cmd hc

/-- One command outside, in one execution of the body, refutes confinement. -/
theorem FlashCall.not_confined {c : FlashCall} (hc : c.passesAssert = true)
    {log : List (Event FlashOp.Ans)} {a : Int} (h : Exec c.body log (.ok a)) (cmd : QspiCommand)
    (hcmd : cmd ∈ memoryCommands log) {i : ℕ} (hi : i ∈ cmd.touched) (hout : i ∉ c.allowed) :
    ¬ c.Confined := by
  intro hconf
  refine hout (hconf _ _ (exec_prog_ok_iff.mpr ⟨hc, .ok, log, .ok, h, rfl⟩) cmd ?_ hi)
  simp [hcmd]

theorem within_flashForceAbort (S : Set ℕ) : flashForceAbort.Uses (Within S) :=
  quiet_flashForceAbort.mono fun _ => Quiet.within

theorem within_flashWaitReady (S : Set ℕ) (timeout : UInt32) :
    (flashWaitReady timeout).Uses (Within S) :=
  (quiet_flashWaitReady timeout).mono fun _ => Quiet.within

theorem within_mt25ql128abaWriteEnable (S : Set ℕ) : mt25ql128abaWriteEnable.Uses (Within S) :=
  quiet_mt25ql128abaWriteEnable.mono fun _ => Quiet.within

theorem within_sendCommand {S : Set ℕ} {cmd : QspiCommand} (h : cmd.touched ⊆ S) :
    (sendCommand cmd).Uses (Within S) := by
  refine ⟨?_, fun _ => trivial⟩
  intro cmd' hc
  simp only [FlashOp.memoryCommand] at hc
  split at hc <;> cases hc
  exact h

/-! ## Read -/

/-- A read sends one command, for the whole request. -/
theorem within_readBody {S : Set ℕ} {addr size : UInt32}
    (h : Set.Ico addr.toNat (addr.toNat + size.toNat) ⊆ S) :
    (readBody addr size).Uses (Within S) := by
  have htransfer : (readTransfer addr size).Uses (Within S) := by
    rw [readTransfer]
    refine Uses.bind (within_flashWaitReady S 10) fun _ wr _ => ?_
    split
    · exact uses_ret
    refine Uses.bind ?_ fun _ _ _ => uses_ret
    rw [mt25ql128abaRead]
    refine Uses.bind (within_sendCommand h) fun _ s _ => ?_
    split
    · exact uses_ret
    · exact ⟨Quiet.within rfl, fun _ => uses_ret⟩
  exact Uses.bind htransfer fun _ _ _ =>
    Uses.bind (within_flashForceAbort S) fun _ _ _ => uses_ret

theorem exists_exec_readBody (addr size : UInt32) :
    ∃ log, Exec (readBody addr size) log (.ok (flashExOk, [])) ∧
      memoryCommands log = [readCommand addr size] :=
  ⟨_, exec_run okDevice (readBody addr size) (), rfl⟩

theorem confined_read_iff {addr size : UInt32} (hassert : addr + size ≤ flashSize) :
    (FlashCall.read addr size).Confined ↔ addr.toNat + size.toNat ≤ 2 ^ 24 := by
  have hend : (addr.toNat + size.toNat) % 2 ^ 32 ≤ 2 ^ 24 := by
    rw [← UInt32.toNat_add]
    exact UInt32.le_iff_toNat_le.mp hassert
  constructor
  · contrapose!
    intro hlt
    obtain ⟨log, h, hm⟩ := exists_exec_readBody addr size
    refine FlashCall.not_confined (decide_eq_true hassert)
      (exec_bind_ok_iff.mpr ⟨_, log, [], h, .ret _, (List.append_nil log).symm⟩)
      (readCommand addr size) (by rw [hm]; simp) (i := max addr.toNat (2 ^ 24)) ?_ ?_
    · have haddr := addr.toNat_lt
      have hmax : max addr.toNat (2 ^ 24) < addr.toNat + size.toNat := max_lt (by omega) hlt
      exact ⟨le_max_left _ _, hmax⟩
    · simp [FlashCall.allowed]
  · intro hle
    refine FlashCall.confined_of_uses (Uses.bind (within_readBody ?_) fun _ _ _ => uses_ret)
    intro i hi
    rw [Set.mem_Ico] at hi
    exact ⟨hi, by simp; omega⟩

/-! ## Write -/

/-- A turn of the write loop sends one memory command, for its page. -/
theorem within_writeTurn {S : Set ℕ} (pData : ℕ → UInt8) (endAddr : UInt32) {x : WriteLoop}
    (h : Set.Ico x.currentAddr.toNat (x.currentAddr.toNat + x.currentSize.toNat) ⊆ S) :
    (writeTurn pData endAddr x).Uses (Within S) := by
  have hprogram :
      (mt25ql128abaPageProgram (x.data pData) x.currentAddr x.currentSize).Uses (Within S) := by
    rw [mt25ql128abaPageProgram]
    refine Uses.bind (within_sendCommand h) fun _ s _ => ?_
    split
    · exact uses_ret
    · exact ⟨Quiet.within rfl, fun _ => uses_ret⟩
  rw [writeTurn]
  refine Uses.bind (within_flashWaitReady S 10) fun _ wr _ => ?_
  split
  · exact uses_ret
  refine Uses.bind (within_mt25ql128abaWriteEnable S) fun _ we _ => ?_
  split
  · exact Uses.bind (within_flashForceAbort S) fun _ _ _ => uses_ret
  refine Uses.bind hprogram fun _ pp _ => ?_
  split
  · exact Uses.bind (within_flashForceAbort S) fun _ _ _ => uses_ret
  refine Uses.bind (within_flashWaitReady S 10) fun _ wr' _ => ?_
  split <;> exact uses_ret

/-- The first page ends where the request or the page ends. -/
theorem toNat_writeInit_currentSize (addr size : UInt32) :
    (writeInit addr size).currentSize.toNat = min size.toNat (256 - addr.toNat % 256) := by
  have hsub : (pageSize - addr % pageSize).toNat = 256 - addr.toNat % 256 := by
    have hmod : (addr % pageSize).toNat = addr.toNat % 256 := by simp
    rw [UInt32.toNat_sub_of_le _ _ (UInt32.le_iff_toNat_le.mpr (by rw [hmod]; simp; omega)), hmod]
    rfl
  simp only [writeInit, gt_iff_lt, UInt32.lt_iff_toNat_lt, hsub]
  split
  · omega
  · rw [hsub]
    omega

/-- Without a wrap the loop stays between `addr` and the end address. -/
theorem confined_write_of_le {addr size : UInt32} (pData : ℕ → UInt8)
    (h : addr.toNat + size.toNat ≤ 2 ^ 24) : (FlashCall.write addr pData size).Confined := by
  have hend : (addr + size).toNat = addr.toNat + size.toNat := by
    rw [UInt32.toNat_add]
    omega
  have hinit := toNat_writeInit_currentSize addr size
  refine FlashCall.confined_of_uses (uses_iter
    (fun x => addr.toNat ≤ x.currentAddr.toNat ∧
      x.currentAddr.toNat + x.currentSize.toNat ≤ addr.toNat + size.toNat) ?_ ?_ ?_)
  · rintro x ⟨hlo, hhi⟩
    refine within_writeTurn pData (addr + size) fun i hi => ?_
    rw [Set.mem_Ico] at hi
    simp only [FlashCall.allowed, Set.mem_inter_iff, Set.mem_Ico, Set.mem_Iio, toNat_flashSize]
    omega
  · rintro x l x' ⟨hlo, hhi⟩ hx
    obtain ⟨rfl, hlt⟩ := writeTurn_goes_on hx
    obtain ⟨hbelow, hsize⟩ := WriteLoop.inside_next (by omega) x hlt
    have hnext : (x.next (addr + size)).currentAddr.toNat =
        x.currentAddr.toNat + x.currentSize.toNat := by
      change (x.currentAddr + x.currentSize).toNat = _
      rw [UInt32.toNat_add]
      omega
    omega
  · change addr.toNat ≤ addr.toNat ∧ addr.toNat + _ ≤ _
    omega

/-- After a wrap the end address lies below the first page, and the loop stops there. -/
theorem confined_write_of_wrap {addr size : UInt32} (pData : ℕ → UInt8)
    (hlow : addr.toNat < 2 ^ 24) (hwrap : 2 ^ 32 ≤ addr.toNat + size.toNat) :
    (FlashCall.write addr pData size).Confined := by
  have hsize := size.toNat_lt
  have hinit := toNat_writeInit_currentSize addr size
  refine FlashCall.confined_of_uses (uses_iter (fun x => x = writeInit addr size) ?_ ?_ rfl)
  · rintro _ rfl
    refine within_writeTurn pData (addr + size) fun i hi => ?_
    have hi : addr.toNat ≤ i ∧ i < addr.toNat + _ := hi
    simp only [FlashCall.allowed, Set.mem_inter_iff, Set.mem_Ico, Set.mem_Iio, toNat_flashSize]
    omega
  · rintro _ l x' rfl hx
    obtain ⟨-, hlt⟩ := writeTurn_goes_on hx
    rw [UInt32.lt_iff_toNat_lt] at hlt
    change (addr + (writeInit addr size).currentSize).toNat < (addr + size).toNat at hlt
    rw [UInt32.toNat_add, UInt32.toNat_add] at hlt
    omega

/-- The first page is programmed at `addr`, wherever that is. -/
theorem not_confined_write {addr size : UInt32} (pData : ℕ → UInt8)
    (hassert : addr + size ≤ flashSize) (hhigh : 2 ^ 24 ≤ addr.toNat) (hsize : 0 < size.toNat) :
    ¬ (FlashCall.write addr pData size).Confined := by
  obtain ⟨l, hturn⟩ := exists_exec_writeTurn pData (addr + size) (writeInit addr size)
  have hm : memoryCommands l = [programCommand addr (writeInit addr size).currentSize] := by
    rcases writeTurn_ok hturn with ⟨e, he, hv⟩ | ⟨-, hm⟩
    · split at hv
      · cases hv
      · exact absurd (Sum.inr.inj hv).symm he
    · exact hm
  obtain ⟨rest, r, h⟩ : ∃ rest r, Exec (FlashCall.write addr pData size).body (l ++ rest) r :=
    exists_exec_bind hturn _
  rcases r with e | a
  · exact absurd h (writeLoop_terminates pData addr size hassert _ e)
  refine FlashCall.not_confined (decide_eq_true hassert) h
    (programCommand addr (writeInit addr size).currentSize) (by simp [hm])
    (i := addr.toNat) ?_ ?_
  · have hinit := toNat_writeInit_currentSize addr size
    have hlt : addr.toNat < addr.toNat + (writeInit addr size).currentSize.toNat := by omega
    exact ⟨le_refl addr.toNat, hlt⟩
  · simp only [FlashCall.allowed, Set.mem_inter_iff, Set.mem_Iio, toNat_flashSize]
    omega

theorem confined_write_iff {addr size : UInt32} (pData : ℕ → UInt8)
    (hassert : addr + size ≤ flashSize) :
    (FlashCall.write addr pData size).Confined ↔ addr.toNat < 2 ^ 24 ∨ size.toNat = 0 := by
  have hend : (addr.toNat + size.toNat) % 2 ^ 32 ≤ 2 ^ 24 := by
    rw [← UInt32.toNat_add]
    exact UInt32.le_iff_toNat_le.mp hassert
  have haddr := addr.toNat_lt
  have hsize := size.toNat_lt
  constructor
  · contrapose!
    rintro ⟨hhigh, hpos⟩
    exact not_confined_write pData hassert hhigh (by omega)
  · intro h
    by_cases hwrap : 2 ^ 32 ≤ addr.toNat + size.toNat
    · exact confined_write_of_wrap pData (by omega) hwrap
    · exact confined_write_of_le pData (by omega)

/-! ## Erase -/

/-- A turn of the erase loop sends one memory command, for its subsector. -/
theorem within_eraseTurn {S : Set ℕ} {x : EraseLoop}
    (h : {i | i / 4096 = x.currentAddr.toNat / 4096} ⊆ S) : (eraseTurn x).Uses (Within S) := by
  rw [eraseTurn]
  refine Uses.bind (within_mt25ql128abaWriteEnable S) fun _ we _ => ?_
  split
  · exact Uses.bind (within_flashForceAbort S) fun _ _ _ => uses_ret
  refine Uses.bind (within_sendCommand h) fun _ be _ => ?_
  split
  · exact Uses.bind (within_flashForceAbort S) fun _ _ _ => uses_ret
  refine Uses.bind (within_flashWaitReady S _) fun _ wr _ => ?_
  split <;> exact uses_ret

theorem not_confined_blockErase {addr size : UInt32} (hassert : addr + size ≤ flashSize)
    (hlt : 2 ^ 24 < addr.toNat + max size.toNat 1) :
    ¬ (FlashCall.blockErase addr size).Confined := by
  have hend : (addr.toNat + size.toNat) % 2 ^ 32 ≤ 2 ^ 24 := by
    rw [← UInt32.toNat_add]
    exact UInt32.le_iff_toNat_le.mp hassert
  have haddr := addr.toNat_lt
  have hsize := size.toNat_lt
  obtain ⟨log, h⟩ := exists_exec_blockErase addr size hassert
  -- the first subsector at or above the end of the device
  have hk : 4096 - addr.toNat / 4096 < eraseTurns size.toNat := by
    rw [eraseTurns]
    omega
  have htop : 2 ^ 24 ≤ (eraseAddr addr (4096 - addr.toNat / 4096)).toNat := by
    rw [toNat_eraseAddr addr (by omega)]
    omega
  intro hconf
  have hmem : eraseCommand (eraseAddr addr (4096 - addr.toNat / 4096)) ∈ memoryCommands log := by
    rw [memoryCommands_blockErase h]
    exact List.mem_map.mpr ⟨_, List.mem_range.mpr hk, rfl⟩
  have hin := hconf log _ h _ hmem (rfl : _ / 4096 = _)
  exact absurd (Set.mem_Iio.mp hin) (not_lt.mpr htop)

/-- While a block erase goes on, what is left of it fits behind its next subsector. -/
theorem confined_blockErase_of_le {addr size : UInt32}
    (hle : addr.toNat + max size.toNat 1 ≤ 2 ^ 24) :
    (FlashCall.blockErase addr size).Confined := by
  refine FlashCall.confined_of_uses ?_
  change (blockEraseBody addr size).Uses _
  rw [blockEraseBody]
  refine Uses.bind (within_flashWaitReady _ 10) fun _ wr _ => ?_
  split
  · exact uses_ret
  refine uses_iter (fun x => x.currentAddr.toNat / 4096 * 4096 +
    max x.currentSize.toNat 1 ≤ 2 ^ 24) ?_ ?_ ?_
  · intro x hx
    refine within_eraseTurn fun i hi => ?_
    have hi : i / 4096 = x.currentAddr.toNat / 4096 := hi
    simp only [FlashCall.allowed, Set.mem_Iio, toNat_flashSize]
    omega
  · intro x l x' hx hturn
    obtain ⟨rfl, hlt, -⟩ := eraseTurn_goes_on hturn
    have hnext : x.next.currentAddr.toNat = x.currentAddr.toNat + 4096 := by
      change (x.currentAddr + subsector4k).toNat = _
      rw [UInt32.toNat_add, toNat_subsector4k]
      omega
    have hdiv : (x.currentAddr.toNat + 4096) / 4096 = x.currentAddr.toNat / 4096 + 1 :=
      Nat.add_div_right _ (by decide)
    rw [Nat.max_eq_left (by omega)] at hx
    rw [toNat_next_currentSize, hnext, hdiv, Nat.max_eq_left (by omega), Nat.succ_mul,
      Nat.add_assoc, Nat.add_sub_of_le hlt.le]
    exact hx
  · change (eraseInit addr size).currentAddr.toNat / 4096 * 4096 + max size.toNat 1 ≤ 2 ^ 24
    rw [eraseInit_currentAddr, toNat_eraseAddr addr (by omega)]
    omega

theorem confined_blockErase_iff {addr size : UInt32} (hassert : addr + size ≤ flashSize) :
    (FlashCall.blockErase addr size).Confined ↔
      addr.toNat + max size.toNat 1 ≤ 2 ^ 24 := by
  refine ⟨fun hconf => ?_, confined_blockErase_of_le⟩
  by_contra hlt
  exact not_confined_blockErase hassert (not_le.mp hlt) hconf

/-! ## Every call -/

theorem within_eraseChipBody {S : Set ℕ} (h : Set.Iio (2 ^ 24) ⊆ S) :
    eraseChipBody.Uses (Within S) := by
  have hcommands : eraseChipCommands.Uses (Within S) := by
    rw [eraseChipCommands]
    refine Uses.bind (within_flashWaitReady S 10) fun _ wr _ => ?_
    split
    · exact uses_ret
    refine Uses.bind (within_mt25ql128abaWriteEnable S) fun _ we _ => ?_
    split
    · exact Uses.bind (within_flashForceAbort S) fun _ _ _ => uses_ret
    refine Uses.bind (within_sendCommand h) fun _ ce _ => ?_
    split
    · exact Uses.bind (within_flashForceAbort S) fun _ _ _ => uses_ret
    · exact uses_ret
  refine Uses.bind hcommands fun _ e _ => Uses.bind (within_flashWaitReady S _) fun _ wr _ => ?_
  split <;> exact uses_ret

/-- Between acquire and release there are only operations on the QSPI. -/
theorem FlashCall.within_body (c : FlashCall) : c.body.Uses (Within Set.univ) := by
  cases c with
  | read addr size =>
      exact Uses.bind (within_readBody (Set.subset_univ _)) fun _ _ _ => uses_ret
  | write addr pData size =>
      exact uses_iter (fun _ => True) (fun _ _ => within_writeTurn _ _ (Set.subset_univ _))
        (fun _ _ _ _ _ => trivial) trivial
  | blockErase addr size =>
      simp only [body, blockEraseBody]
      refine Uses.bind (within_flashWaitReady _ 10) fun _ wr _ => ?_
      split
      · exact uses_ret
      · exact uses_iter (fun _ => True) (fun _ _ => within_eraseTurn (Set.subset_univ _))
          (fun _ _ _ _ _ => trivial) trivial
  | eraseChip => exact within_eraseChipBody (Set.subset_univ _)

/-- What a call that passes its assertion needs, to touch only what it may. -/
def FlashCall.Fits : FlashCall → Prop
  | .read addr size => addr.toNat + size.toNat ≤ 2 ^ 24
  | .write addr _ size => addr.toNat < 2 ^ 24 ∨ size.toNat = 0
  | .blockErase addr size => addr.toNat + max size.toNat 1 ≤ 2 ^ 24
  | .eraseChip => True

/-- **The range assertion confines a call** exactly when the call fits. -/
theorem FlashCall.confined_iff_fits (c : FlashCall) (h : c.passesAssert = true) :
    c.Confined ↔ c.Fits := by
  cases c with
  | read addr size => exact confined_read_iff (of_decide_eq_true h)
  | write addr pData size => exact confined_write_iff pData (of_decide_eq_true h)
  | blockErase addr size => exact confined_blockErase_iff (of_decide_eq_true h)
  | eraseChip =>
      exact iff_of_true (confined_of_uses (within_eraseChipBody fun _ h => h)) trivial

/-- The last byte of the device can be written, and nothing else is touched. -/
theorem write_last_byte_confined :
    (FlashCall.write 0xFFFFFF (fun _ => 0) 1).Confined :=
  (FlashCall.confined_iff_fits (.write 0xFFFFFF (fun _ => 0) 1) rfl).mpr (.inl (by decide))

/-- A read of two bytes from the last 32-bit address passes its assertion, and leaves the
device. -/
theorem read_leaves_device :
    (FlashCall.read 0xFFFFFFFF 2).passesAssert = true ∧
      ¬ (FlashCall.read 0xFFFFFFFF 2).Confined := by
  refine ⟨by decide, fun h => ?_⟩
  rw [confined_read_iff (by decide)] at h
  exact absurd h (by decide)

end RhsCore.FlashEx
