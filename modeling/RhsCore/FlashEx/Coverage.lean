import RhsCore.FlashEx.Loops

/-!
# What a block erase covers

The loop of `rhs_hal_flash_ex_block_erase` starts at the subsector of `addr` but
counts down the size of the request, which is measured from `addr` itself.  So an
erase that succeeds takes `⌈size / 4096⌉` subsectors, and at least one, wherever in
its first subsector the request begins.

## Main definitions

* `eraseTurns size` — the number of subsectors a successful erase takes.
* `erasedSubsectors log` — the subsectors that the commands of a log erase.
* `requestedSubsectors addr size` — the subsectors that meet `[addr, addr + size)`.
-/

namespace RhsCore.FlashEx

open Prog

/-! ## The commands of a successful erase -/

/-- The number of subsectors a successful erase takes. -/
def eraseTurns (size : ℕ) : ℕ := max 1 ((size + 4095) / 4096)

/-- The address of the loop after `k` turns. -/
def eraseAddr (addr : UInt32) (k : ℕ) : UInt32 := addr - addr % subsector4k + .ofNat (4096 * k)

theorem eraseAddr_succ (addr : UInt32) (k : ℕ) :
    eraseAddr addr (k + 1) = eraseAddr addr k + subsector4k := by
  rw [eraseAddr, eraseAddr, Nat.mul_add, UInt32.ofNat_add, UInt32.add_assoc]
  rfl

theorem eraseInit_currentAddr (addr size : UInt32) :
    (eraseInit addr size).currentAddr = eraseAddr addr 0 := by
  simp [eraseInit, eraseAddr]

/-- Below the end of the 32-bit space the addresses do not wrap. -/
theorem toNat_eraseAddr (addr : UInt32) {k : ℕ} (h : addr.toNat + 4096 * k < 2 ^ 32) :
    (eraseAddr addr k).toNat = addr.toNat / 4096 * 4096 + 4096 * k := by
  have hmod : (addr % subsector4k).toNat = addr.toNat % 4096 := by simp
  have hle : addr % subsector4k ≤ addr := by
    rw [UInt32.le_iff_toNat_le, hmod]
    exact Nat.mod_le _ _
  rw [eraseAddr, UInt32.toNat_add, UInt32.toNat_sub_of_le _ _ hle, hmod,
    UInt32.toNat_ofNat_of_lt' (by simp [UInt32.size]; omega)]
  omega

/-- **The erase loop**: `k` turns in, `k` subsectors have been erased and `4096 * k`
bytes of the size have been used up. -/
structure EraseInvariant (addr size : UInt32) (pre : List (Event FlashOp.Ans)) (x : EraseLoop)
    (k : ℕ) : Prop where
  commands : memoryCommands pre = (List.range k).map fun i => eraseCommand (eraseAddr addr i)
  currentAddr : x.currentAddr = eraseAddr addr k
  currentSize : x.currentSize.toNat = size.toNat - 4096 * k
  entered : k = 0 ∨ 4096 * k < size.toNat

theorem EraseInvariant.init (addr size : UInt32) :
    EraseInvariant addr size [] (eraseInit addr size) 0 where
  commands := rfl
  currentAddr := eraseInit_currentAddr addr size
  currentSize := rfl
  entered := .inl rfl

theorem EraseInvariant.step {addr size : UInt32} {pre l : List (Event FlashOp.Ans)}
    {x x' : EraseLoop} {k : ℕ} (hI : EraseInvariant addr size pre x k)
    (h : Exec (eraseTurn x) l (.ok (.inl x'))) :
    EraseInvariant addr size (pre ++ l) x' (k + 1) := by
  obtain ⟨rfl, hlt, hm⟩ := eraseTurn_goes_on h
  have hsize := hI.currentSize
  refine ⟨?_, ?_, ?_, .inr (by omega)⟩
  · rw [memoryCommands_append, hI.commands, hm, hI.currentAddr, List.range_succ]
    simp
  · rw [eraseAddr_succ, ← hI.currentAddr]
    rfl
  · rw [toNat_next_currentSize]
    omega

/-- An erase loop that succeeds erases `eraseTurns size` subsectors in a row. -/
theorem memoryCommands_eraseLoop {addr size : UInt32} {n : ℕ} {log : List (Event FlashOp.Ans)}
    (h : Exec (Prog.iter eraseTurn n (eraseInit addr size)) log (.ok flashExOk)) :
    memoryCommands log =
      (List.range (eraseTurns size.toNat)).map fun k => eraseCommand (eraseAddr addr k) := by
  obtain ⟨x, l₁, l₂, rfl, ⟨k, hI⟩, hlast⟩ :=
    exec_iter_ok (fun pre x => ∃ k, EraseInvariant addr size pre x k)
      (fun pre x l x' ⟨k, hI⟩ h => ⟨k + 1, hI.step h⟩)
      ⟨0, EraseInvariant.init addr size⟩ h
  obtain ⟨hend, hm⟩ := eraseTurn_ends hlast
  have hturns : eraseTurns size.toNat = k + 1 := by
    have hsize := hI.currentSize
    rw [eraseTurns]
    rcases hI.entered with rfl | hk <;> omega
  rw [memoryCommands_append, hm, hI.currentAddr, hturns, List.range_succ]
  have hc := hI.commands
  rw [List.nil_append] at hc
  simp [hc]

/-- A call that succeeds has run its loop to the end; the rest of it is quiet. -/
theorem memoryCommands_blockErase {addr size : UInt32} {log : List (Event FlashOp.Ans)}
    (h : Exec (rhsHalFlashExBlockErase addr size) log (.ok flashExOk)) :
    memoryCommands log =
      (List.range (eraseTurns size.toNat)).map fun k => eraseCommand (eraseAddr addr k) := by
  obtain ⟨-, _, l, _, hbody, rfl⟩ := (FlashCall.blockErase addr size).exec_prog_ok_iff.mp h
  change Exec (blockEraseBody addr size) l _ at hbody
  rw [blockEraseBody, exec_bind_ok_iff] at hbody
  obtain ⟨wr, l₁, l₂, hwr, hloop, rfl⟩ := hbody
  split at hloop
  · simp [flashExOk, flashExBusy] at hloop
  · have hq := memoryCommands_eq_nil (quiet_flashWaitReady _) hwr
    simp [hq, FlashOp.memoryCommand, memoryCommands_eraseLoop hloop]

/-- Where nothing fails, a block erase that passes its assertion succeeds. -/
theorem exists_exec_blockErase (addr size : UInt32) (hassert : addr + size ≤ flashSize) :
    ∃ log, Exec (rhsHalFlashExBlockErase addr size) log (.ok flashExOk) := by
  have hsize : size.toNat < 2 ^ 32 := size.toNat_lt
  obtain ⟨l, hl⟩ : ∃ log,
      Exec (Prog.iter eraseTurn 1048577 (eraseInit addr size)) log (.ok flashExOk) := by
    refine exec_iter_exists (fun x => (x.currentSize.toNat + 4095) / 4096) flashExOk ?_
      (Nat.div_lt_of_lt_mul (show size.toNat + 4095 < 4096 * 1048577 by omega))
    intro x
    obtain ⟨l, hl⟩ := exists_exec_eraseTurn x
    split at hl
    · have hlt := (next_currentSize_ne_zero_iff x).mp ‹_›
      refine .inr ⟨l, x.next, hl, ?_⟩
      rw [toNat_next_currentSize]
      omega
    · exact .inl ⟨l, hl⟩
  have hwait : Exec (flashWaitReady 10)
      (Prog.run okDevice (flashWaitReady 10) ()).log (.ok 0) := exec_run okDevice _ ()
  have hbody : Exec (blockEraseBody addr size) (_ ++ l) (.ok flashExOk) :=
    exec_bind_ok_iff.mpr ⟨0, _, l, hwait, hl, rfl⟩
  exact ⟨_, (FlashCall.blockErase addr size).exec_prog_ok_iff.mpr
    ⟨decide_eq_true hassert, .ok, _, .ok, hbody, rfl⟩⟩

/-! ## The subsectors -/

/-- The instruction erases. -/
def Instruction.IsErase (i : Instruction) : Prop :=
  i = .subsectorErase4kb ∨ i = .subsectorErase32kb ∨ i = .sectorErase ∨ i = .bulkErase

/-- The 4 KiB subsectors that the commands of a log erase. -/
def erasedSubsectors (log : List (Event FlashOp.Ans)) : Set ℕ :=
  {n | ∃ cmd ∈ memoryCommands log, cmd.instruction.IsErase ∧ ∃ i ∈ cmd.touched, i / 4096 = n}

/-- The 4 KiB subsectors that meet `[addr, addr + size)`. -/
def requestedSubsectors (addr size : ℕ) : Set ℕ :=
  {n | ∃ i, addr ≤ i ∧ i < addr + size ∧ i / 4096 = n}

/-- The subsectors of a request are consecutive. -/
theorem mem_requestedSubsectors_iff {addr size n : ℕ} (hsize : 0 < size) :
    n ∈ requestedSubsectors addr size ↔
      addr / 4096 ≤ n ∧ n < addr / 4096 + ((addr % 4096 + size - 1) / 4096 + 1) := by
  constructor
  · rintro ⟨i, h₁, h₂, rfl⟩
    omega
  · rintro ⟨h₁, h₂⟩
    exact ⟨max addr (4096 * n), by omega, by omega, by omega⟩

/-- So are those that a successful erase takes. -/
theorem mem_erasedSubsectors_iff {addr size : UInt32} {log : List (Event FlashOp.Ans)} {n : ℕ}
    (hrange : addr.toNat + size.toNat ≤ 2 ^ 24)
    (h : Exec (rhsHalFlashExBlockErase addr size) log (.ok flashExOk)) :
    n ∈ erasedSubsectors log ↔
      addr.toNat / 4096 ≤ n ∧ n < addr.toNat / 4096 + eraseTurns size.toNat := by
  have haddr : ∀ k < eraseTurns size.toNat,
      (eraseCommand (eraseAddr addr k)).address.toNat / 4096 = addr.toNat / 4096 + k := by
    intro k hk
    rw [eraseTurns] at hk
    have := toNat_eraseAddr addr (k := k) (by omega)
    simp only [eraseCommand]
    omega
  simp only [erasedSubsectors, memoryCommands_blockErase h, List.mem_map, List.mem_range,
    Set.mem_ofPred_eq]
  constructor
  · rintro ⟨_, ⟨k, hk, rfl⟩, -, i, hi, rfl⟩
    have hi : i / 4096 = _ := hi
    rw [hi, haddr k hk]
    omega
  · rintro ⟨h₁, h₂⟩
    have hk : n - addr.toNat / 4096 < eraseTurns size.toNat := by omega
    refine ⟨_, ⟨_, hk, rfl⟩, .inl rfl, 4096 * n, ?_, by omega⟩
    change 4096 * n / 4096 = _
    rw [haddr _ hk]
    omega

/-- **A successful block erase covers its request exactly** when the request is not empty
and, counted from its first byte or from the start of its first subsector, it takes
equally many subsectors. -/
theorem erasedSubsectors_eq_requested_iff (addr size : UInt32) (log : List (Event FlashOp.Ans))
    (hrange : addr.toNat + size.toNat ≤ 2 ^ 24)
    (h : Exec (rhsHalFlashExBlockErase addr size) log (.ok flashExOk)) :
    erasedSubsectors log = requestedSubsectors addr.toNat size.toNat ↔
      0 < size.toNat ∧
        (addr.toNat % 4096 + size.toNat - 1) / 4096 = (size.toNat - 1) / 4096 := by
  rcases Nat.eq_zero_or_pos size.toNat with h0 | hpos
  · refine iff_of_false (fun heq => ?_) (by omega)
    have hmem := (mem_erasedSubsectors_iff hrange h).mpr
      ⟨le_refl (addr.toNat / 4096), by rw [eraseTurns]; omega⟩
    rw [heq] at hmem
    obtain ⟨i, h₁, h₂, -⟩ := hmem
    omega
  · rw [and_iff_right hpos, Set.ext_iff]
    simp only [mem_erasedSubsectors_iff hrange h, mem_requestedSubsectors_iff hpos]
    have hturns : eraseTurns size.toNat = (size.toNat - 1) / 4096 + 1 := by
      rw [eraseTurns]
      omega
    rw [hturns]
    constructor
    · intro heq
      have h₁ := heq (addr.toNat / 4096 + (addr.toNat % 4096 + size.toNat - 1) / 4096)
      have h₂ := heq (addr.toNat / 4096 + (size.toNat - 1) / 4096)
      omega
    · intro heq n
      rw [heq]

/-- An erase of one whole subsector succeeds somewhere, and covers it. -/
theorem erasedSubsectors_eq_requested_at_4096 :
    ∃ log, Exec (rhsHalFlashExBlockErase 4096 4096) log (.ok flashExOk) ∧
      erasedSubsectors log = requestedSubsectors 4096 4096 := by
  obtain ⟨log, h⟩ := exists_exec_blockErase 4096 4096 (by decide)
  exact ⟨log, h, (erasedSubsectors_eq_requested_iff 4096 4096 log (by decide) h).mpr (by decide)⟩

/-- Two bytes across a subsector boundary: the second subsector is missed. -/
theorem second_subsector_missed :
    ∃ log, Exec (rhsHalFlashExBlockErase 4095 2) log (.ok flashExOk) ∧
      erasedSubsectors log ≠ requestedSubsectors 4095 2 := by
  obtain ⟨log, h⟩ := exists_exec_blockErase 4095 2 (by decide)
  refine ⟨log, h, fun heq => ?_⟩
  have hmem : 1 ∈ requestedSubsectors 4095 2 := ⟨4096, by decide, by decide, by decide⟩
  rw [← heq, mem_erasedSubsectors_iff (by decide) h] at hmem
  exact absurd hmem (by decide)

end RhsCore.FlashEx
