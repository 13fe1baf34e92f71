import Mathlib.Algebra.Group.Nat.Defs
import Mathlib.Order.Interval.Set.Basic
import RhsCore.FlashEx.FlashEx

/-!
# What the flash loops send

The commands of a log that reach the flash array, what one turn of the write loop
and of the erase loop adds to them, and the termination of both loops.

## Main definitions

* `memoryCommands log` — the read, program and erase commands of a log, in order.
* `writeLoop_terminates`, `eraseLoop_terminates` — the bounds of the model's loops are
  never exhausted.
-/

namespace RhsCore.FlashEx

open Prog

/-! ## Commands that reach the flash array -/

/-- The command an operation sends, unless it only concerns the status register. -/
def FlashOp.memoryCommand : FlashOp → Option QspiCommand
  | .qspi (.command cmd _) =>
      match cmd.instruction with
      | .writeEnable | .readStatusRegister => none
      | _ => some cmd
  | _ => none

/-- The commands of a log that reach the flash array, in order. -/
def memoryCommands (log : List (Event FlashOp.Ans)) : List QspiCommand :=
  log.filterMap fun e => e.1.memoryCommand

@[simp] theorem memoryCommands_nil : memoryCommands [] = [] := rfl

@[simp] theorem memoryCommands_append (l₁ l₂ : List (Event FlashOp.Ans)) :
    memoryCommands (l₁ ++ l₂) = memoryCommands l₁ ++ memoryCommands l₂ := by
  simp [memoryCommands]

@[simp] theorem memoryCommands_cons (e : Event FlashOp.Ans) (l : List (Event FlashOp.Ans)) :
    memoryCommands (e :: l) = e.1.memoryCommand.toList ++ memoryCommands l := by
  rcases he : e.1.memoryCommand with _ | cmd <;> simp [memoryCommands, he]

/-- The addresses that a command reads, programs or erases: those that follow from its field
of 32 bits, of which the flash itself sees the low 24. -/
def QspiCommand.touched (cmd : QspiCommand) : Set ℕ :=
  match cmd.instruction with
  | .quadOutputFastRead | .quadInputFastProgram =>
      Set.Ico cmd.address.toNat (cmd.address.toNat + cmd.nbData.toNat)
  | .subsectorErase4kb => {i | i / 4096 = cmd.address.toNat / 4096}
  | .subsectorErase32kb => {i | i / 32768 = cmd.address.toNat / 32768}
  | .sectorErase => {i | i / 65536 = cmd.address.toNat / 65536}
  | .bulkErase => Set.Iio (2 ^ 24)
  | .writeEnable | .readStatusRegister => ∅

/-- Operations on the QSPI that send no such command. -/
def Quiet : FlashOp → Prop
  | .qspi q => (FlashOp.qspi q).memoryCommand = none
  | _ => False

@[simp] theorem quiet_qspi_iff {q : QspiOp} :
    Quiet (.qspi q) ↔ (FlashOp.qspi q).memoryCommand = none := Iff.rfl

/-- A quiet program leaves no memory command in its log. -/
theorem memoryCommands_eq_nil {α : Type} {p : FlashProg α} {log : List (Event FlashOp.Ans)}
    {r : Except Halt α} (hp : p.Uses Quiet) (h : Exec p log r) : memoryCommands log = [] := by
  rw [memoryCommands, List.filterMap_eq_nil_iff]
  intro e he
  have hq := hp.of_mem h e he
  cases ho : e.1 with
  | qspi q => exact quiet_qspi_iff.mp (ho ▸ hq)
  | _ => rfl

theorem quiet_flashForceAbort : flashForceAbort.Uses Quiet := by
  simp only [flashForceAbort, qspi, call_bind, ret_bind, uses_call]
  refine ⟨rfl, fun busy => ?_⟩
  cases busy <;> simp [FlashOp.memoryCommand]

theorem quiet_flashWaitReady (timeout : UInt32) : (flashWaitReady timeout).Uses Quiet := by
  simp only [flashWaitReady, mt25ql128abaAutoPollingMemReady, qspi, call_bind, ret_bind,
    uses_call]
  refine ⟨rfl, fun status => ?_⟩
  simp only [pure_eq, ret_bind]
  split
  · exact Uses.bind quiet_flashForceAbort fun _ _ _ => by
      simp [FlashOp.memoryCommand]
  · trivial

theorem quiet_mt25ql128abaWriteEnable : mt25ql128abaWriteEnable.Uses Quiet := by
  simp only [mt25ql128abaWriteEnable, sendCommand, qspi, call_bind, ret_bind, pure_eq, uses_call]
  refine ⟨rfl, fun status => ?_⟩
  split <;> simp [FlashOp.memoryCommand]

theorem exec_rhsAssert_ok_iff {c : Bool} {log : List (Event FlashOp.Ans)} {u : Unit} :
    Exec (rhsAssert c) log (.ok u) ↔ c = true ∧ log = [] := by
  cases c <;> simp [rhsAssert]

theorem uses_locked {allowed : FlashOp → Prop} {body : FlashProg Int}
    (hacquire : allowed (.mutexAcquire rhsWaitForever)) (hrelease : allowed .mutexRelease)
    (hbody : body.Uses allowed) : (locked body).Uses allowed := by
  simp only [locked, acquireFlashMutex, releaseFlashMutex, op_bind, uses_call]
  exact ⟨hacquire, fun _ => Uses.bind hbody fun _ _ _ => ⟨hrelease, fun _ => uses_ret⟩⟩

theorem exec_locked_ok_iff {body : FlashProg Int} {log : List (Event FlashOp.Ans)} {a : Int} :
    Exec (locked body) log (.ok a) ↔
      ∃ s l t, Exec body l (.ok a) ∧
        log = ⟨.mutexAcquire rhsWaitForever, s⟩ :: (l ++ [⟨.mutexRelease, t⟩]) := by
  simp only [locked, acquireFlashMutex, releaseFlashMutex, op_bind, exec_call_iff,
    exec_bind_ok_iff, pure_eq, exec_ret_iff]
  constructor
  · rintro ⟨s, _, rfl, b, l, _, hb, ⟨t, _, rfl, rfl, he⟩, rfl⟩
    obtain rfl : a = b := by simpa using he
    exact ⟨s, l, t, hb, rfl⟩
  · rintro ⟨s, l, t, hb, rfl⟩
    exact ⟨s, _, rfl, a, l, _, hb, ⟨t, [], rfl, rfl, rfl⟩, rfl⟩

/-- A call that returns has passed its assertion, and its body ran between acquire and
release. -/
theorem FlashCall.exec_prog_ok_iff {c : FlashCall} {log : List (Event FlashOp.Ans)} {a : Int} :
    Exec c.prog log (.ok a) ↔
      c.passesAssert = true ∧ ∃ s l t, Exec c.body l (.ok a) ∧
        log = ⟨.mutexAcquire rhsWaitForever, s⟩ :: (l ++ [⟨.mutexRelease, t⟩]) := by
  rw [prog_eq, exec_bind_ok_iff, ← exec_locked_ok_iff]
  simp only [exec_rhsAssert_ok_iff]
  constructor
  · rintro ⟨_, _, l, ⟨hc, rfl⟩, h, rfl⟩
    exact ⟨hc, h⟩
  · rintro ⟨hc, h⟩
    exact ⟨(), [], log, ⟨hc, rfl⟩, h, rfl⟩

/-- `mt25ql128aba_qspi_command` sends its command once, and reports what came back. -/
theorem exec_sendCommand_iff {cmd : QspiCommand} {log : List (Event FlashOp.Ans)}
    {r : Except Halt Int} :
    Exec (sendCommand cmd) log r ↔
      ∃ s, log = [⟨.qspi (.command cmd .default), s⟩] ∧ r = .ok (halResult s) := by
  simp [sendCommand, qspi]

/-! ## A device that never fails -/

/-- Every answer is success, and the peripheral is never busy. -/
def okDevice : (o : FlashOp) → Unit → o.Ans × Unit
  | .mutexAcquire _, _ => (.ok, ())
  | .mutexRelease, _ => (.ok, ())
  | .qspi (.command _ _), _ => (.ok, ())
  | .qspi (.transmit _ _), _ => (.ok, ())
  | .qspi (.receive _), _ => ((.ok, []), ())
  | .qspi (.autoPolling _ _ _), _ => (.ok, ())
  | .qspi (.readFlag _), _ => (false, ())
  | .qspi .setAbort, _ => ((), ())
  | .qspi (.spinFlag _ _ _), _ => ((), ())
  | .qspi .clearFlags, _ => ((), ())
  | .qspi .clearFmode, _ => ((), ())
  | .qspi .setStateReady, _ => ((), ())

/-- Some device lets a program run to its end. -/
theorem exists_exec {α : Type} (p : FlashProg α) : ∃ log r, Exec p log r :=
  ⟨_, _, exec_run okDevice p ()⟩

/-- What the first part of a sequence has done, some execution of the whole begins with. -/
theorem exists_exec_bind {α β : Type} {p : FlashProg α} {l : List (Event FlashOp.Ans)} {a : α}
    (hp : Exec p l (.ok a)) (f : α → FlashProg β) : ∃ rest r, Exec (p >>= f) (l ++ rest) r := by
  obtain ⟨rest, r, hf⟩ := exists_exec (f a)
  exact ⟨rest, r, exec_bind_iff.mpr (.inr ⟨a, l, rest, hp, hf, rfl⟩)⟩

/-! ## Programs that always return -/

theorem returns_flashForceAbort : flashForceAbort.Returns := by
  simp only [flashForceAbort, qspi, call_bind, ret_bind, returns_call_iff]
  intro busy
  cases busy <;> simp

theorem returns_flashWaitReady (timeout : UInt32) : (flashWaitReady timeout).Returns := by
  simp only [flashWaitReady, mt25ql128abaAutoPollingMemReady, qspi, call_bind, ret_bind,
    returns_call_iff, pure_eq]
  intro status
  split
  · exact Returns.bind returns_flashForceAbort fun _ _ _ => by simp
  · exact returns_ret

theorem returns_sendCommand (cmd : QspiCommand) : (sendCommand cmd).Returns := by
  simp [sendCommand, qspi]

theorem returns_mt25ql128abaWriteEnable : mt25ql128abaWriteEnable.Returns := by
  refine Returns.bind (returns_sendCommand _) fun _ s _ => ?_
  split <;> simp [qspi]

theorem returns_mt25ql128abaPageProgram (data : List UInt8) (writeAddr size : UInt32) :
    (mt25ql128abaPageProgram data writeAddr size).Returns := by
  refine Returns.bind (returns_sendCommand _) fun _ s _ => ?_
  split <;> simp [qspi]

/-- Abort, then leave with a code. -/
theorem returns_flashForceAbort_bind {α : Type} (a : α) :
    (flashForceAbort >>= fun _ => (.ret a : FlashProg α)).Returns :=
  Returns.bind returns_flashForceAbort fun _ _ _ => returns_ret

theorem returns_eraseTurn (x : EraseLoop) : (eraseTurn x).Returns := by
  refine Returns.bind returns_mt25ql128abaWriteEnable fun _ we _ => ?_
  split
  · exact returns_flashForceAbort_bind _
  refine Returns.bind (returns_sendCommand _) fun _ be _ => ?_
  split
  · exact returns_flashForceAbort_bind _
  refine Returns.bind (returns_flashWaitReady _) fun _ wr _ => ?_
  split <;> exact returns_ret

theorem returns_writeTurn (pData : ℕ → UInt8) (endAddr : UInt32) (x : WriteLoop) :
    (writeTurn pData endAddr x).Returns := by
  refine Returns.bind (returns_flashWaitReady _) fun _ wr _ => ?_
  split
  · exact returns_ret
  refine Returns.bind returns_mt25ql128abaWriteEnable fun _ we _ => ?_
  split
  · exact returns_flashForceAbort_bind _
  refine Returns.bind (returns_mt25ql128abaPageProgram _ _ _) fun _ pp _ => ?_
  split
  · exact returns_flashForceAbort_bind _
  refine Returns.bind (returns_flashWaitReady _) fun _ wr _ => ?_
  split <;> exact returns_ret

/-! ## One turn -/

/-- The command of `mt25ql128aba_block_erase` for a 4 KiB subsector. -/
def eraseCommand (a : UInt32) : QspiCommand where
  instruction := .subsectorErase4kb
  addressMode := .one
  address := a

/-- The command of `mt25ql128aba_page_program`. -/
def programCommand (a n : UInt32) : QspiCommand where
  instruction := .quadInputFastProgram
  addressMode := .one
  address := a
  dataMode := .four
  nbData := n

/-- The command of `mt25ql128aba_read`. -/
def readCommand (a n : UInt32) : QspiCommand where
  instruction := .quadOutputFastRead
  addressMode := .one
  address := a
  dataMode := .four
  nbData := n
  dummyCycles := 8

/-- A turn of the erase loop that ends well has erased its subsector; any other turn
leaves the loop with an error. -/
theorem eraseTurn_ok {x : EraseLoop} {log : List (Event FlashOp.Ans)} {v : EraseLoop ⊕ Int}
    (h : Exec (eraseTurn x) log (.ok v)) :
    v = .inr flashExError ∨
      (v = if x.next.currentSize ≠ 0 then .inl x.next else .inr flashExOk) ∧
        memoryCommands log = [eraseCommand x.currentAddr] := by
  rw [eraseTurn, exec_bind_ok_iff] at h
  obtain ⟨we, l₁, l₂, hwe, h, rfl⟩ := h
  split at h
  · obtain ⟨_, _, _, -, h, -⟩ := exec_bind_ok_iff.mp h
    exact .inl (by simpa using (exec_ret_iff.mp h).2)
  rw [exec_bind_ok_iff] at h
  obtain ⟨be, l₃, l₄, hbe, h, rfl⟩ := h
  split at h
  · obtain ⟨_, _, _, -, h, -⟩ := exec_bind_ok_iff.mp h
    exact .inl (by simpa using (exec_ret_iff.mp h).2)
  rw [exec_bind_ok_iff] at h
  obtain ⟨wr, l₅, l₆, hwr, h, rfl⟩ := h
  split at h
  · exact .inl (by simpa using (exec_ret_iff.mp h).2)
  obtain ⟨rfl, hv⟩ := exec_ret_iff.mp h
  obtain ⟨s, rfl, -⟩ := exec_sendCommand_iff.mp hbe
  refine .inr ⟨by simpa using hv, ?_⟩
  simp [memoryCommands_eq_nil quiet_mt25ql128abaWriteEnable hwe,
    memoryCommands_eq_nil (quiet_flashWaitReady _) hwr, FlashOp.memoryCommand, eraseCommand]

/-- A page program sends one memory command, whether or not the transfer succeeds. -/
theorem memoryCommands_pageProgram {data : List UInt8} {a n : UInt32}
    {log : List (Event FlashOp.Ans)} {r : Except Halt Int}
    (h : Exec (mt25ql128abaPageProgram data a n) log r) :
    memoryCommands log = [programCommand a n] := by
  have hr : (mt25ql128abaPageProgram data a n).Returns := returns_mt25ql128abaPageProgram data a n
  rcases r with e | s
  · exact absurd h (hr log e)
  rw [mt25ql128abaPageProgram, exec_bind_ok_iff] at h
  obtain ⟨c, l₁, l₂, hc, h, rfl⟩ := h
  obtain ⟨st, rfl, -⟩ := exec_sendCommand_iff.mp hc
  split at h
  · obtain ⟨rfl, -⟩ := exec_ret_iff.mp h
    simp [FlashOp.memoryCommand, programCommand]
  · obtain ⟨t, l₃, l₄, ht, hs, rfl⟩ := exec_bind_ok_iff.mp h
    obtain ⟨rfl, -⟩ := exec_ret_iff.mp hs
    simp only [qspi, exec_call_iff, exec_ret_iff] at ht
    obtain ⟨_, _, rfl, rfl, -⟩ := ht
    simp [FlashOp.memoryCommand, programCommand]

/-- A turn of the write loop that ends well has programmed its data; any other turn
leaves the loop with an error. -/
theorem writeTurn_ok {pData : ℕ → UInt8} {endAddr : UInt32} {x : WriteLoop}
    {log : List (Event FlashOp.Ans)} {v : WriteLoop ⊕ Int}
    (h : Exec (writeTurn pData endAddr x) log (.ok v)) :
    (∃ e ≠ flashExOk, v = .inr e) ∨
      (v = if (x.next endAddr).currentAddr < endAddr then .inl (x.next endAddr)
        else .inr flashExOk) ∧
        memoryCommands log = [programCommand x.currentAddr x.currentSize] := by
  rw [writeTurn, exec_bind_ok_iff] at h
  obtain ⟨wr, l₁, l₂, hwr, h, rfl⟩ := h
  split at h
  · exact .inl ⟨flashExBusy, by decide, by simpa using (exec_ret_iff.mp h).2⟩
  rw [exec_bind_ok_iff] at h
  obtain ⟨we, l₃, l₄, hwe, h, rfl⟩ := h
  split at h
  · obtain ⟨_, _, _, -, h, -⟩ := exec_bind_ok_iff.mp h
    exact .inl ⟨flashExError, by decide, by simpa using (exec_ret_iff.mp h).2⟩
  rw [exec_bind_ok_iff] at h
  obtain ⟨pp, l₅, l₆, hpp, h, rfl⟩ := h
  split at h
  · obtain ⟨_, _, _, -, h, -⟩ := exec_bind_ok_iff.mp h
    exact .inl ⟨flashExError, by decide, by simpa using (exec_ret_iff.mp h).2⟩
  rw [exec_bind_ok_iff] at h
  obtain ⟨wr', l₇, l₈, hwr', h, rfl⟩ := h
  split at h
  · exact .inl ⟨flashExError, by decide, by simpa using (exec_ret_iff.mp h).2⟩
  obtain ⟨rfl, hv⟩ := exec_ret_iff.mp h
  refine .inr ⟨by simpa using hv, ?_⟩
  simp [memoryCommands_eq_nil quiet_mt25ql128abaWriteEnable hwe,
    memoryCommands_eq_nil (quiet_flashWaitReady _) hwr,
    memoryCommands_eq_nil (quiet_flashWaitReady _) hwr', memoryCommands_pageProgram hpp]

/-- Where nothing fails, a turn of the erase loop comes to its loop condition. -/
theorem exists_exec_eraseTurn (x : EraseLoop) :
    ∃ log, Exec (eraseTurn x) log
      (.ok (if x.next.currentSize ≠ 0 then .inl x.next else .inr flashExOk)) :=
  ⟨_, exec_run okDevice (eraseTurn x) ()⟩

/-- Where nothing fails, a turn of the write loop comes to its loop condition. -/
theorem exists_exec_writeTurn (pData : ℕ → UInt8) (endAddr : UInt32) (x : WriteLoop) :
    ∃ log, Exec (writeTurn pData endAddr x) log
      (.ok (if (x.next endAddr).currentAddr < endAddr then .inl (x.next endAddr)
        else .inr flashExOk)) :=
  ⟨_, exec_run okDevice (writeTurn pData endAddr x) ()⟩

/-! ## The loop variables as numbers -/

@[simp] theorem toNat_subsector4k : subsector4k.toNat = 4096 := rfl
@[simp] theorem toNat_pageSize : pageSize.toNat = 256 := rfl
@[simp] theorem toNat_flashSize : flashSize.toNat = 2 ^ 24 := rfl

@[simp] theorem toNat_next_currentSize (x : EraseLoop) :
    x.next.currentSize.toNat = x.currentSize.toNat - 4096 := by
  simp only [EraseLoop.next, gt_iff_lt, UInt32.lt_iff_toNat_lt, toNat_subsector4k]
  split
  · rw [UInt32.toNat_sub_of_le _ _ (UInt32.le_iff_toNat_le.mpr (by simp; omega))]
    rfl
  · simp
    omega

theorem next_currentSize_ne_zero_iff (x : EraseLoop) :
    x.next.currentSize ≠ 0 ↔ 4096 < x.currentSize.toNat := by
  rw [Ne, ← UInt32.toNat_inj, toNat_next_currentSize]
  simp
  omega

/-- The loop goes on only while more than one subsector is left. -/
theorem eraseTurn_goes_on {x x' : EraseLoop} {log : List (Event FlashOp.Ans)}
    (h : Exec (eraseTurn x) log (.ok (.inl x'))) :
    x' = x.next ∧ 4096 < x.currentSize.toNat ∧
      memoryCommands log = [eraseCommand x.currentAddr] := by
  rcases eraseTurn_ok h with hv | ⟨hv, hm⟩
  · simp at hv
  · split at hv
    · exact ⟨Sum.inl.inj hv, (next_currentSize_ne_zero_iff x).mp ‹_›, hm⟩
    · simp at hv

/-- The loop ends well only from its last subsector. -/
theorem eraseTurn_ends {x : EraseLoop} {log : List (Event FlashOp.Ans)}
    (h : Exec (eraseTurn x) log (.ok (.inr flashExOk))) :
    x.currentSize.toNat ≤ 4096 ∧ memoryCommands log = [eraseCommand x.currentAddr] := by
  rcases eraseTurn_ok h with hv | ⟨hv, hm⟩
  · simp [flashExOk, flashExError] at hv
  · split at hv
    · cases hv
    · rw [next_currentSize_ne_zero_iff] at *
      exact ⟨by omega, hm⟩

/-- The bound of the model's erase loop is never exhausted. -/
theorem eraseLoop_terminates (addr size : UInt32) :
    (Prog.iter eraseTurn 1048577 (eraseInit addr size)).Returns := by
  refine returns_iter (fun _ => True) (fun x => (x.currentSize.toNat + 4095) / 4096)
    (fun x _ => returns_eraseTurn x) ?_ trivial ?_
  · intro x l x' _ h
    obtain ⟨rfl, hlt, -⟩ := eraseTurn_goes_on h
    rw [toNat_next_currentSize]
    exact ⟨trivial, by omega⟩
  · have hsize : size.toNat < 2 ^ 32 := size.toNat_lt
    simp only [eraseInit]
    exact Nat.div_lt_of_lt_mul (by omega)

/-- The write loop goes on from a turn only below the end address. -/
theorem writeTurn_goes_on {pData : ℕ → UInt8} {endAddr : UInt32} {x x' : WriteLoop}
    {log : List (Event FlashOp.Ans)} (h : Exec (writeTurn pData endAddr x) log (.ok (.inl x'))) :
    x' = x.next endAddr ∧ (x.next endAddr).currentAddr < endAddr := by
  rcases writeTurn_ok h with ⟨e, -, hv⟩ | ⟨hv, -⟩
  · cases hv
  · split at hv
    · cases hv
      exact ⟨rfl, ‹_›⟩
    · cases hv

/-- What holds at the start of every turn of the write loop but the first. -/
structure WriteLoop.Inside (endAddr : UInt32) (x : WriteLoop) : Prop where
  below : x.currentAddr.toNat < endAddr.toNat
  size : x.currentSize.toNat = min 256 (endAddr.toNat - x.currentAddr.toNat)

/-- A turn that goes on arrives below the end address, with the size that fits. -/
theorem WriteLoop.inside_next {endAddr : UInt32} (hend : endAddr.toNat ≤ 2 ^ 24) (x : WriteLoop)
    (h : (x.next endAddr).currentAddr < endAddr) : (x.next endAddr).Inside endAddr := by
  have hlt := UInt32.lt_iff_toNat_lt.mp h
  refine ⟨hlt, ?_⟩
  change (x.currentAddr + x.currentSize).toNat < _ at hlt
  simp only [WriteLoop.next]
  generalize x.currentAddr + x.currentSize = cur at *
  have hadd : (cur + pageSize).toNat = cur.toNat + 256 := by
    rw [UInt32.toNat_add, toNat_pageSize]
    omega
  simp only [gt_iff_lt, UInt32.lt_iff_toNat_lt, hadd]
  split
  · rw [UInt32.toNat_sub_of_le _ _ (UInt32.le_iff_toNat_le.mpr (by omega))]
    omega
  · rw [toNat_pageSize]
    omega

/-- Inside the loop the address does not wrap. -/
theorem WriteLoop.Inside.toNat_next {endAddr : UInt32} {x : WriteLoop} (h : x.Inside endAddr) :
    (x.next endAddr).currentAddr.toNat = x.currentAddr.toNat + x.currentSize.toNat := by
  have hb := h.below
  have hs := h.size
  have he := endAddr.toNat_lt
  change (x.currentAddr + x.currentSize).toNat = _
  rw [UInt32.toNat_add]
  omega

/-- The bound of the model's write loop is never exhausted. -/
theorem writeLoop_terminates (pData : ℕ → UInt8) (addr size : UInt32)
    (h : addr + size ≤ flashSize) :
    (Prog.iter (writeTurn pData (addr + size)) 65538 (writeInit addr size)).Returns := by
  have hend : (addr + size).toNat ≤ 2 ^ 24 := UInt32.le_iff_toNat_le.mp h
  generalize addr + size = endAddr at hend
  refine Returns.bind (returns_writeTurn _ _ _) ?_
  rintro l (x | e) hx
  · obtain ⟨rfl, hlt⟩ := writeTurn_goes_on hx
    refine returns_iter (fun x => x.Inside endAddr)
      (fun x => (endAddr.toNat - x.currentAddr.toNat + 255) / 256)
      (fun x _ => returns_writeTurn _ _ x) ?_ (WriteLoop.inside_next hend _ hlt) ?_
    · intro x l x' hI hx
      obtain ⟨rfl, hlt⟩ := writeTurn_goes_on hx
      refine ⟨WriteLoop.inside_next hend _ hlt, ?_⟩
      have hn := hI.toNat_next
      have hs := hI.size
      have hlt' := UInt32.lt_iff_toNat_lt.mp hlt
      omega
    · change (endAddr.toNat - _ + 255) / 256 < 65537
      exact Nat.div_lt_of_lt_mul (by omega)
  · exact returns_ret

/-- A call that passes its assertion comes to its release. -/
theorem FlashCall.returns_body {c : FlashCall} (h : c.passesAssert = true) : c.body.Returns := by
  cases c with
  | read addr size =>
      refine Returns.bind (Returns.bind ?_ fun _ _ _ => returns_flashForceAbort_bind _)
        fun _ _ _ => returns_ret
      refine Returns.bind (returns_flashWaitReady 10) fun _ wr _ => ?_
      split
      · exact returns_ret
      refine Returns.bind (Returns.bind (returns_sendCommand _) fun _ s _ => ?_)
        fun _ _ _ => returns_ret
      split <;> simp [qspi]
  | write addr pData size => exact writeLoop_terminates pData addr size (of_decide_eq_true h)
  | blockErase addr size =>
      refine Returns.bind (returns_flashWaitReady 10) fun _ wr _ => ?_
      split
      · exact returns_ret
      · exact eraseLoop_terminates addr size
  | eraseChip =>
      refine Returns.bind (Returns.bind (returns_flashWaitReady 10) fun _ wr _ => ?_) fun _ e _ =>
        Returns.bind (returns_flashWaitReady _) fun _ wr _ => ?_
      · split
        · exact returns_ret
        refine Returns.bind returns_mt25ql128abaWriteEnable fun _ we _ => ?_
        split
        · exact returns_flashForceAbort_bind _
        refine Returns.bind (returns_sendCommand _) fun _ ce _ => ?_
        split
        · exact returns_flashForceAbort_bind _
        · exact returns_ret
      · split <;> exact returns_ret

theorem FlashCall.returns_prog {c : FlashCall} (h : c.passesAssert = true) : c.prog.Returns := by
  rw [prog_eq, h]
  simp only [rhsAssert, if_true, pure_eq, ret_bind, locked, acquireFlashMutex, op_bind,
    returns_call_iff]
  intro _
  refine Returns.bind (returns_body h) fun _ _ _ => ?_
  simp [releaseFlashMutex]

end RhsCore.FlashEx
