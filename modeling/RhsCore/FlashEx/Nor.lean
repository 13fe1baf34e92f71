import RhsCore.FlashEx.Coverage

/-!
# The flash behind the QSPI

A NOR flash.  A page program takes bits of its page to 0, and its address goes round inside
the page; an erase sets its bytes to `0xFF`.  Both need the write enable latch, and while
one of them is under way the flash only answers for its status.

Of what the QSPI layer reports, only a success says something: a transfer that fails may
have sent some of its bytes.

## Main definitions

* `Device`, `Device.command`, `Device.transmitted` — the flash, and what it is sent.
* `Device.Step` — what an operation of the flash layer does to it.
* `programPage_erased` — a page program inside an erased page.
-/

namespace RhsCore.FlashEx

open Prog

/-! ## The flash -/

structure Device where
  mem : ℕ → UInt8
  /-- The write enable latch. -/
  wel : Bool
  /-- A program or an erase is under way. -/
  busy : Bool
  /-- The command whose data come next. -/
  pending : Option QspiCommand

/-- The address that is sent, of 24 bits. -/
def QspiCommand.wireAddress (cmd : QspiCommand) : ℕ := cmd.address.toNat % 2 ^ 24

/-- The size of what an instruction erases. -/
def Instruction.eraseUnit : Instruction → Option ℕ
  | .subsectorErase4kb => some 4096
  | .subsectorErase32kb => some 32768
  | .sectorErase => some 65536
  | .bulkErase => some (2 ^ 24)
  | _ => none

/-- A page program: the bytes are ANDed to those of the page, from `a` on. -/
def programPage : ℕ → List UInt8 → (ℕ → UInt8) → ℕ → UInt8
  | _, [], mem => mem
  | a, b :: data, mem =>
      programPage (a / 256 * 256 + (a % 256 + 1) % 256) data
        (Function.update mem a (mem a &&& b))

/-- What is under way comes to its end. -/
def Device.finish (d : Device) : Device := { d with busy := false, wel := false }

/-- A command. -/
def Device.command (d : Device) (cmd : QspiCommand) : Device :=
  if d.busy then { d with pending := none }
  else
    match cmd.instruction, cmd.instruction.eraseUnit with
    | .writeEnable, _ => { d with wel := true, pending := none }
    | .quadInputFastProgram, _ | .quadOutputFastRead, _ => { d with pending := some cmd }
    | _, some unit =>
        if d.wel then
          { d with
            mem := fun j => if j / unit = cmd.wireAddress / unit then 0xFF else d.mem j
            busy := true
            pending := none }
        else { d with pending := none }
    | _, none => { d with pending := none }

/-- Data that follow a command. -/
def Device.transmitted (d : Device) (data : List UInt8) : Device :=
  match d.pending with
  | none => d
  | some cmd =>
      if cmd.instruction = .quadInputFastProgram ∧ d.wel = true then
        { d with mem := programPage cmd.wireAddress data d.mem, busy := true, pending := none }
      else { d with pending := none }

/-- Data that are asked for after a command. -/
def Device.Sends (d : Device) (data : List UInt8) : Prop :=
  ∀ cmd, d.pending = some cmd → cmd.instruction = .quadOutputFastRead →
    data = (List.range cmd.nbData.toNat).map fun i => d.mem ((cmd.wireAddress + i) % 2 ^ 24)

/-- The status register, of both dies. -/
def Device.status (d : Device) : UInt32 :=
  (if d.wel then 0x0202 else 0) ||| (if d.busy then 0x0101 else 0)

/-! ## Operations -/

/-- What an operation does, with what it reports. -/
def Device.Act (d : Device) : (o : FlashOp) → o.Ans → Device → Prop
  | .mutexAcquire _, _, d' => d' = d
  | .mutexRelease, _, d' => d' = d
  | .qspi (.command cmd _), status, d' =>
      d' = d.command cmd ∨
        status ≠ HalStatus.ok ∧ d' = { d with pending := none }
  | .qspi (.transmit data _), status, d' =>
      d' = d.transmitted data ∨
        status ≠ HalStatus.ok ∧ ((∃ n, d' = d.transmitted (data.take n)) ∨
          d' = { d with pending := none })
  | .qspi (.receive _), answer, d' =>
      (answer.1 = HalStatus.ok → d.Sends answer.2) ∧ d' = { d with pending := none }
  | .qspi (.autoPolling _ cfg _), status, d' =>
      (status = HalStatus.ok → d.status &&& cfg.mask = cfg.match') ∧
        d' = { d with pending := none }
  | .qspi (.readFlag _), _, d' => d' = d
  | .qspi .setAbort, _, d' => d' = { d with pending := none }
  | .qspi (.spinFlag _ _ _), _, d' => d' = d
  | .qspi .clearFlags, _, d' => d' = d
  | .qspi .clearFmode, _, d' => d' = d
  | .qspi .setStateReady, _, d' => d' = d

/-- Before an operation, the flash may have come to the end of what is under way. -/
def Device.Step (d : Device) (o : FlashOp) (a : o.Ans) (d' : Device) : Prop :=
  d.Act o a d' ∨ d.busy = true ∧ d.finish.Act o a d'

/-! ## A page program in an erased page -/

/-- The bytes from `a` on are `data`. -/
def programmed (a : ℕ) (data : List UInt8) (mem : ℕ → UInt8) : ℕ → UInt8 :=
  fun j => if a ≤ j then (data[j - a]?).getD (mem j) else mem j

variable {a : ℕ} {data : List UInt8} {mem : ℕ → UInt8}

theorem programmed_nil : programmed a [] mem = mem := by
  funext j
  simp [programmed]

theorem programmed_outside {j : ℕ} (h : j < a ∨ a + data.length ≤ j) :
    programmed a data mem j = mem j := by
  rw [programmed]
  split
  · rw [List.getElem?_eq_none (by omega), Option.getD_none]
  · rfl

theorem programmed_inside {i : ℕ} (h : i < data.length) :
    programmed a data mem (a + i) = data[i] := by
  rw [programmed, if_pos (Nat.le_add_right a i), Nat.add_sub_cancel_left,
    List.getElem?_eq_getElem h, Option.getD_some]

theorem programmed_append (data data' : List UInt8) :
    programmed (a + data.length) data' (programmed a data mem) =
      programmed a (data ++ data') mem := by
  funext j
  by_cases h₁ : j < a + data.length
  · rw [programmed_outside (.inl h₁)]
    simp only [programmed]
    split
    · rw [List.getElem?_append_left (by omega)]
    · rfl
  · have hj : a ≤ j := by omega
    rw [programmed, if_pos (by omega), programmed_outside (.inr (by omega)), programmed,
      if_pos hj, List.getElem?_append_right (by omega), Nat.sub_sub]

theorem ones_and (b : UInt8) : 0xFF &&& b = b := by
  refine UInt8.toBitVec_inj.mp ?_
  exact BitVec.allOnes_and

/-- Inside an erased page, a page program leaves its data. -/
theorem programPage_erased (hpage : a % 256 + data.length ≤ 256)
    (herased : ∀ i < data.length, mem (a + i) = 0xFF) :
    programPage a data mem = programmed a data mem := by
  induction data generalizing a mem with
  | nil => exact programmed_nil.symm
  | cons b data ih =>
      have hfirst : Function.update mem a (mem a &&& b) = programmed a [b] mem := by
        have hone : mem a = 0xFF := herased 0 (Nat.succ_pos _)
        funext j
        by_cases hj : j = a
        · subst hj
          have hin : programmed j [b] mem (j + 0) = b := programmed_inside Nat.one_pos
          rw [Function.update_self, hone, ones_and]
          exact hin.symm
        · rw [Function.update_of_ne hj, programmed_outside]
          simp only [List.length_singleton]
          omega
      rw [programPage, hfirst]
      rw [List.length_cons] at hpage
      cases data with
      | nil => rfl
      | cons c data =>
          -- the address goes round at the end of the page only
          have hnext : a / 256 * 256 + (a % 256 + 1) % 256 = a + 1 := by
            rw [List.length_cons] at hpage
            omega
          rw [hnext, ih (by omega) ?_]
          · exact programmed_append [b] (c :: data)
          · intro i hi
            rw [programmed_outside (.inr (by simp)), Nat.add_assoc, Nat.add_comm 1]
            exact herased (i + 1) (by simpa using hi)

/-! ## What leaves the memory alone -/

/-- Operations that do not change the memory. -/
def Calm : FlashOp → Prop
  | .qspi (.transmit _ _) => False
  | .qspi (.command cmd _) => cmd.instruction.eraseUnit = none
  | _ => True

variable {d d' : Device}

theorem mem_command {cmd : QspiCommand} (h : cmd.instruction.eraseUnit = none) :
    (d.command cmd).mem = d.mem := by
  rw [Device.command]
  split
  · rfl
  · split
    · rfl
    · rfl
    · rfl
    · rename_i hunit _ _ _
      rw [h] at hunit
      cases hunit
    · rfl

theorem mem_act {o : FlashOp} {answer : o.Ans} (ho : Calm o) (h : d.Act o answer d') :
    d'.mem = d.mem := by
  cases o with
  | mutexAcquire timeout =>
      cases h
      rfl
  | mutexRelease =>
      cases h
      rfl
  | qspi q =>
      cases q with
      | command cmd timeout =>
          rcases h with rfl | ⟨-, rfl⟩
          · exact mem_command ho
          · rfl
      | transmit data timeout => exact ho.elim
      | receive timeout =>
          obtain ⟨-, rfl⟩ := h
          rfl
      | autoPolling cmd cfg timeout =>
          obtain ⟨-, rfl⟩ := h
          rfl
      | _ =>
          cases h
          rfl

theorem mem_step (d : Device) (o : FlashOp) (answer : o.Ans) (d' : Device) (ho : Calm o)
    (h : d.Step o answer d') : d'.mem = d.mem := by
  rcases h with h | ⟨-, h⟩
  · exact mem_act ho h
  · exact mem_act (d := d.finish) ho h

/-- A log of operations that do not change the memory. -/
theorem mem_of_calm {α : Type} {p : FlashProg α} {log : List (Event FlashOp.Ans)}
    {r : Except Halt α} (hp : p.Uses Calm) (h : Exec p log r)
    (hd : Served Device.Step d log d') : d'.mem = d.mem :=
  hd.keeps mem_step (hp.of_mem h)

end RhsCore.FlashEx
