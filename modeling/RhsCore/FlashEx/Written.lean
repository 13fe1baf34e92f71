import RhsCore.FlashEx.Nor
import RhsCore.FlashEx.Range

/-!
# What a write leaves in the flash

The write loop waits for the flash, sets the latch, programs what is left of a page, and
waits again.  Each turn stays in its page, so that nothing goes round; a turn that fails has
programmed a first part of its page at most.

## Main definitions

* `WriteLoop.At` — where a turn of the loop begins.
* `turn_served` — what it does to the flash.
* `Written`, `write_served` — what a whole write does.
-/

namespace RhsCore.FlashEx

open Prog

variable {d d' : Device} {log : List (Event FlashOp.Ans)}

/-! ## The driver's functions -/

theorem calm_flashForceAbort : flashForceAbort.Uses Calm := by
  simp only [flashForceAbort, qspi, call_bind, ret_bind, uses_call]
  refine ⟨trivial, fun busy => ?_⟩
  cases busy <;> simp [Calm]

theorem calm_flashWaitReady (timeout : UInt32) : (flashWaitReady timeout).Uses Calm := by
  simp only [flashWaitReady, mt25ql128abaAutoPollingMemReady, qspi, call_bind, ret_bind,
    uses_call]
  refine ⟨trivial, fun status => ?_⟩
  simp only [pure_eq, ret_bind]
  split
  · exact Uses.bind calm_flashForceAbort fun _ _ _ => by simp [Calm]
  · trivial

theorem calm_sendCommand {cmd : QspiCommand} (h : cmd.instruction.eraseUnit = none) :
    (sendCommand cmd).Uses Calm := ⟨h, fun _ => trivial⟩

theorem calm_mt25ql128abaWriteEnable : mt25ql128abaWriteEnable.Uses Calm := by
  refine Uses.bind (calm_sendCommand rfl) fun _ s _ => ?_
  split
  · exact uses_ret
  · exact ⟨trivial, fun _ => uses_ret⟩

theorem halResult_eq_zero_iff {s : HalStatus} : halResult s = 0 ↔ s = .ok := by
  cases s <;> simp [halResult]

theorem exec_ready_iff {timeout : UInt32} {r : Except Halt Int} :
    Exec (mt25ql128abaAutoPollingMemReady timeout) log r ↔
      ∃ s, log = [⟨.qspi (.autoPolling { instruction := .readStatusRegister, dataMode := .one }
        { match' := 0, mask := 0x0101 } (.ms timeout)), s⟩] ∧ r = .ok (halResult s) := by
  simp [mt25ql128abaAutoPollingMemReady, qspi]

theorem busy_of_status (h : d.status &&& 0x0101 = 0) : d.busy = false := by
  cases hbusy : d.busy with
  | false => rfl
  | true =>
      rw [Device.status, hbusy] at h
      cases hwel : d.wel with
      | false =>
          rw [hwel] at h
          exact absurd h (by decide)
      | true =>
          rw [hwel] at h
          exact absurd h (by decide)

/-- A flash that reports that it is ready is. -/
theorem ready_served {timeout : UInt32}
    (h : Exec (mt25ql128abaAutoPollingMemReady timeout) log (.ok 0))
    (hd : Served Device.Step d log d') : d'.busy = false := by
  obtain ⟨s, rfl, hs⟩ := exec_ready_iff.mp h
  obtain rfl : s = .ok := halResult_eq_zero_iff.mp (Except.ok.inj hs).symm
  simp only [served_cons_iff, served_nil_iff] at hd
  obtain ⟨_, hstep, rfl⟩ := hd
  rcases hstep with ⟨hstatus, rfl⟩ | ⟨-, -, rfl⟩
  · exact busy_of_status (hstatus rfl)
  · rfl

theorem waitReady_served {timeout : UInt32} (h : Exec (flashWaitReady timeout) log (.ok 0))
    (hd : Served Device.Step d log d') : d'.busy = false := by
  rw [flashWaitReady, exec_bind_ok_iff] at h
  obtain ⟨s, l₁, l₂, hready, h, rfl⟩ := h
  obtain ⟨mid, hd₁, hd₂⟩ := served_append_iff.mp hd
  split at h
  · obtain ⟨_, l₃, l₄, -, hagain, rfl⟩ := exec_bind_ok_iff.mp h
    obtain ⟨mid', -, hd₄⟩ := served_append_iff.mp hd₂
    exact ready_served hagain hd₄
  · rename_i hs
    obtain rfl : s = 0 := by simpa using hs
    obtain ⟨rfl, -⟩ := exec_ret_iff.mp h
    obtain rfl := served_nil_iff.mp hd₂
    exact ready_served hready hd₁

/-- Abort, then leave with a code. -/
theorem abort_served {α : Type} {a v : α}
    (h : Exec (flashForceAbort >>= fun _ => (.ret a : FlashProg α)) log (.ok v))
    (hd : Served Device.Step d log d') : v = a ∧ d'.mem = d.mem := by
  obtain ⟨_, l, l', habort, hret, rfl⟩ := exec_bind_ok_iff.mp h
  obtain ⟨rfl, hv⟩ := exec_ret_iff.mp hret
  rw [List.append_nil] at hd
  exact ⟨Except.ok.inj hv, mem_of_calm calm_flashForceAbort habort hd⟩

/-- A flash that is ready does not change on its own. -/
theorem step_ready {o : FlashOp} {answer : o.Ans} (hbusy : d.busy = false) :
    d.Step o answer d' ↔ d.Act o answer d' := by
  simp [Device.Step, hbusy]

/-- A flash that is ready takes a command. -/
theorem sendCommand_served {cmd : QspiCommand} (h : Exec (sendCommand cmd) log (.ok 0))
    (hbusy : d.busy = false) (hd : Served Device.Step d log d') : d' = d.command cmd := by
  obtain ⟨status, rfl, hs⟩ := exec_sendCommand_iff.mp h
  obtain rfl : status = .ok := halResult_eq_zero_iff.mp (Except.ok.inj hs).symm
  simp only [served_cons_iff, served_nil_iff] at hd
  obtain ⟨_, hcommand, rfl⟩ := hd
  rw [step_ready hbusy] at hcommand
  rcases hcommand with rfl | ⟨hne, -⟩
  · rfl
  · exact absurd rfl hne

/-- The latch is set. -/
theorem writeEnable_served (h : Exec mt25ql128abaWriteEnable log (.ok 0))
    (hbusy : d.busy = false) (hd : Served Device.Step d log d') :
    d'.wel = true ∧ d'.busy = false := by
  rw [mt25ql128abaWriteEnable, exec_bind_ok_iff] at h
  obtain ⟨s, l₁, l₂, hsend, h, rfl⟩ := h
  obtain ⟨mid, hd₁, hd₂⟩ := served_append_iff.mp hd
  split at h
  · have hcode := (exec_ret_iff.mp h).2
    cases hcode
  · rename_i hzero
    obtain rfl : s = 0 := by simpa using hzero
    have hmid : mid = { d with wel := true, pending := none } := by
      rw [sendCommand_served hsend hbusy hd₁]
      simp [Device.command, hbusy]
    simp only [qspi, call_bind, ret_bind, exec_call_iff, pure_eq, exec_ret_iff] at h
    obtain ⟨polled, _, rfl, rfl, -⟩ := h
    simp only [served_cons_iff, served_nil_iff] at hd₂
    obtain ⟨_, hpoll, rfl⟩ := hd₂
    rw [hmid, step_ready (d := { d with wel := true, pending := none }) hbusy] at hpoll
    obtain ⟨-, rfl⟩ := hpoll
    exact ⟨rfl, hbusy⟩

/-- Data that follow the command of a page program. -/
theorem mem_transmitted {addr size : UInt32} (hwel : d.wel = true)
    (hpending : d.pending = some (programCommand addr size)) (haddr : addr.toNat < 2 ^ 24)
    (data : List UInt8) : (d.transmitted data).mem = programPage addr.toNat data d.mem := by
  have hwire : (programCommand addr size).wireAddress = addr.toNat := Nat.mod_eq_of_lt haddr
  have hprogram : (programCommand addr size).instruction = .quadInputFastProgram := rfl
  simp [Device.transmitted, hpending, hwel, hprogram, hwire]

/-- A page program, or the first part of one. -/
theorem pageProgram_served {data : List UInt8} {addr size : UInt32} {r : Int}
    (h : Exec (mt25ql128abaPageProgram data addr size) log (.ok r)) (hwel : d.wel = true)
    (hbusy : d.busy = false) (haddr : addr.toNat < 2 ^ 24)
    (hd : Served Device.Step d log d') :
    (r = 0 → d'.mem = programPage addr.toNat data d.mem) ∧
      ∃ k, d'.mem = programPage addr.toNat (data.take k) d.mem := by
  have hnothing : d.mem = programPage addr.toNat (data.take 0) d.mem := rfl
  rw [mt25ql128abaPageProgram, exec_bind_ok_iff] at h
  obtain ⟨s, l₁, l₂, hsend, h, rfl⟩ := h
  obtain ⟨mid, hd₁, hd₂⟩ := served_append_iff.mp hd
  split at h
  · have hmem : mid.mem = d.mem := mem_of_calm (calm_sendCommand rfl) hsend hd₁
    obtain ⟨rfl, hr⟩ := exec_ret_iff.mp h
    obtain rfl := served_nil_iff.mp hd₂
    cases hr
    exact ⟨fun hzero => absurd hzero (by decide), 0, hmem⟩
  · rename_i hzero
    obtain rfl : s = 0 := by simpa using hzero
    have hmid : mid = { d with pending := some (programCommand addr size) } := by
      rw [sendCommand_served hsend hbusy hd₁]
      simp [Device.command, hbusy, programCommand]
    simp only [qspi, call_bind, ret_bind, exec_call_iff, pure_eq, exec_ret_iff] at h
    obtain ⟨sent, _, rfl, rfl, hr⟩ := h
    simp only [served_cons_iff, served_nil_iff] at hd₂
    obtain ⟨_, htransmit, rfl⟩ := hd₂
    rw [hmid, step_ready (d := { d with pending := some (programCommand addr size) }) hbusy]
      at htransmit
    have hdone := mem_transmitted (d := { d with pending := some (programCommand addr size) })
      hwel rfl haddr
    -- only a transfer that is reported to have failed stops in the middle
    have hfailed (hne : sent ≠ .ok) : r ≠ 0 := by
      intro hzero
      rw [hzero] at hr
      exact hne (halResult_eq_zero_iff.mp (Except.ok.inj hr).symm)
    rcases htransmit with rfl | ⟨hne, ⟨k, rfl⟩ | rfl⟩
    · refine ⟨fun _ => hdone data, data.length, ?_⟩
      rw [List.take_length]
      exact hdone data
    · exact ⟨fun hzero => absurd hzero (hfailed hne), k, hdone _⟩
    · exact ⟨fun hzero => absurd hzero (hfailed hne), 0, hnothing⟩

/-! ## One turn -/

/-- A turn begins with `written` bytes behind it, at `addr` or at the start of a page, and
takes what is left of the page, or of the data. -/
structure WriteLoop.At (addr size : ℕ) (x : WriteLoop) : Prop where
  currentAddr : x.currentAddr.toNat = addr + x.written
  currentSize : x.currentSize.toNat = min (size - x.written) (256 - (addr + x.written) % 256)
  boundary : x.written = 0 ∨ (addr + x.written) % 256 = 0
  left : x.written < size

/-- The last turn ends where the data do. -/
theorem WriteLoop.At.last {addr size : UInt32} {x : WriteLoop} (h : x.At addr.toNat size.toNat)
    (hrange : addr.toNat + size.toNat ≤ 2 ^ 24)
    (hend : ¬ x.currentAddr + x.currentSize < addr + size) :
    x.written + x.currentSize.toNat = size.toNat := by
  have haddr := h.currentAddr
  have hcur := h.currentSize
  have hleft := h.left
  have hlt : ¬ (x.currentAddr + x.currentSize).toNat < (addr + size).toNat :=
    fun hlt => hend (UInt32.lt_iff_toNat_lt.mpr hlt)
  rw [UInt32.toNat_add, UInt32.toNat_add] at hlt
  omega

theorem WriteLoop.at_writeInit {addr size : UInt32} (hsize : 0 < size.toNat) :
    (writeInit addr size).At addr.toNat size.toNat where
  currentAddr := rfl
  currentSize := toNat_writeInit_currentSize addr size
  boundary := .inl rfl
  left := hsize

theorem WriteLoop.At.next {addr size : UInt32} {x : WriteLoop}
    (h : x.At addr.toNat size.toNat) (hrange : addr.toNat + size.toNat ≤ 2 ^ 24)
    (hnext : (x.next (addr + size)).currentAddr < addr + size) :
    (x.next (addr + size)).At addr.toNat size.toNat := by
  have hend : (addr + size).toNat = addr.toNat + size.toNat := by
    rw [UInt32.toNat_add]
    omega
  have haddr := h.currentAddr
  have hsize := h.currentSize
  have hleft := h.left
  have hinside := x.inside_next (by omega) hnext
  have hbelow := hinside.below
  have hsize' := hinside.size
  have haddr' : (x.next (addr + size)).currentAddr.toNat =
      x.currentAddr.toNat + x.currentSize.toNat := by
    change (x.currentAddr + x.currentSize).toNat = _
    rw [UInt32.toNat_add]
    omega
  have hwritten : (x.next (addr + size)).written = x.written + x.currentSize.toNat := rfl
  -- a turn that does not end the write ends at the end of its page
  have hpage : x.currentSize.toNat = 256 - (addr.toNat + x.written) % 256 := by omega
  have hboundary : (addr.toNat + (x.next (addr + size)).written) % 256 = 0 := by omega
  refine ⟨by omega, ?_, .inr hboundary, by omega⟩
  rw [hsize', hboundary, hwritten, hend, haddr', haddr]
  omega

/-- The data that are written. -/
def writtenData (pData : ℕ → UInt8) (size : ℕ) : List UInt8 := (List.range size).map pData

@[simp] theorem length_writtenData (pData : ℕ → UInt8) (size : ℕ) :
    (writtenData pData size).length = size := by
  simp [writtenData]

/-- What is written after a turn, or a first part of it. -/
theorem writtenData_append (pData : ℕ → UInt8) (x : WriteLoop) {k : ℕ}
    (hk : k ≤ x.currentSize.toNat) :
    writtenData pData x.written ++ (x.data pData).take k = writtenData pData (x.written + k) := by
  rw [writtenData, writtenData, WriteLoop.data, ← List.map_take, List.take_range,
    Nat.min_eq_left hk, List.range_add, List.map_append, List.map_map]
  rfl

/-- In erased memory a turn programs its bytes, or the first of them. -/
theorem programPage_turn {addr size k : ℕ} {pData : ℕ → UInt8} {x : WriteLoop}
    {mem : ℕ → UInt8} (h : x.At addr size) (herased : ∀ i < size, mem (addr + i) = 0xFF)
    (hk : k ≤ x.currentSize.toNat) :
    programPage (addr + x.written) ((x.data pData).take k)
        (programmed addr (writtenData pData x.written) mem) =
      programmed addr (writtenData pData (x.written + k)) mem := by
  have hsize := h.currentSize
  have hleft := h.left
  have hlength : ((x.data pData).take k).length = k := by
    rw [List.length_take, WriteLoop.data, List.length_map, List.length_range]
    omega
  rw [programPage_erased]
  · have happend : programmed (addr + _) _ (programmed addr _ mem) = _ :=
      programmed_append (writtenData pData x.written) ((x.data pData).take k)
    rw [length_writtenData] at happend
    rw [happend, writtenData_append pData x hk]
  · rw [hlength]
    omega
  · intro i hi
    rw [hlength] at hi
    rw [programmed_outside (.inr (by rw [length_writtenData]; omega)), Nat.add_assoc]
    exact herased _ (by omega)

/-- What is programmed when a turn leaves with an error. -/
def Stopped (addr : ℕ) (pData : ℕ → UInt8) (mem : ℕ → UInt8) (x : WriteLoop) (d' : Device) :
    Prop :=
  ∃ k ≤ x.currentSize.toNat, d'.mem = programmed addr (writtenData pData (x.written + k)) mem

/-- What a turn leaves in memory: its page, and it goes on or ends well, or an error and a first
part of the page. -/
def TurnLeaves (addr size : UInt32) (pData : ℕ → UInt8) (mem : ℕ → UInt8) (x : WriteLoop)
    (d' : Device) (v : WriteLoop ⊕ Int) : Prop :=
  (∃ e ≠ flashExOk, v = .inr e ∧ Stopped addr.toNat pData mem x d') ∨
    d'.mem = programmed addr.toNat (writtenData pData (x.next (addr + size)).written) mem ∧
      v = if (x.next (addr + size)).currentAddr < addr + size then .inl (x.next (addr + size))
        else .inr flashExOk

/-- The part of a turn that programs. -/
def programTurn (pData : ℕ → UInt8) (endAddr : UInt32) (x : WriteLoop) :
    FlashProg (WriteLoop ⊕ Int) := do
  if (← mt25ql128abaPageProgram (x.data pData) x.currentAddr x.currentSize) ≠ 0 then
    flashForceAbort
    return .inr flashExError
  if (← flashWaitReady 10) ≠ 0 then return .inr flashExError
  return if (x.next endAddr).currentAddr < endAddr then .inl (x.next endAddr) else .inr flashExOk

theorem writeTurn_eq (pData : ℕ → UInt8) (endAddr : UInt32) (x : WriteLoop) :
    writeTurn pData endAddr x = (do
      if (← flashWaitReady 10) ≠ 0 then return .inr flashExBusy
      if (← mt25ql128abaWriteEnable) ≠ 0 then
        flashForceAbort
        return .inr flashExError
      programTurn pData endAddr x) := rfl

section

variable {addr size : UInt32} {pData : ℕ → UInt8} {x : WriteLoop} {mem : ℕ → UInt8}
  {v : WriteLoop ⊕ Int}

/-- With the write enabled, the page is programmed, or a first part of it. -/
theorem programTurn_served (haddr : x.currentAddr.toNat < 2 ^ 24)
    (hx : x.At addr.toNat size.toNat) (herased : ∀ i < size.toNat, mem (addr.toNat + i) = 0xFF)
    (hmem : d.mem = programmed addr.toNat (writtenData pData x.written) mem)
    (hwel : d.wel = true) (hbusy : d.busy = false)
    (h : Exec (programTurn pData (addr + size) x) log (.ok v))
    (hd : Served Device.Step d log d') : TurnLeaves addr size pData mem x d' v := by
  rw [programTurn, exec_bind_ok_iff] at h
  obtain ⟨pp, l₁, l₂, hpp, h, rfl⟩ := h
  obtain ⟨d₁, hd₁, hd⟩ := served_append_iff.mp hd
  obtain ⟨hdone, k, hpart⟩ := pageProgram_served hpp hwel hbusy haddr hd₁
  have hlength : (x.data pData).length = x.currentSize.toNat := by simp [WriteLoop.data]
  rw [hmem, hx.currentAddr] at hdone hpart
  split at h
  · obtain ⟨hv, habort⟩ := abort_served h hd
    refine .inl ⟨flashExError, by decide, hv, min k x.currentSize.toNat, Nat.min_le_right _ _, ?_⟩
    rw [habort, hpart, List.take_eq_take_min, hlength]
    exact programPage_turn hx herased (Nat.min_le_right _ _)
  rename_i hpp₀
  obtain rfl : pp = 0 := by simpa using hpp₀
  have hfull : d₁.mem =
      programmed addr.toNat (writtenData pData (x.written + x.currentSize.toNat)) mem := by
    have htake : (x.data pData).take x.currentSize.toNat = x.data pData := by
      rw [← hlength, List.take_length]
    rw [hdone rfl, ← programPage_turn hx herased (Nat.le_refl _), htake]
  rw [exec_bind_ok_iff] at h
  obtain ⟨wr, l₃, l₄, hwr, h, rfl⟩ := h
  obtain ⟨d₂, hd₂, hd⟩ := served_append_iff.mp hd
  have hmem₂ := (mem_of_calm (calm_flashWaitReady 10) hwr hd₂).trans hfull
  split at h
  · obtain ⟨rfl, hv⟩ := exec_ret_iff.mp h
    obtain rfl := served_nil_iff.mp hd
    exact .inl ⟨flashExError, by decide, Except.ok.inj hv, _, Nat.le_refl _, hmem₂⟩
  · obtain ⟨rfl, hv⟩ := exec_ret_iff.mp h
    obtain rfl := served_nil_iff.mp hd
    exact .inr ⟨hmem₂, Except.ok.inj hv⟩

/-- **One turn**: it programs its page and goes on or ends well, or it leaves with an error and
has programmed a first part of it. -/
theorem turn_served (hrange : addr.toNat + size.toNat ≤ 2 ^ 24)
    (hx : x.At addr.toNat size.toNat) (herased : ∀ i < size.toNat, mem (addr.toNat + i) = 0xFF)
    (hmem : d.mem = programmed addr.toNat (writtenData pData x.written) mem)
    (h : Exec (writeTurn pData (addr + size) x) log (.ok v))
    (hd : Served Device.Step d log d') : TurnLeaves addr size pData mem x d' v := by
  have hstill {d'' : Device} (hsame : d''.mem = d.mem) : Stopped addr.toNat pData mem x d'' :=
    ⟨0, Nat.zero_le _, hsame.trans hmem⟩
  have haddr : x.currentAddr.toNat < 2 ^ 24 := by
    rw [hx.currentAddr]
    have hleft := hx.left
    omega
  rw [writeTurn_eq, exec_bind_ok_iff] at h
  obtain ⟨wr, l₁, l₂, hwr, h, rfl⟩ := h
  obtain ⟨d₁, hd₁, hd⟩ := served_append_iff.mp hd
  have hmem₁ := mem_of_calm (calm_flashWaitReady 10) hwr hd₁
  split at h
  · obtain ⟨rfl, hv⟩ := exec_ret_iff.mp h
    obtain rfl := served_nil_iff.mp hd
    exact .inl ⟨flashExBusy, by decide, Except.ok.inj hv, hstill hmem₁⟩
  rename_i hwr₀
  obtain rfl : wr = 0 := by simpa using hwr₀
  have hbusy₁ := waitReady_served hwr hd₁
  rw [exec_bind_ok_iff] at h
  obtain ⟨we, l₃, l₄, hwe, h, rfl⟩ := h
  obtain ⟨d₂, hd₂, hd⟩ := served_append_iff.mp hd
  have hmem₂ := (mem_of_calm calm_mt25ql128abaWriteEnable hwe hd₂).trans hmem₁
  split at h
  · obtain ⟨hv, habort⟩ := abort_served h hd
    exact .inl ⟨flashExError, by decide, hv, hstill (habort.trans hmem₂)⟩
  rename_i hwe₀
  obtain rfl : we = 0 := by simpa using hwe₀
  obtain ⟨hwel₂, hbusy₂⟩ := writeEnable_served hwe hbusy₁ hd₂
  exact programTurn_served haddr hx herased (hmem₂.trans hmem) hwel₂ hbusy₂ h hd

end

/-! ## The loop -/

/-- What has been programmed before a turn. -/
structure Turned (addr size : UInt32) (pData : ℕ → UInt8) (d : Device)
    (pre : List (Event FlashOp.Ans)) (x : WriteLoop) : Prop where
  place : x.At addr.toNat size.toNat
  mem : ∀ d', Served Device.Step d pre d' →
    d'.mem = programmed addr.toNat (writtenData pData x.written) d.mem

theorem loop_served {addr size : UInt32} {pData : ℕ → UInt8} {n : ℕ} {error : Int}
    (hrange : addr.toNat + size.toNat ≤ 2 ^ 24) (hsize : 0 < size.toNat)
    (herased : ∀ i < size.toNat, d.mem (addr.toNat + i) = 0xFF)
    (h : Exec (Prog.iter (writeTurn pData (addr + size)) n (writeInit addr size)) log (.ok error))
    (hd : Served Device.Step d log d') :
    (error = flashExOk → d'.mem = programmed addr.toNat (writtenData pData size.toNat) d.mem) ∧
      (error ≠ flashExOk → ∃ x : WriteLoop, x.At addr.toNat size.toNat ∧
        Stopped addr.toNat pData d.mem x d') := by
  have hinit : Turned addr size pData d [] (writeInit addr size) := by
    refine ⟨WriteLoop.at_writeInit hsize, fun d' hd' => ?_⟩
    rw [served_nil_iff.mp hd']
    exact programmed_nil.symm
  have hturn (pre : List (Event FlashOp.Ans)) (x : WriteLoop) (l : List (Event FlashOp.Ans))
      (x' : WriteLoop) (hx : Turned addr size pData d pre x)
      (h : Exec (writeTurn pData (addr + size) x) l (.ok (.inl x'))) :
      Turned addr size pData d (pre ++ l) x' := by
    obtain ⟨rfl, hnext⟩ := writeTurn_goes_on h
    refine ⟨hx.place.next hrange hnext, fun d' hd' => ?_⟩
    obtain ⟨mid, hpre, hl⟩ := served_append_iff.mp hd'
    rcases turn_served hrange hx.place herased (hx.mem mid hpre) h hl with ⟨e, -, hv, -⟩ | ⟨hm, -⟩
    · cases hv
    · exact hm
  obtain ⟨x, l₁, l₂, rfl, hx, hlast⟩ :=
    exec_iter_ok (Turned addr size pData d) hturn hinit h
  obtain ⟨mid, hpre, hl⟩ := served_append_iff.mp hd
  rcases turn_served hrange hx.place herased (hx.mem mid hpre) hlast hl with
    ⟨e, he, hv, hstopped⟩ | ⟨hm, hv⟩
  · obtain rfl := Sum.inr.inj hv
    exact ⟨fun hok => absurd hok he, fun _ => ⟨x, hx.place, hstopped⟩⟩
  · split at hv
    · cases hv
    · rename_i hend
      obtain rfl := Sum.inr.inj hv
      refine ⟨fun _ => ?_, fun hne => absurd rfl hne⟩
      -- the last turn ends where the data do
      have hall : (x.next (addr + size)).written = size.toNat := hx.place.last hrange hend
      rw [hm, hall]

/-! ## Reading back -/

theorem mt25ql128abaRead_served {addr size : UInt32} {bytes : List UInt8}
    (h : Exec (mt25ql128abaRead addr size) log (.ok (0, bytes))) (hbusy : d.busy = false)
    (hrange : addr.toNat + size.toNat ≤ 2 ^ 24) (hd : Served Device.Step d log d') :
    bytes = (List.range size.toNat).map fun i => d.mem (addr.toNat + i) := by
  rw [mt25ql128abaRead, exec_bind_ok_iff] at h
  obtain ⟨s, l₁, l₂, hsend, h, rfl⟩ := h
  obtain ⟨mid, hd₁, hd₂⟩ := served_append_iff.mp hd
  split at h
  · cases (exec_ret_iff.mp h).2
  · rename_i hzero
    obtain rfl : s = 0 := by simpa using hzero
    have hmid : mid = { d with pending := some (readCommand addr size) } := by
      rw [sendCommand_served hsend hbusy hd₁]
      simp [Device.command, hbusy, readCommand]
    simp only [qspi, call_bind, ret_bind, exec_call_iff, pure_eq, exec_ret_iff] at h
    obtain ⟨answer, _, rfl, rfl, hr⟩ := h
    obtain ⟨hcode, rfl⟩ := Prod.mk.inj (Except.ok.inj hr)
    simp only [served_cons_iff, served_nil_iff] at hd₂
    obtain ⟨_, hreceive, rfl⟩ := hd₂
    rw [hmid, step_ready (d := { d with pending := some (readCommand addr size) }) hbusy]
      at hreceive
    rw [hreceive.1 (halResult_eq_zero_iff.mp hcode.symm) (readCommand addr size) rfl rfl]
    refine List.map_congr_left fun i hi => ?_
    have hwire : (readCommand addr size).wireAddress = addr.toNat % 2 ^ 24 := rfl
    have hlt := List.mem_range.mp hi
    change i < size.toNat at hlt
    rw [hwire, Nat.mod_add_mod, Nat.mod_eq_of_lt (by omega)]

/-- A read that succeeds gets what the flash holds. -/
theorem read_served {addr size : UInt32} {bytes : List UInt8}
    (hrange : addr.toNat + size.toNat ≤ 2 ^ 24)
    (h : Exec (rhsHalFlashExRead addr size) log (.ok (flashExOk, bytes)))
    (hd : Served Device.Step d log d') :
    bytes = (List.range size.toNat).map fun i => d.mem (addr.toNat + i) := by
  rw [rhsHalFlashExRead, exec_bind_ok_iff] at h
  obtain ⟨_, l₀, l, hassert, h, rfl⟩ := h
  obtain ⟨-, rfl⟩ := exec_rhsAssert_ok_iff.mp hassert
  simp only [acquireFlashMutex, releaseFlashMutex, op_bind, exec_call_iff, exec_bind_ok_iff,
    pure_eq, exec_ret_iff, readBody] at h
  obtain ⟨_, _, rfl, result, l₁, l₂, ⟨_, l₃, l₄, htransfer, ⟨_, _, _, -, ⟨rfl, hr⟩, rfl⟩, rfl⟩,
    ⟨_, _, rfl, rfl, hresult⟩, rfl⟩ := h
  obtain rfl := Except.ok.inj hr
  obtain rfl := Except.ok.inj hresult
  rw [List.nil_append, served_cons_iff] at hd
  obtain ⟨d₁, hacquire, hd⟩ := hd
  have hmem₁ : d₁.mem = d.mem := mem_step d (.mutexAcquire rhsWaitForever) _ d₁ trivial hacquire
  obtain ⟨d₂, hd₂, -⟩ := served_append_iff.mp hd
  obtain ⟨d₃, hd₃, -⟩ := served_append_iff.mp hd₂
  rw [readTransfer, exec_bind_ok_iff] at htransfer
  obtain ⟨wr, l₅, l₆, hwr, htransfer, rfl⟩ := htransfer
  obtain ⟨d₄, hd₄, hd₅⟩ := served_append_iff.mp hd₃
  have hmem₄ := (mem_of_calm (calm_flashWaitReady 10) hwr hd₄).trans hmem₁
  split at htransfer
  · have hcode := (exec_ret_iff.mp htransfer).2
    cases hcode
  · rename_i hwr₀
    obtain rfl : wr = 0 := by simpa using hwr₀
    have hbusy := waitReady_served hwr hd₄
    simp only [exec_bind_ok_iff, pure_eq, exec_ret_iff] at htransfer
    obtain ⟨⟨e, data⟩, l₇, l₈, hread, ⟨rfl, hr⟩, rfl⟩ := htransfer
    obtain ⟨hcode, rfl⟩ := Prod.mk.inj (Except.ok.inj hr)
    obtain rfl : e = 0 := by
      by_contra hne
      rw [if_pos hne] at hcode
      cases hcode
    rw [List.append_nil] at hd₅
    rw [← hmem₄]
    exact mt25ql128abaRead_served hread hbusy hrange hd₅

/-! ## A whole write -/

/-- After a write that succeeds, a read gets the data, and the other bytes are unchanged; after
one that fails, a first part of the data is programmed, up to a page boundary or at most a
page further. -/
structure Written (addr size : UInt32) (pData : ℕ → UInt8) (d d' : Device) (error : Int) :
    Prop where
  readBack : error = flashExOk → ∀ log bytes d'',
    Exec (rhsHalFlashExRead addr size) log (.ok (flashExOk, bytes)) →
      Served Device.Step d' log d'' → bytes = writtenData pData size.toNat
  outside : error = flashExOk → ∀ j, j < addr.toNat ∨ addr.toNat + size.toNat ≤ j →
    d'.mem j = d.mem j
  part : error ≠ flashExOk → ∃ start k, (start = 0 ∨ (addr.toNat + start) % 256 = 0) ∧
    k ≤ 256 ∧ start + k ≤ size.toNat ∧
      d'.mem = programmed addr.toNat (writtenData pData (start + k)) d.mem

/-- **A write that succeeds can be read back, and one that fails has written a first part**,
whatever the QSPI layer reports. -/
theorem write_served {addr size : UInt32} (pData : ℕ → UInt8)
    (hrange : addr.toNat + size.toNat ≤ 2 ^ 24) (hsize : 0 < size.toNat)
    (herased : ∀ i < size.toNat, d.mem (addr.toNat + i) = 0xFF) :
    (rhsHalFlashExWrite addr pData size).Returns ∧ ∀ log error d',
      Exec (rhsHalFlashExWrite addr pData size) log (.ok error) →
        Served Device.Step d log d' → Written addr size pData d d' error := by
  have hend : (addr + size).toNat = addr.toNat + size.toNat := by
    rw [UInt32.toNat_add]
    omega
  have hassert : (FlashCall.write addr pData size).passesAssert = true := by
    refine decide_eq_true (UInt32.le_iff_toNat_le.mpr ?_)
    rw [hend, toNat_flashSize]
    exact hrange
  refine ⟨FlashCall.returns_prog hassert, fun log error d' h hd => ?_⟩
  obtain ⟨-, s, l, t, hbody, rfl⟩ := (FlashCall.write addr pData size).exec_prog_ok_iff.mp h
  rw [served_cons_iff] at hd
  obtain ⟨d₁, hacquire, hd⟩ := hd
  obtain ⟨d₂, hd₂, hd⟩ := served_append_iff.mp hd
  simp only [served_cons_iff, served_nil_iff] at hd
  obtain ⟨_, hrelease, rfl⟩ := hd
  have hmem₁ : d₁.mem = d.mem := mem_step d (.mutexAcquire rhsWaitForever) s d₁ trivial hacquire
  have hmem₂ : d'.mem = d₂.mem := mem_step d₂ .mutexRelease t d' trivial hrelease
  obtain ⟨hok, hpart⟩ := loop_served hrange hsize (by rwa [hmem₁]) hbody hd₂
  rw [hmem₁, ← hmem₂] at hok
  refine ⟨fun hdone log bytes d'' hread hserved => ?_, fun hdone j hj => ?_, fun hne => ?_⟩
  · have hbyte : ∀ i ∈ List.range size.toNat, d'.mem (addr.toNat + i) = pData i := by
      intro i hi
      have hlt : i < (writtenData pData size.toNat).length := by
        rw [length_writtenData]
        exact List.mem_range.mp hi
      rw [hok hdone, programmed_inside hlt]
      simp [writtenData]
    rw [read_served hrange hread hserved]
    exact List.map_congr_left hbyte
  · rw [hok hdone, programmed_outside (by rwa [length_writtenData])]
  · obtain ⟨x, hx, k, hk, hmem⟩ := hpart hne
    have hcur := hx.currentSize
    have hleft := hx.left
    refine ⟨x.written, k, hx.boundary, by omega, by omega, ?_⟩
    rw [hmem₂, hmem, hmem₁]

/-! ## A flash where nothing fails -/

/-- Everything is reported to be well, as soon as the flash is ready. -/
def norFlash : (o : FlashOp) → Device → o.Ans × Device
  | .mutexAcquire _, d => (.ok, d)
  | .mutexRelease, d => (.ok, d)
  | .qspi (.command cmd _), d => (.ok, d.command cmd)
  | .qspi (.transmit data _), d => (.ok, d.transmitted data)
  | .qspi (.receive _), d => ((.error, []), { d with pending := none })
  | .qspi (.autoPolling _ cfg _), d =>
      let d := if d.busy then d.finish else d
      (if d.status &&& cfg.mask = cfg.match' then .ok else .timeout, { d with pending := none })
  | .qspi (.readFlag _), d => (false, d)
  | .qspi .setAbort, d => ((), { d with pending := none })
  | .qspi (.spinFlag _ _ _), d => ((), d)
  | .qspi .clearFlags, d => ((), d)
  | .qspi .clearFmode, d => ((), d)
  | .qspi .setStateReady, d => ((), d)

theorem step_norFlash (d : Device) (o : FlashOp) : d.Step o (norFlash o d).1 (norFlash o d).2 := by
  cases o with
  | mutexAcquire timeout => exact .inl rfl
  | mutexRelease => exact .inl rfl
  | qspi q =>
      cases q with
      | command cmd timeout => exact .inl (.inl rfl)
      | transmit data timeout => exact .inl (.inl rfl)
      | receive timeout => exact .inl ⟨nofun, rfl⟩
      | autoPolling cmd cfg timeout =>
          by_cases hbusy : d.busy = true
          · refine .inr ⟨hbusy, fun hok => ?_, ?_⟩
            · simp only [norFlash, if_pos hbusy] at hok
              by_contra hne
              rw [if_neg hne] at hok
              cases hok
            · simp [norFlash, hbusy]
          · refine .inl ⟨fun hok => ?_, ?_⟩
            · simp only [norFlash, if_neg hbusy] at hok
              by_contra hne
              rw [if_neg hne] at hok
              cases hok
            · simp [norFlash, hbusy]
      | _ => exact .inl rfl

/-- An erased flash. -/
def erasedFlash : Device where
  mem := fun _ => 0xFF
  wel := false
  busy := false
  pending := none

/-- Four bytes are written across a page boundary. -/
theorem write_across_boundary : ∃ log d',
    Exec (rhsHalFlashExWrite 0xFE (fun i => .ofNat i) 4) log (.ok flashExOk) ∧
      Served Device.Step erasedFlash log d' ∧
        Written 0xFE 4 (fun i => .ofNat i) erasedFlash d' flashExOk := by
  have hexec := exec_run norFlash (rhsHalFlashExWrite 0xFE (fun i => .ofNat i) 4) erasedFlash
  have hserved := served_run norFlash step_norFlash
    (rhsHalFlashExWrite 0xFE (fun i => .ofNat i) 4) erasedFlash
  have hresult : (run norFlash (rhsHalFlashExWrite 0xFE (fun i => .ofNat i) 4) erasedFlash).result =
      .ok flashExOk := rfl
  rw [hresult] at hexec
  exact ⟨_, _, hexec, hserved,
    (write_served (fun i => .ofNat i) (by decide) (by decide) fun _ _ => rfl).2 _ _ _ hexec hserved⟩

end RhsCore.FlashEx
