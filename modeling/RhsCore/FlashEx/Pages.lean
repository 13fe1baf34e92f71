import Mathlib.Algebra.GroupWithZero.Nat
import RhsCore.FlashEx.Written

/-!
# The page programs of a write

The calls of `mt25ql128aba_page_program` that `rhs_hal_flash_ex_write` makes where nothing
fails.  The driver wants 1 to 256 bytes in a call, and the flash wants them in one page.
The loop makes its first turn before it looks at the size.

## Main definitions

* `pagePrograms log` — the calls, read off the log.
* `Paged` — they are what the driver wants, and together they are the data.
* `paged_iff` — when they are so.
-/

namespace RhsCore.FlashEx

open Prog

/-! ## The calls -/

/-- The arguments of a call of `mt25ql128aba_page_program`. -/
structure PageProgram where
  pData : List UInt8
  writeAddr : UInt32
  size : UInt32
  deriving DecidableEq, Repr

/-- The calls in a log: each sends its command and then its data.  `pending` is the command
whose data have not been sent. -/
def pagePrograms : Option QspiCommand → List (Event FlashOp.Ans) → List PageProgram
  | _, [] => []
  | pending, e :: log =>
      match e.1 with
      | .qspi (.command cmd _) =>
          pagePrograms (if cmd.instruction = .quadInputFastProgram then some cmd else none) log
      | .qspi (.transmit data _) =>
          match pending with
          | some cmd => ⟨data, cmd.address, cmd.nbData⟩ :: pagePrograms none log
          | none => pagePrograms none log
      | _ => pagePrograms pending log

/-- The operation succeeds, if it can fail. -/
def Succeeds : Event FlashOp.Ans → Prop
  | ⟨.qspi (.command _ _), status⟩ => status = .ok
  | ⟨.qspi (.transmit _ _), status⟩ => status = .ok
  | ⟨.qspi (.receive _), received⟩ => received.1 = .ok
  | ⟨.qspi (.autoPolling _ _ _), status⟩ => status = .ok
  | _ => True

/-- Each call starts where the one before it ended. -/
def Contiguous : ℕ → List PageProgram → Prop
  | _, [] => True
  | addr, c :: calls => c.writeAddr.toNat = addr ∧ Contiguous (addr + c.size.toNat) calls

/-- The calls are what the driver wants, and they write `n` bytes from `addr` on. -/
structure Paged (addr : ℕ) (pData : ℕ → UInt8) (n : ℕ) (calls : List PageProgram) : Prop where
  size : ∀ c ∈ calls, 1 ≤ c.size.toNat ∧ c.size.toNat ≤ 256
  page : ∀ c ∈ calls, c.writeAddr.toNat / 256 = (c.writeAddr.toNat + c.size.toNat - 1) / 256
  length : ∀ c ∈ calls, c.pData.length = c.size.toNat
  contiguous : Contiguous addr calls
  data : (calls.map PageProgram.pData).flatten = writtenData pData n

/-! ## One turn -/

/-- The call a turn of the write loop makes. -/
def WriteLoop.call (pData : ℕ → UInt8) (x : WriteLoop) : PageProgram where
  pData := x.data pData
  writeAddr := x.currentAddr
  size := x.currentSize

/-- The memory reports that it is ready. -/
def readyOk (timeout : UInt32) : Event FlashOp.Ans :=
  ⟨.qspi (.autoPolling { instruction := .readStatusRegister, dataMode := .one }
    { match' := 0, mask := 0x0101 } (.ms timeout)), .ok⟩

/-- The log of a turn in which nothing fails. -/
def turnLog (pData : ℕ → UInt8) (x : WriteLoop) : List (Event FlashOp.Ans) :=
  [readyOk 10, ⟨.qspi (.command { instruction := .writeEnable } .default), .ok⟩,
    ⟨.qspi (.autoPolling { instruction := .readStatusRegister, dataMode := .one }
      { match' := 0x0202, mask := 0x0202 } .default), .ok⟩,
    ⟨.qspi (.command (programCommand x.currentAddr x.currentSize) .default), .ok⟩,
    ⟨.qspi (.transmit (x.data pData) .default), .ok⟩, readyOk 10]

variable {log : List (Event FlashOp.Ans)} {pData : ℕ → UInt8}

theorem waitReady_succeeds {timeout : UInt32} {r : Int}
    (h : Exec (flashWaitReady timeout) log (.ok r)) (hok : ∀ e ∈ log, Succeeds e) :
    log = [readyOk timeout] ∧ r = 0 := by
  rw [flashWaitReady, exec_bind_ok_iff] at h
  obtain ⟨s, l₁, l₂, hready, h, rfl⟩ := h
  obtain ⟨status, rfl, hs⟩ := exec_ready_iff.mp hready
  obtain rfl : status = .ok := by simpa [Succeeds] using (List.forall_mem_append.mp hok).1
  obtain rfl : s = 0 := Except.ok.inj hs
  obtain ⟨rfl, hr⟩ := exec_ret_iff.mp h
  exact ⟨rfl, Except.ok.inj hr⟩

/-- A command that does not fail, and what comes after it. -/
theorem sendCommand_succeeds {cmd : QspiCommand} {k : Int → FlashProg Int} {r : Int}
    (h : Exec (sendCommand cmd >>= k) log (.ok r)) (hok : ∀ e ∈ log, Succeeds e) :
    ∃ l, log = ⟨.qspi (.command cmd .default), .ok⟩ :: l ∧ Exec (k 0) l (.ok r) ∧
      ∀ e ∈ l, Succeeds e := by
  obtain ⟨s, l₁, l₂, hsend, h, rfl⟩ := exec_bind_ok_iff.mp h
  obtain ⟨status, rfl, hs⟩ := exec_sendCommand_iff.mp hsend
  obtain rfl : status = .ok := by simpa [Succeeds] using (List.forall_mem_append.mp hok).1
  obtain rfl : s = 0 := Except.ok.inj hs
  exact ⟨l₂, rfl, h, (List.forall_mem_append.mp hok).2⟩

theorem writeEnable_succeeds {r : Int} (h : Exec mt25ql128abaWriteEnable log (.ok r))
    (hok : ∀ e ∈ log, Succeeds e) :
    log = [⟨.qspi (.command { instruction := .writeEnable } .default), .ok⟩,
      ⟨.qspi (.autoPolling { instruction := .readStatusRegister, dataMode := .one }
        { match' := 0x0202, mask := 0x0202 } .default), .ok⟩] ∧ r = 0 := by
  obtain ⟨l, rfl, h, hl⟩ := sendCommand_succeeds h hok
  simp only [qspi, call_bind, ret_bind, exec_call_iff, pure_eq, exec_ret_iff, ne_eq,
    not_true_eq_false, if_false] at h
  obtain ⟨polled, _, rfl, rfl, hr⟩ := h
  obtain rfl : polled = .ok := by simpa [Succeeds] using hl
  exact ⟨rfl, Except.ok.inj hr⟩

theorem pageProgram_succeeds {data : List UInt8} {addr size : UInt32} {r : Int}
    (h : Exec (mt25ql128abaPageProgram data addr size) log (.ok r))
    (hok : ∀ e ∈ log, Succeeds e) :
    log = [⟨.qspi (.command (programCommand addr size) .default), .ok⟩,
      ⟨.qspi (.transmit data .default), .ok⟩] ∧ r = 0 := by
  obtain ⟨l, rfl, h, hl⟩ := sendCommand_succeeds h hok
  simp only [qspi, call_bind, ret_bind, exec_call_iff, pure_eq, exec_ret_iff, ne_eq,
    not_true_eq_false, if_false] at h
  obtain ⟨sent, _, rfl, rfl, hr⟩ := h
  obtain rfl : sent = .ok := by simpa [Succeeds] using hl
  exact ⟨rfl, Except.ok.inj hr⟩

/-- **One turn** in which nothing fails makes its call and comes to its loop condition. -/
theorem writeTurn_succeeds {endAddr : UInt32} {x : WriteLoop} {v : WriteLoop ⊕ Int}
    (h : Exec (writeTurn pData endAddr x) log (.ok v)) (hok : ∀ e ∈ log, Succeeds e) :
    log = turnLog pData x ∧
      v = if (x.next endAddr).currentAddr < endAddr then .inl (x.next endAddr)
        else .inr flashExOk := by
  rw [writeTurn, exec_bind_ok_iff] at h
  obtain ⟨wr, l₁, l₂, hwr, h, rfl⟩ := h
  obtain ⟨rfl, rfl⟩ := waitReady_succeeds hwr fun e he => hok e (by simp [he])
  simp only [ne_eq, not_true_eq_false, if_false, exec_bind_ok_iff] at h
  obtain ⟨we, l₃, l₄, hwe, h, rfl⟩ := h
  obtain ⟨rfl, rfl⟩ := writeEnable_succeeds hwe fun e he => hok e (by simp [he])
  simp only [not_true_eq_false, if_false, exec_bind_ok_iff] at h
  obtain ⟨pp, l₅, l₆, hpp, h, rfl⟩ := h
  obtain ⟨rfl, rfl⟩ := pageProgram_succeeds hpp fun e he => hok e (by simp [he])
  simp only [not_true_eq_false, if_false, exec_bind_ok_iff] at h
  obtain ⟨wr', l₇, l₈, hwr', h, rfl⟩ := h
  obtain ⟨rfl, rfl⟩ := waitReady_succeeds hwr' fun e he => hok e (by simp [he])
  obtain ⟨rfl, hv⟩ := exec_ret_iff.mp h
  exact ⟨rfl, Except.ok.inj hv⟩

/-- Whatever was sent before, a turn adds its call. -/
theorem pagePrograms_append_turnLog (pending : Option QspiCommand) (x : WriteLoop) :
    pagePrograms pending (log ++ turnLog pData x) =
      pagePrograms pending log ++ [x.call pData] := by
  induction log generalizing pending with
  | nil => rfl
  | cons e log ih =>
      simp only [List.cons_append, pagePrograms]
      split
      · exact ih _
      · split
        · rw [ih, List.cons_append]
        · exact ih _
      · exact ih _

theorem pagePrograms_append_mutex (pending : Option QspiCommand) (released : RHSStatus) :
    pagePrograms pending (log ++ [⟨.mutexRelease, released⟩]) = pagePrograms pending log := by
  induction log generalizing pending with
  | nil => rfl
  | cons e log ih =>
      simp only [List.cons_append, pagePrograms, ih]

/-! ## The calls together -/

variable {addr : ℕ} {calls : List PageProgram}

theorem contiguous_append_iff {c : PageProgram} :
    Contiguous addr (calls ++ [c]) ↔
      Contiguous addr calls ∧ c.writeAddr.toNat = addr + (calls.map (·.size.toNat)).sum := by
  induction calls generalizing addr with
  | nil => simp [Contiguous]
  | cons d calls ih => simp [Contiguous, ih, and_assoc, Nat.add_assoc]

/-- The sizes add up to what is written. -/
theorem Paged.sum_size {n : ℕ} (h : Paged addr pData n calls) :
    (calls.map (·.size.toNat)).sum = n := by
  have hlength : calls.map (·.size.toNat) = (calls.map PageProgram.pData).map List.length := by
    rw [List.map_map]
    exact List.map_congr_left fun c hc => (h.length c hc).symm
  rw [hlength, ← List.length_flatten, h.data, length_writtenData]

theorem paged_nil : Paged addr pData 0 [] where
  size := by simp
  page := by simp
  length := by simp
  contiguous := trivial
  data := rfl

/-- A turn goes on where the turns before it ended. -/
theorem Paged.append {size : ℕ} {x : WriteLoop} (h : Paged addr pData x.written calls)
    (hx : x.At addr size) :
    Paged addr pData (x.written + x.currentSize.toNat) (calls ++ [x.call pData]) := by
  have haddr : (x.call pData).writeAddr.toNat = addr + x.written := hx.currentAddr
  have hsize : (x.call pData).size.toNat =
      min (size - x.written) (256 - (addr + x.written) % 256) := hx.currentSize
  have hleft := hx.left
  have hdata := writtenData_append pData x (Nat.le_refl x.currentSize.toNat)
  have hlength : (x.data pData).length = x.currentSize.toNat := by simp [WriteLoop.data]
  rw [← hlength, List.take_length] at hdata
  refine ⟨?_, ?_, ?_, contiguous_append_iff.mpr ⟨h.contiguous, by rw [haddr, h.sum_size]⟩, ?_⟩
  · intro c hc
    rcases List.mem_append.mp hc with hold | hnew
    · exact h.size c hold
    · obtain rfl := List.mem_singleton.mp hnew
      omega
  · intro c hc
    rcases List.mem_append.mp hc with hold | hnew
    · exact h.page c hold
    · obtain rfl := List.mem_singleton.mp hnew
      omega
  · intro c hc
    rcases List.mem_append.mp hc with hold | hnew
    · exact h.length c hold
    · obtain rfl := List.mem_singleton.mp hnew
      exact hlength
  · rw [List.map_append, List.flatten_append, h.data, ← hlength, ← hdata]
    simp [WriteLoop.call]

/-! ## The whole write -/

/-- The calls of the turns so far, if nothing has failed. -/
structure PagedSoFar (addr size : ℕ) (pData : ℕ → UInt8) (pre : List (Event FlashOp.Ans))
    (x : WriteLoop) : Prop where
  place : x.At addr size
  calls : (∀ e ∈ pre, Succeeds e) → Paged addr pData x.written (pagePrograms none pre)

theorem loop_paged {addr size : UInt32} {n : ℕ} {error : Int}
    (hrange : addr.toNat + size.toNat ≤ 2 ^ 24) (hsize : 0 < size.toNat)
    (h : Exec (Prog.iter (writeTurn pData (addr + size)) n (writeInit addr size)) log (.ok error))
    (hok : ∀ e ∈ log, Succeeds e) :
    Paged addr.toNat pData size.toNat (pagePrograms none log) := by
  have hturn (pre : List (Event FlashOp.Ans)) (x : WriteLoop) (l : List (Event FlashOp.Ans))
      (x' : WriteLoop) (hx : PagedSoFar addr.toNat size.toNat pData pre x)
      (h : Exec (writeTurn pData (addr + size) x) l (.ok (.inl x'))) :
      PagedSoFar addr.toNat size.toNat pData (pre ++ l) x' := by
    obtain ⟨rfl, hnext⟩ := writeTurn_goes_on h
    refine ⟨hx.place.next hrange hnext, fun hok => ?_⟩
    obtain ⟨hpre, hl⟩ := List.forall_mem_append.mp hok
    obtain ⟨rfl, -⟩ := writeTurn_succeeds h hl
    rw [pagePrograms_append_turnLog]
    exact (hx.calls hpre).append hx.place
  have hinit : PagedSoFar addr.toNat size.toNat pData [] (writeInit addr size) :=
    ⟨WriteLoop.at_writeInit hsize, fun _ => paged_nil⟩
  obtain ⟨x, l₁, l₂, rfl, hx, hlast⟩ :=
    exec_iter_ok (PagedSoFar addr.toNat size.toNat pData) hturn hinit h
  obtain ⟨hpre, hl⟩ := List.forall_mem_append.mp hok
  obtain ⟨rfl, hv⟩ := writeTurn_succeeds hlast hl
  rw [pagePrograms_append_turnLog]
  have hall : x.written + x.currentSize.toNat = size.toNat := by
    split at hv
    · cases hv
    · rename_i hend
      exact hx.place.last hrange hend
  rw [← hall]
  exact (hx.calls hpre).append hx.place

/-- The first turn makes its call whatever the size is. -/
theorem call_mem_of_exec {addr size : UInt32} {n : ℕ} {error : Int}
    (h : Exec (Prog.iter (writeTurn pData (addr + size)) (n + 1) (writeInit addr size)) log
      (.ok error)) (hok : ∀ e ∈ log, Succeeds e) :
    (writeInit addr size).call pData ∈ pagePrograms none log := by
  rcases exec_iter_succ_iff.mp h with ⟨e, -, he⟩ | ⟨b, hfirst, -⟩ | ⟨x', l₁, l₂, hfirst, -, rfl⟩
  · cases he
  · obtain ⟨rfl, -⟩ := writeTurn_succeeds hfirst hok
    exact List.mem_cons_self
  · obtain ⟨rfl, -⟩ := writeTurn_succeeds hfirst (List.forall_mem_append.mp hok).1
    exact List.mem_cons_self

/-- With a device that never fails, nothing fails. -/
theorem succeeds_okDevice {α : Type} (p : FlashProg α) :
    ∀ e ∈ (run okDevice p ()).log, Succeeds e := by
  induction p with
  | ret a => simp [run]
  | halt h => simp [run]
  | call o k ih =>
      intro e he
      rcases List.mem_cons.mp he with rfl | he
      · cases o with
        | qspi q => cases q <;> trivial
        | _ => trivial
      · exact ih _ e he

/-- Where nothing fails, the write returns, and its page programs are what the driver wants
and together the data. -/
def WritesPaged (addr : UInt32) (pData : ℕ → UInt8) (size : UInt32) : Prop :=
  (rhsHalFlashExWrite addr pData size).Returns ∧ ∀ log error,
    Exec (rhsHalFlashExWrite addr pData size) log (.ok error) → (∀ e ∈ log, Succeeds e) →
      Paged addr.toNat pData size.toNat (pagePrograms none log)

/-- **The page programs of a write are what the driver wants** exactly if there is something
to write. -/
theorem paged_iff {addr size : UInt32} (pData : ℕ → UInt8)
    (hrange : addr.toNat + size.toNat ≤ 2 ^ 24) :
    WritesPaged addr pData size ↔ 0 < size.toNat := by
  have hassert : (FlashCall.write addr pData size).passesAssert = true := by
    refine decide_eq_true (UInt32.le_iff_toNat_le.mpr ?_)
    rw [UInt32.toNat_add, toNat_flashSize]
    omega
  have hreturns : (rhsHalFlashExWrite addr pData size).Returns := FlashCall.returns_prog hassert
  constructor
  · intro hpaged
    by_contra hzero
    have hexec := exec_run okDevice (rhsHalFlashExWrite addr pData size) ()
    have hok := succeeds_okDevice (rhsHalFlashExWrite addr pData size)
    generalize (run okDevice (rhsHalFlashExWrite addr pData size) ()).log = log at hexec hok
    cases hresult : (run okDevice (rhsHalFlashExWrite addr pData size) ()).result with
    | error e =>
        rw [hresult] at hexec
        exact hreturns log e hexec
    | ok error =>
        rw [hresult] at hexec
        have hcalls := hpaged.2 log error hexec hok
        obtain ⟨-, s, l, t, hbody, rfl⟩ :=
          (FlashCall.write addr pData size).exec_prog_ok_iff.mp hexec
        rw [pagePrograms, pagePrograms_append_mutex] at hcalls
        have hfirst := call_mem_of_exec hbody fun e he => hok e (by simp [he])
        have hone : 1 ≤ (writeInit addr size).currentSize.toNat := (hcalls.size _ hfirst).1
        rw [toNat_writeInit_currentSize] at hone
        omega
  · intro hsize
    refine ⟨hreturns, fun log error h hok => ?_⟩
    obtain ⟨-, s, l, t, hbody, rfl⟩ := (FlashCall.write addr pData size).exec_prog_ok_iff.mp h
    rw [pagePrograms, pagePrograms_append_mutex]
    exact loop_paged hrange hsize hbody fun e he => hok e (by simp [he])

/-- A write of nothing programs zero bytes. -/
theorem empty_write_programs :
    ∃ log, Exec (rhsHalFlashExWrite 0x10 (fun _ => 0) 0) log (.ok flashExOk) ∧
      (∀ e ∈ log, Succeeds e) ∧ pagePrograms none log = [⟨[], 0x10, 0⟩] ∧
        ¬ WritesPaged 0x10 (fun _ => 0) 0 := by
  have hexec : Exec (rhsHalFlashExWrite 0x10 (fun _ => 0) 0) _ (.ok flashExOk) :=
    exec_run okDevice (rhsHalFlashExWrite 0x10 (fun _ => 0) 0) ()
  have hok := succeeds_okDevice (rhsHalFlashExWrite 0x10 (fun _ => 0) 0)
  refine ⟨_, hexec, hok, rfl, fun hpaged => ?_⟩
  have hsize := (hpaged.2 _ _ hexec hok).size ⟨[], 0x10, 0⟩ List.mem_cons_self
  exact absurd hsize.1 (by decide)

/-- Four bytes across a page boundary are two page programs. -/
theorem boundary_write_paged : WritesPaged 0xFE (fun i => .ofNat i) 4 :=
  (paged_iff (fun i => .ofNat i) (by decide)).mpr (by decide)

end RhsCore.FlashEx
