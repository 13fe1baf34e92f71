import RhsCore.FlashEx.Written

/-!
# The flash layer as a store

What a sequence of calls does to the flash, whatever is in it and whatever the QSPI layer
reports.  A program can only take bits to 0, so that a write is an AND; an erase sets whole
subsectors to `0xFF`.  A call that fails has done a first part of its work, and may leave the
flash busy or its latch set; the next call does not depend on either.

## Main definitions

* `anded a data mem` — the memory with `data` ANDed to it from `a` on.
* `Does c mem error bytes mem'` — what a call does to a store.
* `flash_refines_store` — a run of calls on the flash is a run on the store.
* `written_data_stay` — what is written to erased memory stays, whatever else is done elsewhere.
-/

namespace RhsCore.FlashEx

open Prog

/-! ## A flash that is written over another one -/

/-- The memory with `data` ANDed to it from `a` on. -/
def anded (a : ℕ) (data : List UInt8) (mem : ℕ → UInt8) : ℕ → UInt8 :=
  fun j => mem j &&& programmed a data (fun _ => 0xFF) j

theorem and_ones (b : UInt8) : b &&& 0xFF = b := by
  rw [UInt8.and_comm, ones_and]

/-- A program does not set bits. -/
theorem programPage_and (a : ℕ) (data : List UInt8) (m mem : ℕ → UInt8) :
    programPage a data (fun j => m j &&& mem j) = fun j => m j &&& programPage a data mem j := by
  induction data generalizing a mem with
  | nil => rfl
  | cons b data ih =>
      have hfirst : Function.update (fun j => m j &&& mem j) a (m a &&& mem a &&& b) =
          fun j => m j &&& Function.update mem a (mem a &&& b) j := by
        funext j
        by_cases hj : j = a
        · subst hj
          simp only [Function.update_self, UInt8.and_assoc]
        · simp only [Function.update_of_ne hj]
      rw [programPage, hfirst, ih, programPage]

/-- The flash with a memory behind its own. -/
def Device.onto (m : ℕ → UInt8) (d : Device) : Device := { d with mem := fun j => m j &&& d.mem j }

/-- An erased flash in the same state. -/
def Device.blank (d : Device) : Device := { d with mem := fun _ => 0xFF }

theorem Device.onto_blank (d : Device) : d.blank.onto d.mem = d := by
  have hmem : (fun j => d.mem j &&& 0xFF) = d.mem := funext fun j => and_ones (d.mem j)
  simp only [onto, blank, hmem]

/-- Operations that neither erase nor read, with data that may be sent. -/
def Programs (sends : List UInt8 → Prop) : FlashOp → Prop
  | .qspi (.command cmd _) => cmd.instruction.eraseUnit = none
  | .qspi (.transmit data _) => sends data
  | .qspi (.receive _) => False
  | _ => True

variable {d d' : Device} {m : ℕ → UInt8} {log : List (Event FlashOp.Ans)}

theorem command_onto {cmd : QspiCommand} (h : cmd.instruction.eraseUnit = none) :
    (d.onto m).command cmd = (d.command cmd).onto m := by
  cases hi : cmd.instruction with
  | subsectorErase4kb | subsectorErase32kb | sectorErase | bulkErase =>
      rw [hi] at h
      cases h
  | _ =>
      cases hbusy : d.busy <;>
        simp [Device.command, Device.onto, hbusy, hi, Instruction.eraseUnit]

theorem transmitted_onto (data : List UInt8) :
    (d.onto m).transmitted data = (d.transmitted data).onto m := by
  rcases hp : d.pending with _ | cmd
  · simp [Device.transmitted, Device.onto, hp]
  · by_cases hc : cmd.instruction = .quadInputFastProgram ∧ d.wel = true
    · simp [Device.transmitted, Device.onto, hp, hc, programPage_and]
    · simp [Device.transmitted, Device.onto, hp, hc]

theorem act_onto {sends : List UInt8 → Prop} {o : FlashOp} {answer : o.Ans}
    (ho : Programs sends o) (h : (d.onto m).Act o answer d') :
    ∃ e, d' = Device.onto m e ∧ d.Act o answer e := by
  cases o with
  | mutexAcquire timeout => exact ⟨d, h, rfl⟩
  | mutexRelease => exact ⟨d, h, rfl⟩
  | qspi q =>
      cases q with
      | command cmd timeout =>
          rcases h with rfl | ⟨hne, rfl⟩
          · exact ⟨_, command_onto ho, .inl rfl⟩
          · exact ⟨{ d with pending := none }, rfl, .inr ⟨hne, rfl⟩⟩
      | transmit data timeout =>
          rcases h with rfl | ⟨hne, ⟨n, rfl⟩ | rfl⟩
          · exact ⟨_, transmitted_onto data, .inl rfl⟩
          · exact ⟨_, transmitted_onto _, .inr ⟨hne, .inl ⟨n, rfl⟩⟩⟩
          · exact ⟨{ d with pending := none }, rfl, .inr ⟨hne, .inr rfl⟩⟩
      | receive timeout => exact ho.elim
      | autoPolling cmd cfg timeout =>
          obtain ⟨hstatus, rfl⟩ := h
          exact ⟨{ d with pending := none }, rfl, hstatus, rfl⟩
      | setAbort => exact ⟨{ d with pending := none }, h, rfl⟩
      | _ => exact ⟨d, h, rfl⟩

/-- What a log of such operations does to a flash, it does over any other. -/
theorem served_onto {sends : List UInt8 → Prop} (hlog : ∀ e ∈ log, Programs sends e.1)
    (h : Served Device.Step (d.onto m) log d') :
    ∃ e, d' = Device.onto m e ∧ Served Device.Step d log e := by
  have hstep (x u : Device) (o : FlashOp) (answer : FlashOp.Ans o) (y : Device)
      (ho : Programs sends o) (hx : x = u.onto m) (h : Device.Step x o answer y) :
      ∃ v : Device, y = v.onto m ∧ Device.Step u o answer v := by
    subst hx
    rcases h with hact | ⟨hbusy, hact⟩
    · obtain ⟨e, he, hact'⟩ := act_onto ho hact
      exact ⟨e, he, .inl hact'⟩
    · obtain ⟨e, he, hact'⟩ := act_onto (d := u.finish) ho hact
      exact ⟨e, he, .inr ⟨hbusy, hact'⟩⟩
  exact h.simulates hstep hlog rfl

/-- Where no data are sent, nothing is programmed. -/
theorem mem_step_of_nil (d : Device) (o : FlashOp) (answer : o.Ans) (d' : Device)
    (ho : Programs (· = []) o) (h : d.Step o answer d') : d'.mem = d.mem := by
  have hsent (d : Device) : (d.transmitted []).mem = d.mem := by
    rcases hp : d.pending with _ | cmd
    · simp [Device.transmitted, hp]
    · by_cases hc : cmd.instruction = .quadInputFastProgram ∧ d.wel = true <;>
        simp [Device.transmitted, hp, hc, programPage]
  have hact (d : Device) (h : d.Act o answer d') : d'.mem = d.mem := by
    by_cases hcalm : Calm o
    · exact mem_act hcalm h
    · cases o with
      | mutexAcquire timeout => exact absurd trivial hcalm
      | mutexRelease => exact absurd trivial hcalm
      | qspi q =>
          cases q with
          | transmit data timeout =>
              obtain rfl : data = [] := ho
              rcases h with rfl | ⟨-, ⟨n, rfl⟩ | rfl⟩
              · exact hsent d
              · rw [List.take_nil]
                exact hsent d
              · rfl
          | command cmd timeout => exact absurd ho hcalm
          | _ => exact absurd trivial hcalm
  rcases h with h | ⟨-, h⟩
  · exact hact d h
  · exact hact d.finish h

/-! ## Writes -/

section

variable {sends : List UInt8 → Prop}

theorem programs_flashForceAbort : flashForceAbort.Uses (Programs sends) := by
  simp only [flashForceAbort, qspi, call_bind, ret_bind, uses_call]
  refine ⟨trivial, fun busy => ?_⟩
  cases busy <;> simp [Programs]

theorem programs_flashWaitReady (timeout : UInt32) :
    (flashWaitReady timeout).Uses (Programs sends) := by
  simp only [flashWaitReady, mt25ql128abaAutoPollingMemReady, qspi, call_bind, ret_bind,
    uses_call]
  refine ⟨trivial, fun status => ?_⟩
  simp only [pure_eq, ret_bind]
  split
  · exact Uses.bind programs_flashForceAbort fun _ _ _ => by simp [Programs]
  · trivial

theorem programs_writeTurn (pData : ℕ → UInt8) (endAddr : UInt32) (x : WriteLoop)
    (hsends : sends (x.data pData)) : (writeTurn pData endAddr x).Uses (Programs sends) := by
  have habort {α : Type} (a : α) :
      (flashForceAbort >>= fun _ => (.ret a : FlashProg α)).Uses (Programs sends) :=
    Uses.bind programs_flashForceAbort fun _ _ _ => uses_ret
  refine Uses.bind (programs_flashWaitReady 10) fun _ wr _ => ?_
  split
  · exact uses_ret
  refine Uses.bind (Uses.bind (p := sendCommand _) ⟨rfl, fun _ => uses_ret⟩ fun _ s _ => ?_)
    fun _ we _ => ?_
  · split
    · exact uses_ret
    · exact ⟨trivial, fun _ => uses_ret⟩
  split
  · exact habort _
  refine Uses.bind (Uses.bind (p := sendCommand _) ⟨rfl, fun _ => uses_ret⟩ fun _ s _ => ?_)
    fun _ pp _ => ?_
  · split
    · exact uses_ret
    · exact ⟨hsends, fun _ => uses_ret⟩
  split
  · exact habort _
  refine Uses.bind (programs_flashWaitReady 10) fun _ wr' _ => ?_
  split <;> exact uses_ret

end

/-- A write of nothing takes one turn, which programs nothing. -/
theorem programs_writeLoop_zero (addr : UInt32) (pData : ℕ → UInt8) (n : ℕ) :
    (Prog.iter (writeTurn pData (addr + 0)) n (writeInit addr 0)).Uses (Programs (· = [])) := by
  refine uses_iter (fun x => x.currentAddr = addr ∧ x.currentSize = 0)
    (fun x hx => programs_writeTurn _ _ x (by rw [WriteLoop.data, hx.2]; rfl)) ?_ ⟨rfl, ?_⟩
  · rintro x l x' ⟨haddr, hsize⟩ h
    obtain ⟨rfl, hlt⟩ := writeTurn_goes_on h
    have hsame : (x.next (addr + 0)).currentAddr = addr + 0 := by
      simp [WriteLoop.next, haddr, hsize]
    rw [hsame] at hlt
    exact absurd hlt (UInt32.lt_irrefl _)
  · simp only [writeInit]
    split
    · rfl
    · rename_i hle
      have hpos : pageSize - addr % pageSize > 0 := by
        rw [gt_iff_lt, UInt32.lt_iff_toNat_lt, UInt32.toNat_sub_of_le _ _ ?_]
        · rw [UInt32.toNat_mod, toNat_pageSize]
          have hmod := Nat.mod_lt addr.toNat (show 0 < 256 by decide)
          change 0 < _
          omega
        · rw [UInt32.le_iff_toNat_le, UInt32.toNat_mod, toNat_pageSize]
          omega
      exact absurd hpos hle

/-- **A write ANDs its data to the memory**, or a first part of them when it fails. -/
theorem writeLoop_served {addr size : UInt32} {pData : ℕ → UInt8} {n : ℕ} {error : Int}
    (hrange : addr.toNat + size.toNat ≤ 2 ^ 24)
    (h : Exec (Prog.iter (writeTurn pData (addr + size)) n (writeInit addr size)) log (.ok error))
    (hd : Served Device.Step d log d') :
    ∃ k ≤ size.toNat, d'.mem = anded addr.toNat (writtenData pData k) d.mem ∧
      (error = flashExOk → k = size.toNat) := by
  by_cases hzero : size = 0
  · subst hzero
    have hmem := hd.keeps mem_step_of_nil ((programs_writeLoop_zero addr pData n).of_mem h)
    refine ⟨0, le_refl _, ?_, fun _ => rfl⟩
    rw [hmem]
    funext j
    have hnil : programmed addr.toNat (writtenData pData 0) (fun _ => 0xFF) j = 0xFF :=
      congrFun programmed_nil j
    rw [anded, hnil, and_ones]
  · have hpos : 0 < size.toNat := by
      rw [Nat.pos_iff_ne_zero, ne_eq, ← UInt32.toNat_zero, UInt32.toNat_inj]
      exact hzero
    have huses : (Prog.iter (writeTurn pData (addr + size)) n (writeInit addr size)).Uses
        (Programs fun _ => True) :=
      uses_iter (fun _ => True) (fun x _ => programs_writeTurn _ _ x trivial)
        (fun _ _ _ _ _ => trivial) trivial
    -- over an erased flash the write leaves its data
    rw [← d.onto_blank] at hd
    obtain ⟨e, rfl, he⟩ := served_onto (huses.of_mem h) hd
    obtain ⟨hok, hpart⟩ := loop_served hrange hpos (fun _ _ => rfl) h he
    by_cases herror : error = flashExOk
    · exact ⟨size.toNat, le_refl _, congrArg (fun m j => d.mem j &&& m j) (hok herror),
        fun _ => rfl⟩
    · obtain ⟨x, hx, k, hk, hmem⟩ := hpart herror
      have hcur := hx.currentSize
      have hleft := hx.left
      exact ⟨x.written + k, by omega, congrArg (fun m j => d.mem j &&& m j) hmem,
        fun hok => absurd hok herror⟩


/-! ## Erases -/

/-- The memory with `n` subsectors from the first on set to `0xFF`. -/
def erased (first n : ℕ) (mem : ℕ → UInt8) : ℕ → UInt8 :=
  fun j => if first ≤ j / 4096 ∧ j / 4096 < first + n then 0xFF else mem j

theorem erased_zero (first : ℕ) (mem : ℕ → UInt8) : erased first 0 mem = mem := by
  funext j
  rw [erased, if_neg (by omega)]

/-- One subsector more. -/
theorem erased_succ (first n : ℕ) (mem : ℕ → UInt8) :
    erased (first + n) 1 (erased first n mem) = erased first (n + 1) mem := by
  funext j
  simp only [erased]
  by_cases hlast : j / 4096 = first + n
  · rw [if_pos (by omega), if_pos (by omega)]
  · rw [if_neg (by omega)]
    by_cases hin : first ≤ j / 4096 ∧ j / 4096 < first + n
    · rw [if_pos hin, if_pos (by omega)]
    · rw [if_neg hin, if_neg (by omega)]

/-- The flash with its latch set takes an erase. -/
theorem mem_eraseCommand {a : UInt32} (ha : a.toNat < 2 ^ 24) (hwel : d.wel = true)
    (hbusy : d.busy = false) :
    (d.command (eraseCommand a)).mem = erased (a.toNat / 4096) 1 d.mem := by
  have hwire : (eraseCommand a).wireAddress = a.toNat := Nat.mod_eq_of_lt ha
  have hmem : (d.command (eraseCommand a)).mem =
      fun j => if j / 4096 = (eraseCommand a).wireAddress / 4096 then 0xFF else d.mem j := by
    simp [Device.command, hbusy, hwel, eraseCommand, Instruction.eraseUnit]
  rw [hmem, hwire]
  funext j
  rw [erased]
  by_cases hj : j / 4096 = a.toNat / 4096
  · rw [if_pos hj, if_pos (by omega)]
  · rw [if_neg hj, if_neg (by omega)]

/-- The flash after a command that may not have arrived. -/
theorem sendCommand_mem {cmd : QspiCommand} {r : Int} (h : Exec (sendCommand cmd) log (.ok r))
    (hbusy : d.busy = false) (hd : Served Device.Step d log d') :
    (d'.mem = (d.command cmd).mem) ∨ r ≠ 0 ∧ d'.mem = d.mem := by
  obtain ⟨status, rfl, hs⟩ := exec_sendCommand_iff.mp h
  obtain rfl := Except.ok.inj hs
  simp only [served_cons_iff, served_nil_iff] at hd
  obtain ⟨_, hcommand, rfl⟩ := hd
  rw [step_ready hbusy] at hcommand
  rcases hcommand with rfl | ⟨hne, rfl⟩
  · exact .inl rfl
  · exact .inr ⟨fun hzero => hne (halResult_eq_zero_iff.mp hzero), rfl⟩

/-- **One turn**: it erases its subsector and the flash is ready again, or it leaves with an
error, and may have erased it or not. -/
theorem eraseTurn_served {x : EraseLoop} {v : EraseLoop ⊕ Int}
    (haddr : x.currentAddr.toNat < 2 ^ 24) (hbusy : d.busy = false)
    (h : Exec (eraseTurn x) log (.ok v)) (hd : Served Device.Step d log d') :
    (v = .inr flashExError ∧ ∃ k ≤ 1, d'.mem = erased (x.currentAddr.toNat / 4096) k d.mem) ∨
      d'.mem = erased (x.currentAddr.toNat / 4096) 1 d.mem ∧ d'.busy = false ∧
        v = if x.next.currentSize ≠ 0 then .inl x.next else .inr flashExOk := by
  rw [eraseTurn, exec_bind_ok_iff] at h
  obtain ⟨we, l₁, l₂, hwe, h, rfl⟩ := h
  obtain ⟨d₁, hd₁, hd⟩ := served_append_iff.mp hd
  have hmem₁ := mem_of_calm calm_mt25ql128abaWriteEnable hwe hd₁
  split at h
  · obtain ⟨hv, habort⟩ := abort_served h hd
    exact .inl ⟨hv, 0, by decide, by rw [erased_zero, habort, hmem₁]⟩
  rename_i hwe₀
  obtain rfl : we = 0 := by simpa using hwe₀
  obtain ⟨hwel₁, hbusy₁⟩ := writeEnable_served hwe hbusy hd₁
  rw [exec_bind_ok_iff] at h
  obtain ⟨be, l₃, l₄, hbe, h, rfl⟩ := h
  obtain ⟨d₂, hd₂, hd⟩ := served_append_iff.mp hd
  have hsent : d₂.mem = (d₁.command (eraseCommand x.currentAddr)).mem ∨ be ≠ 0 ∧ d₂.mem = d₁.mem :=
    sendCommand_mem hbe hbusy₁ hd₂
  rw [mem_eraseCommand haddr hwel₁ hbusy₁, hmem₁] at hsent
  split at h
  · obtain ⟨hv, habort⟩ := abort_served h hd
    rcases hsent with hmem₂ | ⟨-, hmem₂⟩
    · exact .inl ⟨hv, 1, le_refl 1, habort.trans hmem₂⟩
    · exact .inl ⟨hv, 0, by decide, by rw [erased_zero, habort, hmem₂]⟩
  rename_i hbe₀
  obtain hmem₂ | ⟨hne, -⟩ := hsent
  · rw [exec_bind_ok_iff] at h
    obtain ⟨wr, l₅, l₆, hwr, h, rfl⟩ := h
    obtain ⟨d₃, hd₃, hd⟩ := served_append_iff.mp hd
    have hmem₃ := (mem_of_calm (calm_flashWaitReady _) hwr hd₃).trans hmem₂
    split at h
    · obtain ⟨rfl, hv⟩ := exec_ret_iff.mp h
      obtain rfl := served_nil_iff.mp hd
      exact .inl ⟨Except.ok.inj hv, 1, le_refl 1, hmem₃⟩
    · rename_i hwr₀
      obtain rfl : wr = 0 := by simpa using hwr₀
      obtain ⟨rfl, hv⟩ := exec_ret_iff.mp h
      obtain rfl := served_nil_iff.mp hd
      exact .inr ⟨hmem₃, waitReady_served hwr hd₃, Except.ok.inj hv⟩
  · exact absurd hne hbe₀

/-- What has been erased before a turn. -/
structure EraseTurned (addr size : UInt32) (d : Device) (pre : List (Event FlashOp.Ans))
    (x : EraseLoop) (k : ℕ) : Prop where
  place : EraseInvariant addr size pre x k
  mem : ∀ d', Served Device.Step d pre d' →
    d'.mem = erased (addr.toNat / 4096) k d.mem ∧ d'.busy = false

/-- Where a turn erases. -/
theorem EraseInvariant.toNat_currentAddr {addr size : UInt32} {pre : List (Event FlashOp.Ans)}
    {x : EraseLoop} {k : ℕ} (h : EraseInvariant addr size pre x k)
    (hrange : addr.toNat + max size.toNat 1 ≤ 2 ^ 24) :
    x.currentAddr.toNat < 2 ^ 24 ∧ x.currentAddr.toNat / 4096 = addr.toNat / 4096 + k := by
  have hk : 4096 * k < max size.toNat 1 := by
    rcases h.entered with rfl | hlt <;> omega
  rw [h.currentAddr, toNat_eraseAddr addr (by omega)]
  omega

/-- **An erase sets its subsectors**, or the first of them when it fails. -/
theorem eraseLoop_served {addr size : UInt32} {n : ℕ} {error : Int}
    (hrange : addr.toNat + max size.toNat 1 ≤ 2 ^ 24) (hbusy : d.busy = false)
    (h : Exec (Prog.iter eraseTurn n (eraseInit addr size)) log (.ok error))
    (hd : Served Device.Step d log d') :
    ∃ k ≤ eraseTurns size.toNat, d'.mem = erased (addr.toNat / 4096) k d.mem ∧
      (error = flashExOk → k = eraseTurns size.toNat) := by
  have hinit : EraseTurned addr size d [] (eraseInit addr size) 0 := by
    refine ⟨EraseInvariant.init addr size, fun d' hd' => ?_⟩
    rw [served_nil_iff.mp hd', erased_zero]
    exact ⟨rfl, hbusy⟩
  have hturn (pre : List (Event FlashOp.Ans)) (x : EraseLoop) (l : List (Event FlashOp.Ans))
      (x' : EraseLoop) (hx : ∃ k, EraseTurned addr size d pre x k)
      (h : Exec (eraseTurn x) l (.ok (.inl x'))) :
        ∃ k, EraseTurned addr size d (pre ++ l) x' k := by
    obtain ⟨k, hx⟩ := hx
    obtain ⟨haddr, hblock⟩ := hx.place.toNat_currentAddr hrange
    refine ⟨k + 1, hx.place.step h, fun d' hd' => ?_⟩
    obtain ⟨mid, hpre, hl⟩ := served_append_iff.mp hd'
    obtain ⟨hmem, hready⟩ := hx.mem mid hpre
    rcases eraseTurn_served haddr hready h hl with ⟨hv, -⟩ | ⟨hm, hready', -⟩
    · cases hv
    · rw [hm, hmem, hblock, erased_succ]
      exact ⟨rfl, hready'⟩
  obtain ⟨x, l₁, l₂, rfl, ⟨k, hx⟩, hlast⟩ :=
    exec_iter_ok (fun pre x => ∃ k, EraseTurned addr size d pre x k) hturn ⟨0, hinit⟩ h
  obtain ⟨haddr, hblock⟩ := hx.place.toNat_currentAddr hrange
  obtain ⟨mid, hpre, hl⟩ := served_append_iff.mp hd
  obtain ⟨hmem, hready⟩ := hx.mem mid hpre
  have hsize := hx.place.currentSize
  have hentered := hx.place.entered
  rcases eraseTurn_served haddr hready hlast hl with ⟨hv, i, hi, hm⟩ | ⟨hm, -, hv⟩
  · obtain rfl := Sum.inr.inj hv
    refine ⟨k + i, ?_, ?_, fun hok => absurd hok (by decide)⟩
    · rw [eraseTurns]
      rcases hentered with rfl | hlt <;> omega
    · rw [hm, hmem, hblock]
      obtain rfl | rfl : i = 0 ∨ i = 1 := by omega
      · rw [erased_zero, Nat.add_zero]
      · exact erased_succ _ _ _
  · split at hv
    · cases hv
    · rename_i hend
      have hturns : eraseTurns size.toNat = k + 1 := by
        rw [next_currentSize_ne_zero_iff] at hend
        rw [eraseTurns]
        rcases hentered with rfl | hlt <;> omega
      refine ⟨k + 1, le_of_eq hturns.symm, ?_, fun _ => hturns.symm⟩
      rw [hm, hmem, hblock, erased_succ]

/-- The command of `mt25ql128aba_chip_erase`. -/
def chipCommand : QspiCommand := { instruction := .bulkErase }

theorem mem_chipCommand (hwel : d.wel = true) (hbusy : d.busy = false) :
    (d.command chipCommand).mem = erased 0 4096 d.mem := by
  have hmem : (d.command chipCommand).mem =
      fun j => if j / 2 ^ 24 = 0 / 2 ^ 24 then 0xFF else d.mem j := by
    simp [Device.command, hbusy, hwel, chipCommand, Instruction.eraseUnit,
      QspiCommand.wireAddress]
  rw [hmem]
  funext j
  rw [erased]
  by_cases hj : j / 2 ^ 24 = 0 / 2 ^ 24
  · rw [if_pos hj, if_pos (by omega)]
  · rw [if_neg hj, if_neg (by omega)]

/-- The commands of a chip erase: the flash is erased, or the call has failed and it may be
as it was. -/
theorem eraseChipCommands_served {error : Int} (h : Exec eraseChipCommands log (.ok error))
    (hd : Served Device.Step d log d') :
    d'.mem = erased 0 4096 d.mem ∨ error ≠ flashExOk ∧ d'.mem = d.mem := by
  rw [eraseChipCommands, exec_bind_ok_iff] at h
  obtain ⟨wr, l₁, l₂, hwr, h, rfl⟩ := h
  obtain ⟨d₁, hd₁, hd⟩ := served_append_iff.mp hd
  have hmem₁ := mem_of_calm (calm_flashWaitReady 10) hwr hd₁
  split at h
  · obtain ⟨rfl, hv⟩ := exec_ret_iff.mp h
    obtain rfl := served_nil_iff.mp hd
    exact .inr ⟨by rw [Except.ok.inj hv]; decide, hmem₁⟩
  rename_i hwr₀
  obtain rfl : wr = 0 := by simpa using hwr₀
  have hbusy₁ := waitReady_served hwr hd₁
  rw [exec_bind_ok_iff] at h
  obtain ⟨we, l₃, l₄, hwe, h, rfl⟩ := h
  obtain ⟨d₂, hd₂, hd⟩ := served_append_iff.mp hd
  have hmem₂ := (mem_of_calm calm_mt25ql128abaWriteEnable hwe hd₂).trans hmem₁
  split at h
  · obtain ⟨hv, habort⟩ := abort_served h hd
    exact .inr ⟨by rw [hv]; decide, habort.trans hmem₂⟩
  rename_i hwe₀
  obtain rfl : we = 0 := by simpa using hwe₀
  obtain ⟨hwel₂, hbusy₂⟩ := writeEnable_served hwe hbusy₁ hd₂
  rw [exec_bind_ok_iff] at h
  obtain ⟨ce, l₅, l₆, hce, h, rfl⟩ := h
  obtain ⟨d₃, hd₃, hd⟩ := served_append_iff.mp hd
  have hsent : d₃.mem = (d₂.command chipCommand).mem ∨ ce ≠ 0 ∧ d₃.mem = d₂.mem :=
    sendCommand_mem hce hbusy₂ hd₃
  rw [mem_chipCommand hwel₂ hbusy₂, hmem₂] at hsent
  split at h
  · obtain ⟨hv, habort⟩ := abort_served h hd
    rcases hsent with hmem₃ | ⟨-, hmem₃⟩
    · exact .inl (habort.trans hmem₃)
    · exact .inr ⟨by rw [hv]; decide, habort.trans hmem₃⟩
  · rename_i hce₀
    obtain ⟨rfl, -⟩ := exec_ret_iff.mp h
    obtain rfl := served_nil_iff.mp hd
    rcases hsent with hmem₃ | ⟨hne, -⟩
    · exact .inl hmem₃
    · exact absurd hne hce₀

theorem eraseChipBody_served {error : Int} (h : Exec eraseChipBody log (.ok error))
    (hd : Served Device.Step d log d') :
    d'.mem = erased 0 4096 d.mem ∨ error ≠ flashExOk ∧ d'.mem = d.mem := by
  rw [eraseChipBody, exec_bind_ok_iff] at h
  obtain ⟨e, l₁, l₂, he, h, rfl⟩ := h
  obtain ⟨d₁, hd₁, hd⟩ := served_append_iff.mp hd
  have hcommands := eraseChipCommands_served he hd₁
  rw [exec_bind_ok_iff] at h
  obtain ⟨wr, l₃, l₄, hwr, h, rfl⟩ := h
  obtain ⟨d₂, hd₂, hd⟩ := served_append_iff.mp hd
  have hmem₂ := mem_of_calm (calm_flashWaitReady _) hwr hd₂
  have hlast : d'.mem = d₂.mem ∧ (e ≠ flashExOk → error ≠ flashExOk) := by
    split at h
    · obtain ⟨rfl, hv⟩ := exec_ret_iff.mp h
      obtain rfl := served_nil_iff.mp hd
      exact ⟨rfl, fun _ => by rw [Except.ok.inj hv]; decide⟩
    · obtain ⟨rfl, hv⟩ := exec_ret_iff.mp h
      obtain rfl := served_nil_iff.mp hd
      exact ⟨rfl, fun hne => by rwa [Except.ok.inj hv]⟩
  rcases hcommands with hmem₁ | ⟨hne, hmem₁⟩
  · exact .inl (hlast.1.trans (hmem₂.trans hmem₁))
  · exact .inr ⟨hlast.2 hne, hlast.1.trans (hmem₂.trans hmem₁)⟩

/-! ## Calls -/

/-- A call that stays inside the flash. -/
def FlashCall.Inside : FlashCall → Prop
  | .read addr size | .write addr _ size => addr.toNat + size.toNat ≤ 2 ^ 24
  | .blockErase addr size => addr.toNat + max size.toNat 1 ≤ 2 ^ 24
  | .eraseChip => True

/-- What a call gives back: the error code, and the bytes of a read. -/
abbrev Result := Int × List UInt8

/-- A call on a flash: the function was executed, and the flash answered. -/
def FlashCall.Ran (d : Device) (c : FlashCall) (result : Result) (d' : Device) : Prop :=
  ∃ log, Served Device.Step d log d' ∧
    match c with
    | .read addr size => Exec (rhsHalFlashExRead addr size) log (.ok result)
    | c => Exec c.prog log (.ok result.1)

/-- **What a call does to a store.**  Whatever it returns, it has done a first part of its
work; if it returns `RHS_FLASH_EX_OK`, all of it. -/
def FlashCall.Does (mem : ℕ → UInt8) (c : FlashCall) (result : Result) (mem' : ℕ → UInt8) : Prop :=
  match c with
  | .read addr size =>
      mem' = mem ∧ (result.1 = flashExOk →
        result.2 = (List.range size.toNat).map fun i => mem (addr.toNat + i))
  | .write addr pData size =>
      ∃ k ≤ size.toNat, mem' = anded addr.toNat (writtenData pData k) mem ∧
        (result.1 = flashExOk → k = size.toNat)
  | .blockErase addr size =>
      ∃ k ≤ eraseTurns size.toNat, mem' = erased (addr.toNat / 4096) k mem ∧
        (result.1 = flashExOk → k = eraseTurns size.toNat)
  | .eraseChip => mem' = erased 0 4096 mem ∨ result.1 ≠ flashExOk ∧ mem' = mem

/-- The mutex does not concern the flash: the body sees the same memory. -/
theorem FlashCall.body_served {c : FlashCall} {error : Int} (h : Exec c.prog log (.ok error))
    (hd : Served Device.Step d log d') :
    ∃ d₁ l d₂, d₁.mem = d.mem ∧ Exec c.body l (.ok error) ∧ Served Device.Step d₁ l d₂ ∧
      d'.mem = d₂.mem := by
  obtain ⟨-, s, l, t, hbody, rfl⟩ := c.exec_prog_ok_iff.mp h
  rw [served_cons_iff] at hd
  obtain ⟨d₁, hacquire, hd⟩ := hd
  obtain ⟨d₂, hd₂, hd⟩ := served_append_iff.mp hd
  simp only [served_cons_iff, served_nil_iff] at hd
  obtain ⟨_, hrelease, rfl⟩ := hd
  exact ⟨d₁, l, d₂, mem_step d (.mutexAcquire rhsWaitForever) s d₁ trivial hacquire, hbody, hd₂,
    mem_step d₂ .mutexRelease t d' trivial hrelease⟩

theorem calm_readBody (addr size : UInt32) : (readBody addr size).Uses Calm := by
  refine Uses.bind ?_ fun _ _ _ => Uses.bind calm_flashForceAbort fun _ _ _ => uses_ret
  refine Uses.bind (calm_flashWaitReady 10) fun _ wr _ => ?_
  split
  · exact uses_ret
  refine Uses.bind (Uses.bind (calm_sendCommand rfl) fun _ s _ => ?_) fun _ _ _ => uses_ret
  split
  · exact uses_ret
  · exact ⟨trivial, fun _ => uses_ret⟩

theorem calm_read (addr size : UInt32) : (rhsHalFlashExRead addr size).Uses Calm := by
  refine Uses.bind ?_ fun _ _ _ => ?_
  · rw [rhsAssert]
    split
    · exact uses_ret
    · exact uses_halt
  · simp only [acquireFlashMutex, releaseFlashMutex, op_bind, uses_call]
    exact ⟨trivial, fun _ => Uses.bind (calm_readBody addr size) fun _ _ _ =>
      ⟨trivial, fun _ => uses_ret⟩⟩

/-- **A call on the flash does to its memory what it does to a store.** -/
theorem FlashCall.does_of_ran {c : FlashCall} {result : Result} (hin : c.Inside)
    (h : c.Ran d result d') : c.Does d.mem result d'.mem := by
  obtain ⟨log, hd, h⟩ := h
  cases c with
  | read addr size =>
      refine ⟨mem_of_calm (calm_read addr size) h hd, fun hok => ?_⟩
      obtain ⟨error, bytes⟩ := result
      obtain rfl : error = flashExOk := hok
      exact read_served hin h hd
  | write addr pData size =>
      obtain ⟨d₁, l, d₂, hmem₁, hbody, hd₂, hmem₂⟩ := body_served h hd
      have hwrite := writeLoop_served hin hbody hd₂
      rwa [hmem₁, ← hmem₂] at hwrite
  | blockErase addr size =>
      obtain ⟨d₁, l, d₂, hmem₁, hbody, hd₂, hmem₂⟩ := body_served h hd
      change Exec (blockEraseBody addr size) l (.ok result.1) at hbody
      rw [blockEraseBody, exec_bind_ok_iff] at hbody
      obtain ⟨wr, l₁, l₂, hwr, hloop, rfl⟩ := hbody
      obtain ⟨d₃, hd₃, hd₄⟩ := served_append_iff.mp hd₂
      have hmem₃ := (mem_of_calm (calm_flashWaitReady 10) hwr hd₃).trans hmem₁
      split at hloop
      · obtain ⟨rfl, hv⟩ := exec_ret_iff.mp hloop
        obtain rfl := served_nil_iff.mp hd₄
        refine ⟨0, Nat.zero_le _, ?_, fun hok => ?_⟩
        · rw [hmem₂, hmem₃, erased_zero]
        · rw [Except.ok.inj hv] at hok
          exact absurd hok (by decide)
      · rename_i hwr₀
        obtain rfl : wr = 0 := by simpa using hwr₀
        have herase := eraseLoop_served hin (waitReady_served hwr hd₃) hloop hd₄
        rwa [hmem₃, ← hmem₂] at herase
  | eraseChip =>
      obtain ⟨d₁, l, d₂, hmem₁, hbody, hd₂, hmem₂⟩ := body_served h hd
      have herase := eraseChipBody_served hbody hd₂
      rwa [hmem₁, ← hmem₂] at herase


/-! ## A flash that answers everything -/

/-- What a flash sends. -/
def Device.sent (d : Device) : List UInt8 :=
  match d.pending with
  | none => []
  | some cmd => (List.range cmd.nbData.toNat).map fun i => d.mem ((cmd.wireAddress + i) % 2 ^ 24)

/-- A flash that is also read without errors. -/
def readFlash : (o : FlashOp) → Device → o.Ans × Device
  | .qspi (.receive _), d => ((.ok, d.sent), { d with pending := none })
  | o, d => norFlash o d

theorem step_readFlash (d : Device) (o : FlashOp) :
    d.Step o (readFlash o d).1 (readFlash o d).2 := by
  cases o with
  | mutexAcquire timeout => exact step_norFlash d (.mutexAcquire timeout)
  | mutexRelease => exact step_norFlash d .mutexRelease
  | qspi q =>
      cases q with
      | receive timeout =>
          refine .inl ⟨fun _ cmd hcmd _ => ?_, rfl⟩
          simp only [readFlash, Device.sent, hcmd]
      | command cmd timeout => exact step_norFlash d (.qspi (.command cmd timeout))
      | transmit data timeout => exact step_norFlash d (.qspi (.transmit data timeout))
      | autoPolling cmd cfg timeout => exact step_norFlash d (.qspi (.autoPolling cmd cfg timeout))
      | readFlag flag => exact step_norFlash d (.qspi (.readFlag flag))
      | spinFlag flag value ticks => exact step_norFlash d (.qspi (.spinFlag flag value ticks))
      | setAbort => exact step_norFlash d (.qspi .setAbort)
      | clearFlags => exact step_norFlash d (.qspi .clearFlags)
      | clearFmode => exact step_norFlash d (.qspi .clearFmode)
      | setStateReady => exact step_norFlash d (.qspi .setStateReady)

/-- A flash full of zeros, busy with something. -/
def zeroFlash : Device where
  mem := fun _ => 0
  wel := true
  busy := true
  pending := none

/-- Its first subsector is erased, -/
def zeroErased : Device := (run readFlash (rhsHalFlashExBlockErase 0 1) zeroFlash).state

/-- and four bytes are written across a page boundary, -/
def zeroWritten : Device :=
  (run readFlash (rhsHalFlashExWrite 0xFE (fun i => .ofNat i) 4) zeroErased).state

/-- and read back. -/
def zeroRead : Device := (run readFlash (rhsHalFlashExRead 0xFE 4) zeroWritten).state

/-- What is answered to a call. -/
@[reducible] def FlashCall.Ans : FlashCall → Type := fun _ => Result

theorem ran_zeroFlash : ∃ bytes, Served FlashCall.Ran zeroFlash
    [⟨.blockErase 0 1, (flashExOk, [])⟩, ⟨.write 0xFE (fun i => .ofNat i) 4, (flashExOk, [])⟩,
      ⟨.read 0xFE 4, (flashExOk, bytes)⟩] zeroRead := by
  have herase :
      (run readFlash (rhsHalFlashExBlockErase 0 1) zeroFlash).result = .ok flashExOk := rfl
  have hwrite : (run readFlash (rhsHalFlashExWrite 0xFE (fun i => .ofNat i) 4) zeroErased).result =
      .ok flashExOk := rfl
  obtain ⟨bytes, hread⟩ : ∃ bytes,
      (run readFlash (rhsHalFlashExRead 0xFE 4) zeroWritten).result = .ok (flashExOk, bytes) :=
    ⟨_, rfl⟩
  refine ⟨bytes, .cons ⟨_, served_run readFlash step_readFlash _ _, ?_⟩
    (.cons ⟨_, served_run readFlash step_readFlash _ _, ?_⟩
      (.cons ⟨_, served_run readFlash step_readFlash _ _, ?_⟩ (.nil _)))⟩
  · exact herase ▸ exec_run readFlash (rhsHalFlashExBlockErase 0 1) zeroFlash
  · exact hwrite ▸ exec_run readFlash (rhsHalFlashExWrite 0xFE (fun i => .ofNat i) 4) zeroErased
  · exact hread ▸ exec_run readFlash (rhsHalFlashExRead 0xFE 4) zeroWritten

/-! ## Runs -/

variable {calls : List (Event FlashCall.Ans)} {mem mem' : ℕ → UInt8}

/-- **A run of calls on the flash is a run on the store**, whatever state a call left the
flash in for the next one. -/
theorem flash_refines_store (h : Served FlashCall.Ran d calls d')
    (hin : ∀ e ∈ calls, e.1.Inside) : Served FlashCall.Does d.mem calls d'.mem := by
  have hstep (x : Device) (m : ℕ → UInt8) (c : FlashCall) (result : FlashCall.Ans c) (y : Device)
      (hc : c.Inside) (hm : m = x.mem) (hran : FlashCall.Ran x c result y) :
      ∃ m', m' = y.mem ∧ FlashCall.Does m c result m' :=
    ⟨y.mem, rfl, hm ▸ FlashCall.does_of_ran hc hran⟩
  obtain ⟨mem', rfl, hserved⟩ := h.simulates hstep hin rfl
  exact hserved

/-- The four bytes are written to the store. -/
theorem zeroFlash_refines : ∃ bytes, Served FlashCall.Does zeroFlash.mem
    [⟨.blockErase 0 1, (flashExOk, [])⟩, ⟨.write 0xFE (fun i => .ofNat i) 4, (flashExOk, [])⟩,
      ⟨.read 0xFE 4, (flashExOk, bytes)⟩] zeroRead.mem := by
  obtain ⟨bytes, hran⟩ := ran_zeroFlash
  refine ⟨bytes, flash_refines_store hran fun e he => ?_⟩
  simp only [List.mem_cons, List.not_mem_nil, or_false] at he
  rcases he with rfl | rfl | rfl <;> simp only [FlashCall.Inside] <;> decide

/-- The bytes that a call may change. -/
def FlashCall.Touches (c : FlashCall) (j : ℕ) : Prop :=
  match c with
  | .read _ _ => False
  | .write addr _ size => addr.toNat ≤ j ∧ j < addr.toNat + size.toNat
  | .blockErase addr size =>
      addr.toNat / 4096 ≤ j / 4096 ∧ j / 4096 < addr.toNat / 4096 + eraseTurns size.toNat
  | .eraseChip => j < 2 ^ 24

theorem anded_outside {a j : ℕ} {data : List UInt8} (h : j < a ∨ a + data.length ≤ j) :
    anded a data mem j = mem j := by
  rw [anded, programmed_outside h, and_ones]

/-- Nothing else is changed, also by a call that fails. -/
theorem FlashCall.Does.frame {c : FlashCall} {result : Result} (h : c.Does mem result mem') {j : ℕ}
    (hj : ¬ c.Touches j) : mem' j = mem j := by
  cases c with
  | read addr size =>
      rw [h.1]
  | write addr pData size =>
      obtain ⟨k, hk, rfl, -⟩ := h
      refine anded_outside ?_
      rw [length_writtenData]
      simp only [Touches] at hj
      omega
  | blockErase addr size =>
      obtain ⟨k, hk, rfl, -⟩ := h
      simp only [Touches] at hj
      rw [erased, if_neg (by omega)]
  | eraseChip =>
      rcases h with rfl | ⟨-, rfl⟩
      · simp only [Touches] at hj
        rw [erased, if_neg (by omega)]
      · rfl

/-- A byte that no call of a run may change is as before. -/
theorem run_frame (h : Served FlashCall.Does mem calls mem') {j : ℕ}
    (hj : ∀ e ∈ calls, ¬ e.1.Touches j) : mem' j = mem j := by
  have hstep (m : ℕ → UInt8) (c : FlashCall) (result : FlashCall.Ans c) (m' : ℕ → UInt8)
      (hc : ¬ c.Touches j) (hdoes : FlashCall.Does m c result m') : m' j = m j :=
    hdoes.frame hc
  exact h.keeps hstep hj

/-- **Data that are written to erased memory stay**: when they are read, they are what was
written, whatever other calls were made elsewhere before and after the write, and however
these ended. -/
theorem written_data_stay {a n addr size : UInt32} {pData : ℕ → UInt8}
    {between after : List (Event FlashCall.Ans)} {r₁ r₂ bytes : List UInt8}
    (h : Served FlashCall.Ran d
      ((⟨.blockErase a n, (flashExOk, r₁)⟩ :: between) ++
        (⟨.write addr pData size, (flashExOk, r₂)⟩ :: after) ++
        [⟨.read addr size, (flashExOk, bytes)⟩]) d')
    (herase : (FlashCall.blockErase a n).Inside) (hwrite : (FlashCall.write addr pData size).Inside)
    (hin : ∀ e ∈ between ++ after, e.1.Inside)
    (hcover : ∀ j, addr.toNat ≤ j → j < addr.toNat + size.toNat →
      (FlashCall.blockErase a n).Touches j)
    (hother : ∀ e ∈ between ++ after, ∀ j, addr.toNat ≤ j → j < addr.toNat + size.toNat →
      ¬ e.1.Touches j) :
    bytes = writtenData pData size.toNat := by
  have hstore := flash_refines_store h (by
    intro e he
    simp only [List.mem_append, List.mem_cons, List.not_mem_nil, or_false] at he
    rcases he with ((rfl | he) | rfl | he) | rfl
    · exact herase
    · exact hin e (List.mem_append_left _ he)
    · exact hwrite
    · exact hin e (List.mem_append_right _ he)
    · exact hwrite)
  rw [served_append_iff] at hstore
  obtain ⟨m₄, hstore, hread⟩ := hstore
  obtain ⟨m₂, hstore₂, hstore₄⟩ := served_append_iff.mp hstore
  obtain ⟨m₁, ⟨k₁, -, rfl, hk₁⟩, hbetween⟩ := served_cons_iff.mp hstore₂
  obtain ⟨m₃, ⟨k₃, -, rfl, hk₃⟩, hafter⟩ := served_cons_iff.mp hstore₄
  obtain ⟨m₅, ⟨-, hbytes⟩, -⟩ := served_cons_iff.mp hread
  obtain rfl := hk₁ rfl
  obtain rfl := hk₃ rfl
  rw [show bytes = _ from hbytes rfl, writtenData]
  refine List.map_congr_left fun i hi => ?_
  have hi := List.mem_range.mp hi
  have hlo : addr.toNat ≤ addr.toNat + i := Nat.le_add_right _ _
  have hhi : addr.toNat + i < addr.toNat + size.toNat := Nat.add_lt_add_left hi _
  -- the byte is erased when the write comes, and nothing touches it later
  have hones : m₂ (addr.toNat + i) = 0xFF :=
    (run_frame hbetween fun e he => hother e (List.mem_append_left _ he) _ hlo hhi).trans
      (if_pos (hcover _ hlo hhi))
  have hlength : i < (writtenData pData size.toNat).length := by rwa [length_writtenData]
  rw [run_frame hafter fun e he => hother e (List.mem_append_right _ he) _ hlo hhi, anded, hones,
    programmed_inside hlength, ones_and]
  simp [writtenData]

/-- A flash that gets only the first byte of what is transmitted. -/
def cutFlash : (o : FlashOp) → Device → o.Ans × Device
  | .qspi (.transmit data _), d => (.error, d.transmitted (data.take 1))
  | o, d => readFlash o d

theorem step_cutFlash (d : Device) (o : FlashOp) : d.Step o (cutFlash o d).1 (cutFlash o d).2 := by
  cases o with
  | mutexAcquire timeout => exact step_readFlash d (.mutexAcquire timeout)
  | mutexRelease => exact step_readFlash d .mutexRelease
  | qspi q =>
      cases q with
      | transmit data timeout => exact .inl (.inr ⟨by simp [cutFlash], .inl ⟨1, rfl⟩⟩)
      | command cmd timeout => exact step_readFlash d (.qspi (.command cmd timeout))
      | receive timeout => exact step_readFlash d (.qspi (.receive timeout))
      | autoPolling cmd cfg timeout =>
          exact step_readFlash d (.qspi (.autoPolling cmd cfg timeout))
      | readFlag flag => exact step_readFlash d (.qspi (.readFlag flag))
      | spinFlag flag value ticks => exact step_readFlash d (.qspi (.spinFlag flag value ticks))
      | setAbort => exact step_readFlash d (.qspi .setAbort)
      | clearFlags => exact step_readFlash d (.qspi .clearFlags)
      | clearFmode => exact step_readFlash d (.qspi .clearFmode)
      | setStateReady => exact step_readFlash d (.qspi .setStateReady)

/-- A write to the next subsector that fails after its first byte, -/
def cutBefore : Device :=
  (run cutFlash (rhsHalFlashExWrite 0x1000 (fun _ => 0) 2) zeroErased).state

/-- then the four bytes, -/
def cutWritten : Device :=
  (run readFlash (rhsHalFlashExWrite 0xFE (fun i => .ofNat i) 4) cutBefore).state

/-- and another such write. -/
def cutAfter : Device :=
  (run cutFlash (rhsHalFlashExWrite 0x1000 (fun _ => 0) 2) cutWritten).state

theorem ran_cut (bytes : List UInt8)
    (hread : (run readFlash (rhsHalFlashExRead 0xFE 4) cutAfter).result =
      .ok (flashExOk, bytes)) :
    Served FlashCall.Ran zeroFlash
      ((⟨.blockErase 0 1, (flashExOk, [])⟩ ::
          [⟨.write 0x1000 (fun _ => 0) 2, (flashExError, [])⟩]) ++
        (⟨.write 0xFE (fun i => .ofNat i) 4, (flashExOk, [])⟩ ::
          [⟨.write 0x1000 (fun _ => 0) 2, (flashExError, [])⟩]) ++
        [⟨.read 0xFE 4, (flashExOk, bytes)⟩])
      (run readFlash (rhsHalFlashExRead 0xFE 4) cutAfter).state := by
  have herase :
      (run readFlash (rhsHalFlashExBlockErase 0 1) zeroFlash).result = .ok flashExOk := rfl
  have hbefore : (run cutFlash (rhsHalFlashExWrite 0x1000 (fun _ => 0) 2) zeroErased).result =
      .ok flashExError := rfl
  have hwrite : (run readFlash (rhsHalFlashExWrite 0xFE (fun i => .ofNat i) 4) cutBefore).result =
      .ok flashExOk := rfl
  have hafter : (run cutFlash (rhsHalFlashExWrite 0x1000 (fun _ => 0) 2) cutWritten).result =
      .ok flashExError := rfl
  refine .cons ⟨_, served_run readFlash step_readFlash _ _, ?_⟩
    (.cons ⟨_, served_run cutFlash step_cutFlash _ _, ?_⟩
      (.cons ⟨_, served_run readFlash step_readFlash _ _, ?_⟩
        (.cons ⟨_, served_run cutFlash step_cutFlash _ _, ?_⟩
          (.cons ⟨_, served_run readFlash step_readFlash _ _, ?_⟩ (.nil _)))))
  · exact herase ▸ exec_run readFlash (rhsHalFlashExBlockErase 0 1) zeroFlash
  · exact hbefore ▸ exec_run cutFlash (rhsHalFlashExWrite 0x1000 (fun _ => 0) 2) zeroErased
  · exact hwrite ▸ exec_run readFlash (rhsHalFlashExWrite 0xFE (fun i => .ofNat i) 4) cutBefore
  · exact hafter ▸ exec_run cutFlash (rhsHalFlashExWrite 0x1000 (fun _ => 0) 2) cutWritten
  · exact hread ▸ exec_run readFlash (rhsHalFlashExRead 0xFE 4) cutAfter

/-- The four bytes are read back, with a failed write elsewhere before and after theirs. -/
theorem zeroFlash_four_bytes_stay : ∃ bytes d, Served FlashCall.Ran zeroFlash
    [⟨.blockErase 0 1, (flashExOk, [])⟩, ⟨.write 0x1000 (fun _ => 0) 2, (flashExError, [])⟩,
      ⟨.write 0xFE (fun i => .ofNat i) 4, (flashExOk, [])⟩,
      ⟨.write 0x1000 (fun _ => 0) 2, (flashExError, [])⟩,
      ⟨.read 0xFE 4, (flashExOk, bytes)⟩] d ∧ bytes = [0, 1, 2, 3] := by
  obtain ⟨bytes, hread⟩ : ∃ bytes,
      (run readFlash (rhsHalFlashExRead 0xFE 4) cutAfter).result = .ok (flashExOk, bytes) :=
    ⟨_, rfl⟩
  have hran := ran_cut bytes hread
  have haddr : (0xFE : UInt32).toNat = 254 := rfl
  have hsize : (4 : UInt32).toNat = 4 := rfl
  have herase : (FlashCall.blockErase 0 1).Inside := by
    simp only [FlashCall.Inside]
    decide
  have hwrite : (FlashCall.write 0xFE (fun i => .ofNat i) 4).Inside := by
    simp only [FlashCall.Inside]
    decide
  have hcut : (FlashCall.write 0x1000 (fun _ => 0) 2).Inside := by
    simp only [FlashCall.Inside]
    decide
  have hcover (j : ℕ) (hlo : (0xFE : UInt32).toNat ≤ j)
      (hhi : j < (0xFE : UInt32).toNat + (4 : UInt32).toNat) :
      (FlashCall.blockErase 0 1).Touches j := by
    have hturns : eraseTurns (1 : UInt32).toNat = 1 := by simp [eraseTurns]
    have hzero : (0 : UInt32).toNat = 0 := rfl
    simp only [FlashCall.Touches, hturns]
    omega
  have hother (j : ℕ) (hhi : j < (0xFE : UInt32).toNat + (4 : UInt32).toNat) :
      ¬ (FlashCall.write 0x1000 (fun _ => 0) 2).Touches j := by
    have hnext : (0x1000 : UInt32).toNat = 4096 := rfl
    simp only [FlashCall.Touches]
    omega
  refine ⟨bytes, _, hran, written_data_stay hran herase hwrite ?_ hcover ?_⟩
  · intro e he
    rcases List.mem_append.mp he with he | he <;> obtain rfl := List.mem_singleton.mp he
    · exact hcut
    · exact hcut
  · intro e he j _ hhi
    rcases List.mem_append.mp he with he | he <;> obtain rfl := List.mem_singleton.mp he
    · exact hother j hhi
    · exact hother j hhi

end RhsCore.FlashEx
