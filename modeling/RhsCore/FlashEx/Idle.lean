import RhsCore.FlashEx.Written

/-!
# Whether the peripheral is left idle

`flash_wait_ready` is to bring the QSPI peripheral back to idle when the flash does not
become ready: it aborts, and asks once more.  What it does not abort is the second question.

Two bits of the peripheral are followed through a call, `SR.BUSY` and `hqspi.State`.  A call
of the vendor layer that times out leaves the peripheral busy and its state ready; what one
that fails in another way leaves is not known.

## Main definitions

* `Quadspi`, `Quadspi.Step` — the two bits, and what an operation does to them.
* `lastPoll log` — the answer to the last question whether the flash is ready.
* `idle_iff` — when the peripheral is left idle.
-/

namespace RhsCore.FlashEx

open Prog

/-! ## The peripheral -/

/-- `SR.BUSY`, and whether `hqspi.State` is `HAL_QSPI_STATE_READY`. -/
structure Quadspi where
  busy : Bool
  ready : Bool
  deriving DecidableEq, Repr

def Quadspi.Idle (q : Quadspi) : Prop := q.busy = false ∧ q.ready = true

instance (q : Quadspi) : Decidable q.Idle := inferInstanceAs (Decidable (_ ∧ _))

/-- What a call of the vendor layer leaves, if it leaves `P` when it succeeds. -/
def Quadspi.After (q : Quadspi) (P : Prop) : HalStatus → Prop
  | .ok => P
  | .timeout => q.busy = true ∧ q.ready = true
  | .error => True
  | .busy => True

/-- What an operation does to the peripheral, with what it answers.  After a command that
data follow, and after data have been received, it may be busy. -/
def Quadspi.Step (q : Quadspi) : (o : FlashOp) → o.Ans → Quadspi → Prop
  | .mutexAcquire _, _, q' => q' = q
  | .mutexRelease, _, q' => q' = q
  | .qspi (.command cmd _), status, q' =>
      q'.After (q'.ready = true ∧ (cmd.dataMode = .none → q'.busy = false)) status
  | .qspi (.transmit _ _), status, q' => q'.After q'.Idle status
  | .qspi (.receive _), received, q' => q'.After (q'.ready = true) received.1
  | .qspi (.autoPolling _ _ _), status, q' => q'.After q'.Idle status
  | .qspi (.readFlag .busy), busy, q' => busy = q.busy ∧ q' = q
  | .qspi (.readFlag .transferComplete), _, q' => q' = q
  | .qspi .setAbort, _, q' => q' = { q with busy := false }
  | .qspi (.spinFlag _ _ _), _, q' => q' = q
  | .qspi .clearFlags, _, q' => q' = q
  | .qspi .clearFmode, _, q' => q' = q
  | .qspi .setStateReady, _, q' => q' = { q with ready := true }

/-! ## The last answer -/

/-- The answer of `mt25ql128aba_auto_polling_mem_ready`. -/
def memReadyAnswer : Event FlashOp.Ans → Option HalStatus
  | ⟨.qspi (.autoPolling _ cfg _), status⟩ => if cfg.mask = 0x0101 then some status else none
  | _ => none

/-- The question whether the flash is ready, with its answer. -/
def polled (timeout : UInt32) (status : HalStatus) : Event FlashOp.Ans :=
  ⟨.qspi (.autoPolling { instruction := .readStatusRegister, dataMode := .one }
    { match' := 0, mask := 0x0101 } (.ms timeout)), status⟩

/-- The answer to the last question whether the flash is ready. -/
def lastPoll (log : List (Event FlashOp.Ans)) : Option HalStatus :=
  (log.filterMap memReadyAnswer).getLast?

@[simp] theorem lastPoll_append (l₁ l₂ : List (Event FlashOp.Ans)) :
    lastPoll (l₁ ++ l₂) = (lastPoll l₂).or (lastPoll l₁) := by
  rw [lastPoll, List.filterMap_append, List.getLast?_append]
  rfl

theorem lastPoll_polled (timeout : UInt32) (status : HalStatus) :
    lastPoll [polled timeout status] = some status := rfl

/-- An operation that does not ask. -/
def NoPoll : FlashOp → Prop
  | .qspi (.autoPolling _ cfg _) => cfg.mask ≠ 0x0101
  | _ => True

theorem lastPoll_eq_none {α : Type} {p : FlashProg α} {log : List (Event FlashOp.Ans)}
    {r : Except Halt α} (hp : p.Uses NoPoll) (h : Exec p log r) : lastPoll log = none := by
  rw [lastPoll, List.getLast?_eq_none_iff, List.filterMap_eq_nil_iff]
  intro e he
  have hno := hp.of_mem h e he
  obtain ⟨o, answer⟩ := e
  cases o with
  | qspi q =>
      cases q with
      | autoPolling cmd cfg timeout => exact if_neg hno
      | _ => rfl
  | _ => rfl

theorem noPoll_flashForceAbort : flashForceAbort.Uses NoPoll := by
  simp only [flashForceAbort, qspi, call_bind, ret_bind, uses_call]
  refine ⟨trivial, fun busy => ?_⟩
  cases busy <;> simp [NoPoll]

theorem noPoll_sendCommand (cmd : QspiCommand) : (sendCommand cmd).Uses NoPoll :=
  ⟨trivial, fun _ => trivial⟩

theorem noPoll_mt25ql128abaWriteEnable : mt25ql128abaWriteEnable.Uses NoPoll := by
  refine Uses.bind (noPoll_sendCommand _) fun _ s _ => ?_
  split
  · exact uses_ret
  · exact ⟨by simp [NoPoll], fun _ => uses_ret⟩

theorem noPoll_mt25ql128abaPageProgram (data : List UInt8) (addr size : UInt32) :
    (mt25ql128abaPageProgram data addr size).Uses NoPoll := by
  refine Uses.bind (noPoll_sendCommand _) fun _ s _ => ?_
  split
  · exact uses_ret
  · exact ⟨trivial, fun _ => uses_ret⟩

/-! ## Idle, or stuck -/

variable {log l₁ l₂ : List (Event FlashOp.Ans)}

/-- After this the peripheral is idle, whatever it was before. -/
def Settles (log : List (Event FlashOp.Ans)) : Prop :=
  ∀ q q', Served Quadspi.Step q log q' → q'.Idle

/-- The last thing done was to ask, and the answer was not that the flash is ready. -/
def Stuck (log : List (Event FlashOp.Ans)) : Prop :=
  ∃ l timeout status, status ≠ .ok ∧ log = l ++ [polled timeout status]

theorem Settles.append (h : Settles l₂) (l₁ : List (Event FlashOp.Ans)) :
    Settles (l₁ ++ l₂) := by
  intro q q' hq
  obtain ⟨mid, -, hrest⟩ := served_append_iff.mp hq
  exact h mid q' hrest

theorem Stuck.append (h : Stuck l₂) (l₁ : List (Event FlashOp.Ans)) : Stuck (l₁ ++ l₂) := by
  obtain ⟨l, timeout, status, hne, rfl⟩ := h
  exact ⟨l₁ ++ l, timeout, status, hne, (List.append_assoc _ _ _).symm⟩

theorem Stuck.lastPoll_ne (h : Stuck log) : lastPoll log ≠ some .ok := by
  obtain ⟨l, timeout, status, hne, rfl⟩ := h
  rw [lastPoll_append, lastPoll_polled, Option.some_or]
  exact fun h => hne (Option.some.inj h)

/-- The peripheral can be busy then. -/
theorem Stuck.exists_busy (h : Stuck log) {q q' : Quadspi} (hq : Served Quadspi.Step q log q') :
    Served Quadspi.Step q log { busy := true, ready := true } := by
  obtain ⟨l, timeout, status, hne, rfl⟩ := h
  obtain ⟨mid, hl, -⟩ := served_append_iff.mp hq
  refine served_append_iff.mpr ⟨mid, hl, .cons ?_ (.nil _)⟩
  cases status with
  | ok => exact absurd rfl hne
  | error => trivial
  | busy => trivial
  | timeout => exact ⟨rfl, rfl⟩

/-- An abort leaves the peripheral idle. -/
theorem settles_flashForceAbort {u : Unit} (h : Exec flashForceAbort log (.ok u)) :
    Settles log := by
  intro q q' hq
  simp only [flashForceAbort, qspi, call_bind, ret_bind, exec_call_iff] at h
  obtain ⟨busy, _, rfl, h⟩ := h
  cases busy with
  | false =>
      simp only [Bool.false_eq_true, if_false, exec_call_iff, exec_ret_iff] at h
      obtain ⟨_, _, rfl, _, _, rfl, rfl, -⟩ := h
      simp only [served_cons_iff, served_nil_iff] at hq
      obtain ⟨_, ⟨hbusy, rfl⟩, _, rfl, _, rfl, rfl⟩ := hq
      exact ⟨hbusy.symm, rfl⟩
  | true =>
      simp only [if_true, exec_call_iff, exec_ret_iff] at h
      obtain ⟨_, _, rfl, _, _, rfl, _, _, rfl, _, _, rfl, _, _, rfl, _, _, rfl, rfl, -⟩ := h
      simp only [served_cons_iff, served_nil_iff] at hq
      obtain ⟨_, ⟨-, rfl⟩, _, rfl, _, rfl, _, rfl, _, rfl, _, rfl, _, rfl, rfl⟩ := hq
      exact ⟨rfl, rfl⟩

/-- What is done ends with the peripheral idle and the flash ready, as far as it was asked,
or the last question was in vain. -/
def Ends (log : List (Event FlashOp.Ans)) : Prop :=
  Settles log ∧ lastPoll log = some .ok ∨ Stuck log

theorem Ends.append (h : Ends l₂) (l₁ : List (Event FlashOp.Ans)) : Ends (l₁ ++ l₂) := by
  rcases h with ⟨hsettles, hpoll⟩ | hstuck
  · exact .inl ⟨hsettles.append l₁, by rw [lastPoll_append, hpoll, Option.some_or]⟩
  · exact .inr (hstuck.append l₁)

/-- What is done without asking can follow if the flash was ready. -/
theorem Settles.ends_append (h : Settles l₂) (hnone : lastPoll l₂ = none)
    (hpoll : lastPoll l₁ = some .ok) : Ends (l₁ ++ l₂) :=
  .inl ⟨h.append l₁, by rw [lastPoll_append, hnone, hpoll, Option.none_or]⟩

/-- A question, after whatever came before it. -/
theorem polled_ends (l : List (Event FlashOp.Ans)) (timeout : UInt32) (status : HalStatus) :
    halResult status = 0 ∧ Settles (l ++ [polled timeout status]) ∧
        lastPoll (l ++ [polled timeout status]) = some .ok ∨
      halResult status ≠ 0 ∧ Stuck (l ++ [polled timeout status]) := by
  by_cases hok : status = .ok
  · subst hok
    refine .inl ⟨rfl, Settles.append ?_ l, by rw [lastPoll_append, lastPoll_polled]; rfl⟩
    intro q q' hq
    simp only [polled, served_cons_iff, served_nil_iff] at hq
    obtain ⟨_, hidle, rfl⟩ := hq
    exact hidle
  · exact .inr ⟨fun hzero => hok (halResult_eq_zero_iff.mp hzero), l, timeout, status, hok, rfl⟩

/-- **Waiting**: the flash is ready and the peripheral idle, or the second question was in
vain. -/
theorem flashWaitReady_ends {timeout : UInt32} {r : Int}
    (h : Exec (flashWaitReady timeout) log (.ok r)) :
    r = 0 ∧ Settles log ∧ lastPoll log = some .ok ∨ r ≠ 0 ∧ Stuck log := by
  rw [flashWaitReady, exec_bind_ok_iff] at h
  obtain ⟨s, l₁, l₂, hfirst, h, rfl⟩ := h
  obtain ⟨status, rfl, hs⟩ := exec_ready_iff.mp hfirst
  obtain rfl := Except.ok.inj hs
  split at h
  · obtain ⟨_, l₃, l₄, -, hsecond, rfl⟩ := exec_bind_ok_iff.mp h
    obtain ⟨status', rfl, hs'⟩ := exec_ready_iff.mp hsecond
    obtain rfl := Except.ok.inj hs'
    rw [← List.append_assoc]
    exact polled_ends _ timeout status'
  · rename_i hzero
    obtain ⟨rfl, hr⟩ := exec_ret_iff.mp h
    obtain rfl := Except.ok.inj hr
    rw [List.append_nil]
    rcases polled_ends [] timeout status with ⟨-, hends⟩ | ⟨hne, -⟩
    · exact .inl ⟨rfl, hends⟩
    · exact absurd hne hzero

/-- A wait that is in vain ends a command. -/
theorem ends_of_busy {α : Type} {timeout : UInt32} {r : Int} {a v : α}
    (hwait : Exec (flashWaitReady timeout) l₁ (.ok r)) (hbusy : r ≠ 0)
    (h : Exec (.ret a : FlashProg α) l₂ (.ok v)) : Ends (l₁ ++ l₂) := by
  obtain ⟨rfl, -⟩ := exec_ret_iff.mp h
  rw [List.append_nil]
  exact .inr ((flashWaitReady_ends hwait).resolve_left fun hready => hbusy hready.1).2

theorem lastPoll_of_ready {timeout : UInt32} {r : Int}
    (hwait : Exec (flashWaitReady timeout) log (.ok r)) (hready : ¬ r ≠ 0) :
    lastPoll log = some .ok :=
  ((flashWaitReady_ends hwait).resolve_right fun hbusy => hready hbusy.1).2.2

/-- What comes before the abort at the end of a failed command does not ask. -/
theorem abort_ends {α : Type} {p : FlashProg Int} {a v : α} (hp : p.Uses NoPoll) {r : Int}
    (h : Exec p l₁ (.ok r))
    (habort : Exec (flashForceAbort >>= fun _ => (.ret a : FlashProg α)) l₂ (.ok v)) :
    Settles (l₁ ++ l₂) ∧ lastPoll (l₁ ++ l₂) = none ∧ v = a := by
  obtain ⟨_, l, l', hl, hret, rfl⟩ := exec_bind_ok_iff.mp habort
  obtain ⟨rfl, hv⟩ := exec_ret_iff.mp hret
  rw [List.append_nil, lastPoll_append, lastPoll_eq_none hp h,
    lastPoll_eq_none noPoll_flashForceAbort hl]
  exact ⟨(settles_flashForceAbort hl).append l₁, rfl, Except.ok.inj hv⟩

/-! ## The loops -/

theorem writeTurn_leaves {pData : ℕ → UInt8} {endAddr : UInt32} {x : WriteLoop}
    {v : WriteLoop ⊕ Int} (h : Exec (writeTurn pData endAddr x) log (.ok v)) : Ends log := by
  rw [writeTurn, exec_bind_ok_iff] at h
  obtain ⟨wr, l₁, l₂, hwr, h, rfl⟩ := h
  split at h
  · rename_i hbusy
    exact ends_of_busy hwr hbusy h
  rename_i hready
  have hpoll := lastPoll_of_ready hwr hready
  rw [exec_bind_ok_iff] at h
  obtain ⟨we, l₃, l₄, hwe, h, rfl⟩ := h
  split at h
  · obtain ⟨hsettles, hnone, -⟩ := abort_ends noPoll_mt25ql128abaWriteEnable hwe h
    exact hsettles.ends_append hnone hpoll
  rw [exec_bind_ok_iff] at h
  obtain ⟨pp, l₅, l₆, hpp, h, rfl⟩ := h
  split at h
  · obtain ⟨hsettles, hnone, -⟩ := abort_ends (noPoll_mt25ql128abaPageProgram _ _ _) hpp h
    refine (hsettles.append l₃).ends_append ?_ hpoll
    rw [lastPoll_append, hnone, lastPoll_eq_none noPoll_mt25ql128abaWriteEnable hwe]
    rfl
  rw [exec_bind_ok_iff] at h
  obtain ⟨wr', l₇, l₈, hwr', h, rfl⟩ := h
  have hlast : Ends l₇ := by
    rcases flashWaitReady_ends hwr' with ⟨-, hends⟩ | ⟨-, hstuck⟩
    · exact .inl hends
    · exact .inr hstuck
  have hnil : l₈ = [] := by
    split at h
    · exact (exec_ret_iff.mp h).1
    · exact (exec_ret_iff.mp h).1
  rw [hnil, List.append_nil]
  exact ((hlast.append l₅).append l₃).append l₁

/-- A turn of the erase loop, with the flash ready before it. -/
theorem eraseTurn_leaves {x : EraseLoop} {v : EraseLoop ⊕ Int}
    (h : Exec (eraseTurn x) log (.ok v)) {pre : List (Event FlashOp.Ans)}
    (hpoll : lastPoll pre = some .ok) :
    Ends (pre ++ log) ∧ ∀ x', v = .inl x' → lastPoll (pre ++ log) = some .ok := by
  rw [eraseTurn, exec_bind_ok_iff] at h
  obtain ⟨we, l₁, l₂, hwe, h, rfl⟩ := h
  split at h
  · obtain ⟨hsettles, hnone, rfl⟩ := abort_ends noPoll_mt25ql128abaWriteEnable hwe h
    exact ⟨hsettles.ends_append hnone hpoll, fun x' hx => by cases hx⟩
  rw [exec_bind_ok_iff] at h
  obtain ⟨be, l₃, l₄, hbe, h, rfl⟩ := h
  split at h
  · obtain ⟨hsettles, hnone, rfl⟩ := abort_ends (noPoll_sendCommand _) hbe h
    refine ⟨(hsettles.append l₁).ends_append ?_ hpoll, fun x' hx => by cases hx⟩
    rw [lastPoll_append, hnone, lastPoll_eq_none noPoll_mt25ql128abaWriteEnable hwe]
    rfl
  rw [exec_bind_ok_iff] at h
  obtain ⟨wr, l₅, l₆, hwr, h, rfl⟩ := h
  have hwait := flashWaitReady_ends hwr
  split at h
  · rename_i hbusy
    obtain ⟨rfl, hv⟩ := exec_ret_iff.mp h
    obtain rfl := Except.ok.inj hv
    have hstuck : Stuck l₅ := (hwait.resolve_left fun hready => hbusy hready.1).2
    rw [List.append_nil]
    exact ⟨.inr (((hstuck.append l₃).append l₁).append pre), fun x' hx => by cases hx⟩
  · rename_i hready
    obtain ⟨rfl, hv⟩ := exec_ret_iff.mp h
    have hends := (hwait.resolve_right fun hbusy => hready hbusy.1).2
    have hlast : Ends l₅ := .inl hends
    rw [List.append_nil]
    refine ⟨((hlast.append l₃).append l₁).append pre, fun _ _ => ?_⟩
    simp [hends.2]

/-! ## A whole call -/

def FlashCall.isRead : FlashCall → Bool
  | .read _ _ => true
  | _ => false

/-- A read aborts at its end in any case. -/
theorem readBody_settles {addr size : UInt32} {r : Int × List UInt8}
    (h : Exec (readBody addr size) log (.ok r)) : Settles log := by
  rw [readBody, exec_bind_ok_iff] at h
  obtain ⟨result, l₁, l₂, -, h, rfl⟩ := h
  rw [exec_bind_ok_iff] at h
  obtain ⟨_, l₃, l₄, habort, h, rfl⟩ := h
  obtain ⟨rfl, -⟩ := exec_ret_iff.mp h
  rw [List.append_nil]
  exact (settles_flashForceAbort habort).append l₁

theorem FlashCall.body_ends {c : FlashCall} {error : Int} (hread : c.isRead = false)
    (h : Exec c.body log (.ok error)) : Ends log := by
  cases c with
  | read addr size => cases hread
  | write addr pData size =>
      obtain ⟨x, l₁, l₂, rfl, hlast⟩ := exec_iter_last h
      exact (writeTurn_leaves hlast).append l₁
  | blockErase addr size =>
      rw [body, blockEraseBody, exec_bind_ok_iff] at h
      obtain ⟨wr, l₁, l₂, hwr, h, rfl⟩ := h
      split at h
      · rename_i hbusy
        exact ends_of_busy hwr hbusy h
      · rename_i hready
        have hpoll := lastPoll_of_ready hwr hready
        obtain ⟨x, l₃, l₄, rfl, hx, hlast⟩ :=
          exec_iter_ok (fun pre _ => lastPoll pre = some .ok)
            (fun pre x l x' hpre hturn => (eraseTurn_leaves hturn hpre).2 x' rfl) hpoll h
        rw [← List.append_assoc]
        exact (eraseTurn_leaves hlast hx).1
  | eraseChip =>
      rw [body, eraseChipBody, exec_bind_ok_iff] at h
      obtain ⟨e, l₁, l₂, -, h, rfl⟩ := h
      rw [exec_bind_ok_iff] at h
      obtain ⟨wr, l₃, l₄, hwr, h, rfl⟩ := h
      have hnil : l₄ = [] := by
        split at h
        · exact (exec_ret_iff.mp h).1
        · exact (exec_ret_iff.mp h).1
      rw [hnil, List.append_nil]
      refine Ends.append ?_ l₁
      rcases flashWaitReady_ends hwr with ⟨-, hends⟩ | ⟨-, hstuck⟩
      · exact .inl hends
      · exact .inr hstuck

/-- What is not between acquire and release. -/
theorem FlashCall.count_release_body {c : FlashCall} {error : Int}
    (h : Exec c.body log (.ok error)) : (log.map Sigma.fst).count .mutexRelease = 0 := by
  rw [List.count_eq_zero]
  intro hmem
  obtain ⟨e, he, hrelease⟩ := List.mem_map.mp hmem
  have hwithin := c.within_body.of_mem h e he
  rw [hrelease] at hwithin
  exact hwithin

/-- **The peripheral is left idle, and the mutex released once**, exactly if the call is a
read, or the last question whether the flash is ready was answered that it is. -/
theorem idle_iff {c : FlashCall} {error : Int} {q : Quadspi} (h : Exec c.prog log (.ok error))
    (hd : ∃ q', Served Quadspi.Step q log q') :
    ((log.map Sigma.fst).count .mutexRelease = 1 ∧
        ∀ q', Served Quadspi.Step q log q' → q'.Idle) ↔
      c.isRead = true ∨ lastPoll log = some .ok := by
  obtain ⟨-, s, l, t, hbody, rfl⟩ := c.exec_prog_ok_iff.mp h
  have hcount : ((⟨.mutexAcquire rhsWaitForever, s⟩ :: (l ++ [⟨.mutexRelease, t⟩]) :
      List (Event FlashOp.Ans)).map Sigma.fst).count .mutexRelease = 1 := by
    simp [c.count_release_body hbody]
  have hserved (q' : Quadspi) : Served Quadspi.Step q
      (⟨.mutexAcquire rhsWaitForever, s⟩ :: (l ++ [⟨.mutexRelease, t⟩])) q' ↔
        Served Quadspi.Step q l q' := by
    simp [served_append_iff, Quadspi.Step]
  have hpoll : lastPoll (⟨.mutexAcquire rhsWaitForever, s⟩ :: (l ++ [⟨.mutexRelease, t⟩])) =
      lastPoll l := by
    change lastPoll (l ++ [⟨.mutexRelease, t⟩]) = _
    rw [lastPoll_append]
    rfl
  simp only [hserved, hpoll, hcount, true_and] at hd ⊢
  by_cases hread : c.isRead = true
  · refine iff_of_true ?_ (.inl hread)
    cases c with
    | read addr size =>
        rw [FlashCall.body, exec_bind_ok_iff] at hbody
        obtain ⟨result, l₁, l₂, hr, hret, rfl⟩ := hbody
        obtain ⟨rfl, -⟩ := exec_ret_iff.mp hret
        rw [List.append_nil]
        exact readBody_settles hr q
    | write addr pData size => cases hread
    | blockErase addr size => cases hread
    | eraseChip => cases hread
  · rcases FlashCall.body_ends (Bool.not_eq_true _ ▸ hread) hbody with ⟨hsettles, hok⟩ | hstuck
    · exact iff_of_true (hsettles q) (.inr hok)
    · obtain ⟨q', hq'⟩ := hd
      constructor
      · intro hidle
        exact absurd (hidle _ (hstuck.exists_busy hq')).1 (by decide)
      · intro hcond
        exact absurd hcond (by simp [hread, hstuck.lastPoll_ne])

/-- A peripheral whose calls all succeed, except that questions whether the flash is ready
are answered with `status`. -/
def qspiDevice (status : HalStatus) : (o : FlashOp) → Quadspi → o.Ans × Quadspi
  | .mutexAcquire _, q => (.ok, q)
  | .mutexRelease, q => (.ok, q)
  | .qspi (.command _ _), _ => (.ok, ⟨false, true⟩)
  | .qspi (.transmit _ _), _ => (.ok, ⟨false, true⟩)
  | .qspi (.receive _), _ => ((.ok, []), ⟨false, true⟩)
  | .qspi (.autoPolling _ _ _), _ => (status, ⟨decide (status = .timeout), true⟩)
  | .qspi (.readFlag .busy), q => (q.busy, q)
  | .qspi (.readFlag .transferComplete), q => (true, q)
  | .qspi .setAbort, q => ((), { q with busy := false })
  | .qspi (.spinFlag _ _ _), q => ((), q)
  | .qspi .clearFlags, q => ((), q)
  | .qspi .clearFmode, q => ((), q)
  | .qspi .setStateReady, q => ((), { q with ready := true })

theorem step_qspiDevice (status : HalStatus) (q : Quadspi) (o : FlashOp) :
    q.Step o (qspiDevice status o q).1 (qspiDevice status o q).2 := by
  cases o with
  | mutexAcquire timeout => rfl
  | mutexRelease => rfl
  | qspi op =>
      cases op with
      | command cmd timeout => exact ⟨rfl, fun _ => rfl⟩
      | transmit data timeout => exact ⟨rfl, rfl⟩
      | receive timeout => exact (rfl : true = true)
      | autoPolling cmd cfg timeout =>
          cases status with
          | ok => exact ⟨rfl, rfl⟩
          | timeout => exact ⟨rfl, rfl⟩
          | error => trivial
          | busy => trivial
      | readFlag flag =>
          cases flag with
          | busy => exact ⟨rfl, rfl⟩
          | transferComplete => exact (rfl : q = q)
      | _ => rfl

/-- Two questions in a row time out, and the write returns with the peripheral busy. -/
theorem busy_after_two_timeouts : ∃ log,
    Exec (FlashCall.write 0 (fun _ => 0) 1).prog log (.ok flashExBusy) ∧
      Served Quadspi.Step ⟨false, true⟩ log ⟨true, true⟩ ∧ ¬ (⟨true, true⟩ : Quadspi).Idle := by
  have hserved := served_run (qspiDevice .timeout) (step_qspiDevice .timeout)
    (FlashCall.write 0 (fun _ => 0) 1).prog ⟨false, true⟩
  exact ⟨_, exec_run (qspiDevice .timeout) _ ⟨false, true⟩, hserved, by decide⟩

/-- With a flash that is ready, the peripheral is idle after a write. -/
theorem idle_after_write : ∃ log,
    Exec (FlashCall.write 0 (fun _ => 0) 1).prog log (.ok flashExOk) ∧
      ∀ q', Served Quadspi.Step ⟨false, true⟩ log q' → q'.Idle := by
  have hexec : Exec (FlashCall.write 0 (fun _ => 0) 1).prog _ (.ok flashExOk) :=
    exec_run (qspiDevice .ok) _ ⟨false, true⟩
  have hserved := served_run (qspiDevice .ok) (step_qspiDevice .ok)
    (FlashCall.write 0 (fun _ => 0) 1).prog ⟨false, true⟩
  exact ⟨_, hexec, ((idle_iff hexec ⟨_, hserved⟩).mpr (.inr rfl)).2⟩

end RhsCore.FlashEx
