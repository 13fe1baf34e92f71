import Mathlib.Algebra.Group.Nat.Defs
import Mathlib.Logic.Function.Basic
import RhsCore.Lib.Transition

/-!
# The statistic of a CAN interface

The two interrupts of `rhs_hal_can.c` that count: the transmit interrupt, which comes when a
mailbox has completed, and the receive interrupt, which looks for an overrun.  Both count once
in each interrupt.  Several mailboxes may have completed, or none, and the flag of an overrun
stays where it is until the FIFO is released.

## Main definitions

* `canTxCallback`, `canRxCallback` — the interrupts.
* `Agrees` — the counters say what was acknowledged and what was reported.
* `Allowed` — what an interrupt has to find.
* `statistic_agrees_iff` — the counters agree exactly if every interrupt finds it.
-/

namespace RhsCore.CanStatistic

/-! ## The source -/

structure RHSHalCANStatistic where
  txMsgs : UInt32
  txErrs : UInt32
  txOvfs : UInt32
  rxMsgs : UInt32
  rxErrs : UInt32
  rxOvfs : UInt32

abbrev Mailbox := Fin 3

/-- The statistic, and the flags of the controller: `TXRQ` and `RQCP` of each mailbox, and
`FOVR0`.  What happened is counted beside them: completions that were acknowledged, overruns
that are not reported yet, and those that are. -/
structure State where
  statistic : RHSHalCANStatistic
  txrq : Mailbox → Bool
  rqcp : Mailbox → Bool
  fovr0 : Bool
  acknowledged : ℕ
  unreported : ℕ
  reported : ℕ

def State.init : State where
  statistic := ⟨0, 0, 0, 0, 0, 0⟩
  txrq _ := false
  rqcp _ := false
  fovr0 := false
  acknowledged := 0
  unreported := 0
  reported := 0

/-- A transmission ends in the mailbox. -/
def State.complete (s : State) (m : Mailbox) : State :=
  { s with txrq := Function.update s.txrq m false, rqcp := Function.update s.rqcp m true }

/-- `if (TSR & CAN_TSR_RQCPm) TSR = CAN_TSR_RQCPm`.  The transmission of a `late` mailbox ends
just before. -/
def acknowledge (late : Mailbox → Bool) (s : State) (m : Mailbox) : State :=
  let s := if late m && s.txrq m then s.complete m else s
  if s.rqcp m then
    { s with rqcp := Function.update s.rqcp m false, acknowledged := s.acknowledged + 1 }
  else s

/-- `late` are the mailboxes that complete between the first look at the flags and the look at
their own. -/
def canTxCallback (late : Mailbox → Bool) (s : State) : State :=
  let s := { s with statistic := { s.statistic with txMsgs := s.statistic.txMsgs + 1 } }
  if s.rqcp 0 || s.rqcp 1 || s.rqcp 2 then
    let s := acknowledge late s 0
    let s := acknowledge late s 1
    acknowledge late s 2
  else s

/-- The overruns that the flag stands for are reported; it is not cleared. -/
def canRxCallback (s : State) : State :=
  if s.fovr0 then
    { s with
      statistic := { s.statistic with rxOvfs := s.statistic.rxOvfs + 1 }
      unreported := 0
      reported := s.reported + s.unreported }
  else s

/-- What the bus, the controller and the driver do. -/
inductive Action
  /-- The driver fills an empty mailbox, which clears its `RQCP`. -/
  | request (m : Mailbox)
  | complete (m : Mailbox)
  | overrun
  /-- The driver releases the FIFO, which clears `FOVR0`. -/
  | clear
  | txInterrupt (late : Mailbox → Bool)
  | rxInterrupt

def step (s : State) : Action → Option State
  | .request m =>
      if s.txrq m then none
      else
        some { s with
          txrq := Function.update s.txrq m true
          rqcp := Function.update s.rqcp m false }
  | .complete m => if s.txrq m then some (s.complete m) else none
  | .overrun => some { s with fovr0 := true, unreported := s.unreported + 1 }
  | .clear => some { s with fovr0 := false, unreported := 0 }
  | .txInterrupt late => some (canTxCallback late s)
  | .rxInterrupt => some (canRxCallback s)

/-! ## What the counters say -/

/-- **The counters agree** with what happened. -/
structure Agrees (s : State) : Prop where
  txMsgs : s.statistic.txMsgs.toNat = s.acknowledged
  rxOvfs : s.statistic.rxOvfs.toNat = s.reported

/-- The mailbox has completed when the transmit interrupt looks at it. -/
def completed (late : Mailbox → Bool) (s : State) (m : Mailbox) : Bool :=
  s.rqcp m || (late m && s.txrq m)

/-- How many have. -/
def found (late : Mailbox → Bool) (s : State) : ℕ :=
  [0, 1, 2].countP (completed late s)

/-- What an interrupt has to find: the transmit interrupt one completed mailbox, and the receive
interrupt one overrun since the last one where there is the flag.  And the counters are 32 bits
wide. -/
def Allowed (s : State) : Action → Prop
  | .txInterrupt late =>
      (∃ m, s.rqcp m = true) ∧ found late s = 1 ∧ s.acknowledged + 1 < 2 ^ 32
  | .rxInterrupt => s.fovr0 = true → s.unreported = 1 ∧ s.reported + 1 < 2 ^ 32
  | _ => True

/-! ## The transmit interrupt -/

section Transmit

variable (late : Mailbox → Bool) (s : State)

@[simp] theorem acknowledge_statistic (m : Mailbox) :
    (acknowledge late s m).statistic = s.statistic := by
  simp only [acknowledge, State.complete]
  split <;> split <;> rfl

@[simp] theorem acknowledge_reported (m : Mailbox) :
    (acknowledge late s m).reported = s.reported := by
  simp only [acknowledge, State.complete]
  split <;> split <;> rfl

theorem acknowledge_acknowledged (m : Mailbox) :
    (acknowledge late s m).acknowledged =
      s.acknowledged + if completed late s m then 1 else 0 := by
  by_cases hlate : (late m && s.txrq m) = true
  · simp [acknowledge, State.complete, completed, hlate]
  · simp only [acknowledge, completed, hlate, Bool.or_false, if_false, Bool.false_eq_true]
    split <;> rfl

/-- What is done for one mailbox leaves the others. -/
theorem completed_acknowledge {m m' : Mailbox} (hne : m' ≠ m) :
    completed late (acknowledge late s m) m' = completed late s m' := by
  simp only [acknowledge, State.complete]
  split <;> split <;> simp [completed, Function.update_of_ne hne]

theorem flag_iff : (s.rqcp 0 || s.rqcp 1 || s.rqcp 2) = true ↔ ∃ m, s.rqcp m = true := by
  rw [Fin.exists_fin_succ, Fin.exists_fin_two]
  simp [or_assoc]

theorem found_eq : found late s = (if completed late s 0 then 1 else 0) +
    (if completed late s 1 then 1 else 0) + if completed late s 2 then 1 else 0 := by
  simp only [found, List.countP_cons, List.countP_nil]
  omega

/-- **The transmit interrupt** acknowledges every mailbox that it finds completed, if one of
them is by its first look. -/
theorem canTxCallback_acknowledged (hflag : ∃ m, s.rqcp m = true) :
    (canTxCallback late s).acknowledged = s.acknowledged + found late s := by
  simp only [canTxCallback, (flag_iff s).mpr hflag, if_true, acknowledge_acknowledged]
  rw [completed_acknowledge late _ (by decide), completed_acknowledge late _ (by decide),
    completed_acknowledge late _ (by decide), found_eq]
  simp only [Nat.add_assoc]
  rfl

/-- Without a flag it acknowledges none. -/
theorem canTxCallback_acknowledged_of_not (hflag : ¬ ∃ m, s.rqcp m = true) :
    (canTxCallback late s).acknowledged = s.acknowledged := by
  rw [← flag_iff] at hflag
  simp only [canTxCallback, if_neg hflag]

/-- It counts once, whatever it finds. -/
theorem canTxCallback_statistic :
    (canTxCallback late s).statistic =
      { s.statistic with txMsgs := s.statistic.txMsgs + 1 } := by
  simp only [canTxCallback]
  split <;> simp

@[simp] theorem canTxCallback_reported : (canTxCallback late s).reported = s.reported := by
  simp only [canTxCallback]
  split <;> simp

end Transmit

/-! ## All interrupts -/

/-- A counter goes on with what it counts exactly if there was one more of it, and the counter
does not wrap. -/
theorem toNat_succ_eq_iff {counter : UInt32} {count : ℕ} (h : counter.toNat = count) (more : ℕ) :
    (counter + 1).toNat = count + more ↔ more = 1 ∧ count + 1 < 2 ^ 32 := by
  have hlt := counter.toNat_lt
  rw [UInt32.toNat_add, h, UInt32.toNat_one]
  omega

/-- Where nothing is counted, nothing changes. -/
theorem Agrees.congr {s s' : State} (hs : Agrees s) (hstatistic : s'.statistic = s.statistic)
    (hacknowledged : s'.acknowledged = s.acknowledged) (hreported : s'.reported = s.reported) :
    Agrees s' where
  txMsgs := by rw [hstatistic, hacknowledged, hs.txMsgs]
  rxOvfs := by rw [hstatistic, hreported, hs.rxOvfs]

theorem agrees_canTxCallback_iff {s : State} (hs : Agrees s) (late : Mailbox → Bool) :
    Agrees (canTxCallback late s) ↔ Allowed s (.txInterrupt late) := by
  have hiff (more : ℕ) (h : (canTxCallback late s).acknowledged = s.acknowledged + more) :
      Agrees (canTxCallback late s) ↔ more = 1 ∧ s.acknowledged + 1 < 2 ^ 32 := by
    rw [← toNat_succ_eq_iff hs.txMsgs, ← h]
    constructor
    · intro hagrees
      simpa [canTxCallback_statistic] using hagrees.txMsgs
    · intro htx
      refine ⟨?_, ?_⟩
      · simpa [canTxCallback_statistic] using htx
      · simpa [canTxCallback_statistic] using hs.rxOvfs
  by_cases hflag : ∃ m, s.rqcp m = true
  · rw [hiff _ (canTxCallback_acknowledged late s hflag), Allowed, and_iff_right hflag]
  · rw [hiff 0 (canTxCallback_acknowledged_of_not late s hflag)]
    simp [Allowed, hflag]

theorem agrees_canRxCallback_iff {s : State} (hs : Agrees s) :
    Agrees (canRxCallback s) ↔ Allowed s .rxInterrupt := by
  cases hflag : s.fovr0 with
  | false => simp [canRxCallback, Allowed, hflag, hs]
  | true =>
      have hrx := toNat_succ_eq_iff hs.rxOvfs s.unreported
      simp only [Allowed, hflag, forall_const, ← hrx, canRxCallback, if_true]
      exact ⟨fun hagrees => hagrees.rxOvfs, fun hreported => ⟨hs.txMsgs, hreported⟩⟩

theorem agrees_step_iff {s s' : State} {a : Action} (hs : Agrees s) (h : step s a = some s') :
    Agrees s' ↔ Allowed s a := by
  cases a with
  | request m =>
      rw [step] at h
      split at h
      · cases h
      · obtain rfl := Option.some.inj h
        exact iff_of_true (hs.congr rfl rfl rfl) trivial
  | complete m =>
      rw [step] at h
      split at h
      · obtain rfl := Option.some.inj h
        exact iff_of_true (hs.congr rfl rfl rfl) trivial
      · cases h
  | overrun =>
      obtain rfl := Option.some.inj h
      exact iff_of_true (hs.congr rfl rfl rfl) trivial
  | clear =>
      obtain rfl := Option.some.inj h
      exact iff_of_true (hs.congr rfl rfl rfl) trivial
  | txInterrupt late =>
      obtain rfl := Option.some.inj h
      exact agrees_canTxCallback_iff hs late
  | rxInterrupt =>
      obtain rfl := Option.some.inj h
      exact agrees_canRxCallback_iff hs

/-- **The exact condition**: the counters say all along a run what was acknowledged and reported
exactly if every interrupt finds one completion or one overrun. -/
theorem statistic_agrees_iff (run : List Action) :
    Always step Agrees State.init run ↔ Each step Allowed State.init run :=
  always_iff_each (J := fun _ => True) (fun _ _ _ _ _ => trivial)
    (fun _ _ _ _ hs h => agrees_step_iff hs h) trivial ⟨rfl, rfl⟩ run

/-- Two mailboxes complete before the interrupt. -/
def burstRun : List Action :=
  [.request 0, .request 1, .complete 0, .complete 1, .txInterrupt fun _ => false]

/-- The flag of one overrun is there in two interrupts. -/
def stickyRun : List Action := [.overrun, .rxInterrupt, .rxInterrupt]

theorem counters_disagree :
    ¬ Always step Agrees State.init burstRun ∧ ¬ Always step Agrees State.init stickyRun := by
  constructor
  · intro h
    have hlast := h.last rfl
    exact absurd hlast.txMsgs (by decide)
  · intro h
    have hlast := h.last rfl
    exact absurd hlast.rxOvfs (by decide)

end RhsCore.CanStatistic
