import Mathlib.Data.Nat.Notation
import Mathlib.Data.Int.Notation
import Mathlib.Tactic.SplitIfs

/-!
# Locking the scheduler

`core/kernel.c` over the kernel's suspension count.  A lock suspends the scheduler if it
is running and tells what it found; a restore is given that back.

A restore of "found suspended" suspends once more, although the lock had not, so that
each inner pair leaves a suspension behind and the outer restore does not reach zero.

## Main definitions

* `Scheduler` — the kernel's scheduler.
* `rhsKernelLock`, `rhsKernelRestoreLock` — the two calls.
* `Nesting`, `Nesting.run` — properly nested pairs of them.
* `Restored` — every outermost pair suspends the scheduler and lets it run again.
-/

namespace RhsCore

/-! ## The kernel's scheduler -/

/-- `taskSCHEDULER_…`. -/
inductive SchedulerState
  | notStarted
  | running
  | suspended
  deriving DecidableEq, Repr

/-- The scheduler, with `uxSchedulerSuspended`. -/
structure Scheduler where
  started : Bool
  suspensions : ℕ
  deriving DecidableEq, Repr

/-- `xTaskGetSchedulerState`. -/
def Scheduler.state (s : Scheduler) : SchedulerState :=
  if s.started then
    if s.suspensions = 0 then .running else .suspended
  else .notStarted

/-- `vTaskSuspendAll`. -/
def vTaskSuspendAll (s : Scheduler) : Scheduler := { s with suspensions := s.suspensions + 1 }

/-- `xTaskResumeAll`: it asserts that the scheduler is suspended.  `yielded` is whether a
task is waiting to be switched to, which is done only when the count reaches zero. -/
def xTaskResumeAll (s : Scheduler) (yielded : Bool) : Option (Bool × Scheduler) :=
  if s.suspensions = 0 then none
  else
    let s' := { s with suspensions := s.suspensions - 1 }
    some (yielded && s'.suspensions = 0, s')

/-! ## The calls -/

/-- `(int32_t) RHSStatusError`. -/
def kernelError : ℤ := -1

/-- `rhs_kernel_lock`: what it returns, and the scheduler afterwards. -/
def rhsKernelLock (s : Scheduler) : ℤ × Scheduler :=
  match s.state with
  | .suspended => (1, s)
  | .running => (0, vTaskSuspendAll s)
  | .notStarted => (kernelError, s)

/-- `rhs_kernel_restore_lock`. -/
def rhsKernelRestoreLock (s : Scheduler) (lock : ℤ) (yielded : Bool) : Option (ℤ × Scheduler) :=
  if s.state = .notStarted then some (kernelError, s)
  else if lock = 1 then some (lock, vTaskSuspendAll s)
  else if lock ≠ 0 then some (kernelError, s)
  else
    (xTaskResumeAll s yielded).map fun (resumed, s') =>
      (if !resumed && s'.state ≠ .running then kernelError else lock, s')

/-! ## Nested pairs -/

/-- Properly nested pairs: nothing, or `l = rhs_kernel_lock()`, what is nested in it,
`rhs_kernel_restore_lock(l)`, and what follows. -/
inductive Nesting
  | done
  | pair (inner : Nesting) (yielded : Bool) (rest : Nesting)
  deriving DecidableEq, Repr

/-- The number of pairs, at all depths. -/
def Nesting.pairs : Nesting → ℕ
  | .done => 0
  | .pair inner _ rest => inner.pairs + rest.pairs + 1

/-- How deep the pairs are nested. -/
def Nesting.depth : Nesting → ℕ
  | .done => 0
  | .pair inner _ rest => max (inner.depth + 1) rest.depth

/-- The scheduler after each call, and at the end. -/
def Nesting.run : Nesting → Scheduler → Option (List Scheduler × Scheduler)
  | .done, s => some ([], s)
  | .pair inner yielded rest, s =>
      let (lock, locked) := rhsKernelLock s
      (inner.run locked).bind fun (within, s') =>
        (rhsKernelRestoreLock s' lock yielded).bind fun (_, restored) =>
          (rest.run restored).map fun (after, s'') =>
            (locked :: within ++ restored :: after, s'')

/-- **Restored**: for each outermost pair, the scheduler is suspended from the lock to the
restore and runs again after it, and the restore returns no error. -/
def Restored : Nesting → Scheduler → Prop
  | .done, _ => True
  | .pair inner yielded rest, s =>
      ∃ within s' lock restored,
        inner.run (rhsKernelLock s).2 = some (within, s') ∧
        rhsKernelRestoreLock s' (rhsKernelLock s).1 yielded = some (lock, restored) ∧
        (∀ t ∈ (rhsKernelLock s).2 :: within, t.state = .suspended) ∧
        restored.state = .running ∧ restored.suspensions = 0 ∧ lock ≠ kernelError ∧
        Restored rest restored

/-! ## What a pair does -/

theorem state_eq_suspended_iff {s : Scheduler} :
    s.state = .suspended ↔ s.started = true ∧ s.suspensions ≠ 0 := by
  simp only [Scheduler.state]
  split_ifs with hstarted hzero <;> simp_all

theorem state_eq_running_iff {s : Scheduler} :
    s.state = .running ↔ s.started = true ∧ s.suspensions = 0 := by
  simp only [Scheduler.state]
  split_ifs with hstarted hzero <;> simp_all

/-- A lock of a suspended scheduler changes nothing. -/
theorem rhsKernelLock_suspended {s : Scheduler} (h : s.state = .suspended) :
    rhsKernelLock s = (1, s) := by
  rw [rhsKernelLock, h]

theorem rhsKernelLock_running {s : Scheduler} (h : s.state = .running) :
    rhsKernelLock s = (0, vTaskSuspendAll s) := by
  rw [rhsKernelLock, h]

/-- Its restore suspends it once more. -/
theorem rhsKernelRestoreLock_one {s : Scheduler} (h : s.state = .suspended) (yielded : Bool) :
    rhsKernelRestoreLock s 1 yielded = some (1, vTaskSuspendAll s) := by
  rw [rhsKernelRestoreLock, if_neg (by simp [h]), if_pos rfl]

/-- With one suspension to resume, an outermost restore lets the scheduler run again; with
more it takes one away and returns an error. -/
theorem rhsKernelRestoreLock_zero {s : Scheduler} (h : s.started = true) (n : ℕ)
    (hn : s.suspensions = n + 1) (yielded : Bool) :
    rhsKernelRestoreLock s 0 yielded =
      some (if n = 0 then 0 else kernelError, { s with suspensions := n }) := by
  have hstate : s.state ≠ .notStarted := by
    rw [(state_eq_suspended_iff (s := s)).mpr ⟨h, by simp [hn]⟩]
    decide
  rw [rhsKernelRestoreLock, if_neg hstate, if_neg (by decide), if_neg (by decide), xTaskResumeAll,
    if_neg (by simp [hn])]
  by_cases hzero : n = 0
  · simp [hn, hzero, Scheduler.state, h]
  · simp [hn, hzero, Scheduler.state, h]

/-- **Inside a lock** the scheduler stays suspended, and every pair adds a suspension. -/
theorem run_of_suspended (nesting : Nesting) {s : Scheduler} (h : s.state = .suspended) :
    ∃ states, nesting.run s =
        some (states, { s with suspensions := s.suspensions + nesting.pairs }) ∧
      ∀ t ∈ states, t.state = .suspended := by
  induction nesting generalizing s with
  | done => exact ⟨[], rfl, by simp⟩
  | pair inner yielded rest ihInner ihRest =>
      obtain ⟨within, hinner, hwithin⟩ := ihInner h
      have hstarted := (state_eq_suspended_iff.mp h).1
      have hmore : ∀ n, n ≠ 0 → Scheduler.state { s with suspensions := n } = .suspended := by
        intro n hn
        exact state_eq_suspended_iff.mpr ⟨hstarted, hn⟩
      have hpos := (state_eq_suspended_iff.mp h).2
      have hrestore := rhsKernelRestoreLock_one
        (hmore (s.suspensions + inner.pairs) (by omega)) yielded
      have hrestored := hmore (s.suspensions + inner.pairs + 1) (by omega)
      obtain ⟨after, hrest, hafter⟩ := ihRest hrestored
      refine ⟨s :: within ++ { s with suspensions := s.suspensions + inner.pairs + 1 } :: after,
        ?_, ?_⟩
      · simp only [Nesting.run, rhsKernelLock_suspended h, hinner, Option.bind_some, hrestore]
        simp only [vTaskSuspendAll, hrest, Option.map_some, Nesting.pairs]
        congr 3
        omega
      · intro t ht
        simp only [List.cons_append, List.mem_cons, List.mem_append] at ht
        rcases ht with rfl | ht | rfl | ht
        · exact h
        · exact hwithin t ht
        · exact hrestored
        · exact hafter t ht

/-- **An outermost pair**: what is nested in it leaves one suspension for each of its pairs. -/
theorem outermost_pair (inner : Nesting) (yielded : Bool) {s : Scheduler}
    (h : s.state = .running) :
    ∃ within s', inner.run (rhsKernelLock s).2 = some (within, s') ∧
      (∀ t ∈ (rhsKernelLock s).2 :: within, t.state = .suspended) ∧
      rhsKernelRestoreLock s' (rhsKernelLock s).1 yielded =
        some (if inner.pairs = 0 then 0 else kernelError,
          { s with suspensions := inner.pairs }) := by
  obtain ⟨hstarted, hzero⟩ := state_eq_running_iff.mp h
  have hlocked : (vTaskSuspendAll s).state = .suspended :=
    state_eq_suspended_iff.mpr ⟨hstarted, by simp [vTaskSuspendAll]⟩
  obtain ⟨within, hinner, hwithin⟩ := run_of_suspended inner hlocked
  rw [rhsKernelLock_running h]
  refine ⟨within, _, hinner, ?_, ?_⟩
  · intro t ht
    rcases List.mem_cons.mp ht with rfl | ht
    · exact hlocked
    · exact hwithin t ht
  · have hcount : (vTaskSuspendAll s).suspensions + inner.pairs = inner.pairs + 1 := by
      simp only [vTaskSuspendAll, hzero]
      omega
    exact rhsKernelRestoreLock_zero
      (s := { s with suspensions := (vTaskSuspendAll s).suspensions + inner.pairs })
      hstarted inner.pairs hcount yielded

theorem pairs_eq_zero_iff {nesting : Nesting} : nesting.pairs = 0 ↔ nesting.depth = 0 := by
  cases nesting with
  | done => simp [Nesting.pairs, Nesting.depth]
  | pair inner yielded rest =>
      simp only [Nesting.pairs, Nesting.depth]
      omega

/-- **Every outermost pair suspends the scheduler and lets it run again** exactly if no pair
is nested in another. -/
theorem restored_iff (nesting : Nesting) {s : Scheduler} (h : s.state = .running) :
    Restored nesting s ↔ nesting.depth ≤ 1 := by
  induction nesting generalizing s with
  | done => simp [Restored, Nesting.depth]
  | pair inner yielded rest _ ihRest =>
      obtain ⟨within, s', hinner, hwithin, hrestore⟩ := outermost_pair inner yielded h
      have hstarted := (state_eq_running_iff.mp h).1
      constructor
      · rintro ⟨within₁, s₁, lock, restored, hinner₁, hrestore₁, -, -, hzero, -, hrest⟩
        rw [hinner] at hinner₁
        cases hinner₁
        rw [hrestore] at hrestore₁
        cases hrestore₁
        have hrunning : Scheduler.state { s with suspensions := inner.pairs } = .running :=
          state_eq_running_iff.mpr ⟨hstarted, hzero⟩
        have hrestDepth := (ihRest hrunning).mp hrest
        have hinnerDepth := pairs_eq_zero_iff.mp hzero
        simp only [Nesting.depth]
        omega
      · intro hdepth
        simp only [Nesting.depth] at hdepth
        have hzero : inner.pairs = 0 := pairs_eq_zero_iff.mpr (by omega)
        have hrunning : Scheduler.state { s with suspensions := inner.pairs } = .running :=
          state_eq_running_iff.mpr ⟨hstarted, hzero⟩
        refine ⟨within, s', _, _, hinner, hrestore, hwithin, hrunning, hzero, ?_, ?_⟩
        · rw [if_pos hzero]
          decide
        · exact (ihRest hrunning).mpr (by omega)

/-- A pair in a pair: the scheduler stays suspended, and the outer restore fails. -/
theorem inner_pair_stays_suspended :
    ¬ Restored (.pair (.pair .done false .done) false .done) ⟨true, 0⟩ := by
  rintro ⟨within, s', lock, restored, hinner, hrestore, -, hrunning, -⟩
  cases hinner
  cases hrestore
  cases hrunning

/-- One pair after another. -/
theorem pairs_in_sequence_restored :
    Restored (.pair .done false (.pair .done true .done)) ⟨true, 0⟩ :=
  (restored_iff _ rfl).mpr (by decide)

end RhsCore
