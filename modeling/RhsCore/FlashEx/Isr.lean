import RhsCore.FlashEx.Range

/-!
# A flash call from an interrupt

A task is inside one call of the flash layer when an interrupt arrives and makes
another.  In interrupt context `rhs_mutex_acquire` refuses without taking the mutex,
but the flash layer does not look at the status, so the second call goes on as if it
had the mutex.

The interrupt can arrive between any two operations of the task; it then runs to its
end before the task goes on.

## Main definitions

* `FlashSystem` — the mutex and the device; `answer` is what they do in each context.
* `interrupted` — the run of a task's call with an interrupt after `k` operations.
* `Exclusion` — what the flash layer promises about such a run.
-/

namespace RhsCore.FlashEx

open Prog

variable {σ : Type}

/-! ## The mutex and the device -/

/-- The mutex, and a device with a state of its own. -/
structure FlashSystem (σ : Type) where
  held : Bool
  device : σ

/-- What happens on an operation.  Only a task takes or gives the mutex. -/
def answer (dev : (q : QspiOp) → σ → q.Ans × σ) (ctx : Context) :
    (o : FlashOp) → FlashSystem σ → o.Ans × FlashSystem σ
  | .mutexAcquire timeout, s =>
      match ctx with
      | .task => (rhsMutexAcquire .task timeout (!s.held), { s with held := true })
      | .irq => (rhsMutexAcquire .irq timeout false, s)
  | .mutexRelease, s =>
      match ctx with
      | .task => (rhsMutexRelease .task s.held, { s with held := false })
      | .irq => (rhsMutexRelease .irq false, s)
  | .qspi q, s => ((dev q s.device).1, { s with device := (dev q s.device).2 })

/-- What an operation of a task does to the mutex. -/
def heldStep (held : Bool) : FlashOp → Bool
  | .mutexAcquire _ => true
  | .mutexRelease => false
  | .qspi _ => held

theorem held_answer (dev : (q : QspiOp) → σ → q.Ans × σ) (o : FlashOp) (s : FlashSystem σ) :
    (answer dev .task o s).2.held = heldStep s.held o := by
  cases o <;> rfl

theorem foldl_heldStep_of_qspi {ops : List FlashOp} (h : ∀ o ∈ ops, ∃ q, o = .qspi q)
    (held : Bool) : ops.foldl heldStep held = held := by
  induction ops generalizing held with
  | nil => rfl
  | cons o ops ih =>
      obtain ⟨q, rfl⟩ := h o (List.mem_cons_self ..)
      exact ih (fun o' ho' => h o' (List.mem_cons_of_mem _ ho')) held

theorem foldl_heldStep_of_not_release {ops : List FlashOp} (h : FlashOp.mutexRelease ∉ ops) :
    ops.foldl heldStep true = true := by
  induction ops with
  | nil => rfl
  | cons o ops ih =>
      rw [List.mem_cons, not_or] at h
      cases o with
      | mutexRelease => exact absurd rfl h.1
      | mutexAcquire t => exact ih h.2
      | qspi q => exact ih h.2

/-! ## An interrupted call -/

/-- A run of a task's call with an interrupt in it. -/
structure Interrupted (σ : Type) where
  /-- What the task did before the interrupt. -/
  before : List (Event FlashOp.Ans)
  /-- The mutex and the device when the interrupt arrives. -/
  atInterrupt : FlashSystem σ
  /-- The call made by the interrupt. -/
  isr : Run FlashOp.Ans (FlashSystem σ) Int
  /-- What the task does once the interrupt has returned. -/
  after : Run FlashOp.Ans (FlashSystem σ) Int

variable (dev : (q : QspiOp) → σ → q.Ans × σ) (task isr : FlashCall) (k : ℕ) (x : σ)

/-- The task's call on its own. -/
def alone : Run FlashOp.Ans (FlashSystem σ) Int := run (answer dev .task) task.prog ⟨false, x⟩

/-- The task performs `k` operations, the interrupt makes its call, and the task goes on. -/
def interrupted : Interrupted σ :=
  let t := runFor (answer dev .task) k task.prog ⟨false, x⟩
  let i := run (answer dev .irq) isr.prog t.2.2
  { before := t.1
    atInterrupt := t.2.2
    isr := i
    after := run (answer dev .task) t.2.1 i.state }

/-- A call that has done `log` is between its acquire and its release. -/
def Inside (log : List (Event FlashOp.Ans)) : Prop :=
  (∃ t, FlashOp.mutexAcquire t ∈ log.map (·.1)) ∧ FlashOp.mutexRelease ∉ log.map (·.1)

/-- The operations on the QSPI, in order. -/
def qspiOps (log : List (Event FlashOp.Ans)) : List QspiOp :=
  log.filterMap fun e =>
    match e.1 with
    | .qspi q => some q
    | _ => none

/-- **Mutual exclusion** between the task's call and the interrupt's: they are never both
between acquire and release, and while the task has the mutex the interrupt's call is
turned away without a trace. -/
structure Exclusion : Prop where
  notBoth : ¬ (Inside (interrupted dev task isr k x).before ∧
    ∃ pre, pre <+: (interrupted dev task isr k x).isr.log ∧ Inside pre)
  busy : (interrupted dev task isr k x).atInterrupt.held = true →
    (interrupted dev task isr k x).isr.result = .ok flashExBusy
  silent : (interrupted dev task isr k x).atInterrupt.held = true →
    qspiOps (interrupted dev task isr k x).isr.log = []
  undisturbed : (interrupted dev task isr k x).atInterrupt.held = true →
    qspiOps ((interrupted dev task isr k x).before ++ (interrupted dev task isr k x).after.log) =
      qspiOps (alone dev task x).log

/-! ## When the mutex is held -/

theorem held_atInterrupt :
    (interrupted dev task isr k x).atInterrupt.held =
      ((interrupted dev task isr k x).before.map (·.1)).foldl heldStep false :=
  runFor_state (answer dev .task) FlashSystem.held heldStep (held_answer dev) k task.prog
    ⟨false, x⟩

/-- A task between acquire and release has the mutex. -/
theorem held_of_inside (h : Inside (interrupted dev task isr k x).before) :
    (interrupted dev task isr k x).atInterrupt.held = true := by
  rw [held_atInterrupt]
  obtain ⟨⟨t, hacquire⟩, hrelease⟩ := h
  obtain ⟨pre, post, hops⟩ := List.append_of_mem hacquire
  rw [hops, List.mem_append, not_or, List.mem_cons, not_or] at hrelease
  rw [hops, List.foldl_append, List.foldl_cons]
  exact foldl_heldStep_of_not_release hrelease.2.2

/-- A call that passes its assertion acquires, uses the QSPI, and releases. -/
theorem ops_alone (h : task.passesAssert = true) :
    ∃ ops : List FlashOp, (∀ o ∈ ops, ∃ q, o = .qspi q) ∧
      (alone dev task x).log.map (·.1) =
        .mutexAcquire rhsWaitForever :: (ops ++ [.mutexRelease]) := by
  have hexec : Exec task.prog (alone dev task x).log (alone dev task x).result :=
    exec_run (answer dev .task) task.prog ⟨false, x⟩
  rcases hr : (alone dev task x).result with e | a
  · exact absurd (hr ▸ hexec) (FlashCall.returns_prog h _ e)
  · rw [hr] at hexec
    obtain ⟨-, s, l, t, hbody, hlog⟩ := FlashCall.exec_prog_ok_iff.mp hexec
    refine ⟨l.map (·.1), ?_, by simp [hlog]⟩
    intro o ho
    obtain ⟨e, he, rfl⟩ := List.mem_map.mp ho
    have hq := (FlashCall.within_body task).of_mem hbody e he
    cases hop : e.1 with
    | qspi q => exact ⟨q, rfl⟩
    | _ => rw [hop] at hq; exact hq.elim

/-- The mutex is held from after the first operation of the task until its last. -/
theorem held_atInterrupt_iff :
    (interrupted dev task isr k x).atInterrupt.held = true ↔
      0 < k ∧ k < (alone dev task x).log.length := by
  have htake : (interrupted dev task isr k x).before = (alone dev task x).log.take k :=
    runFor_log (answer dev .task) k task.prog ⟨false, x⟩
  rw [held_atInterrupt, htake, List.map_take, ← List.length_map (fun e => e.1)]
  cases h : task.passesAssert with
  | false =>
      have hnil : (alone dev task x).log = [] := by
        rw [alone, FlashCall.prog_eq, h]
        rfl
      simp [hnil]
  | true =>
      obtain ⟨ops, hops, hlog⟩ := ops_alone dev task x h
      rw [hlog]
      cases k with
      | zero => simp
      | succ k =>
          rw [List.take_succ_cons, List.foldl_cons]
          change (List.take k _).foldl heldStep true = true ↔ _
          simp only [List.length_cons, List.length_append, List.length_nil, Nat.succ_pos, true_and]
          rw [List.take_append]
          by_cases hk : k < ops.length + 1
          · rw [Nat.sub_eq_zero_of_le (by omega), List.take_zero, List.append_nil,
              foldl_heldStep_of_qspi fun o ho => hops o (List.mem_of_mem_take ho)]
            simp
            omega
          · rw [List.take_of_length_le (by omega), List.take_of_length_le (by simp; omega),
              List.foldl_append]
            simp [heldStep]
            omega

/-! ## The interrupt's call -/

/-- The first thing a call does between acquire and release is to use the QSPI. -/
theorem FlashCall.body_eq_call (c : FlashCall) :
    ∃ q k, c.body = .call (.qspi q) k := by
  cases c <;> exact ⟨_, _, rfl⟩

/-- In interrupt context a call is turned away by nothing but its assertion. -/
theorem isr_not_silent (h : isr.passesAssert = true) (s : FlashSystem σ) :
    qspiOps (run (answer dev .irq) isr.prog s).log ≠ [] := by
  obtain ⟨q, next, hbody⟩ := isr.body_eq_call
  rw [FlashCall.prog_eq, h, hbody]
  simp [rhsAssert, locked, acquireFlashMutex, run, qspiOps, answer]

/-- A call whose assertion fails stops the system. -/
theorem isr_crashes (h : isr.passesAssert = false) (s : FlashSystem σ) :
    (run (answer dev .irq) isr.prog s).result = .error .crash := by
  rw [FlashCall.prog_eq, h]
  rfl

/-- **A flash call from an interrupt is excluded** exactly when the task it interrupts does
not hold the mutex at that moment: the mutex never turns the second call away. -/
theorem exclusion_iff_not_held :
    Exclusion dev task isr k x ↔ (interrupted dev task isr k x).atInterrupt.held = false := by
  constructor
  · intro hex
    rw [← Bool.not_eq_true]
    intro hheld
    cases h : isr.passesAssert with
    | true => exact isr_not_silent dev isr h _ (hex.silent hheld)
    | false =>
        have hcrash := isr_crashes dev isr h (interrupted dev task isr k x).atInterrupt
        have hbusy := hex.busy hheld
        rw [show (interrupted dev task isr k x).isr.result = .error .crash from hcrash] at hbusy
        cases hbusy
  · intro hfree
    have hnot : ¬ (interrupted dev task isr k x).atInterrupt.held = true := by simp [hfree]
    exact
      { notBoth := fun h => hnot (held_of_inside dev task isr k x h.1)
        busy := fun h => absurd h hnot
        silent := fun h => absurd h hnot
        undisturbed := fun h => absurd h hnot }

/-- A read from an interrupt in the middle of a page program, before its data is sent: the
task has the mutex, and the read is carried out. -/
theorem read_inside_page_program :
    (interrupted (fun q => okDevice (.qspi q)) (.write 0 (fun _ => 7) 1) (.read 0 1) 5
        ()).atInterrupt.held = true ∧
      ¬ Exclusion (fun q => okDevice (.qspi q)) (.write 0 (fun _ => 7) 1) (.read 0 1) 5 () := by
  have hheld : (interrupted (fun q => okDevice (.qspi q)) (.write 0 (fun _ => 7) 1) (.read 0 1) 5
      ()).atInterrupt.held = true := rfl
  refine ⟨hheld, fun hex => ?_⟩
  exact isr_not_silent _ (.read 0 1) rfl _ (hex.silent hheld)

end RhsCore.FlashEx
