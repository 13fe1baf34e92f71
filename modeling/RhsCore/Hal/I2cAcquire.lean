import Mathlib.Data.Finset.Insert
import Mathlib.Data.Finset.Erase
import Mathlib.Logic.Function.Basic
import Mathlib.Logic.Nontrivial.Defs
import RhsCore.Lib.Transition

/-!
# Who has the I2C bus

`rhs_hal_i2c_acquire` and `rhs_hal_i2c_release`, over the callbacks of `rhs_hal_i2c_config.c`.
Tasks acquire and release handles in any order; a handle is of one bus.  A step below is one
access to what the tasks share.  A thread that has several buses at a time counts as one task
for each.  A task acquires a bus only while it does not have it: the mutex of a bus is not
recursive, and a task that acquired its own bus again would wait for itself for ever.

The clock of a bus is a bit of a register that all buses share.  It is set inside a critical
section, but cleared outside of one: `LL_APB1_GRP1_DisableClock` reads the register and writes
it back without the bit, and another task can come between.

## Main definitions

* `Pc`, `State`, `step` — where the tasks are, and what one step does.
* `bus_is_exclusive` — one task at a time, and no assertion fails.
* `clocks_stay_iff` — the clock of a bus in use is on, if there is no other bus.
-/

namespace RhsCore.I2cAcquire

variable {Task Bus Handle : Type}

/-! ## The tasks -/

/-- Where a task is. -/
inductive Pc (Bus Handle : Type)
  /-- Outside the bus. -/
  | out
  /-- Before `RHSHalI2cBusEventLock`. -/
  | lock (handle : Handle)
  /-- Before `rhs_assert(handle->bus->current_handle == NULL)`. -/
  | assertNone (handle : Handle)
  /-- Before `handle->bus->current_handle = handle`. -/
  | setCurrent (handle : Handle)
  /-- Before `RHSHalI2cBusEventActivate`. -/
  | busActivate (handle : Handle)
  /-- Before `RHSHalI2cBusHandleEventActivate`. -/
  | handleActivate (handle : Handle)
  /-- Between the two calls. -/
  | held (handle : Handle)
  /-- Before `rhs_assert(handle->bus->current_handle == handle)`. -/
  | assertCurrent (handle : Handle)
  /-- Before `RHSHalI2cBusHandleEventDeactivate`. -/
  | handleDeactivate (handle : Handle)
  /-- In `RHSHalI2cBusEventDeactivate`, before the register is read. -/
  | readEnr (handle : Handle)
  /-- Before it is written back, with what was read. -/
  | writeEnr (handle : Handle) (enr : Finset Bus)
  /-- Before `handle->bus->current_handle = NULL`. -/
  | resetCurrent (handle : Handle)
  /-- Before `RHSHalI2cBusEventUnlock`. -/
  | unlock (handle : Handle)
  /-- An assertion failed. -/
  | crashed
  deriving DecidableEq

/-- The handle whose bus the task has locked. -/
def Pc.inside : Pc Bus Handle → Option Handle
  | assertNone h | setCurrent h | busActivate h | handleActivate h | held h | assertCurrent h
  | handleDeactivate h | readEnr h | writeEnr h _ | resetCurrent h | unlock h => some h
  | _ => none

/-- The handle that the task has put into its bus. -/
def Pc.current : Pc Bus Handle → Option Handle
  | busActivate h | handleActivate h | held h | assertCurrent h | handleDeactivate h | readEnr h
  | writeEnr h _ | resetCurrent h => some h
  | _ => none

/-- The handle whose peripheral the task may access. -/
def Pc.accesses : Pc Bus Handle → Option Handle
  | handleActivate h | held h | assertCurrent h | handleDeactivate h => some h
  | _ => none

/-- The tasks, the buses' `mutex` and `current_handle`, and the buses whose clock is enabled. -/
structure State (Task Bus Handle : Type) where
  pc : Task → Pc Bus Handle
  mutex : Bus → Option Task
  currentHandle : Bus → Option Handle
  enr : Finset Bus

/-- After `rhs_hal_i2c_init` of all buses. -/
def State.init : State Task Bus Handle where
  pc _ := .out
  mutex _ := none
  currentHandle _ := none
  enr := ∅

section Goto

variable [DecidableEq Task]

def State.goto (s : State Task Bus Handle) (t : Task) (p : Pc Bus Handle) :
    State Task Bus Handle :=
  { s with pc := Function.update s.pc t p }

variable {s : State Task Bus Handle} {t : Task} {p : Pc Bus Handle}

@[simp] theorem goto_pc : (s.goto t p).pc = Function.update s.pc t p := rfl

@[simp] theorem goto_mutex : (s.goto t p).mutex = s.mutex := rfl

@[simp] theorem goto_currentHandle : (s.goto t p).currentHandle = s.currentHandle := rfl

@[simp] theorem goto_enr : (s.goto t p).enr = s.enr := rfl

end Goto

inductive Action (Task Handle : Type)
  /-- `rhs_hal_i2c_acquire` is called by a task that does not have the bus. -/
  | acquire (t : Task) (handle : Handle)
  /-- `rhs_hal_i2c_release` is called by the task that has the handle. -/
  | release (t : Task)
  /-- The task goes on in a call. -/
  | run (t : Task)
  deriving DecidableEq

variable [DecidableEq Task] [DecidableEq Bus] [DecidableEq Handle]

/-- One step of a task that is in one of the two calls. -/
def run (bus : Handle → Bus) (s : State Task Bus Handle) (t : Task) :
    Pc Bus Handle → Option (State Task Bus Handle)
  | .out | .held _ | .crashed => none
  | .lock h =>
      -- `rhs_mutex_acquire(bus->mutex, RHSWaitForever)`
      if s.mutex (bus h) = none then
        some ({ s with mutex := Function.update s.mutex (bus h) (some t) }.goto t (.assertNone h))
      else none
  | .assertNone h =>
      some (s.goto t (if s.currentHandle (bus h) = none then .setCurrent h else .crashed))
  | .setCurrent h =>
      some ({ s with
        currentHandle := Function.update s.currentHandle (bus h) (some h) }.goto t (.busActivate h))
  | .busActivate h => some ({ s with enr := insert (bus h) s.enr }.goto t (.handleActivate h))
  | .handleActivate h => some (s.goto t (.held h))
  | .assertCurrent h =>
      some (s.goto t
        (if s.currentHandle (bus h) = some h then .handleDeactivate h else .crashed))
  | .handleDeactivate h => some (s.goto t (.readEnr h))
  | .readEnr h => some (s.goto t (.writeEnr h s.enr))
  | .writeEnr h enr => some ({ s with enr := enr.erase (bus h) }.goto t (.resetCurrent h))
  | .resetCurrent h =>
      some ({ s with
        currentHandle := Function.update s.currentHandle (bus h) none }.goto t (.unlock h))
  | .unlock h =>
      -- `rhs_assert(rhs_mutex_release(bus->mutex) == RHSStatusOk)`
      if s.mutex (bus h) = some t then
        some ({ s with mutex := Function.update s.mutex (bus h) none }.goto t .out)
      else some (s.goto t .crashed)

def step (bus : Handle → Bus) (s : State Task Bus Handle) :
    Action Task Handle → Option (State Task Bus Handle)
  | .acquire t h => if s.pc t = .out then some (s.goto t (.lock h)) else none
  | .release t =>
      match s.pc t with
      | .held h => some (s.goto t (.assertCurrent h))
      | _ => none
  | .run t => run bus s t (s.pc t)

/-! ## Exclusion -/

section Exclusion

omit [DecidableEq Task] [DecidableEq Bus] [DecidableEq Handle]

variable {bus : Handle → Bus} {s s' : State Task Bus Handle} {t t' : Task} {b : Bus}
  {h h' : Handle} {p : Pc Bus Handle}

theorem inside_of_current (hp : p.current = some h) : p.inside = some h := by
  cases p <;> first | exact hp | cases hp

theorem current_of_accesses (hp : p.accesses = some h) : p.current = some h := by
  cases p <;> first | exact hp | cases hp

/-- The mutex of a bus is the task's that is inside, and the handle is the one it put there. -/
structure Good (bus : Handle → Bus) (s : State Task Bus Handle) : Prop where
  mutex : ∀ b t, s.mutex b = some t ↔ (s.pc t).inside.map bus = some b
  current : ∀ b, s.currentHandle b = (s.mutex b).bind fun t => (s.pc t).current
  running : ∀ t, s.pc t ≠ .crashed

theorem good_init : Good bus (State.init : State Task Bus Handle) := by
  constructor <;> simp [State.init, Pc.inside]

theorem Good.mutex_eq (hs : Good bus s) (ht : (s.pc t).inside = some h) :
    s.mutex (bus h) = some t := by
  apply (hs.mutex _ _).mpr
  rw [ht]
  rfl

/-- Two tasks are not inside one bus. -/
theorem Good.alone (hs : Good bus s) (ht : (s.pc t).inside = some h)
    (ht' : (s.pc t').inside = some h') (hbus : bus h = bus h') : t = t' := by
  have hmutex := hs.mutex_eq ht
  rw [hbus, hs.mutex_eq ht'] at hmutex
  exact (Option.some.inj hmutex).symm

/-- The task inside finds what it put there. -/
theorem Good.currentHandle_eq (hs : Good bus s) (ht : (s.pc t).inside = some h) :
    s.currentHandle (bus h) = (s.pc t).current := by
  rw [hs.current, hs.mutex_eq ht]
  rfl

/-- Task `t` goes to `p`, and of the buses only `b` is touched. -/
structure Moves [DecidableEq Task] (s s' : State Task Bus Handle) (t : Task) (b : Bus)
    (p : Pc Bus Handle) : Prop where
  pc : s'.pc = Function.update s.pc t p
  mutex : ∀ b', b' ≠ b → s'.mutex b' = s.mutex b'
  currentHandle : ∀ b', b' ≠ b → s'.currentHandle b' = s.currentHandle b'

variable [DecidableEq Task]

theorem Moves.pc_self (hm : Moves s s' t b p) : s'.pc t = p := by
  simp [hm.pc]

theorem Moves.pc_of_ne (hm : Moves s s' t b p) (hne : t' ≠ t) : s'.pc t' = s.pc t' := by
  simp [hm.pc, hne]

/-- **A step at a bus where no other task is** keeps the invariant, if it leaves the mutex and
the handle of the bus as they should be for where the task is then. -/
theorem Moves.good (hm : Moves s s' t b p) (hs : Good bus s)
    (hothers : ∀ u, s.mutex b = some u → u = t)
    (hbefore : ∀ b', (s.pc t).inside.map bus = some b' → b' = b)
    (hafter : ∀ b', p.inside.map bus = some b' → b' = b)
    (hmutex : s'.mutex b = (p.inside.map bus).map fun _ => t)
    (hcurrent : s'.currentHandle b = p.current) (hrunning : p ≠ .crashed) : Good bus s' := by
  constructor
  · intro b' u
    by_cases hu : u = t
    · subst hu
      rw [hm.pc_self]
      by_cases hb : b' = b
      · subst hb
        rw [hmutex]
        cases hp : p.inside.map bus with
        | none => simp
        | some c => simp [hafter c hp]
      · rw [hm.mutex b' hb, hs.mutex b' u]
        exact ⟨fun h => absurd (hbefore b' h) hb, fun h => absurd (hafter b' h) hb⟩
    · rw [hm.pc_of_ne hu, ← hs.mutex b' u]
      by_cases hb : b' = b
      · subst hb
        rw [hmutex]
        constructor
        · intro h
          obtain ⟨_, -, rfl⟩ := Option.map_eq_some_iff.mp h
          exact absurd rfl hu
        · intro h
          exact absurd (hothers u h) hu
      · rw [hm.mutex b' hb]
  · intro b'
    by_cases hb : b' = b
    · subst hb
      rw [hcurrent, hmutex]
      cases hp : p.inside with
      | none =>
          cases hc : p.current with
          | none => rfl
          | some c => rw [inside_of_current hc] at hp; cases hp
      | some c => simp [hm.pc_self]
    · rw [hm.currentHandle b' hb, hm.mutex b' hb, hs.current b']
      cases hu : s.mutex b' with
      | none => rfl
      | some u =>
          have hne : u ≠ t := by
            intro h
            subst h
            exact hb (hbefore b' ((hs.mutex b' u).mp hu))
          simp [hm.pc_of_ne hne]
  · intro u
    by_cases hu : u = t
    · subst hu
      rwa [hm.pc_self]
    · rw [hm.pc_of_ne hu]
      exact hs.running u

/-- A step of a task that stays where it is with respect to the buses. -/
theorem Good.stay (hs : Good bus s) (hinside : p.inside = (s.pc t).inside)
    (hcurrent : p.current = (s.pc t).current) (hp : p ≠ .crashed) (enr : Finset Bus) :
    Good bus ({ s with enr := enr }.goto t p) := by
  have hinside' : ∀ u, (Function.update s.pc t p u).inside = (s.pc u).inside := by
    intro u
    by_cases hu : u = t
    · subst hu
      simp [hinside]
    · simp [hu]
  have hcurrent' : ∀ u, (Function.update s.pc t p u).current = (s.pc u).current := by
    intro u
    by_cases hu : u = t
    · subst hu
      simp [hcurrent]
    · simp [hu]
  constructor
  · intro b u
    simpa [hinside'] using hs.mutex b u
  · intro b
    simpa [hcurrent'] using hs.current b
  · intro u
    by_cases hu : u = t
    · subst hu
      simpa using hp
    · simpa [hu] using hs.running u

/-- A task inside goes on with its own bus. -/
theorem Good.inside (hs : Good bus s) (hin : (s.pc t).inside = some h)
    (hm : Moves s s' t (bus h) p) (hafter : p.inside = none ∨ p.inside = some h)
    (hmutex : s'.mutex (bus h) = p.inside.map fun _ => t)
    (hcurrent : s'.currentHandle (bus h) = p.current) (hrunning : p ≠ .crashed) :
    Good bus s' := by
  apply hm.good hs
  · intro u hu
    exact Option.some.inj (hu.symm.trans (hs.mutex_eq hin))
  · intro b hb
    rw [hin] at hb
    exact (Option.some.inj hb).symm
  · intro b hb
    obtain hnone | hsome := hafter
    · rw [hnone] at hb
      cases hb
    · rw [hsome] at hb
      exact (Option.some.inj hb).symm
  · rw [hmutex, Option.map_map]
    rfl
  · exact hcurrent
  · exact hrunning

end Exclusion

section Runs

variable {bus : Handle → Bus} {s s' : State Task Bus Handle} {t : Task} {b : Bus}
  {p : Pc Bus Handle}

omit [DecidableEq Handle] in
theorem moves_mutex (owner : Option Task) :
    Moves s ({ s with mutex := Function.update s.mutex b owner }.goto t p) t b p :=
  ⟨rfl, fun _ hb => by simp [hb], fun _ _ => rfl⟩

omit [DecidableEq Handle] in
theorem moves_currentHandle (handle : Option Handle) :
    Moves s ({ s with currentHandle := Function.update s.currentHandle b handle }.goto t p) t b p :=
  ⟨rfl, fun _ _ => rfl, fun _ hb => by simp [hb]⟩

theorem Good.run (hs : Good bus s) (hstep : run bus s t (s.pc t) = some s') : Good bus s' := by
  cases hpc : s.pc t with
  | out => simp [hpc, I2cAcquire.run] at hstep
  | held h => simp [hpc, I2cAcquire.run] at hstep
  | crashed => simp [hpc, I2cAcquire.run] at hstep
  | lock h =>
      simp only [hpc, I2cAcquire.run] at hstep
      split at hstep
      · rename_i hfree
        obtain rfl := Option.some.inj hstep
        apply (moves_mutex (some t)).good hs
        · simp [hfree]
        · simp [hpc, Pc.inside]
        · simp [Pc.inside]
        · simp [Pc.inside]
        · simp [hs.current, hfree, Pc.current]
        · simp
      · cases hstep
  | assertNone h =>
      have hnone := hs.currentHandle_eq (h := h) (by rw [hpc]; rfl)
      rw [hpc] at hnone
      simp only [hpc, I2cAcquire.run, hnone, Pc.current, if_true] at hstep
      obtain rfl := Option.some.inj hstep
      exact hs.stay (by rw [hpc]; rfl) (by rw [hpc]; rfl) (by simp) s.enr
  | setCurrent h =>
      simp only [hpc, I2cAcquire.run] at hstep
      obtain rfl := Option.some.inj hstep
      have hin : (s.pc t).inside = some h := by
        rw [hpc]
        rfl
      apply hs.inside hin (moves_currentHandle (some h))
      · exact .inr rfl
      · exact hs.mutex_eq hin
      · simp [Pc.current]
      · simp
  | busActivate h =>
      simp only [hpc, I2cAcquire.run] at hstep
      obtain rfl := Option.some.inj hstep
      exact hs.stay (by rw [hpc]; rfl) (by rw [hpc]; rfl) (by simp) _
  | handleActivate h =>
      simp only [hpc, I2cAcquire.run] at hstep
      obtain rfl := Option.some.inj hstep
      exact hs.stay (by rw [hpc]; rfl) (by rw [hpc]; rfl) (by simp) s.enr
  | assertCurrent h =>
      have hsome := hs.currentHandle_eq (h := h) (by rw [hpc]; rfl)
      rw [hpc] at hsome
      simp only [hpc, I2cAcquire.run, hsome, Pc.current, if_true] at hstep
      obtain rfl := Option.some.inj hstep
      exact hs.stay (by rw [hpc]; rfl) (by rw [hpc]; rfl) (by simp) s.enr
  | handleDeactivate h =>
      simp only [hpc, I2cAcquire.run] at hstep
      obtain rfl := Option.some.inj hstep
      exact hs.stay (by rw [hpc]; rfl) (by rw [hpc]; rfl) (by simp) s.enr
  | readEnr h =>
      simp only [hpc, I2cAcquire.run] at hstep
      obtain rfl := Option.some.inj hstep
      exact hs.stay (by rw [hpc]; rfl) (by rw [hpc]; rfl) (by simp) s.enr
  | writeEnr h enr =>
      simp only [hpc, I2cAcquire.run] at hstep
      obtain rfl := Option.some.inj hstep
      exact hs.stay (by rw [hpc]; rfl) (by rw [hpc]; rfl) (by simp) _
  | resetCurrent h =>
      simp only [hpc, I2cAcquire.run] at hstep
      obtain rfl := Option.some.inj hstep
      have hin : (s.pc t).inside = some h := by
        rw [hpc]
        rfl
      apply hs.inside hin (moves_currentHandle none)
      · exact .inr rfl
      · exact hs.mutex_eq hin
      · simp [Pc.current]
      · simp
  | unlock h =>
      have hin : (s.pc t).inside = some h := by
        rw [hpc]
        rfl
      simp only [hpc, I2cAcquire.run, hs.mutex_eq hin, if_true] at hstep
      obtain rfl := Option.some.inj hstep
      apply hs.inside hin (moves_mutex none)
      · exact .inl rfl
      · simp [Pc.inside]
      · rw [goto_currentHandle, hs.currentHandle_eq hin, hpc]
        rfl
      · simp

theorem good_step {a : Action Task Handle} (hs : Good bus s) (hstep : step bus s a = some s') :
    Good bus s' := by
  cases a with
  | acquire t h =>
      simp only [step] at hstep
      split at hstep
      · rename_i hpc
        obtain rfl := Option.some.inj hstep
        exact hs.stay (by rw [hpc]; rfl) (by rw [hpc]; rfl) (by simp) s.enr
      · cases hstep
  | release t =>
      simp only [step] at hstep
      split at hstep
      · rename_i h hpc
        obtain rfl := Option.some.inj hstep
        exact hs.stay (by rw [hpc]; rfl) (by rw [hpc]; rfl) (by simp) s.enr
      · cases hstep
  | run t => exact hs.run hstep

theorem good_of_reach {allowed : State Task Bus Handle → Action Task Handle → Prop}
    (hreach : Reach (step bus) allowed State.init s) : Good bus s :=
  hreach.invariant good_init fun _ _ _ hs _ hstep => good_step hs hstep

/-- **A bus is of one task at a time.**  However the tasks' calls are interleaved, no assertion
fails, two tasks are never between the lock and the unlock of one bus, the handle in a bus is
the one of the task there, and who waits for a bus waits for another task that is inside. -/
theorem bus_is_exclusive (hreach : Reach (step bus) (fun _ _ => True) State.init s) :
    (∀ t, s.pc t ≠ .crashed) ∧
    (∀ t t' h h', (s.pc t).inside = some h → (s.pc t').inside = some h' → bus h = bus h' →
      t = t') ∧
    (∀ t h, (s.pc t).current = some h → s.currentHandle (bus h) = some h) ∧
    ∀ t h, s.pc t = .lock h → step bus s (.run t) = none →
      ∃ t' h', t' ≠ t ∧ (s.pc t').inside = some h' ∧ bus h' = bus h := by
  have hs := good_of_reach hreach
  refine ⟨hs.running, fun _ _ _ _ => hs.alone, ?_, ?_⟩
  · intro t h ht
    rw [hs.currentHandle_eq (inside_of_current ht), ht]
  · intro t h ht hblocked
    cases howner : s.mutex (bus h) with
    | none => simp [step, ht, run, howner] at hblocked
    | some t' =>
        obtain ⟨h', hin, hbus⟩ := Option.map_eq_some_iff.mp ((hs.mutex _ _).mp howner)
        refine ⟨t', h', ?_, hin, hbus⟩
        intro hsame
        subst hsame
        rw [ht] at hin
        cases hin

end Runs

/-! ## The clocks -/

/-- No bus is activated while a task is between its reading and its writing of the register. -/
def Quiet (bus : Handle → Bus) (s : State Task Bus Handle) (a : Action Task Handle) : Prop :=
  ∀ t h t' h' enr, a = .run t → s.pc t = .busActivate h → bus h ≠ bus h' →
    s.pc t' ≠ .writeEnr h' enr

/-- Task `true` has the first of two buses, and task `false` waits for it. -/
theorem waiting_task_waits_for_other : ∃ s : State Bool Bool Bool,
    s.pc false = .lock true ∧ s.pc true = .held true ∧
    ∃ t' h', t' ≠ false ∧ (s.pc t').inside = some h' ∧ h' = true := by
  have hreach : Reach (step (id : Bool → Bool)) (fun _ _ => True)
      (State.init : State Bool Bool Bool) _ :=
    @Reach.of_runActions _ _ _ _ _ [.acquire true true, .run true, .run true, .run true,
      .run true, .run true, .acquire false true] _ _ rfl
  exact ⟨_, rfl, rfl, (bus_is_exclusive hreach).2.2.2 false true rfl rfl⟩

section Clocks

omit [DecidableEq Task] [DecidableEq Bus] [DecidableEq Handle]

variable {bus : Handle → Bus} {s s' : State Task Bus Handle} {t : Task} {h : Handle}
  {p : Pc Bus Handle}

/-- The clock of each bus in use is on, and will be when the register is written back. -/
structure Clocks (bus : Handle → Bus) (s : State Task Bus Handle) : Prop where
  on : ∀ t h, (s.pc t).accesses = some h → bus h ∈ s.enr
  read : ∀ t h enr, s.pc t = .writeEnr h enr →
    ∀ t' h', (s.pc t').accesses = some h' → bus h' ∈ enr

theorem clocks_init : Clocks bus (State.init : State Task Bus Handle) := by
  constructor <;> simp [State.init, Pc.accesses]

variable [DecidableEq Task]

/-- The buses in use are fewer, or the same. -/
theorem Clocks.stay (hs : Clocks bus s) (hpc : s'.pc = Function.update s.pc t p)
    (henr : s'.enr = s.enr) (haccesses : ∀ h, p.accesses = some h → (s.pc t).accesses = some h)
    (hwrite : ∀ h enr, p ≠ .writeEnr h enr) : Clocks bus s' := by
  have hless : ∀ u h, (s'.pc u).accesses = some h → (s.pc u).accesses = some h := by
    intro u h hu
    by_cases hsame : u = t
    · subst hsame
      simp only [hpc, Function.update_self] at hu
      exact haccesses h hu
    · simpa [hpc, hsame] using hu
  constructor
  · intro u h hu
    rw [henr]
    exact hs.on u h (hless u h hu)
  · intro u h enr hu u' h' hu'
    by_cases hsame : u = t
    · subst hsame
      simp only [hpc, Function.update_self] at hu
      exact absurd hu (hwrite h enr)
    · simp only [hpc, Function.update_of_ne hsame] at hu
      exact hs.read u h enr hu u' h' (hless u' h' hu')

theorem Clocks.activate [DecidableEq Bus] (hs : Clocks bus s) (hgood : Good bus s)
    (hpc : s.pc t = .busActivate h) (hquiet : Quiet bus s (.run t)) :
    Clocks bus ({ s with enr := insert (bus h) s.enr }.goto t (.handleActivate h)) := by
  constructor
  · intro u g hu
    by_cases hsame : u = t
    · subst hsame
      simp only [goto_pc, Function.update_self, Pc.accesses, Option.some.injEq] at hu
      subst hu
      exact Finset.mem_insert_self _ _
    · simp only [goto_pc, Function.update_of_ne hsame] at hu
      exact Finset.mem_insert_of_mem (hs.on u g hu)
  · intro u g enr hu
    have hne : u ≠ t := by
      intro hsame
      subst hsame
      simp at hu
    simp only [goto_pc, Function.update_of_ne hne] at hu
    -- a task that writes the register back is of another bus, and then nothing is activated
    by_cases hbus : bus h = bus g
    · exact absurd (hgood.alone (by rw [hu]; rfl) (by rw [hpc]; rfl) hbus.symm) hne
    · exact absurd hu (hquiet t h u g enr rfl hpc hbus)

theorem Clocks.read_enr (hs : Clocks bus s) :
    Clocks bus (s.goto t (.writeEnr h s.enr)) := by
  have hless : ∀ u g, (Function.update s.pc t (.writeEnr h s.enr) u).accesses = some g →
      (s.pc u).accesses = some g := by
    intro u g hu
    by_cases hsame : u = t
    · subst hsame
      simp [Pc.accesses] at hu
    · simpa [hsame] using hu
  constructor
  · intro u g hu
    exact hs.on u g (hless u g hu)
  · intro u g enr hu u' g' hu'
    by_cases hsame : u = t
    · subst hsame
      simp only [goto_pc, Function.update_self, Pc.writeEnr.injEq] at hu
      rw [← hu.2]
      exact hs.on u' g' (hless u' g' hu')
    · simp only [goto_pc, Function.update_of_ne hsame] at hu
      exact hs.read u g enr hu u' g' (hless u' g' hu')

theorem Clocks.write [DecidableEq Bus] (hs : Clocks bus s) (hgood : Good bus s) {enr : Finset Bus}
    (hpc : s.pc t = .writeEnr h enr) :
    Clocks bus ({ s with enr := enr.erase (bus h) }.goto t (.resetCurrent h)) := by
  have hless : ∀ u g, (Function.update s.pc t (.resetCurrent h) u).accesses = some g →
      u ≠ t ∧ (s.pc u).accesses = some g := by
    intro u g hu
    by_cases hsame : u = t
    · subst hsame
      simp [Pc.accesses] at hu
    · exact ⟨hsame, by simpa [hsame] using hu⟩
  constructor
  · intro u g hu
    have hother := hless u g hu
    apply Finset.mem_erase_of_ne_of_mem
    · intro hbus
      have hin := inside_of_current (current_of_accesses hother.2)
      exact hother.1 (hgood.alone hin (by rw [hpc]; rfl) hbus)
    · exact hs.read t h enr hpc u g hother.2
  · intro u g enr' hu u' g' hu'
    have hne : u ≠ t := by
      intro hsame
      subst hsame
      simp at hu
    simp only [goto_pc, Function.update_of_ne hne] at hu
    exact hs.read u g enr' hu u' g' (hless u' g' hu').2

variable [DecidableEq Bus] [DecidableEq Handle]

theorem Clocks.run (hs : Clocks bus s) (hgood : Good bus s) (hquiet : Quiet bus s (.run t))
    (hstep : run bus s t (s.pc t) = some s') : Clocks bus s' := by
  cases hpc : s.pc t with
  | out => simp [hpc, I2cAcquire.run] at hstep
  | held h => simp [hpc, I2cAcquire.run] at hstep
  | crashed => simp [hpc, I2cAcquire.run] at hstep
  | lock h =>
      simp only [hpc, I2cAcquire.run] at hstep
      split at hstep
      · obtain rfl := Option.some.inj hstep
        exact hs.stay rfl rfl (by simp [Pc.accesses]) (by simp)
      · cases hstep
  | assertNone h =>
      simp only [hpc, I2cAcquire.run] at hstep
      obtain rfl := Option.some.inj hstep
      split
      · exact hs.stay rfl rfl (by simp [Pc.accesses]) (by simp)
      · exact hs.stay rfl rfl (by simp [Pc.accesses]) (by simp)
  | setCurrent h =>
      simp only [hpc, I2cAcquire.run] at hstep
      obtain rfl := Option.some.inj hstep
      exact hs.stay rfl rfl (by simp [Pc.accesses]) (by simp)
  | busActivate h =>
      simp only [hpc, I2cAcquire.run] at hstep
      obtain rfl := Option.some.inj hstep
      exact hs.activate hgood hpc hquiet
  | handleActivate h =>
      simp only [hpc, I2cAcquire.run] at hstep
      obtain rfl := Option.some.inj hstep
      exact hs.stay rfl rfl (by simp [hpc, Pc.accesses]) (by simp)
  | assertCurrent h =>
      simp only [hpc, I2cAcquire.run] at hstep
      obtain rfl := Option.some.inj hstep
      split
      · exact hs.stay rfl rfl (by simp [hpc, Pc.accesses]) (by simp)
      · exact hs.stay rfl rfl (by simp [Pc.accesses]) (by simp)
  | handleDeactivate h =>
      simp only [hpc, I2cAcquire.run] at hstep
      obtain rfl := Option.some.inj hstep
      exact hs.stay rfl rfl (by simp [Pc.accesses]) (by simp)
  | readEnr h =>
      simp only [hpc, I2cAcquire.run] at hstep
      obtain rfl := Option.some.inj hstep
      exact hs.read_enr
  | writeEnr h enr =>
      simp only [hpc, I2cAcquire.run] at hstep
      obtain rfl := Option.some.inj hstep
      exact hs.write hgood hpc
  | resetCurrent h =>
      simp only [hpc, I2cAcquire.run] at hstep
      obtain rfl := Option.some.inj hstep
      exact hs.stay rfl rfl (by simp [Pc.accesses]) (by simp)
  | unlock h =>
      simp only [hpc, I2cAcquire.run] at hstep
      split at hstep
      · obtain rfl := Option.some.inj hstep
        exact hs.stay rfl rfl (by simp [Pc.accesses]) (by simp)
      · obtain rfl := Option.some.inj hstep
        exact hs.stay rfl rfl (by simp [Pc.accesses]) (by simp)

theorem clocks_step {a : Action Task Handle} (hs : Clocks bus s) (hgood : Good bus s)
    (hquiet : Quiet bus s a) (hstep : step bus s a = some s') : Clocks bus s' := by
  cases a with
  | acquire t h =>
      simp only [step] at hstep
      split at hstep
      · obtain rfl := Option.some.inj hstep
        exact hs.stay rfl rfl (by simp [Pc.accesses]) (by simp)
      · cases hstep
  | release t =>
      simp only [step] at hstep
      split at hstep
      · rename_i h hpc
        obtain rfl := Option.some.inj hstep
        exact hs.stay rfl rfl (by simp [hpc, Pc.accesses]) (by simp)
      · cases hstep
  | run t => exact hs.run hgood hquiet hstep

theorem clocks_of_quiet {allowed : State Task Bus Handle → Action Task Handle → Prop}
    (hquiet : ∀ s a, allowed s a → Quiet bus s a)
    (hreach : Reach (step bus) allowed State.init s) : Clocks bus s := by
  have hboth : Good bus s ∧ Clocks bus s := by
    apply hreach.invariant (I := fun s => Good bus s ∧ Clocks bus s) ⟨good_init, clocks_init⟩
    intro s a s' hs ha hstep
    exact ⟨good_step hs.1 hstep, clocks_step hs.2 hs.1 (hquiet s a ha) hstep⟩
  exact hboth.2

end Clocks

/-! ## A clock is lost -/

section Lost

variable {bus : Handle → Bus} {s : State Task Bus Handle} {t : Task} {h : Handle}

/-- `rhs_hal_i2c_acquire` of a free bus, without a break. -/
theorem reach_held (hpc : s.pc t = .out) (hfree : s.mutex (bus h) = none)
    (hnone : s.currentHandle (bus h) = none) :
    Reach (step bus) (fun _ _ => True) s
      { pc := Function.update s.pc t (.held h)
        mutex := Function.update s.mutex (bus h) (some t)
        currentHandle := Function.update s.currentHandle (bus h) (some h)
        enr := insert (bus h) s.enr } := by
  apply @Reach.of_runActions _ _ _ _ _ [.acquire t h, .run t, .run t, .run t, .run t, .run t]
  simp [runActions, step, run, State.goto, hpc, hfree, hnone]

/-- `rhs_hal_i2c_release` up to where the register is written back. -/
theorem reach_writeEnr (hpc : s.pc t = .held h) (hcurrent : s.currentHandle (bus h) = some h) :
    Reach (step bus) (fun _ _ => True) s (s.goto t (.writeEnr h s.enr)) := by
  apply @Reach.of_runActions _ _ _ _ _ [.release t, .run t, .run t, .run t]
  simp [runActions, step, run, State.goto, hpc, hcurrent]

theorem reach_resetCurrent {enr : Finset Bus} (hpc : s.pc t = .writeEnr h enr) :
    Reach (step bus) (fun _ _ => True) s
      ({ s with enr := enr.erase (bus h) }.goto t (.resetCurrent h)) := by
  apply @Reach.of_runActions _ _ _ _ _ [.run t]
  simp [runActions, step, run, hpc]

/-- With two buses, one task can lose the clock of the bus that it has. -/
theorem reach_lost {t' : Task} {h' : Handle} (ht : t ≠ t') (hbus : bus h ≠ bus h') :
    ∃ s, Reach (step bus) (fun _ _ => True) (State.init : State Task Bus Handle) s ∧
      s.pc t' = .held h' ∧ bus h' ∉ s.enr := by
  have hfirst := @reach_held _ _ _ _ _ _ bus State.init t h rfl rfl rfl
  have hreleased := hfirst.trans (reach_writeEnr (t := t) (h := h) (by simp) (by simp))
  have hsecond := hreleased.trans
    (reach_held (t := t') (h := h') (by simp [State.init, ht.symm])
      (by simp [State.init, hbus.symm]) (by simp [State.init, hbus.symm]))
  have hwritten := hsecond.trans
    (@reach_resetCurrent _ _ _ _ _ _ bus _ t h {bus h} (by simp [State.init, ht]))
  refine ⟨_, hwritten, ?_, ?_⟩
  · simp [ht.symm]
  · simp [State.init]

end Lost

/-- **Where the clock of a bus in use stays on.**  It does in every run in which no bus is
activated while the register is being written for another; and it does in all runs exactly if
all handles are of one bus, as on the boards that have only `rhs_hal_i2c1_handle`. -/
theorem clocks_stay_iff [Nontrivial Task] (bus : Handle → Bus) :
    (∀ s : State Task Bus Handle, Reach (step bus) (Quiet bus) State.init s →
      ∀ t h, (s.pc t).accesses = some h → bus h ∈ s.enr) ∧
    ((∀ s : State Task Bus Handle, Reach (step bus) (fun _ _ => True) State.init s →
      ∀ t h, (s.pc t).accesses = some h → bus h ∈ s.enr) ↔ ∀ h h', bus h = bus h') := by
  refine ⟨fun s hreach => (clocks_of_quiet (fun _ _ ha => ha) hreach).on, ?_, ?_⟩
  · intro hall h h'
    by_contra hbus
    obtain ⟨t, t', ht⟩ := exists_pair_ne Task
    obtain ⟨s, hreach, hpc, hlost⟩ := reach_lost ht hbus
    exact hlost (hall s hreach t' h' (by rw [hpc]; rfl))
  · intro hone s hreach
    have hquiet : ∀ (s : State Task Bus Handle) a, True → Quiet bus s a := by
      intro s a _ t h t' h' enr _ _ hbus
      exact absurd (hone h h') hbus
    exact (clocks_of_quiet hquiet hreach).on

/-- Two tasks, and the three buses of the STM32G0B1: not in all runs. -/
theorem three_buses_lose_clock :
    ¬ ∀ s : State Bool (Fin 3) (Fin 3), Reach (step id) (fun _ _ => True) State.init s →
      ∀ t h, (s.pc t).accesses = some h → id h ∈ s.enr := by
  intro hall
  have hone := (@clocks_stay_iff Bool _ _ _ _ _ _ (id : Fin 3 → Fin 3)).2.mp hall 0 1
  revert hone
  decide

end RhsCore.I2cAcquire
