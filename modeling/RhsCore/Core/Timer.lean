import RhsCore.Core.EventFlag
import RhsCore.Core.ThreadFlags
import RhsCore.Lib.Transition

/-!
# Timers

`core/timer.c`, which sends commands to the timer daemon of the kernel.  A timer is freed in
three steps: the daemon is told to delete it, then to call a function that sets the bit of an
event group on the caller's stack, and when that bit is there both are given back.

The kernel is not part of the repository.  The daemon takes commands in the order in which
they were sent; between two commands, timers that are due expire.  When that is depends on the
clock, so that an expiry may happen whenever the timer is in the daemon's list of active ones,
and a reset may be processed too late.

## Main definitions

* `RHSTimer`, `rhsTimerAlloc` — a timer.
* `TimerCommand` — what is sent to the daemon.
* `State` — a thread with its timer, and the daemon.
* `runThread`, `runDaemon`, `step` — what each of them does next.
-/

namespace RhsCore.Timer

open ThreadFlags (portMaxDelay)

/-! ## A timer -/

/-- A function, and the context it is called with. -/
abbrev RHSTimerCallback := ℕ
abbrev Context := ℕ

/-- `RHSTimerType`. -/
inductive RHSTimerType
  | once
  | periodic
  deriving DecidableEq, Repr

/-- `RHSTimer`; of the kernel's container, whether the timer is reloaded. -/
structure RHSTimer where
  reload : Bool
  cbFunc : RHSTimerCallback
  cbContext : Context
  deriving DecidableEq, Repr

/-- `rhs_timer_alloc`. -/
def rhsTimerAlloc (func : RHSTimerCallback) (type : RHSTimerType) (context : Context) : RHSTimer :=
  { reload := if type = .once then false else true, cbFunc := func, cbContext := context }

/-- `TIMER_DELETED_EVENT`. -/
def timerDeletedEvent : UInt32 := 1

/-! ## The thread and the daemon -/

/-- A command in the queue of the daemon. -/
inductive TimerCommand
  | changePeriod (ticks : UInt32)
  | reset
  | stop
  | delete
  /-- `rhs_timer_epilogue` is to be called, with the event group. -/
  | epilogue
  /-- For another timer, or another function is to be called. -/
  | other
  deriving DecidableEq, Repr

/-- The event group of `rhs_timer_free`: its bits, and whether the thread is blocked on it. -/
structure EventGroup where
  bits : UInt32
  waiting : Bool
  deriving DecidableEq, Repr

/-- How far the thread has come. -/
inductive Pc
  | idle (stat : Option RHSStatus)
  | starting (ticks : UInt32)
  | restarting (ticks : UInt32)
  /-- In `rhs_timer_restart`, after the period was changed. -/
  | resetting
  | stopping
  /-- In `rhs_timer_free`, before `xTimerDelete`. -/
  | deleting
  | creating
  /-- Before `xTimerPendFunctionCall`. -/
  | pending
  /-- Before `xEventGroupWaitBits` looks at the bits. -/
  | waiting
  | blocked
  /-- The wait has returned. -/
  | woken (bits : UInt32)
  /-- Before `free`. -/
  | freeing
  /-- `rhs_timer_free` has returned. -/
  | freed
  deriving DecidableEq, Repr

/-- The next thing to do in `rhs_timer_epilogue`. -/
inductive Epilogue
  | suspendAll
  /-- `xEventGroupSetBits` holds the scheduler once more. -/
  | suspendAgain
  | setBits
  | resumeAgain
  /-- It reads the bits for its result. -/
  | getBits
  | resumeAll
  deriving DecidableEq, Repr

inductive DaemonPc
  | idle
  | processing (cmd : TimerCommand)
  /-- In `TimerCallback`. -/
  | callback
  /-- In the function that it calls. -/
  | calling (cbFunc : RHSTimerCallback) (cbContext : Context)
  | epilogue (next : Epilogue)
  deriving DecidableEq, Repr

structure State where
  /-- The memory of the timer, and of the event group, as long as they are there. -/
  timer : Option RHSTimer
  event : Option EventGroup
  /-- The timer is in the daemon's list of active timers. -/
  listed : Bool
  queue : List TimerCommand
  /-- How often the daemon holds the scheduler. -/
  suspended : ℕ
  thread : Pc
  daemon : DaemonPc
  /-- How often `TimerCallback` was called. -/
  calls : ℕ
  /-- The timer or the event group was used when it was not there. -/
  fault : Bool
  deriving DecidableEq, Repr

/-- After `rhs_timer_alloc`. -/
def State.init (timer : RHSTimer) : State where
  timer := some timer
  event := none
  listed := false
  queue := []
  suspended := 0
  thread := .idle none
  daemon := .idle
  calls := 0
  fault := false

def State.touchTimer (s : State) : State := { s with fault := s.fault || s.timer.isNone }
def State.touchEvent (s : State) : State := { s with fault := s.fault || s.event.isNone }

/-! ## The thread -/

/-- `xTimerGenericCommand` and `xTimerPendFunctionCall` wait until there is room. -/
def State.send (capacity : ℕ) (s : State) (cmd : TimerCommand) (next : Pc) : Option State :=
  if s.queue.length < capacity then some { s with queue := s.queue ++ [cmd], thread := next }
  else none

/-- `xEventGroupWaitBits` looks at the bits. -/
def State.waitBits (s : State) : State :=
  match s.event with
  | none => s.touchEvent
  | some event =>
      match eventGroupWaitBits timerDeletedEvent false true event.bits with
      | some (bits, left) =>
          { s with event := some { event with bits := left }, thread := .woken bits }
      | none => { s with event := some { event with waiting := true }, thread := .blocked }

/-- The next step of a call. -/
def runThread (capacity : ℕ) (s : State) : Option State :=
  match s.thread with
  | .idle _ => none
  | .starting ticks => s.send capacity (.changePeriod ticks) (.idle (some .ok))
  | .restarting ticks => s.send capacity (.changePeriod ticks) .resetting
  | .resetting => s.send capacity .reset (.idle (some .ok))
  | .stopping => s.send capacity .stop (.idle (some .ok))
  | .deleting => s.send capacity .delete .creating
  | .creating => some { s with event := some { bits := 0, waiting := false }, thread := .pending }
  | .pending => s.send capacity .epilogue .waiting
  | .waiting => some s.waitBits
  | .blocked => none
  | .woken bits =>
      if bits = timerDeletedEvent then some { s.touchEvent with event := none, thread := .freeing }
      else none
  | .freeing => some { s.touchTimer with timer := none, thread := .freed }
  | .freed => none

/-- A command is refused, which happens only to a caller that holds the scheduler itself;
`rhs_timer_stop` and `rhs_timer_free` assert that it is not. -/
def refuse (s : State) : Option State :=
  match s.thread with
  | .starting _ => some { s with thread := .idle (some .errorResource) }
  | .restarting _ => some { s with thread := .idle (some .errorResource) }
  | .resetting => some { s with thread := .idle (some .errorResource) }
  | _ => none

/-- `rhs_timer_start`, `rhs_timer_restart`, `rhs_timer_stop` and `rhs_timer_free`. -/
inductive Call
  | start (ticks : UInt32)
  | restart (ticks : UInt32)
  | stop
  | free
  deriving DecidableEq, Repr

/-- A call begins: its assertions. -/
def Call.begin : Call → Option Pc
  | .start ticks => if ticks < portMaxDelay then some (.starting ticks) else none
  | .restart ticks => if ticks < portMaxDelay then some (.restarting ticks) else none
  | .stop => some .stopping
  | .free => some .deleting

def startCall (s : State) (c : Call) : Option State :=
  match s.thread with
  | .idle _ => c.begin.map fun pc => { s with thread := pc }
  | _ => none

/-! ## The daemon -/

/-- The timer has expired: it is reloaded or taken from the list, and its callback called. -/
def State.expire (s : State) : State :=
  { s.touchTimer with
    listed := s.timer.any fun timer => timer.reload
    daemon := .callback
    calls := s.calls + 1 }

/-- The daemon processes a command; `late` is whether the time of a reset has passed. -/
def State.process (late : Bool) (s : State) : TimerCommand → Option State
  | .changePeriod ticks =>
      if ticks = 0 then none else some { s.touchTimer with listed := true, daemon := .idle }
  | .reset =>
      if late then some s.expire else some { s.touchTimer with listed := true, daemon := .idle }
  | .stop => some { s.touchTimer with listed := false, daemon := .idle }
  | .delete => some { s.touchTimer with listed := false, daemon := .idle }
  | .epilogue => some { s with daemon := .epilogue .suspendAll }
  | .other => some { s with daemon := .idle }

/-- `xEventGroupSetBits`: the thread is ready if it was blocked. -/
def State.setBits (s : State) : State :=
  match s.event with
  | none => s.touchEvent
  | some event =>
      let bits := eventGroupSetBits event.bits timerDeletedEvent
      { s with
        event := some { bits := bits, waiting := false }
        thread := if event.waiting then .woken bits else s.thread }

/-- `rhs_timer_epilogue`. -/
def rhsTimerEpilogue (s : State) : Epilogue → State
  | .suspendAll => { s with suspended := s.suspended + 1, daemon := .epilogue .suspendAgain }
  | .suspendAgain => { s with suspended := s.suspended + 1, daemon := .epilogue .setBits }
  | .setBits => { s.setBits with daemon := .epilogue .resumeAgain }
  | .resumeAgain => { s with suspended := s.suspended - 1, daemon := .epilogue .getBits }
  | .getBits => { s.touchEvent with daemon := .epilogue .resumeAll }
  | .resumeAll => { s with suspended := s.suspended - 1, daemon := .idle }

/-- `TimerCallback`, as far as the call of its function. -/
def timerCallback (s : State) : State :=
  match s.timer with
  | none => { s.touchTimer with daemon := .idle }
  | some timer => { s with daemon := .calling timer.cbFunc timer.cbContext }

/-- The next step of the daemon. -/
def runDaemon (late : Bool) (s : State) : Option State :=
  match s.daemon with
  | .idle =>
      match s.queue with
      | [] => none
      | cmd :: rest => some { s with queue := rest, daemon := .processing cmd }
  | .processing cmd => s.process late cmd
  | .callback => some (timerCallback s)
  | .calling _ _ => some { s with daemon := .idle }
  | .epilogue next => some (rhsTimerEpilogue s next)

/-! ## Steps -/

inductive Action
  | call (c : Call)
  | thread
  | refuse
  | daemon (late : Bool)
  | expire
  /-- Others send a command. -/
  | others
  deriving DecidableEq, Repr

/-- Anybody's step; while the daemon holds the scheduler, the thread does not run. -/
def step (capacity : ℕ) (s : State) : Action → Option State
  | .call c => if s.suspended = 0 then startCall s c else none
  | .thread => if s.suspended = 0 then runThread capacity s else none
  | .refuse => if s.suspended = 0 then refuse s else none
  | .daemon late => runDaemon late s
  | .expire => if s.daemon = .idle ∧ s.listed = true then some s.expire else none
  | .others =>
      if s.queue.length < capacity then some { s with queue := s.queue ++ [.other] } else none

end RhsCore.Timer
