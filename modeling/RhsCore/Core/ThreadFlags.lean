import RhsCore.Core.EventFlag
import RhsCore.Lib.Flags
import RhsCore.Lib.Transition

/-!
# The flags of a thread

`core/thread.c` keeps the flags of a thread in the value of its task notification.  The
kernel adds a state to that value: a notification is pending or not, and a wait looks at
this state, not at the value.

Setting flags is two calls of the kernel, clearing them is two, waiting for them is one
for each notification that arrives.  Each such call, and each reading of the tick count,
is one step here, so that others can act between any two of them.  A wait or a clear
from an interrupt is refused before it touches anything; only those of the thread itself
are modelled.

## Main definitions

* `Notify` — the notification, with the kernel's calls on it.
* `Wait` — the variables of `rhs_thread_flags_wait`.
* `State`, `Action`, `step` — the thread, and everything that sets its flags.
-/

namespace RhsCore.ThreadFlags

/-! ## The kernel's notification -/

/-- `ucNotifyState`. -/
inductive NotifyState
  | notWaiting
  | waiting
  | received
  deriving DecidableEq, Repr

/-- The notification of a task. -/
structure Notify where
  value : UInt32
  state : NotifyState
  deriving DecidableEq, Repr

/-- `eNotifyAction`, as far as it is used. -/
inductive NotifyAction
  | noAction
  | setBits (flags : UInt32)
  | setValueWithOverwrite (value : UInt32)
  deriving DecidableEq, Repr

/-- `xTaskNotifyAndQueryIndexed`: any notification becomes pending, also one that sets
nothing. -/
def Notify.notify (n : Notify) : NotifyAction → Notify
  | .noAction => { n with state := .received }
  | .setBits flags => { value := n.value ||| flags, state := .received }
  | .setValueWithOverwrite value => { value := value, state := .received }

/-- `portMAX_DELAY`. -/
def portMaxDelay : UInt32 := 0xFFFFFFFF

/-! ## The thread -/

/-- `THREAD_FLAGS_INVALID_BITS`. -/
def threadFlagsInvalidBits : UInt32 := 0x80000000

/-- `RHSFlagError`: set in every status word that is an error. -/
def rhsFlagError : UInt32 := 0x80000000

def rhsStatusErrorParameter : UInt32 := 0xFFFFFFFC

/-- The variables of `rhs_thread_flags_wait`. -/
structure Wait where
  flags : UInt32
  options : UInt32
  timeout : UInt32
  clear : UInt32
  rflags : UInt32
  tout : UInt32
  t0 : UInt32
  deriving DecidableEq, Repr

/-- What the options ask for is among the bits. -/
def matching (flags options bits : UInt32) : Bool :=
  if options &&& rhsFlagWaitAll = rhsFlagWaitAll then flags &&& bits = flags
  else flags &&& bits ≠ 0

/-- Where the thread is. -/
inductive Pc
  /-- In none of the calls; what the last one returned. -/
  | idle (rflags : Option UInt32)
  /-- Before `t0 = xTaskGetTickCount()`. -/
  | entered (w : Wait)
  /-- Before `xTaskNotifyWaitIndexed`. -/
  | waiting (w : Wait)
  /-- Suspended in it since the tick `since`. -/
  | blocked (w : Wait) (since : ℕ)
  /-- In it, with nothing to wait for. -/
  | awake (w : Wait)
  /-- Before the timeout is updated. -/
  | elapsed (w : Wait)
  /-- Before the query of `rhs_thread_flags_clear`. -/
  | querying (flags : UInt32)
  /-- Before its overwrite. -/
  | overwriting (flags cflags : UInt32)
  deriving DecidableEq, Repr

/-- The thread, its notification, and the calls of `rhs_thread_flags_set` that are between
their two calls of the kernel. -/
structure State where
  notify : Notify
  tick : ℕ
  pc : Pc
  setters : ℕ
  deriving DecidableEq, Repr

/-- A thread that has just been created. -/
def State.init : State where
  notify := { value := 0, state := .notWaiting }
  tick := 0
  pc := .idle none
  setters := 0

/-- `xTaskGetTickCount`. -/
def State.tickCount (s : State) : UInt32 := UInt32.ofNat s.tick

/-! ## `rhs_thread_flags_set` -/

/-- Its first call of the kernel. -/
def rhsThreadFlagsSet (s : State) (flags : UInt32) : State :=
  if flags &&& threadFlagsInvalidBits ≠ 0 then s
  else { s with notify := s.notify.notify (.setBits flags), setters := s.setters + 1 }

/-- Its second call, which asks for the value. -/
def setQuery (s : State) : Option State :=
  if 0 < s.setters then
    some { s with notify := s.notify.notify .noAction, setters := s.setters - 1 }
  else none

/-! ## `rhs_thread_flags_clear` -/

/-- The call, up to the first call of the kernel. -/
def rhsThreadFlagsClear (s : State) (flags : UInt32) : State :=
  if flags &&& threadFlagsInvalidBits ≠ 0 then
    { s with pc := .idle (some rhsStatusErrorParameter) }
  else { s with pc := .querying flags }

/-! ## `rhs_thread_flags_wait` -/

/-- The call, up to the first reading of the tick count. -/
def rhsThreadFlagsWait (s : State) (flags options timeout : UInt32) : State :=
  if flags &&& threadFlagsInvalidBits ≠ 0 then
    { s with pc := .idle (some rhsStatusErrorParameter) }
  else
    let clear := if options &&& rhsFlagNoClear = rhsFlagNoClear then 0 else flags
    { s with
      pc :=
        .entered
          { flags := flags, options := options, timeout := timeout, clear := clear, rflags := 0,
            tout := timeout, t0 := 0 } }

/-- The first half of `xTaskNotifyWaitIndexed`: it blocks unless a notification is pending. -/
def waitEnter (s : State) (w : Wait) : State :=
  if s.notify.state = .received then { s with pc := .awake w }
  else
    { s with
      notify := { s.notify with state := .waiting }
      pc := if w.tout > 0 then .blocked w s.tick else .awake w }

/-- What the loop does with a notification. -/
def onNotification (w : Wait) (nval : UInt32) : Pc :=
  let rflags := (w.rflags &&& w.flags) ||| nval
  if matching w.flags w.options rflags then .idle (some rflags)
  else if w.timeout = 0 then .idle (some rhsStatusErrorResource)
  else .elapsed { w with rflags := rflags }

/-- What it does without one. -/
def onNothing (w : Wait) : Pc :=
  .idle (some (if w.timeout = 0 then rhsStatusErrorResource else rhsStatusErrorTimeout))

/-- The second half of `xTaskNotifyWaitIndexed`: it takes a pending notification. -/
def waitExit (s : State) (w : Wait) : State :=
  if s.notify.state = .received then
    { s with
      notify := { value := s.notify.value &&& ~~~ w.clear, state := .notWaiting }
      pc := onNotification w s.notify.value }
  else { s with notify := { s.notify with state := .notWaiting }, pc := onNothing w }

/-- The timeout is over. -/
def timedOut (w : Wait) (since tick : ℕ) : Bool :=
  w.tout ≠ portMaxDelay && decide (since + w.tout.toNat ≤ tick)

/-- What is left of the timeout. -/
def updateTimeout (w : Wait) (now : UInt32) : Wait :=
  let td := now - w.t0
  { w with tout := if td > w.tout then 0 else w.tout - td }

/-- The next step of the thread, in the call it is in. -/
def thread (s : State) : Option State :=
  match s.pc with
  | .idle _ => none
  | .entered w => some { s with pc := .waiting { w with t0 := s.tickCount } }
  | .waiting w => some (waitEnter s w)
  | .blocked w since =>
      if s.notify.state = .received ∨ timedOut w since s.tick then some (waitExit s w) else none
  | .awake w => some (waitExit s w)
  | .elapsed w => some { s with pc := .waiting (updateTimeout w s.tickCount) }
  | .querying flags =>
      some
        { s with
          notify := s.notify.notify .noAction
          pc := .overwriting flags s.notify.value }
  | .overwriting flags cflags =>
      some
        { s with
          notify := s.notify.notify (.setValueWithOverwrite (cflags &&& ~~~ flags))
          pc := .idle (some cflags) }

/-! ## Any order of all of them -/

/-- What can happen next. -/
inductive Action
  | set (flags : UInt32)
  | setQuery
  | tick
  | wait (flags options timeout : UInt32)
  | clear (flags : UInt32)
  | thread
  deriving DecidableEq, Repr

/-- What it does. -/
def step (s : State) : Action → Option State
  | .set flags => some (rhsThreadFlagsSet s flags)
  | .setQuery => setQuery s
  | .tick => some { s with tick := s.tick + 1 }
  | .wait flags options timeout =>
      match s.pc with
      | .idle _ => some (rhsThreadFlagsWait s flags options timeout)
      | _ => none
  | .clear flags =>
      match s.pc with
      | .idle _ => some (rhsThreadFlagsClear s flags)
      | _ => none
  | .thread => thread s

/-- The actions of others: setters, and the clock. -/
def Action.ofOthers : Action → Bool
  | .set _ => true
  | .setQuery => true
  | .tick => true
  | _ => false

/-- The flags an action sets. -/
def Action.flags : Action → UInt32
  | .set flags => if flags &&& threadFlagsInvalidBits ≠ 0 then 0 else flags
  | _ => 0

end RhsCore.ThreadFlags
