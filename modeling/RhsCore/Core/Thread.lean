import Mathlib.Data.Nat.Notation
import Mathlib.Logic.Function.Basic

/-!
# Threads

`core/thread.c`: the life of an `RHSThread`.  Its owner allocates, starts, joins and frees
it; its body runs the callback and puts the thread into a queue of eight entries; the
scrubber takes it from there, deletes the task, and reports it stopped.

Every access to an `RHSThread` is a step of its own.  A service thread is not joined or
freed, and a thread is freed when it was joined or has not been started.

## Main definitions

* `RHSThread`, `RHSThreadState` — the structure of the source.
* `Owner`, `Body`, `Scrubber` — how far each of the three is.
* `runOwner`, `runBody`, `runScrubber`, `step` — what each of them does next.
-/

namespace RhsCore.Thread

/-! ## The thread -/

inductive RHSThreadState
  | stopped
  | stopping
  | starting
  | running
  deriving DecidableEq

/-- What an `RHSThread` says about itself; `ι` is for the pointers to them. -/
structure RHSThread (ι : Type) where
  /-- Pointer 0 of the task's local storage, in `container`. -/
  localStorage : Option ι
  /-- `stack_buffer` is allocated. -/
  stackBuffer : Bool
  state : RHSThreadState
  ret : Int32
  callback : UInt32
  stackSize : UInt32
  isService : Bool

/-- `rhs_thread_alloc`. -/
def rhsThreadAlloc {ι : Type} (stackSize callback : UInt32) (isService : Bool) : RHSThread ι where
  localStorage := none
  stackBuffer := true
  state := .stopped
  ret := 0
  callback := callback
  stackSize := stackSize
  isService := isService

/-! ## Who uses it -/

/-- The owner of a thread. -/
inductive Owner
  /-- It has no thread here. -/
  | absent
  /-- It has not started the thread since it was allocated or joined. -/
  | idle
  /-- In `rhs_thread_start`, before `xTaskCreateStatic`. -/
  | creating
  | started
  /-- In the loop of `rhs_thread_join`. -/
  | joining
  /-- In `rhs_thread_free`, before the thread itself is freed. -/
  | freeing
  deriving DecidableEq

/-- What `rhs_thread_body` does next. -/
inductive Body
  | checkStorage
  | setStorage
  | checkStarting
  | setRunning
  /-- It is in the callback. -/
  | call
  | setRet (ret : Int32)
  | checkService
  | checkRunning
  | setStopping
  | put
  | suspend
  | suspended
  deriving DecidableEq

/-- What `rhs_thread_scrub` does next. -/
inductive Scrubber (ι : Type)
  | get
  | delete (t : ι)
  | checkStorage (t : ι)
  | clearStorage (t : ι)
  | setStopped (t : ι)
  | log

/-- A thread, its owner, and its task if the kernel has one.  What the callback returned
since the thread was started last is only recorded. -/
structure Slot (ι : Type) where
  owner : Owner
  object : Option (RHSThread ι)
  task : Option Body
  wasStarted : Bool
  returned : Option Int32

/-- Why the system has stopped. -/
inductive Halt
  /-- An assertion about a call of `rhs_thread_start`, `rhs_thread_join` or
  `rhs_thread_free`. -/
  | caller
  /-- The callback of a service thread has returned. -/
  | service
  /-- Another assertion of `rhs_thread_body`. -/
  | body
  /-- The assertion of `rhs_thread_scrub`. -/
  | scrub
  /-- A thread or a stack was used after it was freed, or a task that is deleted was
  deleted or one that is not was created. -/
  | memory
  deriving DecidableEq

structure State (ι : Type) where
  slots : ι → Slot ι
  /-- `rhs_thread_scrub_message_queue`. -/
  queue : List ι
  scrubber : Scrubber ι
  halted : Option Halt

/-- `rhs_thread_init`. -/
def State.init {ι : Type} : State ι where
  slots := fun _ =>
    { owner := .absent, object := none, task := none, wasStarted := false, returned := none }
  queue := []
  scrubber := .get
  halted := none

/-- The length of `rhs_thread_scrub_message_queue`. -/
def queueSize : ℕ := 8

variable {ι : Type}

def State.halt (s : State ι) (why : Halt) : State ι := { s with halted := some why }

/-- The thread is used, if it is there. -/
def State.use (s : State ι) (t : ι) (f : RHSThread ι → State ι) : State ι :=
  match (s.slots t).object with
  | none => s.halt .memory
  | some o => f o

variable [DecidableEq ι]

def State.set (s : State ι) (t : ι) (slot : Slot ι) : State ι :=
  { s with slots := Function.update s.slots t slot }

/-! ## The owner -/

/-- What the owner of a thread does. -/
inductive Call
  | alloc (stackSize callback : UInt32) (isService : Bool)
  | start
  | create
  | join
  | poll
  | free
  | freeObject
  deriving DecidableEq

/-- `rhs_thread_start`, until the state is set. -/
def rhsThreadStart (s : State ι) (t : ι) : State ι :=
  s.use t fun o =>
    if o.callback ≠ 0 ∧ o.state = .stopped ∧ 0 < o.stackSize then
      s.set t { s.slots t with
        owner := .creating
        object := some { o with state := .starting }
        wasStarted := true
        returned := none }
    else s.halt .caller

/-- `xTaskCreateStatic`: the kernel clears the task's local storage. -/
def xTaskCreateStatic (s : State ι) (t : ι) : State ι :=
  s.use t fun o =>
    if (s.slots t).task.isSome then s.halt .memory
    else
      s.set t { s.slots t with
        owner := .started
        object := some { o with localStorage := none }
        task := some .checkStorage }

/-- `rhs_thread_join`, until its loop. -/
def rhsThreadJoin (s : State ι) (t : ι) : State ι :=
  s.use t fun o =>
    if o.isService then s.halt .caller else s.set t { s.slots t with owner := .joining }

/-- A turn of the loop: `rhs_thread_join` returns when the thread is stopped. -/
def joinLoop (s : State ι) (t : ι) : State ι :=
  s.use t fun o =>
    if o.state = .stopped then s.set t { s.slots t with owner := .idle } else s

/-- `rhs_thread_free`, until the thread itself is freed. -/
def rhsThreadFree (s : State ι) (t : ι) : State ι :=
  s.use t fun o =>
    if o.isService then s.halt .caller
    else
      s.set t { s.slots t with
        owner := .freeing
        object := some { o with stackBuffer := false } }

/-- `free(thread)`. -/
def freeThread (s : State ι) (t : ι) : State ι :=
  s.use t fun _ => s.set t { s.slots t with owner := .absent, object := none }

/-- The owner's next step. -/
def runOwner (s : State ι) (t : ι) (call : Call) : Option (State ι) :=
  let owner := (s.slots t).owner
  match call with
  | .alloc stackSize callback isService =>
      if owner = .absent then
        some (s.set t { s.slots t with
          owner := .idle
          object := some (rhsThreadAlloc stackSize callback isService)
          wasStarted := false
          returned := none })
      else none
  | .start => if owner = .idle ∨ owner = .started then some (rhsThreadStart s t) else none
  | .create => if owner = .creating then some (xTaskCreateStatic s t) else none
  | .join => if owner = .idle ∨ owner = .started then some (rhsThreadJoin s t) else none
  | .poll => if owner = .joining then some (joinLoop s t) else none
  | .free => if owner = .idle then some (rhsThreadFree s t) else none
  | .freeObject => if owner = .freeing then some (freeThread s t) else none

/-! ## The body -/

/-- The thread after a step of its body, and what the body does next. -/
def State.advance (s : State ι) (t : ι) (o : RHSThread ι) (next : Body) : State ι :=
  s.set t { s.slots t with object := some o, task := some next }

/-- `rhs_thread_body`, on a thread that is there. -/
def rhsThreadBody (s : State ι) (t : ι) (o : RHSThread ι) : Body → Option (State ι)
  | .checkStorage =>
      some (if o.localStorage = none then s.advance t o .setStorage else s.halt .body)
  | .setStorage => some (s.advance t { o with localStorage := some t } .checkStarting)
  | .checkStarting =>
      some (if o.state = .starting then s.advance t o .setRunning else s.halt .body)
  | .setRunning => some (s.advance t { o with state := .running } .call)
  | .call => none
  | .setRet ret => some (s.advance t { o with ret := ret } .checkService)
  | .checkService => some (if o.isService then s.halt .service else s.advance t o .checkRunning)
  | .checkRunning =>
      some (if o.state = .running then s.advance t o .setStopping else s.halt .body)
  | .setStopping => some (s.advance t { o with state := .stopping } .put)
  | .put =>
      if s.queue.length < queueSize then
        some ({ s with queue := s.queue ++ [t] }.advance t o .suspend)
      else none
  | .suspend => some (s.advance t o .suspended)
  | .suspended => none

/-- The next step of the body, which runs on the thread's stack. -/
def runBody (s : State ι) (t : ι) : Option (State ι) :=
  match (s.slots t).task with
  | none => none
  | some body =>
      match (s.slots t).object with
      | none => some (s.halt .memory)
      | some o => if o.stackBuffer then rhsThreadBody s t o body else some (s.halt .memory)

/-- The callback returns. -/
def runCallback (s : State ι) (t : ι) (ret : Int32) : Option (State ι) :=
  if (s.slots t).task = some .call then
    some (s.set t { s.slots t with task := some (.setRet ret), returned := some ret })
  else none

/-! ## The scrubber -/

/-- `vTaskDelete`: the kernel takes the task, which is in the thread, off its lists. -/
def vTaskDelete (s : State ι) (t : ι) : State ι :=
  s.use t fun _ =>
    if (s.slots t).task.isSome then
      { s.set t { s.slots t with task := none } with scrubber := .checkStorage t }
    else s.halt .memory

/-- The next step of `rhs_thread_scrub`. -/
def runScrubber (s : State ι) : Option (State ι) :=
  match s.scrubber with
  | .get =>
      match s.queue with
      | [] => none
      | t :: rest => some { s with queue := rest, scrubber := .delete t }
  | .delete t => some (vTaskDelete s t)
  | .checkStorage t =>
      some (s.use t fun o =>
        if o.localStorage = some t then { s with scrubber := .clearStorage t } else s.halt .scrub)
  | .clearStorage t =>
      some (s.use t fun o =>
        { s.set t { s.slots t with object := some { o with localStorage := none } } with
          scrubber := .setStopped t })
  | .setStopped t =>
      some (s.use t fun o =>
        { s.set t { s.slots t with object := some { o with state := .stopped } } with
          scrubber := .log })
  | .log => some { s with scrubber := .get }

/-! ## Steps -/

inductive Action (ι : Type)
  | owner (t : ι) (call : Call)
  | body (t : ι)
  | callback (t : ι) (ret : Int32)
  | scrubber
  deriving DecidableEq

/-- Anybody's step, unless the system has stopped. -/
def step (s : State ι) (a : Action ι) : Option (State ι) :=
  if s.halted.isSome then none
  else
    match a with
    | .owner t call => runOwner s t call
    | .body t => runBody s t
    | .callback t ret => runCallback s t ret
    | .scrubber => runScrubber s

end RhsCore.Thread
