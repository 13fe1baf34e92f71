import RhsCore.Core.EventFlag
import RhsCore.Net.Calls
import RhsCore.Net.Config

/-!
# The lock of a call

`api_lock.h`: a call allocates an event group, waits for its bit, and frees it.  The worker
sets the bit with `rhs_event_flag_set`, which holds the scheduler while the kernel sets the
bit and looks at the group again.

The threads call what waits on a thread other than the worker's, and the worker gets no
stop.  Each allocated lock has a number.

## Main definitions

* `Request`, `NetApiEventMessage` — the calls, and the message in a call's frame.
* `Lock`, `State` — an event group, and the threads and the worker that use them.
* `runThread`, `runWorker`, `step` — what each of them does next.
-/

namespace RhsCore.ApiLock

open NetWorker

/-- `API_LOCK_EVENT`. -/
def apiLockEvent : UInt32 := 1

/-! ## Messages -/

/-- A call, with what it was called with. -/
inductive Request
  | netStartListener (uri : String) (fn : MgEventHandler) (context : NetWorker.Context)
  | netStopListener (uri : String)
  | netSetConfig (config : NetConfig)

/-- What the worker does with the message of a call. -/
def Request.process (m : Mongoose) (listens : ℕ → Bool) (s : ConfiguredNet) :
    Request → ConfiguredNet
  | .netStartListener uri fn context =>
      { s with toNet := netWorker m (listens 0) s.toNet (.setTcp uri fn context) }
  | .netStopListener uri => { s with toNet := netWorker m (listens 0) s.toNet (.rstTcp uri) }
  | .netSetConfig config => netWorkerRestart m listens config s

/-- The message of a call, with the number of its lock. -/
structure NetApiEventMessage where
  lock : ℕ
  data : Request

/-! ## Threads, the worker and the scheduler -/

variable {Thread : Type}

/-- An event group: its bits, and who waits for `API_LOCK_EVENT`. -/
structure Lock (Thread : Type) where
  bits : UInt32
  waiting : List Thread

/-- How far a call has come. -/
inductive Stage
  /-- In `rhs_message_queue_put`. -/
  | putting
  /-- Before `xEventGroupWaitBits` looks at the bits. -/
  | waiting
  /-- Blocked in it. -/
  | blocked
  /-- Before `api_lock_free`. -/
  | woken
  deriving DecidableEq

inductive Pc
  | idle
  | calling (stage : Stage) (msg : NetApiEventMessage)

/-- The next thing to do in `rhs_event_flag_set`. -/
inductive Unlock
  | suspendAll
  /-- `xEventGroupSetBits` holds the scheduler once more. -/
  | suspendAgain
  | setBits
  | resumeAgain
  /-- It reads the bits for its result. -/
  | getBits
  | resumeAll
  deriving DecidableEq

inductive WorkerPc
  | polling
  | processing (msg : NetApiEventMessage)
  | unlocking (unlock : Unlock) (msg : NetApiEventMessage)

structure State (Thread : Type) where
  net : ConfiguredNet
  queue : List NetApiEventMessage
  locks : ℕ → Option (Lock Thread)
  /-- The number of the next lock. -/
  next : ℕ
  /-- How often the worker holds the scheduler. -/
  suspended : ℕ
  threads : Thread → Pc
  worker : WorkerPc
  /-- A lock was used that was not there, or by the worker when its waiter could have run. -/
  fault : Bool
  /-- The messages that were queued, and those processed, with the listens that succeeded. -/
  queued : List NetApiEventMessage
  processed : List (NetApiEventMessage × (ℕ → Bool))
  /-- The locks whose bit was set, and those whose waiter has been able to run since. -/
  unlocked : List ℕ
  able : List ℕ
  /-- The messages of the calls that have returned. -/
  returned : List NetApiEventMessage

/-- After `eth_net_start`. -/
def State.init (net : ConfiguredNet) : State Thread where
  net := net
  queue := []
  locks := fun _ => none
  next := 0
  suspended := 0
  threads := fun _ => .idle
  worker := .polling
  fault := false
  queued := []
  processed := []
  unlocked := []
  able := []
  returned := []

/-! ## The worker -/

/-- `vTaskSuspendAll`. -/
def State.suspend (s : State Thread) : State Thread := { s with suspended := s.suspended + 1 }

/-- `xTaskResumeAll`: the tasks that are ready can run when nobody holds the scheduler. -/
def State.resume (s : State Thread) : State Thread :=
  { s with
    suspended := s.suspended - 1
    able := if s.suspended - 1 = 0 then s.unlocked else s.able }

/-- The worker uses a lock. -/
def State.touch (s : State Thread) (id : ℕ) : State Thread :=
  { s with fault := s.fault || (s.locks id).isNone || decide (id ∈ s.able) }

variable [DecidableEq Thread]

/-- A thread that was blocked is ready. -/
def Pc.ready : Pc → Pc
  | .calling .blocked msg => .calling .woken msg
  | pc => pc

/-- `xEventGroupSetBits`, from the setting of the bit to its clearing for those that waited
for it. -/
def State.setBits (s : State Thread) (id : ℕ) : State Thread :=
  match s.locks id with
  | none => s
  | some lock =>
      let bits := eventGroupSetBits lock.bits apiLockEvent
      let bits := if lock.waiting = [] then bits else bits &&& ~~~ apiLockEvent
      let unlocked := s.unlocked ++ [id]
      { s with
        locks := Function.update s.locks id (some { bits := bits, waiting := [] })
        threads := fun t => if t ∈ lock.waiting then (s.threads t).ready else s.threads t
        unlocked := unlocked
        able := if s.suspended = 0 then unlocked else s.able }

/-- The next step of the worker. -/
def runWorker (m : Mongoose) (listens : ℕ → Bool) (s : State Thread) : Option (State Thread) :=
  match s.worker with
  | .polling =>
      match s.queue with
      | [] => none
      | msg :: rest => some { s with queue := rest, worker := .processing msg }
  | .processing msg =>
      some { s with
        net := msg.data.process m listens s.net
        processed := s.processed ++ [(msg, listens)]
        worker := .unlocking .suspendAll msg }
  | .unlocking .suspendAll msg =>
      some { s.suspend with worker := .unlocking .suspendAgain msg }
  | .unlocking .suspendAgain msg => some { s.suspend with worker := .unlocking .setBits msg }
  | .unlocking .setBits msg =>
      some { (s.touch msg.lock).setBits msg.lock with worker := .unlocking .resumeAgain msg }
  | .unlocking .resumeAgain msg => some { s.resume with worker := .unlocking .getBits msg }
  | .unlocking .getBits msg =>
      some { s.touch msg.lock with worker := .unlocking .resumeAll msg }
  | .unlocking .resumeAll _ => some { s.resume with worker := .polling }

/-! ## A thread -/

def State.goto (s : State Thread) (t : Thread) (pc : Pc) : State Thread :=
  { s with threads := Function.update s.threads t pc }

/-- `xEventGroupWaitBits`, when it looks at the bits: the bit is cleared, or the thread
blocks. -/
def State.waitBits (s : State Thread) (t : Thread) (msg : NetApiEventMessage) : State Thread :=
  match s.locks msg.lock with
  | none => { s with fault := true }
  | some lock =>
      match eventGroupWaitBits apiLockEvent true false lock.bits with
      | some (_, bits) =>
          { s with
            locks := Function.update s.locks msg.lock (some { lock with bits := bits }) }.goto t
              (.calling .woken msg)
      | none =>
          { s with
            locks := Function.update s.locks msg.lock
              (some { lock with waiting := lock.waiting ++ [t] }) }.goto t (.calling .blocked msg)

/-- `api_lock_free`, and the call returns. -/
def State.freeLock (s : State Thread) (t : Thread) (msg : NetApiEventMessage) : State Thread :=
  { s with
    fault := s.fault || (s.locks msg.lock).isNone
    locks := Function.update s.locks msg.lock none
    returned := s.returned ++ [msg] }.goto t .idle

/-- The next step of a thread in a call. -/
def runThread (s : State Thread) (t : Thread) : Option (State Thread) :=
  match s.threads t with
  | .idle => none
  | .calling .putting msg =>
      if s.queue.length < NetApi.queueSize then
        some ({ s with queue := s.queue ++ [msg], queued := s.queued ++ [msg] }.goto t
          (.calling .waiting msg))
      else none
  | .calling .waiting msg => some (s.waitBits t msg)
  | .calling .blocked _ => none
  | .calling .woken msg => some (s.freeLock t msg)

/-- A call begins: `api_lock_alloc_locked`. -/
def startCall (s : State Thread) (t : Thread) (data : Request) : Option (State Thread) :=
  match s.threads t with
  | .idle =>
      some ({ s with
        locks := Function.update s.locks s.next (some { bits := 0, waiting := [] })
        next := s.next + 1 }.goto t (.calling .putting { lock := s.next, data := data }))
  | _ => none

/-! ## Steps -/

inductive Action (Thread : Type)
  | call (t : Thread) (data : Request)
  | thread (t : Thread)
  | worker (listens : ℕ → Bool)

/-- Anybody's step; while the worker holds the scheduler, no other thread runs. -/
def step (m : Mongoose) (s : State Thread) : Action Thread → Option (State Thread)
  | .call t data => if s.suspended = 0 then startCall s t data else none
  | .thread t => if s.suspended = 0 then runThread s t else none
  | .worker listens => runWorker m listens s

end RhsCore.ApiLock
