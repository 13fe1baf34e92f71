import RhsCore.Lib.Transition
import Mathlib.Data.Nat.Notation
import Mathlib.Logic.Function.Basic

/-!
# Calls of the network service from several threads

The functions of `net.h` put a message into the queue of the worker and wait on a lock for
it to be processed, unless they find that they are on the worker's own thread.  Mongoose
calls its handlers from `mg_mgr_poll`, on the worker, and a handler may call them too.

## Main definitions

* `Call`, `Call.message` — the functions, and what they queue.
* `State`, `Action`, `step` — threads that call, and the worker.
* `Move` — what a step does.
-/

namespace RhsCore.NetApi

/-! ## The functions -/

inductive NetApiEventType
  | setHttp
  | setTcp
  | rstTcp
  | restart
  | stop
  deriving DecidableEq, Repr

/-- A message, as far as its processing wakes somebody up. -/
structure NetApiEventMessage (Lock : Type) where
  lock : Option Lock
  type : NetApiEventType
  deriving DecidableEq, Repr

inductive Call
  | netStartHttp
  | netStartListener
  | netStopListener
  | netSetConfig
  | netStop
  deriving DecidableEq, Repr

def Call.type : Call → NetApiEventType
  | .netStartHttp => .setHttp
  | .netStartListener => .setTcp
  | .netStopListener => .rstTcp
  | .netSetConfig => .restart
  | .netStop => .stop

/-- Whether the call allocates a lock and waits on it: `net_start_http` does on any thread,
and `net_stop` on none. -/
def Call.locks : Call → (onWorker : Bool) → Bool
  | .netStartHttp, _ => true
  | .netStartListener, onWorker | .netStopListener, onWorker | .netSetConfig, onWorker =>
      !onWorker
  | .netStop, _ => false

def Call.message {Lock : Type} (c : Call) (onWorker : Bool) (lock : Lock) :
    NetApiEventMessage Lock where
  lock := if c.locks onWorker then some lock else none
  type := c.type

/-- `rhs_message_queue_alloc(3, sizeof(NetApiEventMessage))`. -/
def queueSize : ℕ := 3

/-! ## Threads and the worker -/

variable {Thread : Type}

/-- Who allocated a lock. -/
inductive Caller (Thread : Type)
  | worker
  | thread (t : Thread)
  deriving DecidableEq

/-- A thread other than the worker. -/
inductive Pc
  | idle
  /-- In `rhs_message_queue_put`. -/
  | putting (c : Call)
  /-- In `api_lock_wait_unlock`, and the lock is locked. -/
  | waiting
  /-- There too, and it is unlocked. -/
  | unlocked
  deriving DecidableEq

abbrev Message (Thread : Type) := NetApiEventMessage (Caller Thread)

/-- The worker; `current` is the message it is processing. -/
inductive WorkerPc (Thread : Type)
  /-- In the loop of `net_worker`, where Mongoose may call handlers. -/
  | polling (current : Option (Message Thread))
  /-- A handler is in `rhs_message_queue_put`. -/
  | putting (current : Option (Message Thread)) (c : Call)
  /-- A handler is in `api_lock_wait_unlock`. -/
  | waiting (current : Option (Message Thread))
  /-- It has left its loop. -/
  | terminated

structure State (Thread : Type) where
  queue : List (Message Thread)
  threads : Thread → Pc
  worker : WorkerPc Thread

inductive Action (Thread : Type)
  /-- A thread calls a function. -/
  | call (t : Thread) (c : Call)
  /-- Its message is queued. -/
  | put (t : Thread)
  /-- It returns from the wait. -/
  | wake (t : Thread)
  /-- A handler calls a function. -/
  | handler (c : Call)
  /-- The handler's message is queued. -/
  | workerPut
  /-- The worker takes a message. -/
  | take
  /-- It has processed the message, and unlocks its lock. -/
  | finish

def init : State Thread where
  queue := []
  threads := fun _ => .idle
  worker := .polling none

variable [DecidableEq Thread]

def State.goto (s : State Thread) (t : Thread) (pc : Pc) : State Thread :=
  { s with threads := Function.update s.threads t pc }

/-- `if (msg.lock) api_lock_unlock(msg.lock)`. -/
def State.unlock (s : State Thread) (msg : Message Thread) : State Thread :=
  match msg.lock with
  | some (.thread t) => s.goto t .unlocked
  | _ => s

def step (s : State Thread) : Action Thread → Option (State Thread)
  | .call t c =>
      match s.threads t with
      | .idle => some (s.goto t (.putting c))
      | _ => none
  | .put t =>
      match s.threads t with
      | .putting c =>
          if s.queue.length < queueSize then
            some ({ s with queue := s.queue ++ [c.message false (Caller.thread t)] }.goto t
              (if c.locks false then .waiting else .idle))
          else none
      | _ => none
  | .wake t =>
      match s.threads t with
      | .unlocked => some (s.goto t .idle)
      | _ => none
  | .handler c =>
      match s.worker with
      | .polling current => some { s with worker := .putting current c }
      | _ => none
  | .workerPut =>
      match s.worker with
      | .putting current c =>
          if s.queue.length < queueSize then
            some { s with
              queue := s.queue ++ [c.message true Caller.worker]
              worker := if c.locks true then .waiting current else .polling current }
          else none
      | _ => none
  | .take =>
      match s.worker, s.queue with
      | .polling none, msg :: rest =>
          if msg.type = .stop then some { s with queue := rest, worker := .terminated }
          else some { s with queue := rest, worker := .polling (some msg) }
      | _, _ => none
  | .finish =>
      match s.worker with
      | .polling (some msg) => some { s.unlock msg with worker := .polling none }
      | _ => none

/-! ## What a step does -/

/-- An action that happened: what made it possible, and what it did. -/
inductive Move (s : State Thread) : Action Thread → State Thread → Prop
  | call {t : Thread} {c : Call} (hpc : s.threads t = .idle) :
      Move s (.call t c) (s.goto t (.putting c))
  | put {t : Thread} {c : Call} (hpc : s.threads t = .putting c)
      (hroom : s.queue.length < queueSize) :
      Move s (.put t) ({ s with queue := s.queue ++ [c.message false (Caller.thread t)] }.goto t
        (if c.locks false then .waiting else .idle))
  | wake {t : Thread} (hpc : s.threads t = .unlocked) : Move s (.wake t) (s.goto t .idle)
  | handler {c : Call} {current : Option (Message Thread)} (hpc : s.worker = .polling current) :
      Move s (.handler c) { s with worker := .putting current c }
  | workerPut {c : Call} {current : Option (Message Thread)}
      (hpc : s.worker = .putting current c) (hroom : s.queue.length < queueSize) :
      Move s .workerPut { s with
        queue := s.queue ++ [c.message true Caller.worker]
        worker := if c.locks true then .waiting current else .polling current }
  | take {msg : Message Thread} {rest : List (Message Thread)} (hpc : s.worker = .polling none)
      (hqueue : s.queue = msg :: rest) :
      Move s .take { s with
        queue := rest
        worker := if msg.type = .stop then .terminated else .polling (some msg) }
  | finish {msg : Message Thread} (hpc : s.worker = .polling (some msg)) :
      Move s .finish { s.unlock msg with worker := .polling none }

theorem move_of_step {s s' : State Thread} {a : Action Thread} (hs : step s a = some s') :
    Move s a s' := by
  cases a with
  | call t c =>
      simp only [step] at hs
      split at hs
      · rename_i hpc
        cases hs
        exact .call hpc
      · cases hs
  | put t =>
      simp only [step] at hs
      split at hs
      · rename_i c hpc
        split at hs
        · rename_i hroom
          cases hs
          exact .put hpc hroom
        · cases hs
      · cases hs
  | wake t =>
      simp only [step] at hs
      split at hs
      · rename_i hpc
        cases hs
        exact .wake hpc
      · cases hs
  | handler c =>
      simp only [step] at hs
      split at hs
      · rename_i current hpc
        cases hs
        exact .handler hpc
      · cases hs
  | workerPut =>
      simp only [step] at hs
      split at hs
      · rename_i current c hpc
        split at hs
        · rename_i hroom
          cases hs
          exact .workerPut hpc hroom
        · cases hs
      · cases hs
  | take =>
      simp only [step] at hs
      split at hs
      · rename_i msg rest hpc hqueue
        have htake := Move.take hpc hqueue
        split at hs
        · rename_i htype
          cases hs
          rwa [if_pos htype] at htake
        · rename_i htype
          cases hs
          rwa [if_neg htype] at htake
      · cases hs
  | finish =>
      simp only [step] at hs
      split at hs
      · rename_i msg hpc
        cases hs
        exact .finish hpc
      · cases hs

end RhsCore.NetApi
