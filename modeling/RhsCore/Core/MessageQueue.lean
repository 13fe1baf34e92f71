import Mathlib.Data.Nat.Notation
import RhsCore.Core.Mutex

/-!
# The message queue wrapper

`core/message_queue.c` over the kernel's queue, which copies messages in and out: a
list, and how many messages it may hold.

## Main definitions

* `rhsMessageQueuePut`, `rhsMessageQueueGet` — the status, and the queue afterwards.
-/

namespace RhsCore

variable {α : Type}

/-- `rhs_message_queue_put`, with the queue as it is when the kernel stops waiting. -/
def rhsMessageQueuePut (ctx : Context) (timeout : UInt32) (capacity : ℕ) (queue : List α)
    (msg : α) : RHSStatus × List α :=
  match ctx with
  | .irq =>
      if timeout ≠ 0 then (.errorParameter, queue)
      else if queue.length < capacity then (.ok, queue ++ [msg])
      else (.errorResource, queue)
  | .task =>
      if queue.length < capacity then (.ok, queue ++ [msg])
      else (if timeout ≠ 0 then .errorTimeout else .errorResource, queue)

/-- `rhs_message_queue_get`, with the queue as it is when the kernel stops waiting: the
status, the message copied out if there is one, and the queue afterwards. -/
def rhsMessageQueueGet (ctx : Context) (timeout : UInt32) (queue : List α) :
    RHSStatus × Option α × List α :=
  match ctx with
  | .irq =>
      if timeout ≠ 0 then (.errorParameter, none, queue)
      else
        match queue with
        | [] => (.errorResource, none, [])
        | msg :: rest => (.ok, some msg, rest)
  | .task =>
      match queue with
      | [] => (if timeout ≠ 0 then .errorTimeout else .errorResource, none, [])
      | msg :: rest => (.ok, some msg, rest)

/-- Without waiting, a put appends the message if there is room and drops it if not. -/
theorem rhsMessageQueuePut_zero (ctx : Context) (capacity : ℕ) (queue : List α) (msg : α) :
    rhsMessageQueuePut ctx 0 capacity queue msg =
      if queue.length < capacity then (.ok, queue ++ [msg]) else (.errorResource, queue) := by
  cases ctx <;> simp [rhsMessageQueuePut]

/-- Without waiting, a get fails exactly on the empty queue. -/
theorem rhsMessageQueueGet_zero_nil (ctx : Context) :
    rhsMessageQueueGet ctx 0 ([] : List α) = (.errorResource, none, []) := by
  cases ctx <;> simp [rhsMessageQueueGet]

theorem rhsMessageQueueGet_cons (ctx : Context) (msg : α) (rest : List α) :
    rhsMessageQueueGet ctx 0 (msg :: rest) = (.ok, some msg, rest) := by
  cases ctx <;> simp [rhsMessageQueueGet]

end RhsCore
