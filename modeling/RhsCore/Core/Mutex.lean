import Mathlib.Logic.Basic

/-!
# Status codes, calling contexts and the mutex wrapper

`core/base.h` and `core/mutex.c`.  The wrapper adds one thing to the kernel's
semaphore: in interrupt context it refuses without touching the semaphore, and
says so only in the status it returns.
-/

namespace RhsCore

/-- `RHSStatus`. -/
inductive RHSStatus
  | ok
  | error
  | errorTimeout
  | errorResource
  | errorParameter
  | errorNoMemory
  | errorISR
  deriving DecidableEq, Repr

/-- Where a call is made from: what `RHS_IS_IRQ_MODE()` distinguishes. -/
inductive Context
  | task
  | irq
  deriving DecidableEq, Repr

/-- `RHSWaitForever`. -/
def rhsWaitForever : UInt32 := 0xFFFFFFFF

/-- `rhs_mutex_acquire`, given whether the kernel's take succeeded.  Normal and
recursive mutexes differ only in which kernel function is called. -/
def rhsMutexAcquire (ctx : Context) (timeout : UInt32) (taken : Bool) : RHSStatus :=
  match ctx with
  | .irq => .errorISR
  | .task =>
      if taken then .ok
      else if timeout ≠ 0 then .errorTimeout
      else .errorResource

/-- `rhs_mutex_release`, given whether the kernel's give succeeded. -/
def rhsMutexRelease (ctx : Context) (given : Bool) : RHSStatus :=
  match ctx with
  | .irq => .errorISR
  | .task => if given then .ok else .errorResource

end RhsCore
