import RhsCore.Core.Mutex

/-!
# The event flag wrapper

`core/event_flag.c` over the kernel's event group.  The kernel keeps 24 bits; a wait
returns all of them as they were when what it waits for was there.

## Main definitions

* `eventGroupWaitBits` — what the kernel's wait returns and what it clears.
* `rhsEventFlagWait` — the wrapper's status word over it.
* `or_and_eq_zero_iff` — setting bits, seen through a mask.
-/

namespace RhsCore

/-! ## `RHSFlag` and `RHSStatus` -/

def rhsFlagWaitAny : UInt32 := 0
def rhsFlagWaitAll : UInt32 := 1
def rhsFlagNoClear : UInt32 := 2
def rhsStatusErrorTimeout : UInt32 := 0xFFFFFFFE
def rhsStatusErrorResource : UInt32 := 0xFFFFFFFD

/-! ## Waiting -/

/-- What a wait waits for is there. -/
def eventBitsThere (waitFor : UInt32) (all : Bool) (bits : UInt32) : Bool :=
  if all then bits &&& waitFor = waitFor else bits &&& waitFor ≠ 0

/-- `xEventGroupWaitBits`, if what it waits for is there: the bits it returns, and those
left in the group. -/
def eventGroupWaitBits (waitFor : UInt32) (clear all : Bool) (bits : UInt32) :
    Option (UInt32 × UInt32) :=
  if eventBitsThere waitFor all bits then
    some (bits, if clear then bits &&& ~~~ waitFor else bits)
  else none

/-- `rhs_event_flag_wait`, given the bits the kernel's wait came back with. -/
def rhsEventFlagWait (flags options timeout rflags : UInt32) : UInt32 :=
  if options &&& rhsFlagWaitAll ≠ 0 then
    if flags &&& rflags ≠ flags then
      if timeout > 0 then rhsStatusErrorTimeout else rhsStatusErrorResource
    else rflags
  else
    if flags &&& rflags = 0 then
      if timeout > 0 then rhsStatusErrorTimeout else rhsStatusErrorResource
    else rflags

/-- When what it waits for is there, the wrapper passes the bits on. -/
theorem rhsEventFlagWait_eq {flags options bits : UInt32} (timeout : UInt32)
    (h : eventBitsThere flags (options &&& rhsFlagWaitAll ≠ 0) bits = true) :
    rhsEventFlagWait flags options timeout bits = bits := by
  by_cases hall : options &&& rhsFlagWaitAll ≠ 0
  · rw [eventBitsThere, if_pos (decide_eq_true hall), decide_eq_true_eq, UInt32.and_comm] at h
    rw [rhsEventFlagWait, if_pos hall, if_neg (not_not.mpr h)]
  · rw [eventBitsThere, if_neg (by simpa using hall), decide_eq_true_eq, UInt32.and_comm] at h
    rw [rhsEventFlagWait, if_neg hall, if_neg h]

/-- When it is not, the wrapper returns an error. -/
theorem rhsEventFlagWait_eq_error {flags options bits : UInt32} (timeout : UInt32)
    (h : eventBitsThere flags (options &&& rhsFlagWaitAll ≠ 0) bits = false) :
    rhsEventFlagWait flags options timeout bits =
      if timeout > 0 then rhsStatusErrorTimeout else rhsStatusErrorResource := by
  by_cases hall : options &&& rhsFlagWaitAll ≠ 0
  · rw [eventBitsThere, if_pos (decide_eq_true hall), decide_eq_false_iff_not,
      UInt32.and_comm] at h
    rw [rhsEventFlagWait, if_pos hall, if_pos h]
  · rw [eventBitsThere, if_neg (by simpa using hall), decide_eq_false_iff_not, not_not,
      UInt32.and_comm] at h
    rw [rhsEventFlagWait, if_neg hall, if_pos h]

/-! ## Setting -/

/-- What `rhs_event_flag_set` does to the group once the kernel carries it out. -/
def eventGroupSetBits (bits flags : UInt32) : UInt32 := bits ||| flags

theorem or_and_eq_zero_iff (b k t : UInt32) : (b ||| k) &&& t = 0 ↔ b &&& t = 0 ∧ k &&& t = 0 := by
  simp only [← UInt32.toBitVec_inj, UInt32.toBitVec_and, UInt32.toBitVec_or,
    UInt32.toBitVec_zero, BitVec.and_or_distrib_right, BitVec.or_eq_zero_iff]

end RhsCore
