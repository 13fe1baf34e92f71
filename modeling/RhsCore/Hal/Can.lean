import Mathlib.Data.Vector.Basic

/-!
# CAN frames and interfaces

The part of `hal/rhs_hal_can` the CANopen service uses.  What the controller does with
a frame, `rcan_send`, belongs to the driver library; whether it took the frame is an
input here.

## Main definitions

* `RHSHalCANFrameType`, `RHSHalCANId` — a frame, and the interfaces.
* `rhsHalCanTx` — hands a frame to the controller of an enabled interface.
-/

namespace RhsCore

/-- `RHSHalCANId`, on the boards with two interfaces. -/
inductive RHSHalCANId
  | id1
  | id2
  deriving DecidableEq, Repr

/-- `FrameType`. -/
inductive FrameType
  | no
  | stdId
  | extId
  deriving DecidableEq, Repr

/-- The eight bytes of a frame. -/
abbrev Payload := Vector UInt8 8

/-- `RHSHalCANFrameType`. -/
structure RHSHalCANFrameType where
  id : UInt32
  len : UInt8
  type : FrameType
  rtr : Bool
  payload : Payload
  deriving DecidableEq, Repr

/-- `RHSHalCANFrameType frame = {0}`. -/
def RHSHalCANFrameType.zero : RHSHalCANFrameType :=
  { id := 0, len := 0, type := .no, rtr := false, payload := Vector.replicate 8 0 }

/-- `memcpy` of the first `len` bytes of one payload over another, for a `len` of at most 8;
beyond that the source copies what lies behind the payloads as well. -/
def copyPayload (dst src : Payload) (len : UInt8) : Payload :=
  Vector.ofFn fun i => if i.val < len.toNat then src[i] else dst[i]

/-- A copy of a copy is a copy of the first. -/
theorem copyPayload_copyPayload (dst dst' src : Payload) (len : UInt8) :
    copyPayload dst (copyPayload dst' src len) len = copyPayload dst src len := by
  apply Vector.ext
  intro i hi
  by_cases hlen : i < len.toNat
  · simp [copyPayload, hlen]
  · simp [copyPayload, hlen]

/-- The frame `rhs_hal_can_tx` makes for the driver: what lies behind `len` is zero. -/
def rcanFrame (frame : RHSHalCANFrameType) : RHSHalCANFrameType :=
  { frame with payload := copyPayload (Vector.replicate 8 0) frame.payload frame.len }

/-- `rhs_hal_can_tx`: `none` when its assertion fails, else whether the frame was taken,
and the frame the driver was given. -/
def rhsHalCanTx (enabled : Bool) (frame : RHSHalCANFrameType) (rcanSend : Bool) :
    Option (Bool × RHSHalCANFrameType) :=
  if enabled then some (rcanSend, rcanFrame frame) else none

end RhsCore
