import RhsCore.Lib.Framing
import RhsCore.Modbus.Tables

/-!
# From the TCP stream to the requests

`modbus_ev_handler` of `modbus_tcp.c`.  TCP delivers a connection's bytes in segments;
each is appended to the receive buffer, and an event is raised.  The handler looks at
the head of the buffer once: it hands over at most one request for an event, and a
second one that is already there waits for the next segment.

## Main definitions

* `modbusEvHandler` — one event.
* `mbapFraming` — what a complete MBAP frame is.
* `received segs` — a connection after segments have arrived.
-/

namespace RhsCore.Modbus

/-! ## The handler -/

/-- The events of a connection: `MG_EV_READ`, or any other. -/
inductive MgEvent
  | read
  | other
  deriving DecidableEq, Repr

/-- `modbus_ev_handler`: what is given to `handle_modbus_pdu`, if anything, and the receive
buffer afterwards. -/
def modbusEvHandler (ev : MgEvent) (recv : List UInt8) : Option (List UInt8) × List UInt8 :=
  if ev = .read then
    if recv.length < 7 then (none, recv)
    else
      let len := mgNtohs (recv.getD 4 0) (recv.getD 5 0)
      if recv.length < len.toNat + 6 then (none, recv)
      else (some (recv.take (len.toNat + 6)), recv.drop (len.toNat + 6))
  else (none, recv)

/-- A connection: the receive buffer, and the requests handed over so far. -/
structure Connection where
  recv : List UInt8 := []
  handed : List (List UInt8) := []

/-- A segment is appended to the receive buffer, and the event is raised. -/
def Connection.receive (c : Connection) (seg : List UInt8) : Connection :=
  let r := modbusEvHandler .read (c.recv ++ seg)
  { recv := r.2, handed := c.handed ++ r.1.toList }

/-- A connection after segments have arrived. -/
def received (segs : List (List UInt8)) : Connection := segs.foldl Connection.receive {}

/-! ## Complete frames -/

/-- The size of the frame that starts with a header: the length field counts from the unit
on. -/
def frameSize (buf : List UInt8) : ℕ := (mgNtohs (buf.getD 4 0) (buf.getD 5 0)).toNat + 6

/-- A frame is complete when its seven bytes of header are there, and as many bytes as the
header says. -/
def mbapNext (buf : List UInt8) : Option (List UInt8 × List UInt8) :=
  if 7 ≤ buf.length ∧ frameSize buf ≤ buf.length then
    some (buf.take (frameSize buf), buf.drop (frameSize buf))
  else none

/-- Later bytes do not change a header. -/
theorem frameSize_append {buf : List UInt8} (h : 7 ≤ buf.length) (more : List UInt8) :
    frameSize (buf ++ more) = frameSize buf := by
  simp only [frameSize]
  rw [List.getD_append _ _ _ _ (by omega), List.getD_append _ _ _ _ (by omega)]

/-- MBAP frames in a stream. -/
def mbapFraming : Framing UInt8 where
  next := mbapNext
  split := by
    intro buf f rest h
    simp only [mbapNext, Option.ite_none_right_eq_some, Option.some.injEq, Prod.mk.injEq] at h
    obtain ⟨⟨h7, hsize⟩, rfl, rfl⟩ := h
    refine ⟨(List.take_append_drop _ _).symm, fun hnil => ?_⟩
    have hlen := congrArg List.length hnil
    rw [List.length_take, List.length_nil, frameSize] at hlen
    omega
  stable := by
    intro buf f rest h more
    simp only [mbapNext, Option.ite_none_right_eq_some, Option.some.injEq, Prod.mk.injEq] at h
    obtain ⟨⟨h7, hsize⟩, rfl, rfl⟩ := h
    rw [mbapNext, frameSize_append h7, if_pos (by rw [List.length_append]; omega),
      List.take_append_of_le_length hsize, List.drop_append_of_le_length hsize]

/-- The handler takes the frame at the head of the buffer, if it is complete. -/
theorem modbusEvHandler_read (recv : List UInt8) :
    modbusEvHandler .read recv =
      match mbapNext recv with
      | some (f, rest) => (some f, rest)
      | none => (none, recv) := by
  have hcode : modbusEvHandler .read recv =
      if recv.length < 7 then (none, recv)
      else if recv.length < frameSize recv then (none, recv)
      else (some (recv.take (frameSize recv)), recv.drop (frameSize recv)) := rfl
  rw [hcode, mbapNext]
  by_cases h7 : recv.length < 7
  · rw [if_pos h7, if_neg (by omega)]
  · rw [if_neg h7]
    by_cases hsize : recv.length < frameSize recv
    · rw [if_pos hsize, if_neg (by omega)]
    · rw [if_neg hsize, if_pos (by omega)]

/-- A connection is a receiver that takes one frame a segment. -/
theorem received_eq_run (segs : List (List UInt8)) :
    ((received segs).handed, (received segs).recv) = mbapFraming.run segs := by
  induction segs using List.reverseRecOn with
  | nil => rfl
  | append_singleton segs seg ih =>
      have hstep : received (segs ++ [seg]) = (received segs).receive seg := by simp [received]
      rw [hstep, Framing.run_snoc, ← ih, Connection.receive, modbusEvHandler_read]
      rcases h : mbapNext ((received segs).recv ++ seg) with _ | ⟨f, rest⟩
      · have hnext : mbapFraming.next ((received segs).recv ++ seg) = none := h
        simp [Framing.takeOne, hnext]
      · have hnext : mbapFraming.next ((received segs).recv ++ seg) = some (f, rest) := h
        simp [Framing.takeOne, hnext]

/-- **No request is lost, repeated or reordered**: those handed over, followed by those
still in the buffer, are the frames of the stream. -/
theorem handed_append_pending (segs : List (List UInt8)) :
    (received segs).handed ++ mbapFraming.frames (received segs).recv =
      mbapFraming.frames segs.flatten := by
  have h := (mbapFraming.run_frames segs).1
  rwa [← received_eq_run] at h

/-- **The connection keeps up with the stream**, after every event, exactly when no segment
completes more than one frame. -/
theorem received_keeps_up_iff (segs : List (List UInt8)) :
    (∀ pre, pre <+: segs → (received pre).handed = mbapFraming.frames pre.flatten ∧
      mbapNext (received pre).recv = none) ↔ mbapFraming.OneAtATime segs := by
  rw [← mbapFraming.settled_iff]
  refine forall₂_congr fun pre _ => ?_
  rw [Framing.Settled, ← received_eq_run]
  rfl

/-- Two requests in one segment: the second is complete, and stays in the buffer. -/
theorem pipelined_request_waits :
    (received [[0, 1, 0, 0, 0, 6, 1, 1, 0, 0, 0, 1, 0, 2, 0, 0, 0, 6, 1, 1, 0, 0, 0, 1]]).handed =
        [[0, 1, 0, 0, 0, 6, 1, 1, 0, 0, 0, 1]] ∧
      mbapNext (received
        [[0, 1, 0, 0, 0, 6, 1, 1, 0, 0, 0, 1, 0, 2, 0, 0, 0, 6, 1, 1, 0, 0, 0, 1]]).recv =
        some ([0, 2, 0, 0, 0, 6, 1, 1, 0, 0, 0, 1], []) := by
  decide

end RhsCore.Modbus
