import Mathlib.Data.List.Induction

/-!
# Frames in a stream that arrives in segments

A `Framing` cuts the first frame off a buffer, once the buffer holds all of it.  It
must be stable: bytes that arrive later do not change a frame that is already there.
Then the frames of a stream do not depend on how it was segmented, and a receiver is
judged by how its run relates to them.

The receiver studied here takes at most one frame for each segment that arrives.

## Main definitions

* `Framing` — how the first frame of a buffer is found.
* `Framing.frames`, `Framing.leftover` — all complete frames of a buffer, and the rest.
* `Framing.takeOne` — the receiver; `Framing.run` — its run over segments.
* `Framing.settled_iff` — when it has taken every complete frame at every point.
-/

namespace RhsCore

/-- How the first complete frame is cut off a buffer. -/
structure Framing (α : Type) where
  next : List α → Option (List α × List α)
  split : ∀ {buf f rest}, next buf = some (f, rest) → buf = f ++ rest ∧ f ≠ []
  stable : ∀ {buf f rest}, next buf = some (f, rest) → ∀ more, next (buf ++ more) =
    some (f, rest ++ more)

namespace Framing

variable {α : Type} (F : Framing α)

theorem length_rest_lt {buf f rest : List α} (h : F.next buf = some (f, rest)) :
    rest.length < buf.length := by
  obtain ⟨rfl, hne⟩ := F.split h
  have hpos := List.length_pos_iff.mpr hne
  rw [List.length_append]
  omega

theorem next_nil : F.next [] = none := by
  rcases h : F.next [] with _ | ⟨f, rest⟩
  · rfl
  · obtain ⟨hnil, hne⟩ := F.split h
    exact absurd (List.append_eq_nil_iff.mp hnil.symm).1 hne

/-! ## All frames of a buffer -/

/-- The complete frames of a buffer, in order, and what is left behind them. -/
def cut (buf : List α) : List (List α) × List α :=
  match h : F.next buf with
  | none => ([], buf)
  | some (f, rest) =>
      have := F.length_rest_lt h
      (f :: (cut rest).1, (cut rest).2)
termination_by buf.length

/-- The complete frames of a buffer, in order. -/
def frames (buf : List α) : List (List α) := (F.cut buf).1

/-- What is left behind the last complete frame. -/
def leftover (buf : List α) : List α := (F.cut buf).2

theorem cut_of_none {buf : List α} (h : F.next buf = none) : F.cut buf = ([], buf) := by
  rw [cut]
  split
  · rfl
  · rename_i heq
    rw [h] at heq
    cases heq

theorem cut_of_some {buf f rest : List α} (h : F.next buf = some (f, rest)) :
    F.cut buf = (f :: F.frames rest, F.leftover rest) := by
  rw [cut]
  split
  · rename_i heq
    rw [h] at heq
    cases heq
  · rename_i heq
    rw [h] at heq
    cases heq
    rfl

theorem frames_of_none {buf : List α} (h : F.next buf = none) : F.frames buf = [] := by
  rw [frames, cut_of_none F h]

theorem leftover_of_none {buf : List α} (h : F.next buf = none) : F.leftover buf = buf := by
  rw [leftover, cut_of_none F h]

theorem frames_of_some {buf f rest : List α} (h : F.next buf = some (f, rest)) :
    F.frames buf = f :: F.frames rest := by
  rw [frames, cut_of_some F h]

theorem leftover_of_some {buf f rest : List α} (h : F.next buf = some (f, rest)) :
    F.leftover buf = F.leftover rest := by
  rw [leftover, cut_of_some F h]

/-- No frame is complete exactly when there is none to cut off. -/
theorem frames_eq_nil_iff {buf : List α} : F.frames buf = [] ↔ F.next buf = none := by
  rcases h : F.next buf with _ | ⟨f, rest⟩
  · simp [frames_of_none F h]
  · simp [frames_of_some F h]

/-- **Bytes that arrive later** leave the complete frames as they are, and go to what was
left over. -/
theorem cut_append (buf more : List α) :
    F.frames (buf ++ more) = F.frames buf ++ F.frames (F.leftover buf ++ more) ∧
      F.leftover (buf ++ more) = F.leftover (F.leftover buf ++ more) := by
  induction hn : buf.length using Nat.strongRecOn generalizing buf with
  | ind n ih =>
      rcases h : F.next buf with _ | ⟨f, rest⟩
      · rw [frames_of_none F h, leftover_of_none F h]
        exact ⟨rfl, rfl⟩
      · obtain ⟨hframes, hleft⟩ := ih rest.length (hn ▸ F.length_rest_lt h) rest rfl
        rw [frames_of_some F h, leftover_of_some F h, frames_of_some F (F.stable h more),
          leftover_of_some F (F.stable h more), hframes, hleft]
        exact ⟨rfl, rfl⟩

/-! ## One frame a segment -/

/-- A segment arrives: it is appended to the buffer, and at most one frame is taken. -/
def takeOne (s : List (List α) × List α) (seg : List α) : List (List α) × List α :=
  match F.next (s.2 ++ seg) with
  | some (f, rest) => (s.1 ++ [f], rest)
  | none => (s.1, s.2 ++ seg)

/-- The frames taken and the buffer, after segments have arrived. -/
def run (segs : List (List α)) : List (List α) × List α := segs.foldl F.takeOne ([], [])

theorem run_snoc (segs : List (List α)) (seg : List α) :
    F.run (segs ++ [seg]) = F.takeOne (F.run segs) seg := by
  simp [run]

/-- **Nothing is lost, repeated or reordered**: the frames taken and those still in the
buffer are the frames of the stream. -/
theorem run_frames (segs : List (List α)) :
    (F.run segs).1 ++ F.frames (F.run segs).2 = F.frames segs.flatten ∧
      F.leftover (F.run segs).2 = F.leftover segs.flatten := by
  induction segs using List.reverseRecOn with
  | nil => exact ⟨rfl, rfl⟩
  | append_singleton segs seg ih =>
      obtain ⟨hframes, hleft⟩ := ih
      obtain ⟨hcut, hcut'⟩ := F.cut_append segs.flatten seg
      obtain ⟨hbuf, hbuf'⟩ := F.cut_append (F.run segs).2 seg
      rw [run_snoc, List.flatten_append, List.flatten_singleton, hcut, hcut', ← hframes, ← hleft,
        List.append_assoc, ← hbuf, ← hbuf', takeOne]
      rcases h : F.next ((F.run segs).2 ++ seg) with _ | ⟨f, rest⟩
      · exact ⟨rfl, rfl⟩
      · rw [frames_of_some F h, leftover_of_some F h]
        simp

/-- Every complete frame of the stream has been taken, and none is left in the buffer. -/
def Settled (segs : List (List α)) : Prop :=
  (F.run segs).1 = F.frames segs.flatten ∧ F.next (F.run segs).2 = none

/-- Each segment completes at most one frame. -/
def OneAtATime (segs : List (List α)) : Prop :=
  ∀ pre seg, pre ++ [seg] <+: segs →
    (F.frames (pre.flatten ++ seg)).length ≤ (F.frames pre.flatten).length + 1

/-- A segment takes at most one frame. -/
theorem length_takeOne_le (s : List (List α) × List α) (seg : List α) :
    (F.takeOne s seg).1.length ≤ s.1.length + 1 := by
  rw [takeOne]
  split <;> simp

/-- From a settled state, a segment that completes at most one frame leads to a settled
state. -/
theorem Settled.snoc {segs : List (List α)} {seg : List α} (h : F.Settled segs)
    (hone : (F.frames (segs.flatten ++ seg)).length ≤ (F.frames segs.flatten).length + 1) :
    F.Settled (segs ++ [seg]) := by
  have hframes := (F.run_frames (segs ++ [seg])).1
  rw [List.flatten_append, List.flatten_singleton] at hframes
  have hnone : F.next (F.run (segs ++ [seg])).2 = none := by
    rw [run_snoc, takeOne] at hframes ⊢
    rcases hnext : F.next ((F.run segs).2 ++ seg) with _ | ⟨f, rest⟩
    · exact hnext
    · rw [hnext] at hframes
      rw [← hframes, ← h.1] at hone
      simp only [List.length_append, List.length_singleton] at hone
      change F.next rest = none
      exact (frames_eq_nil_iff F).mp (List.eq_nil_of_length_eq_zero (by omega))
  refine ⟨?_, hnone⟩
  rw [frames_of_none F hnone, List.append_nil] at hframes
  rw [hframes, List.flatten_append, List.flatten_singleton]

/-- **The receiver keeps up**, at every point of a run, exactly when each segment completes
at most one frame. -/
theorem settled_iff (segs : List (List α)) :
    (∀ pre, pre <+: segs → F.Settled pre) ↔ F.OneAtATime segs := by
  constructor
  · intro h pre seg hpre
    have hlast := (h _ hpre).1
    rw [List.flatten_append, List.flatten_singleton, run_snoc] at hlast
    rw [← hlast, ← (h pre ((List.prefix_append pre [seg]).trans hpre)).1]
    exact F.length_takeOne_le _ _
  · intro h pre
    induction pre using List.reverseRecOn with
    | nil =>
        intro _
        exact ⟨(frames_of_none F F.next_nil).symm, F.next_nil⟩
    | append_singleton pre seg ih =>
        intro hpre
        exact (ih ((List.prefix_append pre [seg]).trans hpre)).snoc F (h pre seg hpre)

end Framing
end RhsCore
