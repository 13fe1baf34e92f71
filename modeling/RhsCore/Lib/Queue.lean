import Mathlib.Data.List.Basic

/-!
# Queues with a last entry

Who is to put nothing more of its own into a queue puts one last entry there, and from then
on only what is quiet about it follows.  When that entry is taken, all that is left is quiet.

## Main definitions

* `SealedBy quiet m l` — behind the first `m` of `l` all entries are quiet.
* `SealedBy.append`, `SealedBy.of_cons`, `sealedBy_cons_self_iff` — putting and taking.
-/

namespace RhsCore

variable {α : Type} {quiet : α → Prop} {m a : α} {l : List α}

/-- There is an `m`, and behind the first all entries are quiet. -/
inductive SealedBy (quiet : α → Prop) (m : α) : List α → Prop
  | here {l : List α} (h : ∀ a ∈ l, quiet a) : SealedBy quiet m (m :: l)
  | later {a : α} {l : List α} (hne : a ≠ m) (h : SealedBy quiet m l) : SealedBy quiet m (a :: l)

/-- The last entry is put. -/
theorem sealedBy_append_self (h : m ∉ l) : SealedBy quiet m (l ++ [m]) := by
  induction l with
  | nil => exact .here (by simp)
  | cons a l ih =>
      rw [List.mem_cons, not_or] at h
      exact .later (Ne.symm h.1) (ih h.2)

/-- Another that is quiet follows. -/
theorem SealedBy.append (h : SealedBy quiet m l) (ha : quiet a) : SealedBy quiet m (l ++ [a]) := by
  induction h with
  | here h =>
      apply SealedBy.here
      intro b hb
      rcases List.mem_append.mp hb with hb | hb
      · exact h b hb
      · rwa [List.mem_singleton.mp hb]
  | later hne _ ih => exact .later hne ih

/-- An entry before the last is taken. -/
theorem SealedBy.of_cons (h : SealedBy quiet m (a :: l)) (hne : a ≠ m) : SealedBy quiet m l := by
  cases h with
  | here => exact absurd rfl hne
  | later _ h => exact h

/-- The last is taken. -/
theorem sealedBy_cons_self_iff : SealedBy quiet m (m :: l) ↔ ∀ a ∈ l, quiet a := by
  constructor
  · intro h
    cases h with
    | here h => exact h
    | later hne => exact absurd rfl hne
  · exact .here

theorem SealedBy.mem (h : SealedBy quiet m l) : m ∈ l := by
  induction h with
  | here => exact List.mem_cons_self
  | later _ _ ih => exact List.mem_cons_of_mem _ ih

end RhsCore
