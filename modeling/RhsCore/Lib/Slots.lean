import Mathlib.Data.List.Count
import Mathlib.Data.Nat.Notation

/-!
# Tables of slots

A table of a fixed number of slots, each empty or holding one entry: an entry goes into
the first empty slot, and the first slot whose entry is asked for is emptied.  Entries
are not told apart, so the table is a bag, and what a bag forgets of a set shows in its
counts.

## Main definitions

* `Slots.fill` — the first empty slot takes an entry.
* `Slots.clear` — the first slot with a wanted entry is emptied.
* `Slots.mem_fill_iff`, `Slots.mem_clear_iff` — what the table holds then.
-/

namespace RhsCore.Slots

variable {α : Type} {x y : α} {slots : List (Option α)}

/-- The first empty slot takes `x`. -/
def fill (x : α) : List (Option α) → List (Option α)
  | [] => []
  | none :: rest => some x :: rest
  | some y :: rest => some y :: fill x rest

/-- The first slot, counted from `i`, that holds a wanted entry is emptied. -/
def clear (wanted : ℕ → α → Bool) : ℕ → List (Option α) → List (Option α)
  | _, [] => []
  | i, none :: rest => none :: clear wanted (i + 1) rest
  | i, some y :: rest => if wanted i y then none :: rest else some y :: clear wanted (i + 1) rest

/-- Some slot, counted from `i`, holds a wanted entry. -/
def any (wanted : ℕ → α → Bool) : ℕ → List (Option α) → Bool
  | _, [] => false
  | i, none :: rest => any wanted (i + 1) rest
  | i, some y :: rest => if wanted i y then true else any wanted (i + 1) rest

@[simp] theorem length_fill (x : α) (slots : List (Option α)) :
    (fill x slots).length = slots.length := by
  induction slots with
  | nil => rfl
  | cons slot rest ih => cases slot <;> simp [fill, ih]

@[simp] theorem length_clear (wanted : ℕ → α → Bool) (i : ℕ) (slots : List (Option α)) :
    (clear wanted i slots).length = slots.length := by
  induction slots generalizing i with
  | nil => rfl
  | cons slot rest ih =>
      cases slot with
      | none => simp [clear, ih]
      | some y =>
          rw [clear]
          split
          · rfl
          · simp [ih]

/-- A full table stays as it is. -/
theorem fill_of_full (h : none ∉ slots) : fill x slots = slots := by
  induction slots with
  | nil => rfl
  | cons slot rest ih =>
      cases slot with
      | none => exact absurd List.mem_cons_self h
      | some y => rw [fill, ih fun hrest => h (List.mem_cons_of_mem _ hrest)]

/-- Any other holds one entry more. -/
theorem mem_fill_iff (h : none ∈ slots) : some y ∈ fill x slots ↔ y = x ∨ some y ∈ slots := by
  induction slots with
  | nil => cases h
  | cons slot rest ih =>
      cases slot with
      | none => simp [fill]
      | some z =>
          have hrest : none ∈ rest := by simpa using h
          rw [fill, List.mem_cons, List.mem_cons, ih hrest, or_left_comm]

/-- What is looked for is held at some place. -/
theorem any_eq_true_iff (wanted : ℕ → α → Bool) (i : ℕ) (slots : List (Option α)) :
    any wanted i slots = true ↔
      ∃ k y, slots[k]? = some (some y) ∧ wanted (i + k) y = true := by
  induction slots generalizing i with
  | nil => simp [any]
  | cons slot rest ih =>
      have hshift : (∃ k y, (slot :: rest)[k]? = some (some y) ∧ wanted (i + k) y = true) ↔
          (∃ y, slot = some y ∧ wanted i y = true) ∨
            ∃ k y, rest[k]? = some (some y) ∧ wanted (i + 1 + k) y = true := by
        constructor
        · rintro ⟨k, y, hk, hy⟩
          cases k with
          | zero => exact .inl ⟨y, by simpa using hk, hy⟩
          | succ k => exact .inr ⟨k, y, by simpa using hk, by rwa [Nat.add_right_comm]⟩
        · rintro (⟨y, rfl, hy⟩ | ⟨k, y, hk, hy⟩)
          · exact ⟨0, y, rfl, hy⟩
          · exact ⟨k + 1, y, by simpa using hk, by rwa [Nat.add_right_comm] at hy⟩
      rw [hshift, ← ih]
      cases slot with
      | none => simp [any]
      | some y => by_cases hy : wanted i y = true <;> simp [any, hy]

variable {wanted : ℕ → α → Bool}

/-- The others stay. -/
theorem mem_clear_of_ne (h : ∀ k y, some y ∈ slots → (wanted k y = true ↔ y = x)) (hy : y ≠ x)
    (i : ℕ) : some y ∈ clear wanted i slots ↔ some y ∈ slots := by
  induction slots generalizing i with
  | nil => rfl
  | cons slot rest ih =>
      have hrest := ih fun k y hy => h k y (List.mem_cons_of_mem _ hy)
      cases slot with
      | none => simp [clear, hrest]
      | some z =>
          have hz := h i z List.mem_cons_self
          rw [clear]
          split
          · rename_i hw
            simp [hz.mp hw, hy]
          · simp [hrest]

/-- Nothing comes into the table by it. -/
theorem mem_of_mem_clear {i : ℕ} (hy : some y ∈ clear wanted i slots) : some y ∈ slots := by
  induction slots generalizing i with
  | nil => exact hy
  | cons slot rest ih =>
      cases slot with
      | none =>
          rw [clear] at hy
          exact List.mem_cons_of_mem _ (ih (by simpa using hy))
      | some z =>
          rw [clear] at hy
          split at hy
          · exact List.mem_cons_of_mem _ (by simpa using hy)
          · rcases List.mem_cons.mp hy with heq | hrest
            · exact heq ▸ List.mem_cons_self
            · exact List.mem_cons_of_mem _ (ih hrest)

section Count

variable [BEq α] [LawfulBEq α]

/-- Where exactly the entries equal to `x` are wanted, one of them goes. -/
theorem count_clear (h : ∀ k y, some y ∈ slots → (wanted k y = true ↔ y = x)) (i : ℕ) :
    (clear wanted i slots).count (some x) = slots.count (some x) - 1 := by
  induction slots generalizing i with
  | nil => rfl
  | cons slot rest ih =>
      have hrest := ih fun k y hy => h k y (List.mem_cons_of_mem _ hy)
      cases slot with
      | none => simp [clear, hrest]
      | some y =>
          have hy := h i y List.mem_cons_self
          rw [clear]
          split
          · rename_i hw
            simp [hy.mp hw]
          · rename_i hw
            have hne : y ≠ x := fun heq => hw (hy.mpr heq)
            simp [hne, hrest]

/-- The entry is gone if it was held once or not at all. -/
theorem notMem_clear_iff (h : ∀ k y, some y ∈ slots → (wanted k y = true ↔ y = x)) (i : ℕ) :
    some x ∉ clear wanted i slots ↔ slots.count (some x) ≤ 1 := by
  rw [← List.count_eq_zero, count_clear h, Nat.sub_eq_zero_iff_le]

end Count

end RhsCore.Slots
