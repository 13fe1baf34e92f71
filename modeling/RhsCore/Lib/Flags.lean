import Mathlib.Data.Nat.Notation
import Mathlib.Data.BitVec

/-!
# Words as sets of flags

A 32-bit word read flag by flag.  Setting flags is a union, masking them an
intersection, and a test against a mask asks for one flag or for all of them.

## Main definitions

* `HasFlag w i` — flag `i` is set in `w`.
* `and_ne_zero_iff`, `and_eq_left_iff` — the two tests against a mask.
-/

namespace RhsCore

/-- Flag `i` is set in the word. -/
def HasFlag (w : UInt32) (i : ℕ) : Prop := w.toBitVec.getLsbD i = true

instance (w : UInt32) (i : ℕ) : Decidable (HasFlag w i) := inferInstanceAs (Decidable (_ = _))

variable {a b : UInt32} {i : ℕ}

@[simp] theorem not_hasFlag_zero : ¬ HasFlag 0 i := by simp [HasFlag]

@[simp] theorem hasFlag_or : HasFlag (a ||| b) i ↔ HasFlag a i ∨ HasFlag b i := by
  simp [HasFlag]

@[simp] theorem hasFlag_and : HasFlag (a &&& b) i ↔ HasFlag a i ∧ HasFlag b i := by
  simp [HasFlag]

theorem hasFlag_and_not : HasFlag (a &&& ~~~ b) i ↔ HasFlag a i ∧ ¬ HasFlag b i := by
  rw [hasFlag_and]
  apply and_congr_right
  intro ha
  have hi : i < 32 := BitVec.lt_of_getLsbD ha
  simp only [HasFlag, UInt32.toBitVec_not, BitVec.getLsbD_not, hi, decide_true, Bool.true_and,
    Bool.not_eq_true', Bool.not_eq_true]

/-- Two words with the same flags are the same. -/
theorem eq_of_hasFlag (h : ∀ i, HasFlag a i ↔ HasFlag b i) : a = b := by
  apply UInt32.toBitVec_inj.mp
  apply BitVec.eq_of_getLsbD_eq
  intro i _
  exact Bool.eq_iff_iff.mpr (h i)

/-- Masking a union masks its parts. -/
theorem or_and_not (a b c : UInt32) :
    (a ||| b) &&& ~~~ c = (a &&& ~~~ c) ||| (b &&& ~~~ c) := by
  apply eq_of_hasFlag
  intro i
  simp only [hasFlag_and_not, hasFlag_or, or_and_right]

/-- Some flag of the mask is set. -/
theorem and_ne_zero_iff : a &&& b ≠ 0 ↔ ∃ i, HasFlag a i ∧ HasFlag b i := by
  constructor
  · intro h
    by_contra hnone
    apply h
    apply eq_of_hasFlag
    intro i
    simp only [hasFlag_and, not_hasFlag_zero, iff_false]
    intro hi
    exact hnone ⟨i, hi⟩
  · rintro ⟨i, hi⟩ h
    have hboth : HasFlag (a &&& b) i := hasFlag_and.mpr hi
    rw [h] at hboth
    exact not_hasFlag_zero hboth

/-- All flags of the mask are set. -/
theorem and_eq_left_iff : a &&& b = a ↔ ∀ i, HasFlag a i → HasFlag b i := by
  constructor
  · intro h i hi
    rw [← h, hasFlag_and] at hi
    exact hi.2
  · intro h
    apply eq_of_hasFlag
    intro i
    rw [hasFlag_and]
    exact ⟨fun hi => hi.1, fun hi => ⟨hi, h i hi⟩⟩

/-- Masking takes nothing away. -/
theorem and_not_eq_left_iff : a &&& ~~~ b = a ↔ b &&& a = 0 := by
  constructor
  · intro h
    by_contra hne
    obtain ⟨i, hb, ha⟩ := and_ne_zero_iff.mp hne
    rw [← h, hasFlag_and_not] at ha
    exact ha.2 hb
  · intro h
    apply eq_of_hasFlag
    intro i
    rw [hasFlag_and_not]
    refine and_iff_left_of_imp fun ha hb => ?_
    exact and_ne_zero_iff.mpr ⟨i, hb, ha⟩ h

end RhsCore
