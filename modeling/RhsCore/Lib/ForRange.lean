import Mathlib.Data.Nat.Notation

/-!
# Counted loops that can fail

`for (i = 0; i < n; i++)` over a state, where a turn may stop everything with an error.

## Main definitions

* `forRange n f x` — the loop, from the state `x`.
* `forRange_eq_ok` — its states are known turn by turn.
* `forRange_eq_error` — one turn that is known to fail fails the loop.
-/

namespace RhsCore

variable {ε s : Type}

@[simp] theorem ok_bind {α β : Type} (a : α) (f : α → Except ε β) : (.ok a >>= f) = f a := rfl

@[simp] theorem error_bind {α β : Type} (e : ε) (f : α → Except ε β) :
    ((.error e : Except ε α) >>= f) = .error e := rfl

/-- Run the turns `f 0`, …, `f (n - 1)` in order, up to the first error. -/
def forRange : ℕ → (ℕ → s → Except ε s) → s → Except ε s
  | 0, _, x => .ok x
  | n + 1, f, x => forRange n f x >>= f n

@[simp] theorem forRange_zero (f : ℕ → s → Except ε s) (x : s) : forRange 0 f x = .ok x := rfl

theorem forRange_succ (n : ℕ) (f : ℕ → s → Except ε s) (x : s) :
    forRange (n + 1) f x = forRange n f x >>= f n := rfl

/-- If every turn takes `g i` to `g (i + 1)`, the loop takes `g 0` to `g n`. -/
theorem forRange_eq_ok {n : ℕ} {f : ℕ → s → Except ε s} (g : ℕ → s)
    (h : ∀ i < n, f i (g i) = .ok (g (i + 1))) : forRange n f (g 0) = .ok (g n) := by
  induction n with
  | zero => rfl
  | succ n ih =>
      rw [forRange_succ, ih fun i hi => h i (Nat.lt_succ_of_lt hi), ok_bind]
      exact h n (Nat.lt_succ_self n)

/-- An error in the turns before `n` is the error of the loop. -/
theorem forRange_eq_error_of_le {m n : ℕ} {f : ℕ → s → Except ε s} {x : s} {e : ε} (hmn : m ≤ n)
    (h : forRange m f x = .error e) : forRange n f x = .error e := by
  induction hmn with
  | refl => exact h
  | step _ ih =>
      rw [forRange_succ, ih, error_bind]

/-- A loop whose turns before `j` go well, and whose turn `j` fails. -/
theorem forRange_eq_error {n j : ℕ} {f : ℕ → s → Except ε s} (g : ℕ → s) {e : ε} (hj : j < n)
    (h : ∀ i < j, f i (g i) = .ok (g (i + 1))) (hfail : f j (g j) = .error e) :
    forRange n f (g 0) = .error e := by
  refine forRange_eq_error_of_le hj ?_
  rw [forRange_succ, forRange_eq_ok g h, ok_bind, hfail]

end RhsCore
