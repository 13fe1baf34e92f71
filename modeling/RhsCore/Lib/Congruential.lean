import Mathlib.Algebra.Ring.GeomSum
import Mathlib.Data.Nat.ModEq
import Mathlib.Data.Nat.Prime.Basic
import Mathlib.Logic.Function.Iterate
import Mathlib.Tactic.Ring

/-!
# Linear congruential sequences modulo a power of two

`x ↦ a * x + c`, where `a` leaves 1 modulo 4 and `c` is odd.  After `n` steps the state has moved
by a multiple of the sum of the first `n` powers of `a`, with an odd factor, and 2 divides that
sum as often as it divides `n`.

## Main definitions

* `next a c m` — one step.
* `powerSum a n` — the sum of the first `n` powers of `a`.
* `two_pow_dvd_powerSum_iff` — how often 2 divides it.
* `iterate_next_mod_eq_iff` — when the low bits are the same again.
-/

namespace RhsCore.Congruential

variable {a c k m n w x : ℕ}

def next (a c m x : ℕ) : ℕ := (a * x + c) % m

def powerSum (a n : ℕ) : ℕ := ∑ i ∈ Finset.range n, a ^ i

@[simp] theorem powerSum_zero (a : ℕ) : powerSum a 0 = 0 := rfl

theorem powerSum_succ (a n : ℕ) : powerSum a (n + 1) = a * powerSum a n + 1 := geom_sum_succ

/-- The sum of twice as many powers. -/
theorem powerSum_add_self (a n : ℕ) : powerSum a (n + n) = powerSum a n * (1 + a ^ n) := by
  rw [powerSum, Finset.sum_range_add, powerSum, mul_add, mul_one, Finset.sum_mul]
  simp only [pow_add, mul_comm]

/-- The last power, by the sum of those before it. -/
theorem pow_eq_powerSum (ha : 0 < a) (n : ℕ) : a ^ n = (a - 1) * powerSum a n + 1 := by
  induction n with
  | zero => simp
  | succ n ih =>
      obtain ⟨b, rfl⟩ := Nat.exists_eq_add_of_lt ha
      rw [pow_succ, ih, powerSum_succ]
      simp only [Nat.zero_add, Nat.add_sub_cancel]
      ring

/-! ## How often 2 divides the sum -/

theorem powerSum_mod_two (ha : a % 4 = 1) (n : ℕ) : powerSum a n % 2 = n % 2 := by
  induction n with
  | zero => rfl
  | succ n ih =>
      have hodd : a % 2 = 1 := by omega
      rw [powerSum_succ, Nat.add_mod, Nat.mul_mod, hodd, ih]
      omega

/-- One more than a power of `a` is twice an odd number. -/
theorem one_add_pow_eq (ha : a % 4 = 1) (n : ℕ) : ∃ q, 1 + a ^ n = 2 * q ∧ q % 2 = 1 := by
  have hmod : a ^ n % 4 = 1 := by
    rw [Nat.pow_mod, ha, one_pow]
    rfl
  exact ⟨(1 + a ^ n) / 2, by omega, by omega⟩

/-- An odd factor does not count. -/
theorem two_pow_dvd_mul_odd_iff {q : ℕ} (hq : q % 2 = 1) : 2 ^ w ∣ n * q ↔ 2 ^ w ∣ n := by
  have hcop : Nat.Coprime (2 ^ w) q := by
    apply Nat.Coprime.pow_left
    exact Nat.coprime_two_left.mpr (Nat.odd_iff.mpr hq)
  exact hcop.dvd_mul_right

theorem two_pow_dvd_powerSum_iff (ha : a % 4 = 1) (w n : ℕ) :
    2 ^ w ∣ powerSum a n ↔ 2 ^ w ∣ n := by
  induction w generalizing n with
  | zero => simp
  | succ w ih =>
      rcases Nat.even_or_odd n with ⟨k, rfl⟩ | hodd
      · obtain ⟨q, hq, hqodd⟩ := one_add_pow_eq ha k
        have htwo : k + k = 2 * k := by ring
        have hsum : powerSum a (k + k) = 2 * (powerSum a k * q) := by
          rw [powerSum_add_self, hq]
          ring
        rw [hsum, htwo, pow_succ', Nat.mul_dvd_mul_iff_left two_pos,
          Nat.mul_dvd_mul_iff_left two_pos, two_pow_dvd_mul_odd_iff hqodd]
        exact ih k
      · have hn : n % 2 = 1 := Nat.odd_iff.mp hodd
        have hsum : powerSum a n % 2 = 1 := (powerSum_mod_two ha n).trans hn
        have hnot {m : ℕ} (hm : m % 2 = 1) : ¬ 2 ^ (w + 1) ∣ m := by
          intro hdvd
          have htwo : 2 ∣ m := (dvd_pow_self 2 (Nat.succ_ne_zero w)).trans hdvd
          omega
        exact iff_of_false (hnot hsum) (hnot hn)

/-! ## The sequence -/

/-- Where the sequence is after `n` steps. -/
theorem iterate_next_modEq (a c m n x : ℕ) :
    (next a c m)^[n] x ≡ a ^ n * x + c * powerSum a n [MOD m] := by
  induction n with
  | zero => simp [Nat.ModEq]
  | succ n ih =>
      rw [Function.iterate_succ_apply', powerSum_succ]
      have hstep : next a c m ((next a c m)^[n] x) ≡
          a * (a ^ n * x + c * powerSum a n) + c [MOD m] :=
        (Nat.mod_modEq _ _).trans ((ih.mul_left a).add_right c)
      have hsame : a * (a ^ n * x + c * powerSum a n) + c =
          a ^ (n + 1) * x + c * (a * powerSum a n + 1) := by
        ring
      rwa [hsame] at hstep

/-- **The low bits are the same again** exactly after a multiple of as many steps as they have
values. -/
theorem iterate_next_mod_eq_iff (ha : a % 4 = 1) (hc : c % 2 = 1) (hk : k ≤ w) (n x : ℕ) :
    (next a c (2 ^ w))^[n] x % 2 ^ k = x % 2 ^ k ↔ 2 ^ k ∣ n := by
  have hmod : (next a c (2 ^ w))^[n] x ≡ a ^ n * x + c * powerSum a n [MOD 2 ^ k] :=
    (iterate_next_modEq a c (2 ^ w) n x).of_dvd (pow_dvd_pow 2 hk)
  have hpos : 0 < a := by omega
  have hmove : a ^ n * x + c * powerSum a n = x + powerSum a n * ((a - 1) * x + c) := by
    rw [pow_eq_powerSum hpos]
    ring
  have hodd : ((a - 1) * x + c) % 2 = 1 := by
    have heven : (a - 1) % 2 = 0 := by omega
    rw [Nat.add_mod, Nat.mul_mod, heven, hc]
    simp
  rw [hmove] at hmod
  calc (next a c (2 ^ w))^[n] x % 2 ^ k = x % 2 ^ k
      ↔ x + powerSum a n * ((a - 1) * x + c) ≡ x + 0 [MOD 2 ^ k] :=
        ⟨fun h => hmod.symm.trans h, fun h => hmod.trans h⟩
    _ ↔ 2 ^ k ∣ powerSum a n * ((a - 1) * x + c) := by
        rw [← Nat.modEq_zero_iff_dvd]
        exact ⟨fun h => h.add_left_cancel' x, fun h => h.add_left x⟩
    _ ↔ 2 ^ k ∣ n := by
        rw [two_pow_dvd_mul_odd_iff hodd]
        exact two_pow_dvd_powerSum_iff ha k n

end RhsCore.Congruential
