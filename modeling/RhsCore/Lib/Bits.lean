import Mathlib.Data.Nat.Bitwise

/-!
# Bits packed into bytes, least significant first

## Main definitions

* `bitAt bytes i` — bit `i` of a sequence of bytes.
* `packByte bit n j` — byte `j` of the first `n` bits of a sequence, padded with zeros.
-/

namespace RhsCore.Bits

/-- Bit `i` of a sequence of bytes. -/
def bitAt (bytes : ℕ → UInt8) (i : ℕ) : Bool := (bytes (i / 8)).toNat.testBit (i % 8)

/-- Byte `j` of the bits below `n`. -/
def packByte (bit : ℕ → Bool) (n j : ℕ) : UInt8 :=
  .ofNat (Nat.ofBits fun k : Fin 8 => decide (8 * j + k < n) && bit (8 * j + k))

/-- Bytes are equal when their bits are. -/
theorem byte_ext {a b : UInt8} (h : ∀ k < 8, a.toNat.testBit k = b.toNat.testBit k) : a = b := by
  rw [← UInt8.toNat_inj]
  refine Nat.eq_of_testBit_eq fun k => ?_
  by_cases hk : k < 8
  · exact h k hk
  · have hpow : 2 ^ 8 ≤ 2 ^ k := Nat.pow_le_pow_right (by decide) (by omega)
    rw [Nat.testBit_lt_two_pow (lt_of_lt_of_le a.toNat_lt hpow),
      Nat.testBit_lt_two_pow (lt_of_lt_of_le b.toNat_lt hpow)]

theorem testBit_packByte {bit : ℕ → Bool} {n j k : ℕ} (hk : k < 8) :
    (packByte bit n j).toNat.testBit k = (decide (8 * j + k < n) && bit (8 * j + k)) := by
  have hlt : Nat.ofBits (fun k : Fin 8 => decide (8 * j + k < n) && bit (8 * j + k)) < 2 ^ 8 :=
    Nat.ofBits_lt_two_pow _
  rw [packByte, UInt8.toNat_ofNat_of_lt' hlt, Nat.testBit_ofBits_lt _ _ hk]

/-- Reading back what was packed. -/
theorem bitAt_packByte (bit : ℕ → Bool) (n i : ℕ) :
    bitAt (packByte bit n) i = (decide (i < n) && bit i) := by
  rw [bitAt, testBit_packByte (Nat.mod_lt _ (by decide)), Nat.div_add_mod]

@[simp] theorem packByte_zero (bit : ℕ → Bool) (j : ℕ) : packByte bit 0 j = 0 :=
  byte_ext fun k hk => by simp [testBit_packByte hk]

/-- One more bit changes one byte. -/
theorem packByte_succ (bit : ℕ → Bool) (n j : ℕ) :
    packByte bit (n + 1) j =
      if j = n / 8 then packByte bit n j ||| ((if bit n then 1 else 0) <<< UInt8.ofNat (n % 8))
      else packByte bit n j := by
  refine byte_ext fun k hk => ?_
  split
  · rename_i hj
    have hbit : ((if bit n then 1 else 0 : UInt8) <<< UInt8.ofNat (n % 8)).toNat.testBit k =
        (decide (k = n % 8) && bit n) := by
      rw [UInt8.toNat_shiftLeft, UInt8.toNat_ofNat_of_lt' (by simp [UInt8.size]; omega),
        Nat.mod_mod, Nat.testBit_mod_two_pow, Nat.testBit_shiftLeft]
      cases bit n with
      | false => simp
      | true =>
          change (decide (k < 8) && (decide (k ≥ n % 8) && Nat.testBit 1 (k - n % 8))) = _
          rw [Bool.eq_iff_iff]
          simp [hk, Nat.testBit_one_eq_true_iff_self_eq_zero]
          omega
    rw [UInt8.toNat_or, Nat.testBit_or, testBit_packByte hk, testBit_packByte hk, hbit]
    subst hj
    by_cases hkn : k = n % 8
    · have hn : 8 * (n / 8) + k = n := by omega
      rw [hn]
      simp [hkn]
    · have hlt : (8 * (n / 8) + k < n + 1) ↔ (8 * (n / 8) + k < n) := by omega
      simp [hkn, hlt]
  · rw [testBit_packByte hk, testBit_packByte hk]
    have : (8 * j + k < n + 1) ↔ (8 * j + k < n) := by omega
    simp [this]

/-- The usual way to take one bit out of a byte. -/
theorem shiftRight_and_one (b : UInt8) {k : ℕ} (hk : k < 8) :
    (b >>> UInt8.ofNat k) &&& 1 = if b.toNat.testBit k then 1 else 0 := by
  rw [← UInt8.toNat_inj, UInt8.toNat_and, UInt8.toNat_shiftRight,
    UInt8.toNat_ofNat_of_lt' (by simp [UInt8.size]; omega), Nat.mod_eq_of_lt hk]
  change b.toNat >>> k &&& 1 = _
  rw [Nat.and_one_is_mod, Nat.testBit_eq_decide_div_mod_eq, Nat.shiftRight_eq_div_pow]
  rcases Nat.mod_two_eq_zero_or_one (b.toNat / 2 ^ k) with h | h <;> simp [h]

end RhsCore.Bits
