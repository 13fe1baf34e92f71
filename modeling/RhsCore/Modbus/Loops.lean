import RhsCore.Lib.Bits
import RhsCore.Modbus.ModbusTcp

/-!
# What the loops of the handler compute

Closed forms of the response and of the coil table after each loop, with the sizes up
to which the loops stay inside their arrays.

## Main definitions

* `fill r off n f` — the response `r` with `n` bytes from `off` on replaced.
* `orBits r bit n` — the response with the first `n` bits or-ed in from byte 9 on.
* `storeBits coils start num bit` — the coils with a range replaced.
-/

namespace RhsCore.Modbus

open Bits

/-! ## Responses -/

/-- The response with the bytes `off`, …, `off + n - 1` replaced. -/
def fill (r : Response) (off n : ℕ) (f : ℕ → UInt8) : Response :=
  .ofFn fun k => if off ≤ k ∧ k < off + n then f (k - off) else r[k]

@[simp] theorem getElem_fill (r : Response) (off n : ℕ) (f : ℕ → UInt8) (k : ℕ) (hk : k < 260) :
    (fill r off n f)[k] = if off ≤ k ∧ k < off + n then f (k - off) else r[k] := by
  simp [fill]

theorem write_eq_ok (r : Response) {i : ℕ} (hi : i < 260) (b : UInt8) :
    Response.write r i b = .ok (fill r i 1 fun _ => b) := by
  rw [Response.write, dif_pos hi]
  refine congrArg Except.ok (Vector.ext fun k hk => ?_)
  simp only [Vector.getElem_set, getElem_fill]
  split <;> split <;> first | rfl | omega

/-- The two bytes of a word, in network order. -/
def wordBytes (w : UInt16) (i : ℕ) : UInt8 :=
  if i = 0 then .ofNat (w.toNat / 256) else .ofNat w.toNat

theorem writeWord_eq_ok (r : Response) {i : ℕ} (hi : i + 1 < 260) (w : UInt16) :
    Response.writeWord r i w = .ok (fill r i 2 (wordBytes w)) := by
  simp only [Response.writeWord, write_eq_ok r (show i < 260 by omega), write_eq_ok _ hi]
  refine congrArg Except.ok (Vector.ext fun k hk => ?_)
  simp only [getElem_fill, wordBytes]
  by_cases h0 : k = i
  · subst h0
    simp
  · by_cases h1 : k = i + 1
    · subst h1
      simp
    · rw [if_neg (by omega), if_neg (by omega), if_neg (by omega)]

/-- The response with the first `n` bits of a sequence or-ed in from byte 9 on. -/
def orBits (r : Response) (bit : ℕ → Bool) (n : ℕ) : Response :=
  .ofFn fun k => if 9 ≤ k.val then r[k] ||| packByte bit n (k - 9) else r[k]

@[simp] theorem getElem_orBits (r : Response) (bit : ℕ → Bool) (n k : ℕ) (hk : k < 260) :
    (orBits r bit n)[k] = if 9 ≤ k then r[k] ||| packByte bit n (k - 9) else r[k] := by
  simp [orBits]

theorem orBits_zero (r : Response) (bit : ℕ → Bool) : orBits r bit 0 = r := by
  refine Vector.ext fun k hk => ?_
  simp

/-- Or-ing in one bit more. -/
theorem or_orBits (r : Response) (bit : ℕ → Bool) {i : ℕ} (hi : i < 2008) :
    Response.or (orBits r bit i) (9 + i / 8) ((if bit i then 1 else 0) <<< UInt8.ofNat (i % 8)) =
      .ok (orBits r bit (i + 1)) := by
  rw [Response.or, dif_pos (by omega)]
  refine congrArg Except.ok (Vector.ext fun k hk => ?_)
  simp only [Vector.getElem_set, getElem_orBits, packByte_succ]
  by_cases hk9 : 9 ≤ k
  · by_cases hki : 9 + i / 8 = k
    · subst hki
      simp [UInt8.or_assoc]
    · have hne : k - 9 ≠ i / 8 := by omega
      simp [hki, hne]
  · have hki : 9 + i / 8 ≠ k := by omega
    simp [hk9, hki]

/-! ## Tables -/

/-- `table[k] ? 1 : 0`. -/
def nonZero {n : ℕ} (t : Vector UInt8 n) (k : ℕ) : Bool :=
  if h : k < n then t[k] != 0 else false

/-- An index inside the request does not wrap. -/
theorem toNat_start_add {start num : UInt16} {n i : ℕ} (hn : n < 65536)
    (h : start.toNat + num.toNat ≤ n) (hi : i < num.toNat) :
    (start + .ofNat i).toNat = start.toNat + i ∧ start.toNat + i < n := by
  have hmod : (UInt16.ofNat i).toNat = i := UInt16.toNat_ofNat_of_lt' (by simp [UInt16.size]; omega)
  rw [UInt16.toNat_add, hmod]
  omega

theorem toNat_byteIndex {i : ℕ} (hi : i < 2048) : (UInt8.ofNat (i / 8)).toNat = i / 8 :=
  UInt8.toNat_ofNat_of_lt' (by simp [UInt8.size]; omega)

theorem clearData_eq_ok (r : Response) {n : ℕ} (hn : 9 + n ≤ 260) :
    clearData n r = .ok (fill r 9 n fun _ => 0) := by
  have h0 : fill r 9 0 (fun _ => 0) = r := by
    refine Vector.ext fun k hk => ?_
    rw [getElem_fill, if_neg (by omega)]
  have hloop := forRange_eq_ok (n := n) (f := fun i r => Response.write r (9 + i) 0)
    (fun i => fill r 9 i fun _ => 0) (fun i hi => ?_)
  · rwa [h0] at hloop
  · rw [write_eq_ok _ (by omega)]
    refine congrArg Except.ok (Vector.ext fun k hk => ?_)
    simp only [getElem_fill]
    split <;> split <;> first | rfl | omega | (split <;> first | rfl | omega)

/-- One turn of the packing loop. -/
theorem packBits_turn {n : ℕ} (t : Vector UInt8 n) (hn : n < 65536) {start num : UInt16}
    (h : start.toNat + num.toNat ≤ n) {i : ℕ} (hi : i < num.toNat) (r : Response) :
    (do
      let bit ← readTable t (start + .ofNat i).toNat
      Response.or r (9 + (UInt8.ofNat (i / 8)).toNat)
        ((if bit ≠ 0 then 1 else 0) <<< UInt8.ofNat (i % 8)) : Except Fault Response) =
      Response.or r (9 + (UInt8.ofNat (i / 8)).toNat)
        ((if nonZero t (start.toNat + i) then 1 else 0) <<< UInt8.ofNat (i % 8)) := by
  obtain ⟨hidx, hlt⟩ := toNat_start_add hn h hi
  simp only [hidx, readTable, hlt, nonZero, dif_pos]
  change Response.or _ _ _ = _
  simp

/-- Up to 2008 bits fit behind the header of the response. -/
theorem packBits_eq_ok {n : ℕ} (t : Vector UInt8 n) (hn : n < 65536) {start num : UInt16}
    (h : start.toNat + num.toNat ≤ n) (hnum : num.toNat ≤ 2008) (r : Response) :
    packBits t start num r = .ok (orBits r (fun i => nonZero t (start.toNat + i)) num.toNat) := by
  have hloop := forRange_eq_ok (n := num.toNat) (f := fun i r => do
      let bit ← readTable t (start + .ofNat i).toNat
      Response.or r (9 + (UInt8.ofNat (i / 8)).toNat)
        ((if bit ≠ 0 then 1 else 0) <<< UInt8.ofNat (i % 8)))
    (fun i => orBits r (fun i => nonZero t (start.toNat + i)) i) (fun i hi => ?_)
  · rwa [orBits_zero] at hloop
  · rw [packBits_turn t hn h hi, toNat_byteIndex (by omega)]
    exact or_orBits r _ (by omega)

/-- With more bits the loop writes behind the response. -/
theorem packBits_eq_error {n : ℕ} (t : Vector UInt8 n) (hn : n < 65536) {start num : UInt16}
    (h : start.toNat + num.toNat ≤ n) (hnum : 2008 < num.toNat) (r : Response) :
    packBits t start num r = .error (.response 260) := by
  have hloop := forRange_eq_error (n := num.toNat) (f := fun i r => do
      let bit ← readTable t (start + .ofNat i).toNat
      Response.or r (9 + (UInt8.ofNat (i / 8)).toNat)
        ((if bit ≠ 0 then 1 else 0) <<< UInt8.ofNat (i % 8)))
    (fun i => orBits r (fun i => nonZero t (start.toNat + i)) i) hnum (fun i hi => ?_)
    (e := .response 260) ?_
  · rwa [orBits_zero] at hloop
  · rw [packBits_turn t hn h (by omega), toNat_byteIndex (by omega)]
    exact or_orBits r _ (by omega)
  · rw [packBits_turn t hn h hnum, toNat_byteIndex (by omega)]
    rfl

/-- The coils with `start`, …, `start + n - 1` replaced by bits. -/
def storeBits {size : ℕ} (coils : Vector UInt8 size) (start n : ℕ) (bit : ℕ → Bool) :
    Vector UInt8 size :=
  .ofFn fun k =>
    if start ≤ k ∧ k < start + n then (if bit (k - start) then 1 else 0) else coils[k]

@[simp] theorem getElem_storeBits {size : ℕ} (coils : Vector UInt8 size) (start n : ℕ)
    (bit : ℕ → Bool) (k : ℕ) (hk : k < size) :
    (storeBits coils start n bit)[k] =
      if start ≤ k ∧ k < start + n then (if bit (k - start) then 1 else 0) else coils[k] := by
  simp [storeBits]

theorem storeBits_zero {size : ℕ} (coils : Vector UInt8 size) (start : ℕ) (bit : ℕ → Bool) :
    storeBits coils start 0 bit = coils := by
  refine Vector.ext fun k hk => ?_
  rw [getElem_storeBits, if_neg (by omega)]

/-- Storing one bit more. -/
theorem writeTable_storeBits {size : ℕ} (coils : Vector UInt8 size) (start : ℕ) (bit : ℕ → Bool)
    {i : ℕ} (hi : start + i < size) :
    writeTable (storeBits coils start i bit) (start + i) (if bit i then 1 else 0) =
      .ok (storeBits coils start (i + 1) bit) := by
  rw [writeTable, dif_pos hi]
  refine congrArg Except.ok (Vector.ext fun k hk => ?_)
  simp only [Vector.getElem_set, getElem_storeBits]
  by_cases hki : start + i = k
  · subst hki
    simp
  · rw [if_neg hki]
    by_cases hin : start ≤ k ∧ k < start + i
    · rw [if_pos hin, if_pos (show start ≤ k ∧ k < start + (i + 1) by omega)]
    · rw [if_neg hin, if_neg (show ¬ (start ≤ k ∧ k < start + (i + 1)) by omega)]

/-- Bit `i` as the unpacking loop finds it, with its 8-bit byte index. -/
def unpackedBit (data : ℕ → UInt8) (i : ℕ) : Bool :=
  (data (UInt8.ofNat (i / 8)).toNat).toNat.testBit (i % 8)

theorem unpackedBit_eq_bitAt (data : ℕ → UInt8) {i : ℕ} (hi : i < 2048) :
    unpackedBit data i = bitAt data i := by
  rw [unpackedBit, bitAt, toNat_byteIndex hi]

/-- One turn of the unpacking loop, where its byte can be read. -/
theorem unpackBits_turn {size : ℕ} {buf : Frame} {data : ℕ → UInt8} (coils : Vector UInt8 size)
    (hsize : size < 65536) {start num : UInt16} (h : start.toNat + num.toNat ≤ size) {i : ℕ}
    (hi : i < num.toNat) (hread : buf.read (13 + (UInt8.ofNat (i / 8)).toNat) =
      .ok (data (UInt8.ofNat (i / 8)).toNat)) :
    (do
      let b ← buf.read (13 + (UInt8.ofNat (i / 8)).toNat)
      writeTable (storeBits coils start.toNat i (unpackedBit data)) (start + .ofNat i).toNat
        ((b >>> UInt8.ofNat (i % 8)) &&& 0x01)) =
      Except.ok (storeBits coils start.toNat (i + 1) (unpackedBit data)) := by
  obtain ⟨hidx, hlt⟩ := toNat_start_add hsize h hi
  rw [hread]
  change writeTable _ _ (_ &&& 1) = _
  rw [shiftRight_and_one _ (Nat.mod_lt _ (by decide)), hidx]
  exact writeTable_storeBits coils start.toNat (unpackedBit data) hlt

theorem unpackBits_eq_ok {size : ℕ} (buf : Frame) (data : ℕ → UInt8) (coils : Vector UInt8 size)
    (hsize : size < 65536) {start num : UInt16} (h : start.toNat + num.toNat ≤ size)
    (hread : ∀ i < num.toNat, buf.read (13 + (UInt8.ofNat (i / 8)).toNat) =
      .ok (data (UInt8.ofNat (i / 8)).toNat)) :
    unpackBits buf start num coils =
      .ok (storeBits coils start.toNat num.toNat (unpackedBit data)) := by
  have hloop := forRange_eq_ok (n := num.toNat) (f := fun i coils => do
      let b ← buf.read (13 + (UInt8.ofNat (i / 8)).toNat)
      writeTable coils (start + .ofNat i).toNat ((b >>> UInt8.ofNat (i % 8)) &&& 0x01))
    (fun i => storeBits coils start.toNat i (unpackedBit data))
    (fun i hi => unpackBits_turn coils hsize h hi (hread i hi))
  rwa [storeBits_zero] at hloop

/-- The first byte that cannot be read stops the loop. -/
theorem unpackBits_eq_error {size : ℕ} (buf : Frame) (data : ℕ → UInt8)
    (coils : Vector UInt8 size) (hsize : size < 65536) (start : UInt16) {num : UInt16}
    (h : start.toNat + num.toNat ≤ size) {j : ℕ} (hj : j < num.toNat)
    (hread : ∀ i < j, buf.read (13 + (UInt8.ofNat (i / 8)).toNat) =
      .ok (data (UInt8.ofNat (i / 8)).toNat)) {e : Fault}
    (hfail : buf.read (13 + (UInt8.ofNat (j / 8)).toNat) = .error e) :
    unpackBits buf start num coils = .error e := by
  have hloop := forRange_eq_error (n := num.toNat) (f := fun i coils => do
      let b ← buf.read (13 + (UInt8.ofNat (i / 8)).toNat)
      writeTable coils (start + .ofNat i).toNat ((b >>> UInt8.ofNat (i % 8)) &&& 0x01))
    (fun i => storeBits coils start.toNat i (unpackedBit data)) hj
    (fun i hi => unpackBits_turn coils hsize h (by omega) (hread i hi)) (e := e)
    (by rw [hfail]; rfl)
  rwa [storeBits_zero] at hloop

/-- Register `k` of a table. -/
def register {n : ℕ} (t : Vector UInt16 n) (k : ℕ) : UInt16 := if h : k < n then t[k] else 0

/-- The data bytes of a register reply: each register in network order. -/
def registerBytes {n : ℕ} (t : Vector UInt16 n) (start i : ℕ) : UInt8 :=
  wordBytes (register t (start + i / 2)) (i % 2)

/-- Up to 125 registers fit behind the header of the response. -/
theorem packRegisters_eq_ok {n : ℕ} (t : Vector UInt16 n) (hn : n < 65536) {start num : UInt16}
    (h : start.toNat + num.toNat ≤ n) (hnum : num.toNat ≤ 125) (r : Response) :
    packRegisters t start num r = .ok (fill r 9 (2 * num.toNat) (registerBytes t start.toNat)) := by
  have h0 : fill r 9 (2 * 0) (registerBytes t start.toNat) = r := by
    refine Vector.ext fun k hk => ?_
    rw [getElem_fill, if_neg (by omega)]
  have hloop := forRange_eq_ok (n := num.toNat) (f := fun i r => do
      let val ← readTable t (start + .ofNat i).toNat
      Response.writeWord r (9 + 2 * i) val)
    (fun i => fill r 9 (2 * i) (registerBytes t start.toNat)) (fun i hi => ?_)
  · rwa [h0] at hloop
  · obtain ⟨hidx, hlt⟩ := toNat_start_add hn h hi
    simp only [hidx, readTable, hlt, dif_pos]
    change Response.writeWord _ _ _ = _
    rw [writeWord_eq_ok _ (by omega)]
    refine congrArg Except.ok (Vector.ext fun k hk => ?_)
    simp only [getElem_fill]
    by_cases hki : 9 + 2 * i ≤ k ∧ k < 9 + 2 * i + 2
    · have hdiv : (k - 9) / 2 = i := by omega
      have hmod : (k - 9) % 2 = k - (9 + 2 * i) := by omega
      rw [if_pos hki, if_pos (by omega), registerBytes, hdiv, hmod, register, dif_pos hlt]
    · rw [if_neg hki]
      split <;> split <;> first | rfl | omega

end RhsCore.Modbus
