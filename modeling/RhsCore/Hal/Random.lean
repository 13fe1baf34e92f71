import Mathlib.Data.Nat.Bitwise
import RhsCore.Lib.Congruential

/-!
# The random numbers of the small boards

`rhs_hal_random.c` on the boards without a generator in hardware: a state of 32 bits, multiplied
and added to for each number.  Buffers are filled four bytes at a time, the last with what is
left.

## Main definitions

* `rhsHalRandomReadRng`, `rhsHalRandomGet`, `rhsHalRandomFillBuf`, `wrapRand` — the source
  functions.
* `numbers` — what one call after the other returns.
* `wrapRand_eq_iff` — when two of them are equal.
* `serve_all` — a run of calls of both kinds shares out one sequence.
-/

namespace RhsCore.Random

open Congruential (next)

/-! ## The source -/

/-- `rng_state = rng_state * 1103515245 + 12345` -/
def rhsHalRandomReadRng (rngState : UInt32) : UInt32 := rngState * 1103515245 + 12345

/-- `rhs_hal_random_get`: the number is the state. -/
def rhsHalRandomGet (rngState : UInt32) : UInt32 × UInt32 :=
  (rhsHalRandomReadRng rngState, rhsHalRandomReadRng rngState)

/-- `__wrap_rand` -/
def wrapRand (randMax rngState : UInt32) : UInt32 × UInt32 :=
  ((rhsHalRandomGet rngState).1 &&& randMax, (rhsHalRandomGet rngState).2)

/-- Byte `j` of a number in memory. -/
def byteOf (r : UInt32) (j : ℕ) : UInt8 := .ofNat (r.toNat / 256 ^ j)

/-- `memcpy(&buf[i], &random_val, len_cur)` -/
def copyWord (buf : ℕ → UInt8) (i : UInt32) (r : UInt32) (lenCur : UInt8) : ℕ → UInt8 := fun j =>
  if i.toNat ≤ j ∧ j < i.toNat + lenCur.toNat then byteOf r (j - i.toNat) else buf j

/-- The loop of `rhs_hal_random_fill_buf`; `none` if it takes more turns than it is given. -/
def fillLoop (len : UInt32) : ℕ → (ℕ → UInt8) → UInt32 → UInt32 → Option ((ℕ → UInt8) × UInt32)
  | 0, _, _, _ => none
  | turns + 1, buf, i, rngState =>
      if i < len then
        let randomVal := rhsHalRandomReadRng rngState
        let lenCur : UInt8 := if i + 4 < len then 4 else (len - i).toUInt8
        fillLoop len turns (copyWord buf i randomVal lenCur) (i + 4) randomVal
      else some (buf, rngState)

/-- `none` also where its assertion fails. -/
def rhsHalRandomFillBuf (turns : ℕ) (buf : ℕ → UInt8) (len rngState : UInt32) :
    Option ((ℕ → UInt8) × UInt32) :=
  if len = 0 then none else fillLoop len turns buf 0 rngState

/-! ## The sequence of numbers -/

/-- The states after the calls to come. -/
def numbers (rngState : UInt32) (n : ℕ) : UInt32 := rhsHalRandomReadRng^[n + 1] rngState

theorem toNat_readRng (s : UInt32) :
    (rhsHalRandomReadRng s).toNat = next 1103515245 12345 (2 ^ 32) s.toNat := by
  rw [rhsHalRandomReadRng, UInt32.toNat_add, UInt32.toNat_mul, next, Nat.mod_add_mod, mul_comm]
  rfl

theorem toNat_iterate_readRng (s : UInt32) (n : ℕ) :
    (rhsHalRandomReadRng^[n] s).toNat = (next 1103515245 12345 (2 ^ 32))^[n] s.toNat := by
  induction n with
  | zero => rfl
  | succ n ih => rw [Function.iterate_succ_apply', Function.iterate_succ_apply', toNat_readRng, ih]

/-- The low bits of a number. -/
theorem toNat_and_low (r : UInt32) {k : ℕ} (hk : k ≤ 32) :
    (r &&& .ofNat (2 ^ k - 1)).toNat = r.toNat % 2 ^ k := by
  have hlt : 2 ^ k - 1 < 2 ^ 32 :=
    lt_of_lt_of_le (Nat.sub_lt (Nat.two_pow_pos k) one_pos) (Nat.pow_le_pow_right two_pos hk)
  rw [UInt32.toNat_and, UInt32.toNat_ofNat_of_lt' hlt, Nat.and_two_pow_sub_one_eq_mod]

/-- What the calls of `__wrap_rand` return one after the other. -/
def rands (randMax rngState : UInt32) (n : ℕ) : UInt32 :=
  (wrapRand randMax (rhsHalRandomReadRng^[n] rngState)).1

theorem rands_eq (randMax s : UInt32) (n : ℕ) : rands randMax s n = numbers s n &&& randMax := by
  rw [rands, wrapRand, rhsHalRandomGet, numbers, Function.iterate_succ_apply']

/-- The low bits of a later number are those of an earlier one after a multiple of as many calls
as they have values. -/
theorem low_bits_eq_iff (s : UInt32) {k : ℕ} (hk : k ≤ 32) (m d : ℕ) :
    (numbers s (m + d)).toNat % 2 ^ k = (numbers s m).toNat % 2 ^ k ↔ 2 ^ k ∣ d := by
  have hsplit : numbers s (m + d) = rhsHalRandomReadRng^[d] (numbers s m) := by
    rw [numbers, numbers, ← Function.iterate_add_apply]
    congr 1
    omega
  rw [hsplit, toNat_iterate_readRng]
  exact Congruential.iterate_next_mod_eq_iff rfl rfl hk d _

theorem low_bits_modEq_iff (s : UInt32) {k : ℕ} (hk : k ≤ 32) (m n : ℕ) :
    (numbers s m).toNat % 2 ^ k = (numbers s n).toNat % 2 ^ k ↔ m ≡ n [MOD 2 ^ k] := by
  wlog hle : m ≤ n generalizing m n
  · rw [eq_comm, this n m (Nat.le_of_not_le hle)]
    exact Nat.ModEq.comm
  · obtain ⟨d, rfl⟩ := Nat.exists_eq_add_of_le hle
    rw [eq_comm, low_bits_eq_iff s hk m d, Nat.modEq_iff_dvd' hle, Nat.add_sub_cancel_left]

/-- **Two calls return the same number** exactly if as many calls lie between them as there are
numbers, or a multiple of that: the numbers up to `RAND_MAX` all come before one comes again. -/
theorem wrapRand_eq_iff (s : UInt32) {k : ℕ} (hk : k ≤ 32) (m n : ℕ) :
    rands (.ofNat (2 ^ k - 1)) s m = rands (.ofNat (2 ^ k - 1)) s n ↔ m ≡ n [MOD 2 ^ k] := by
  rw [rands_eq, rands_eq, ← UInt32.toNat_inj, toNat_and_low _ hk, toNat_and_low _ hk]
  exact low_bits_modEq_iff s hk m n

/-- With a `RAND_MAX` of 31 bits the numbers come again after as many calls, not after twice. -/
theorem rand_31_bits : rands 0x7FFFFFFF 1 (2 ^ 31) = rands 0x7FFFFFFF 1 0 :=
  (wrapRand_eq_iff 1 (k := 31) (by decide) (2 ^ 31) 0).mpr (by simp [Nat.ModEq])

/-! ## Filling a buffer -/

/-- How many numbers a buffer takes. -/
def words (len : UInt32) : ℕ := (len.toNat + 3) / 4

/-- A buffer that is filled from the numbers after this state. -/
def filled (buf : ℕ → UInt8) (len rngState : UInt32) : ℕ → UInt8 := fun j =>
  if j < len.toNat then byteOf (numbers rngState (j / 4)) (j % 4) else buf j

/-- The buffer before the turn with `i = 4 * t`. -/
def filledTo (buf : ℕ → UInt8) (len s : UInt32) (t : ℕ) : ℕ → UInt8 := fun j =>
  if j < 4 * t ∧ j < len.toNat then byteOf (numbers s (j / 4)) (j % 4) else buf j

theorem filledTo_zero (buf : ℕ → UInt8) (len s : UInt32) : filledTo buf len s 0 = buf := by
  ext j
  simp [filledTo]

theorem filledTo_words (buf : ℕ → UInt8) (len s : UInt32) :
    filledTo buf len s (words len) = filled buf len s := by
  ext j
  have hiff : (j < 4 * words len ∧ j < len.toNat) ↔ j < len.toNat := by
    rw [words]
    omega
  simp only [filledTo, filled, hiff]

/-- One turn writes what is due to it. -/
theorem copyWord_filledTo (buf : ℕ → UInt8) {len s i : UInt32} {t : ℕ} (hi : i.toNat = 4 * t)
    {lenCur : UInt8} (hcur : lenCur.toNat = min 4 (len.toNat - 4 * t)) :
    copyWord (filledTo buf len s t) i (numbers s t) lenCur = filledTo buf len s (t + 1) := by
  ext j
  simp only [copyWord, filledTo, hi, hcur]
  by_cases hlow : j < 4 * t
  · have hout : ¬ (4 * t ≤ j ∧ j < 4 * t + min 4 (len.toNat - 4 * t)) := by omega
    have hnext : j < 4 * (t + 1) := by omega
    simp [hout, hlow, hnext]
  · by_cases hin : j < 4 * (t + 1) ∧ j < len.toNat
    · have hword : 4 * t ≤ j ∧ j < 4 * t + min 4 (len.toNat - 4 * t) := by omega
      have hdiv : j / 4 = t := by omega
      have hmod : j % 4 = j - 4 * t := by omega
      simp [hword, hin, hdiv, hmod]
    · have hout : ¬ (4 * t ≤ j ∧ j < 4 * t + min 4 (len.toNat - 4 * t)) := by omega
      simp [hout, hlow, hin]

/-- The loop from the turn with `i = 4 * t` on. -/
theorem fillLoop_eq (buf : ℕ → UInt8) {len s : UInt32} (hlen : len.toNat ≤ 2 ^ 32 - 4)
    {turns t : ℕ} (hturns : words len < turns + t) (ht : t ≤ words len) {i : UInt32}
    (hi : i.toNat = 4 * t) :
    fillLoop len turns (filledTo buf len s t) i (rhsHalRandomReadRng^[t] s) =
      some (filled buf len s, rhsHalRandomReadRng^[words len] s) := by
  induction turns generalizing t i with
  | zero => omega
  | succ turns ih =>
      rw [fillLoop]
      by_cases hend : t = words len
      · subst hend
        have hnot : ¬ i < len := by
          rw [UInt32.lt_iff_toNat_lt, hi, words]
          omega
        rw [if_neg hnot, filledTo_words]
      · have hwords : words len = (len.toNat + 3) / 4 := rfl
        have hlt : i < len := by
          rw [UInt32.lt_iff_toNat_lt, hi]
          omega
        have hnext : (i + 4).toNat = 4 * (t + 1) := by
          rw [UInt32.toNat_add, hi]
          change (4 * t + 4) % 2 ^ 32 = 4 * (t + 1)
          omega
        have hnumber : rhsHalRandomReadRng (rhsHalRandomReadRng^[t] s) = numbers s t := by
          rw [numbers, Function.iterate_succ_apply']
        rw [if_pos hlt]
        simp only [hnumber]
        rw [copyWord_filledTo buf hi ?_]
        · rw [numbers]
          exact ih (by omega) (by omega) hnext
        · split
          · rename_i hmore
            rw [UInt32.lt_iff_toNat_lt, hnext] at hmore
            change 4 = _
            omega
          · rename_i hless
            rw [UInt32.lt_iff_toNat_lt, hnext] at hless
            rw [UInt32.toNat_toUInt8, UInt32.toNat_sub_of_le _ _ (UInt32.le_of_lt hlt), hi]
            omega

/-! ## Runs of calls -/

/-- A call of one of the two functions. -/
inductive Call
  | get
  | fill (buf : ℕ → UInt8) (len : UInt32)

/-- What a call returns or leaves in its buffer. -/
inductive Answer
  | number (r : UInt32)
  | buffer (buf : ℕ → UInt8)

def Call.serve (turns : ℕ) (s : UInt32) : Call → Option (Answer × UInt32)
  | .get => some (.number (rhsHalRandomGet s).1, (rhsHalRandomGet s).2)
  | .fill buf len => (rhsHalRandomFillBuf turns buf len s).map fun (buf, s) => (.buffer buf, s)

/-- One call after the other. -/
def serveAll (turns : ℕ) : UInt32 → List Call → Option (List Answer × UInt32)
  | s, [] => some ([], s)
  | s, c :: calls => do
      let (answer, s) ← c.serve turns s
      let (answers, s) ← serveAll turns s calls
      some (answer :: answers, s)

/-- How many numbers a call takes. -/
def Call.cost : Call → ℕ
  | .get => 1
  | .fill _ len => words len

/-- What a call gets of the numbers after a state. -/
def Call.share (s : UInt32) : Call → Answer
  | .get => .number (numbers s 0)
  | .fill buf len => .buffer (filled buf len s)

/-- The answers, where each call gets the numbers after those before it. -/
def shares (s : UInt32) : ℕ → List Call → List Answer
  | _, [] => []
  | n, c :: calls => c.share (rhsHalRandomReadRng^[n] s) :: shares s (n + c.cost) calls

/-- A buffer has bytes, and is smaller than the memory by a word. -/
def Call.Fits (turns : ℕ) : Call → Prop
  | .get => True
  | .fill _ len => len ≠ 0 ∧ len.toNat ≤ 2 ^ 32 - 4 ∧ words len < turns

theorem Call.serve_eq {turns : ℕ} {c : Call} (hfits : c.Fits turns) (s : UInt32) :
    c.serve turns s = some (c.share s, rhsHalRandomReadRng^[c.cost] s) := by
  cases c with
  | get => rfl
  | fill buf len =>
      obtain ⟨hne, hlen, hturns⟩ := hfits
      have hloop := fillLoop_eq buf (s := s) hlen (t := 0) hturns (Nat.zero_le _) (i := 0) rfl
      rw [filledTo_zero, Function.iterate_zero_apply] at hloop
      simp [Call.serve, rhsHalRandomFillBuf, hne, hloop, Call.share, Call.cost]

theorem serveAll_eq {turns : ℕ} {calls : List Call} (hfits : ∀ c ∈ calls, c.Fits turns)
    (s : UInt32) (n : ℕ) :
    serveAll turns (rhsHalRandomReadRng^[n] s) calls =
      some (shares s n calls, rhsHalRandomReadRng^[n + (calls.map Call.cost).sum] s) := by
  induction calls generalizing n with
  | nil => rfl
  | cons c calls ih =>
      rw [List.forall_mem_cons] at hfits
      have hnext : rhsHalRandomReadRng^[c.cost] (rhsHalRandomReadRng^[n] s) =
          rhsHalRandomReadRng^[n + c.cost] s := by
        rw [← Function.iterate_add_apply, Nat.add_comm]
      rw [serveAll, Call.serve_eq hfits.1, shares]
      simp only [Option.bind_eq_bind, Option.bind_some, hnext]
      rw [ih hfits.2, List.map_cons, List.sum_cons, Nat.add_assoc]
      rfl

/-- No number comes twice in as many as there are. -/
theorem numbers_inj (s : UInt32) {m n : ℕ} (hm : m < 2 ^ 32) (hn : n < 2 ^ 32)
    (h : numbers s m = numbers s n) : m = n := by
  have hlow := congrArg (fun r : UInt32 => r.toNat % 2 ^ 32) h
  have hmod : m % 2 ^ 32 = n % 2 ^ 32 := (low_bits_modEq_iff s (le_refl 32) m n).mp hlow
  rwa [Nat.mod_eq_of_lt hm, Nat.mod_eq_of_lt hn] at hmod

/-- **A run of calls shares out one sequence.**  Each call returns, or leaves in exactly the bytes
of its buffer, the numbers after those of the calls before it; and as long as not all have been
handed out, no number is handed out twice. -/
theorem serve_all {turns : ℕ} {calls : List Call} (hfits : ∀ c ∈ calls, c.Fits turns)
    (s : UInt32) :
    serveAll turns s calls =
        some (shares s 0 calls, rhsHalRandomReadRng^[(calls.map Call.cost).sum] s) ∧
      ((calls.map Call.cost).sum ≤ 2 ^ 32 →
        ∀ i j, i < (calls.map Call.cost).sum → j < (calls.map Call.cost).sum →
          numbers s i = numbers s j → i = j) := by
  constructor
  · have hrun := serveAll_eq hfits s 0
    rwa [Function.iterate_zero_apply, Nat.zero_add] at hrun
  · intro htotal i j hi hj h
    exact numbers_inj s (hi.trans_le htotal) (hj.trans_le htotal) h

/-- A number, and five bytes that take the next two. -/
theorem number_and_five_bytes :
    ∃ buf s, serveAll 3 1 [.get, .fill (fun _ => 0) 5] =
        some ([.number (numbers 1 0), .buffer buf], s) ∧
      buf 4 = byteOf (numbers 1 2) 0 ∧ buf 5 = 0 := by
  have hfits : ∀ c ∈ [Call.get, .fill (fun _ => 0) 5], c.Fits 3 := by
    simp [Call.Fits, words]
  have hrun := (serve_all hfits 1).1
  exact ⟨filled (fun _ => 0) 5 (rhsHalRandomReadRng 1), _, hrun, rfl, rfl⟩

end RhsCore.Random
