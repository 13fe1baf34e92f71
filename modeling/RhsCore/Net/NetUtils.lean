import Mathlib.Algebra.Group.Nat.Defs
import Mathlib.Data.Nat.Notation
import Mathlib.Data.List.Basic
import RhsCore.Lib.CString

/-!
# Addresses and their text

`net_utils.c`: dotted decimal addresses, read and written.

## Main definitions

* `parseOctet`, `stringToIp`, `ipToString` — the functions of the source.
* `mgIpv4`, `ipByte` — an address as the word of the interface, and its bytes.
* `canonical` — the text of the address a string stands for.
* `stringToIp_ipToString` — what was written is read back.
-/

namespace RhsCore.NetUtils

/-- Four octets, `unsigned int` each. -/
structure Octets where
  a : UInt32
  b : UInt32
  c : UInt32
  d : UInt32
  deriving DecidableEq, Repr

/-! ## Reading -/

/-- The loop of `parse_octet`: the value, how many digits there were, and what is left; it
gives up as soon as the value is too large. -/
def parseOctetLoop : CString → UInt32 → ℕ → Option (UInt32 × ℕ × CString)
  | [], value, digitCount => some (value, digitCount, [])
  | c :: p, value, digitCount =>
      if '0' ≤ c ∧ c ≤ '9' then
        let value := value * 10 + (c.toNat - '0'.toNat).toUInt32
        if value > 255 then none else parseOctetLoop p value (digitCount + 1)
      else some (value, digitCount, c :: p)

/-- `parse_octet`: at least one digit must be present. -/
def parseOctet (str : CString) : Option (UInt32 × CString) :=
  match parseOctetLoop str 0 0 with
  | none => none
  | some (value, digitCount, p) => if digitCount = 0 then none else some (value, p)

/-- `if (*ip_str++ != '.') return -1`. -/
def skipDot : CString → Option CString
  | '.' :: ipStr => some ipStr
  | _ => none

/-- The end of the string, or white space. -/
def endsHere : CString → Bool
  | [] => true
  | c :: _ => c = ' ' || c = '\t' || c = '\r' || c = '\n'

/-- `string_to_ip`. -/
def stringToIp (ipStr : CString) : Option Octets := do
  let ipStr := ipStr.dropWhile fun c => c = ' ' || c = '\t'
  let (a, ipStr) ← parseOctet ipStr
  let ipStr ← skipDot ipStr
  let (b, ipStr) ← parseOctet ipStr
  let ipStr ← skipDot ipStr
  let (c, ipStr) ← parseOctet ipStr
  let ipStr ← skipDot ipStr
  let (d, ipStr) ← parseOctet ipStr
  if endsHere ipStr then some { a := a, b := b, c := c, d := d } else none

/-- `ip_string_is_valid`. -/
def ipStringIsValid (ipStr : CString) : Bool := (stringToIp ipStr).isSome

/-! ## Writing -/

/-- `%u`. -/
def decimal (n : UInt32) : CString := Nat.toDigits 10 n.toNat

/-- `ip_to_string`; nothing is written for an octet above 255. -/
def ipToString (a b c d : UInt32) : Option CString :=
  if a > 255 ∨ b > 255 ∨ c > 255 ∨ d > 255 then none
  else some (decimal a ++ '.' :: (decimal b ++ '.' :: (decimal c ++ '.' :: decimal d)))

/-- The octets are bytes. -/
structure Octets.Small (o : Octets) : Prop where
  a : o.a ≤ 255
  b : o.b ≤ 255
  c : o.c ≤ 255
  d : o.d ≤ 255

/-- The text of the address a string stands for. -/
def canonical (ipStr : CString) : Option CString :=
  (stringToIp ipStr).bind fun o => ipToString o.a o.b o.c o.d

/-! ## The word of the interface -/

/-- `MG_IPV4`: the first octet is the first byte in memory. -/
def mgIpv4 (o : Octets) : UInt32 := o.a ||| o.b <<< 8 ||| o.c <<< 16 ||| o.d <<< 24

/-- `ip_b[k]`, byte `k` of an address in memory. -/
def ipByte (ip : UInt32) (k : ℕ) : UInt32 := (ip >>> UInt32.ofNat (8 * k)) &&& 0xFF

theorem Octets.Small.toNat_lt {o : Octets} (h : o.Small) :
    o.a.toNat < 256 ∧ o.b.toNat < 256 ∧ o.c.toNat < 256 ∧ o.d.toNat < 256 :=
  ⟨Nat.lt_succ_of_le (UInt32.le_iff_toNat_le.mp h.a),
    Nat.lt_succ_of_le (UInt32.le_iff_toNat_le.mp h.b),
    Nat.lt_succ_of_le (UInt32.le_iff_toNat_le.mp h.c),
    Nat.lt_succ_of_le (UInt32.le_iff_toNat_le.mp h.d)⟩

theorem toNat_shiftLeft_small {x : UInt32} (hx : x.toNat < 256) {n : ℕ} (hn : n ≤ 24) :
    (x <<< UInt32.ofNat n).toNat = 2 ^ n * x.toNat := by
  have hlt : 2 ^ n * x.toNat < 2 ^ 32 := by
    have hle : 2 ^ n * x.toNat < 2 ^ 24 * 256 :=
      Nat.mul_lt_mul_of_le_of_lt (Nat.pow_le_pow_right (by decide) hn) hx (by decide)
    omega
  rw [UInt32.toNat_shiftLeft, UInt32.toNat_ofNat_of_lt' (by simp [UInt32.size]; omega),
    Nat.mod_eq_of_lt (show n < 32 by omega), Nat.shiftLeft_eq, Nat.mul_comm,
    Nat.mod_eq_of_lt hlt]

theorem toNat_mgIpv4 {o : Octets} (h : o.Small) :
    (mgIpv4 o).toNat =
      o.a.toNat + 256 * (o.b.toNat + 256 * (o.c.toNat + 256 * o.d.toNat)) := by
  obtain ⟨ha, hb, hc, hd⟩ := h.toNat_lt
  have hb' := toNat_shiftLeft_small hb (show 8 ≤ 24 by decide)
  have hc' := toNat_shiftLeft_small hc (show 16 ≤ 24 by decide)
  have hd' := toNat_shiftLeft_small hd (show 24 ≤ 24 by decide)
  change (o.b <<< 8).toNat = _ at hb'
  change (o.c <<< 16).toNat = _ at hc'
  change (o.d <<< 24).toNat = _ at hd'
  rw [mgIpv4, UInt32.toNat_or, UInt32.toNat_or, UInt32.toNat_or, hb', hc', hd',
    Nat.or_comm _ (2 ^ 8 * _), ← Nat.two_pow_add_eq_or_of_lt (i := 8) ha,
    Nat.or_comm _ (2 ^ 16 * _), ← Nat.two_pow_add_eq_or_of_lt (i := 16) (by omega),
    Nat.or_comm _ (2 ^ 24 * _), ← Nat.two_pow_add_eq_or_of_lt (i := 24) (by omega)]
  omega

theorem toNat_ipByte (ip : UInt32) {k : ℕ} (hk : k < 4) :
    (ipByte ip k).toNat = ip.toNat / 256 ^ k % 256 := by
  rw [ipByte, UInt32.toNat_and, UInt32.toNat_shiftRight,
    UInt32.toNat_ofNat_of_lt' (by simp [UInt32.size]; omega),
    Nat.mod_eq_of_lt (show 8 * k < 32 by omega), Nat.shiftRight_eq_div_pow, Nat.pow_mul]
  exact Nat.and_two_pow_sub_one_eq_mod _ 8

theorem ipByte_mgIpv4 {o : Octets} (h : o.Small) :
    ipByte (mgIpv4 o) 0 = o.a ∧ ipByte (mgIpv4 o) 1 = o.b ∧ ipByte (mgIpv4 o) 2 = o.c ∧
      ipByte (mgIpv4 o) 3 = o.d := by
  obtain ⟨ha, hb, hc, hd⟩ := h.toNat_lt
  have hword := toNat_mgIpv4 h
  refine ⟨?_, ?_, ?_, ?_⟩
  · rw [← UInt32.toNat_inj, toNat_ipByte _ (by decide), hword]
    omega
  · rw [← UInt32.toNat_inj, toNat_ipByte _ (by decide), hword]
    omega
  · rw [← UInt32.toNat_inj, toNat_ipByte _ (by decide), hword]
    omega
  · rw [← UInt32.toNat_inj, toNat_ipByte _ (by decide), hword]
    omega

/-! ## What is read -/

theorem parseOctetLoop_le {str p : CString} {value result : UInt32} {digitCount n : ℕ}
    (hvalue : value ≤ 255) (h : parseOctetLoop str value digitCount = some (result, n, p)) :
    result ≤ 255 := by
  induction str generalizing value digitCount with
  | nil =>
      cases h
      exact hvalue
  | cons c str ih =>
      simp only [parseOctetLoop] at h
      split at h
      · split at h
        · cases h
        · rename_i hle
          exact ih (UInt32.not_lt.mp hle) h
      · cases h
        exact hvalue

theorem parseOctet_le {str p : CString} {value : UInt32} (h : parseOctet str = some (value, p)) :
    value ≤ 255 := by
  rw [parseOctet] at h
  split at h
  · cases h
  · rename_i hloop
    split at h
    · cases h
    · cases h
      exact parseOctetLoop_le (by decide) hloop

theorem small_stringToIp {ipStr : CString} {o : Octets} (h : stringToIp ipStr = some o) :
    o.Small := by
  simp only [stringToIp, Option.bind_eq_bind, Option.bind_eq_some_iff, Prod.exists] at h
  obtain ⟨a, _, ha, _, _, b, _, hb, _, _, c, _, hc, _, _, d, _, hd, h⟩ := h
  split at h
  · cases h
    exact ⟨parseOctet_le ha, parseOctet_le hb, parseOctet_le hc, parseOctet_le hd⟩
  · cases h

/-! ## What is written is read back -/

/-- There is no digit at the front. -/
def NoDigit (rest : CString) : Prop := ∀ c p, rest = c :: p → ¬('0' ≤ c ∧ c ≤ '9')

theorem parseOctetLoop_append {digits rest : CString} (hrest : NoDigit rest) (value : ℕ)
    (digitCount : ℕ) (hdigits : ∀ c ∈ digits, '0' ≤ c ∧ c ≤ '9')
    (hle : Nat.ofDigitChars 10 digits value ≤ 255) :
    parseOctetLoop (digits ++ rest) value.toUInt32 digitCount =
      some ((Nat.ofDigitChars 10 digits value).toUInt32, digitCount + digits.length, rest) := by
  induction digits generalizing value digitCount with
  | nil =>
      cases rest with
      | nil => simp [parseOctetLoop]
      | cons c p => simp [parseOctetLoop, hrest c p rfl]
  | cons c digits ih =>
      have hc := hdigits c List.mem_cons_self
      rw [Nat.ofDigitChars_cons] at hle ⊢
      have hvalue : 10 * value + (c.toNat - '0'.toNat) ≤ 255 := by
        rw [Nat.ofDigitChars_eq_ofDigitChars_zero] at hle
        refine Nat.le_trans ?_ hle
        exact Nat.le_trans (Nat.le_mul_of_pos_left _ (Nat.pow_pos (by decide)))
          (Nat.le_add_right _ _)
      have hnext : value.toUInt32 * 10 + (c.toNat - '0'.toNat).toUInt32 =
          (10 * value + (c.toNat - '0'.toNat)).toUInt32 := by
        simp [Nat.toUInt32, UInt32.ofNat_add, UInt32.ofNat_mul, UInt32.mul_comm]
      have hsmall : ¬(10 * value + (c.toNat - '0'.toNat)).toUInt32 > 255 := by
        rw [gt_iff_lt, UInt32.not_lt, UInt32.le_iff_toNat_le, Nat.toUInt32,
          UInt32.toNat_ofNat_of_lt' (by simp only [UInt32.size]; omega)]
        exact hvalue
      simp only [List.cons_append, parseOctetLoop, if_pos hc, hnext, if_neg hsmall]
      rw [ih _ _ (fun c hc => hdigits c (List.mem_cons_of_mem _ hc)) hle]
      simp [Nat.add_assoc, Nat.add_comm 1]

theorem digit_of_mem_decimal {n : UInt32} {c : Char} (hc : c ∈ decimal n) :
    '0' ≤ c ∧ c ≤ '9' := by
  have hdigit := Nat.isDigit_of_mem_toDigits (by decide) (by decide) hc
  simpa [Char.isDigit, Char.le_def] using hdigit

theorem parseOctet_decimal {n : UInt32} (hn : n ≤ 255) {rest : CString} (hrest : NoDigit rest) :
    parseOctet (decimal n ++ rest) = some (n, rest) := by
  have hloop := parseOctetLoop_append hrest 0 0
    (fun c hc => digit_of_mem_decimal hc)
    (by rw [decimal, Nat.ofDigitChars_ten_toDigits]; exact UInt32.le_iff_toNat_le.mp hn)
  simp only [decimal, Nat.ofDigitChars_ten_toDigits, Nat.toUInt32_eq, UInt32.ofNat_toNat]
    at hloop
  have hpos : 0 + (Nat.toDigits 10 n.toNat).length ≠ 0 := by
    rw [Nat.zero_add]
    exact Nat.ne_of_gt Nat.length_toDigits_pos
  change parseOctetLoop _ 0 0 = _ at hloop
  simp only [parseOctet, decimal, hloop, if_neg hpos]

theorem noDigit_dot (rest : CString) : NoDigit ('.' :: rest) := by
  intro c p h
  cases h
  decide

/-- A number does not start with white space. -/
theorem dropWhile_decimal (n : UInt32) (rest : CString) :
    (decimal n ++ rest).dropWhile (fun c => c = ' ' || c = '\t') = decimal n ++ rest := by
  cases hn : decimal n with
  | nil => exact absurd hn Nat.toDigits_ne_nil
  | cons c p =>
      have hc := digit_of_mem_decimal (n := n) (c := c) (by simp [hn])
      have hblank : ¬((c = ' ' || c = '\t') = true) := by
        simp only [Bool.or_eq_true, decide_eq_true_eq]
        intro h
        rcases h with rfl | rfl
        · exact absurd hc (by decide)
        · exact absurd hc (by decide)
      rw [List.cons_append, List.dropWhile_cons, if_neg hblank]

/-- **What was written is read back.** -/
theorem stringToIp_ipToString {o : Octets} {ipStr : CString}
    (h : ipToString o.a o.b o.c o.d = some ipStr) : stringToIp ipStr = some o := by
  rw [ipToString] at h
  split at h
  · cases h
  · rename_i hsmall
    cases h
    simp only [not_or, gt_iff_lt, UInt32.not_lt] at hsmall
    obtain ⟨ha, hb, hc, hd⟩ := hsmall
    have hlast : parseOctet (decimal o.d ++ []) = _ := parseOctet_decimal hd nofun
    rw [List.append_nil] at hlast
    simp [stringToIp, dropWhile_decimal, parseOctet_decimal ha (noDigit_dot _),
      parseOctet_decimal hb (noDigit_dot _), parseOctet_decimal hc (noDigit_dot _), hlast,
      skipDot, endsHere]

theorem ipToString_eq {o : Octets} (h : o.Small) :
    ∃ ipStr, ipToString o.a o.b o.c o.d = some ipStr := by
  rw [ipToString, if_neg]
  · exact ⟨_, rfl⟩
  · simp only [not_or, gt_iff_lt, UInt32.not_lt]
    exact ⟨h.a, h.b, h.c, h.d⟩

end RhsCore.NetUtils
