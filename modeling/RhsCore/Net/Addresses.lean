import Mathlib.Data.List.TakeWhile
import RhsCore.Net.NetUtils

/-!
# Exactly which texts are addresses

`string_to_ip` again, this time over memory: the characters of the string, its NUL and
whatever lies behind.  Reading outside that memory and arithmetic that does not fit are
outcomes of their own here, and neither occurs.

What is accepted is described by its parts, without the reader: blanks, four runs of
digits, three dots, and an end.

## Main definitions

* `Stop` — why the reader stopped without an address.
* `parseOctetAt`, `stringToIpAt` — the functions of the source over memory.
* `Run`, `IsAddress` — a run of digits with its value, and the text of an address.
* `stringToIp_eq_some_iff`, `ipStringIsValid_iff` — the reader accepts exactly the texts of
  addresses.
-/

namespace RhsCore.NetUtils
open CString

/-! ## Over memory -/

/-- Why the reader stopped: it returned `-1`, it read outside the memory, or a value did not
fit into an `unsigned int`. -/
inductive Stop
  | refused
  | pastEnd
  | overflow
  deriving DecidableEq, Repr

/-- `*p`, where `p` is what is left of the memory. -/
def deref : List Char → Except Stop Char
  | [] => .error .pastEnd
  | c :: _ => .ok c

/-- `while (*ip_str == ' ' || *ip_str == '\t') ip_str++`. -/
def skipBlanksAt : List Char → Except Stop (List Char)
  | [] => .error .pastEnd
  | c :: p => if c = ' ' ∨ c = '\t' then skipBlanksAt p else .ok (c :: p)

/-- The loop of `parse_octet`; an `int` holds the number of a string's characters, and so
`digit_count`. -/
def parseOctetLoopAt : List Char → UInt32 → ℕ → Except Stop (UInt32 × ℕ × List Char)
  | [], _, _ => .error .pastEnd
  | c :: p, value, digitCount =>
      if '0' ≤ c ∧ c ≤ '9' then
        if 2 ^ 32 ≤ value.toNat * 10 + (c.toNat - '0'.toNat) then .error .overflow
        else
          let value := value * 10 + (c.toNat - '0'.toNat).toUInt32
          if value > 255 then .error .refused else parseOctetLoopAt p value (digitCount + 1)
      else .ok (value, digitCount, c :: p)

/-- `parse_octet`. -/
def parseOctetAt (str : List Char) : Except Stop (UInt32 × List Char) := do
  let (value, digitCount, p) ← parseOctetLoopAt str 0 0
  if digitCount = 0 then .error .refused else pure (value, p)

/-- `if (*ip_str++ != '.') return -1`. -/
def skipDotAt (ipStr : List Char) : Except Stop (List Char) := do
  let c ← deref ipStr
  if c ≠ '.' then .error .refused else pure ipStr.tail

/-- `string_to_ip`. -/
def stringToIpAt (ipStr : List Char) : Except Stop Octets := do
  let ipStr ← skipBlanksAt ipStr
  let (a, ipStr) ← parseOctetAt ipStr
  let ipStr ← skipDotAt ipStr
  let (b, ipStr) ← parseOctetAt ipStr
  let ipStr ← skipDotAt ipStr
  let (c, ipStr) ← parseOctetAt ipStr
  let ipStr ← skipDotAt ipStr
  let (d, ipStr) ← parseOctetAt ipStr
  let last ← deref ipStr
  if last ≠ '\x00' ∧ last ≠ ' ' ∧ last ≠ '\t' ∧ last ≠ '\r' ∧ last ≠ '\n' then .error .refused
  else pure { a := a, b := b, c := c, d := d }

/-! ## Neither past the end nor too large -/

variable {s p : CString} {behind : List Char}

/-- The loop over memory is the loop over the string; the value is checked before it grows. -/
theorem parseOctetLoopAt_stored (hs : '\x00' ∉ s) {value : UInt32} (hvalue : value ≤ 255)
    (digitCount : ℕ) :
    parseOctetLoopAt (stored s behind) value digitCount =
      match parseOctetLoop s value digitCount with
      | none => .error .refused
      | some (result, n, p) => .ok (result, n, stored p behind) := by
  induction s generalizing value digitCount with
  | nil =>
      have hnul : ¬('0' ≤ '\x00' ∧ '\x00' ≤ '9') := by decide
      rw [stored, List.nil_append, parseOctetLoopAt, if_neg hnul]
      rfl
  | cons c s ih =>
      simp only [stored, List.cons_append, parseOctetLoopAt, parseOctetLoop]
      split
      · rename_i hdigit
        have hnine : c.toNat ≤ 57 := hdigit.2
        have hsmall : value.toNat ≤ 255 := UInt32.le_iff_toNat_le.mp hvalue
        have hzero : '0'.toNat = 48 := rfl
        rw [if_neg (by omega)]
        split
        · rfl
        · rename_i hle
          exact ih (fun h => hs (List.mem_cons_of_mem _ h)) (UInt32.not_lt.mp hle) _
      · rfl

/-- A reader that refuses. -/
def orRefused {α : Type} : Option α → Except Stop α
  | none => .error .refused
  | some x => .ok x

theorem parseOctetAt_stored (hs : '\x00' ∉ s) :
    parseOctetAt (stored s behind) =
      orRefused ((parseOctet s).map fun r => (r.1, stored r.2 behind)) := by
  rw [parseOctetAt, parseOctetLoopAt_stored hs (by decide), parseOctet]
  cases parseOctetLoop s 0 0 with
  | none => rfl
  | some r =>
      obtain ⟨value, digitCount, p⟩ := r
      by_cases hcount : digitCount = 0
      · simp only [hcount, if_true]
        rfl
      · simp only [hcount, if_false]
        exact if_neg hcount

theorem skipDotAt_stored (s : CString) (behind : List Char) :
    skipDotAt (stored s behind) = orRefused ((skipDot s).map fun p => stored p behind) := by
  cases s with
  | nil => rfl
  | cons c s =>
      by_cases hc : c = '.'
      · rw [hc]
        rfl
      · have hskip : skipDot (c :: s) = none := by
          rw [skipDot]
          rintro p ⟨⟩
          exact hc rfl
        rw [hskip]
        exact if_pos hc

theorem skipBlanksAt_stored (s : CString) (behind : List Char) :
    skipBlanksAt (stored s behind) =
      .ok (stored (s.dropWhile fun c => c = ' ' || c = '\t') behind) := by
  induction s with
  | nil => rfl
  | cons c s ih =>
      rw [stored, List.cons_append, skipBlanksAt, List.dropWhile_cons]
      by_cases hc : c = ' ' ∨ c = '\t'
      · rw [if_pos hc, if_pos (by simpa using hc)]
        exact ih
      · rw [if_neg hc, if_neg (by simpa using hc)]
        rfl

/-- What stands behind the last octet is read as a character of the memory. -/
theorem deref_stored (hs : '\x00' ∉ s) : ∃ c, deref (stored s behind) = .ok c ∧
    (endsHere s = true ↔ ¬(c ≠ '\x00' ∧ c ≠ ' ' ∧ c ≠ '\t' ∧ c ≠ '\r' ∧ c ≠ '\n')) := by
  cases s with
  | nil => exact ⟨'\x00', rfl, by decide⟩
  | cons c s =>
      have hc : c ≠ '\x00' := fun h => hs (h ▸ List.mem_cons_self)
      refine ⟨c, rfl, ?_⟩
      simp only [endsHere, Bool.or_eq_true, decide_eq_true_eq, ne_eq, hc, not_false_eq_true,
        true_and, not_and, not_not]
      tauto

/-! ## The parts of a text -/

/-- A non-empty run of digits, of a value that an octet can have. -/
structure Run (digits : CString) (value : UInt32) : Prop where
  ne_nil : digits ≠ []
  digit : ∀ c ∈ digits, '0' ≤ c ∧ c ≤ '9'
  value_eq : Nat.ofDigitChars 10 digits 0 = value.toNat
  le : value ≤ 255

/-- The loop takes the digits there are, and counts them. -/
theorem parseOctetLoop_eq_some {str p : CString} {value result : UInt32} {digitCount n : ℕ}
    (hvalue : value ≤ 255) (h : parseOctetLoop str value digitCount = some (result, n, p)) :
    ∃ digits, str = digits ++ p ∧ (∀ c ∈ digits, '0' ≤ c ∧ c ≤ '9') ∧ NoDigit p ∧
      Nat.ofDigitChars 10 digits value.toNat = result.toNat ∧ n = digitCount + digits.length := by
  induction str generalizing value digitCount with
  | nil =>
      cases h
      refine ⟨[], rfl, by simp, ?_, rfl, rfl⟩
      intro c p h
      cases h
  | cons c str ih =>
      simp only [parseOctetLoop] at h
      split at h
      · rename_i hdigit
        split at h
        · cases h
        · rename_i hle
          obtain ⟨digits, rfl, hdigits, hp, hresult, rfl⟩ := ih (UInt32.not_lt.mp hle) h
          have hnine : c.toNat ≤ 57 := hdigit.2
          have hsmall : value.toNat ≤ 255 := UInt32.le_iff_toNat_le.mp hvalue
          have hzero : '0'.toNat = 48 := rfl
          have hnext : (value * 10 + (c.toNat - '0'.toNat).toUInt32).toNat
              = 10 * value.toNat + (c.toNat - '0'.toNat) := by
            have hdig : (c.toNat - '0'.toNat).toUInt32.toNat = c.toNat - '0'.toNat :=
              UInt32.toNat_ofNat_of_lt' (by simp only [UInt32.size]; omega)
            rw [UInt32.toNat_add, UInt32.toNat_mul, hdig, show (10 : UInt32).toNat = 10 from rfl]
            omega
          refine ⟨c :: digits, rfl, ?_, hp, ?_, ?_⟩
          · intro x hx
            rcases List.mem_cons.mp hx with rfl | hx
            · exact hdigit
            · exact hdigits x hx
          · rw [Nat.ofDigitChars_cons, ← hnext, hresult]
          · rw [List.length_cons]
            omega
      · rename_i hdigit
        cases h
        refine ⟨[], rfl, by simp, ?_, rfl, rfl⟩
        rintro x q ⟨⟩
        exact hdigit

/-- **What an octet is**: a run of digits, and no digit behind it. -/
theorem parseOctet_eq_some_iff {str p : CString} {value : UInt32} :
    parseOctet str = some (value, p) ↔
      ∃ digits, str = digits ++ p ∧ Run digits value ∧ NoDigit p := by
  constructor
  · intro h
    have hle := parseOctet_le h
    rw [parseOctet] at h
    split at h
    · cases h
    · rename_i hloop
      obtain ⟨digits, rfl, hdigits, hp, hvalue, rfl⟩ := parseOctetLoop_eq_some (by decide) hloop
      split at h
      · cases h
      · rename_i hcount
        cases h
        refine ⟨digits, rfl, ⟨?_, hdigits, hvalue, hle⟩, hp⟩
        rintro rfl
        exact hcount rfl
  · rintro ⟨digits, rfl, hrun, hp⟩
    have hsmall : value.toNat ≤ 255 := UInt32.le_iff_toNat_le.mp hrun.le
    have hloop := parseOctetLoop_append hp 0 0 hrun.digit (by rw [hrun.value_eq]; exact hsmall)
    simp only [hrun.value_eq, Nat.toUInt32_eq, UInt32.ofNat_toNat] at hloop
    change parseOctetLoop _ 0 0 = _ at hloop
    have hlength : 0 + digits.length ≠ 0 := by
      have hpos := List.length_pos_of_ne_nil hrun.ne_nil
      omega
    simp only [parseOctet, hloop, if_neg hlength]

theorem skipDot_eq_some_iff : skipDot s = some p ↔ s = '.' :: p := by
  constructor
  · intro h
    cases s with
    | nil => cases h
    | cons c s =>
        by_cases hc : c = '.'
        · rw [hc] at h ⊢
          cases h
          rfl
        · simp only [skipDot] at h
          split at h
          · rename_i heq
            cases heq
            exact absurd rfl hc
          · cases h
  · rintro rfl
    rfl

/-- **The text of an address**: blanks, four octets with dots between them, and the end of the
string or white space. -/
def IsAddress (s : CString) (o : Octets) : Prop :=
  ∃ blanks A B C D rest,
    s = blanks ++ (A ++ '.' :: (B ++ '.' :: (C ++ '.' :: (D ++ rest)))) ∧
      (∀ c ∈ blanks, c = ' ' ∨ c = '\t') ∧
      Run A o.a ∧ Run B o.b ∧ Run C o.c ∧ Run D o.d ∧
      ∀ c tail, rest = c :: tail → c = ' ' ∨ c = '\t' ∨ c = '\r' ∨ c = '\n'

theorem endsHere_iff : endsHere s = true ↔
    ∀ c tail, s = c :: tail → c = ' ' ∨ c = '\t' ∨ c = '\r' ∨ c = '\n' := by
  cases s with
  | nil => simp [endsHere]
  | cons c s =>
      simp only [endsHere, Bool.or_eq_true, decide_eq_true_eq, List.cons.injEq, and_imp, or_assoc]
      exact ⟨fun h _ _ hc _ => hc ▸ h, fun h => h c s rfl rfl⟩

/-- What may end an address is not a digit. -/
theorem noDigit_of_endsHere (h : endsHere s = true) : NoDigit s := by
  intro c tail hs
  rcases endsHere_iff.mp h c tail hs with rfl | rfl | rfl | rfl <;> decide

/-- Blanks are skipped up to the first digit. -/
theorem dropWhile_blanks {blanks A rest : CString} (hblanks : ∀ c ∈ blanks, c = ' ' ∨ c = '\t')
    {value : UInt32} (hA : Run A value) :
    (blanks ++ (A ++ rest)).dropWhile (fun c => c = ' ' || c = '\t') = A ++ rest := by
  induction blanks with
  | nil =>
      obtain ⟨c, A, rfl⟩ := List.exists_cons_of_ne_nil hA.ne_nil
      have hdigit := hA.digit c List.mem_cons_self
      have hblank : ¬((c = ' ' || c = '\t') = true) := by
        simp only [Bool.or_eq_true, decide_eq_true_eq]
        rintro (rfl | rfl)
        · exact absurd hdigit (by decide)
        · exact absurd hdigit (by decide)
      rw [List.nil_append, List.cons_append, List.dropWhile_cons, if_neg hblank]
  | cons c blanks ih =>
      have hc := hblanks c List.mem_cons_self
      rw [List.cons_append, List.dropWhile_cons, if_pos (by simpa using hc)]
      exact ih fun x hx => hblanks x (List.mem_cons_of_mem _ hx)

/-- **Exact acceptance**: the reader accepts the texts of addresses and no others. -/
theorem stringToIp_eq_some_iff {o : Octets} : stringToIp s = some o ↔ IsAddress s o := by
  constructor
  · intro h
    simp only [stringToIp, Option.bind_eq_bind, Option.bind_eq_some_iff, Prod.exists,
      parseOctet_eq_some_iff, skipDot_eq_some_iff] at h
    obtain ⟨a, _, ⟨A, hs, hA, -⟩, _, rfl, b, _, ⟨B, rfl, hB, -⟩, _, rfl, c, _, ⟨C, rfl, hC, -⟩,
      _, rfl, d, rest, ⟨D, rfl, hD, -⟩, h⟩ := h
    split at h
    · rename_i hends
      cases h
      refine ⟨s.takeWhile fun c => c = ' ' || c = '\t', A, B, C, D, rest, ?_, ?_, hA, hB, hC, hD,
        endsHere_iff.mp hends⟩
      · rw [← hs, List.takeWhile_append_dropWhile]
      · intro c hc
        simpa using List.mem_takeWhile_imp hc
    · cases h
  · rintro ⟨blanks, A, B, C, D, rest, rfl, hblanks, hA, hB, hC, hD, hrest⟩
    have hends := endsHere_iff.mpr hrest
    have hparse {digits p : CString} {value : UInt32} (hrun : Run digits value) (hp : NoDigit p) :
        parseOctet (digits ++ p) = some (value, p) :=
      parseOctet_eq_some_iff.mpr ⟨digits, rfl, hrun, hp⟩
    simp [stringToIp, dropWhile_blanks hblanks hA, hparse hA (noDigit_dot _),
      hparse hB (noDigit_dot _), hparse hC (noDigit_dot _),
      hparse hD (noDigit_of_endsHere hends), skipDot, hends]

/-- **What is valid**: the texts of addresses, and no others. -/
theorem ipStringIsValid_iff : ipStringIsValid s = true ↔ ∃ o, IsAddress s o := by
  rw [ipStringIsValid, Option.isSome_iff_exists]
  exact exists_congr fun _ => stringToIp_eq_some_iff

theorem notMem_of_parseOctet {value : UInt32} (hs : '\x00' ∉ s)
    (h : parseOctet s = some (value, p)) : '\x00' ∉ p := by
  obtain ⟨digits, rfl, -, -⟩ := parseOctet_eq_some_iff.mp h
  exact fun hp => hs (List.mem_append_right _ hp)

theorem notMem_of_skipDot (hs : '\x00' ∉ s) (h : skipDot s = some p) : '\x00' ∉ p := by
  obtain rfl := skipDot_eq_some_iff.mp h
  exact fun hp => hs (List.mem_cons_of_mem _ hp)

/-- An octet of the string is followed by what follows it there. -/
theorem bind_parseOctetAt {α : Type} (hs : '\x00' ∉ s)
    {k : UInt32 × List Char → Except Stop α} {k' : UInt32 × CString → Option α}
    (hk : ∀ value p, '\x00' ∉ p → k (value, stored p behind) = orRefused (k' (value, p))) :
    (parseOctetAt (stored s behind) >>= k) = orRefused (parseOctet s >>= k') := by
  rw [parseOctetAt_stored hs]
  cases h : parseOctet s with
  | none => rfl
  | some r => exact hk r.1 r.2 (notMem_of_parseOctet hs h)

theorem bind_skipDotAt {α : Type} (hs : '\x00' ∉ s) {k : List Char → Except Stop α}
    {k' : CString → Option α}
    (hk : ∀ p, '\x00' ∉ p → k (stored p behind) = orRefused (k' p)) :
    (skipDotAt (stored s behind) >>= k) = orRefused (skipDot s >>= k') := by
  rw [skipDotAt_stored]
  cases h : skipDot s with
  | none => rfl
  | some p => exact hk p (notMem_of_skipDot hs h)

/-- **The reader stays in the string**: over memory it says what it says of the string, so
nothing behind the NUL is looked at and no value is too large. -/
theorem stringToIpAt_stored (hs : '\x00' ∉ s) :
    stringToIpAt (stored s behind) = orRefused (stringToIp s) := by
  have h₀ : '\x00' ∉ s.dropWhile fun c => c = ' ' || c = '\t' :=
    fun h => hs ((List.dropWhile_sublist _).subset h)
  rw [stringToIpAt, skipBlanksAt_stored]
  refine bind_parseOctetAt h₀ fun a p hp => ?_
  refine bind_skipDotAt hp fun p hp => ?_
  refine bind_parseOctetAt hp fun b p hp => ?_
  refine bind_skipDotAt hp fun p hp => ?_
  refine bind_parseOctetAt hp fun c p hp => ?_
  refine bind_skipDotAt hp fun p hp => ?_
  refine bind_parseOctetAt hp fun d p hp => ?_
  obtain ⟨last, hlast, hends⟩ : ∃ c, deref (stored p behind) = .ok c ∧ _ := deref_stored hp
  dsimp only
  rw [hlast]
  by_cases h : endsHere p = true
  · simp only [h, if_true]
    exact if_neg (hends.mp h)
  · simp only [h]
    exact if_pos (not_not.mp (mt hends.mpr h))

/-! ## The whole round -/

/-- The text of a byte has at most three digits. -/
theorem length_decimal_le {n : UInt32} (hn : n ≤ 255) : (decimal n).length ≤ 3 := by
  rw [decimal, Nat.length_toDigits_le_iff (by decide) (by decide)]
  have hle : n.toNat ≤ 255 := UInt32.le_iff_toNat_le.mp hn
  omega

theorem notMem_decimal (n : UInt32) : '\x00' ∉ decimal n :=
  fun h => absurd (digit_of_mem_decimal h) (by decide)

/-- The text of an address and its NUL fit into sixteen bytes. -/
theorem ipToString_fits {o : Octets} {text : CString}
    (h : ipToString o.a o.b o.c o.d = some text) :
    text.length + 1 ≤ 16 ∧ '\x00' ∉ text := by
  rw [ipToString] at h
  split at h
  · cases h
  · rename_i hsmall
    cases h
    simp only [not_or, gt_iff_lt, UInt32.not_lt] at hsmall
    obtain ⟨ha, hb, hc, hd⟩ := hsmall
    have ha := length_decimal_le ha
    have hb := length_decimal_le hb
    have hc := length_decimal_le hc
    have hd := length_decimal_le hd
    constructor
    · simp only [List.length_append, List.length_cons]
      omega
    · simp [notMem_decimal]

/-- **Reading and writing addresses**: whatever is in memory behind a string, the reader stays
in front of it and in range, and returns `0` exactly on the texts of addresses, with their four
values; what was written for four bytes fits into sixteen bytes and is read back. -/
theorem stringToIpAt_spec :
    (∀ (s : CString) (behind : List Char), '\x00' ∉ s →
      (∀ o, stringToIpAt (stored s behind) = .ok o ↔ IsAddress s o) ∧
        stringToIpAt (stored s behind) ≠ .error .pastEnd ∧
        stringToIpAt (stored s []) ≠ .error .pastEnd ∧
        stringToIpAt (stored s behind) ≠ .error .overflow) ∧
    ∀ a b c d : UInt32, a ≤ 255 → b ≤ 255 → c ≤ 255 → d ≤ 255 →
      ∃ text, ipToString a b c d = some text ∧ text.length + 1 ≤ 16 ∧
        ∀ behind, stringToIpAt (stored text behind) = .ok ⟨a, b, c, d⟩ := by
  have hread (s : CString) (behind : List Char) (hs : '\x00' ∉ s) (o : Octets) :
      stringToIpAt (stored s behind) = .ok o ↔ IsAddress s o := by
    rw [stringToIpAt_stored hs, ← stringToIp_eq_some_iff]
    cases stringToIp s with
    | none => simp [orRefused]
    | some o' => simp [orRefused]
  have hstop (s : CString) (behind : List Char) (hs : '\x00' ∉ s) {stop : Stop}
      (h : stringToIpAt (stored s behind) = .error stop) : stop = .refused := by
    rw [stringToIpAt_stored hs] at h
    cases hr : stringToIp s with
    | none =>
        rw [hr] at h
        exact (Except.error.inj h).symm
    | some o =>
        rw [hr] at h
        cases h
  constructor
  · intro s behind hs
    refine ⟨hread s behind hs, fun h => ?_, fun h => ?_, fun h => ?_⟩
    · cases hstop s behind hs h
    · cases hstop s [] hs h
    · cases hstop s behind hs h
  · intro a b c d ha hb hc hd
    obtain ⟨text, htext⟩ := ipToString_eq (o := ⟨a, b, c, d⟩) ⟨ha, hb, hc, hd⟩
    obtain ⟨hlength, hnul⟩ := ipToString_fits (o := ⟨a, b, c, d⟩) htext
    refine ⟨text, htext, hlength, fun behind => ?_⟩
    exact (hread text behind hnul _).mpr (stringToIp_eq_some_iff.mp (stringToIp_ipToString htext))

/-- A refused text, and an address written and read. -/
theorem stringToIpAt_spec_at :
    stringToIpAt (stored ['2', '5', '6', '.'] ['7']) ≠ .error .overflow ∧
      ∃ text, ipToString 192 168 1 100 = some text ∧ text.length + 1 ≤ 16 ∧
        ∀ behind, stringToIpAt (stored text behind) = .ok ⟨192, 168, 1, 100⟩ :=
  ⟨(stringToIpAt_spec.1 ['2', '5', '6', '.'] ['7'] (by decide)).2.2.2,
    stringToIpAt_spec.2 192 168 1 100 (by decide) (by decide) (by decide) (by decide)⟩

end RhsCore.NetUtils
