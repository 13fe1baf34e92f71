import Mathlib.Data.List.Basic
import Mathlib.Data.Vector.Basic

/-!
# The string descriptors of the USB device

`usb_descriptors.c`: the host asks for a string by its index and is given a buffer that is used
again for the next request.  Its first word holds the length and the type, the others the text.
The serial number and the MAC address are written in hexadecimal digits; the other strings come
from the table of the interface that is registered.

## Main definitions

* `tudDescriptorStringCb` — the source function.
* `hostText` — what a host reads.
* `text` — what the device has to say.
* `host_reads_text` — the host reads that, whatever the buffer held before.
-/

namespace RhsCore.UsbDescriptors

/-! ## The source -/

/-- `_desc_str` -/
abbrev Buf := Vector UInt16 32

/-- A write or a read outside an array, or through a null pointer. -/
inductive Fault
  | outOfBounds
  | nullPointer
  deriving DecidableEq

/-- `string_desc_arr` with `string_desc_arr_count` entries, each with its bytes before the
terminating zero; and what the device knows of itself. -/
structure Tables where
  stringDescArr : List (Option (List UInt8))
  uid : Option (Vector UInt8 12)
  macAddress : Vector UInt8 6

def stridLangid : ℕ := 0
def stridSerial : ℕ := 3
def stridMac : ℕ := 5

/-- `TUSB_DESC_STRING` -/
def tusbDescString : UInt16 := 3

/-- `_desc_str[i] = u` -/
def put (buf : Buf) (i : ℕ) (u : UInt16) : Except Fault Buf :=
  if h : i < 32 then .ok (buf.set i u) else .error .outOfBounds

/-- `hex[n]` -/
def hexDigit (n : UInt8) : UInt16 :=
  if n < 10 then 0x30 + n.toUInt16 else 0x37 + n.toUInt16

/-- The two digits of a byte are written behind `out` characters. -/
def putHex (buf : Buf) (out : ℕ) (b : UInt8) : Except Fault Buf := do
  let buf ← put buf (1 + out) (hexDigit ((b >>> 4) &&& 0x0F))
  put buf (1 + (out + 1)) (hexDigit (b &&& 0x0F))

/-- `max_chars`, and `max_count` for the strings of the table. -/
def maxChars : ℕ := 32 - 1

/-- The loop over the unique identifier. -/
def serialLoop : List UInt8 → Buf → ℕ → Except Fault (Buf × ℕ)
  | [], buf, out => .ok (buf, out)
  | b :: bytes, buf, out =>
      if out + 1 < maxChars then do
        let buf ← putHex buf out b
        serialLoop bytes buf (out + 2)
      else .ok (buf, out)

/-- The loop over the MAC address. -/
def macLoop : List UInt8 → Buf → ℕ → Except Fault (Buf × ℕ)
  | [], buf, chrCount => .ok (buf, chrCount)
  | b :: bytes, buf, chrCount => do
      let buf ← putHex buf chrCount b
      macLoop bytes buf (chrCount + 2)

/-- The loop that converts ASCII into UTF-16, from character `i` on. -/
def asciiLoop : List UInt8 → Buf → ℕ → Except Fault Buf
  | [], buf, _ => .ok buf
  | c :: str, buf, i => do
      let buf ← put buf (1 + i) c.toUInt16
      asciiLoop str buf (i + 1)

/-- An entry of the table. -/
def Tables.string (t : Tables) (index : ℕ) : Except Fault (List UInt8) :=
  match t.stringDescArr[index]? with
  | none => .error .outOfBounds
  | some none => .error .nullPointer
  | some (some str) => .ok str

/-- `memcpy(&_desc_str[1], string_desc_arr[0], 2)` -/
def copyLangid (buf : Buf) : List UInt8 → Except Fault Buf
  | lo :: hi :: _ => put buf 1 (lo.toUInt16 ||| (hi.toUInt16 <<< 8))
  | _ => .error .outOfBounds

/-- `_desc_str[0] = (TUSB_DESC_STRING << 8) | (2 * chr_count + 2)` -/
def putHeader (buf : Buf) (chrCount : ℕ) : Except Fault (Option Buf) := do
  let buf ← put buf 0 ((tusbDescString <<< 8) ||| .ofNat (2 * chrCount + 2))
  .ok (some buf)

/-- `none` refuses the request. -/
def tudDescriptorStringCb (t : Tables) (buf : Buf) (index : UInt8) :
    Except Fault (Option Buf) :=
  if index.toNat = stridLangid then do
    let buf ← copyLangid buf (← t.string 0)
    putHeader buf 1
  else if index.toNat = stridSerial then do
    let (buf, out) ← serialLoop (t.uid.elim [] Vector.toList) buf 0
    putHeader buf out
  else if index.toNat = stridMac then do
    let (buf, chrCount) ← macLoop t.macAddress.toList buf 0
    putHeader buf chrCount
  else if t.stringDescArr.length ≤ index.toNat then .ok none
  else do
    let str ← t.string index.toNat
    let chrCount := min str.length maxChars
    let buf ← asciiLoop (str.take chrCount) buf 0
    putHeader buf chrCount

/-! ## What the host reads -/

/-- A string descriptor: two bytes of length and type, and the text, in words of two bytes. -/
def hostText (buf : Buf) : Option (List UInt16) :=
  let bLength := buf[0].toNat % 256
  let bDescriptorType := buf[0].toNat / 256
  if bDescriptorType = 3 ∧ 2 ≤ bLength ∧ bLength % 2 = 0 ∧ bLength ≤ 64 then
    some ((buf.toList.drop 1).take ((bLength - 2) / 2))
  else none

/-- A byte in hexadecimal digits. -/
def hexText (b : UInt8) : List UInt16 := [hexDigit (b >>> 4), hexDigit (b &&& 0x0F)]

/-- **What the device has to say** to a request; a string is cut off after 31 characters. -/
def text (t : Tables) (index : UInt8) : Option (List UInt16) :=
  if index.toNat = stridLangid then
    some [(t.stringDescArr.headD none).elim 0 fun bytes =>
      (bytes.getD 0 0).toUInt16 ||| ((bytes.getD 1 0).toUInt16 <<< 8)]
  else if index.toNat = stridSerial then
    some ((t.uid.elim [] Vector.toList).flatMap hexText)
  else if index.toNat = stridMac then some (t.macAddress.toList.flatMap hexText)
  else (t.stringDescArr[index.toNat]?).map fun str =>
    (str.elim [] (List.take maxChars)).map UInt8.toUInt16

/-- The table has the strings that are asked for: two bytes for the language, and no null
pointer but for those that are not read. -/
def Tables.Complete (t : Tables) : Prop :=
  (∃ lo hi rest tail, t.stringDescArr = some (lo :: hi :: rest) :: tail) ∧
    ∀ i, i ≠ stridSerial → i ≠ stridMac → t.stringDescArr[i]? ≠ some none

/-! ## Writing -/

section Writing

variable {buf : Buf} {units : List UInt16} {u : UInt16}

/-- The text in the buffer begins with these characters. -/
def Written (buf : Buf) (units : List UInt16) : Prop := units <+: buf.toList.drop 1

theorem written_nil (buf : Buf) : Written buf [] := List.nil_prefix

/-- One more character. -/
theorem Written.put (h : Written buf units) (hlen : units.length < 31) :
    ∃ buf', put buf (1 + units.length) u = .ok buf' ∧ Written buf' (units ++ [u]) := by
  have hbound : 1 + units.length < 32 := by omega
  refine ⟨buf.set (1 + units.length) u, by simp [UsbDescriptors.put, hbound], ?_⟩
  obtain ⟨rest, hrest⟩ := h
  have hdrop : (buf.set (1 + units.length) u).toList.drop 1 =
      (buf.toList.drop 1).set units.length u := by
    simp [Vector.toList_set, List.drop_set]
  rw [Written, hdrop, ← hrest, List.set_append_right _ _ (le_refl _), Nat.sub_self]
  cases rest with
  | nil =>
      have hcount := congrArg List.length hrest
      simp at hcount
      omega
  | cons x rest => exact ⟨rest, by simp⟩

theorem shiftRight_four_and (b : UInt8) : (b >>> 4) &&& (0x0F : UInt8) = b >>> 4 := by
  apply UInt8.toNat_inj.mp
  have hb := b.toNat_lt
  have hshift : (b >>> 4).toNat < 16 := by
    rw [UInt8.toNat_shiftRight, Nat.shiftRight_eq_div_pow]
    change b.toNat / 16 < 16
    omega
  rw [UInt8.toNat_and]
  exact Nat.and_two_pow_sub_one_of_lt_two_pow (n := 4) hshift

/-- The two digits of a byte. -/
theorem Written.putHex (h : Written buf units) (b : UInt8) (hlen : units.length + 2 ≤ 31) :
    ∃ buf', putHex buf units.length b = .ok buf' ∧ Written buf' (units ++ hexText b) := by
  obtain ⟨buf₁, hput₁, h₁⟩ := h.put (u := hexDigit (b >>> 4)) (by omega)
  obtain ⟨buf₂, hput₂, h₂⟩ := h₁.put (u := hexDigit (b &&& 0x0F)) (by simp; omega)
  refine ⟨buf₂, ?_, by simpa [hexText] using h₂⟩
  simp only [List.length_append, List.length_singleton] at hput₂
  simp [UsbDescriptors.putHex, shiftRight_four_and, hput₁, hput₂, Bind.bind, Except.bind]

end Writing


/-! ## The loops -/

section Loops

variable {buf : Buf} {units : List UInt16}

theorem length_hexText (bytes : List UInt8) :
    (bytes.flatMap hexText).length = 2 * bytes.length := by
  induction bytes with
  | nil => rfl
  | cons b bytes ih =>
      simp only [List.flatMap_cons, List.length_append, ih, List.length_cons, hexText,
        List.length_nil]
      omega

theorem macLoop_eq (bytes : List UInt8) (h : Written buf units)
    (hlen : units.length + 2 * bytes.length ≤ 31) :
    ∃ buf', macLoop bytes buf units.length = .ok (buf', units.length + 2 * bytes.length) ∧
      Written buf' (units ++ bytes.flatMap hexText) := by
  induction bytes generalizing buf units with
  | nil => exact ⟨buf, rfl, by simpa using h⟩
  | cons b bytes ih =>
      rw [List.length_cons] at hlen
      obtain ⟨buf₁, hput, h₁⟩ := h.putHex b (by omega)
      have hlen₁ : (units ++ hexText b).length = units.length + 2 := by simp [hexText]
      obtain ⟨buf', hrest, h'⟩ := ih h₁ (by omega)
      rw [hlen₁] at hrest
      refine ⟨buf', ?_, by simpa using h'⟩
      simp only [macLoop, hput, hrest, Bind.bind, Except.bind, List.length_cons]
      congr 2
      omega

/-- Where there is room for one more character than the digits need, all of them are written. -/
theorem serialLoop_eq (bytes : List UInt8) (h : Written buf units)
    (hlen : units.length + 2 * bytes.length ≤ 30) :
    ∃ buf', serialLoop bytes buf units.length = .ok (buf', units.length + 2 * bytes.length) ∧
      Written buf' (units ++ bytes.flatMap hexText) := by
  induction bytes generalizing buf units with
  | nil => exact ⟨buf, rfl, by simpa using h⟩
  | cons b bytes ih =>
      rw [List.length_cons] at hlen
      obtain ⟨buf₁, hput, h₁⟩ := h.putHex b (by omega)
      have hlen₁ : (units ++ hexText b).length = units.length + 2 := by simp [hexText]
      obtain ⟨buf', hrest, h'⟩ := ih h₁ (by omega)
      rw [hlen₁] at hrest
      refine ⟨buf', ?_, by simpa using h'⟩
      have hroom : units.length + 1 < maxChars := by
        rw [maxChars]
        omega
      simp only [serialLoop, if_pos hroom, hput, hrest, Bind.bind, Except.bind, List.length_cons]
      congr 2
      omega

theorem asciiLoop_eq (str : List UInt8) (h : Written buf units)
    (hlen : units.length + str.length ≤ 31) :
    ∃ buf', asciiLoop str buf units.length = .ok buf' ∧
      Written buf' (units ++ str.map UInt8.toUInt16) := by
  induction str generalizing buf units with
  | nil => exact ⟨buf, rfl, by simpa using h⟩
  | cons c str ih =>
      rw [List.length_cons] at hlen
      obtain ⟨buf₁, hput, h₁⟩ := h.put (u := c.toUInt16) (by omega)
      have hlen₁ : (units ++ [c.toUInt16]).length = units.length + 1 := by simp
      obtain ⟨buf', hrest, h'⟩ := ih h₁ (by omega)
      rw [hlen₁] at hrest
      refine ⟨buf', ?_, by simpa using h'⟩
      simp [asciiLoop, hput, hrest, Bind.bind, Except.bind]

/-- What the header says of a text that fits. -/
theorem toNat_header : ∀ n < 32,
    ((tusbDescString <<< 8) ||| UInt16.ofNat (2 * n + 2)).toNat = 768 + (2 * n + 2) := by
  decide

/-- **The host reads the text** once the header is written. -/
theorem putHeader_eq (h : Written buf units) (hlen : units.length ≤ 31) :
    ∃ buf', putHeader buf units.length = .ok (some buf') ∧ hostText buf' = some units := by
  refine ⟨buf.set 0 ((tusbDescString <<< 8) ||| .ofNat (2 * units.length + 2)), ?_, ?_⟩
  · simp [putHeader, put, Bind.bind, Except.bind]
  · have hheader := toNat_header units.length (by omega)
    have hdrop (u : UInt16) : (buf.set 0 u).toList.drop 1 = buf.toList.drop 1 := by
      simp [Vector.toList_set, List.drop_set]
    have htake : (2 * units.length + 2 - 2) / 2 = units.length := by omega
    have hlength : (768 + (2 * units.length + 2)) % 256 = 2 * units.length + 2 := by omega
    have htype : (768 + (2 * units.length + 2)) / 256 = 3 := by omega
    simp only [hostText, Vector.getElem_set_self, hheader, hlength, htype, hdrop, htake]
    have hvalid : True ∧ 2 ≤ 2 * units.length + 2 ∧ (2 * units.length + 2) % 2 = 0 ∧
        2 * units.length + 2 ≤ 64 := by
      refine ⟨trivial, ?_, ?_, ?_⟩ <;> omega
    rw [if_pos hvalid]
    exact congrArg some (List.prefix_iff_eq_take.mp h).symm

end Loops


/-! ## The descriptors -/

theorem hexDigit_inj {m n : UInt8} (hm : m.toNat < 16) (hn : n.toNat < 16)
    (h : hexDigit m = hexDigit n) : m = n := by
  have hall : ∀ i < 16, ∀ j < 16, hexDigit (.ofNat i) = hexDigit (.ofNat j) → i = j := by decide
  have heq := hall m.toNat hm n.toNat hn (by simpa using h)
  exact UInt8.toNat_inj.mp heq

/-- A byte can be told from its digits. -/
theorem hexText_inj {a b : UInt8} (h : hexText a = hexText b) : a = b := by
  have ha := a.toNat_lt
  have hb := b.toNat_lt
  simp only [hexText, List.cons.injEq, and_true] at h
  have hhigh (c : UInt8) : (c >>> 4).toNat = c.toNat / 16 := by
    rw [UInt8.toNat_shiftRight, Nat.shiftRight_eq_div_pow]
    rfl
  have hlow (c : UInt8) : (c &&& 0x0F).toNat = c.toNat % 16 := by
    rw [UInt8.toNat_and]
    exact Nat.and_two_pow_sub_one_eq_mod c.toNat 4
  have h₁ := congrArg UInt8.toNat
    (hexDigit_inj (by rw [hhigh]; omega) (by rw [hhigh]; omega) h.1)
  have h₂ := congrArg UInt8.toNat
    (hexDigit_inj (by rw [hlow]; omega) (by rw [hlow]; omega) h.2)
  rw [hhigh, hhigh] at h₁
  rw [hlow, hlow] at h₂
  apply UInt8.toNat_inj.mp
  omega

/-- **Different bytes have different digits.** -/
theorem flatMap_hexText_inj {l m : List UInt8} (h : l.flatMap hexText = m.flatMap hexText) :
    l = m := by
  induction l generalizing m with
  | nil =>
      cases m with
      | nil => rfl
      | cons b m => simp [hexText] at h
  | cons a l ih =>
      cases m with
      | nil => simp [hexText] at h
      | cons b m =>
          rw [List.flatMap_cons, List.flatMap_cons] at h
          obtain ⟨hbyte, hrest⟩ := List.append_inj h (by simp [hexText])
          rw [hexText_inj hbyte, ih hrest]

variable {t : Tables} {index : UInt8}

/-- The language. -/
theorem reads_langid (buf : Buf) (ht : t.Complete) (hindex : index.toNat = stridLangid) :
    ∃ buf', tudDescriptorStringCb t buf index = .ok (some buf') ∧
      hostText buf' = text t index := by
  obtain ⟨⟨lo, hi, rest, tail, htable⟩, -⟩ := ht
  obtain ⟨buf₁, hput, h₁⟩ :=
    (written_nil buf).put (u := lo.toUInt16 ||| (hi.toUInt16 <<< 8)) (by simp)
  obtain ⟨buf', hheader, hhost⟩ := putHeader_eq h₁ (by simp)
  refine ⟨buf', ?_, by simp [hhost, text, hindex, htable]⟩
  simp only [List.length_nil, Nat.add_zero, List.nil_append, List.length_singleton] at hput hheader
  simp [tudDescriptorStringCb, hindex, Tables.string, htable, copyLangid, hput, hheader,
    Bind.bind, Except.bind]

/-- The serial number has 24 digits. -/
theorem reads_serial (buf : Buf) (hindex : index.toNat = stridSerial) :
    ∃ buf', tudDescriptorStringCb t buf index = .ok (some buf') ∧
      hostText buf' = text t index := by
  have huid : (t.uid.elim [] Vector.toList).length ≤ 12 := by
    cases t.uid with
    | none => simp
    | some uid => simp
  obtain ⟨buf₁, hloop, h₁⟩ :=
    serialLoop_eq (t.uid.elim [] Vector.toList) (written_nil buf) (by simp; omega)
  rw [List.nil_append] at h₁
  obtain ⟨buf', hheader, hhost⟩ := putHeader_eq h₁ (by rw [length_hexText]; omega)
  rw [length_hexText] at hheader
  rw [List.length_nil, Nat.zero_add] at hloop
  refine ⟨buf', ?_, by simp [hhost, text, hindex, stridLangid, stridSerial]⟩
  simp [tudDescriptorStringCb, hindex, stridLangid, stridSerial, hloop, hheader, Bind.bind,
    Except.bind]

/-- The MAC address has twelve. -/
theorem reads_mac (buf : Buf) (hindex : index.toNat = stridMac) :
    ∃ buf', tudDescriptorStringCb t buf index = .ok (some buf') ∧
      hostText buf' = text t index := by
  obtain ⟨buf₁, hloop, h₁⟩ :=
    macLoop_eq t.macAddress.toList (written_nil buf) (by simp)
  rw [List.nil_append] at h₁
  obtain ⟨buf', hheader, hhost⟩ := putHeader_eq h₁ (by rw [length_hexText]; simp)
  rw [length_hexText] at hheader
  rw [List.length_nil, Nat.zero_add] at hloop
  refine ⟨buf', ?_, by simp [hhost, text, hindex, stridLangid, stridSerial, stridMac]⟩
  simpa [tudDescriptorStringCb, hindex, stridLangid, stridSerial, stridMac, hloop, Bind.bind,
    Except.bind] using hheader

/-- A string of the table, or what is left of it. -/
theorem reads_string (buf : Buf) (hlangid : index.toNat ≠ stridLangid)
    (hserial : index.toNat ≠ stridSerial) (hmac : index.toNat ≠ stridMac) {str : List UInt8}
    (hstr : t.stringDescArr[index.toNat]? = some (some str)) :
    ∃ buf', tudDescriptorStringCb t buf index = .ok (some buf') ∧
      hostText buf' = text t index := by
  have hlen : ¬ t.stringDescArr.length ≤ index.toNat := by
    intro hle
    rw [List.getElem?_eq_none hle] at hstr
    cases hstr
  have htake : (str.take (min str.length maxChars)).length = min str.length maxChars := by simp
  have hmax : min str.length maxChars ≤ 31 := Nat.min_le_right _ _
  obtain ⟨buf₁, hloop, h₁⟩ := asciiLoop_eq (str.take (min str.length maxChars))
    (written_nil buf) (by rw [htake, List.length_nil]; omega)
  rw [List.nil_append] at h₁
  obtain ⟨buf', hheader, hhost⟩ := putHeader_eq h₁ (by rw [List.length_map, htake]; exact hmax)
  rw [List.length_map, htake] at hheader
  rw [List.length_nil] at hloop
  refine ⟨buf', ?_, ?_⟩
  · simp [tudDescriptorStringCb, hlangid, hserial, hmac, hlen, Tables.string, hstr, hloop, hheader,
      Bind.bind, Except.bind]
  · rw [hhost, text, if_neg hlangid, if_neg hserial, if_neg hmac, hstr]
    simp [List.take_eq_take_min, Nat.min_comm]

/-- **The host reads what the device has to say**, whatever the buffer held before: no request
reads or writes outside an array, and one is refused exactly if there is no such string.  Devices
that differ in their identifier differ in their serial number. -/
theorem host_reads_text (ht : t.Complete) (buf : Buf) (index : UInt8) :
    (∃ reply, tudDescriptorStringCb t buf index = .ok reply ∧
      reply.map hostText = (text t index).map some) ∧
    ∀ uid uid' : Vector UInt8 12,
      text { t with uid := some uid } 3 = text { t with uid := some uid' } 3 → uid = uid' := by
  constructor
  · by_cases hlangid : index.toNat = stridLangid
    · obtain ⟨buf', hreply, hhost⟩ := reads_langid buf ht hlangid
      exact ⟨some buf', hreply, by simp [hhost, text, hlangid]⟩
    by_cases hserial : index.toNat = stridSerial
    · obtain ⟨buf', hreply, hhost⟩ := reads_serial (t := t) buf hserial
      exact ⟨some buf', hreply, by simp [hhost, text, hserial, stridLangid, stridSerial]⟩
    by_cases hmac : index.toNat = stridMac
    · obtain ⟨buf', hreply, hhost⟩ := reads_mac (t := t) buf hmac
      exact ⟨some buf', hreply, by simp [hhost, text, hmac, stridLangid, stridSerial, stridMac]⟩
    rcases hstr : t.stringDescArr[index.toNat]? with _ | _ | str
    · refine ⟨none, ?_, by simp [text, hlangid, hserial, hmac, hstr]⟩
      have hlen := List.getElem?_eq_none_iff.mp hstr
      simp [tudDescriptorStringCb, hlangid, hserial, hmac, hlen]
    · exact absurd hstr (ht.2 _ hserial hmac)
    · obtain ⟨buf', hreply, hhost⟩ := reads_string buf hlangid hserial hmac hstr
      exact ⟨some buf', hreply, by simp [hhost, text, hlangid, hserial, hmac, hstr]⟩
  · intro uid uid' h
    have hdigits : uid.toList.flatMap hexText = uid'.toList.flatMap hexText := by
      simpa [text, stridLangid, stridSerial, stridMac] using h
    exact Vector.toList_inj.mp (flatMap_hexText_inj hdigits)

/-- The bytes of a string. -/
def ascii (s : String) : List UInt8 := s.toList.map fun c => .ofNat c.toNat

/-- `bridge_string_arr` of `usb_eth_bridge.c`. -/
def bridgeStringArr : List (Option (List UInt8)) :=
  [some [0x09, 0x04], some (ascii "TinyUSB"), some (ascii "USB-ETH Bridge"), none,
    some (ascii "USB-ETH Bridge Network Interface"), none]

/-- `string_desc_dual_cdc_arr` of `rhs_hal_usb_cdc.c`, which has no entry for the MAC address. -/
def stringDescDualCdcArr : List (Option (List UInt8)) :=
  [some [0x09, 0x04], some (ascii "TinyUSB"), some (ascii "TinyUSB Device"),
    some (ascii "123456"), some (ascii "TinyUSB CDC Interface")]

/-- `string_desc_cdc_net_arr` of `usb_cdc_net.c`. -/
def stringDescCdcNetArr : List (Option (List UInt8)) :=
  [some [0x09, 0x04], some (ascii "TinyUSB"), some (ascii "TinyUSB Device"), none,
    some (ascii "TinyUSB Network Interface"), none]

/-- The tables of the source are complete, whatever the device knows of itself. -/
theorem complete_of_mem {arr : List (Option (List UInt8))}
    (harr : arr ∈ [bridgeStringArr, stringDescDualCdcArr, stringDescCdcNetArr])
    (uid : Option (Vector UInt8 12)) (macAddress : Vector UInt8 6) :
    Tables.Complete ⟨arr, uid, macAddress⟩ := by
  simp only [List.mem_cons, List.not_mem_nil, or_false] at harr
  constructor
  · rcases harr with rfl | rfl | rfl <;> exact ⟨0x09, 0x04, [], _, rfl⟩
  · intro i hserial hmac
    match i with
    | 0 | 1 | 2 | 4 =>
        rcases harr with rfl | rfl | rfl <;>
          simp [bridgeStringArr, stringDescDualCdcArr, stringDescCdcNetArr]
    | 3 => exact absurd rfl hserial
    | 5 => exact absurd rfl hmac
    | n + 6 =>
        rcases harr with rfl | rfl | rfl <;>
          simp [bridgeStringArr, stringDescDualCdcArr, stringDescCdcNetArr]

/-- The Ethernet bridge, in a device whose identifier is zero. -/
def bridgeTables : Tables where
  stringDescArr := bridgeStringArr
  uid := some (Vector.replicate 12 0)
  macAddress := #v[2, 2, 0x84, 0x6A, 0x96, 0]

theorem complete_bridgeTables : bridgeTables.Complete := complete_of_mem (by simp) _ _

/-- The name of the bridge's interface is one character too long. -/
theorem bridge_interface_cut :
    ∃ buf', tudDescriptorStringCb bridgeTables (Vector.replicate 32 0) 4 = .ok (some buf') ∧
      hostText buf' = some ((ascii "USB-ETH Bridge Network Interfac").map UInt8.toUInt16) := by
  obtain ⟨⟨reply, hreply, htext⟩, -⟩ :=
    host_reads_text complete_bridgeTables (Vector.replicate 32 0) 4
  obtain ⟨buf', rfl, hhost⟩ := Option.map_eq_some_iff.mp
    (htext.trans (rfl : _ = some (some ((ascii "USB-ETH Bridge Network Interfac").map
      UInt8.toUInt16))))
  exact ⟨buf', hreply, hhost⟩

end RhsCore.UsbDescriptors
