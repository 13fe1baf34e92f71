import RhsCore.Modbus.Loops

/-!
# How a branch becomes a reply

Whatever a branch of the handler did, the reply is put together in one way: the header
of the request, a length, and either what the branch wrote from byte 8 on or the server
device failure.

## Main definitions

* `mbapReply buf pdu` — the reply with a function code and data, in the frame of `buf`.
* `answer_of_success`, `answer_of_failure` — the reply to what a branch left behind.
-/

namespace RhsCore.Modbus

/-! ## The frame -/

/-- Byte `i` of a frame. -/
def Frame.byte (buf : Frame) (i : ℕ) : UInt8 := buf.bytes.getD i 0

/-- The function code. -/
def Frame.func (buf : Frame) : UInt8 := buf.byte 7

/-- The first address of the request. -/
def Frame.start (buf : Frame) : UInt16 := mgNtohs (buf.byte 8) (buf.byte 9)

/-- The quantity of the request, or the value of a single write. -/
def Frame.num (buf : Frame) : UInt16 := mgNtohs (buf.byte 10) (buf.byte 11)

theorem Frame.read_eq_ok {buf : Frame} {i : ℕ} (hi : i < buf.len) :
    buf.read i = .ok (buf.byte i) := by
  have hget : buf.bytes[i]? = some (buf.byte i) := by
    simp only [byte, List.getD_eq_getElem?_getD]
    rw [List.getElem?_eq_getElem hi]
    rfl
  simp only [read, hget]

theorem Frame.readWord_eq_ok {buf : Frame} {i : ℕ} (hi : i + 1 < buf.len) :
    buf.readWord i = .ok (mgNtohs (buf.byte i) (buf.byte (i + 1))) := by
  simp only [readWord, read_eq_ok (show i < buf.len by omega), read_eq_ok hi]
  rfl

theorem copyHeader_eq_ok {buf : Frame} (hlen : 12 ≤ buf.len) (r : Response) :
    copyHeader buf r = .ok (fill r 0 8 buf.byte) := by
  have h0 : fill r 0 0 buf.byte = r := by
    refine Vector.ext fun k hk => ?_
    rw [getElem_fill, if_neg (by omega)]
  have hloop := forRange_eq_ok (n := 8) (f := fun i r => do
      let b ← buf.read i
      Response.write r i b)
    (fun i => fill r 0 i buf.byte) (fun i hi => ?_)
  · rwa [h0] at hloop
  · rw [Frame.read_eq_ok (by omega)]
    change Response.write _ i (buf.byte i) = _
    rw [write_eq_ok _ (by omega)]
    refine congrArg Except.ok (Vector.ext fun k hk => ?_)
    simp only [getElem_fill]
    by_cases hki : k = i
    · subst hki
      simp
    · rw [if_neg (by omega)]
      split <;> split <;> first | rfl | omega

/-! ## The reply -/

/-- A reply: transaction and protocol as in the request, the length, the unit as in the
request, and the function code with its data. -/
def mbapReply (buf : Frame) (pdu : List UInt8) : List UInt8 :=
  [buf.byte 0, buf.byte 1, buf.byte 2, buf.byte 3,
    wordBytes (.ofNat (pdu.length + 1)) 0, wordBytes (.ofNat (pdu.length + 1)) 1, buf.byte 6] ++ pdu

/-- The first eight bytes of a response, with a function code. -/
def HasHeader (buf : Frame) (func : UInt8) (r : Response) : Prop :=
  (∀ (k : ℕ) (h : k < 7), r[k] = buf.byte k) ∧ r[7] = func

theorem hasHeader_fill (buf : Frame) (r : Response) :
    HasHeader buf buf.func (fill r 0 8 buf.byte) := by
  constructor
  · intro k hk
    rw [getElem_fill, if_pos (by omega)]
    rfl
  · rw [getElem_fill, if_pos (by omega)]
    rfl

/-- Writing from byte 8 on keeps the header. -/
theorem HasHeader.fill {buf : Frame} {func : UInt8} {r : Response} (h : HasHeader buf func r)
    {off n : ℕ} (hoff : 8 ≤ off) (f : ℕ → UInt8) : HasHeader buf func (fill r off n f) := by
  constructor
  · intro k hk
    rw [getElem_fill, if_neg (by omega)]
    exact h.1 k hk
  · rw [getElem_fill, if_neg (by omega)]
    exact h.2

theorem HasHeader.orBits {buf : Frame} {func : UInt8} {r : Response} (h : HasHeader buf func r)
    (bit : ℕ → Bool) (n : ℕ) : HasHeader buf func (orBits r bit n) := by
  constructor
  · intro k hk
    rw [getElem_orBits, if_neg (by omega)]
    exact h.1 k hk
  · rw [getElem_orBits, if_neg (by omega)]
    exact h.2

/-- The bytes behind the function code. -/
def HoldsData (r : Response) (data : List UInt8) : Prop :=
  ∀ (k : ℕ) (h : k < data.length) (_ : 8 + k < 260), r[8 + k] = data[k]

/-- Header, length and data make the reply. -/
theorem take_eq_mbapReply {buf : Frame} {func : UInt8} {r : Response} (data : List UInt8)
    (hr : HasHeader buf func r) (hlen : 8 + data.length ≤ 260) (hdata : HoldsData r data) :
    (fill r 4 2 (wordBytes (.ofNat (8 + data.length - 6)))).toList.take (8 + data.length) =
      mbapReply buf (func :: data) := by
  have hword : 8 + data.length - 6 = (func :: data).length + 1 := by
    rw [List.length_cons]
    omega
  rw [hword]
  refine List.ext_getElem (by simp [mbapReply]; omega) fun k h₁ h₂ => ?_
  simp only [List.getElem_take, Vector.getElem_toList, getElem_fill]
  by_cases hk : k < 8
  · have hcases : k = 0 ∨ k = 1 ∨ k = 2 ∨ k = 3 ∨ k = 4 ∨ k = 5 ∨ k = 6 ∨ k = 7 := by omega
    rcases hcases with rfl | rfl | rfl | rfl | rfl | rfl | rfl | rfl
    all_goals first | rfl | exact hr.1 _ (by decide) | exact hr.2
  · obtain ⟨j, rfl⟩ : ∃ j, k = 8 + j := ⟨k - 8, by omega⟩
    rw [if_neg (by omega), hdata j (by simp at h₁; omega) (by simp at h₁; omega)]
    simp [mbapReply, Nat.add_comm 8 j]

/-- What a branch wrote is sent, if it succeeded or happened to set the length 9. -/
theorem answer_of_success {stack : Response} {api : ModbusTcpApi} {buf : Frame} {s : Served}
    (data : List UInt8) (hlen : 12 ≤ buf.len)
    (hs : serve buf.func api buf (fill stack 0 8 buf.byte) = .ok s)
    (hsent : s.success = true ∨ s.responseLen = 9) (hr : HasHeader buf buf.func s.response)
    (hn : s.responseLen = 8 + data.length) (hle : 8 + data.length ≤ 260)
    (hdata : HoldsData s.response data) :
    handleModbusPdu stack api buf =
      .ok { api := s.api, sent := [mbapReply buf (buf.func :: data)] } := by
  have hfail : ¬ (s.success = false ∧ s.responseLen ≠ 9) := by
    rcases hsent with h | h <;> simp [h]
  have hread : buf.read 7 = .ok buf.func := Frame.read_eq_ok (by omega)
  rw [handleModbusPdu, if_neg (by omega)]
  simp only [answer, hread, copyHeader_eq_ok hlen, ok_bind, hs, deviceFailure,
    if_neg hfail, writeWord_eq_ok _ (show 4 + 1 < 260 by decide)]
  rw [hn, take_eq_mbapReply data hr hle hdata]
  rfl

/-- Where a branch refuses, the server device failure is sent. -/
theorem answer_of_failure {stack : Response} {api : ModbusTcpApi} {buf : Frame} {s : Served}
    (hlen : 12 ≤ buf.len) (hs : serve buf.func api buf (fill stack 0 8 buf.byte) = .ok s)
    (hsucc : s.success = false) (hn : s.responseLen ≠ 9) (hr : HasHeader buf buf.func s.response) :
    handleModbusPdu stack api buf =
      .ok { api := s.api, sent := [mbapReply buf [buf.func ||| 0x80, 4]] } := by
  have hread : buf.read 7 = .ok buf.func := Frame.read_eq_ok (by omega)
  have hor : Response.or s.response 7 0x80 =
      .ok (fill s.response 7 1 fun _ => buf.func ||| 0x80) := by
    rw [Response.or, dif_pos (by decide), hr.2]
    refine congrArg Except.ok (Vector.ext fun k hk => ?_)
    simp only [Vector.getElem_set, getElem_fill]
    split <;> split <;> first | rfl | omega
  have hhead : HasHeader buf (buf.func ||| 0x80)
      (fill (fill s.response 7 1 fun _ => buf.func ||| 0x80) 8 1 fun _ => 4) := by
    refine HasHeader.fill ⟨fun k hk => ?_, ?_⟩ (le_refl 8) _
    · rw [getElem_fill, if_neg (by omega)]
      exact hr.1 k hk
    · rw [getElem_fill, if_pos (by omega)]
  have htake := take_eq_mbapReply [4] hhead (by decide) (fun k hk _ => by
    obtain rfl : k = 0 := by simpa using hk
    rw [getElem_fill, if_pos (by omega)]
    rfl)
  rw [handleModbusPdu, if_neg (by omega)]
  simp only [answer, hread, copyHeader_eq_ok hlen, ok_bind, hs, deviceFailure,
    if_pos (⟨hsucc, hn⟩ : s.success = false ∧ s.responseLen ≠ 9), hor,
    write_eq_ok _ (show 8 < 260 by decide), writeWord_eq_ok _ (show 4 + 1 < 260 by decide)]
  exact congrArg Except.ok (congrArg (fun l => Outcome.mk s.api [l]) htake)

/-- A fault in a branch is the end. -/
theorem answer_of_fault {stack : Response} {api : ModbusTcpApi} {buf : Frame} {e : Fault}
    (hlen : 12 ≤ buf.len) (hs : serve buf.func api buf (fill stack 0 8 buf.byte) = .error e) :
    handleModbusPdu stack api buf = .error e := by
  have hread : buf.read 7 = .ok buf.func := Frame.read_eq_ok (by omega)
  rw [handleModbusPdu, if_neg (by omega)]
  simp only [answer, hread, copyHeader_eq_ok hlen, ok_bind, hs]
  rfl

end RhsCore.Modbus
