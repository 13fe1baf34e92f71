import RhsCore.Modbus.Server

/-!
# Which requests stay inside their arrays, and which are answered

A frame whose end is the end of what may be read shows every access outside an array
as a fault.  `inBounds_iff` lists the requests that lead to one: bit quantities whose
byte count does not fit into 8 bits, and a write of coils that ends before its byte
count.

`handleModbusPdu_replies` is about the reply: which frames get one, what it repeats of
the request, and when it is an exception.

## Main definitions

* `Overruns` — the requests that access something outside an array.
* `IsException` — the reply carries the error flag.
-/

namespace RhsCore.Modbus

variable (stack : Response) (api : ModbusTcpApi) (bytes : List UInt8)

/-- A frame behind which nothing may be read. -/
def Frame.strict (bytes : List UInt8) : Frame := ⟨bytes, fun _ => none⟩

/-- A frame in a receive buffer that goes on behind it. -/
def Frame.within (bytes : List UInt8) (past : ℕ → UInt8) : Frame := ⟨bytes, fun i => some (past i)⟩

theorem Frame.exists_read_within (bytes : List UInt8) (past : ℕ → UInt8) (i : ℕ) :
    ∃ b, (Frame.within bytes past).read i = .ok b := by
  simp only [Frame.read]
  split
  · exact ⟨_, rfl⟩
  · exact ⟨_, rfl⟩

/-! ## Bounds -/

/-- The requests that access something outside an array: the response, the frame behind
its last byte, or the frame in place of a missing byte count. -/
def Overruns (buf : Frame) : Prop :=
  12 ≤ buf.len ∧
    (ReadOverrun api buf ∨ (CoilsOverrun api buf ∧ buf.len ≤ 268) ∨
      (buf.func = 15 ∧ (inTable api.coilsData buf.start buf.num).isSome ∧ buf.len = 12))

/-- **The handler stays inside its arrays** exactly on requests that do not overrun. -/
theorem inBounds_iff :
    (∃ out, handleModbusPdu stack api (.strict bytes) = .ok out) ↔
      ¬ Overruns api (.strict bytes) := by
  generalize hbuf : Frame.strict bytes = buf
  have hpast : ∀ i, buf.past i = none := by
    intro i
    rw [← hbuf]
    rfl
  constructor
  · rintro ⟨out, hout⟩ ⟨hlen, hread | ⟨hcoils, hshort⟩ | ⟨hf, hsome, h12⟩⟩
    · rw [fault_of_readOverrun hlen hread] at hout
      cases hout
    · rw [fault_of_coilsOverrun hlen hcoils hpast hshort] at hout
      cases hout
    · rw [fault_of_missing_byteCount h12 hf hsome (hpast 0)] at hout
      cases hout
  · intro hno
    by_cases hlen : buf.len < 12
    · exact ⟨_, if_pos hlen⟩
    have hlen : 12 ≤ buf.len := by omega
    by_cases hcoils : CoilsOverrun api buf
    · have hlong : 268 < buf.len := by
        by_contra hshort
        exact hno ⟨hlen, .inr (.inl ⟨hcoils, by omega⟩)⟩
      obtain ⟨_, _, -, hout⟩ := answer_of_coilsOverrun hlen hcoils fun j =>
        ⟨_, Frame.read_eq_ok (show 13 + j.toNat < buf.len by have := j.toNat_lt; omega)⟩
      exact ⟨_, hout⟩
    by_cases hregs : buf.func = 4 ∧ buf.num.toNat = 0
    · exact ⟨_, answer_readInputRegisters_zero hlen hregs.1 hregs.2⟩
    · exact ⟨_, handleModbusPdu_eq_perform hlen
        ⟨fun h => hno ⟨hlen, .inl h⟩, hcoils, hregs⟩
        fun hf hsome h12 => absurd ⟨hlen, .inr (.inr ⟨hf, hsome, h12⟩)⟩ hno⟩

/-- An application with one coil and nothing else. -/
def oneCoil : ModbusTcpApi where
  coilsSize := 1
  coilsData := some #v[0]
  coilsReadCb := none
  coilsWriteCb := none
  holdingsSize := 0
  holdingsData := none
  holdingsCb := none
  discreteInputsSize := 0
  discreteInputsData := none
  discreteInputsCb := none

/-- A complete frame that asks to write one coil and stops before the byte count. -/
theorem byteCount_read_behind_frame :
    handleModbusPdu (.replicate 260 0) oneCoil (.strict [0, 1, 0, 0, 0, 6, 1, 15, 0, 0, 0, 1]) =
      .error (.frame 12) :=
  fault_of_missing_byteCount rfl rfl rfl rfl

/-! ## Replies -/

/-- The error flag of the function code. -/
def IsException (reply : List UInt8) : Prop := reply.getD 7 0 &&& 0x80 ≠ 0

/-- The length field of a reply. -/
def lengthField (reply : List UInt8) : ℕ := (mgNtohs (reply.getD 4 0) (reply.getD 5 0)).toNat

theorem isException_mbapReply (buf : Frame) (func : UInt8) (data : List UInt8) :
    IsException (mbapReply buf (func :: data)) ↔ func &&& 0x80 ≠ 0 := Iff.rfl

/-- Writing a word in network order and reading it back. -/
theorem mgNtohs_wordBytes (w : UInt16) : mgNtohs (wordBytes w 0) (wordBytes w 1) = w := by
  have hw := w.toNat_lt
  have hhi : (UInt8.ofNat (w.toNat / 256)).toNat = w.toNat / 256 :=
    UInt8.toNat_ofNat_of_lt' (by simp [UInt8.size]; omega)
  have hlo : (UInt8.ofNat w.toNat).toNat = w.toNat % 256 := UInt8.toNat_ofNat'
  rw [← UInt16.toNat_inj]
  change (UInt16.ofNat ((UInt8.ofNat (w.toNat / 256)).toNat * 256 +
    (UInt8.ofNat w.toNat).toNat)).toNat = _
  rw [hhi, hlo, Nat.div_add_mod', UInt16.ofNat_toNat]

/-- The length field counts from the unit on. -/
theorem lengthField_mbapReply (buf : Frame) (pdu : List UInt8) (h : pdu.length < 65535) :
    lengthField (mbapReply buf pdu) + 6 = (mbapReply buf pdu).length := by
  change (mgNtohs (wordBytes (.ofNat (pdu.length + 1)) 0)
    (wordBytes (.ofNat (pdu.length + 1)) 1)).toNat + 6 = _
  rw [mgNtohs_wordBytes, UInt16.toNat_ofNat_of_lt' (by simp [UInt16.size]; omega)]
  simp [mbapReply]

/-- The requests that the server can carry out have small function codes, and their
replies are short. -/
theorem perform_eq_some {buf : Frame} {e : Effect} (h : perform api buf = some e) :
    (buf.func = 1 ∨ buf.func = 2 ∨ buf.func = 3 ∨ buf.func = 5 ∨ buf.func = 15) ∧
      e.data.length ≤ 251 := by
  rw [perform] at h
  split at h
  · obtain ⟨p, hp, rfl⟩ := Option.map_eq_some_iff.mp h
    obtain ⟨t, -, hnum, rfl⟩ := performReadBits_eq_some hp
    exact ⟨by simp [*], by simp only [length_bitsData]; omega⟩
  split at h
  · obtain ⟨p, hp, rfl⟩ := Option.map_eq_some_iff.mp h
    obtain ⟨t, -, hnum, rfl⟩ := performReadBits_eq_some hp
    exact ⟨by simp [*], by simp only [length_bitsData]; omega⟩
  split at h
  · obtain ⟨coils, -, -, -, rfl⟩ := performWriteCoil_eq_some h
    exact ⟨by simp [*], by simp [echoData]⟩
  split at h
  · obtain ⟨coils, -, -, rfl⟩ := performWriteCoils_eq_some h
    exact ⟨by simp [*], by simp [writeCoils, echoData]⟩
  split at h
  · obtain ⟨holdings, -, hnum, rfl⟩ := performReadRegisters_eq_some h
    exact ⟨by simp [*], by simp only [length_registersData]; omega⟩
  · cases h

/-- An exception has the error flag, whatever the function code was. -/
theorem or_and_error_flag (func : UInt8) : (func ||| 0x80) &&& 0x80 ≠ 0 := by
  intro h
  have hbit := congrArg (fun b => b.toNat.testBit 7) h
  have hflag : Nat.testBit 128 7 = true := by decide
  simp [UInt8.toNat_and, UInt8.toNat_or, Nat.testBit_and, Nat.testBit_or, hflag] at hbit

/-- **Every regular request of at least twelve bytes gets one reply**, in the frame of the
request; it is an exception exactly when the server cannot carry the request out. -/
theorem handleModbusPdu_replies (past : ℕ → UInt8) (hlen : 12 ≤ bytes.length)
    (hreg : Regular api (.within bytes past)) :
    ∃ out reply, handleModbusPdu stack api (.within bytes past) = .ok out ∧ out.sent = [reply] ∧
      (∀ k < 4, reply.getD k 0 = bytes.getD k 0) ∧ reply.getD 6 0 = bytes.getD 6 0 ∧
      lengthField reply + 6 = reply.length ∧
      (IsException reply ↔ perform api (.within bytes past) = none) ∧
      (∀ e, perform api (.within bytes past) = some e → out.api = e.api ∧
        reply.drop 7 = bytes.getD 7 0 :: e.data) ∧
      (perform api (.within bytes past) = none → out.api = api ∧
        reply.drop 7 = [bytes.getD 7 0 ||| 0x80, 4]) := by
  generalize hbuf : Frame.within bytes past = buf at hreg
  have hbyte : ∀ i, buf.byte i = bytes.getD i 0 := by
    intro i
    rw [← hbuf]
    rfl
  have hout : handleModbusPdu stack api buf = .ok (outcome api buf (perform api buf)) :=
    handleModbusPdu_eq_perform (by rw [← hbuf]; exact hlen) hreg fun _ _ _ => by rw [← hbuf]; rfl
  have hecho : ∀ pdu : List UInt8, ∀ k < 4, (mbapReply buf pdu).getD k 0 = bytes.getD k 0 := by
    intro pdu k hk
    have hcases : k = 0 ∨ k = 1 ∨ k = 2 ∨ k = 3 := by omega
    rcases hcases with rfl | rfl | rfl | rfl <;> exact hbyte _
  rcases hp : perform api buf with _ | e
  · rw [hp] at hout
    refine ⟨_, _, hout, rfl, hecho _, hbyte 6, lengthField_mbapReply _ _ (by simp), ?_, ?_, ?_⟩
    · exact iff_of_true (or_and_error_flag _) rfl
    · intro e he
      cases he
    · exact fun _ => ⟨rfl, by rw [← hbyte]; rfl⟩
  · rw [hp] at hout
    obtain ⟨hfunc, hshort⟩ := perform_eq_some api hp
    refine ⟨_, _, hout, rfl, hecho _, hbyte 6,
      lengthField_mbapReply _ _ (by rw [List.length_cons]; omega), ?_, ?_, ?_⟩
    · refine iff_of_false (fun hex => ?_) (by simp)
      rw [isException_mbapReply] at hex
      rcases hfunc with hf | hf | hf | hf | hf <;> rw [hf] at hex <;> exact hex rfl
    · rintro e' he
      cases he
      exact ⟨rfl, by rw [← hbyte]; rfl⟩
    · intro he
      cases he

/-- A read of the one coil is answered by the coil. -/
theorem one_coil_read_replied :
    ∃ out reply, handleModbusPdu (.replicate 260 0) oneCoil
        (.within [0, 1, 0, 0, 0, 6, 1, 1, 0, 0, 0, 1] fun _ => 0) = .ok out ∧
      out.sent = [reply] ∧ ¬ IsException reply := by
  obtain ⟨out, reply, hout, hsent, -, -, -, hex, -⟩ := handleModbusPdu_replies (.replicate 260 0)
    oneCoil [0, 1, 0, 0, 0, 6, 1, 1, 0, 0, 0, 1] (fun _ => 0) (by decide)
    { reads := by
        rintro (⟨hf, -⟩ | ⟨-, -, hnum, -⟩)
        · exact absurd hf (by decide)
        · exact absurd hnum (by decide)
      writes := fun h => absurd h.1 (by decide)
      registers := fun h => absurd h.1 (by decide) }
  refine ⟨out, reply, hout, hsent, fun h => ?_⟩
  have hnone := hex.mp h
  cases hnone

/-- A complete frame of eight bytes gets no reply. -/
theorem short_frame_not_replied :
    handleModbusPdu (.replicate 260 0) oneCoil (.within [0, 1, 0, 0, 0, 2, 1, 7] fun _ => 0) =
      .ok { api := oneCoil, sent := [] } := rfl

end RhsCore.Modbus
