import RhsCore.Modbus.Safety

/-!
# What a request does to the tables, and says about them

Writes of coils and reads of all three tables, from the point of view of the client:
which coils are what afterwards, and what a reply decodes to.

## Main definitions

* `Stored` — a range of coils holds given bits, and the rest is as before.
* `WritesCoils` — a write of coils is carried out as asked, or refused without a trace.
* `DecodesBits`, `DecodesRegisters` — what a client reads out of a reply.
* `ReadsTable` — a read that is not refused decodes to the slice of the table.
-/

namespace RhsCore.Modbus

open Bits

/-! ## Writes of coils -/

/-- The coils from `start` on hold `n` bits, and the others are unchanged. -/
structure Stored {size : ℕ} (coils coils' : Vector UInt8 size) (start n : ℕ) (bit : ℕ → Bool) :
    Prop where
  inside : ∀ i < n, ∃ h : start + i < size, coils'[start + i] = if bit i then 1 else 0
  outside : ∀ (k : ℕ) (h : k < size), ¬ (start ≤ k ∧ k < start + n) → coils'[k] = coils[k]

theorem stored_storeBits {size : ℕ} (coils : Vector UInt8 size) {start n : ℕ}
    (h : start + n ≤ size) (bit : ℕ → Bool) :
    Stored coils (storeBits coils start n bit) start n bit where
  inside i hi := by
    refine ⟨by omega, ?_⟩
    rw [getElem_storeBits, if_pos (by omega), Nat.add_sub_cancel_left]
  outside k hk hout := by rw [getElem_storeBits, if_neg hout]

/-- Bit `i` of the coil data of a frame. -/
def Frame.coilBit (buf : Frame) (i : ℕ) : Bool := bitAt (fun j => buf.byte (13 + j)) i

/-- The quantity of a write: one for code 5. -/
def Frame.writeNum (buf : Frame) : ℕ := if buf.func = 5 then 1 else buf.num.toNat

/-- Bit `i` of a write: the value of code 5, or the coil data of the frame. -/
def Frame.writeBit (buf : Frame) (i : ℕ) : Bool :=
  if buf.func = 5 then buf.num = 0xFF00 else buf.coilBit i

/-- What the frame of an accepted write looks like: one of the two values of code 5, or all
the bits inside the bytes that the byte count declares and the frame has. -/
def Frame.WellFormedWrite (buf : Frame) : Prop :=
  if buf.func = 5 then buf.num = 0x0000 ∨ buf.num = 0xFF00
  else ∀ i < buf.num.toNat, i / 8 < (buf.byte 12).toNat ∧ 13 + i / 8 < buf.len

/-- A write of coils that is not refused stores the bits of the frame, and hands the table
to the callback; one that is refused, or not answered, changes nothing. -/
def WritesCoils (stack : Response) (api : ModbusTcpApi) (buf : Frame) : Prop :=
  ∃ out, handleModbusPdu stack api buf = .ok out ∧ (out.sent = [] → out.api = api) ∧
    ∀ reply ∈ out.sent,
      (IsException reply → out.api = api) ∧
      (¬ IsException reply → buf.WellFormedWrite ∧ ∃ coils coils', api.coilsData = some coils ∧
        Stored coils coils' buf.start.toNat buf.writeNum buf.writeBit ∧
        out.api = { api with
          coilsData := some (callback api.coilsWriteCb buf.start (.ofNat buf.writeNum) coils') })

theorem inTable_eq_some {α : Type} {size : UInt16} {data : Option (Vector α size.toNat)}
    {start num : UInt16} {t : Vector α size.toNat} (h : inTable data start num = some t) :
    data = some t := by
  cases data with
  | none => cases h
  | some d =>
      simp only [inTable, Option.ite_none_right_eq_some] at h
      exact h.2

/-- The bits that a frame carries are where it says. -/
theorem Frame.CarriesBits.wellFormedWrite {buf : Frame} (h : buf.CarriesBits)
    (hf : buf.func = 15) : buf.WellFormedWrite := by
  rw [WellFormedWrite, if_neg (by rw [hf]; decide)]
  intro i hi
  obtain ⟨-, hcount, hlen⟩ := h
  omega

/-- What the server does with a write of coils. -/
theorem perform_write {api : ModbusTcpApi} {buf : Frame} (hf : buf.func = 5 ∨ buf.func = 15)
    {e : Effect} (he : perform api buf = some e) :
    buf.WellFormedWrite ∧ ∃ coils coils', api.coilsData = some coils ∧
      Stored coils coils' buf.start.toNat buf.writeNum buf.writeBit ∧
      e.api = { api with
        coilsData := some (callback api.coilsWriteCb buf.start (.ofNat buf.writeNum) coils') } := by
  rcases hf with hf | hf
  · have hp : perform api buf = performWriteCoil api buf := by simp [perform, hf]
    rw [hp] at he
    obtain ⟨coils, hdata, hlt, hvalue, rfl⟩ := performWriteCoil_eq_some he
    have hlt := UInt16.lt_iff_toNat_lt.mp hlt
    refine ⟨by rwa [Frame.WellFormedWrite, if_pos hf], coils, _, hdata,
      stored_storeBits coils (by rw [Frame.writeNum, if_pos hf]; omega) _, ?_⟩
    have hbit : buf.writeBit = fun _ => decide (buf.num = 0xFF00) :=
      funext fun i => by rw [Frame.writeBit, if_pos hf]
    rw [hbit, Frame.writeNum, if_pos hf]
    rfl
  · have hp : perform api buf = performWriteCoils api buf := by simp [perform, hf]
    have h5 : buf.func ≠ 5 := by
      rw [hf]
      decide
    rw [hp] at he
    obtain ⟨coils, hdata, hcarry, rfl⟩ := performWriteCoils_eq_some he
    refine ⟨hcarry.wellFormedWrite hf, coils, _, inTable_eq_some hdata,
      stored_storeBits coils (by rw [Frame.writeNum, if_neg h5]; exact inTable_le hdata) _, ?_⟩
    have hbit : buf.writeBit = bitAt fun j => buf.byte (13 + j) :=
      funext fun i => by rw [Frame.writeBit, if_neg h5, Frame.coilBit]
    rw [hbit, Frame.writeNum, if_neg h5, UInt16.ofNat_toNat]
    rfl

/-- From 2041 coils on the bits cannot lie inside the declared bytes. -/
theorem CoilsOverrun.not_wellFormedWrite {api : ModbusTcpApi} {buf : Frame}
    (h : CoilsOverrun api buf) : ¬ buf.WellFormedWrite := by
  obtain ⟨hf, -, hnum, -⟩ := h
  rw [Frame.WellFormedWrite, if_neg (by rw [hf]; decide)]
  intro hall
  have hlast := (hall 2040 (by omega)).1
  have hbyte := (buf.byte 12).toNat_lt
  omega

/-- So such a write, when it looks well formed, is accepted wrongly. -/
theorem CoilsOverrun.not_writesCoils {stack : Response} {api : ModbusTcpApi} {buf : Frame}
    (h : CoilsOverrun api buf) (hread : ∀ i, ∃ b, buf.read i = .ok b) :
    ¬ WritesCoils stack api buf := by
  rintro ⟨out, hout, -, hreply⟩
  have hlen : 12 ≤ buf.len := le_of_lt h.2.2.2.1
  obtain ⟨coils, bit, -, hout'⟩ := answer_of_coilsOverrun hlen h fun j => hread _
  rw [hout'] at hout
  cases hout
  refine h.not_wellFormedWrite ((hreply _ (List.mem_singleton.mpr rfl)).2 ?_).1
  rw [isException_mbapReply, h.1]
  decide

/-- **A write of coils is carried out as asked or refused without a trace**, exactly unless
it asks for so many coils that their byte count is cut to the one the frame declares. -/
theorem writesCoils_iff (stack : Response) (api : ModbusTcpApi) (bytes : List UInt8)
    (past : ℕ → UInt8) (hf : bytes.getD 7 0 = 5 ∨ bytes.getD 7 0 = 15) :
    WritesCoils stack api (.within bytes past) ↔ ¬ CoilsOverrun api (.within bytes past) := by
  have hpast := Frame.exists_read_within bytes past
  have hsome : ∀ i, ((Frame.within bytes past).past i).isSome := fun _ => rfl
  change (Frame.within bytes past).func = 5 ∨ (Frame.within bytes past).func = 15 at hf
  generalize Frame.within bytes past = buf at *
  constructor
  · exact fun hw hover => hover.not_writesCoils hpast hw
  · intro hover
    by_cases hlen : buf.len < 12
    · exact ⟨_, if_pos hlen, fun _ => rfl, by simp⟩
    have hreg : Regular api buf :=
      { reads := by
          rintro (⟨h, -⟩ | ⟨h, -⟩) <;> rcases hf with hf | hf <;> rw [hf] at h <;>
            exact absurd h (by decide)
        writes := hover
        registers := by
          rintro ⟨h, -⟩
          rcases hf with hf | hf <;> rw [hf] at h <;> exact absurd h (by decide) }
    have hout : handleModbusPdu stack api buf = .ok (outcome api buf (perform api buf)) :=
      handleModbusPdu_eq_perform (by omega) hreg fun _ _ _ => hsome 0
    rcases hp : perform api buf with _ | e
    · rw [hp] at hout
      refine ⟨_, hout, fun _ => rfl, fun reply hmem => ⟨fun _ => rfl, fun hno => ?_⟩⟩
      obtain rfl := List.mem_singleton.mp hmem
      exact absurd (or_and_error_flag buf.func) hno
    · rw [hp] at hout
      refine ⟨_, hout, fun h => absurd h (by simp [outcome]),
        fun reply hmem => ⟨fun hex => ?_, fun _ => ?_⟩⟩
      · obtain rfl := List.mem_singleton.mp hmem
        rw [isException_mbapReply] at hex
        rcases hf with hf | hf <;> rw [hf] at hex <;> exact absurd rfl hex
      · exact perform_write hf hp

/-- The one coil is switched on. -/
theorem one_coil_written :
    WritesCoils (.replicate 260 0) oneCoil
      (.within [0, 1, 0, 0, 0, 6, 1, 5, 0, 0, 0xFF, 0] fun _ => 0) :=
  (writesCoils_iff _ _ _ _ (.inl rfl)).mpr fun h => absurd h.1 (by decide)

/-- An application with 2048 coils and nothing else. -/
def manyCoils : ModbusTcpApi where
  coilsSize := 2048
  coilsData := some (.replicate 2048 0)
  coilsReadCb := none
  coilsWriteCb := none
  holdingsSize := 0
  holdingsData := none
  holdingsCb := none
  discreteInputsSize := 0
  discreteInputsData := none
  discreteInputsCb := none

/-- 2041 coils need 256 bytes; a frame with a byte count of 0 and no data is accepted. -/
theorem coils_written_from_behind_frame :
    ¬ WritesCoils (.replicate 260 0) manyCoils
      (.within [0, 1, 0, 0, 0, 7, 1, 15, 0, 0, 7, 0xF9, 0] fun _ => 0xFF) :=
  CoilsOverrun.not_writesCoils
    ⟨rfl, rfl, by decide, by decide, by decide, by decide⟩ (Frame.exists_read_within _ _)

/-! ## Reads -/

/-- The reply decodes to `num` bits: the length field, the byte count, the bits from byte 9
on, and zeros behind them. -/
structure DecodesBits (reply : List UInt8) (num : ℕ) (bit : ℕ → Bool) : Prop where
  length : reply.length = 9 + (num + 7) / 8
  lengthField : lengthField reply + 6 = reply.length
  byteCount : (reply.getD 8 0).toNat = (num + 7) / 8
  bits : ∀ i < num, bitAt (fun j => reply.getD (9 + j) 0) i = bit i
  padding : ∀ i, num ≤ i → i < 8 * ((num + 7) / 8) →
    bitAt (fun j => reply.getD (9 + j) 0) i = false

/-- The reply decodes to `num` registers: the length field, the byte count, and the
registers in network order from byte 9 on. -/
structure DecodesRegisters (reply : List UInt8) (num : ℕ) (reg : ℕ → UInt16) : Prop where
  length : reply.length = 9 + 2 * num
  lengthField : lengthField reply + 6 = reply.length
  byteCount : (reply.getD 8 0).toNat = 2 * num
  registers : ∀ i < num,
    mgNtohs (reply.getD (9 + 2 * i) 0) (reply.getD (9 + 2 * i + 1) 0) = reg i

/-- Behind the function code and the byte count of a reply. -/
theorem getD_mbapReply (buf : Frame) (func b : UInt8) (data : List UInt8) (j : ℕ) :
    (mbapReply buf (func :: b :: data)).getD (9 + j) 0 = data.getD j 0 := by
  rw [Nat.add_comm]
  rfl

theorem getD_map_range (f : ℕ → UInt8) {n j : ℕ} (hj : j < n) :
    ((List.range n).map f).getD j 0 = f j := by
  simp [hj]

theorem decodesBits_mbapReply (buf : Frame) (func : UInt8) {num : ℕ} (hnum : num ≤ 2000)
    (bit : ℕ → Bool) : DecodesBits (mbapReply buf (func :: bitsData num bit)) num bit := by
  have hdata : ∀ i < 8 * ((num + 7) / 8),
      bitAt (fun j => (mbapReply buf (func :: bitsData num bit)).getD (9 + j) 0) i =
        (decide (i < num) && bit i) := by
    intro i hi
    rw [← bitAt_packByte bit num i, bitAt, bitAt, bitsData, getD_mbapReply,
      getD_map_range _ (by omega)]
  constructor
  · simp [mbapReply, bitsData]
    omega
  · exact lengthField_mbapReply _ _ (by rw [List.length_cons, length_bitsData]; omega)
  · exact UInt8.toNat_ofNat_of_lt' (by simp [UInt8.size]; omega)
  · intro i hi
    rw [hdata i (by omega)]
    simp [hi]
  · intro i hlo hhi
    rw [hdata i hhi]
    simp
    omega

theorem decodesRegisters_mbapReply (buf : Frame) (func : UInt8) {n : ℕ} (t : Vector UInt16 n)
    (start : ℕ) {num : ℕ} (hnum : num ≤ 125) :
    DecodesRegisters (mbapReply buf (func :: registersData t start num)) num
      fun i => register t (start + i) := by
  constructor
  · simp [mbapReply, registersData]
    omega
  · exact lengthField_mbapReply _ _ (by rw [List.length_cons, length_registersData]; omega)
  · exact UInt8.toNat_ofNat_of_lt' (by simp [UInt8.size]; omega)
  · intro i hi
    have hdiv : (2 * i + 1) / 2 = i := by omega
    have hmod : (2 * i + 1) % 2 = 1 := by omega
    rw [registersData, Nat.add_assoc, getD_mbapReply, getD_mbapReply,
      getD_map_range _ (by omega), getD_map_range _ (by omega), registerBytes, registerBytes, hdiv,
      hmod, Nat.mul_div_cancel_left i (by decide), Nat.mul_mod_right, mgNtohs_wordBytes]

/-- What a read reports: the slice of its table, as it stands when it is packed.  That is
after the callback for bits, and before it for registers. -/
def ReportsSlice (api : ModbusTcpApi) (buf : Frame) (reply : List UInt8) : Prop :=
  if buf.func = 1 then
    ∃ t, inTable api.coilsData buf.start buf.num = some t ∧
      DecodesBits reply buf.num.toNat fun i =>
        nonZero (callback api.coilsReadCb buf.start buf.num t) (buf.start.toNat + i)
  else if buf.func = 2 then
    ∃ t, inTable api.discreteInputsData buf.start buf.num = some t ∧
      DecodesBits reply buf.num.toNat fun i =>
        nonZero (callback api.discreteInputsCb buf.start buf.num t) (buf.start.toNat + i)
  else
    ∃ t, inTable api.holdingsData buf.start buf.num = some t ∧
      DecodesRegisters reply buf.num.toNat fun i => register t (buf.start.toNat + i)

/-- A read that is not refused reports the slice. -/
def ReadsTable (stack : Response) (api : ModbusTcpApi) (buf : Frame) : Prop :=
  ∃ out, handleModbusPdu stack api buf = .ok out ∧
    ∀ reply ∈ out.sent, ¬ IsException reply → ReportsSlice api buf reply

/-- What the server does with a read. -/
theorem perform_read {api : ModbusTcpApi} {buf : Frame}
    (hf : buf.func = 1 ∨ buf.func = 2 ∨ buf.func = 3) {e : Effect}
    (he : perform api buf = some e) :
    ReportsSlice api buf (mbapReply buf (buf.func :: e.data)) := by
  rcases hf with hf | hf | hf
  · have hp : perform api buf =
        (performReadBits api.coilsData api.coilsReadCb buf.start buf.num).map fun p =>
          { api := { api with coilsData := some p.1 }, data := p.2 } := by simp [perform, hf]
    rw [hp] at he
    obtain ⟨p, hp, rfl⟩ := Option.map_eq_some_iff.mp he
    obtain ⟨t, ht, hnum, rfl⟩ := performReadBits_eq_some hp
    rw [ReportsSlice, if_pos hf]
    exact ⟨t, ht, decodesBits_mbapReply _ _ hnum _⟩
  · have hp : perform api buf =
        (performReadBits api.discreteInputsData api.discreteInputsCb buf.start buf.num).map
          fun p => { api := { api with discreteInputsData := some p.1 }, data := p.2 } := by
      simp [perform, hf]
    rw [hp] at he
    obtain ⟨p, hp, rfl⟩ := Option.map_eq_some_iff.mp he
    obtain ⟨t, ht, hnum, rfl⟩ := performReadBits_eq_some hp
    rw [ReportsSlice, if_neg (by rw [hf]; decide), if_pos hf]
    exact ⟨t, ht, decodesBits_mbapReply _ _ hnum _⟩
  · have hp : perform api buf = performReadRegisters api buf := by simp [perform, hf]
    rw [hp] at he
    obtain ⟨t, ht, hnum, rfl⟩ := performReadRegisters_eq_some he
    rw [ReportsSlice, if_neg (by rw [hf]; decide), if_neg (by rw [hf]; decide)]
    exact ⟨t, ht, decodesRegisters_mbapReply _ _ t _ hnum⟩

theorem readsTable_iff (stack : Response) (api : ModbusTcpApi) (buf : Frame)
    (hf : buf.func = 1 ∨ buf.func = 2 ∨ buf.func = 3) :
    ReadsTable stack api buf ↔ ¬ (12 ≤ buf.len ∧ ReadOverrun api buf) := by
  constructor
  · rintro ⟨out, hout, -⟩ ⟨hlen, hover⟩
    rw [fault_of_readOverrun hlen hover] at hout
    cases hout
  · intro hno
    by_cases hlen : buf.len < 12
    · exact ⟨_, if_pos hlen, by simp⟩
    have hlen : 12 ≤ buf.len := by omega
    have hcode : ∀ func : UInt8, buf.func = func → func = 1 ∨ func = 2 ∨ func = 3 := by
      rintro _ rfl
      exact hf
    have hreg : Regular api buf :=
      { reads := fun h => hno ⟨hlen, h⟩
        writes := fun h => absurd (hcode 15 h.1) (by decide)
        registers := fun h => absurd (hcode 4 h.1) (by decide) }
    have hout : handleModbusPdu stack api buf = .ok (outcome api buf (perform api buf)) :=
      handleModbusPdu_eq_perform hlen hreg fun h => absurd (hcode 15 h) (by decide)
    rcases hp : perform api buf with _ | e
    · rw [hp] at hout
      refine ⟨_, hout, fun reply hmem hno => ?_⟩
      obtain rfl := List.mem_singleton.mp hmem
      exact absurd (or_and_error_flag buf.func) hno
    · rw [hp] at hout
      refine ⟨_, hout, fun reply hmem _ => ?_⟩
      obtain rfl := List.mem_singleton.mp hmem
      exact perform_read hf hp

/-! ## Reading back what was written -/

/-- The coils after a write that is carried out, after its callback, and after the callback of
a read of the same range. -/
def coilsReadBack (api : ModbusTcpApi) (w : Frame) (coils : Vector UInt8 api.coilsSize.toNat) :
    Vector UInt8 api.coilsSize.toNat :=
  callback api.coilsReadCb w.start w.num
    (callback api.coilsWriteCb w.start w.num
      (storeBits coils w.start.toNat w.num.toNat w.coilBit))

/-- The two callbacks leave alone which coils of the range are on once the write is stored. -/
def KeepsCoils (api : ModbusTcpApi) (w : Frame) : Prop :=
  ∀ coils, inTable api.coilsData w.start w.num = some coils → ∀ i < w.num.toNat,
    nonZero (coilsReadBack api w coils) (w.start.toNat + i) =
      nonZero (storeBits coils w.start.toNat w.num.toNat w.coilBit) (w.start.toNat + i)

/-- A stored bit reads back as itself. -/
theorem Stored.nonZero {size : ℕ} {coils coils' : Vector UInt8 size} {start n : ℕ}
    {bit : ℕ → Bool} (h : Stored coils coils' start n bit) {i : ℕ} (hi : i < n) :
    nonZero coils' (start + i) = bit i := by
  obtain ⟨hlt, hget⟩ := h.inside i hi
  rw [RhsCore.Modbus.nonZero, dif_pos hlt, hget]
  cases bit i <;> rfl

/-- A write of at most 2000 coils that is not refused is carried out by the server. -/
theorem perform_of_accepted {stack : Response} {api : ModbusTcpApi} {w : Frame} {out : Outcome}
    (hlen : 12 ≤ w.len) (hf : w.func = 15) (hnum : w.num.toNat ≤ 2000)
    (hout : handleModbusPdu stack api w = .ok out)
    (hsent : ∀ reply ∈ out.sent, ¬ IsException reply) :
    ∃ coils, inTable api.coilsData w.start w.num = some coils ∧
      out.api = (writeCoils api w coils w.coilBit).api := by
  have hover : ¬ CoilsOverrun api w := by
    rintro ⟨-, -, hbig, -⟩
    omega
  have hpast : (inTable api.coilsData w.start w.num).isSome → w.len = 12 → (w.past 0).isSome := by
    intro hsome h12
    by_contra hnone
    rw [fault_of_missing_byteCount h12 hf hsome (by simpa using hnone)] at hout
    cases hout
  rw [answer_writeMultipleCoils hlen hf hover hpast] at hout
  rcases hw : performWriteCoils api w with _ | e
  · rw [hw] at hout
    cases hout
    exact absurd (or_and_error_flag w.func) (hsent _ (List.mem_singleton.mpr rfl))
  · rw [hw] at hout
    cases hout
    obtain ⟨coils, hdata, -, rfl⟩ := performWriteCoils_eq_some hw
    exact ⟨coils, hdata, rfl⟩

/-- The range test looks at the size and at whether there is a table, not into it. -/
theorem inTable_some {α : Type} {size : UInt16} {data : Option (Vector α size.toNat)}
    {start num : UInt16} {t : Vector α size.toNat} (h : inTable data start num = some t)
    (t' : Vector α size.toNat) : inTable (some t') start num = some t' := by
  cases data with
  | none => cases h
  | some d =>
      simp only [inTable, Option.ite_none_right_eq_some] at h
      rw [inTable, if_pos h.1]

theorem DecodesBits.congr {reply : List UInt8} {num : ℕ} {bit bit' : ℕ → Bool}
    (h : DecodesBits reply num bit) (heq : ∀ i < num, bit i = bit' i) :
    DecodesBits reply num bit' :=
  { h with bits := fun i hi => (h.bits i hi).trans (heq i hi) }

/-- The reply to a read of coils inside the table. -/
theorem answer_readCoils (stack : Response) {api : ModbusTcpApi} {r : Frame}
    {t : Vector UInt8 api.coilsSize.toNat} (hlen : 12 ≤ r.len) (hf : r.func = 1)
    (hnum : r.num.toNat ≤ 2000) (ht : inTable api.coilsData r.start r.num = some t) :
    handleModbusPdu stack api r = .ok
      { api := { api with coilsData := some (callback api.coilsReadCb r.start r.num t) }
        sent := [mbapReply r (r.func :: bitsData r.num.toNat fun i =>
          nonZero (callback api.coilsReadCb r.start r.num t) (r.start.toNat + i))] } := by
  have hover : ¬ BitsOverrun api.coilsData r.start r.num := by
    rintro ⟨-, hbig, -⟩
    omega
  rw [answer_of_readBits hlen _ (serve_readCoils api hlen hf) hover, performReadBits, ht]
  simp only [if_pos hnum, Option.map_some]
  rfl

/-- What a read of the range reports after a write is not refused. -/
theorem answer_read_after_write {stack stack' : Response} {api : ModbusTcpApi} {w r : Frame}
    {out : Outcome} (hlen : 12 ≤ w.len) (hf : w.func = 15) (hnum : w.num.toNat ≤ 2000)
    (hout : handleModbusPdu stack api w = .ok out)
    (hsent : ∀ reply ∈ out.sent, ¬ IsException reply) (hr : 12 ≤ r.len) (hrf : r.func = 1)
    (hstart : r.start = w.start) (hrnum : r.num = w.num) :
    ∃ coils out', inTable api.coilsData w.start w.num = some coils ∧
      handleModbusPdu stack' out.api r = .ok out' ∧
      out'.sent = [mbapReply r (r.func :: bitsData w.num.toNat fun i =>
        nonZero (coilsReadBack api w coils) (w.start.toNat + i))] := by
  obtain ⟨coils, hdata, hapi⟩ := perform_of_accepted hlen hf hnum hout hsent
  have ht : inTable (writeCoils api w coils w.coilBit).api.coilsData r.start r.num = some
      (callback api.coilsWriteCb w.start w.num
        (storeBits coils w.start.toNat w.num.toNat w.coilBit)) := by
    rw [hstart, hrnum]
    exact inTable_some hdata _
  have hanswer := answer_readCoils stack' hr hrf (by rw [hrnum]; exact hnum) ht
  refine ⟨coils, _, hdata, (congrArg (handleModbusPdu stack' · r) hapi).trans hanswer, ?_⟩
  rw [hstart, hrnum]
  rfl

/-- The read gives back the bits of the write exactly if the callbacks leave them alone. -/
theorem read_after_write_iff {stack stack' : Response} {api : ModbusTcpApi} {w r : Frame}
    {out : Outcome} (hlen : 12 ≤ w.len) (hf : w.func = 15) (hnum : w.num.toNat ≤ 2000)
    (hout : handleModbusPdu stack api w = .ok out)
    (hsent : ∀ reply ∈ out.sent, ¬ IsException reply) (hr : 12 ≤ r.len) (hrf : r.func = 1)
    (hstart : r.start = w.start) (hrnum : r.num = w.num) :
    (∃ out' reply, handleModbusPdu stack' out.api r = .ok out' ∧ out'.sent = [reply] ∧
      ¬ IsException reply ∧ DecodesBits reply w.num.toNat w.coilBit) ↔ KeepsCoils api w := by
  obtain ⟨coils, out', hdata, hanswer, hreply⟩ :=
    answer_read_after_write hlen hf hnum hout hsent hr hrf hstart hrnum
  have hstored := stored_storeBits coils (inTable_le hdata) w.coilBit
  have hdecodes := decodesBits_mbapReply r r.func hnum fun i =>
    nonZero (coilsReadBack api w coils) (w.start.toNat + i)
  constructor
  · rintro ⟨out₁, reply, hout₁, hsent₁, -, hback⟩ coils' hdata' i hi
    obtain rfl := Option.some.inj (hdata.symm.trans hdata')
    obtain rfl := Except.ok.inj (hanswer.symm.trans hout₁)
    obtain rfl := List.singleton_inj.mp (hreply.symm.trans hsent₁)
    rw [hstored.nonZero hi, ← hback.bits i hi]
    exact (hdecodes.bits i hi).symm
  · intro hkeeps
    refine ⟨out', _, hanswer, hreply, ?_, hdecodes.congr fun i hi => ?_⟩
    · rw [isException_mbapReply, hrf]
      decide
    · exact (hkeeps coils hdata i hi).trans (hstored.nonZero hi)

/-- **A read that is not refused reports its slice of the table**, exactly unless it asks
for so many bits that their byte count is cut to one that fits; and at most 2000 coils
read back as they were written exactly if the callbacks of the application leave them
alone. -/
theorem reads_report_tables (stack : Response) (api : ModbusTcpApi) :
    (∀ buf : Frame, buf.func = 1 ∨ buf.func = 2 ∨ buf.func = 3 →
      (ReadsTable stack api buf ↔ ¬ (12 ≤ buf.len ∧ ReadOverrun api buf))) ∧
    ∀ (stack' : Response) (w r : Frame) (out : Outcome), 12 ≤ w.len → w.func = 15 →
      w.num.toNat ≤ 2000 → handleModbusPdu stack api w = .ok out →
      (∀ reply ∈ out.sent, ¬ IsException reply) →
      12 ≤ r.len → r.func = 1 → r.start = w.start → r.num = w.num →
      ((∃ out' reply, handleModbusPdu stack' out.api r = .ok out' ∧ out'.sent = [reply] ∧
        ¬ IsException reply ∧ DecodesBits reply w.num.toNat w.coilBit) ↔ KeepsCoils api w) :=
  ⟨readsTable_iff stack api, fun _ _ _ _ hlen hf hnum hout hsent hr hrf hstart hrnum =>
    read_after_write_iff hlen hf hnum hout hsent hr hrf hstart hrnum⟩

/-- Switch the one coil on. -/
def oneCoilOn : Frame := .within [0, 1, 0, 0, 0, 8, 1, 15, 0, 0, 0, 1, 1, 1] fun _ => 0

/-- Read the one coil. -/
def readOneCoil : Frame := .within [0, 2, 0, 0, 0, 6, 1, 1, 0, 0, 0, 1] fun _ => 0

theorem oneCoilOn_accepted :
    handleModbusPdu (.replicate 260 0) oneCoil oneCoilOn =
      .ok (outcome oneCoil oneCoilOn
        (some (writeCoils oneCoil oneCoilOn #v[0] oneCoilOn.coilBit))) :=
  answer_writeMultipleCoils (by decide) rfl (fun h => absurd h.2.2.1 (by decide)) fun _ _ => rfl

/-- The application with the one coil, whose callback switches the coils off again. -/
def oneCoilReset : ModbusTcpApi :=
  { oneCoil with coilsWriteCb := some fun _ _ _ => .replicate _ 0 }

theorem oneCoilOn_accepted_reset :
    handleModbusPdu (.replicate 260 0) oneCoilReset oneCoilOn =
      .ok (outcome oneCoilReset oneCoilOn
        (some (writeCoils oneCoilReset oneCoilOn #v[0] oneCoilOn.coilBit))) :=
  answer_writeMultipleCoils (by decide) rfl (fun h => absurd h.2.2.1 (by decide)) fun _ _ => rfl

/-- The one coil is read, and reads back as it was written, unless the application switches
it off. -/
theorem one_coil_read_back :
    ReadsTable (.replicate 260 0) oneCoil readOneCoil ∧
      (∃ out out' reply, handleModbusPdu (.replicate 260 0) oneCoil oneCoilOn = .ok out ∧
        handleModbusPdu (.replicate 260 0) out.api readOneCoil = .ok out' ∧
        out'.sent = [reply] ∧ ¬ IsException reply ∧ DecodesBits reply 1 oneCoilOn.coilBit) ∧
      ∃ out, handleModbusPdu (.replicate 260 0) oneCoilReset oneCoilOn = .ok out ∧
        ¬ ∃ out' reply, handleModbusPdu (.replicate 260 0) out.api readOneCoil = .ok out' ∧
          out'.sent = [reply] ∧ ¬ IsException reply ∧ DecodesBits reply 1 oneCoilOn.coilBit := by
  obtain ⟨hread, hback⟩ := reads_report_tables (.replicate 260 0) oneCoil
  have hnoException : ∀ reply ∈ [mbapReply oneCoilOn [15, 0, 0, 0, 1]], ¬ IsException reply := by
    intro reply hmem
    obtain rfl := List.mem_singleton.mp hmem
    exact fun h => h rfl
  refine ⟨(hread readOneCoil (.inl rfl)).mpr ?_, ?_, ?_⟩
  · rintro ⟨-, ⟨hf, -⟩ | ⟨-, -, hnum, -⟩⟩
    · exact absurd hf (by decide)
    · exact absurd hnum (by decide)
  · obtain ⟨out', reply, h⟩ := (hback (.replicate 260 0) oneCoilOn readOneCoil _ (by decide) rfl
      (by decide) oneCoilOn_accepted hnoException (by decide) rfl rfl rfl).mpr
        (fun _ _ _ _ => rfl)
    exact ⟨_, out', reply, oneCoilOn_accepted, h⟩
  · refine ⟨_, oneCoilOn_accepted_reset, fun h => ?_⟩
    have hkeeps := ((reads_report_tables (.replicate 260 0) oneCoilReset).2 (.replicate 260 0)
      oneCoilOn readOneCoil _ (by decide) rfl (by decide) oneCoilOn_accepted_reset hnoException
      (by decide) rfl rfl rfl).mp h
    exact absurd (hkeeps #v[0] rfl 0 (by decide)) (by decide)

/-- 2041 coils: the byte count is cut to 0, and the loop writes behind the response. -/
theorem read_of_2041_coils_overruns :
    ¬ ReadsTable (.replicate 260 0) manyCoils
      (.within [0, 1, 0, 0, 0, 6, 1, 1, 0, 0, 7, 0xF9] fun _ => 0) := by
  rintro ⟨out, hout, -⟩
  rw [fault_of_readOverrun (by decide) (.inr ⟨rfl, rfl, by decide, by decide⟩)] at hout
  cases hout

end RhsCore.Modbus
