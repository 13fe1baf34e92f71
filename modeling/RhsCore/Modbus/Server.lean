import RhsCore.Modbus.Reply

/-!
# The server behind the handler

`perform` says what a Modbus server does with a request: which requests it can carry
out, what becomes of the tables, and what the reply carries.  It knows nothing of
buffers and byte indices.  `handleModbusPdu_eq_perform` is the refinement: on a frame
of at least twelve bytes the handler does what the server does, outside three cases
that have theorems of their own.

## Main definitions

* `perform api buf` — the effect of a request, or `none` if it cannot be carried out.
* `ReadOverrun`, `WriteOverrun` — quantities whose byte count does not fit into 8 bits.
-/

namespace RhsCore.Modbus

open Bits

/-! ## The abstract server -/

/-- A request carried out: the tables afterwards, and the reply behind the function code. -/
structure Effect where
  api : ModbusTcpApi
  data : List UInt8

/-- A byte count and the bits, packed. -/
def bitsData (num : ℕ) (bit : ℕ → Bool) : List UInt8 :=
  .ofNat ((num + 7) / 8) :: (List.range ((num + 7) / 8)).map (packByte bit num)

/-- A byte count and the registers. -/
def registersData {n : ℕ} (t : Vector UInt16 n) (start num : ℕ) : List UInt8 :=
  .ofNat (2 * num) :: (List.range (2 * num)).map (registerBytes t start)

theorem length_bitsData (num : ℕ) (bit : ℕ → Bool) :
    (bitsData num bit).length = (num + 7) / 8 + 1 := by
  simp [bitsData]

theorem length_registersData {n : ℕ} (t : Vector UInt16 n) (start num : ℕ) :
    (registersData t start num).length = 2 * num + 1 := by
  simp [registersData]

/-- The two words of a confirmed write. -/
def echoData (start value : UInt16) : List UInt8 :=
  [wordBytes start 0, wordBytes start 1, wordBytes value 0, wordBytes value 1]

/-- Read bits of a table; one reply holds 2000 of them. -/
def performReadBits {size : UInt16} (data : Option (Vector UInt8 size.toNat))
    (cb : Option (TableCb UInt8 size)) (start num : UInt16) :
    Option (Vector UInt8 size.toNat × List UInt8) :=
  match inTable data start num with
  | some t =>
      let t := callback cb start num t
      if num.toNat ≤ 2000 then
        some (t, bitsData num.toNat fun i => nonZero t (start.toNat + i))
      else none
  | none => none

/-- The frame carries a byte for every eight bits of the request, and says so. -/
def Frame.CarriesBits (buf : Frame) : Prop :=
  12 < buf.len ∧ (buf.byte 12).toNat = (buf.num.toNat + 7) / 8 ∧
    13 + (buf.byte 12).toNat ≤ buf.len

instance (buf : Frame) : Decidable buf.CarriesBits := inferInstanceAs (Decidable (_ ∧ _ ∧ _))

/-- Switch one coil; the value is one of two. -/
def performWriteCoil (api : ModbusTcpApi) (buf : Frame) : Option Effect :=
  match api.coilsData with
  | some coils =>
      if buf.start < api.coilsSize ∧ (buf.num = 0x0000 ∨ buf.num = 0xFF00) then
        let coils := storeBits coils buf.start.toNat 1 fun _ => buf.num = 0xFF00
        some
          { api := { api with coilsData := some (callback api.coilsWriteCb buf.start 1 coils) }
            data := echoData buf.start buf.num }
      else none
  | none => none

/-- The table with the bits of the frame in it. -/
def writeCoils (api : ModbusTcpApi) (buf : Frame) (coils : Vector UInt8 api.coilsSize.toNat)
    (bit : ℕ → Bool) : Effect where
  api :=
    { api with
      coilsData := some (callback api.coilsWriteCb buf.start buf.num
        (storeBits coils buf.start.toNat buf.num.toNat bit)) }
  data := echoData buf.start buf.num

/-- Switch a range of coils; the frame has to carry the bits. -/
def performWriteCoils (api : ModbusTcpApi) (buf : Frame) : Option Effect :=
  match inTable api.coilsData buf.start buf.num with
  | some coils =>
      if buf.CarriesBits then some (writeCoils api buf coils (bitAt fun j => buf.byte (13 + j)))
      else none
  | none => none

/-- Read registers; one reply holds 125 of them. -/
def performReadRegisters (api : ModbusTcpApi) (buf : Frame) : Option Effect :=
  match inTable api.holdingsData buf.start buf.num with
  | some holdings =>
      if buf.num.toNat ≤ 125 then
        some
          { api :=
              { api with
                holdingsData := some (callback api.holdingsCb buf.start buf.num holdings) }
            data := registersData holdings buf.start.toNat buf.num.toNat }
      else none
  | none => none

/-- What a server does with a request. -/
def perform (api : ModbusTcpApi) (buf : Frame) : Option Effect :=
  if buf.func = 2 then
    (performReadBits api.discreteInputsData api.discreteInputsCb buf.start buf.num).map
      fun p => { api := { api with discreteInputsData := some p.1 }, data := p.2 }
  else if buf.func = 1 then
    (performReadBits api.coilsData api.coilsReadCb buf.start buf.num).map
      fun p => { api := { api with coilsData := some p.1 }, data := p.2 }
  else if buf.func = 5 then performWriteCoil api buf
  else if buf.func = 15 then performWriteCoils api buf
  else if buf.func = 3 then performReadRegisters api buf
  else none

/-! ## Requests that are carried out -/

theorem performReadBits_eq_some {size : UInt16} {data : Option (Vector UInt8 size.toNat)}
    {cb : Option (TableCb UInt8 size)} {start num : UInt16}
    {p : Vector UInt8 size.toNat × List UInt8} (h : performReadBits data cb start num = some p) :
    ∃ t, inTable data start num = some t ∧ num.toNat ≤ 2000 ∧
      p = (callback cb start num t,
        bitsData num.toNat fun i => nonZero (callback cb start num t) (start.toNat + i)) := by
  rw [performReadBits] at h
  split at h
  · simp only [Option.ite_none_right_eq_some, Option.some.injEq] at h
    exact ⟨_, ‹_›, h.1, h.2.symm⟩
  · cases h

theorem performWriteCoil_eq_some {api : ModbusTcpApi} {buf : Frame} {e : Effect}
    (h : performWriteCoil api buf = some e) :
    ∃ coils, api.coilsData = some coils ∧ buf.start < api.coilsSize ∧
      (buf.num = 0x0000 ∨ buf.num = 0xFF00) ∧
      e = { api := { api with coilsData := some (callback api.coilsWriteCb buf.start 1
              (storeBits coils buf.start.toNat 1 fun _ => buf.num = 0xFF00)) }
            data := echoData buf.start buf.num } := by
  rw [performWriteCoil] at h
  split at h
  · simp only [Option.ite_none_right_eq_some, Option.some.injEq] at h
    exact ⟨_, ‹_›, h.1.1, h.1.2, h.2.symm⟩
  · cases h

theorem performWriteCoils_eq_some {api : ModbusTcpApi} {buf : Frame} {e : Effect}
    (h : performWriteCoils api buf = some e) :
    ∃ coils, inTable api.coilsData buf.start buf.num = some coils ∧ buf.CarriesBits ∧
      e = writeCoils api buf coils (bitAt fun j => buf.byte (13 + j)) := by
  rw [performWriteCoils] at h
  split at h
  · simp only [Option.ite_none_right_eq_some, Option.some.injEq] at h
    exact ⟨_, ‹_›, h.1, h.2.symm⟩
  · cases h

theorem performReadRegisters_eq_some {api : ModbusTcpApi} {buf : Frame} {e : Effect}
    (h : performReadRegisters api buf = some e) :
    ∃ holdings, inTable api.holdingsData buf.start buf.num = some holdings ∧
      buf.num.toNat ≤ 125 ∧
      e = { api :=
              { api with
                holdingsData := some (callback api.holdingsCb buf.start buf.num holdings) }
            data := registersData holdings buf.start.toNat buf.num.toNat } := by
  rw [performReadRegisters] at h
  split at h
  · simp only [Option.ite_none_right_eq_some, Option.some.injEq] at h
    exact ⟨_, ‹_›, h.1, h.2.symm⟩
  · cases h

/-! ## Reads of bits -/

theorem toNat_bytesCount (num : UInt16) :
    (bytesCount num).toNat = (num.toNat + 7) / 8 % 256 := by
  simp [bytesCount]

theorem inTable_le {α : Type} {size : UInt16} {data : Option (Vector α size.toNat)}
    {start num : UInt16} {t : Vector α size.toNat} (h : inTable data start num = some t) :
    start.toNat + num.toNat ≤ size.toNat := by
  cases data with
  | none => cases h
  | some d =>
      simp only [inTable, Option.ite_none_right_eq_some] at h
      exact h.1.2

/-- A read of more bits than the byte count can say, which looks small enough. -/
def BitsOverrun {size : UInt16} (data : Option (Vector UInt8 size.toNat)) (start num : UInt16) :
    Prop :=
  (inTable data start num).isSome ∧ 2041 ≤ num.toNat ∧ (bytesCount num).toNat ≤ 250

/-- The response after a read of bits. -/
def bitsResponse (r : Response) (num : UInt16) (bit : ℕ → Bool) : Response :=
  fill (orBits (fill r 9 (bytesCount num).toNat fun _ => 0) bit num.toNat) 8 1
    fun _ => bytesCount num

theorem HasHeader.bitsResponse {buf : Frame} {func : UInt8} {r : Response}
    (h : HasHeader buf func r) (num : UInt16) (bit : ℕ → Bool) :
    HasHeader buf func (bitsResponse r num bit) := by
  have h₁ := h.fill (n := (bytesCount num).toNat) (show 8 ≤ 9 by decide) fun _ => 0
  exact (h₁.orBits bit num.toNat).fill (le_refl 8) _

theorem readBits_eq {size : UInt16} {data : Option (Vector UInt8 size.toNat)}
    {cb : Option (TableCb UInt8 size)} {start num : UInt16} (r : Response)
    (h : ¬ BitsOverrun data start num) :
    readBits data cb start num r = .ok ((performReadBits data cb start num).map fun p =>
      (p.1, bitsResponse r num fun i => nonZero p.1 (start.toNat + i),
        9 + (num.toNat + 7) / 8)) := by
  rw [readBits, performReadBits]
  rcases hdata : inTable data start num with _ | t
  · rfl
  have hle := inTable_le hdata
  have hsize := size.toNat_lt
  have hcount := toNat_bytesCount num
  have hover : ¬ (2041 ≤ num.toNat ∧ (bytesCount num).toNat ≤ 250) := fun h' =>
    h ⟨by rw [hdata]; rfl, h'⟩
  dsimp only
  by_cases hnum : num.toNat ≤ 2000
  · have hceil : (bytesCount num).toNat = (num.toNat + 7) / 8 := by omega
    rw [if_pos (by omega), if_pos hnum]
    simp only [clearData_eq_ok _ (show 9 + (bytesCount num).toNat ≤ 260 by omega), ok_bind,
      packBits_eq_ok _ hsize hle (by omega), write_eq_ok _ (show 8 < 260 by decide),
      Option.map_some]
    rw [← hceil]
    rfl
  · rw [if_neg (by omega), if_neg hnum]
    rfl

/-- The overrun: the loop leaves the response. -/
theorem readBits_overrun {size : UInt16} {data : Option (Vector UInt8 size.toNat)}
    {cb : Option (TableCb UInt8 size)} {start num : UInt16} (r : Response)
    (h : BitsOverrun data start num) :
    readBits data cb start num r = .error (.response 260) := by
  obtain ⟨hsome, hnum, hcount⟩ := h
  obtain ⟨t, hdata⟩ := Option.isSome_iff_exists.mp hsome
  rw [readBits, hdata]
  dsimp only
  rw [if_pos (by omega), clearData_eq_ok _ (by omega), ok_bind,
    packBits_eq_error _ size.toNat_lt (inTable_le hdata) (by omega), error_bind]

/-- What the response holds behind the function code. -/
theorem holdsData_bitsResponse (r : Response) {num : UInt16} (hnum : num.toNat ≤ 2000)
    (bit : ℕ → Bool) : HoldsData (bitsResponse r num bit) (bitsData num.toNat bit) := by
  intro k hk _
  have hlen : k < (num.toNat + 7) / 8 + 1 := by simpa [bitsData] using hk
  have hceil : (bytesCount num).toNat = (num.toNat + 7) / 8 := by
    rw [toNat_bytesCount]
    omega
  rw [bitsResponse, getElem_fill]
  cases k with
  | zero => rfl
  | succ j =>
      rw [if_neg (by omega), getElem_orBits, if_pos (by omega), getElem_fill, if_pos (by omega)]
      have hj : 8 + (j + 1) - 9 = j := by omega
      simp [bitsData, hj]

/-! ## Each function code -/

/-- What the handler should leave: the reply to the effect, or the device failure. -/
def outcome (api : ModbusTcpApi) (buf : Frame) : Option Effect → Outcome
  | some e => { api := e.api, sent := [mbapReply buf (buf.func :: e.data)] }
  | none => { api := api, sent := [mbapReply buf [buf.func ||| 0x80, 4]] }

variable {stack : Response} {api : ModbusTcpApi} {buf : Frame}

theorem readWord_start (hlen : 12 ≤ buf.len) : buf.readWord 8 = .ok buf.start :=
  Frame.readWord_eq_ok (by omega)

theorem readWord_num (hlen : 12 ≤ buf.len) : buf.readWord 10 = .ok buf.num :=
  Frame.readWord_eq_ok (by omega)

/-- What a branch makes of a read of bits. -/
def servedBits {size : UInt16} (api : ModbusTcpApi) (upd : Vector UInt8 size.toNat → ModbusTcpApi)
    (r : Response) : Option (Vector UInt8 size.toNat × Response × ℕ) → Served
  | none => { api := api, response := r }
  | some (t, r', n) => { api := upd t, response := r', responseLen := n, success := true }

/-- A reply that comes from a read of bits. -/
theorem answer_of_readBits {size : UInt16} {data : Option (Vector UInt8 size.toNat)}
    {cb : Option (TableCb UInt8 size)} (hlen : 12 ≤ buf.len)
    (upd : Vector UInt8 size.toNat → ModbusTcpApi)
    (hserve : ∀ r, serve buf.func api buf r =
      readBits data cb buf.start buf.num r >>= fun result => .ok (servedBits api upd r result))
    (h : ¬ BitsOverrun data buf.start buf.num) :
    handleModbusPdu stack api buf = .ok (outcome api buf
      ((performReadBits data cb buf.start buf.num).map fun p => ⟨upd p.1, p.2⟩)) := by
  have hhead := hasHeader_fill buf stack
  rcases hp : performReadBits data cb buf.start buf.num with _ | ⟨t, d⟩
  · refine answer_of_failure (s := { api := api, response := fill stack 0 8 buf.byte }) hlen ?_
      rfl (show 0 ≠ 9 by decide) hhead
    rw [hserve, readBits_eq _ h, hp]
    rfl
  · obtain ⟨t', -, hnum, heq⟩ := performReadBits_eq_some hp
    obtain ⟨rfl, rfl⟩ := Prod.mk.inj heq
    refine answer_of_success (s :=
      { api := upd (callback cb buf.start buf.num t')
        response := bitsResponse (fill stack 0 8 buf.byte) buf.num
          fun i => nonZero (callback cb buf.start buf.num t') (buf.start.toNat + i)
        responseLen := 9 + (buf.num.toNat + 7) / 8
        success := true }) _ hlen ?_ (.inl rfl) ?_ ?_ ?_ ?_
    · rw [hserve, readBits_eq _ h, hp]
      rfl
    · exact hhead.bitsResponse _ _
    · rw [length_bitsData]
      dsimp only
      omega
    · rw [length_bitsData]
      omega
    · exact holdsData_bitsResponse _ hnum _

theorem fault_of_readBits {size : UInt16} {data : Option (Vector UInt8 size.toNat)}
    {cb : Option (TableCb UInt8 size)} (hlen : 12 ≤ buf.len)
    (upd : Vector UInt8 size.toNat → ModbusTcpApi)
    (hserve : ∀ r, serve buf.func api buf r =
      readBits data cb buf.start buf.num r >>= fun result => .ok (servedBits api upd r result))
    (h : BitsOverrun data buf.start buf.num) :
    handleModbusPdu stack api buf = .error (.response 260) := by
  refine answer_of_fault hlen ?_
  rw [hserve, readBits_overrun _ h]
  rfl

theorem serve_readDiscreteInputs (api : ModbusTcpApi) (hlen : 12 ≤ buf.len) (hf : buf.func = 2)
    (r : Response) :
    serve buf.func api buf r =
      readBits api.discreteInputsData api.discreteInputsCb buf.start buf.num r >>= fun result =>
        .ok (servedBits api (fun t => { api with discreteInputsData := some t }) r result) := by
  rw [serve, if_pos hf, readDiscreteInputs, readWord_start hlen, readWord_num hlen]
  refine congrArg (readBits _ _ _ _ r >>= ·) (funext fun result => ?_)
  rcases result with _ | ⟨t, r', n⟩ <;> rfl

theorem serve_readCoils (api : ModbusTcpApi) (hlen : 12 ≤ buf.len) (hf : buf.func = 1)
    (r : Response) :
    serve buf.func api buf r =
      readBits api.coilsData api.coilsReadCb buf.start buf.num r >>= fun result =>
        .ok (servedBits api (fun t => { api with coilsData := some t }) r result) := by
  have hserve : serve buf.func api buf r = readCoils api buf r := by
    rw [hf]
    rfl
  rw [hserve, readCoils, readWord_start hlen, readWord_num hlen]
  refine congrArg (readBits _ _ _ _ r >>= ·) (funext fun result => ?_)
  rcases result with _ | ⟨t, r', n⟩ <;> rfl

/-! ## Writes -/

/-- The response after a confirmed write. -/
def echoResponse (r : Response) (start value : UInt16) : Response :=
  fill (fill r 8 2 (wordBytes start)) 10 2 (wordBytes value)

theorem echoRequest_eq_ok (start value : UInt16) (r : Response) :
    echoRequest start value r = .ok (echoResponse r start value) := by
  simp only [echoRequest, writeWord_eq_ok _ (show 8 + 1 < 260 by decide), ok_bind,
    writeWord_eq_ok _ (show 10 + 1 < 260 by decide), echoResponse]

theorem HasHeader.echoResponse {buf : Frame} {func : UInt8} {r : Response}
    (h : HasHeader buf func r) (start value : UInt16) :
    HasHeader buf func (echoResponse r start value) := by
  have h₁ := h.fill (n := 2) (le_refl 8) (wordBytes start)
  exact h₁.fill (show 8 ≤ 10 by decide) _

theorem holdsData_echoResponse (r : Response) (start value : UInt16) :
    HoldsData (echoResponse r start value) (echoData start value) := by
  intro k hk _
  have hk4 : k < 4 := hk
  simp only [RhsCore.Modbus.echoResponse, getElem_fill]
  have hcases : k = 0 ∨ k = 1 ∨ k = 2 ∨ k = 3 := by omega
  rcases hcases with rfl | rfl | rfl | rfl <;> rfl

/-- A branch that confirms a write. -/
theorem answer_of_echo (hlen : 12 ≤ buf.len) (api' : ModbusTcpApi)
    (hserve : serve buf.func api buf (fill stack 0 8 buf.byte) = .ok
      { api := api', response := echoResponse (fill stack 0 8 buf.byte) buf.start buf.num,
        responseLen := 12, success := true }) :
    handleModbusPdu stack api buf =
      .ok (outcome api buf (some { api := api', data := echoData buf.start buf.num })) :=
  answer_of_success _ hlen hserve (.inl rfl) ((hasHeader_fill buf stack).echoResponse _ _) rfl
    (by simp [echoData]) (holdsData_echoResponse _ _ _)

/-- A branch that refuses, and leaves the response alone. -/
theorem answer_of_refusal (hlen : 12 ≤ buf.len)
    (hserve : serve buf.func api buf (fill stack 0 8 buf.byte) = .ok
      { api := api, response := fill stack 0 8 buf.byte }) :
    handleModbusPdu stack api buf = .ok (outcome api buf none) :=
  answer_of_failure hlen hserve rfl (show 0 ≠ 9 by decide) (hasHeader_fill buf stack)

theorem answer_writeSingleCoil (hlen : 12 ≤ buf.len) (hf : buf.func = 5) :
    handleModbusPdu stack api buf = .ok (outcome api buf (performWriteCoil api buf)) := by
  have hserve : ∀ r, serve buf.func api buf r = writeSingleCoil api buf r := by
    intro r
    rw [hf]
    rfl
  rcases hdata : api.coilsData with _ | coils
  · rw [performWriteCoil, hdata]
    refine answer_of_refusal hlen ?_
    rw [hserve, writeSingleCoil, readWord_start hlen, readWord_num hlen, hdata]
    rfl
  · by_cases hok : buf.start < api.coilsSize ∧ (buf.num = 0x0000 ∨ buf.num = 0xFF00)
    · have hstore := writeTable_storeBits coils buf.start.toNat (fun _ => buf.num = 0xFF00)
        (i := 0) (UInt16.lt_iff_toNat_lt.mp hok.1)
      rw [storeBits_zero, Nat.add_zero, Nat.zero_add] at hstore
      simp only [performWriteCoil, hdata, if_pos hok]
      refine answer_of_echo hlen _ ?_
      simp only [hserve, writeSingleCoil, readWord_start hlen, readWord_num hlen, hdata, ok_bind,
        if_pos hok.1, if_pos hok.2, echoRequest_eq_ok]
      simp only [decide_eq_true_eq] at hstore
      rw [hstore]
      rfl
    · simp only [performWriteCoil, hdata, if_neg hok]
      refine answer_of_refusal hlen ?_
      simp only [hserve, writeSingleCoil, readWord_start hlen, readWord_num hlen, hdata, ok_bind]
      by_cases hlt : buf.start < api.coilsSize
      · rw [if_pos hlt, if_neg fun h => hok ⟨hlt, h⟩]
        rfl
      · rw [if_neg hlt]
        rfl

/-- A write of more coils than the byte count can say, which looks well formed. -/
def CoilsOverrun (api : ModbusTcpApi) (buf : Frame) : Prop :=
  buf.func = 15 ∧ (inTable api.coilsData buf.start buf.num).isSome ∧ 2041 ≤ buf.num.toNat ∧
    12 < buf.len ∧ buf.byte 12 = bytesCount buf.num ∧ (buf.byte 12).toNat + 13 ≤ buf.len

theorem serve_writeMultipleCoils (api : ModbusTcpApi) (hlen : 12 ≤ buf.len) (hf : buf.func = 15)
    (r : Response) :
    serve buf.func api buf r =
      match inTable api.coilsData buf.start buf.num with
      | none => .ok { api := api, response := r }
      | some coils => do
          let byteCount ← buf.read 12
          if byteCount = bytesCount buf.num ∧ byteCount.toNat + 13 ≤ buf.len then
            let coils ← unpackBits buf buf.start buf.num coils
            return { api :=
                       { api with
                         coilsData := some (callback api.coilsWriteCb buf.start buf.num coils) }
                     response := echoResponse r buf.start buf.num
                     responseLen := 12
                     success := true }
          else return { api := api, response := r } := by
  rw [hf]
  change writeMultipleCoils api buf r = _
  simp only [writeMultipleCoils, readWord_start hlen, readWord_num hlen, ok_bind, echoRequest_eq_ok]
  rcases inTable api.coilsData buf.start buf.num with _ | coils <;> rfl

/-- Inside 8 bits the test of the byte count is the test that the bits are there. -/
theorem carriesBits_iff (hlen : 12 < buf.len) (hnum : buf.num.toNat ≤ 2040) :
    buf.CarriesBits ↔ buf.byte 12 = bytesCount buf.num ∧ (buf.byte 12).toNat + 13 ≤ buf.len := by
  rw [Frame.CarriesBits, ← UInt8.toNat_inj, toNat_bytesCount]
  omega

/-- From 2041 coils on no frame carries the bits. -/
theorem not_carriesBits (hnum : 2041 ≤ buf.num.toNat) : ¬ buf.CarriesBits := by
  rintro ⟨-, h, -⟩
  have hlt := (buf.byte 12).toNat_lt
  omega

/-- A write whose bits the frame carries is carried out. -/
theorem answer_of_carriesBits (hlen : 12 ≤ buf.len) (hf : buf.func = 15)
    {coils : Vector UInt8 api.coilsSize.toNat}
    (hdata : inTable api.coilsData buf.start buf.num = some coils) (hcarry : buf.CarriesBits) :
    handleModbusPdu stack api buf = .ok (outcome api buf (performWriteCoils api buf)) := by
  have hserve := serve_writeMultipleCoils api hlen hf (fill stack 0 8 buf.byte)
  rw [hdata] at hserve
  dsimp only at hserve
  have hnum : buf.num.toNat ≤ 2040 := by
    by_contra hnum
    exact not_carriesBits (by omega) hcarry
  have haccept := (carriesBits_iff hcarry.1 hnum).mp hcarry
  have hunpack := unpackBits_eq_ok buf (fun j => buf.byte (13 + j)) coils
    api.coilsSize.toNat_lt (inTable_le hdata) (fun i hi => by
      rw [toNat_byteIndex (by omega)]
      have hc := hcarry.2.1
      exact Frame.read_eq_ok (by omega))
  have hbits : storeBits coils buf.start.toNat buf.num.toNat
      (unpackedBit fun j => buf.byte (13 + j)) =
        storeBits coils buf.start.toNat buf.num.toNat (bitAt fun j => buf.byte (13 + j)) := by
    refine Vector.ext fun k hk => ?_
    simp only [getElem_storeBits]
    split
    · rw [unpackedBit_eq_bitAt _ (by omega)]
    · rfl
  simp only [performWriteCoils, hdata, if_pos hcarry]
  refine answer_of_echo hlen _ ?_
  rw [hserve]
  simp only [Frame.read_eq_ok hcarry.1, ok_bind, if_pos haccept, hunpack, hbits]
  rfl

/-- A write whose bits the frame does not carry is refused, unless it overruns. -/
theorem answer_of_not_carriesBits (hlen : 12 ≤ buf.len) (hf : buf.func = 15)
    {coils : Vector UInt8 api.coilsSize.toNat}
    (hdata : inTable api.coilsData buf.start buf.num = some coils) (hcarry : ¬ buf.CarriesBits)
    (hover : ¬ CoilsOverrun api buf) (hpast : buf.len = 12 → (buf.past 0).isSome) :
    handleModbusPdu stack api buf = .ok (outcome api buf (performWriteCoils api buf)) := by
  have hserve := serve_writeMultipleCoils api hlen hf (fill stack 0 8 buf.byte)
  rw [hdata] at hserve
  dsimp only at hserve
  simp only [performWriteCoils, hdata, if_neg hcarry]
  refine answer_of_refusal hlen ?_
  rw [hserve]
  by_cases hlen12 : buf.len = 12
  · -- the byte count is read behind the frame, and then found not to fit into it
    obtain ⟨b, hb⟩ := Option.isSome_iff_exists.mp (hpast hlen12)
    have hread : buf.read 12 = .ok b := by
      have hnone : buf.bytes[12]? = none := List.getElem?_eq_none (le_of_eq hlen12)
      simp only [Frame.read, hnone, hlen12, Nat.sub_self, hb]
    rw [hread, ok_bind, if_neg (by omega)]
    rfl
  · rw [Frame.read_eq_ok (by omega), ok_bind, if_neg ?_]
    · rfl
    · intro haccept
      by_cases hnum : buf.num.toNat ≤ 2040
      · exact hcarry ((carriesBits_iff (by omega) hnum).mpr haccept)
      · exact hover ⟨hf, by rw [hdata]; rfl, by omega, by omega, haccept⟩

theorem answer_writeMultipleCoils (hlen : 12 ≤ buf.len) (hf : buf.func = 15)
    (hover : ¬ CoilsOverrun api buf)
    (hpast : (inTable api.coilsData buf.start buf.num).isSome → buf.len = 12 →
      (buf.past 0).isSome) :
    handleModbusPdu stack api buf = .ok (outcome api buf (performWriteCoils api buf)) := by
  rcases hdata : inTable api.coilsData buf.start buf.num with _ | coils
  · have hserve := serve_writeMultipleCoils api hlen hf (fill stack 0 8 buf.byte)
    rw [performWriteCoils, hdata]
    rw [hdata] at hserve
    exact answer_of_refusal hlen hserve
  · by_cases hcarry : buf.CarriesBits
    · exact answer_of_carriesBits hlen hf hdata hcarry
    · exact answer_of_not_carriesBits hlen hf hdata hcarry hover (hpast (by rw [hdata]; rfl))

/-- The overrun where all the bytes that a byte index can reach can be read: whatever
they are, they are taken for coil data. -/
theorem answer_of_coilsOverrun (hlen : 12 ≤ buf.len) (hover : CoilsOverrun api buf)
    (hread : ∀ j : UInt8, ∃ b, buf.read (13 + j.toNat) = .ok b) :
    ∃ coils bit, inTable api.coilsData buf.start buf.num = some coils ∧
      handleModbusPdu stack api buf =
        .ok (outcome api buf (some (writeCoils api buf coils bit))) := by
  obtain ⟨hf, hsome, hnum, hlen13, haccept⟩ := hover
  obtain ⟨coils, hdata⟩ := Option.isSome_iff_exists.mp hsome
  have hserve := serve_writeMultipleCoils api hlen hf (fill stack 0 8 buf.byte)
  rw [hdata] at hserve
  dsimp only at hserve
  choose data hbyte using hread
  have hunpack := unpackBits_eq_ok buf (fun j => data (.ofNat j)) coils api.coilsSize.toNat_lt
    (inTable_le hdata) fun i _ => by rw [hbyte, UInt8.ofNat_toNat]
  refine ⟨coils, unpackedBit fun j => data (.ofNat j), hdata, answer_of_echo hlen _ ?_⟩
  rw [hserve]
  simp only [Frame.read_eq_ok hlen13, ok_bind, if_pos haccept, hunpack]
  rfl

/-- The overrun where the frame is everything that can be read, and is too short for the
byte indices of the loop. -/
theorem fault_of_coilsOverrun (hlen : 12 ≤ buf.len) (hover : CoilsOverrun api buf)
    (hpast : ∀ i, buf.past i = none) (hshort : buf.len ≤ 268) :
    handleModbusPdu stack api buf = .error (.frame buf.len) := by
  obtain ⟨hf, hsome, hnum, hlen13, haccept⟩ := hover
  obtain ⟨coils, hdata⟩ := Option.isSome_iff_exists.mp hsome
  have hserve := serve_writeMultipleCoils api hlen hf (fill stack 0 8 buf.byte)
  rw [hdata] at hserve
  dsimp only at hserve
  refine answer_of_fault hlen ?_
  -- the first bit of the first byte behind the frame
  have hfail : buf.read (13 + (UInt8.ofNat (8 * (buf.len - 13) / 8)).toNat) =
      .error (.frame buf.len) := by
    have hidx : 13 + 8 * (buf.len - 13) / 8 = buf.len := by omega
    rw [toNat_byteIndex (by omega), hidx]
    have hnone : buf.bytes[buf.len]? = none := List.getElem?_eq_none (le_refl _)
    simp only [Frame.read, hnone, hpast]
  have hunpack := unpackBits_eq_error buf (fun j => buf.byte (13 + j)) coils
    api.coilsSize.toNat_lt buf.start (inTable_le hdata)
    (j := 8 * (buf.len - 13)) (by omega) (fun i hi => by
      rw [toNat_byteIndex (by omega)]
      exact Frame.read_eq_ok (by omega)) hfail
  rw [hserve]
  simp only [Frame.read_eq_ok hlen13, ok_bind, if_pos haccept, hunpack]
  rfl

/-- A frame of twelve bytes has no byte count; it is read all the same. -/
theorem fault_of_missing_byteCount (hlen : buf.len = 12) (hf : buf.func = 15)
    (hsome : (inTable api.coilsData buf.start buf.num).isSome) (hpast : buf.past 0 = none) :
    handleModbusPdu stack api buf = .error (.frame 12) := by
  obtain ⟨coils, hdata⟩ := Option.isSome_iff_exists.mp hsome
  have hserve := serve_writeMultipleCoils api (le_of_eq hlen.symm) hf
    (fill stack 0 8 buf.byte)
  rw [hdata] at hserve
  dsimp only at hserve
  have hread : buf.read 12 = .error (.frame 12) := by
    have hnone : buf.bytes[12]? = none := List.getElem?_eq_none (le_of_eq hlen)
    simp only [Frame.read, hnone, hlen, Nat.sub_self, hpast]
  refine answer_of_fault (le_of_eq hlen.symm) ?_
  rw [hserve, hread, error_bind]

/-! ## The other codes -/

/-- The response after a read of registers. -/
def registersResponse {n : ℕ} (r : Response) (t : Vector UInt16 n) (start num : ℕ) : Response :=
  fill (fill r 9 (2 * num) (registerBytes t start)) 8 1 fun _ => .ofNat (2 * num)

theorem HasHeader.registersResponse {buf : Frame} {func : UInt8} {r : Response} {n : ℕ}
    (h : HasHeader buf func r) (t : Vector UInt16 n) (start num : ℕ) :
    HasHeader buf func (registersResponse r t start num) := by
  have h₁ := h.fill (n := 2 * num) (show 8 ≤ 9 by decide) (registerBytes t start)
  exact h₁.fill (le_refl 8) _

theorem holdsData_registersResponse {n : ℕ} (r : Response) (t : Vector UInt16 n) (start : ℕ)
    (num : ℕ) : HoldsData (registersResponse r t start num) (registersData t start num) := by
  intro k hk _
  have hlen : k < 2 * num + 1 := by rwa [length_registersData] at hk
  rw [registersResponse, getElem_fill]
  cases k with
  | zero => rfl
  | succ j =>
      have hj : 8 + (j + 1) - 9 = j := by omega
      rw [if_neg (by omega), getElem_fill, if_pos (by omega), hj]
      simp [registersData]

theorem answer_readHoldingRegisters (hlen : 12 ≤ buf.len) (hf : buf.func = 3) :
    handleModbusPdu stack api buf = .ok (outcome api buf (performReadRegisters api buf)) := by
  have hserve : ∀ r, serve buf.func api buf r = readHoldingRegisters api buf r := by
    intro r
    rw [hf]
    rfl
  simp only [readHoldingRegisters, readWord_start hlen, readWord_num hlen, ok_bind] at hserve
  rcases hdata : inTable api.holdingsData buf.start buf.num with _ | holdings
  · rw [performReadRegisters, hdata]
    refine answer_of_refusal hlen ?_
    rw [hserve, hdata]
    rfl
  by_cases hnum : buf.num.toNat ≤ 125
  · simp only [performReadRegisters, hdata, if_pos hnum]
    have hlength := length_registersData holdings buf.start.toNat buf.num.toNat
    refine answer_of_success (s :=
      { api := _
        response :=
          registersResponse (fill stack 0 8 buf.byte) holdings buf.start.toNat buf.num.toNat
        responseLen := 9 + 2 * buf.num.toNat
        success := true })
      (registersData holdings buf.start.toNat buf.num.toNat) hlen ?_ (.inl rfl)
      ((hasHeader_fill buf stack).registersResponse _ _ _) (by dsimp only; omega) (by omega)
      (holdsData_registersResponse _ _ _ _)
    have hbyte : (UInt8.ofNat (2 * buf.num.toNat)).toNat = 2 * buf.num.toNat :=
      UInt8.toNat_ofNat_of_lt' (by simp [UInt8.size]; omega)
    rw [hserve, hdata]
    simp only [if_pos (show 2 * buf.num.toNat + 9 < 260 by omega), ok_bind,
      packRegisters_eq_ok holdings api.holdingsSize.toNat_lt (inTable_le hdata) hnum,
      write_eq_ok _ (show 8 < 260 by decide), Nat.mul_comm buf.num.toNat 2, hbyte]
    rfl
  · simp only [performReadRegisters, hdata, if_neg hnum]
    refine answer_of_refusal hlen ?_
    rw [hserve, hdata]
    dsimp only
    rw [if_neg (by omega)]
    rfl

/-- A branch that writes behind the function code, and does not succeed. -/
theorem answer_of_unimplemented (hlen : 12 ≤ buf.len) {r : Response} {n : ℕ}
    (hserve : serve buf.func api buf (fill stack 0 8 buf.byte) =
      .ok { api := api, response := r, responseLen := n })
    (hr : HasHeader buf buf.func r) (hn : n ≠ 9) :
    handleModbusPdu stack api buf = .ok (outcome api buf none) :=
  answer_of_failure hlen hserve rfl hn hr

theorem answer_writeSingleHolding (hlen : 12 ≤ buf.len) (hf : buf.func = 6) :
    handleModbusPdu stack api buf = .ok (outcome api buf none) := by
  refine answer_of_unimplemented hlen
    (r := echoResponse (fill stack 0 8 buf.byte) buf.start buf.num) (n := 12) ?_
    ((hasHeader_fill buf stack).echoResponse _ _) (by decide)
  rw [hf]
  change writeSingleHolding api buf _ = _
  simp only [writeSingleHolding, readWord_start hlen, readWord_num hlen, ok_bind,
    echoRequest_eq_ok]
  rfl

theorem answer_writeMultiple (hlen : 12 ≤ buf.len) (hf : buf.func = 16) :
    handleModbusPdu stack api buf = .ok (outcome api buf none) := by
  have hserve : ∀ r, serve buf.func api buf r = writeMultiple api buf r := by
    intro r
    rw [hf]
    rfl
  simp only [writeMultiple, readWord_start hlen, readWord_num hlen, ok_bind,
    echoRequest_eq_ok] at hserve
  by_cases hnum : buf.num.toNat * 2 + 10 < 260
  · refine answer_of_unimplemented hlen
      (r := echoResponse (fill stack 0 8 buf.byte) buf.start buf.num)
      (n := 12) ?_ ((hasHeader_fill buf stack).echoResponse _ _) (by decide)
    rw [hserve, if_pos hnum]
    rfl
  · refine answer_of_refusal hlen ?_
    rw [hserve, if_neg hnum]
    rfl

theorem serve_readInputRegisters (api : ModbusTcpApi) (hlen : 12 ≤ buf.len) (hf : buf.func = 4)
    (r : Response) :
    serve buf.func api buf r =
      if buf.num.toNat * 2 + 9 < 260 then
        .ok { api := api, response := fill r 8 1 fun _ => .ofNat (buf.num.toNat * 2),
              responseLen := 9 + (UInt8.ofNat (buf.num.toNat * 2)).toNat }
      else .ok { api := api, response := r } := by
  rw [hf]
  change readInputRegisters api buf r = _
  simp only [readInputRegisters, readWord_num hlen, ok_bind, write_eq_ok _ (show 8 < 260 by decide)]
  rfl

theorem answer_readInputRegisters (hlen : 12 ≤ buf.len) (hf : buf.func = 4)
    (hnum : 0 < buf.num.toNat) :
    handleModbusPdu stack api buf = .ok (outcome api buf none) := by
  have hserve := serve_readInputRegisters api hlen hf (fill stack 0 8 buf.byte)
  by_cases hfit : buf.num.toNat * 2 + 9 < 260
  · rw [if_pos hfit] at hserve
    have hbyte : (UInt8.ofNat (buf.num.toNat * 2)).toNat = buf.num.toNat * 2 :=
      UInt8.toNat_ofNat_of_lt' (by simp [UInt8.size]; omega)
    exact answer_of_unimplemented hlen hserve ((hasHeader_fill buf stack).fill (le_refl 8) _)
      (by omega)
  · rw [if_neg hfit] at hserve
    exact answer_of_refusal hlen hserve

/-- No registers were asked for: the length is 9 by chance, and the reply looks like a
success. -/
theorem answer_readInputRegisters_zero (hlen : 12 ≤ buf.len) (hf : buf.func = 4)
    (hnum : buf.num.toNat = 0) :
    handleModbusPdu stack api buf =
      .ok (outcome api buf (some { api := api, data := [0] })) := by
  have hserve := serve_readInputRegisters api hlen hf (fill stack 0 8 buf.byte)
  rw [if_pos (by omega), hnum] at hserve
  have hhead := (hasHeader_fill buf stack).fill (n := 1) (le_refl 8) (fun _ => UInt8.ofNat (0 * 2))
  refine answer_of_success [0] hlen hserve (.inr rfl) hhead rfl (by decide) fun k hk _ => ?_
  obtain rfl : k = 0 := by simpa using hk
  rw [getElem_fill, if_pos (by omega)]
  rfl

/-- Any other function code. -/
def Unknown (func : UInt8) : Prop :=
  func ≠ 1 ∧ func ≠ 2 ∧ func ≠ 3 ∧ func ≠ 4 ∧ func ≠ 5 ∧ func ≠ 6 ∧ func ≠ 15 ∧ func ≠ 16

theorem answer_unknown (hlen : 12 ≤ buf.len) (hf : Unknown buf.func) :
    handleModbusPdu stack api buf = .ok (outcome api buf none) := by
  obtain ⟨h1, h2, h3, h4, h5, h6, h15, h16⟩ := hf
  refine answer_of_refusal hlen ?_
  simp only [serve, h1, h2, h3, h4, h5, h6, h15, h16, if_false]

/-! ## Refinement -/

/-- A read of bits that writes behind the response. -/
def ReadOverrun (api : ModbusTcpApi) (buf : Frame) : Prop :=
  (buf.func = 2 ∧ BitsOverrun api.discreteInputsData buf.start buf.num) ∨
    (buf.func = 1 ∧ BitsOverrun api.coilsData buf.start buf.num)

/-- A request with none of the quantities on which the handler leaves the server. -/
structure Regular (api : ModbusTcpApi) (buf : Frame) : Prop where
  reads : ¬ ReadOverrun api buf
  writes : ¬ CoilsOverrun api buf
  registers : ¬ (buf.func = 4 ∧ buf.num.toNat = 0)

/-- **The handler refines the server** on regular requests of at least twelve bytes. -/
theorem handleModbusPdu_eq_perform (hlen : 12 ≤ buf.len) (hreg : Regular api buf)
    (hpast : buf.func = 15 → (inTable api.coilsData buf.start buf.num).isSome → buf.len = 12 →
      (buf.past 0).isSome) :
    handleModbusPdu stack api buf = .ok (outcome api buf (perform api buf)) := by
  rw [perform]
  split
  · rename_i hf
    exact answer_of_readBits hlen _ (serve_readDiscreteInputs api hlen hf)
      fun h => hreg.reads (.inl ⟨hf, h⟩)
  split
  · rename_i hf
    exact answer_of_readBits hlen _ (serve_readCoils api hlen hf) fun h => hreg.reads (.inr ⟨hf, h⟩)
  split
  · exact answer_writeSingleCoil hlen ‹_›
  split
  · exact answer_writeMultipleCoils hlen ‹_› hreg.writes (hpast ‹_›)
  split
  · exact answer_readHoldingRegisters hlen ‹_›
  by_cases h4 : buf.func = 4
  · exact answer_readInputRegisters hlen h4 (Nat.pos_of_ne_zero fun h => hreg.registers ⟨h4, h⟩)
  by_cases h6 : buf.func = 6
  · exact answer_writeSingleHolding hlen h6
  by_cases h16 : buf.func = 16
  · exact answer_writeMultiple hlen h16
  exact answer_unknown hlen ⟨‹_›, ‹_›, ‹_›, h4, ‹_›, h6, ‹_›, h16⟩

/-- A read overrun writes behind the response. -/
theorem fault_of_readOverrun (hlen : 12 ≤ buf.len) (h : ReadOverrun api buf) :
    handleModbusPdu stack api buf = .error (.response 260) := by
  rcases h with ⟨hf, h⟩ | ⟨hf, h⟩
  · exact fault_of_readBits hlen _ (serve_readDiscreteInputs api hlen hf) h
  · exact fault_of_readBits hlen _ (serve_readCoils api hlen hf) h

end RhsCore.Modbus
