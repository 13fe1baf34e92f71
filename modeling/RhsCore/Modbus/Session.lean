import Mathlib.Data.List.Forall2
import RhsCore.Modbus.Stream

/-!
# A client and the server

What a client sees of the whole server: it sends requests, one after the other, and gets
replies.  The requests are well formed, and ask for at most 2040 bits each.
`Request.serve` is what the requests mean, in terms of the tables and without any bytes.
`session_serves` connects it to the code: however TCP cuts the encoded requests into
segments, the replies that have been sent at any point are those to the first requests, in
order, and each decodes to what its request means.

## Main definitions

* `Request`, `Request.serve`, `serveAll` — requests, and what they mean.
* `Call.encode`, `Request.decode` — the bytes of a request, and what a reply says.
* `Session.receive` — `modbus_ev_handler` with `handle_modbus_pdu`, on a segment.
-/

namespace RhsCore.Modbus

open Bits

/-! ## Requests -/

/-- A quantity of bits that a byte count of 8 bits can say.  Larger ones are left out: the byte
count of the reply is cut to 8 bits, and the handler writes behind its response. -/
abbrev BitQuantity : Type := { n : UInt16 // n.toNat ≤ 2040 }

/-- Bits whose number a byte count of 8 bits can say.  More are left out: the byte count that
the handler asks for is cut to 8 bits, and it takes bits from behind the frame. -/
abbrev BitValues : Type := { bits : List Bool // bits.length ≤ 2040 }

/-- Well-formed requests, with the quantities for which the handler stays inside its buffers.
The frame of each has at least 12 bytes; a shorter one is never answered. -/
inductive Request
  | readCoils (start : UInt16) (num : BitQuantity)
  | readDiscreteInputs (start : UInt16) (num : BitQuantity)
  | readHoldingRegisters (start num : UInt16)
  | writeSingleCoil (start : UInt16) (on : Bool)
  | writeMultipleCoils (start : UInt16) (values : BitValues)

/-- What a reply says. -/
inductive Reply
  | bits (values : List Bool)
  | registers (values : List UInt16)
  | written
  | failure
  deriving DecidableEq, Repr

/-- A part of a table of bits. -/
def bitSlice {n : ℕ} (t : Vector UInt8 n) (start num : ℕ) : List Bool :=
  (List.range num).map fun i => nonZero t (start + i)

/-- A part of a table of registers. -/
def registerSlice {n : ℕ} (t : Vector UInt16 n) (start num : ℕ) : List UInt16 :=
  (List.range num).map fun i => register t (start + i)

/-- What a request means: the tables afterwards, and the reply. -/
def Request.serve (api : ModbusTcpApi) : Request → ModbusTcpApi × Reply
  | .readCoils start num =>
      match inTable api.coilsData start num.1 with
      | some t =>
          if num.1.toNat ≤ 2000 then
            let t := callback api.coilsReadCb start num.1 t
            ({ api with coilsData := some t }, .bits (bitSlice t start.toNat num.1.toNat))
          else (api, .failure)
      | none => (api, .failure)
  | .readDiscreteInputs start num =>
      match inTable api.discreteInputsData start num.1 with
      | some t =>
          if num.1.toNat ≤ 2000 then
            let t := callback api.discreteInputsCb start num.1 t
            ({ api with discreteInputsData := some t }, .bits (bitSlice t start.toNat num.1.toNat))
          else (api, .failure)
      | none => (api, .failure)
  | .readHoldingRegisters start num =>
      match inTable api.holdingsData start num with
      | some t =>
          if num.toNat ≤ 125 then
            -- the application hears of the read when the registers have been taken
            ({ api with holdingsData := some (callback api.holdingsCb start num t) },
              .registers (registerSlice t start.toNat num.toNat))
          else (api, .failure)
      | none => (api, .failure)
  | .writeSingleCoil start on =>
      match api.coilsData with
      | some t =>
          if start < api.coilsSize then
            let t := storeBits t start.toNat 1 fun _ => on
            ({ api with coilsData := some (callback api.coilsWriteCb start 1 t) }, .written)
          else (api, .failure)
      | none => (api, .failure)
  | .writeMultipleCoils start values =>
      match inTable api.coilsData start (.ofNat values.1.length) with
      | some t =>
          let t := storeBits t start.toNat values.1.length fun i => values.1.getD i false
          ({ api with
              coilsData := some (callback api.coilsWriteCb start (.ofNat values.1.length) t) },
            .written)
      | none => (api, .failure)

/-- Requests one after the other. -/
def serveAll (api : ModbusTcpApi) : List Request → ModbusTcpApi × List Reply
  | [] => (api, [])
  | r :: rs =>
      let served := r.serve api
      let rest := serveAll served.1 rs
      (rest.1, served.2 :: rest.2)

theorem serveAll_append (api : ModbusTcpApi) (rs rs' : List Request) :
    serveAll api (rs ++ rs') =
      ((serveAll (serveAll api rs).1 rs').1,
        (serveAll api rs).2 ++ (serveAll (serveAll api rs).1 rs').2) := by
  induction rs generalizing api with
  | nil => rfl
  | cons r rs ih => simp [serveAll, ih]

/-! ## Their bytes -/

/-- The two bytes of a word, in network order. -/
def wordList (w : UInt16) : List UInt8 := [wordBytes w 0, wordBytes w 1]

/-- The function code of a request. -/
def Request.func : Request → UInt8
  | .readCoils _ _ => 1
  | .readDiscreteInputs _ _ => 2
  | .readHoldingRegisters _ _ => 3
  | .writeSingleCoil _ _ => 5
  | .writeMultipleCoils _ _ => 15

/-- Its first address. -/
def Request.start : Request → UInt16
  | .readCoils start _ | .readDiscreteInputs start _ | .readHoldingRegisters start _
  | .writeSingleCoil start _ | .writeMultipleCoils start _ => start

/-- Its quantity, or the value of a single write. -/
def Request.num : Request → UInt16
  | .readCoils _ num | .readDiscreteInputs _ num => num.1
  | .readHoldingRegisters _ num => num
  | .writeSingleCoil _ on => if on then 0xFF00 else 0x0000
  | .writeMultipleCoils _ values => .ofNat values.1.length

/-- What it carries behind the first twelve bytes. -/
def Request.data : Request → List UInt8
  | .writeMultipleCoils _ values => bitsData values.1.length fun i => values.1.getD i false
  | _ => []

/-- Function code and data of a request. -/
def Request.pdu (r : Request) : List UInt8 :=
  r.func :: (wordList r.start ++ wordList r.num ++ r.data)

/-- A request in a transaction, to a unit. -/
structure Call where
  transaction : UInt16
  unit : UInt8
  request : Request

/-- The frame of a request. -/
def Call.encode (c : Call) : List UInt8 :=
  wordList c.transaction ++ wordList 0 ++ wordList (.ofNat (c.request.pdu.length + 1)) ++
    c.unit :: c.request.pdu

instance (reply : List UInt8) : Decidable (IsException reply) := inferInstanceAs (Decidable (_ ≠ _))

/-- What a frame that is no exception says in reply to a request. -/
def Request.read (reply : List UInt8) : Request → Reply
  | .readCoils _ num | .readDiscreteInputs _ num =>
      .bits ((List.range num.1.toNat).map fun i => bitAt (fun j => reply.getD (9 + j) 0) i)
  | .readHoldingRegisters _ num =>
      .registers ((List.range num.toNat).map fun i =>
        mgNtohs (reply.getD (9 + 2 * i) 0) (reply.getD (9 + 2 * i + 1) 0))
  | .writeSingleCoil _ _ | .writeMultipleCoils _ _ => .written

/-- What a frame says in reply to a request. -/
def Request.decode (r : Request) (reply : List UInt8) : Reply :=
  if IsException reply then .failure else r.read reply

/-- A frame replies to a call: it belongs to its transaction and unit, it is as long as it
says, and it decodes to the reply. -/
structure Answers (c : Call) (reply : Reply) (frame : List UInt8) : Prop where
  transaction : frame.take 4 = c.encode.take 4
  unit : frame.getD 6 0 = c.unit
  length : lengthField frame + 6 = frame.length
  reply : c.request.decode frame = reply

/-! ## The server on a connection -/

/-- The tables, the receive buffer of a connection, and what `mg_send` was given for it. -/
structure Session where
  api : ModbusTcpApi
  recv : List UInt8 := []
  sent : List (List UInt8) := []

/-- A segment arrives.  `stack` is what the handler's uninitialised response holds, and
`behind` what can be read behind the receive buffer. -/
structure Arrival where
  segment : List UInt8
  stack : Response
  behind : ℕ → Option UInt8

/-- What lies behind a frame: the rest of the receive buffer. -/
def pastOf (rest : List UInt8) (behind : ℕ → Option UInt8) (i : ℕ) : Option UInt8 :=
  if i < rest.length then rest[i]? else behind (i - rest.length)

/-- `modbus_ev_handler` on a segment, with `handle_modbus_pdu`. -/
def Session.receive (s : Session) (a : Arrival) : Except Fault Session :=
  match modbusEvHandler .read (s.recv ++ a.segment) with
  | (none, recv) => .ok { s with recv := recv }
  | (some pdu, recv) => do
      let out ← handleModbusPdu a.stack s.api ⟨pdu, pastOf recv a.behind⟩
      return { api := out.api, recv := recv, sent := s.sent ++ out.sent }

/-- A connection, from the start. -/
def session (api : ModbusTcpApi) (as : List Arrival) : Except Fault Session :=
  as.foldlM Session.receive { api := api }

/-! ## One request -/

/-- The frame of a request, with what lies behind it. -/
def Call.frame (c : Call) (past : ℕ → Option UInt8) : Frame := ⟨c.encode, past⟩

section

variable (c : Call) (past : ℕ → Option UInt8)

/-- A frame is not longer than a byte count allows. -/
theorem Request.length_data_le (r : Request) : r.data.length ≤ 256 := by
  cases r with
  | writeMultipleCoils start values =>
      have h := values.2
      rw [data, length_bitsData]
      omega
  | _ => simp [data]

theorem Request.length_pdu (r : Request) : r.pdu.length = r.data.length + 5 := by
  simp [pdu, wordList]

theorem Call.length_encode : c.encode.length = c.request.data.length + 12 := by
  simp [encode, Request.length_pdu, wordList]

theorem Call.len_frame : 12 ≤ (c.frame past).len := by
  change 12 ≤ c.encode.length
  rw [length_encode]
  omega

theorem Call.func_frame : (c.frame past).func = c.request.func := rfl

theorem Call.start_frame : (c.frame past).start = c.request.start := mgNtohs_wordBytes _

theorem Call.num_frame : (c.frame past).num = c.request.num := mgNtohs_wordBytes _

/-- Behind the first twelve bytes. -/
theorem Call.byte_frame (j : ℕ) : (c.frame past).byte (12 + j) = c.request.data.getD j 0 := by
  rw [Nat.add_comm]
  rfl

/-- The length field of a frame. -/
theorem Call.frameSize_encode (rest : List UInt8) :
    frameSize (c.encode ++ rest) = c.encode.length := by
  have hle := c.request.length_data_le
  have hword : mgNtohs ((c.encode ++ rest).getD 4 0) ((c.encode ++ rest).getD 5 0) =
      .ofNat (c.request.pdu.length + 1) := mgNtohs_wordBytes _
  rw [frameSize, hword, length_encode, Request.length_pdu,
    UInt16.toNat_ofNat_of_lt' (by simp [UInt16.size]; omega)]

/-- No request has one of the quantities on which the handler leaves the server. -/
theorem Call.regular_frame (api : ModbusTcpApi) : Regular api (c.frame past) := by
  have hfunc := c.func_frame past
  have hnum := c.num_frame past
  constructor
  · rintro (⟨hf, -, hover, -⟩ | ⟨hf, -, hover, -⟩) <;> rw [hfunc] at hf <;> rw [hnum] at hover
    · cases hr : c.request with
      | readDiscreteInputs start num =>
          rw [hr] at hover
          exact absurd num.2 (by simp only [Request.num] at hover; omega)
      | _ =>
          rw [hr] at hf
          exact absurd hf (by simp only [Request.func]; decide)
    · cases hr : c.request with
      | readCoils start num =>
          rw [hr] at hover
          exact absurd num.2 (by simp only [Request.num] at hover; omega)
      | _ =>
          rw [hr] at hf
          exact absurd hf (by simp only [Request.func]; decide)
  · rintro ⟨hf, -, hover, -⟩
    rw [hfunc] at hf
    rw [hnum] at hover
    cases hr : c.request with
    | writeMultipleCoils start values =>
        rw [hr] at hover
        have h := values.2
        rw [Request.num, UInt16.toNat_ofNat_of_lt' (by simp [UInt16.size]; omega)] at hover
        omega
    | _ =>
        rw [hr] at hf
        exact absurd hf (by simp only [Request.func]; decide)
  · rintro ⟨hf, -⟩
    rw [hfunc] at hf
    cases hr : c.request <;> rw [hr] at hf <;>
      exact absurd hf (by simp only [Request.func]; decide)

end

/-- The bits that a request carries are the ones it says. -/
theorem Call.bitAt_frame (c : Call) (past : ℕ → Option UInt8) {start : UInt16}
    {values : BitValues} (hr : c.request = .writeMultipleCoils start values) {i : ℕ}
    (hi : i < values.1.length) :
    bitAt (fun j => (c.frame past).byte (13 + j)) i = values.1.getD i false := by
  have hbyte : ∀ j, (c.frame past).byte (13 + j) = c.request.data.getD (j + 1) 0 := by
    intro j
    rw [← c.byte_frame past (j + 1)]
    congr 1
    omega
  have hj : i / 8 < (values.1.length + 7) / 8 := by omega
  rw [bitAt, hbyte, hr, Request.data, bitsData, List.getD_cons_succ, getD_map_range _ hj,
    testBit_packByte (Nat.mod_lt i (by decide))]
  have hdiv : 8 * (i / 8) + i % 8 = i := Nat.div_add_mod i 8
  simp [hdiv, hi]

theorem Call.carriesBits_frame (c : Call) (past : ℕ → Option UInt8) {start : UInt16}
    {values : BitValues} (hr : c.request = .writeMultipleCoils start values) :
    (c.frame past).CarriesBits := by
  have hle := values.2
  have hlen : (c.frame past).len = (values.1.length + 7) / 8 + 13 := by
    change c.encode.length = _
    rw [length_encode, hr, Request.data, length_bitsData]
  have hnum : (c.frame past).num.toNat = values.1.length := by
    rw [num_frame, hr]
    exact UInt16.toNat_ofNat_of_lt' (by simp [UInt16.size]; omega)
  have hcount : ((c.frame past).byte 12).toNat = (values.1.length + 7) / 8 := by
    have hbyte := c.byte_frame past 0
    rw [Nat.add_zero, hr] at hbyte
    rw [hbyte]
    exact UInt8.toNat_ofNat_of_lt' (by simp [UInt8.size]; omega)
  refine ⟨by omega, by rw [hcount, hnum], by omega⟩


/-! ## What the server does with it -/

/-- A request that is carried out: the tables afterwards, and what the reply says. -/
structure CarriedOut (c : Call) (past : ℕ → Option UInt8) (api : ModbusTcpApi) (e : Effect) :
    Prop where
  tables : (c.request.serve api).1 = e.api
  reply : c.request.read (mbapReply (c.frame past) (c.request.func :: e.data)) =
    (c.request.serve api).2

/-- The server does with the frame of a request what the request means. -/
def Faithful (c : Call) (past : ℕ → Option UInt8) (api : ModbusTcpApi) : Option Effect → Prop
  | some e => CarriedOut c past api e
  | none => c.request.serve api = (api, .failure)

/-- The bits of a reply. -/
theorem map_bitAt_mbapReply (buf : Frame) (func : UInt8) {num : ℕ} (hnum : num ≤ 2000)
    (bit : ℕ → Bool) :
    ((List.range num).map fun i => bitAt (fun j =>
        (mbapReply buf (func :: bitsData num bit)).getD (9 + j) 0) i) =
      (List.range num).map bit := by
  have hdec := decodesBits_mbapReply buf func hnum bit
  exact List.map_congr_left fun i hi => hdec.bits i (List.mem_range.mp hi)

/-- The registers of a reply. -/
theorem map_mgNtohs_mbapReply (buf : Frame) (func : UInt8) {n : ℕ} (t : Vector UInt16 n)
    (start : ℕ) {num : ℕ} (hnum : num ≤ 125) :
    ((List.range num).map fun i =>
        mgNtohs ((mbapReply buf (func :: registersData t start num)).getD (9 + 2 * i) 0)
          ((mbapReply buf (func :: registersData t start num)).getD (9 + 2 * i + 1) 0)) =
      registerSlice t start num := by
  have hdec := decodesRegisters_mbapReply buf func t start hnum
  exact List.map_congr_left fun i hi => hdec.registers i (List.mem_range.mp hi)

section

variable (tr : UInt16) (unit : UInt8) (past : ℕ → Option UInt8) (api : ModbusTcpApi)

theorem faithful_readCoils (start : UInt16) (num : BitQuantity) :
    Faithful ⟨tr, unit, .readCoils start num⟩ past api
      (perform api (Call.frame ⟨tr, unit, .readCoils start num⟩ past)) := by
  generalize hbuf : Call.frame ⟨tr, unit, .readCoils start num⟩ past = buf
  have hfunc : buf.func = 1 := by rw [← hbuf]; rfl
  have hstart : buf.start = start := by rw [← hbuf]; exact Call.start_frame _ past
  have hnum : buf.num = num.1 := by rw [← hbuf]; exact Call.num_frame _ past
  have hp : perform api buf =
      (performReadBits api.coilsData api.coilsReadCb start num.1).map fun p =>
        { api := { api with coilsData := some p.1 }, data := p.2 } := by
    simp [perform, hfunc, hstart, hnum]
  rw [hp, performReadBits]
  rcases ht : inTable api.coilsData start num.1 with _ | t
  · simp only [Option.map_none, Faithful, Request.serve, ht]
  · by_cases hle : num.1.toNat ≤ 2000
    · simp only [hle, if_true, Option.map_some, Faithful]
      constructor
      · simp only [Request.serve, ht, hle, if_true]
      · simp only [Request.serve, Request.read, ht, hle, if_true, map_bitAt_mbapReply _ _ hle,
          bitSlice]
    · simp only [hle, if_false, Option.map_none, Faithful, Request.serve, ht]

theorem faithful_readDiscreteInputs (start : UInt16) (num : BitQuantity) :
    Faithful ⟨tr, unit, .readDiscreteInputs start num⟩ past api
      (perform api (Call.frame ⟨tr, unit, .readDiscreteInputs start num⟩ past)) := by
  generalize hbuf : Call.frame ⟨tr, unit, .readDiscreteInputs start num⟩ past = buf
  have hfunc : buf.func = 2 := by rw [← hbuf]; rfl
  have hstart : buf.start = start := by rw [← hbuf]; exact Call.start_frame _ past
  have hnum : buf.num = num.1 := by rw [← hbuf]; exact Call.num_frame _ past
  have hp : perform api buf =
      (performReadBits api.discreteInputsData api.discreteInputsCb start num.1).map fun p =>
        { api := { api with discreteInputsData := some p.1 }, data := p.2 } := by
    simp [perform, hfunc, hstart, hnum]
  rw [hp, performReadBits]
  rcases ht : inTable api.discreteInputsData start num.1 with _ | t
  · simp only [Option.map_none, Faithful, Request.serve, ht]
  · by_cases hle : num.1.toNat ≤ 2000
    · simp only [hle, if_true, Option.map_some, Faithful]
      constructor
      · simp only [Request.serve, ht, hle, if_true]
      · simp only [Request.serve, Request.read, ht, hle, if_true, map_bitAt_mbapReply _ _ hle,
          bitSlice]
    · simp only [hle, if_false, Option.map_none, Faithful, Request.serve, ht]

theorem faithful_readHoldingRegisters (start num : UInt16) :
    Faithful ⟨tr, unit, .readHoldingRegisters start num⟩ past api
      (perform api (Call.frame ⟨tr, unit, .readHoldingRegisters start num⟩ past)) := by
  generalize hbuf : Call.frame ⟨tr, unit, .readHoldingRegisters start num⟩ past = buf
  have hfunc : buf.func = 3 := by rw [← hbuf]; rfl
  have hstart : buf.start = start := by rw [← hbuf]; exact Call.start_frame _ past
  have hnum : buf.num = num := by rw [← hbuf]; exact Call.num_frame _ past
  have hp : perform api buf = performReadRegisters api buf := by simp [perform, hfunc]
  rw [hp, performReadRegisters, hstart, hnum]
  rcases ht : inTable api.holdingsData start num with _ | t
  · simp only [Faithful, Request.serve, ht]
  · by_cases hle : num.toNat ≤ 125
    · simp only [hle, if_true, Faithful]
      constructor
      · simp only [Request.serve, ht, hle, if_true]
      · simp only [Request.serve, Request.read, ht, hle, if_true, map_mgNtohs_mbapReply _ _ _ _ hle]
    · simp only [hle, if_false, Faithful, Request.serve, ht]

theorem faithful_writeSingleCoil (start : UInt16) (on : Bool) :
    Faithful ⟨tr, unit, .writeSingleCoil start on⟩ past api
      (perform api (Call.frame ⟨tr, unit, .writeSingleCoil start on⟩ past)) := by
  generalize hbuf : Call.frame ⟨tr, unit, .writeSingleCoil start on⟩ past = buf
  have hfunc : buf.func = 5 := by rw [← hbuf]; rfl
  have hstart : buf.start = start := by rw [← hbuf]; exact Call.start_frame _ past
  have hnum : buf.num = if on then 0xFF00 else 0x0000 := by
    rw [← hbuf]
    exact Call.num_frame _ past
  have hval : buf.num = 0x0000 ∨ buf.num = 0xFF00 := by
    rw [hnum]
    cases on <;> simp
  have hon : decide (buf.num = 0xFF00) = on := by
    rw [hnum]
    cases on <;> rfl
  have hp : perform api buf = performWriteCoil api buf := by simp [perform, hfunc]
  rw [hp, performWriteCoil, hstart]
  rcases ht : api.coilsData with _ | t
  · simp only [Faithful, Request.serve, ht]
  · by_cases hlt : start < api.coilsSize
    · simp only [hlt, hval, and_self, if_true, Faithful, hon]
      constructor
      · simp only [Request.serve, ht, hlt, if_true]
      · simp only [Request.serve, Request.read, ht, hlt, if_true]
    · simp only [hlt, false_and, if_false, Faithful, Request.serve, ht]

theorem faithful_writeMultipleCoils (start : UInt16) (values : BitValues) :
    Faithful ⟨tr, unit, .writeMultipleCoils start values⟩ past api
      (perform api (Call.frame ⟨tr, unit, .writeMultipleCoils start values⟩ past)) := by
  have hbits := fun i => Call.bitAt_frame ⟨tr, unit, .writeMultipleCoils start values⟩ past
    rfl (i := i)
  have hcarry := Call.carriesBits_frame ⟨tr, unit, .writeMultipleCoils start values⟩ past rfl
  generalize hbuf : Call.frame ⟨tr, unit, .writeMultipleCoils start values⟩ past = buf at *
  have hfunc : buf.func = 15 := by rw [← hbuf]; rfl
  have hstart : buf.start = start := by rw [← hbuf]; exact Call.start_frame _ past
  have hnum : buf.num = .ofNat values.1.length := by rw [← hbuf]; exact Call.num_frame _ past
  have hp : perform api buf = performWriteCoils api buf := by simp [perform, hfunc]
  rw [hp, performWriteCoils, hstart, hnum]
  rcases ht : inTable api.coilsData start (.ofNat values.1.length) with _ | t
  · simp only [Faithful, Request.serve, ht]
  · have hle := values.2
    have hlen : (UInt16.ofNat values.1.length).toNat = values.1.length :=
      UInt16.toNat_ofNat_of_lt' (by simp [UInt16.size]; omega)
    have hstore : storeBits t start.toNat values.1.length (bitAt fun j => buf.byte (13 + j)) =
        storeBits t start.toNat values.1.length fun i => values.1.getD i false := by
      refine Vector.ext fun k hk => ?_
      simp only [getElem_storeBits]
      by_cases hin : start.toNat ≤ k ∧ k < start.toNat + values.1.length
      · rw [if_pos hin, if_pos hin, hbits _ (by omega)]
      · rw [if_neg hin, if_neg hin]
    simp only [hcarry, if_true, Faithful]
    constructor
    · simp only [Request.serve, ht, writeCoils, hstart, hnum, hlen, hstore]
    · simp only [Request.serve, Request.read, ht]

/-- The abstract server and the meaning of requests agree. -/
theorem faithful (c : Call) : Faithful c past api (perform api (c.frame past)) := by
  obtain ⟨tr, unit, request⟩ := c
  cases request with
  | readCoils start num => exact faithful_readCoils tr unit past api start num
  | readDiscreteInputs start num => exact faithful_readDiscreteInputs tr unit past api start num
  | readHoldingRegisters start num =>
      exact faithful_readHoldingRegisters tr unit past api start num
  | writeSingleCoil start on => exact faithful_writeSingleCoil tr unit past api start on
  | writeMultipleCoils start values =>
      exact faithful_writeMultipleCoils tr unit past api start values

end


/-! ## The reply -/

/-- No function code of a request has the error flag. -/
theorem Request.not_isException (r : Request) (buf : Frame) (data : List UInt8) :
    ¬ IsException (mbapReply buf (r.func :: data)) := by
  rw [isException_mbapReply]
  cases r <;> simp only [func] <;> decide

/-- A write of several coils has its byte count. -/
theorem Call.len_frame_of_func (c : Call) (past : ℕ → Option UInt8)
    (hf : (c.frame past).func = 15) : (c.frame past).len ≠ 12 := by
  rw [func_frame] at hf
  have hlen : (c.frame past).len = c.request.data.length + 12 := c.length_encode
  cases hr : c.request with
  | writeMultipleCoils start values =>
      rw [hlen, hr, Request.data, length_bitsData]
      omega
  | _ =>
      rw [hr] at hf
      exact absurd hf (by simp only [Request.func]; decide)

/-- **A request gets the reply it asks for**, and the tables change as it says. -/
theorem handleModbusPdu_frame (stack : Response) (api : ModbusTcpApi) (c : Call)
    (past : ℕ → Option UInt8) :
    ∃ reply, handleModbusPdu stack api (c.frame past) =
        .ok { api := (c.request.serve api).1, sent := [reply] } ∧
      Answers c (c.request.serve api).2 reply := by
  have hout := @handleModbusPdu_eq_perform stack _ _ (c.len_frame past)
    (c.regular_frame past api) fun hf _ hlen => absurd hlen (c.len_frame_of_func past hf)
  have hfaith := faithful past api c
  rcases hp : perform api (c.frame past) with _ | e
  · rw [hp] at hout hfaith
    have hserve : c.request.serve api = (api, .failure) := hfaith
    rw [hserve]
    exact ⟨_, hout, rfl, rfl, lengthField_mbapReply _ _ (by simp),
      if_pos (or_and_error_flag (c.frame past).func)⟩
  · rw [hp] at hout hfaith
    have hlen := (perform_eq_some api hp).2
    rw [hfaith.tables]
    exact ⟨_, hout, rfl, rfl, lengthField_mbapReply _ _ (by rw [List.length_cons]; omega),
      (if_neg (c.request.not_isException _ _)).trans hfaith.reply⟩

/-! ## Requests in a stream -/

/-- The bytes of calls, one after the other. -/
def stream (calls : List Call) : List UInt8 := (calls.map Call.encode).flatten

theorem mbapNext_encode (c : Call) (rest : List UInt8) :
    mbapNext (c.encode ++ rest) = some (c.encode, rest) := by
  have hlen := c.length_encode
  rw [mbapNext, c.frameSize_encode, if_pos (by rw [List.length_append]; omega),
    List.take_left, List.drop_left]

/-- The frames of the bytes of calls are the calls. -/
theorem frames_stream (calls : List Call) :
    mbapFraming.frames (stream calls) = calls.map Call.encode ∧
      mbapFraming.leftover (stream calls) = [] := by
  induction calls with
  | nil =>
      have hnone : mbapFraming.next (stream []) = none := rfl
      exact ⟨mbapFraming.frames_of_none hnone, mbapFraming.leftover_of_none hnone⟩
  | cons c calls ih =>
      have hsome : mbapFraming.next (stream (c :: calls)) = some (c.encode, stream calls) :=
        mbapNext_encode c (stream calls)
      rw [mbapFraming.frames_of_some hsome, mbapFraming.leftover_of_some hsome, ih.1, ih.2]
      exact ⟨rfl, rfl⟩

/-- A list of which an initial part was mapped. -/
theorem eq_map_take_of_prefix {α β : Type} {f : α → β} {xs : List α} {ys : List β}
    (h : ys <+: xs.map f) : ys = (xs.take ys.length).map f := by
  rw [List.map_take]
  exact (List.prefix_iff_eq_take.mp h)

/-- What has been handed over, while the bytes of calls arrive: the first calls. -/
theorem prefix_of_handed {calls : List Call} {segs : List (List UInt8)}
    (h : segs.flatten <+: stream calls) : (received segs).handed <+: calls.map Call.encode := by
  obtain ⟨more, hmore⟩ := h
  have hframes := (mbapFraming.cut_append segs.flatten more).1
  rw [hmore, (frames_stream calls).1, ← handed_append_pending] at hframes
  rw [hframes, List.append_assoc]
  exact List.prefix_append _ _


/-! ## Whole connections -/

/-- A session has served calls: the tables are as after them, and each has its reply. -/
structure Session.HasServed (api : ModbusTcpApi) (calls : List Call) (s : Session) : Prop where
  tables : s.api = (serveAll api (calls.map (·.request))).1
  replies : List.Forall₂ (fun p frame => Answers p.1 p.2 frame)
    (calls.zip (serveAll api (calls.map (·.request))).2) s.sent

theorem length_serveAll (api : ModbusTcpApi) (rs : List Request) :
    (serveAll api rs).2.length = rs.length := by
  induction rs generalizing api with
  | nil => rfl
  | cons r rs ih => simp [serveAll, ih]

/-- As many replies as calls. -/
theorem Session.HasServed.length_sent {api : ModbusTcpApi} {calls : List Call} {s : Session}
    (h : s.HasServed api calls) : s.sent.length = calls.length := by
  have hlen := h.replies.length_eq
  rw [List.length_zip, length_serveAll, List.length_map, Nat.min_self] at hlen
  exact hlen.symm

/-- One call more. -/
theorem Session.HasServed.snoc {api : ModbusTcpApi} {calls : List Call} {s : Session}
    (h : s.HasServed api calls) {c : Call} {reply : List UInt8} (recv : List UInt8)
    (hreply : Answers c (c.request.serve s.api).2 reply) :
    HasServed api (calls ++ [c])
      { api := (c.request.serve s.api).1, recv := recv, sent := s.sent ++ [reply] } := by
  have hserve : serveAll api ((calls ++ [c]).map (·.request)) =
      ((c.request.serve s.api).1,
        (serveAll api (calls.map (·.request))).2 ++ [(c.request.serve s.api).2]) := by
    rw [List.map_append, serveAll_append, ← h.tables]
    rfl
  have hlen : calls.length = (serveAll api (calls.map (·.request))).2.length := by
    rw [length_serveAll, List.length_map]
  constructor
  · rw [hserve]
  · rw [hserve, List.zip_append hlen]
    exact List.rel_append h.replies (.cons hreply .nil)

/-- A segment that completes a call has it served. -/
theorem Session.HasServed.receive {api : ModbusTcpApi} {calls : List Call} {s : Session}
    (h : s.HasServed api calls) {a : Arrival} {c : Call} {recv : List UInt8}
    (hev : modbusEvHandler .read (s.recv ++ a.segment) = (some c.encode, recv)) :
    ∃ s', s.receive a = .ok s' ∧ s'.recv = recv ∧ s'.HasServed api (calls ++ [c]) := by
  obtain ⟨reply, hout, hreply⟩ := handleModbusPdu_frame a.stack s.api c (pastOf recv a.behind)
  refine ⟨_, ?_, rfl, h.snoc recv hreply⟩
  rw [Session.receive, hev]
  change handleModbusPdu a.stack s.api (c.frame (pastOf recv a.behind)) >>= _ = _
  rw [hout]
  rfl

/-- The session and the connection see the same bytes; each call that has been handed over
has been served. -/
theorem session_eq (api : ModbusTcpApi) (calls : List Call) (as : List Arrival)
    (h : (as.map (·.segment)).flatten <+: stream calls) :
    ∃ s, session api as = .ok s ∧ s.recv = (received (as.map (·.segment))).recv ∧
      s.HasServed api (calls.take (received (as.map (·.segment))).handed.length) := by
  induction as using List.reverseRecOn with
  | nil => exact ⟨{ api := api }, rfl, rfl, rfl, .nil⟩
  | append_singleton as a ih =>
      have hmap : (as ++ [a]).map (·.segment) = as.map (·.segment) ++ [a.segment] := by simp
      rw [hmap] at h ⊢
      obtain ⟨s, hs, hrecv, hserved⟩ := ih
        ((List.prefix_append _ _).trans (by rwa [List.flatten_append] at h))
      have hstep : session api (as ++ [a]) = s.receive a := by
        rw [session, List.foldlM_append]
        change session api as >>= _ = _
        rw [hs]
        exact bind_pure (s.receive a)
      have hprefix := prefix_of_handed h
      have hconn : received (as.map (·.segment) ++ [a.segment]) =
          (received (as.map (·.segment))).receive a.segment := by simp [received]
      rw [hconn] at hprefix ⊢
      rw [hstep]
      simp only [Connection.receive] at hprefix ⊢
      rcases hev : modbusEvHandler .read ((received (as.map (·.segment))).recv ++ a.segment) with
        ⟨pdu, recv⟩
      rw [hev] at hprefix
      cases pdu with
      | none =>
          simp only [Option.toList_none, List.append_nil]
          refine ⟨{ s with recv := recv }, ?_, rfl, hserved.tables, hserved.replies⟩
          rw [Session.receive, hrecv, hev]
      | some pdu =>
          simp only [Option.toList_some] at hprefix ⊢
          -- the frame that is handed over is that of the next call
          have hmapped := eq_map_take_of_prefix hprefix
          have hlt : (received (as.map (·.segment))).handed.length < calls.length := by
            have hle := hprefix.length_le
            simp only [List.length_append, List.length_singleton, List.length_map] at hle
            omega
          rw [List.length_append, List.length_singleton, List.take_succ_eq_append_getElem hlt,
            List.map_append, List.map_singleton] at hmapped
          have hpdu : pdu = calls[(received (as.map (·.segment))).handed.length].encode := by
            have hlast := congrArg List.getLast? hmapped
            simpa using hlast
          rw [hpdu, ← hrecv] at hev
          obtain ⟨s', hs', hrecv', hserved'⟩ := hserved.receive hev
          rw [List.length_append, List.length_singleton, List.take_succ_eq_append_getElem hlt]
          exact ⟨s', hs', hrecv', hserved'⟩


/-- **However the bytes of calls are cut into segments**, and wherever they stop, the
replies that have been sent are those to the first calls, in order; the calls that are
complete and not served wait in the receive buffer. -/
theorem session_serves (api : ModbusTcpApi) (calls : List Call) (as : List Arrival)
    (h : (as.map (·.segment)).flatten <+: stream calls) :
    ∃ s n, session api as = .ok s ∧ n ≤ calls.length ∧ s.HasServed api (calls.take n) ∧
      n + (mbapFraming.frames s.recv).length =
        (mbapFraming.frames (as.map (·.segment)).flatten).length := by
  obtain ⟨s, hs, hrecv, hserved⟩ := session_eq api calls as h
  have hle := (prefix_of_handed h).length_le
  rw [List.length_map] at hle
  refine ⟨s, _, hs, hle, hserved, ?_⟩
  rw [hrecv, ← handed_append_pending, List.length_append]

/-- Read the one coil, in transaction 1. -/
def readTheCoil : Call := ⟨1, 1, .readCoils 0 ⟨1, by decide⟩⟩

/-- Switch it on, in transaction 2. -/
def switchTheCoil : Call := ⟨2, 1, .writeSingleCoil 0 true⟩

/-- A segment, with nothing behind the receive buffer. -/
def Arrival.of (segment : List UInt8) : Arrival := ⟨segment, .replicate 260 0, fun _ => none⟩

/-- Two calls in one segment: the first is served, and the second waits. -/
theorem two_calls_in_a_segment :
    ∃ s n, session oneCoil [.of (stream [readTheCoil, switchTheCoil])] = .ok s ∧ n ≤ 2 ∧
      s.HasServed oneCoil ([readTheCoil, switchTheCoil].take n) ∧
      n + (mbapFraming.frames s.recv).length = 2 := by
  obtain ⟨s, n, hs, hn, hserved, hcount⟩ := session_serves oneCoil [readTheCoil, switchTheCoil]
    [.of (stream [readTheCoil, switchTheCoil])] (by simp [Arrival.of])
  refine ⟨s, n, hs, hn, hserved, hcount.trans ?_⟩
  have hframes := (frames_stream [readTheCoil, switchTheCoil]).1
  simp [Arrival.of, hframes]

/-- A client that sends nothing of a call before it has the replies to those before it. -/
def Patient (api : ModbusTcpApi) (calls : List Call) (as : List Arrival) : Prop :=
  ∀ pre a s, pre ++ [a] <+: as → session api pre = .ok s →
    ((pre ++ [a]).map (·.segment)).flatten <+: stream (calls.take (s.sent.length + 1))

/-- The complete frames of a part of a stream are not more than its calls. -/
theorem length_frames_le {calls : List Call} {bytes : List UInt8} (h : bytes <+: stream calls) :
    (mbapFraming.frames bytes).length ≤ calls.length := by
  obtain ⟨more, hmore⟩ := h
  have hframes := (mbapFraming.cut_append bytes more).1
  have hlen := congrArg List.length hframes
  rw [hmore, (frames_stream calls).1, List.length_map, List.length_append] at hlen
  omega

theorem flatten_prefix {α : Type} {xss yss : List (List α)} (h : xss <+: yss) :
    xss.flatten <+: yss.flatten := by
  obtain ⟨more, rfl⟩ := h
  rw [List.flatten_append]
  exact List.prefix_append _ _

/-- The segments of a patient client complete one call at a time. -/
theorem Patient.oneAtATime {api : ModbusTcpApi} {calls : List Call} {as : List Arrival}
    (h : Patient api calls as) (hall : (as.map (·.segment)).flatten = stream calls) :
    mbapFraming.OneAtATime (as.map (·.segment)) := by
  intro segs seg hpre
  have hlen : segs.length < as.length := by
    have hle := hpre.length_le
    rw [List.length_append, List.length_singleton, List.length_map] at hle
    omega
  -- the arrivals that bring these segments
  have hsplit : as.take (segs.length + 1) = as.take segs.length ++ [as[segs.length]] :=
    List.take_succ_eq_append_getElem hlen
  have htake := List.prefix_iff_eq_take.mp hpre
  rw [List.length_append, List.length_singleton, ← List.map_take, hsplit, List.map_append,
    List.map_singleton] at htake
  obtain ⟨hsegs, hseg⟩ := List.append_inj' htake rfl
  have hflat : segs.flatten <+: stream calls := by
    rw [← hall]
    exact flatten_prefix ((List.prefix_append segs [seg]).trans hpre)
  rw [hsegs] at hflat
  obtain ⟨s, hs, -, hserved⟩ := session_eq api calls (as.take segs.length) hflat
  have hsent := hserved.length_sent
  have hpatient := h _ _ s (by rw [← hsplit]; exact List.take_prefix _ _) hs
  rw [List.map_append, List.map_singleton, ← htake, List.flatten_append,
    List.flatten_singleton] at hpatient
  have hle := length_frames_le hpatient
  have hhanded := congrArg List.length (handed_append_pending segs)
  rw [List.length_append] at hhanded
  rw [← hsegs] at hsent
  rw [List.length_take] at hle hsent
  omega

/-- **A client that waits for each reply is never kept waiting**: however its calls are cut
into segments, when all the bytes have arrived every call has been served. -/
theorem patient_client_served (api : ModbusTcpApi) (calls : List Call) (as : List Arrival)
    (h : Patient api calls as) (hall : (as.map (·.segment)).flatten = stream calls) :
    ∃ s, session api as = .ok s ∧ s.HasServed api calls ∧ s.recv = [] := by
  obtain ⟨s, hs, hrecv, hserved⟩ :=
    session_eq api calls as (hall ▸ List.prefix_rfl)
  obtain ⟨hhanded, hnone⟩ := (received_keeps_up_iff _).mpr (h.oneAtATime hall) _ List.prefix_rfl
  have hlen : (received (as.map (·.segment))).handed.length = calls.length := by
    rw [hhanded, hall, (frames_stream calls).1, List.length_map]
  rw [hlen, List.take_length] at hserved
  refine ⟨s, hs, hserved, ?_⟩
  have hleft := (mbapFraming.run_frames (as.map (·.segment))).2
  rw [← received_eq_run, hall, (frames_stream calls).2] at hleft
  rw [hrecv, ← hleft]
  exact (mbapFraming.leftover_of_none hnone).symm

/-- The one coil is read by a client that sends its call in two parts. -/
theorem one_coil_served_in_parts :
    ∃ s, session oneCoil [.of (readTheCoil.encode.take 5), .of (readTheCoil.encode.drop 5)] =
      .ok s ∧ s.HasServed oneCoil [readTheCoil] ∧ s.recv = [] :=
  patient_client_served oneCoil [readTheCoil] _ (fun pre a s hpre _ => by
    have hall := flatten_prefix (hpre.map (·.segment))
    simpa [Arrival.of, stream] using hall) (by simp [Arrival.of, stream])

end RhsCore.Modbus
