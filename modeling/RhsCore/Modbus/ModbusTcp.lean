import RhsCore.Lib.ForRange

/-!
# The Modbus TCP request handler

`handle_modbus_pdu` of `applications/services/net/modbus_tcp/modbus_tcp.c`.

Arrays have the sizes that the program declares.  Every access goes through a
function that checks its index, and an index outside is a `Fault`: what the program
would do from there on is not defined.  Reads of the received frame are the exception,
because the receive buffer goes on behind the frame: `Frame.past` says what, if
anything, can be read there.

A callback is given the table it may change; the pointer it gets points into it.

## Main definitions

* `ModbusTcpApi` — the tables and callbacks of the application.
* `handleModbusPdu` — one request: the tables afterwards, and what `mg_send` was given.
-/

namespace RhsCore.Modbus

/-! ## Memory -/

/-- An access outside an array. -/
inductive Fault
  /-- A read of `buf` at an index where nothing can be read. -/
  | frame (i : ℕ)
  /-- A write of `response` at an index from 260 on. -/
  | response (i : ℕ)
  /-- An access to a table at an index from its size on. -/
  | table (i : ℕ)
  deriving DecidableEq, Repr

/-- A received frame, and the memory behind it; `none` is memory that must not be read. -/
structure Frame where
  bytes : List UInt8
  past : ℕ → Option UInt8

/-- `len`. -/
def Frame.len (buf : Frame) : ℕ := buf.bytes.length

/-- `buf[i]`. -/
def Frame.read (buf : Frame) (i : ℕ) : Except Fault UInt8 :=
  match buf.bytes[i]? with
  | some b => .ok b
  | none =>
      match buf.past (i - buf.len) with
      | some b => .ok b
      | none => .error (.frame i)

/-- `mg_ntohs` of two bytes in network order. -/
def mgNtohs (hi lo : UInt8) : UInt16 := .ofNat (hi.toNat * 256 + lo.toNat)

/-- `mg_ntohs(*(uint16_t*) &buf[i])`. -/
def Frame.readWord (buf : Frame) (i : ℕ) : Except Fault UInt16 := do
  let hi ← buf.read i
  let lo ← buf.read (i + 1)
  return mgNtohs hi lo

/-- `uint8_t response[260]`. -/
abbrev Response := Vector UInt8 260

/-- `response[i] = b`. -/
def Response.write (r : Response) (i : ℕ) (b : UInt8) : Except Fault Response :=
  if h : i < 260 then .ok (r.set i b) else .error (.response i)

/-- `response[i] |= b`. -/
def Response.or (r : Response) (i : ℕ) (b : UInt8) : Except Fault Response :=
  if h : i < 260 then .ok (r.set i (r[i] ||| b)) else .error (.response i)

/-- `*(uint16_t*) &response[i] = mg_htons(w)`. -/
def Response.writeWord (r : Response) (i : ℕ) (w : UInt16) : Except Fault Response := do
  let r ← Response.write r i (.ofNat (w.toNat / 256))
  Response.write r (i + 1) (.ofNat w.toNat)

/-- `table[i]`. -/
def readTable {α : Type} {n : ℕ} (t : Vector α n) (i : ℕ) : Except Fault α :=
  if h : i < n then .ok t[i] else .error (.table i)

/-- `table[i] = a`. -/
def writeTable {α : Type} {n : ℕ} (t : Vector α n) (i : ℕ) (a : α) :
    Except Fault (Vector α n) :=
  if h : i < n then .ok (t.set i a) else .error (.table i)

/-! ## The application's tables -/

/-- A callback, given `start` and `num`. -/
abbrev TableCb (α : Type) (size : UInt16) :=
  UInt16 → UInt16 → Vector α size.toNat → Vector α size.toNat

/-- `ModbusTcpApi`; `none` is a null pointer. -/
structure ModbusTcpApi where
  coilsSize : UInt16
  coilsData : Option (Vector UInt8 coilsSize.toNat)
  coilsReadCb : Option (TableCb UInt8 coilsSize)
  coilsWriteCb : Option (TableCb UInt8 coilsSize)
  holdingsSize : UInt16
  holdingsData : Option (Vector UInt16 holdingsSize.toNat)
  holdingsCb : Option (TableCb UInt16 holdingsSize)
  discreteInputsSize : UInt16
  discreteInputsData : Option (Vector UInt8 discreteInputsSize.toNat)
  discreteInputsCb : Option (TableCb UInt8 discreteInputsSize)

/-- Call a callback if it is provided. -/
def callback {α : Type} {size : UInt16} (cb : Option (TableCb α size)) (start num : UInt16)
    (t : Vector α size.toNat) : Vector α size.toNat :=
  match cb with
  | some f => f start num t
  | none => t

/-- `data && start < size && (start + num) <= size`: the table, if the request is in it. -/
def inTable {α : Type} {size : UInt16} (data : Option (Vector α size.toNat))
    (start num : UInt16) : Option (Vector α size.toNat) :=
  match data with
  | some t => if start < size ∧ start.toNat + num.toNat ≤ size.toNat then some t else none
  | none => none

/-! ## Function codes -/

/-- `(uint8_t) ((num + 7) / 8)`. -/
def bytesCount (num : UInt16) : UInt8 := .ofNat ((num.toNat + 7) / 8)

/-- `memset(&response[9], 0, n)`. -/
def clearData (n : ℕ) (r : Response) : Except Fault Response :=
  forRange n (fun i r => Response.write r (9 + i) 0) r

/-- The packing loop of codes 1 and 2. -/
def packBits {n : ℕ} (t : Vector UInt8 n) (start num : UInt16) (r : Response) :
    Except Fault Response :=
  forRange num.toNat
    (fun i r => do
      let bit ← readTable t (start + .ofNat i).toNat
      Response.or r (9 + (UInt8.ofNat (i / 8)).toNat)
        ((if bit ≠ 0 then 1 else 0) <<< UInt8.ofNat (i % 8)))
    r

/-- What a branch leaves in the variables of the function. -/
structure Served where
  api : ModbusTcpApi
  response : Response
  responseLen : ℕ := 0
  success : Bool := false

/-- Codes 1 and 2 on a table: the table afterwards, the response and its length, or
`none` when the request is refused. -/
def readBits {size : UInt16} (data : Option (Vector UInt8 size.toNat))
    (cb : Option (TableCb UInt8 size)) (start num : UInt16) (r : Response) :
    Except Fault (Option (Vector UInt8 size.toNat × Response × ℕ)) :=
  match inTable data start num with
  | none => .ok none
  | some t =>
      if (bytesCount num).toNat + 9 < 260 then do
        let t := callback cb start num t
        let r ← clearData (bytesCount num).toNat r
        let r ← packBits t start num r
        let r ← Response.write r 8 (bytesCount num)
        return some (t, r, 9 + (bytesCount num).toNat)
      else .ok none

/-- Code 2, read discrete inputs. -/
def readDiscreteInputs (api : ModbusTcpApi) (buf : Frame) (r : Response) :
    Except Fault Served := do
  let start ← buf.readWord 8
  let num ← buf.readWord 10
  match ← readBits api.discreteInputsData api.discreteInputsCb start num r with
  | none => return { api := api, response := r }
  | some (t, r, n) =>
      return { api := { api with discreteInputsData := some t }, response := r, responseLen := n,
               success := true }

/-- Code 1, read coils. -/
def readCoils (api : ModbusTcpApi) (buf : Frame) (r : Response) : Except Fault Served := do
  let start ← buf.readWord 8
  let num ← buf.readWord 10
  match ← readBits api.coilsData api.coilsReadCb start num r with
  | none => return { api := api, response := r }
  | some (t, r, n) =>
      return { api := { api with coilsData := some t }, response := r, responseLen := n,
               success := true }

/-- The twelve bytes that confirm a write. -/
def echoRequest (start value : UInt16) (r : Response) : Except Fault Response := do
  let r ← Response.writeWord r 8 start
  Response.writeWord r 10 value

/-- Code 5, write single coil. -/
def writeSingleCoil (api : ModbusTcpApi) (buf : Frame) (r : Response) : Except Fault Served := do
  let start ← buf.readWord 8
  let value ← buf.readWord 10
  match api.coilsData with
  | none => return { api := api, response := r }
  | some coils =>
      if start < api.coilsSize then
        if value = 0x0000 ∨ value = 0xFF00 then
          let coils ← writeTable coils start.toNat (if value = 0xFF00 then 1 else 0)
          let coils := callback api.coilsWriteCb start 1 coils
          let r ← echoRequest start value r
          return { api := { api with coilsData := some coils }, response := r, responseLen := 12,
                   success := true }
        else return { api := api, response := r }
      else return { api := api, response := r }

/-- Code 6, write single holding register: not implemented. -/
def writeSingleHolding (api : ModbusTcpApi) (buf : Frame) (r : Response) :
    Except Fault Served := do
  let start ← buf.readWord 8
  let value ← buf.readWord 10
  let r ← echoRequest start value r
  return { api := api, response := r, responseLen := 12 }

/-- The unpacking loop of code 15. -/
def unpackBits {n : ℕ} (buf : Frame) (start num : UInt16) (coils : Vector UInt8 n) :
    Except Fault (Vector UInt8 n) :=
  forRange num.toNat
    (fun i coils => do
      let data ← buf.read (13 + (UInt8.ofNat (i / 8)).toNat)
      writeTable coils (start + .ofNat i).toNat ((data >>> UInt8.ofNat (i % 8)) &&& 0x01))
    coils

/-- Code 15, write multiple coils. -/
def writeMultipleCoils (api : ModbusTcpApi) (buf : Frame) (r : Response) :
    Except Fault Served := do
  let start ← buf.readWord 8
  let num ← buf.readWord 10
  match inTable api.coilsData start num with
  | none => return { api := api, response := r }
  | some coils =>
      let byteCount ← buf.read 12
      if byteCount = bytesCount num ∧ byteCount.toNat + 13 ≤ buf.len then
        let coils ← unpackBits buf start num coils
        let coils := callback api.coilsWriteCb start num coils
        let r ← echoRequest start num r
        return { api := { api with coilsData := some coils }, response := r, responseLen := 12,
                 success := true }
      else return { api := api, response := r }

/-- Code 16, write multiple: not implemented.  The loop leaves at once, since `success`
is false. -/
def writeMultiple (api : ModbusTcpApi) (buf : Frame) (r : Response) : Except Fault Served := do
  let start ← buf.readWord 8
  let num ← buf.readWord 10
  if num.toNat * 2 + 10 < 260 then
    let r ← echoRequest start num r
    return { api := api, response := r, responseLen := 12 }
  else return { api := api, response := r }

/-- The packing loop of code 3. -/
def packRegisters {n : ℕ} (t : Vector UInt16 n) (start num : UInt16) (r : Response) :
    Except Fault Response :=
  forRange num.toNat
    (fun i r => do
      let val ← readTable t (start + .ofNat i).toNat
      Response.writeWord r (9 + 2 * i) val)
    r

/-- Code 3, read holding registers.  Here the callback comes after the packing. -/
def readHoldingRegisters (api : ModbusTcpApi) (buf : Frame) (r : Response) :
    Except Fault Served := do
  let start ← buf.readWord 8
  let num ← buf.readWord 10
  match inTable api.holdingsData start num with
  | none => return { api := api, response := r }
  | some holdings =>
      if num.toNat * 2 + 9 < 260 then
        let r ← packRegisters holdings start num r
        let holdings := callback api.holdingsCb start num holdings
        let r ← Response.write r 8 (.ofNat (num.toNat * 2))
        return { api := { api with holdingsData := some holdings }, response := r,
                 responseLen := 9 + (UInt8.ofNat (num.toNat * 2)).toNat, success := true }
      else return { api := api, response := r }

/-- Code 4, read input registers: not implemented.  The loop leaves at once, since
`success` is false. -/
def readInputRegisters (api : ModbusTcpApi) (buf : Frame) (r : Response) :
    Except Fault Served := do
  let num ← buf.readWord 10
  if num.toNat * 2 + 9 < 260 then
    let r ← Response.write r 8 (.ofNat (num.toNat * 2))
    return { api := api, response := r,
             responseLen := 9 + (UInt8.ofNat (num.toNat * 2)).toNat }
  else return { api := api, response := r }

/-! ## The handler -/

/-- The branch for a function code. -/
def serve (func : UInt8) (api : ModbusTcpApi) (buf : Frame) (r : Response) :
    Except Fault Served :=
  if func = 2 then readDiscreteInputs api buf r
  else if func = 1 then readCoils api buf r
  else if func = 5 then writeSingleCoil api buf r
  else if func = 6 then writeSingleHolding api buf r
  else if func = 15 then writeMultipleCoils api buf r
  else if func = 16 then writeMultiple api buf r
  else if func = 3 then readHoldingRegisters api buf r
  else if func = 4 then readInputRegisters api buf r
  else .ok { api := api, response := r }

/-- `memcpy(response, buf, 8)`. -/
def copyHeader (buf : Frame) (r : Response) : Except Fault Response :=
  forRange 8
    (fun i r => do
      let b ← buf.read i
      Response.write r i b)
    r

/-- The server device failure that is sent when no branch has set a reply. -/
def deviceFailure (s : Served) : Except Fault Served :=
  if s.success = false ∧ s.responseLen ≠ 9 then do
    let r ← Response.or s.response 7 0x80
    let r ← Response.write r 8 4
    return { s with response := r, responseLen := 9 }
  else .ok s

/-- What a request leaves behind: the tables, and the messages given to `mg_send`. -/
structure Outcome where
  api : ModbusTcpApi
  sent : List (List UInt8)

/-- From the function code of a long enough frame to the reply. -/
def answer (stack : Response) (api : ModbusTcpApi) (buf : Frame) : Except Fault Outcome := do
  let func ← buf.read 7
  let r ← copyHeader buf stack
  let s ← serve func api buf r
  let s ← deviceFailure s
  let r ← Response.writeWord s.response 4 (.ofNat (s.responseLen - 6))
  return { api := s.api, sent := [r.toList.take s.responseLen] }

/-- `handle_modbus_pdu` with a context; `stack` is what the uninitialised `response` holds.
Without a context it returns at once. -/
def handleModbusPdu (stack : Response) (api : ModbusTcpApi) (buf : Frame) :
    Except Fault Outcome :=
  if buf.len < 12 then .ok { api := api, sent := [] }
  else answer stack api buf

end RhsCore.Modbus
