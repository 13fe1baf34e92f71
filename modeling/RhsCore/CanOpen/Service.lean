import RhsCore.Core.EventFlag
import RhsCore.Core.MessageQueue
import RhsCore.Hal.Can
import RhsCore.Lib.Transition

/-!
# The CANopen service and its producers

`applications/services/can_open`: the service thread sleeps on an event flag and serves
two queues and the process data objects; interrupts and other threads queue or write
something and then set a bit.

Each action below is what one party does without being observed by the others: a call
up to its `rhs_event_flag_set`, the setting of the bit, one turn of a loop of the
service.  A bit set from an interrupt is carried out later, by the timer task, and may
fail if that task's own queue is full.

The stack, `canDispatch` and `sendPDOevent` among it, is a library; what it does to the
service is to call `canSend`, which can happen here at any time.

## Main definitions

* `State`, `Action`, `step` — the service and everything around it.
* `canRxIrqCb`, `canSend`, `coSetField`, `coStartNode`, `canSceIrqCb` — the producers.
* `service` — one turn of `can_open_service`.
-/

namespace RhsCore.CanOpen

/-! ## Messages and handlers -/

/-- `CanOpenAppEventType`. -/
inductive EventType
  | rx
  | tx
  | pdo
  deriving DecidableEq, Repr

/-- The bit of an event type. -/
def EventType.value : EventType → UInt32
  | .rx => 1
  | .tx => 2
  | .pdo => 4

/-- The stack's `Message`. -/
structure Message where
  cobId : UInt16
  rtr : Bool
  len : UInt8
  data : Payload
  deriving DecidableEq, Repr

/-- `CO_Data*`: which object dictionary. -/
abbrev CoData := ℕ

/-- `CanOpenAppMessage`. -/
structure CanOpenAppMessage where
  od : CoData
  canId : RHSHalCANId
  data : Message
  deriving DecidableEq, Repr

/-- An entry of `handler`. -/
structure Handler where
  od : CoData
  canId : RHSHalCANId
  deriving DecidableEq, Repr

/-- `MAX_OD`. -/
def maxOd : ℕ := 3

/-- How many messages each queue is allocated for. -/
def queueLength : ℕ := 32

/-- What `can_rx_irq_cb` makes of a frame. -/
def rxMessage (frame : RHSHalCANFrameType) : Message :=
  { cobId := frame.id.toUInt16
    rtr := frame.rtr
    len := frame.len
    data := copyPayload (Vector.replicate 8 0) frame.payload frame.len }

/-- What the service makes of a message; `frame` is its local variable, which keeps the
bytes of earlier messages behind `len`. -/
def txFrame (frame : RHSHalCANFrameType) (m : Message) : RHSHalCANFrameType :=
  { id := m.cobId.toUInt32
    type := .stdId
    len := m.len
    rtr := m.rtr
    payload := copyPayload frame.payload m.data m.len }

/-! ## The state -/

/-- Where the service is. -/
inductive Pc
  /-- In `rhs_event_flag_wait`. -/
  | wait
  /-- Before a get from `rx_queue`. -/
  | rxLoop
  /-- Before the test `i < counter_od`. -/
  | pdoLoop (i : ℕ)
  /-- Before a get from `tx_queue`. -/
  | txLoop
  /-- Before a call of `rhs_hal_can_tx`, with `tryTx` retries left. -/
  | sending (msg : CanOpenAppMessage) (tryTx : ℕ)
  deriving DecidableEq, Repr

/-- What happens to the process data: a field is set while `counterOd` handlers are
registered, or `sendPDOevent` is called for a handler. -/
inductive Update
  | setField (counterOd : ℕ)
  | sendPdo (i : ℕ)
  deriving DecidableEq, Repr

/-- A call that has queued or written and has still to set its bit. -/
structure Setting where
  type : EventType
  ctx : Context
  deriving DecidableEq, Repr

/-- The service, its queues, the interfaces, and the calls under way. -/
structure State where
  srvEvent : UInt32
  handler : List Handler
  rxQueue : List CanOpenAppMessage
  txQueue : List CanOpenAppMessage
  pending : List Setting
  pc : Pc
  frame : RHSHalCANFrameType
  enabled : RHSHalCANId → Bool
  /-- `canHandle` of each object dictionary: the interface whose handle it is. -/
  canHandle : CoData → Option RHSHalCANId
  /-- An assertion failed, or `rhs_crash` was called. -/
  crashed : Bool
  /-- The messages given to `canDispatch`, in order. -/
  dispatched : List CanOpenAppMessage
  /-- The messages `canSend` was given and returns 0 for, in order. -/
  sent : List CanOpenAppMessage
  /-- The frames `rhs_hal_can_tx` returned true for, in order. -/
  accepted : List (RHSHalCANId × RHSHalCANFrameType)
  updates : List Update

/-- After `can_open_app_alloc`. -/
def State.init : State where
  srvEvent := 0
  handler := []
  rxQueue := []
  txQueue := []
  pending := []
  pc := .wait
  frame := .zero
  enabled := fun _ => false
  canHandle := fun _ => none
  crashed := false
  dispatched := []
  sent := []
  accepted := []
  updates := []

/-- `rhs_crash`. -/
def crash (s : State) : State := { s with crashed := true }

/-! ## The producers -/

/-- `can_rx_irq_cb`, up to the setting of the bit. -/
def canRxIrqCb (s : State) (canId : RHSHalCANId) (frame : RHSHalCANFrameType) : State :=
  match s.handler.find? (fun h => h.canId = canId) with
  | none => s
  | some h =>
      let msg := { od := h.od, canId := canId, data := rxMessage frame }
      { s with
        rxQueue := (rhsMessageQueuePut .irq 0 queueLength s.rxQueue msg).2
        pending := s.pending ++ [{ type := .rx, ctx := .irq }] }

/-- `canSend`, up to the setting of the bit.  The status of the put is not looked at. -/
def canSend (s : State) (ctx : Context) (port : RHSHalCANId) (m : Message) : State :=
  match s.handler.find? (fun h => s.canHandle h.od = some port) with
  | none => crash s
  | some h =>
      let msg := { od := h.od, canId := h.canId, data := m }
      { s with
        txQueue := (rhsMessageQueuePut ctx 0 queueLength s.txQueue msg).2
        pending := s.pending ++ [{ type := .tx, ctx := ctx }]
        sent := s.sent ++ [msg] }

theorem canSend_none {s : State} {port : RHSHalCANId}
    (hfind : s.handler.find? (fun h => s.canHandle h.od = some port) = none) (ctx : Context)
    (m : Message) : canSend s ctx port m = crash s := by
  rw [canSend, hfind]

/-- With a handler for the port, the message is queued if there is room and dropped if not. -/
theorem canSend_some {s : State} {port : RHSHalCANId} {h : Handler}
    (hfind : s.handler.find? (fun h => s.canHandle h.od = some port) = some h) (ctx : Context)
    (m : Message) :
    canSend s ctx port m =
      { s with
        txQueue :=
          if s.txQueue.length < queueLength then
            s.txQueue ++ [{ od := h.od, canId := h.canId, data := m }]
          else s.txQueue
        pending := s.pending ++ [{ type := .tx, ctx := ctx }]
        sent := s.sent ++ [{ od := h.od, canId := h.canId, data := m }] } := by
  rw [canSend, hfind]
  simp only [rhsMessageQueuePut_zero]
  split <;> rfl

/-- `co_set_field`, up to the setting of the bit; `successful` is whether `setODentry`
wrote the field. -/
def coSetField (s : State) (ctx : Context) (successful : Bool) : State :=
  if successful then
    { s with
      updates := s.updates ++ [.setField s.handler.length]
      pending := s.pending ++ [{ type := .pdo, ctx := ctx }] }
  else s

/-- `rhs_event_flag_set`, carried out by the kernel for the `k`-th call under way. -/
def eventFlagSet (s : State) (k : ℕ) : Option State :=
  (s.pending[k]?).map fun p =>
    { s with
      srvEvent := eventGroupSetBits s.srvEvent p.type.value
      pending := s.pending.eraseIdx k }

/-- `rhs_event_flag_set` from an interrupt, refused by the kernel.  The callers do not look
at what it returns. -/
def eventFlagSetFails (s : State) (k : ℕ) : Option State :=
  (s.pending[k]?).bind fun p =>
    if p.ctx = .irq then some { s with pending := s.pending.eraseIdx k } else none

/-- `co_start_node`; `started` is whether `rcan_start` succeeds. -/
def coStartNode (s : State) (d : CoData) (id : RHSHalCANId) (started : Bool) : State :=
  if s.handler.length < maxOd ∧ s.enabled id = false ∧ started then
    { s with
      enabled := Function.update s.enabled id true
      handler := s.handler ++ [{ od := d, canId := id }]
      canHandle := Function.update s.canHandle d (some id) }
  else crash s

/-- `can_sce_irq_cb`; `txPassive` is whether the event says so. -/
def canSceIrqCb (s : State) (canId : RHSHalCANId) (txPassive : Bool) : State :=
  if txPassive then
    match s.handler.find? (fun h => h.canId = canId) with
    | none => s
    | some h =>
        if s.enabled h.canId then { s with enabled := Function.update s.enabled h.canId false }
        else crash s
  else s

/-! ## The service -/

/-- The bits the service waits for. -/
def srvFlags : UInt32 := EventType.rx.value ||| EventType.tx.value ||| EventType.pdo.value

/-- `rhs_event_flag_wait`, and the `switch` on what it returned. -/
def serviceWait (s : State) : Option State :=
  (eventGroupWaitBits srvFlags (rhsFlagWaitAny &&& rhsFlagNoClear = 0)
      (rhsFlagWaitAny &&& rhsFlagWaitAll ≠ 0) s.srvEvent).map fun (rflags, left) =>
    let flag := rhsEventFlagWait srvFlags rhsFlagWaitAny rhsWaitForever rflags
    { s with
      srvEvent := left
      pc :=
        if flag = 0 then .wait
        else if flag = EventType.rx.value then .rxLoop
        else if flag = EventType.pdo.value then .pdoLoop 0
        else if flag = EventType.tx.value then .txLoop
        else .wait }

/-- One turn of the loop over `rx_queue`. -/
def serviceRx (s : State) : State :=
  match rhsMessageQueueGet .task 0 s.rxQueue with
  | (.ok, some msg, rest) => { s with rxQueue := rest, dispatched := s.dispatched ++ [msg] }
  | _ => { s with pc := .wait }

theorem serviceRx_nil {s : State} (h : s.rxQueue = []) : serviceRx s = { s with pc := .wait } := by
  simp [serviceRx, h, rhsMessageQueueGet_zero_nil]

theorem serviceRx_cons {s : State} {msg : CanOpenAppMessage} {rest : List CanOpenAppMessage}
    (h : s.rxQueue = msg :: rest) :
    serviceRx s = { s with rxQueue := rest, dispatched := s.dispatched ++ [msg] } := by
  simp [serviceRx, h, rhsMessageQueueGet_cons]

/-- One turn of the loop over the handlers; its `case` falls through to the next. -/
def servicePdo (s : State) (i : ℕ) : State :=
  if i < s.handler.length then
    { s with updates := s.updates ++ [.sendPdo i], pc := .pdoLoop (i + 1) }
  else { s with pc := .txLoop }

/-- One turn of the loop over `tx_queue`, up to the loop that sends. -/
def serviceTx (s : State) : State :=
  match rhsMessageQueueGet .task 0 s.txQueue with
  | (.ok, some msg, rest) =>
      { s with txQueue := rest, frame := txFrame s.frame msg.data, pc := .sending msg 3 }
  | _ => { s with pc := .wait }

theorem serviceTx_nil {s : State} (h : s.txQueue = []) : serviceTx s = { s with pc := .wait } := by
  simp [serviceTx, h, rhsMessageQueueGet_zero_nil]

theorem serviceTx_cons {s : State} {msg : CanOpenAppMessage} {rest : List CanOpenAppMessage}
    (h : s.txQueue = msg :: rest) :
    serviceTx s =
      { s with txQueue := rest, frame := txFrame s.frame msg.data, pc := .sending msg 3 } := by
  simp [serviceTx, h, rhsMessageQueueGet_cons]

/-- One turn of the loop that sends: when no retry is left, the message is given up. -/
def serviceSend (s : State) (msg : CanOpenAppMessage) (tryTx : ℕ) (rcanSend : Bool) : State :=
  match rhsHalCanTx (s.enabled msg.canId) s.frame rcanSend with
  | none => crash s
  | some (true, frame) =>
      { s with accepted := s.accepted ++ [(msg.canId, frame)], pc := .txLoop }
  | some (false, _) =>
      if tryTx ≠ 0 then { s with pc := .sending msg (tryTx - 1) }
      else { s with pc := .txLoop }

/-- One turn of `can_open_service`. -/
def service (s : State) (rcanSend : Bool) : Option State :=
  match s.pc with
  | .wait => serviceWait s
  | .rxLoop => some (serviceRx s)
  | .pdoLoop i => some (servicePdo s i)
  | .txLoop => some (serviceTx s)
  | .sending msg tryTx => some (serviceSend s msg tryTx rcanSend)

/-! ## Any order of all of them -/

/-- What can happen next. -/
inductive Action
  /-- An enabled interface interrupts with a frame. -/
  | canRxIrq (canId : RHSHalCANId) (frame : RHSHalCANFrameType)
  | canSend (ctx : Context) (port : RHSHalCANId) (m : Message)
  | coSetField (ctx : Context) (successful : Bool)
  | setFlag (k : ℕ)
  | setFlagFails (k : ℕ)
  | coStartNode (d : CoData) (id : RHSHalCANId) (started : Bool)
  /-- An enabled interface reports an error. -/
  | canSceIrq (canId : RHSHalCANId) (txPassive : Bool)
  | service (rcanSend : Bool)
  deriving DecidableEq, Repr

/-- What it does; nothing happens any more after a crash. -/
def step (s : State) (a : Action) : Option State :=
  if s.crashed then none
  else
    match a with
    | .canRxIrq canId frame => if s.enabled canId then some (canRxIrqCb s canId frame) else none
    | .canSend ctx port m => some (canSend s ctx port m)
    | .coSetField ctx successful => some (coSetField s ctx successful)
    | .setFlag k => eventFlagSet s k
    | .setFlagFails k => eventFlagSetFails s k
    | .coStartNode d id started => some (coStartNode s d id started)
    | .canSceIrq canId txPassive =>
        if s.enabled canId then some (canSceIrqCb s canId txPassive) else none
    | .service rcanSend => service s rcanSend

end RhsCore.CanOpen
