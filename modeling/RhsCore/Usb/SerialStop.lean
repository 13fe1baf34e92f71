import Mathlib.Data.List.Basic
import RhsCore.Lib.Transition

/-!
# The life of a serial bridge

`usb_serial_worker` of `usb_serial_bridge.c` from its start to the end of
`usb_serial_disable`, with `usb_serial_tx_thread`, the interrupt of the serial port and the
callbacks that the USB task calls.  `rhs_hal_cdc_set_callbacks` writes the callbacks and
their context one after the other; the USB task reads them one after the other.

When it is stopped, the worker takes back the callbacks, closes the serial port, and only
then stops the thread that sends to it.  A step below is one access to what the parties
share; a transmission is one step.

## Main definitions

* `usbSerialWorker`, `usbSerialTxThread`, `usbTask` — the next step of each party.
* `Fault` — what must not happen.
* `fault_places` — what can go wrong, and where the worker is then.
* `stop_safe_iff` — when nothing goes wrong any more.
-/

namespace RhsCore.SerialStop

/-! ## The parties -/

/-- What `usb_serial_worker` and `usb_serial_disable` free. -/
inductive Object
  | txThread
  | rxStream
  | usbMutex
  | txSem
  | bridge
  deriving DecidableEq, Repr

/-- Where `usb_serial_worker` is: before the step of that name. -/
inductive WorkerPc
  /-- `callbacks[if_num] = cb` -/
  | setCallbacks
  /-- `cb_ctx[if_num] = context` -/
  | setContext
  /-- `rhs_hal_serial_init` -/
  | serialInit
  /-- `rhs_hal_serial_async_rx_start` -/
  | rxStart
  /-- `rhs_thread_start(usb_serial->tx_thread)` -/
  | startTx
  /-- In its loop. -/
  | loop
  /-- `callbacks[if_num] = NULL` -/
  | clearCallbacks
  /-- `cb_ctx[if_num] = NULL` -/
  | clearContext
  /-- `rhs_hal_interrupt_set_isr` in `rhs_hal_serial_deinit` -/
  | clearIsr
  /-- The rest of `rhs_hal_serial_deinit`. -/
  | close
  /-- `usb_uart->serial_handle = NULL` -/
  | clearHandle
  /-- `rhs_thread_flags_set` with `WorkerEvtTxStop` -/
  | setTxStop
  /-- `rhs_thread_join(usb_serial->tx_thread)` -/
  | joinTx
  | free (o : Object)
  | gone
  deriving DecidableEq, Repr

/-- Where `usb_serial_tx_thread` is. -/
inductive TxPc
  /-- It has not been started. -/
  | created
  /-- In `rhs_thread_flags_wait`. -/
  | waiting
  /-- Before `rhs_hal_cdc_receive`. -/
  | woken
  /-- Before `rhs_hal_serial_tx`. -/
  | sending (data : List UInt8)
  | ended
  deriving DecidableEq, Repr

inductive CdcCallback
  | rx
  | txComplete
  deriving DecidableEq, Repr

/-- What a callback uses. -/
def CdcCallback.objects : CdcCallback → List Object
  | rx => [.bridge, .txThread]
  | txComplete => [.bridge, .txSem]

/-- Where the USB task is. -/
inductive UsbPc
  | away
  /-- In `tud_cdc_rx_cb` or `tud_cdc_tx_complete_cb`, before `callbacks[itf]` is read. -/
  | entered (cb : CdcCallback)
  /-- Before `cb_ctx[itf]` is read. -/
  | checked (cb : CdcCallback)
  /-- In `vcp_on_cdc_rx` or `vcp_on_cdc_tx_complete`. -/
  | calling (cb : CdcCallback)
  deriving DecidableEq, Repr

/-- A callback gets no context; bytes are sent to a port that is not open; something is used
after it was freed. -/
inductive Fault
  | nullContext
  | closedPort
  | freed (o : Object)
  deriving DecidableEq, Repr

/-- What the parties share.  `callbacks`, `context`, `isr` and `handle` are whether the
pointers of that name are set, and `enabled` is the serial port's. -/
structure State where
  worker : WorkerPc
  tx : TxPc
  usb : UsbPc
  callbacks : Bool
  context : Bool
  isr : Bool
  enabled : Bool
  handle : Bool
  cdcRx : Bool
  txStop : Bool
  fifo : List UInt8
  fault : Option Fault
  deriving DecidableEq, Repr

/-- The worker has allocated its objects. -/
def init : State where
  worker := .setCallbacks
  tx := .created
  usb := .away
  callbacks := false
  context := false
  isr := false
  enabled := false
  handle := false
  cdcRx := false
  txStop := false
  fifo := []
  fault := none

/-- What the worker has freed. -/
def WorkerPc.freed : WorkerPc → List Object
  | .free .rxStream => [.txThread]
  | .free .usbMutex => [.txThread, .rxStream]
  | .free .txSem => [.txThread, .rxStream, .usbMutex]
  | .free .bridge => [.txThread, .rxStream, .usbMutex, .txSem]
  | .gone => [.txThread, .rxStream, .usbMutex, .txSem, .bridge]
  | _ => []

/-- The next step of `usb_serial_worker`. -/
def usbSerialWorker (s : State) : Option State :=
  match s.worker with
  | .setCallbacks => some { s with callbacks := true, worker := .setContext }
  | .setContext => some { s with context := true, worker := .serialInit }
  | .serialInit => some { s with enabled := true, handle := true, worker := .rxStart }
  | .rxStart => some { s with isr := true, worker := .startTx }
  | .startTx =>
      -- the flags of a thread are gone when its task is created
      some { s with tx := .waiting, cdcRx := false, txStop := false, worker := .loop }
  | .loop => none
  | .clearCallbacks => some { s with callbacks := false, worker := .clearContext }
  | .clearContext => some { s with context := false, worker := .clearIsr }
  | .clearIsr => some { s with isr := false, worker := .close }
  | .close => some { s with enabled := false, worker := .clearHandle }
  | .clearHandle => some { s with handle := false, worker := .setTxStop }
  | .setTxStop => some { s with txStop := true, worker := .joinTx }
  | .joinTx => if s.tx = .ended then some { s with worker := .free .txThread } else none
  | .free .txThread => some { s with worker := .free .rxStream }
  | .free .rxStream => some { s with worker := .free .usbMutex }
  | .free .usbMutex => some { s with worker := .free .txSem }
  | .free .txSem => some { s with worker := .free .bridge }
  | .free .bridge => some { s with worker := .gone }
  | .gone => none

/-- The state, unless one of these has been freed. -/
def State.using (s : State) (objects : List Object) (s' : State) : State :=
  match objects.find? fun o => o ∈ s.worker.freed with
  | some o => { s with fault := some (.freed o) }
  | none => s'

/-- The next step of `usb_serial_tx_thread`. -/
def usbSerialTxThread (pktLen : ℕ) (s : State) : Option State :=
  match s.tx with
  | .created => none
  | .waiting =>
      if s.txStop then some { s with txStop := false, cdcRx := false, tx := .ended }
      else if s.cdcRx then some { s with cdcRx := false, tx := .woken }
      else none
  | .woken =>
      some (s.using [.bridge, .usbMutex]
        (if s.fifo = [] then { s with tx := .waiting }
        else { s with fifo := s.fifo.drop pktLen, tx := .sending (s.fifo.take pktLen) }))
  | .sending _ =>
      some (s.using [.bridge]
        (if s.handle ∧ s.enabled then { s with tx := .waiting }
        else { s with fault := some .closedPort }))
  | .ended => none

/-- The next step of the USB task in a callback.  The source reads `callbacks[itf]` three times,
for the two tests and the call; here it is read once, for all of them. -/
def usbTask (s : State) : Option State :=
  match s.usb with
  | .away => none
  | .entered cb => some { s with usb := if s.callbacks then .checked cb else .away }
  | .checked cb =>
      some (if s.context then { s with usb := .calling cb }
        else { s with fault := some .nullContext })
  | .calling .rx => some (s.using CdcCallback.rx.objects { s with cdcRx := true, usb := .away })
  | .calling .txComplete => some (s.using CdcCallback.txComplete.objects { s with usb := .away })

/-- `serial_rx_cb`, as long as it is in the table of interrupts. -/
def serialRxCb (s : State) : Option State :=
  if s.isr then some (s.using [.bridge, .rxStream] s) else none

/-- Who goes next: the USB host with a packet, the end of a transfer to it, the USB task; the
interrupt; the two threads; who calls `usb_serial_disable`. -/
inductive Action
  | packet (bytes : List UInt8)
  | complete
  | usb
  | interrupt
  | tx
  | worker
  | disable
  deriving DecidableEq, Repr

/-- What an action does. -/
def act (pktLen : ℕ) (s : State) : Action → Option State
  | .packet bytes =>
      if s.usb = .away ∧ bytes ≠ [] ∧ s.fifo.length + bytes.length ≤ pktLen then
        some { s with fifo := s.fifo ++ bytes, usb := .entered .rx }
      else none
  | .complete => if s.usb = .away then some { s with usb := .entered .txComplete } else none
  | .usb => usbTask s
  | .interrupt => serialRxCb s
  | .tx => usbSerialTxThread pktLen s
  | .worker => usbSerialWorker s
  | .disable => if s.worker = .loop then some { s with worker := .clearCallbacks } else none

/-- Nothing goes on after a fault. -/
def step (pktLen : ℕ) (s : State) (a : Action) : Option State :=
  if s.fault = none then act pktLen s a else none

/-! ## What the worker has set -/

/-- Whether `callbacks[if_num]` is set where the worker is. -/
def WorkerPc.callbacks : WorkerPc → Bool
  | setContext | serialInit | rxStart | startTx | loop | clearCallbacks => true
  | _ => false

/-- Whether `cb_ctx[if_num]` is. -/
def WorkerPc.context : WorkerPc → Bool
  | serialInit | rxStart | startTx | loop | clearCallbacks | clearContext => true
  | _ => false

/-- Whether the interrupt has a handler. -/
def WorkerPc.isr : WorkerPc → Bool
  | startTx | loop | clearCallbacks | clearContext | clearIsr => true
  | _ => false

/-- Whether the serial port is open. -/
def WorkerPc.enabled : WorkerPc → Bool
  | rxStart | startTx | loop | clearCallbacks | clearContext | clearIsr | close => true
  | _ => false

/-- Whether `serial_handle` is set. -/
def WorkerPc.handle : WorkerPc → Bool
  | rxStart | startTx | loop | clearCallbacks | clearContext | clearIsr | close
  | clearHandle => true
  | _ => false

/-- Where the thread that sends can be: it runs from its start to the join. -/
def WorkerPc.Tx (tx : TxPc) : WorkerPc → Prop
  | loop | clearCallbacks | clearContext | clearIsr | close | clearHandle | setTxStop =>
      tx ≠ .created ∧ tx ≠ .ended
  | joinTx => tx ≠ .created
  | free _ | gone => tx = .ended
  | _ => tx = .created

/-- What only the worker writes is as it is where the worker is. -/
structure Owned (s : State) : Prop where
  callbacks : s.callbacks = s.worker.callbacks
  context : s.context = s.worker.context
  isr : s.isr = s.worker.isr
  enabled : s.enabled = s.worker.enabled
  handle : s.handle = s.worker.handle

/-- The threads follow the worker; the USB task has seen the callbacks before it reads their
context. -/
structure Follows (s : State) : Prop where
  tx : s.worker.Tx s.tx
  txStop : s.txStop = true → s.worker = .joinTx ∧ s.tx ≠ .ended
  checked : ∀ cb, s.usb = .checked cb → s.worker ≠ .setCallbacks
  calling : ∀ cb, s.usb = .calling cb → s.worker ≠ .setCallbacks ∧ s.worker ≠ .setContext

variable {pktLen : ℕ} {s s' : State}

theorem owned_init : Owned init := by
  constructor <;> rfl

theorem follows_init : Follows init := by
  constructor <;> simp [init, WorkerPc.Tx]

/-- Steps of the others leave what the worker has set. -/
theorem Owned.same (h : Owned s) (hworker : s'.worker = s.worker)
    (hcallbacks : s'.callbacks = s.callbacks) (hcontext : s'.context = s.context)
    (hisr : s'.isr = s.isr) (henabled : s'.enabled = s.enabled) (hhandle : s'.handle = s.handle) :
    Owned s' where
  callbacks := by rw [hcallbacks, hworker, h.callbacks]
  context := by rw [hcontext, hworker, h.context]
  isr := by rw [hisr, hworker, h.isr]
  enabled := by rw [henabled, hworker, h.enabled]
  handle := by rw [hhandle, hworker, h.handle]

theorem Owned.worker (h : Owned s) (hs : usbSerialWorker s = some s') : Owned s' := by
  have hcallbacks := h.callbacks
  have hcontext := h.context
  have hisr := h.isr
  have henabled := h.enabled
  have hhandle := h.handle
  cases hw : s.worker with
  | loop => simp [usbSerialWorker, hw] at hs
  | gone => simp [usbSerialWorker, hw] at hs
  | joinTx =>
      simp only [usbSerialWorker, hw, Option.ite_none_right_eq_some, Option.some.injEq] at hs
      obtain ⟨-, rfl⟩ := hs
      rw [hw] at hcallbacks hcontext hisr henabled hhandle
      exact ⟨hcallbacks, hcontext, hisr, henabled, hhandle⟩
  | free o =>
      rw [hw] at hcallbacks hcontext hisr henabled hhandle
      cases o <;>
      · simp only [usbSerialWorker, hw, Option.some.injEq] at hs
        subst hs
        exact ⟨hcallbacks, hcontext, hisr, henabled, hhandle⟩
  | _ =>
      rw [hw] at hcallbacks hcontext hisr henabled hhandle
      simp only [usbSerialWorker, hw, Option.some.injEq] at hs
      subst hs
      constructor <;> first | rfl | assumption


theorem worker_fault (hs : usbSerialWorker s = some s') : s'.fault = s.fault := by
  cases hw : s.worker with
  | loop => simp [usbSerialWorker, hw] at hs
  | gone => simp [usbSerialWorker, hw] at hs
  | joinTx =>
      simp only [usbSerialWorker, hw, Option.ite_none_right_eq_some, Option.some.injEq] at hs
      rw [← hs.2]
  | free o =>
      cases o <;>
      · simp only [usbSerialWorker, hw, Option.some.injEq] at hs
        rw [← hs]
  | _ =>
      simp only [usbSerialWorker, hw, Option.some.injEq] at hs
      rw [← hs]

theorem Follows.worker (h : Follows s) (hs : usbSerialWorker s = some s') : Follows s' := by
  have htx := h.tx
  have htxStop := h.txStop
  have hcalling := h.calling
  cases hw : s.worker with
  | loop => simp [usbSerialWorker, hw] at hs
  | gone => simp [usbSerialWorker, hw] at hs
  | joinTx =>
      simp only [usbSerialWorker, hw, Option.ite_none_right_eq_some, Option.some.injEq] at hs
      obtain ⟨hended, rfl⟩ := hs
      constructor <;> simp_all [WorkerPc.Tx]
  | free o =>
      cases o <;>
      · simp only [usbSerialWorker, hw, Option.some.injEq] at hs
        subst hs
        constructor <;> simp_all [WorkerPc.Tx]
  | _ =>
      simp only [usbSerialWorker, hw, Option.some.injEq] at hs
      subst hs
      constructor <;> simp_all [WorkerPc.Tx]

/-! ## What can go wrong -/

/-- Where a fault happens. -/
def Fault.Place (s : State) : Fault → Prop
  | closedPort =>
      (∃ data, s.tx = .sending data) ∧
        (s.worker = .clearHandle ∨ s.worker = .setTxStop ∨ s.worker = .joinTx)
  | nullContext =>
      (∃ cb, s.usb = .checked cb) ∧ s.worker.context = false ∧ s.worker ≠ .setCallbacks
  | freed o => ∃ cb, s.usb = .calling cb ∧ o ∈ cb.objects ∧ o ∈ s.worker.freed

/-- The invariant. -/
structure Good (s : State) : Prop where
  owned : Owned s
  follows : Follows s
  place : ∀ f, s.fault = some f → f.Place s

theorem good_init : Good init where
  owned := owned_init
  follows := follows_init
  place := by simp [init]

/-- Nothing has been freed while the thread that sends is running. -/
theorem freed_eq_nil {w : WorkerPc} {tx : TxPc} (hw : w.Tx tx) (htx : tx ≠ .ended) :
    w.freed = [] := by
  cases w with
  | free o => exact absurd hw htx
  | gone => exact absurd hw htx
  | _ => rfl

theorem freed_eq_nil_of_isr {w : WorkerPc} (hw : w.isr = true) : w.freed = [] := by
  cases w <;> first | rfl | cases hw

theorem using_eq {objects : List Object} (h : s.worker.freed = []) :
    s.using objects s' = s' := by
  have hnone : objects.find? (fun o => decide (o ∈ s.worker.freed)) = none := by
    simp [h]
  rw [State.using, hnone]

theorem using_cases (s s' : State) (objects : List Object) :
    s.using objects s' = s' ∨
      ∃ o ∈ objects, o ∈ s.worker.freed ∧
        s.using objects s' = { s with fault := some (.freed o) } := by
  cases hfind : objects.find? (fun o => decide (o ∈ s.worker.freed)) with
  | none =>
      left
      rw [State.using, hfind]
  | some o =>
      right
      refine ⟨o, List.mem_of_find?_eq_some hfind, ?_, by rw [State.using, hfind]⟩
      simpa using List.find?_some hfind

/-- The port that is closed: the thread is still to be joined. -/
theorem closedPort_place {w : WorkerPc} {data : List UInt8} (htx : w.Tx (.sending data))
    (hopen : ¬(w.handle = true ∧ w.enabled = true)) :
    w = .clearHandle ∨ w = .setTxStop ∨ w = .joinTx := by
  cases w <;> simp_all [WorkerPc.Tx, WorkerPc.handle, WorkerPc.enabled]

theorem WorkerPc.Tx.goOn {w : WorkerPc} {tx tx' : TxPc} (hw : w.Tx tx)
    (htx : tx ≠ .created ∧ tx ≠ .ended) (htx' : tx' ≠ .created ∧ tx' ≠ .ended) : w.Tx tx' := by
  cases w with
  | joinTx => exact htx'.1
  | free o => exact absurd hw htx.2
  | gone => exact absurd hw htx.2
  | loop => exact htx'
  | clearCallbacks => exact htx'
  | clearContext => exact htx'
  | clearIsr => exact htx'
  | close => exact htx'
  | clearHandle => exact htx'
  | setTxStop => exact htx'
  | _ => exact absurd hw htx.1

theorem Good.of_none (howned : Owned s) (hfollows : Follows s) (hnone : s.fault = none) :
    Good s where
  owned := howned
  follows := hfollows
  place := by simp [hnone]

/-- The thread that sends goes on. -/
theorem Good.goOn (h : Good s) (hnone : s.fault = none) {tx : TxPc}
    (hpc : s.tx ≠ .created ∧ s.tx ≠ .ended) (htx : tx ≠ .created ∧ tx ≠ .ended) (cdcRx : Bool)
    (fifo : List UInt8) : Good { s with tx := tx, cdcRx := cdcRx, fifo := fifo } := by
  refine Good.of_none (h.owned.same rfl rfl rfl rfl rfl rfl) ?_ hnone
  exact { h.follows with
    tx := h.follows.tx.goOn hpc htx
    txStop := fun hstop => ⟨(h.follows.txStop hstop).1, htx.2⟩ }

theorem Good.tx (h : Good s) (hnone : s.fault = none)
    (hs : usbSerialTxThread pktLen s = some s') : Good s' := by
  have htx := h.follows.tx
  cases hpc : s.tx with
  | created => simp [usbSerialTxThread, hpc] at hs
  | ended => simp [usbSerialTxThread, hpc] at hs
  | waiting =>
      have hgoOn := fun tx htx cdcRx => @Good.goOn s h hnone tx (by simp [hpc]) htx cdcRx s.fifo
      simp only [usbSerialTxThread, hpc] at hs
      split at hs
      · rename_i hstop
        obtain rfl := Option.some.inj hs
        refine Good.of_none (h.owned.same rfl rfl rfl rfl rfl rfl) ?_ hnone
        refine { h.follows with tx := ?_, txStop := by simp }
        rw [(h.follows.txStop hstop).1]
        simp [WorkerPc.Tx]
      · split at hs
        · obtain rfl := Option.some.inj hs
          exact hgoOn .woken (by simp) false
        · cases hs
  | woken =>
      have hgoOn := fun tx htx fifo => @Good.goOn s h hnone tx (by simp [hpc]) htx s.cdcRx fifo
      rw [hpc] at htx
      simp only [usbSerialTxThread, hpc, using_eq (freed_eq_nil htx (by simp)),
        Option.some.injEq] at hs
      subst hs
      split
      · exact hgoOn .waiting (by simp) s.fifo
      · exact hgoOn (.sending _) (by simp) _
  | sending data =>
      have hgoOn := fun tx htx => @Good.goOn s h hnone tx (by simp [hpc]) htx s.cdcRx s.fifo
      rw [hpc] at htx
      simp only [usbSerialTxThread, hpc, using_eq (freed_eq_nil htx (by simp)),
        Option.some.injEq] at hs
      subst hs
      split
      · exact hgoOn .waiting (by simp)
      · rename_i hopen
        rw [h.owned.handle, h.owned.enabled] at hopen
        refine ⟨h.owned.same rfl rfl rfl rfl rfl rfl,
          { h.follows with tx := htx, txStop := ?_ }, ?_⟩
        · intro hstop
          exact ⟨(h.follows.txStop hstop).1, by simp⟩
        · intro f hf
          obtain rfl := Option.some.inj hf
          exact ⟨⟨data, rfl⟩, closedPort_place htx hopen⟩

/-- The USB task goes on. -/
theorem Good.usbTo (h : Good s) (hnone : s.fault = none) {usb : UsbPc} (cdcRx : Bool)
    (fifo : List UInt8) (hchecked : ∀ cb, usb = .checked cb → s.worker ≠ .setCallbacks)
    (hcalling : ∀ cb, usb = .calling cb → s.worker ≠ .setCallbacks ∧ s.worker ≠ .setContext) :
    Good { s with usb := usb, cdcRx := cdcRx, fifo := fifo } := by
  refine Good.of_none (h.owned.same rfl rfl rfl rfl rfl rfl) ?_ hnone
  exact { h.follows with checked := hchecked, calling := hcalling }

/-- A callback uses what is there, or what has been freed. -/
theorem Good.called (h : Good s) {cb : CdcCallback} (hpc : s.usb = .calling cb) (hs' : Good s') :
    Good (s.using cb.objects s') := by
  obtain heq | ⟨o, ho, hfreed, heq⟩ := using_cases s s' cb.objects
  · rwa [heq]
  · rw [heq]
    refine ⟨h.owned.same rfl rfl rfl rfl rfl rfl, { h.follows with }, ?_⟩
    intro f hf
    obtain rfl := Option.some.inj hf
    exact ⟨cb, hpc, ho, hfreed⟩

theorem Good.usbTask (h : Good s) (hnone : s.fault = none)
    (hs : SerialStop.usbTask s = some s') : Good s' := by
  cases hpc : s.usb with
  | away => simp [SerialStop.usbTask, hpc] at hs
  | entered cb =>
      simp only [SerialStop.usbTask, hpc, Option.some.injEq] at hs
      subst hs
      split
      · rename_i hset
        apply h.usbTo hnone s.cdcRx s.fifo
        · intro cb' _ hw
          rw [h.owned.callbacks, hw] at hset
          cases hset
        · simp
      · exact h.usbTo hnone s.cdcRx s.fifo (by simp) (by simp)
  | checked cb =>
      have hpast := h.follows.checked cb hpc
      simp only [SerialStop.usbTask, hpc, Option.some.injEq] at hs
      subst hs
      split
      · rename_i hset
        apply h.usbTo hnone s.cdcRx s.fifo (by simp)
        intro cb' _
        refine ⟨hpast, fun hw => ?_⟩
        rw [h.owned.context, hw] at hset
        cases hset
      · rename_i hnull
        rw [h.owned.context] at hnull
        refine ⟨h.owned.same rfl rfl rfl rfl rfl rfl,
          { h.follows with checked := fun _ _ => hpast, calling := by simp }, ?_⟩
        intro f hf
        obtain rfl := Option.some.inj hf
        exact ⟨⟨cb, rfl⟩, by simpa using hnull, hpast⟩
  | calling cb =>
      cases cb with
      | rx =>
          simp only [SerialStop.usbTask, hpc, Option.some.injEq] at hs
          subst hs
          exact h.called hpc (h.usbTo hnone true s.fifo (by simp) (by simp))
      | txComplete =>
          simp only [SerialStop.usbTask, hpc, Option.some.injEq] at hs
          subst hs
          exact h.called hpc (h.usbTo hnone s.cdcRx s.fifo (by simp) (by simp))

theorem Good.interrupt (h : Good s) (hs : serialRxCb s = some s') : Good s' := by
  simp only [serialRxCb, Option.ite_none_right_eq_some, Option.some.injEq] at hs
  rw [h.owned.isr] at hs
  rw [← hs.2, using_eq (freed_eq_nil_of_isr hs.1)]
  exact h

theorem Good.act {a : Action} (h : Good s) (hnone : s.fault = none)
    (hs : SerialStop.act pktLen s a = some s') : Good s' := by
  cases a with
  | packet bytes =>
      simp only [SerialStop.act, Option.ite_none_right_eq_some, Option.some.injEq] at hs
      rw [← hs.2]
      exact h.usbTo hnone s.cdcRx _ (by simp) (by simp)
  | complete =>
      simp only [SerialStop.act, Option.ite_none_right_eq_some, Option.some.injEq] at hs
      rw [← hs.2]
      exact h.usbTo hnone s.cdcRx s.fifo (by simp) (by simp)
  | usb => exact h.usbTask hnone hs
  | interrupt => exact h.interrupt hs
  | tx => exact h.tx hnone hs
  | worker =>
      exact Good.of_none (h.owned.worker hs) (h.follows.worker hs) ((worker_fault hs).trans hnone)
  | disable =>
      simp only [SerialStop.act, Option.ite_none_right_eq_some, Option.some.injEq] at hs
      obtain ⟨hloop, rfl⟩ := hs
      obtain ⟨hcallbacks, hcontext, hisr, henabled, hhandle⟩ := h.owned
      obtain ⟨htx, htxStop, hchecked, hcalling⟩ := h.follows
      rw [hloop] at hcallbacks hcontext hisr henabled hhandle htx
      refine Good.of_none ⟨hcallbacks, hcontext, hisr, henabled, hhandle⟩ ?_ hnone
      refine ⟨htx, ?_, by simp, by simp⟩
      simpa [hloop] using htxStop

theorem good_step {a : Action} (h : Good s) (hs : step pktLen s a = some s') : Good s' := by
  simp only [step, Option.ite_none_right_eq_some] at hs
  exact h.act hs.1 hs.2

theorem good_of_reach (hreach : Reach (step pktLen) (fun _ _ => True) init s) : Good s :=
  hreach.invariant good_init fun _ _ _ h _ hs => good_step h hs

/-- **What can go wrong.**  In every order of steps, bytes go to a closed port only between the
closing of the port and the join of the thread that sends; a callback has no context only
between the two writes of the registration, or once it is taken back; and what was freed is
used only in a callback.  While the bridge is in its loop, nothing goes wrong. -/
theorem fault_places (hreach : Reach (step pktLen) (fun _ _ => True) init s) {f : Fault}
    (hfault : s.fault = some f) : f.Place s ∧ s.worker ≠ .loop := by
  have hplace := (good_of_reach hreach).place f hfault
  refine ⟨hplace, fun hloop => ?_⟩
  cases f with
  | closedPort => simp [Fault.Place, hloop] at hplace
  | nullContext => simp [Fault.Place, hloop, WorkerPc.context] at hplace
  | freed o => simp [Fault.Place, hloop, WorkerPc.freed] at hplace

/-- A packet comes before the bridge is stopped, and is sent after the port was closed. -/
theorem packet_to_closed_port : ∃ s, Reach (step 64) (fun _ _ => True) init s ∧
    s.fault = some .closedPort ∧ s.worker = .clearHandle ∧ s.worker ≠ .loop := by
  have hreach : Reach (step 64) (fun _ _ => True) init _ :=
    @Reach.of_runActions _ _ _ _ _ [.worker, .worker, .worker, .worker, .worker, .packet [0x41],
      .usb, .usb, .usb, .tx, .tx, .disable, .worker, .worker, .worker, .worker, .tx] _ _ rfl
  exact ⟨_, hreach, rfl, rfl, (fault_places hreach rfl).2⟩

/-! ## When nothing goes wrong any more -/

/-- The thread that sends waits and will not be woken to send, and no callback is under way. -/
def Quiet (s : State) : Prop :=
  s.tx = .waiting ∧ s.cdcRx = false ∧ (s.usb = .away ∨ ∃ cb, s.usb = .entered cb)

/-- Where the worker is once it has taken back the callbacks. -/
def WorkerPc.stopping : WorkerPc → Bool
  | clearIsr | close | clearHandle | setTxStop | joinTx | free _ | gone => true
  | _ => false

/-- A quiet bridge that is being stopped. -/
structure Safe (s : State) : Prop where
  callbacks : s.callbacks = false
  tx : s.tx = .waiting ∧ s.cdcRx = false ∨ s.tx = .ended
  usb : s.usb = .away ∨ ∃ cb, s.usb = .entered cb
  isr : s.isr = true → s.worker = .clearIsr
  stopping : s.worker.stopping = true
  fault : s.fault = none

theorem Safe.worker (h : Safe s) (hs : usbSerialWorker s = some s') : Safe s' := by
  have hstopping := h.stopping
  have hisr := h.isr
  have hfault := (worker_fault hs).trans h.fault
  cases hw : s.worker with
  | gone => simp [usbSerialWorker, hw] at hs
  | joinTx =>
      simp only [usbSerialWorker, hw, Option.ite_none_right_eq_some, Option.some.injEq] at hs
      obtain ⟨-, rfl⟩ := hs
      exact { h with isr := by simpa [hw] using hisr, stopping := rfl }
  | free o =>
      cases o <;>
      · simp only [usbSerialWorker, hw, Option.some.injEq] at hs
        subst hs
        exact { h with isr := by simpa [hw] using hisr, stopping := rfl }
  | clearIsr =>
      simp only [usbSerialWorker, hw, Option.some.injEq] at hs
      subst hs
      exact { h with isr := by simp, stopping := rfl }
  | close =>
      simp only [usbSerialWorker, hw, Option.some.injEq] at hs
      subst hs
      exact { h with isr := by simpa [hw] using hisr, stopping := rfl }
  | clearHandle =>
      simp only [usbSerialWorker, hw, Option.some.injEq] at hs
      subst hs
      exact { h with isr := by simpa [hw] using hisr, stopping := rfl }
  | setTxStop =>
      simp only [usbSerialWorker, hw, Option.some.injEq] at hs
      subst hs
      exact { h with isr := by simpa [hw] using hisr, stopping := rfl }
  | _ => simp [hw, WorkerPc.stopping] at hstopping

theorem safe_step {a : Action} (h : Safe s) (hs : step pktLen s a = some s') : Safe s' := by
  simp only [step, h.fault, if_true] at hs
  cases a with
  | packet bytes =>
      simp only [act, Option.ite_none_right_eq_some, Option.some.injEq] at hs
      rw [← hs.2]
      exact { h with usb := .inr ⟨_, rfl⟩ }
  | complete =>
      simp only [act, Option.ite_none_right_eq_some, Option.some.injEq] at hs
      rw [← hs.2]
      exact { h with usb := .inr ⟨_, rfl⟩ }
  | usb =>
      obtain haway | ⟨cb, hcb⟩ := h.usb
      · simp [act, usbTask, haway] at hs
      · have hclear : ¬ s.callbacks = true := by simp [h.callbacks]
        simp only [act, usbTask, hcb, if_neg hclear, Option.some.injEq] at hs
        rw [← hs]
        exact { h with usb := .inl rfl }
  | interrupt =>
      simp only [act, serialRxCb, Option.ite_none_right_eq_some, Option.some.injEq] at hs
      have hfreed : s.worker.freed = [] := by
        rw [h.isr hs.1]
        rfl
      rw [← hs.2, using_eq hfreed]
      exact h
  | tx =>
      obtain ⟨hwaiting, hcdcRx⟩ | hended := h.tx
      · simp only [act, usbSerialTxThread, hwaiting, hcdcRx, Bool.false_eq_true, if_false,
          Option.ite_none_right_eq_some, Option.some.injEq] at hs
        rw [← hs.2]
        exact { h with tx := .inr rfl }
      · simp [act, usbSerialTxThread, hended] at hs
  | worker => exact h.worker hs
  | disable =>
      simp only [act, Option.ite_none_right_eq_some, Option.some.injEq] at hs
      have hstopping := h.stopping
      rw [hs.1] at hstopping
      cases hstopping

/-- A fault may still come. -/
def CanFault (pktLen : ℕ) (s : State) : Prop :=
  ∃ s', Reach (step pktLen) (fun _ _ => True) s s' ∧ s'.fault ≠ none

theorem CanFault.here (h : s.fault ≠ none) : CanFault pktLen s := ⟨s, .start, h⟩

theorem CanFault.of_step (a : Action) (s' : State) (hs : step pktLen s a = some s')
    (h : CanFault pktLen s') : CanFault pktLen s := by
  obtain ⟨t, hreach, hfault⟩ := h
  exact ⟨t, (Reach.start.next trivial hs).trans hreach, hfault⟩

/-- The worker has taken back the callbacks, and closes the port next. -/
structure Closing (s : State) : Prop where
  worker : s.worker = .clearIsr
  callbacks : s.callbacks = false
  context : s.context = false
  txStop : s.txStop = false
  fault : s.fault = none

theorem Good.closing (h : Good s) (hw : s.worker = .clearIsr) (hnone : s.fault = none) :
    Closing s where
  worker := hw
  callbacks := by rw [h.owned.callbacks, hw]; rfl
  context := by rw [h.owned.context, hw]; rfl
  txStop := by
    cases hstop : s.txStop with
    | false => rfl
    | true =>
        have hjoin := (h.follows.txStop hstop).1
        rw [hw] at hjoin
        cases hjoin
  fault := hnone

/-- What is in hand is sent after the port was closed. -/
theorem Closing.sending (h : Closing s) {data : List UInt8} (htx : s.tx = .sending data) :
    CanFault pktLen s := by
  have hrun : runActions (step pktLen) (fun _ _ => True) s [.worker, .worker, .tx] = some
      { s with isr := false, enabled := false, worker := .clearHandle,
               fault := some .closedPort } := by
    simp [runActions, step, act, usbSerialWorker, usbSerialTxThread, h.worker, h.fault, htx,
      State.using, WorkerPc.freed]
  exact ⟨_, Reach.of_runActions hrun, by simp⟩


/-- The USB task leaves a callback, if there is no fault in it. -/
theorem Closing.leave (h : Closing s) :
    CanFault pktLen s ∨ s.usb = .away ∨
      ∃ cdcRx, (s.cdcRx = true → cdcRx = true) ∧
        step pktLen s .usb = some { s with usb := .away, cdcRx := cdcRx } := by
  have hfreed : s.worker.freed = [] := by
    rw [h.worker]
    rfl
  cases hpc : s.usb with
  | away => exact .inr (.inl rfl)
  | entered cb =>
      refine .inr (.inr ⟨s.cdcRx, id, ?_⟩)
      simp [step, act, usbTask, h.fault, hpc, h.callbacks]
  | checked cb =>
      refine .inl (CanFault.of_step .usb { s with fault := some .nullContext } ?_ (.here (by simp)))
      simp [step, act, usbTask, h.fault, hpc, h.context]
  | calling cb =>
      cases cb with
      | rx =>
          refine .inr (.inr ⟨true, fun _ => rfl, ?_⟩)
          simp [step, act, usbTask, h.fault, hpc, using_eq hfreed]
      | txComplete =>
          refine .inr (.inr ⟨s.cdcRx, id, ?_⟩)
          simp [step, act, usbTask, h.fault, hpc, using_eq hfreed]

/-- The thread is awake: what it finds is sent after the port was closed. -/
theorem Closing.woken (h : Closing s) (hlen : 0 < pktLen) (htx : s.tx = .woken)
    (husb : s.usb = .away) : CanFault pktLen s := by
  have hfreed : s.worker.freed = [] := by
    rw [h.worker]
    rfl
  have hfull : ∀ t : State, Closing t → t.worker.freed = [] → t.tx = .woken → t.fifo ≠ [] →
      CanFault pktLen t := by
    intro t ht hfreed htx hfifo
    refine CanFault.of_step .tx
      { t with fifo := t.fifo.drop pktLen, tx := .sending (t.fifo.take pktLen) } ?_ ?_
    · simp [step, act, usbSerialTxThread, ht.fault, htx, using_eq hfreed, hfifo]
    · exact Closing.sending { ht with } rfl
  by_cases hfifo : s.fifo = []
  · -- a packet comes first
    refine CanFault.of_step (.packet [0]) { s with fifo := [0], usb := .entered .rx } ?_ ?_
    · simp [step, act, h.fault, husb, hfifo]
      omega
    · exact hfull _ { h with } hfreed htx (by simp)
  · exact hfull s h hfreed htx hfifo


/-- The thread is awake, or will be. -/
theorem Closing.awake (h : Closing s) (hlen : 0 < pktLen)
    (htx : s.tx = .woken ∨ s.tx = .waiting ∧ s.cdcRx = true) : CanFault pktLen s := by
  have haway : ∀ t : State, Closing t → t.usb = .away →
      t.tx = .woken ∨ t.tx = .waiting ∧ t.cdcRx = true → CanFault pktLen t := by
    intro t ht husb htx
    obtain hwoken | ⟨hwaiting, hcdcRx⟩ := htx
    · exact ht.woken hlen hwoken husb
    · refine CanFault.of_step .tx { t with cdcRx := false, tx := .woken } ?_ ?_
      · simp [step, act, usbSerialTxThread, ht.fault, hwaiting, ht.txStop, hcdcRx]
      · exact Closing.woken { ht with } hlen rfl husb
  obtain hfault | husb | ⟨cdcRx, hkept, hstep⟩ := @Closing.leave pktLen s h
  · exact hfault
  · exact haway s h husb htx
  · refine CanFault.of_step .usb _ hstep (haway _ { h with } rfl ?_)
    exact htx.imp id fun hw => ⟨hw.1, hkept hw.2⟩

/-- A callback that is under way ends after what it uses was freed, or wakes the thread. -/
theorem Closing.calling (h : Closing s) (hlen : 0 < pktLen) (htx : s.tx = .waiting)
    (hcdcRx : s.cdcRx = false) {cb : CdcCallback} (husb : s.usb = .calling cb) :
    CanFault pktLen s := by
  cases cb with
  | rx =>
      have hfreed : s.worker.freed = [] := by
        rw [h.worker]
        rfl
      refine CanFault.of_step .usb { s with cdcRx := true, usb := .away } ?_ ?_
      · simp [step, act, usbTask, h.fault, husb, using_eq hfreed]
      · exact Closing.awake { h with } hlen (.inr ⟨htx, rfl⟩)
  | txComplete =>
      have hrun : runActions (step pktLen) (fun _ _ => True) s
          [.worker, .worker, .worker, .worker, .tx, .worker, .worker, .worker, .worker, .worker,
            .usb] = some
          { s with isr := false, enabled := false, handle := false, txStop := false,
                   tx := .ended, worker := .free .bridge, fault := some (.freed .txSem) } := by
        simp [runActions, step, act, usbSerialWorker, usbSerialTxThread, usbTask, h.worker,
          h.fault, htx, hcdcRx, husb, State.using, WorkerPc.freed, CdcCallback.objects]
      exact ⟨_, Reach.of_runActions hrun, by simp⟩

/-- **When a stop is safe.**  The worker has taken back the callbacks and closes the port next:
nothing can go wrong any more, in whatever order the parties go on, exactly if the thread that
sends waits and was not woken, and the USB task is not in a callback. -/
theorem stop_safe_iff (hlen : 0 < pktLen) (hreach : Reach (step pktLen) (fun _ _ => True) init s)
    (hw : s.worker = .clearIsr) (hnone : s.fault = none) :
    (∀ s', Reach (step pktLen) (fun _ _ => True) s s' → s'.fault = none) ↔ Quiet s := by
  have hgood := good_of_reach hreach
  have hclosing := hgood.closing hw hnone
  constructor
  · intro hsafe
    have hnot : ¬CanFault pktLen s := by
      intro hcan
      obtain ⟨s', hreach', hfault⟩ := hcan
      exact hfault (hsafe s' hreach')
    have htx := hgood.follows.tx
    rw [hw] at htx
    cases hpc : s.tx with
    | created => exact absurd hpc htx.1
    | ended => exact absurd hpc htx.2
    | woken => exact absurd (hclosing.awake hlen (.inl hpc)) hnot
    | sending data => exact absurd (hclosing.sending hpc) hnot
    | waiting =>
        cases hcdcRx : s.cdcRx with
        | true => exact absurd (hclosing.awake hlen (.inr ⟨hpc, hcdcRx⟩)) hnot
        | false =>
            refine ⟨hpc, hcdcRx, ?_⟩
            cases husb : s.usb with
            | away => exact .inl rfl
            | entered cb => exact .inr ⟨cb, rfl⟩
            | calling cb => exact absurd (hclosing.calling hlen hpc hcdcRx husb) hnot
            | checked cb =>
                obtain hcan | haway | ⟨_, -, hstep⟩ := @Closing.leave pktLen s hclosing
                · exact absurd hcan hnot
                · rw [husb] at haway
                  cases haway
                · simp [step, act, usbTask, hnone, husb, hclosing.context] at hstep
  · intro hquiet s' hreach'
    have hsafe : Safe s :=
      { callbacks := hclosing.callbacks
        tx := .inl ⟨hquiet.1, hquiet.2.1⟩
        usb := hquiet.2.2
        isr := fun _ => hw
        stopping := by rw [hw]; rfl
        fault := hnone }
    have hend : Safe s' := hreach'.invariant hsafe fun _ _ _ h _ hs => safe_step h hs
    exact hend.fault

/-- A bridge that was never used is stopped. -/
theorem unused_bridge_stops : ∃ s, Reach (step 64) (fun _ _ => True) init s ∧
    s.worker = .clearIsr ∧
    ∀ s', Reach (step 64) (fun _ _ => True) s s' → s'.fault = none := by
  have hreach : Reach (step 64) (fun _ _ => True) init _ :=
    @Reach.of_runActions _ _ _ _ _ [.worker, .worker, .worker, .worker, .worker, .disable,
      .worker, .worker] _ _ rfl
  exact ⟨_, hreach, rfl, (stop_safe_iff (by decide) hreach rfl rfl).mpr ⟨rfl, rfl, .inl rfl⟩⟩

end RhsCore.SerialStop
