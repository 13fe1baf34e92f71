import Mathlib.Data.Nat.Notation
import RhsCore.Lib.Transition

/-!
# Who is told about a reception

`rhs_hal_serial.c` with the interrupt callbacks of `hal_rs232.c` and `hal_rs485.c`: a
reception is by bytes or by DMA, each with a callback of its own, and the callbacks are chosen
by whether there is a buffer for the DMA.  That pointer is only taken away when a reception by
DMA is configured.

A call that asserts or crashes stops the run.  Callbacks and their contexts are numbers.

## Main definitions

* `rhsHalSerialAsyncRxStart`, `rhsHalSerialAsyncRxDmaConfigure`, ... — the calls.
* `irqCallback` — who is called in an interrupt.
* `always_delivers_iff` — when it is the callback that was given last.
-/

namespace RhsCore.SerialRx

/-- A port: RS-232 or RS-485, of the boards with DMA or of the small one. -/
structure Port where
  rs485 : Bool
  bmplcM : Bool
  deriving DecidableEq, Repr

/-- A callback as it was given, with its context. -/
inductive Registration
  | byte (callback context : ℕ)
  | dma (callback context : ℕ)
  deriving DecidableEq, Repr

/-- `RHSHalSerial`, and which interrupts have `rhs_hal_rs485_rx_irq_callback` or its sibling.
`registered` is what was given last since the port was opened, and `started` whether a
reception by DMA was started since. -/
structure State where
  bufferRxPtr : UInt32
  enabled : Bool
  rxByteCallback : Option ℕ
  rxDmaCallback : Option ℕ
  rxContext : ℕ
  usartIsr : Bool
  dmaRxIsr : Bool
  registered : Option Registration
  started : Bool
  deriving DecidableEq, Repr

/-- `rhs_hal_serial` is zeroed. -/
def init : State where
  bufferRxPtr := 0
  enabled := false
  rxByteCallback := none
  rxDmaCallback := none
  rxContext := 0
  usartIsr := false
  dmaRxIsr := false
  registered := none
  started := false

def rhsHalSerialInit (s : State) : Option State :=
  if s.enabled then none else some { s with enabled := true }

/-- On the small board `rhs_hal_rs485_async_tx_dma_stop` is not implemented. -/
def rhsHalSerialDeinit (port : Port) (s : State) : Option State :=
  if s.enabled then
    if port.rs485 then
      if port.bmplcM then none
      else
        some { s with
          usartIsr := false
          dmaRxIsr := false
          enabled := false
          registered := none
          started := false }
    else
      some { s with usartIsr := false, enabled := false, registered := none, started := false }
  else none

/-- The interrupt must not have a handler yet. -/
def rhsHalSerialAsyncRxStart (callback context : ℕ) (s : State) : Option State :=
  if s.enabled then
    if s.usartIsr then none
    else
      some { s with
        rxByteCallback := some callback
        rxDmaCallback := none
        rxContext := context
        usartIsr := true
        registered := some (.byte callback context)
        started := false }
  else none

/-- The interrupt of the USART loses its handler, and that of the DMA gets one. -/
def rhsHalSerialAsyncRxDmaConfigure (port : Port) (callback context : ℕ) (s : State) :
    Option State :=
  if s.enabled ∧ port.rs485 then
    if s.dmaRxIsr then none
    else if port.bmplcM then none
    else
      some { s with
        bufferRxPtr := 0
        rxByteCallback := none
        rxDmaCallback := some callback
        rxContext := context
        usartIsr := false
        dmaRxIsr := true
        registered := some (.dma callback context)
        started := false }
  else none

def rhsHalSerialAsyncRxDmaStart (port : Port) (buffer : UInt32) (s : State) : Option State :=
  if port.rs485 then
    if port.bmplcM then none else some { s with bufferRxPtr := buffer, started := true }
  else none

inductive Call
  | init
  | deinit
  | asyncRxStart (callback context : ℕ)
  | asyncRxDmaConfigure (callback context : ℕ)
  | asyncRxDmaStart (buffer : UInt32)
  deriving DecidableEq, Repr

def step (port : Port) (s : State) : Call → Option State
  | .init => rhsHalSerialInit s
  | .deinit => rhsHalSerialDeinit port s
  | .asyncRxStart callback context => rhsHalSerialAsyncRxStart callback context s
  | .asyncRxDmaConfigure callback context =>
      rhsHalSerialAsyncRxDmaConfigure port callback context s
  | .asyncRxDmaStart buffer => rhsHalSerialAsyncRxDmaStart port buffer s

/-- Who is called in an interrupt of a reception, without an error of the DMA. -/
def irqCallback (s : State) : Option Registration :=
  if s.bufferRxPtr = 0 then s.rxByteCallback.map fun callback => .byte callback s.rxContext
  else s.rxDmaCallback.map fun callback => .dma callback s.rxContext

/-! ## Every order of calls -/

/-- A reception by bytes that was asked for, or one by DMA that was started, has its interrupt
and is told to the callback that was given for it. -/
def Delivers (s : State) : Prop :=
  match s.registered with
  | none => True
  | some (.byte callback context) =>
      s.usartIsr = true ∧ irqCallback s = some (.byte callback context)
  | some (.dma callback context) =>
      s.started = true → s.dmaRxIsr = true ∧ irqCallback s = some (.dma callback context)

/-- Bytes are asked for while there is no buffer, and a buffer is given for a reception by DMA
only, or while there is none. -/
def Allowed (s : State) : Call → Prop
  | .asyncRxStart _ _ => s.bufferRxPtr = 0
  | .asyncRxDmaStart buffer =>
      match s.registered with
      | none => True
      | some (.byte _ _) => buffer = 0
      | some (.dma _ _) => buffer ≠ 0
  | _ => True

/-- What was given last is in its place. -/
def Valid (s : State) : Prop :=
  match s.registered with
  | none => True
  | some (.byte callback context) => s.enabled = true ∧ s.usartIsr = true ∧
      s.rxByteCallback = some callback ∧ s.rxDmaCallback = none ∧ s.rxContext = context
  | some (.dma callback context) => s.enabled = true ∧ s.dmaRxIsr = true ∧
      s.rxByteCallback = none ∧ s.rxDmaCallback = some callback ∧ s.rxContext = context

variable {port : Port} {s s' : State}

theorem step_init (hs : step port s .init = some s') :
    s.enabled = false ∧ s' = { s with enabled := true } := by
  simp only [step, rhsHalSerialInit] at hs
  split at hs
  · cases hs
  · rename_i henabled
    exact ⟨Bool.not_eq_true _ ▸ henabled, (Option.some.inj hs).symm⟩

theorem step_deinit (hs : step port s .deinit = some s') : s'.registered = none := by
  simp only [step, rhsHalSerialDeinit] at hs
  split at hs
  · split at hs
    · split at hs
      · cases hs
      · rw [← Option.some.inj hs]
    · rw [← Option.some.inj hs]
  · cases hs

theorem step_asyncRxStart {callback context : ℕ}
    (hs : step port s (.asyncRxStart callback context) = some s') :
    s.enabled = true ∧ s' = { s with
      rxByteCallback := some callback
      rxDmaCallback := none
      rxContext := context
      usartIsr := true
      registered := some (.byte callback context)
      started := false } := by
  simp only [step, rhsHalSerialAsyncRxStart] at hs
  split at hs
  · rename_i henabled
    split at hs
    · cases hs
    · exact ⟨henabled, (Option.some.inj hs).symm⟩
  · cases hs

theorem step_asyncRxDmaConfigure {callback context : ℕ}
    (hs : step port s (.asyncRxDmaConfigure callback context) = some s') :
    s.enabled = true ∧ s' = { s with
      bufferRxPtr := 0
      rxByteCallback := none
      rxDmaCallback := some callback
      rxContext := context
      usartIsr := false
      dmaRxIsr := true
      registered := some (.dma callback context)
      started := false } := by
  simp only [step, rhsHalSerialAsyncRxDmaConfigure] at hs
  split at hs
  · rename_i henabled
    split at hs
    · cases hs
    · split at hs
      · cases hs
      · exact ⟨henabled.1, (Option.some.inj hs).symm⟩
  · cases hs

theorem step_asyncRxDmaStart {buffer : UInt32}
    (hs : step port s (.asyncRxDmaStart buffer) = some s') :
    s' = { s with bufferRxPtr := buffer, started := true } := by
  simp only [step, rhsHalSerialAsyncRxDmaStart] at hs
  split at hs
  · split at hs
    · cases hs
    · exact (Option.some.inj hs).symm
  · cases hs

theorem valid_init : Valid init := trivial

theorem delivers_init : Delivers init := trivial

theorem valid_step {c : Call} (h : Valid s) (hs : step port s c = some s') : Valid s' := by
  cases c with
  | init =>
      obtain ⟨henabled, rfl⟩ := step_init hs
      cases hr : s.registered with
      | none => simp [Valid]
      | some r =>
          -- nothing is registered with a port that is closed
          cases r <;> simp [Valid, hr, henabled] at h
  | deinit => simp [Valid, step_deinit hs]
  | asyncRxStart callback context =>
      obtain ⟨henabled, rfl⟩ := step_asyncRxStart hs
      exact ⟨henabled, rfl, rfl, rfl, rfl⟩
  | asyncRxDmaConfigure callback context =>
      obtain ⟨henabled, rfl⟩ := step_asyncRxDmaConfigure hs
      exact ⟨henabled, rfl, rfl, rfl, rfl⟩
  | asyncRxDmaStart buffer =>
      rw [step_asyncRxDmaStart hs]
      exact h

/-- The step condition. -/
theorem delivers_step_iff {c : Call} (h : Valid s) (hd : Delivers s)
    (hs : step port s c = some s') : Delivers s' ↔ Allowed s c := by
  cases c with
  | init =>
      obtain ⟨-, rfl⟩ := step_init hs
      exact iff_of_true hd trivial
  | deinit =>
      refine iff_of_true ?_ trivial
      simp [Delivers, step_deinit hs]
  | asyncRxStart callback context =>
      obtain ⟨-, rfl⟩ := step_asyncRxStart hs
      by_cases hbuffer : s.bufferRxPtr = 0
      · simp [Delivers, Allowed, irqCallback, hbuffer]
      · simp [Delivers, Allowed, irqCallback, hbuffer]
  | asyncRxDmaConfigure callback context =>
      obtain ⟨-, rfl⟩ := step_asyncRxDmaConfigure hs
      exact iff_of_true (fun hstarted => Bool.noConfusion hstarted) trivial
  | asyncRxDmaStart buffer =>
      rw [step_asyncRxDmaStart hs]
      cases hr : s.registered with
      | none => simp [Delivers, Allowed, hr]
      | some r =>
          cases r with
          | byte callback context =>
              simp only [Valid, hr] at h
              obtain ⟨-, hisr, hbyte, hdma, hcontext⟩ := h
              by_cases hbuffer : buffer = 0
              · simp [Delivers, Allowed, irqCallback, hr, hisr, hbyte, hcontext, hbuffer]
              · simp [Delivers, Allowed, irqCallback, hr, hdma, hbuffer]
          | dma callback context =>
              simp only [Valid, hr] at h
              obtain ⟨-, hisr, hbyte, hdma, hcontext⟩ := h
              by_cases hbuffer : buffer = 0
              · simp [Delivers, Allowed, irqCallback, hr, hbyte, hbuffer]
              · simp [Delivers, Allowed, irqCallback, hr, hisr, hdma, hcontext, hbuffer]

/-- **The right callback is called**: after every one of the calls, each reception has its
interrupt and is told to the callback that was given for it last, exactly if bytes were only
asked for without a buffer and a buffer was only given for DMA, or while nothing was
received. -/
theorem always_delivers_iff (port : Port) (calls : List Call) :
    Always (step port) Delivers init calls ↔ Each (step port) Allowed init calls :=
  always_iff_each (fun _ _ _ h hs => valid_step h hs)
    (fun _ _ _ h hd hs => delivers_step_iff h hd hs) valid_init delivers_init calls

/-- The buffer of a reception by DMA is still there when the port is opened again, so that
bytes are told to nobody. -/
example : ∃ s, runActions (step ⟨true, false⟩) (fun _ _ => True) init
    [.init, .asyncRxDmaConfigure 1 0, .asyncRxDmaStart 0x20000000, .deinit, .init,
      .asyncRxStart 2 0] = some s ∧ s.usartIsr = true ∧ irqCallback s = none :=
  ⟨_, rfl, rfl, rfl⟩

end RhsCore.SerialRx
