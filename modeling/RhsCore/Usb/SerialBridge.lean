import RhsCore.Lib.Flags
import RhsCore.Lib.Transition

/-!
# From the serial port to the USB bridge

`rhs_hal_rs485_rx_irq_callback` as it is built for `BMPLC_XL` and `BMPLC_L`, with
`serial_rx_cb` of `usb_serial_bridge.c` as its callback.  The mask of events is sampled
first.  The callback reads the data register whatever the mask is, and reads it again, for
the stream, if the mask has data.

A byte can arrive between any two accesses.  One that arrives while RXNE is set is an
overrun and not followed here.

## Main definitions

* `Usart` — the receiver of the UART.
* `rhsHalRs485RxIrqCallback`, `serialRxCb` — the next step of the handler.
* `Delivered` — what was received was sent once and in order, or is still to be sent.
* `always_delivered_iff` — the runs in which it always is.
-/

namespace RhsCore.SerialBridge

/-! ## The receiver -/

/-- A flag of the UART other than RXNE. -/
inductive UsartFlag
  | idle
  | ore
  | ne
  | fe
  | pe
  deriving DecidableEq, Repr

/-- The data register, which keeps its byte when it is read, and the flags. -/
structure Usart where
  rdr : UInt8
  rxne : Bool
  flags : List UsartFlag
  deriving DecidableEq, Repr

/-- A byte arrives. -/
def Usart.arrive (u : Usart) (byte : UInt8) : Usart := { u with rdr := byte, rxne := true }

/-- `LL_USART_ReceiveData8`: reading clears RXNE. -/
def Usart.receiveData8 (u : Usart) : UInt8 × Usart := (u.rdr, { u with rxne := false })

/-- Writing the bit of a flag into ICR. -/
def Usart.clear (u : Usart) (flag : UsartFlag) : Usart :=
  { u with flags := u.flags.filter fun f => decide (f ≠ flag) }

/-! ## The handler -/

/-- `RHSHalSerialRxEvent`. -/
def rxEventData : UInt32 := 0x01
def rxEventIdle : UInt32 := 0x02
def rxEventFrameError : UInt32 := 0x04
def rxEventNoiseError : UInt32 := 0x08
def rxEventOverrunError : UInt32 := 0x10

/-- The event that a flag is reported as. -/
def UsartFlag.event : UsartFlag → UInt32
  | .idle => rxEventIdle
  | .ore => rxEventOverrunError
  | .ne => rxEventNoiseError
  | .fe => rxEventFrameError
  | .pe => rxEventFrameError

/-- Where the handler is. -/
inductive Pc
  /-- No interrupt is being handled. -/
  | away
  /-- Before RXNE is sampled. -/
  | entered
  /-- Before the first of these flags is sampled. -/
  | sampling (event : UInt32) (rest : List UsartFlag)
  /-- In the callback, before the read whose byte is dropped. -/
  | reading (event : UInt32)
  /-- Behind that read. -/
  | testing (event : UInt32)
  /-- Before the read whose byte is sent. -/
  | rereading
  /-- Before `rhs_stream_buffer_send`. -/
  | sending (data : UInt8)
  /-- Before `rhs_thread_flags_set`. -/
  | signalling
  deriving DecidableEq, Repr

/-- The receiver and the handler.  `received` are the bytes that arrived; `sent` are those
given to the stream, each with whether there was space for it. -/
structure State where
  usart : Usart
  pc : Pc
  rxDone : Bool
  sent : List (UInt8 × Bool)
  received : List UInt8
  deriving DecidableEq, Repr

/-- Reception is started; the data register holds anything. -/
def init (rdr : UInt8) : State where
  usart := { rdr := rdr, rxne := false, flags := [] }
  pc := .away
  rxDone := false
  sent := []
  received := []

/-- `rhs_hal_serial_async_rx` of the RS-485 port, which is enabled while its handler runs. -/
abbrev rhsHalSerialAsyncRx (u : Usart) : UInt8 × Usart := u.receiveData8

/-- The next step of `serial_rx_cb`; `space` is whether the stream has space. -/
def serialRxCb (space : Bool) (s : State) : Option State :=
  match s.pc with
  | .reading event => some { s with usart := (rhsHalSerialAsyncRx s.usart).2, pc := .testing event }
  | .testing event =>
      some { s with pc := if event &&& rxEventData ≠ 0 then .rereading else .away }
  | .rereading =>
      let (data, usart) := rhsHalSerialAsyncRx s.usart
      some { s with usart := usart, pc := .sending data }
  | .sending data => some { s with sent := s.sent ++ [(data, space)], pc := .signalling }
  | .signalling => some { s with rxDone := true, pc := .away }
  | .away => none
  | .entered => none
  | .sampling _ _ => none

/-- The next step of `rhs_hal_rs485_rx_irq_callback`, and of its callback. -/
def rhsHalRs485RxIrqCallback (space : Bool) (s : State) : Option State :=
  match s.pc with
  | .entered =>
      some { s with
        pc := .sampling (if s.usart.rxne then rxEventData else 0) [.idle, .ore, .ne, .fe, .pe] }
  | .sampling event (flag :: rest) =>
      some (if flag ∈ s.usart.flags then
        { s with usart := s.usart.clear flag, pc := .sampling (event ||| flag.event) rest }
      else { s with pc := .sampling event rest })
  | .sampling event [] => some { s with pc := .reading event }
  | .reading _ => serialRxCb space s
  | .testing _ => serialRxCb space s
  | .rereading => serialRxCb space s
  | .sending _ => serialRxCb space s
  | .signalling => serialRxCb space s
  | .away => none

/-- Who goes next: the line, the UART's other flags, the interrupt controller, the handler. -/
inductive Action
  | arrive (byte : UInt8)
  | raise (flag : UsartFlag)
  | interrupt
  | handler (space : Bool)
  deriving DecidableEq, Repr

def step (s : State) : Action → Option State
  | .arrive byte =>
      if s.usart.rxne then none
      else some { s with usart := s.usart.arrive byte, received := s.received ++ [byte] }
  | .raise flag => some { s with usart := { s.usart with flags := flag :: s.usart.flags } }
  | .interrupt =>
      if s.pc = .away ∧ (s.usart.rxne = true ∨ s.usart.flags ≠ []) then
        some { s with pc := .entered }
      else none
  | .handler space => rhsHalRs485RxIrqCallback space s

/-! ## What is on its way -/

/-- A byte that has not been read. -/
def Usart.unread (u : Usart) : List UInt8 := if u.rxne then [u.rdr] else []

/-- The mask of the callback has data. -/
def HasData (event : UInt32) : Prop := event &&& rxEventData ≠ 0

instance (event : UInt32) : Decidable (HasData event) := inferInstanceAs (Decidable (_ ≠ _))

/-- Behind the first read with data in the mask: the second read is still to come. -/
def BetweenReads : Pc → Prop
  | .testing event => HasData event
  | .rereading => True
  | _ => False

/-- The bytes that arrived and are not sent yet. -/
def State.pending (s : State) : List UInt8 :=
  match s.pc with
  | .testing event => if HasData event then [s.usart.rdr] else s.usart.unread
  | .rereading => [s.usart.rdr]
  | .sending data => data :: s.usart.unread
  | .away => s.usart.unread
  | .entered => s.usart.unread
  | .sampling _ _ => s.usart.unread
  | .reading _ => s.usart.unread
  | .signalling => s.usart.unread

/-- **Delivery**: what arrived has been given to the stream, once and in the order of arrival,
but for what is pending. -/
def Delivered (s : State) : Prop := s.sent.map (·.1) ++ s.pending = s.received

instance (s : State) : Decidable (Delivered s) := inferInstanceAs (Decidable (_ = _))

/-- The byte that the mask tells of is still there up to the first read. -/
def Sampled (s : State) : Prop :=
  match s.pc with
  | .sampling event _ => HasData event → s.usart.rxne = true
  | .reading event => HasData event → s.usart.rxne = true
  | _ => True

/-- What must not happen: a byte arrives between the two reads, or the byte that the first
read drops arrived after the mask was sampled. -/
def Allowed (s : State) : Action → Prop
  | .arrive _ => ¬ BetweenReads s.pc
  | .raise _ => True
  | .interrupt => True
  | .handler _ => ∀ event, s.pc = .reading event → HasData event ∨ s.usart.rxne = false

/-! ## One step -/

theorem not_hasData_zero : ¬ HasData 0 := by decide

/-- No other flag puts data into the mask. -/
theorem hasData_or_event (event : UInt32) (flag : UsartFlag) :
    HasData (event ||| flag.event) ↔ HasData event := by
  have hother : flag.event &&& rxEventData = 0 := by cases flag <;> decide
  have hmask : (event ||| flag.event) &&& rxEventData = event &&& rxEventData := by
    apply eq_of_hasFlag
    intro i
    have hnot : ¬(HasFlag flag.event i ∧ HasFlag rxEventData i) := by
      rw [← hasFlag_and, hother]
      exact not_hasFlag_zero
    simp only [hasFlag_and, hasFlag_or]
    constructor
    · rintro ⟨h | h, hdata⟩
      · exact ⟨h, hdata⟩
      · exact absurd ⟨h, hdata⟩ hnot
    · rintro ⟨h, hdata⟩
      exact ⟨.inl h, hdata⟩
  rw [HasData, hmask]
  rfl

variable {s s' : State}

@[simp] theorem unread_arrive (u : Usart) (byte : UInt8) : (u.arrive byte).unread = [byte] := rfl

@[simp] theorem rdr_receiveData8 (u : Usart) : u.receiveData8.2.rdr = u.rdr := rfl

@[simp] theorem unread_receiveData8 (u : Usart) : u.receiveData8.2.unread = [] := rfl

@[simp] theorem unread_clear (u : Usart) (flag : UsartFlag) : (u.clear flag).unread = u.unread :=
  rfl

theorem unread_of_rxne {u : Usart} (h : u.rxne = true) : u.unread = [u.rdr] := if_pos h

theorem unread_of_not_rxne {u : Usart} (h : u.rxne = false) : u.unread = [] := by
  rw [Usart.unread, h]
  rfl

/-- An arrival: RXNE was clear. -/
theorem step_arrive {byte : UInt8} (hs : step s (.arrive byte) = some s') :
    s.usart.rxne = false ∧
      s' = { s with usart := s.usart.arrive byte, received := s.received ++ [byte] } := by
  simp only [step] at hs
  split at hs
  · cases hs
  · rename_i hrxne
    exact ⟨Bool.not_eq_true _ ▸ hrxne, (Option.some.inj hs).symm⟩

theorem step_interrupt (hs : step s .interrupt = some s') :
    s.pc = .away ∧ s' = { s with pc := .entered } := by
  simp only [step] at hs
  split at hs
  · rename_i h
    exact ⟨h.1, (Option.some.inj hs).symm⟩
  · cases hs

/-- The handler samples RXNE first, and the other flags do not bear on it. -/
theorem sampled_handler {space : Bool} (h : Sampled s) (hs : step s (.handler space) = some s') :
    Sampled s' := by
  obtain ⟨u, pc, rxDone, sent, received⟩ := s
  cases pc with
  | away => cases hs
  | entered =>
      cases hs
      change HasData (if u.rxne then rxEventData else 0) → u.rxne = true
      split
      · exact fun _ => ‹_›
      · exact fun hdata => absurd hdata not_hasData_zero
  | sampling event rest =>
      cases rest with
      | nil =>
          cases hs
          exact h
      | cons flag rest =>
          obtain rfl := Option.some.inj hs
          dsimp only
          split
          · intro hdata
            exact h ((hasData_or_event event flag).mp hdata)
          · exact h
  | reading event =>
      cases hs
      trivial
  | testing event =>
      obtain rfl := Option.some.inj hs
      by_cases hdata : event &&& rxEventData ≠ 0
      · simp only [Sampled, if_pos hdata]
      · simp only [Sampled, if_neg hdata]
  | rereading =>
      cases hs
      trivial
  | sending data =>
      cases hs
      trivial
  | signalling =>
      cases hs
      trivial

/-- The byte of the mask stays until the first read. -/
theorem sampled_step {a : Action} (h : Sampled s) (hs : step s a = some s') : Sampled s' := by
  cases a with
  | arrive byte =>
      obtain ⟨-, rfl⟩ := step_arrive hs
      unfold Sampled
      split
      · exact fun _ => rfl
      · exact fun _ => rfl
      · trivial
  | raise flag =>
      cases hs
      exact h
  | interrupt =>
      obtain ⟨-, rfl⟩ := step_interrupt hs
      trivial
  | handler space => exact sampled_handler h hs

/-! ## When everything is delivered -/

/-- Between the two reads one byte is pending, in the data register. -/
theorem pending_of_between (h : BetweenReads s.pc) : s.pending = [s.usart.rdr] := by
  obtain ⟨u, pc, rxDone, sent, received⟩ := s
  cases pc with
  | testing event => exact if_pos h
  | rereading => rfl
  | away => cases h
  | entered => cases h
  | sampling event rest => cases h
  | reading event => cases h
  | sending data => cases h
  | signalling => cases h

/-- Elsewhere a byte that arrives is put behind what is pending. -/
theorem pending_arrive (h : ¬ BetweenReads s.pc) (hrxne : s.usart.rxne = false) (byte : UInt8)
    (received : List UInt8) :
    ({ s with usart := s.usart.arrive byte, received := received } : State).pending
      = s.pending ++ [byte] := by
  obtain ⟨u, pc, rxDone, sent, received'⟩ := s
  have hunread : u.unread = [] := unread_of_not_rxne hrxne
  cases pc with
  | testing event =>
      have hdata : ¬ HasData event := h
      simp only [State.pending, if_neg hdata, hunread, unread_arrive, List.nil_append]
  | rereading => exact absurd trivial h
  | sending data =>
      simp only [State.pending, hunread, unread_arrive, List.cons_append, List.nil_append]
  | away => simp only [State.pending, hunread, unread_arrive, List.nil_append]
  | entered => simp only [State.pending, hunread, unread_arrive, List.nil_append]
  | sampling event rest =>
      simp only [State.pending, hunread, unread_arrive, List.nil_append]
  | reading event => simp only [State.pending, hunread, unread_arrive, List.nil_append]
  | signalling => simp only [State.pending, hunread, unread_arrive, List.nil_append]

theorem delivered_arrive_iff {byte : UInt8} (hd : Delivered s)
    (hs : step s (.arrive byte) = some s') : Delivered s' ↔ Allowed s (.arrive byte) := by
  obtain ⟨hrxne, rfl⟩ := step_arrive hs
  rw [Delivered] at hd
  constructor
  · intro hd' hbetween
    have hpending := pending_of_between hbetween
    have hpending' : ({ s with
        usart := s.usart.arrive byte
        received := s.received ++ [byte] } : State).pending = [byte] := pending_of_between hbetween
    rw [Delivered, hpending', ← hd, hpending] at hd'
    have hlength := congrArg List.length hd'
    simp at hlength
  · intro hnot
    rw [Delivered, pending_arrive hnot hrxne, ← hd, List.append_assoc]

/-- The first read drops a byte that is there, unless the mask tells of it and it is read
again. -/
theorem delivered_reading_iff {space : Bool} {event : UInt32} (hpc : s.pc = .reading event)
    (h : Sampled s) (hd : Delivered s) (hs : step s (.handler space) = some s') :
    Delivered s' ↔ Allowed s (.handler space) := by
  obtain ⟨u, pc, rxDone, sent, received⟩ := s
  cases hpc
  cases hs
  by_cases hdata : HasData event
  · -- the byte stays in the register, where it is read again
    have hrxne : u.rxne = true := h hdata
    refine iff_of_true ?_ fun event' heq => ?_
    · simp only [Delivered, State.pending, unread_of_rxne hrxne] at hd
      simpa only [Delivered, State.pending, if_pos hdata, rdr_receiveData8] using hd
    · cases heq
      exact .inl hdata
  · have hallowed : Allowed ⟨u, .reading event, rxDone, sent, received⟩ (.handler space) ↔
        u.rxne = false := by
      constructor
      · intro hall
        exact (hall event rfl).resolve_left hdata
      · intro hrxne event' _
        exact .inr hrxne
    rw [hallowed]
    simp only [Delivered, State.pending] at hd
    simp only [Delivered, State.pending, if_neg hdata, unread_receiveData8, List.append_nil,
      ← hd]
    cases hrxne : u.rxne with
    | true => simp [unread_of_rxne hrxne]
    | false => simp [unread_of_not_rxne hrxne]

/-- Looking at the mask sends nothing and drops nothing. -/
theorem delivered_testing {space : Bool} {event : UInt32} (hpc : s.pc = .testing event)
    (hd : Delivered s) (hs : step s (.handler space) = some s') : Delivered s' := by
  obtain ⟨u, pc, rxDone, sent, received⟩ := s
  cases hpc
  obtain rfl := Option.some.inj hs
  by_cases hdata : HasData event
  · simp only [Delivered, State.pending, if_pos hdata] at hd
    simpa only [Delivered, State.pending, if_pos (show event &&& rxEventData ≠ 0 from hdata)]
      using hd
  · simp only [Delivered, State.pending, if_neg hdata] at hd
    simpa only [Delivered, State.pending, if_neg (show ¬ event &&& rxEventData ≠ 0 from hdata)]
      using hd

/-- The handler passes every byte on, but for one that its first read drops. -/
theorem delivered_handler_iff {space : Bool} (h : Sampled s) (hd : Delivered s)
    (hs : step s (.handler space) = some s') :
    Delivered s' ↔ Allowed s (.handler space) := by
  have hallowed (hpc : ∀ event, s.pc ≠ .reading event) : Allowed s (.handler space) :=
    fun event heq => absurd heq (hpc event)
  obtain ⟨u, pc, rxDone, sent, received⟩ := s
  cases pc with
  | away => cases hs
  | entered =>
      cases hs
      exact iff_of_true hd (hallowed (by simp))
  | sampling event rest =>
      refine iff_of_true ?_ (hallowed (by simp))
      cases rest with
      | nil =>
          cases hs
          exact hd
      | cons flag rest =>
          obtain rfl := Option.some.inj hs
          dsimp only
          split
          · exact hd
          · exact hd
  | reading event => exact delivered_reading_iff rfl h hd hs
  | testing event => exact iff_of_true (delivered_testing rfl hd hs) (hallowed (by simp))
  | rereading =>
      refine iff_of_true ?_ (hallowed (by simp))
      cases hs
      exact hd
  | sending data =>
      refine iff_of_true ?_ (hallowed (by simp))
      cases hs
      simp only [Delivered, State.pending, List.map_append, List.map_cons, List.map_nil] at hd ⊢
      rw [← hd, List.append_assoc]
      rfl
  | signalling =>
      refine iff_of_true ?_ (hallowed (by simp))
      cases hs
      exact hd

/-- **Exactly when nothing is lost**: in every order of arrivals, interrupts and steps of the
handler, every byte is sent once and in order in every state if and only if none arrives
between the two reads and none that the mask does not tell of is there at the first. -/
theorem always_delivered_iff (rdr : UInt8) (as : List Action) :
    Always step Delivered (init rdr) as ↔ Each step Allowed (init rdr) as := by
  have hsampled : Sampled (init rdr) := trivial
  have hdelivered : Delivered (init rdr) := rfl
  refine always_iff_each (fun s a s' => sampled_step) ?_ hsampled hdelivered as
  intro s a s' h hd hs
  cases a with
  | arrive byte => exact delivered_arrive_iff hd hs
  | raise flag =>
      cases hs
      exact iff_of_true hd trivial
  | interrupt =>
      obtain ⟨hpc, rfl⟩ := step_interrupt hs
      refine iff_of_true ?_ trivial
      simpa only [Delivered, State.pending, hpc] using hd
  | handler space => exact delivered_handler_iff h hd hs

/-- **Lost between the two reads**: the second byte takes the place of the first. -/
theorem arrival_between_reads_loses_byte :
    ∃ s, runActions step (fun _ _ => True) (init 0)
        [.arrive 0x41, .interrupt, .handler true, .handler true, .handler true, .handler true,
          .handler true, .handler true, .handler true, .handler true, .arrive 0x42,
          .handler true, .handler true, .handler true, .handler true] = some s ∧
      s.received = [0x41, 0x42] ∧ s.sent = [(0x42, true)] ∧ s.pc = .away ∧
      s.usart.rxne = false := by
  refine ⟨_, rfl, ?_⟩
  decide

end RhsCore.SerialBridge
