import RhsCore.Lib.Transition
import Mathlib.Data.List.Basic

/-!
# From the USB host to the serial port

`usb_serial_tx_thread` of `usb_serial_bridge.c` with `vcp_on_cdc_rx`.  The USB task puts a
packet into the FIFO and then calls `vcp_on_cdc_rx`; the thread takes everything that is
there when it is woken.  FIFO and read have the same size, `CFG_TUD_CDC_RX_BUFSIZE`.

The callbacks are registered before the thread is started, and flags that were set for a
thread that has no task yet are gone when its task is created.

## Main definitions

* `usbSerialTxThread` — the next step of the thread.
* `Flows` — every byte is sent in order, and none is left behind.
* `always_flows_iff` — the runs in which it always holds.
-/

namespace RhsCore.SerialTx

/-! ## The threads -/

/-- Where `usb_serial_tx_thread` is. -/
inductive TxPc
  /-- It has not been started. -/
  | created
  /-- In `rhs_thread_flags_wait`. -/
  | waiting
  /-- Before `rhs_hal_cdc_receive`. -/
  | woken
  /-- Before `rhs_hal_serial_tx`. -/
  | sending (data : List UInt8)
  deriving DecidableEq, Repr

/-- The bridge.  `calling` is whether the USB task is about to call `vcp_on_cdc_rx`;
`received` are the bytes that were put into the FIFO, and `sent` those given to
`rhs_hal_serial_tx`. -/
structure State where
  fifo : List UInt8
  cdcRx : Bool
  tx : TxPc
  calling : Bool
  txCnt : UInt32
  received : List UInt8
  sent : List UInt8
  deriving DecidableEq, Repr

/-- The worker has registered the callbacks and set `WorkerEvtCdcRx`. -/
def init : State where
  fifo := []
  cdcRx := true
  tx := .created
  calling := false
  txCnt := 0
  received := []
  sent := []

/-- The next step of `usb_serial_tx_thread`. -/
def usbSerialTxThread (pktLen : ℕ) (s : State) : Option State :=
  match s.tx with
  | .created => none
  | .waiting => if s.cdcRx then some { s with cdcRx := false, tx := .woken } else none
  | .woken =>
      if s.fifo = [] then some { s with tx := .waiting }
      else some { s with fifo := s.fifo.drop pktLen, tx := .sending (s.fifo.take pktLen) }
  | .sending data =>
      some { s with
        txCnt := s.txCnt + .ofNat data.length
        sent := s.sent ++ data
        tx := .waiting }

/-- Who goes next: the USB task with a packet, and with its call; `rhs_thread_start`; the
thread. -/
inductive Action
  | packet (bytes : List UInt8)
  | cdcRx
  | start
  | thread
  deriving DecidableEq, Repr

def step (pktLen : ℕ) (s : State) : Action → Option State
  | .packet bytes =>
      if s.calling = false ∧ bytes ≠ [] ∧ s.fifo.length + bytes.length ≤ pktLen then
        some { s with
          fifo := s.fifo ++ bytes
          received := s.received ++ bytes
          calling := true }
      else none
  | .cdcRx => if s.calling then some { s with cdcRx := true, calling := false } else none
  | .start =>
      match s.tx with
      | .created => some { s with tx := .waiting, cdcRx := false }
      | _ => none
  | .thread => usbSerialTxThread pktLen s

/-! ## What flows -/

/-- The bytes that the thread has in hand. -/
def TxPc.held : TxPc → List UInt8
  | .sending data => data
  | .created | .waiting | .woken => []

/-- The thread waits, and nothing is about to wake it. -/
def State.Rests (s : State) : Prop := s.tx = .waiting ∧ s.cdcRx = false ∧ s.calling = false

/-- Every byte is sent, in hand or in the FIFO, in order; and when the thread rests, every
byte is sent. -/
structure Flows (s : State) : Prop where
  ordered : s.sent ++ s.tx.held ++ s.fifo = s.received
  complete : s.Rests → s.sent = s.received

/-- What holds in any case: a read leaves nothing in the FIFO, and what comes later is
announced. -/
structure Valid (pktLen : ℕ) (s : State) : Prop where
  ordered : s.sent ++ s.tx.held ++ s.fifo = s.received
  fifo : s.fifo.length ≤ pktLen
  held : s.tx.held.length ≤ pktLen
  txCnt : s.txCnt = .ofNat s.sent.length
  announced : ∀ data, s.tx = .sending data → s.fifo ≠ [] → s.cdcRx = true ∨ s.calling = true

/-- When the thread is started, the FIFO is empty or an announcement is still to come. -/
def Allowed (s : State) : Action → Prop
  | .start => s.fifo ≠ [] → s.calling = true
  | _ => True

variable {pktLen : ℕ} {s s' : State}

theorem valid_init : Valid pktLen init where
  ordered := rfl
  fifo := Nat.zero_le _
  held := Nat.zero_le _
  txCnt := rfl
  announced := by
    intro data h
    cases h

/-! ### What a step does -/

theorem step_packet {bytes : List UInt8} (hs : step pktLen s (.packet bytes) = some s') :
    s.fifo.length + bytes.length ≤ pktLen ∧
      s' = { s with
        fifo := s.fifo ++ bytes
        received := s.received ++ bytes
        calling := true } := by
  simp only [step, Option.ite_none_right_eq_some, Option.some.injEq] at hs
  exact ⟨hs.1.2.2, hs.2.symm⟩

theorem step_cdcRx (hs : step pktLen s .cdcRx = some s') :
    s' = { s with cdcRx := true, calling := false } := by
  simp only [step, Option.ite_none_right_eq_some, Option.some.injEq] at hs
  exact hs.2.symm

theorem step_start (hs : step pktLen s .start = some s') :
    s.tx = .created ∧ s' = { s with tx := .waiting, cdcRx := false } := by
  cases ht : s.tx with
  | created =>
      simp only [step, ht, Option.some.injEq] at hs
      exact ⟨rfl, hs.symm⟩
  | _ => simp [step, ht] at hs

/-- A step of the thread: it wakes, finds nothing, reads, or sends. -/
theorem step_thread (hs : step pktLen s .thread = some s') :
    (s.tx = .waiting ∧ s' = { s with cdcRx := false, tx := .woken }) ∨
    (s.tx = .woken ∧ s.fifo = [] ∧ s' = { s with tx := .waiting }) ∨
    (s.tx = .woken ∧
      s' = { s with fifo := s.fifo.drop pktLen, tx := .sending (s.fifo.take pktLen) }) ∨
    ∃ data, s.tx = .sending data ∧
      s' = { s with
        txCnt := s.txCnt + .ofNat data.length
        sent := s.sent ++ data
        tx := .waiting } := by
  cases ht : s.tx with
  | created => simp [step, usbSerialTxThread, ht] at hs
  | waiting =>
      simp only [step, usbSerialTxThread, ht, Option.ite_none_right_eq_some,
        Option.some.injEq] at hs
      exact .inl ⟨rfl, hs.2.symm⟩
  | woken =>
      simp only [step, usbSerialTxThread, ht] at hs
      by_cases hnil : s.fifo = []
      · rw [if_pos hnil] at hs
        exact .inr (.inl ⟨rfl, hnil, (Option.some.inj hs).symm⟩)
      · rw [if_neg hnil] at hs
        exact .inr (.inr (.inl ⟨rfl, (Option.some.inj hs).symm⟩))
  | sending data =>
      simp only [step, usbSerialTxThread, ht, Option.some.injEq] at hs
      exact .inr (.inr (.inr ⟨data, rfl, hs.symm⟩))

theorem valid_step {a : Action} (h : Valid pktLen s) (hs : step pktLen s a = some s') :
    Valid pktLen s' := by
  have hordered := h.ordered
  cases a with
  | packet bytes =>
      obtain ⟨hfits, rfl⟩ := step_packet hs
      refine { h with ordered := ?_, fifo := ?_, announced := fun _ _ _ => .inr rfl }
      · rw [← hordered, List.append_assoc, List.append_assoc, List.append_assoc]
      · rwa [List.length_append]
  | cdcRx =>
      obtain rfl := step_cdcRx hs
      exact { h with announced := fun _ _ _ => .inl rfl }
  | start =>
      obtain ⟨ht, rfl⟩ := step_start hs
      rw [ht] at hordered
      exact { h with
        ordered := hordered
        held := Nat.zero_le _
        announced := by
          intro data hdata
          cases hdata }
  | thread =>
      rcases step_thread hs with ⟨ht, rfl⟩ | ⟨ht, -, rfl⟩ | ⟨ht, rfl⟩ | ⟨data, ht, rfl⟩
      · rw [ht] at hordered
        exact { h with
          ordered := hordered
          held := Nat.zero_le _
          announced := by
            intro data hdata
            cases hdata }
      · rw [ht] at hordered
        exact { h with
          ordered := hordered
          held := Nat.zero_le _
          announced := by
            intro data hdata
            cases hdata }
      · simp only [ht, TxPc.held, List.append_nil] at hordered
        have hdrop : s.fifo.drop pktLen = [] := List.drop_eq_nil_of_le h.fifo
        refine { h with
          ordered := ?_
          fifo := ?_
          held := List.length_take_le _ _
          announced := fun _ _ hne => absurd hdrop hne }
        · rw [TxPc.held, List.append_assoc, List.take_append_drop, hordered]
        · rw [hdrop]
          exact Nat.zero_le _
      · simp only [ht, TxPc.held] at hordered
        refine { h with
          ordered := ?_
          held := Nat.zero_le _
          txCnt := ?_
          announced := ?_ }
        · rw [TxPc.held, List.append_nil, hordered]
        · rw [List.length_append, UInt32.ofNat_add, ← h.txCnt]
        · intro data hdata
          cases hdata

/-! ## When everything flows -/

/-- A thread that does not rest keeps the bytes in order. -/
theorem Flows.of_not_rests (h : Valid pktLen s) (hrests : ¬ s.Rests) : Flows s :=
  ⟨h.ordered, fun hr => absurd hr hrests⟩

/-- A thread that rests has sent everything exactly if the FIFO is empty. -/
theorem flows_iff_of_waiting (h : Valid pktLen s) (ht : s.tx = .waiting) :
    Flows s ↔ (s.fifo ≠ [] → s.cdcRx = true ∨ s.calling = true) := by
  have hordered := h.ordered
  rw [ht, TxPc.held, List.append_nil] at hordered
  constructor
  · intro hflows hne
    by_contra hrests
    rw [not_or, Bool.not_eq_true, Bool.not_eq_true] at hrests
    have hsent := hflows.complete ⟨ht, hrests⟩
    rw [← hordered] at hsent
    exact hne (List.self_eq_append_right.mp hsent)
  · intro hwake
    refine ⟨h.ordered, fun ⟨_, hflag, hcall⟩ => ?_⟩
    have hnil : s.fifo = [] := by
      by_contra hne
      rcases hwake hne with h' | h'
      · rw [hflag] at h'
        cases h'
      · rw [hcall] at h'
        cases h'
    rwa [hnil, List.append_nil] at hordered

theorem flows_step_iff {a : Action} (h : Valid pktLen s) (hs : step pktLen s a = some s') :
    Flows s' ↔ Allowed s a := by
  have hvalid := valid_step h hs
  cases a with
  | packet bytes =>
      obtain ⟨-, rfl⟩ := step_packet hs
      exact iff_of_true (Flows.of_not_rests hvalid fun hr => Bool.noConfusion hr.2.2) trivial
  | cdcRx =>
      obtain rfl := step_cdcRx hs
      exact iff_of_true (Flows.of_not_rests hvalid fun hr => Bool.noConfusion hr.2.1) trivial
  | start =>
      -- the flag is gone, so that only a call to come wakes the thread
      obtain ⟨-, rfl⟩ := step_start hs
      rw [flows_iff_of_waiting hvalid rfl]
      simp only [Allowed, Bool.false_eq_true, false_or]
  | thread =>
      refine iff_of_true ?_ trivial
      rcases step_thread hs with ⟨ht, rfl⟩ | ⟨ht, hnil, rfl⟩ | ⟨ht, rfl⟩ | ⟨data, ht, rfl⟩
      · exact Flows.of_not_rests hvalid fun hr => TxPc.noConfusion hr.1
      · exact (flows_iff_of_waiting hvalid rfl).mpr fun hne => absurd hnil hne
      · exact Flows.of_not_rests hvalid fun hr => TxPc.noConfusion hr.1
      · exact (flows_iff_of_waiting hvalid rfl).mpr (h.announced data ht)

/-- **Nothing is lost, repeated or left behind**: in every order of steps, every byte is sent
in order, and all of them whenever the thread rests, exactly if the FIFO is empty when the
thread is started, or an announcement is still to come then. -/
theorem always_flows_iff (as : List Action) :
    Always (step pktLen) Flows init as ↔ Each (step pktLen) Allowed init as :=
  always_iff_each (fun _ _ _ h hs => valid_step h hs) (fun _ _ _ h _ hs => flows_step_iff h hs)
    valid_init ⟨rfl, fun hr => TxPc.noConfusion hr.1⟩ as

/-- A packet that is announced before the thread is started, and no other, stays in the FIFO. -/
example : ∃ s, runActions (step 64) (fun _ _ => True) init [.packet [0x41], .cdcRx, .start] =
    some s ∧ s.Rests ∧ s.fifo = [0x41] := ⟨_, rfl, ⟨rfl, rfl, rfl⟩, rfl⟩

end RhsCore.SerialTx
