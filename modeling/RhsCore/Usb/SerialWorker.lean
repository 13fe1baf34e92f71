import RhsCore.Lib.Transition
import Mathlib.Data.List.Basic

/-!
# From the stream to the USB host

`usb_serial_worker` of `usb_serial_bridge.c`, with the interrupt that fills its stream and
`vcp_on_cdc_tx_complete`.  The worker takes a block from the stream each time it is woken and
sends it once the semaphore says that the one before is through.  When that takes more than
100 ticks, the block and what is in the stream are dropped.

The interrupt comes in one piece for the threads; the two calls of the completion do not.
What the USB stack makes of a block is its own affair: it starts some transfers, at once or
when another is complete.  Restarts of the worker are not followed here.

## Main definitions

* `usbSerialWorker`, `vcpOnCdcTxComplete` — the next step of either thread.
* `Good` — where every byte of the stream is.
* `worker_accounts`, `worker_not_stranded` — what holds in every order of steps.
-/

namespace RhsCore.SerialWorker

/-! ## The threads -/

/-- Where `usb_serial_worker` is. -/
inductive WorkerPc
  /-- In `rhs_thread_flags_wait`. -/
  | waiting
  /-- Before `rhs_stream_buffer_receive`. -/
  | woken
  /-- In `rhs_semaphore_acquire`. -/
  | acquiring (block : List UInt8)
  /-- Before `rhs_hal_cdc_send`. -/
  | sending (block : List UInt8)
  /-- Before `rhs_stream_buffer_reset`. -/
  | resetting (block : List UInt8)
  deriving DecidableEq, Repr

/-- Where the USB task is. -/
inductive CdcPc
  | away
  /-- In `vcp_on_cdc_tx_complete`, before `rhs_thread_flags_set`. -/
  | released
  deriving DecidableEq, Repr

/-- The bridge.  `transfers` are under way in the USB stack; `accepted` are the bytes for
which the stream had space, and `blocks` what became of them, each with whether it was given
to `rhs_hal_cdc_send`. -/
structure State where
  stream : List UInt8
  rxDone : Bool
  txComplete : Bool
  worker : WorkerPc
  txSem : ℕ
  cdc : CdcPc
  transfers : ℕ
  rxCnt : UInt32
  accepted : List UInt8
  blocks : List (List UInt8 × Bool)
  deriving DecidableEq, Repr

/-- The worker has allocated its stream and its semaphore, and waits for the first time. -/
def init : State where
  stream := []
  rxDone := false
  txComplete := false
  worker := .waiting
  txSem := 1
  cdc := .away
  transfers := 0
  rxCnt := 0
  accepted := []
  blocks := []

/-- `serial_rx_cb` with a byte: into the stream of `USB_UART_RX_BUF_SIZE`, if there is space,
and `WorkerEvtRxDone`. -/
def serialRxCb (pktLen : ℕ) (s : State) (byte : UInt8) : State :=
  if s.stream.length < pktLen * 5 then
    { s with
      stream := s.stream ++ [byte]
      accepted := s.accepted ++ [byte]
      rxDone := true }
  else { s with rxDone := true }

/-- The next step of `usb_serial_worker`; a send starts so many transfers. -/
def usbSerialWorker (pktLen started : ℕ) (s : State) : Option State :=
  match s.worker with
  | .waiting =>
      if s.rxDone ∨ s.txComplete then
        some { s with rxDone := false, txComplete := false, worker := .woken }
      else none
  | .woken =>
      if s.stream.take pktLen = [] then some { s with worker := .waiting }
      else
        some { s with
          stream := s.stream.drop pktLen
          worker := .acquiring (s.stream.take pktLen) }
  | .acquiring block =>
      if 0 < s.txSem then some { s with txSem := s.txSem - 1, worker := .sending block } else none
  | .sending block =>
      some { s with
        rxCnt := s.rxCnt + .ofNat block.length
        blocks := s.blocks ++ [(block, true)]
        transfers := s.transfers + started
        worker := .waiting }
  | .resetting block =>
      some { s with
        stream := []
        blocks := s.blocks ++ [(block ++ s.stream, false)]
        worker := .waiting }

/-- 100 ticks have passed in `rhs_semaphore_acquire`. -/
def semTimeout (s : State) : Option State :=
  match s.worker with
  | .acquiring block => if s.txSem = 0 then some { s with worker := .resetting block } else none
  | _ => none

/-- A transfer is complete, and others are started; then the next step of
`vcp_on_cdc_tx_complete`.  The semaphore is binary. -/
def vcpOnCdcTxComplete (started : ℕ) (s : State) : Option State :=
  match s.cdc with
  | .away =>
      if 0 < s.transfers then
        some { s with
          transfers := s.transfers - 1 + started
          txSem := min 1 (s.txSem + 1)
          cdc := .released }
      else none
  | .released => some { s with txComplete := true, cdc := .away }

/-- Who goes next: the interrupt, the worker, its timeout, the USB task. -/
inductive Action
  | rx (byte : UInt8)
  | worker (started : ℕ)
  | timeout
  | cdc (started : ℕ)
  deriving DecidableEq, Repr

def step (pktLen : ℕ) (s : State) : Action → Option State
  | .rx byte => some (serialRxCb pktLen s byte)
  | .worker started => usbSerialWorker pktLen started s
  | .timeout => semTimeout s
  | .cdc started => vcpOnCdcTxComplete started s

/-! ## Where the bytes are -/

/-- The block that the worker has in hand. -/
def WorkerPc.held : WorkerPc → List UInt8
  | .acquiring block | .sending block | .resetting block => block
  | .waiting | .woken => []

/-- The bytes given to `rhs_hal_cdc_send`. -/
def State.sent (s : State) : List UInt8 := ((s.blocks.filter (·.2)).map (·.1)).flatten

/-- The bytes dropped behind a timeout. -/
def State.dropped (s : State) : List UInt8 := ((s.blocks.filter (! ·.2)).map (·.1)).flatten

/-- Every byte is in a block, in hand or in the stream, in the order of arrival. -/
structure Good (pktLen : ℕ) (s : State) : Prop where
  accounted : (s.blocks.map (·.1)).flatten ++ s.worker.held ++ s.stream = s.accepted
  stream : s.stream.length ≤ pktLen * 5
  held : s.worker.held.length ≤ pktLen
  rxCnt : s.rxCnt = .ofNat s.sent.length
  txSem : s.txSem ≤ 1

variable {pktLen : ℕ} {s s' : State}

theorem good_init : Good pktLen init where
  accounted := rfl
  stream := Nat.zero_le _
  held := Nat.zero_le _
  rxCnt := rfl
  txSem := Nat.le_refl 1

theorem good_serialRxCb (h : Good pktLen s) (byte : UInt8) :
    Good pktLen (serialRxCb pktLen s byte) := by
  rw [serialRxCb]
  by_cases hspace : s.stream.length < pktLen * 5
  · rw [if_pos hspace]
    refine { h with accounted := ?_, stream := ?_ }
    · simp only [← h.accounted, List.append_assoc]
    · simp only [List.length_append, List.length_singleton]
      omega
  · rw [if_neg hspace]
    exact { h with }

/-- A block more that is sent. -/
theorem sent_append (s : State) (block : List UInt8) :
    ({ s with blocks := s.blocks ++ [(block, true)] } : State).sent = s.sent ++ block := by
  simp [State.sent]

/-- A block more that is dropped. -/
theorem sent_append_dropped (s : State) (block : List UInt8) :
    ({ s with blocks := s.blocks ++ [(block, false)] } : State).sent = s.sent := by
  simp [State.sent]

theorem good_usbSerialWorker {started : ℕ} (h : Good pktLen s)
    (hs : usbSerialWorker pktLen started s = some s') : Good pktLen s' := by
  have hacc := h.accounted
  rw [usbSerialWorker] at hs
  cases hw : s.worker with
  | waiting =>
      simp only [hw, WorkerPc.held] at hs hacc
      by_cases hflags : s.rxDone ∨ s.txComplete
      · rw [if_pos hflags] at hs
        obtain rfl := Option.some.inj hs
        exact { h with accounted := hacc, held := Nat.zero_le _ }
      · rw [if_neg hflags] at hs
        cases hs
  | woken =>
      simp only [hw, WorkerPc.held, List.append_nil] at hs hacc
      by_cases hnil : s.stream.take pktLen = []
      · rw [if_pos hnil] at hs
        obtain rfl := Option.some.inj hs
        exact { h with accounted := by rw [WorkerPc.held, List.append_nil]; exact hacc,
                       held := Nat.zero_le _ }
      · rw [if_neg hnil] at hs
        obtain rfl := Option.some.inj hs
        refine { h with accounted := ?_, stream := ?_, held := ?_ }
        · rw [WorkerPc.held, List.append_assoc, List.take_append_drop]
          exact hacc
        · have hle := h.stream
          simp only [List.length_drop]
          omega
        · exact List.length_take_le _ _
  | acquiring block =>
      have hheld := h.held
      simp only [hw, WorkerPc.held] at hs hacc hheld
      by_cases hsem : 0 < s.txSem
      · rw [if_pos hsem] at hs
        obtain rfl := Option.some.inj hs
        exact { h with accounted := hacc, held := hheld,
                       txSem := Nat.le_trans (Nat.sub_le _ _) h.txSem }
      · rw [if_neg hsem] at hs
        cases hs
  | sending block =>
      simp only [hw, WorkerPc.held] at hs hacc
      obtain rfl := Option.some.inj hs
      refine { h with accounted := ?_, held := Nat.zero_le _, rxCnt := ?_ }
      · simpa [WorkerPc.held] using hacc
      · have hsent : State.sent { s with
            rxCnt := s.rxCnt + .ofNat block.length
            blocks := s.blocks ++ [(block, true)]
            transfers := s.transfers + started
            worker := .waiting } = s.sent ++ block := sent_append s block
        rw [hsent, List.length_append, UInt32.ofNat_add, ← h.rxCnt]
  | resetting block =>
      simp only [hw, WorkerPc.held] at hs hacc
      obtain rfl := Option.some.inj hs
      refine { h with accounted := ?_, stream := Nat.zero_le _, held := Nat.zero_le _, rxCnt := ?_ }
      · simpa [WorkerPc.held] using hacc
      · exact h.rxCnt.trans (congrArg (fun l : List UInt8 => UInt32.ofNat l.length)
          (sent_append_dropped s (block ++ s.stream)).symm)

theorem good_semTimeout (h : Good pktLen s) (hs : semTimeout s = some s') : Good pktLen s' := by
  rw [semTimeout] at hs
  cases hw : s.worker with
  | acquiring block =>
      have hacc := h.accounted
      have hheld := h.held
      simp only [hw, WorkerPc.held] at hs hacc hheld
      by_cases hsem : s.txSem = 0
      · rw [if_pos hsem] at hs
        obtain rfl := Option.some.inj hs
        exact { h with accounted := hacc, held := hheld }
      · rw [if_neg hsem] at hs
        cases hs
  | _ =>
      rw [hw] at hs
      cases hs

theorem good_vcpOnCdcTxComplete {started : ℕ} (h : Good pktLen s)
    (hs : vcpOnCdcTxComplete started s = some s') : Good pktLen s' := by
  rw [vcpOnCdcTxComplete] at hs
  cases hc : s.cdc with
  | away =>
      simp only [hc] at hs
      by_cases htransfers : 0 < s.transfers
      · rw [if_pos htransfers] at hs
        obtain rfl := Option.some.inj hs
        exact { h with txSem := Nat.min_le_left _ _ }
      · rw [if_neg htransfers] at hs
        cases hs
  | released =>
      simp only [hc] at hs
      obtain rfl := Option.some.inj hs
      exact { h with }

theorem good_step {a : Action} (h : Good pktLen s) (hs : step pktLen s a = some s') :
    Good pktLen s' := by
  cases a with
  | rx byte =>
      obtain rfl := Option.some.inj hs
      exact good_serialRxCb h byte
  | worker started => exact good_usbSerialWorker h hs
  | timeout => exact good_semTimeout h hs
  | cdc started => exact good_vcpOnCdcTxComplete h hs

/-! ## Every order of steps -/

theorem good_of_reach {allowed : State → Action → Prop}
    (h : Reach (step pktLen) allowed init s) : Good pktLen s :=
  h.invariant good_init fun _ _ _ hI _ hs => good_step hI hs

/-- What is sent is a part of what is in the blocks. -/
theorem sent_sublist (s : State) : s.sent.Sublist (s.blocks.map (·.1)).flatten := by
  rw [State.sent]
  induction s.blocks with
  | nil => exact List.Sublist.slnil
  | cons block blocks ih =>
      obtain ⟨bytes, sent⟩ := block
      cases sent with
      | true =>
          simp only [List.filter_cons_of_pos, List.map_cons, List.flatten_cons]
          exact ih.append_left bytes
      | false =>
          simp only [List.filter_cons, Bool.false_eq_true, if_false, List.map_cons,
            List.flatten_cons]
          exact ih.trans (List.sublist_append_right _ _)

theorem length_sent_add_dropped (s : State) :
    s.sent.length + s.dropped.length = (s.blocks.map (·.1)).flatten.length := by
  simp only [State.sent, State.dropped]
  induction s.blocks with
  | nil => rfl
  | cons block blocks ih =>
      obtain ⟨bytes, sent⟩ := block
      cases sent <;> simp at ih ⊢ <;> omega

/-- **Nothing is sent twice or out of order**, and every byte that the stream took is, in the
order of arrival, in a block that was sent or dropped, in hand, or still there; the counter
counts those sent, and no more than a block is ever in hand. -/
theorem worker_accounts (h : Reach (step pktLen) (fun _ _ => True) init s) :
    s.sent.Sublist s.accepted ∧
      (s.blocks.map (·.1)).flatten ++ s.worker.held ++ s.stream = s.accepted ∧
      s.sent.length + s.dropped.length + s.worker.held.length + s.stream.length =
        s.accepted.length ∧
      s.rxCnt = .ofNat s.sent.length ∧ s.worker.held.length ≤ pktLen ∧
      s.stream.length ≤ pktLen * 5 ∧ s.txSem ≤ 1 := by
  have hgood := good_of_reach h
  refine ⟨?_, hgood.accounted, ?_, hgood.rxCnt, hgood.held, hgood.stream, hgood.txSem⟩
  · rw [← hgood.accounted, List.append_assoc]
    exact (sent_sublist s).trans (List.sublist_append_left _ _)
  · have hlen := congrArg List.length hgood.accounted
    simp only [List.length_append] at hlen
    rw [length_sent_add_dropped, ← hlen]

/-- Two bytes with packets of one byte; the first is in hand. -/
theorem two_bytes_accounted : ∃ s, Reach (step 1) (fun _ _ => True) init s ∧
    s.accepted = [0x41, 0x42] ∧ s.worker = .sending [0x41] ∧ s.sent.Sublist [0x41, 0x42] := by
  have hrun : Reach (step 1) (fun _ _ => True) init _ :=
    @Reach.of_runActions _ _ _ _ _ [.rx 0x41, .rx 0x42, .worker 1, .worker 1, .worker 1] _ _ rfl
  exact ⟨_, hrun, rfl, rfl, (worker_accounts hrun).1⟩

/-! ## Nothing is stranded -/

/-- The next step is a send. -/
def WorkerPc.sends : WorkerPc → Bool
  | .sending _ => true
  | _ => false

/-- A send starts a transfer, unless one is under way. -/
def Starts (s : State) : Action → Prop
  | .worker started => s.worker.sends = true → 0 < s.transfers + started
  | _ => True

instance (s : State) (a : Action) : Decidable (Starts s a) :=
  match a with
  | .worker _ => inferInstanceAs (Decidable (_ → _))
  | .rx _ => isTrue trivial
  | .timeout => isTrue trivial
  | .cdc _ => isTrue trivial

/-- What wakes the worker when there is something in its stream. -/
structure Wakes (s : State) : Prop where
  worker : s.worker = .waiting → s.stream ≠ [] →
    s.rxDone = true ∨ s.txComplete = true ∨ s.cdc = .released ∨ 0 < s.transfers

theorem wakes_usbSerialWorker {started : ℕ} (hpos : 0 < pktLen)
    (ha : Starts s (.worker started)) (hs : usbSerialWorker pktLen started s = some s') :
    Wakes s' := by
  rw [usbSerialWorker] at hs
  constructor
  intro hwait hne
  cases hw : s.worker with
  | waiting =>
      simp only [hw] at hs
      by_cases hflags : s.rxDone ∨ s.txComplete
      · rw [if_pos hflags] at hs
        obtain rfl := Option.some.inj hs
        cases hwait
      · rw [if_neg hflags] at hs
        cases hs
  | woken =>
      simp only [hw] at hs
      by_cases hnil : s.stream.take pktLen = []
      · rw [if_pos hnil] at hs
        obtain rfl := Option.some.inj hs
        -- a block of nothing: there was nothing in the stream
        rcases List.take_eq_nil_iff.mp hnil with hzero | hstream
        · omega
        · exact absurd hstream hne
      · rw [if_neg hnil] at hs
        obtain rfl := Option.some.inj hs
        cases hwait
  | acquiring block =>
      simp only [hw] at hs
      by_cases hsem : 0 < s.txSem
      · rw [if_pos hsem] at hs
        obtain rfl := Option.some.inj hs
        cases hwait
      · rw [if_neg hsem] at hs
        cases hs
  | sending block =>
      simp only [hw] at hs
      obtain rfl := Option.some.inj hs
      exact .inr (.inr (.inr (ha (by rw [hw]; rfl))))
  | resetting block =>
      simp only [hw] at hs
      obtain rfl := Option.some.inj hs
      exact absurd rfl hne

theorem wakes_step {a : Action} (hpos : 0 < pktLen) (ha : Starts s a)
    (hs : step pktLen s a = some s') : Wakes s' := by
  cases a with
  | rx byte =>
      obtain rfl := Option.some.inj hs
      constructor
      intro _ _
      rw [serialRxCb]
      by_cases hspace : s.stream.length < pktLen * 5
      · rw [if_pos hspace]
        exact .inl rfl
      · rw [if_neg hspace]
        exact .inl rfl
  | worker started => exact wakes_usbSerialWorker hpos ha hs
  | timeout =>
      simp only [step, semTimeout] at hs
      constructor
      intro hwait _
      cases hw : s.worker with
      | acquiring block =>
          simp only [hw] at hs
          by_cases hsem : s.txSem = 0
          · rw [if_pos hsem] at hs
            obtain rfl := Option.some.inj hs
            cases hwait
          · rw [if_neg hsem] at hs
            cases hs
      | _ =>
          rw [hw] at hs
          cases hs
  | cdc started =>
      simp only [step, vcpOnCdcTxComplete] at hs
      constructor
      intro _ _
      cases hc : s.cdc with
      | away =>
          simp only [hc] at hs
          by_cases htransfers : 0 < s.transfers
          · rw [if_pos htransfers] at hs
            obtain rfl := Option.some.inj hs
            exact .inr (.inr (.inl rfl))
          · rw [if_neg htransfers] at hs
            cases hs
      | released =>
          simp only [hc] at hs
          obtain rfl := Option.some.inj hs
          exact .inr (.inl rfl)

/-- Nothing happens until another byte arrives. -/
def Quiet (pktLen : ℕ) (s : State) : Prop :=
  ∀ a, (∀ byte, a ≠ .rx byte) → step pktLen s a = none

/-- What rests when nothing happens. -/
theorem Quiet.rests (h : Quiet pktLen s) :
    s.worker = .waiting ∧ s.rxDone = false ∧ s.txComplete = false ∧ s.cdc = .away ∧
      s.transfers = 0 := by
  have hworker := h (.worker 0) (by simp)
  have htimeout := h .timeout (by simp)
  have hcdc := h (.cdc 0) (by simp)
  simp only [step, usbSerialWorker, semTimeout, vcpOnCdcTxComplete] at hworker htimeout hcdc
  have hpc : s.worker = .waiting := by
    cases hw : s.worker with
    | waiting => rfl
    | woken =>
        simp only [hw] at hworker
        by_cases hnil : s.stream.take pktLen = []
        · simp [hnil] at hworker
        · simp [hnil] at hworker
    | acquiring block =>
        simp only [hw] at hworker htimeout
        by_cases hzero : s.txSem = 0
        · simp [hzero] at htimeout
        · simp [Nat.pos_of_ne_zero hzero] at hworker
    | sending block => simp [hw] at hworker
    | resetting block => simp [hw] at hworker
  have hidle : s.cdc = .away ∧ s.transfers = 0 := by
    cases hc : s.cdc with
    | away =>
        simp only [hc] at hcdc
        by_cases hzero : s.transfers = 0
        · exact ⟨rfl, hzero⟩
        · simp [Nat.pos_of_ne_zero hzero] at hcdc
    | released => simp [hc] at hcdc
  simp only [hpc] at hworker
  by_cases hflags : s.rxDone = true ∨ s.txComplete = true
  · simp [hflags] at hworker
  · rw [not_or, Bool.not_eq_true, Bool.not_eq_true] at hflags
    exact ⟨hpc, hflags.1, hflags.2, hidle⟩

/-- **Nothing is stranded**: when nothing happens any more, every byte that the stream took
is, in the order of arrival, in a block that was sent or dropped, as long as sends start
transfers; and if none was dropped, all were sent, in order. -/
theorem worker_not_stranded (hpos : 0 < pktLen) (h : Reach (step pktLen) Starts init s)
    (hquiet : Quiet pktLen s) :
    s.stream = [] ∧ s.worker.held = [] ∧ (s.blocks.map (·.1)).flatten = s.accepted ∧
      s.sent.length + s.dropped.length = s.accepted.length ∧
      (s.dropped = [] → s.sent = s.accepted) := by
  have hgood := good_of_reach h
  have hwakes : Wakes s := h.invariant (I := Wakes) ⟨fun _ hne => absurd rfl hne⟩
    fun _ _ _ _ ha hs => wakes_step hpos ha hs
  obtain ⟨hworker, hrx, htx, hcdc, htransfers⟩ := hquiet.rests
  have hstream : s.stream = [] := by
    by_contra hne
    rcases hwakes.worker hworker hne with h' | h' | h' | h'
    · rw [hrx] at h'
      cases h'
    · rw [htx] at h'
      cases h'
    · rw [hcdc] at h'
      cases h'
    · omega
  have hheld : s.worker.held = [] := by rw [hworker]; rfl
  have hacc := hgood.accounted
  rw [hstream, hheld, List.append_nil, List.append_nil] at hacc
  have hlen := length_sent_add_dropped s
  rw [hacc] at hlen
  refine ⟨hstream, hheld, hacc, hlen, fun hdropped => ?_⟩
  rw [hdropped, List.length_nil, Nat.add_zero, ← hacc] at hlen
  rw [← hacc]
  exact (sent_sublist s).eq_of_length hlen

/-- One byte has gone through. -/
def oneByteThrough : State :=
  { init with
    rxCnt := 1
    accepted := [0x41]
    blocks := [([0x41], true)] }

theorem quiet_oneByteThrough : Quiet 64 oneByteThrough := by
  intro a ha
  cases a with
  | rx byte => exact absurd rfl (ha byte)
  | worker started => rfl
  | timeout => rfl
  | cdc started => rfl

theorem one_byte_not_stranded : ∃ s, Reach (step 64) Starts init s ∧ Quiet 64 s ∧
    s.accepted = [0x41] ∧ s.sent = s.accepted := by
  have hrun : Reach (step 64) Starts init oneByteThrough :=
    @Reach.of_runActions _ _ _ _ _ [.rx 0x41, .worker 0, .worker 0, .worker 0, .worker 1, .cdc 0,
      .cdc 0, .worker 0, .worker 0] _ _ rfl
  exact ⟨oneByteThrough, hrun, quiet_oneByteThrough, rfl,
    (worker_not_stranded (by decide) hrun quiet_oneByteThrough).2.2.2.2 rfl⟩

end RhsCore.SerialWorker
