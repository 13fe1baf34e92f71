import RhsCore.CanOpen.Service

/-!
# What becomes of the messages the CANopen service sends

`canSend` copies a message into `tx_queue` and reports success; the service takes it out
again and hands it to the controller.  Two calls on this way can fail without anyone
looking: the put, when the queue is full, and the last try of `rhs_hal_can_tx`.  And the
interface can be switched off, from an interrupt, while messages for it are still on
their way.

## Main definitions

* `State.outgoing` — the messages on their way, oldest first.
* `InOrder`, `Drops` — nothing is lost or reordered, and the steps that lose something.
* `Deliverable`, `Careful` — every message on its way has an interface, and the steps
  that keep it so.
-/

namespace RhsCore.CanOpen

/-! ## Messages on their way -/

/-- The message being sent. -/
def Pc.current : Pc → List CanOpenAppMessage
  | .sending msg _ => [msg]
  | _ => []

/-- The messages on their way to the controller, oldest first. -/
def State.outgoing (s : State) : List CanOpenAppMessage := s.pc.current ++ s.txQueue

/-- What the controller is given for a message. -/
def wire (m : CanOpenAppMessage) : RHSHalCANId × RHSHalCANFrameType :=
  (m.canId, rcanFrame (txFrame .zero m.data))

/-- The bytes of earlier messages in the service's variable do not reach the controller. -/
theorem rcanFrame_txFrame (frame : RHSHalCANFrameType) (m : Message) :
    rcanFrame (txFrame frame m) = rcanFrame (txFrame .zero m) := by
  simp only [rcanFrame, txFrame, copyPayload_copyPayload]

/-- The service's variable holds the frame of the message being sent. -/
def Holding (s : State) : Prop :=
  ∀ m tryTx, s.pc = .sending m tryTx → (m.canId, rcanFrame s.frame) = wire m

/-- What the controller took and what it has still to be given. -/
def State.account (s : State) : List (RHSHalCANId × RHSHalCANFrameType) :=
  s.accepted ++ s.outgoing.map wire

/-- **In order**: the messages `canSend` reported as sent are the frames the controller
took, then the message being sent, then the queue. -/
def InOrder (s : State) : Prop := s.sent.map wire = s.account

/-- The steps that lose a message: a put into the full queue, and the last try of a frame
the controller does not take. -/
def Drops (s : State) : Action → Prop
  | .canSend _ port _ =>
      (∃ h, s.handler.find? (fun h => s.canHandle h.od = some port) = some h) ∧
        queueLength ≤ s.txQueue.length
  | .service rcanSend => ∃ m, s.pc = .sending m 0 ∧ s.enabled m.canId ∧ rcanSend = false
  | _ => False

/-! ## What a step does to them -/

/-- What a step does to the account: `new` messages are reported as sent, and all of them
are kept, unless the step drops something. -/
structure Accounts (s s' : State) (new : List CanOpenAppMessage) (drops : Prop) : Prop where
  sent : s'.sent = s.sent ++ new
  holding : Holding s'
  kept : ¬ drops → s'.account = s.account ++ new.map wire
  lost : drops → s'.account.length < s.account.length + new.length

/-- An accounted step keeps the order exactly if it drops nothing. -/
theorem Accounts.inOrder_iff {s s' : State} {new : List CanOpenAppMessage} {drops : Prop}
    (h : Accounts s s' new drops) (hs : InOrder s) : InOrder s' ↔ ¬ drops := by
  constructor
  · intro hs' hdrops
    have hlost := h.lost hdrops
    have hsent : s'.account.length = s.account.length + new.length := by
      rw [← hs', ← hs, h.sent]
      simp
    omega
  · intro hkeeps
    rw [InOrder, h.sent, List.map_append, hs, h.kept hkeeps]

/-- A step that has nothing to do with messages to be sent.  Only an error interrupt
switches an interface off, and only its own. -/
structure SameTransmit (s : State) (a : Action) (s' : State) : Prop where
  pc : s'.pc = s.pc
  frame : s'.frame = s.frame
  txQueue : s'.txQueue = s.txQueue
  sent : s'.sent = s.sent
  accepted : s'.accepted = s.accepted
  enabled : ∀ id, s.enabled id = true → a ≠ .canSceIrq id true → s'.enabled id = true

namespace SameTransmit

variable {s s' : State} {a : Action}

theorem of_crash (s : State) (a : Action) : SameTransmit s a (crash s) :=
  ⟨rfl, rfl, rfl, rfl, rfl, fun _ h _ => h⟩

/-- Only `canSend` and the service touch the messages to be sent. -/
theorem of_step (hs : step s a = some s') (hsend : ∀ ctx port m, a ≠ .canSend ctx port m)
    (hservice : ∀ b, a ≠ .service b) : SameTransmit s a s' := by
  unfold step at hs
  split at hs
  · cases hs
  · cases a with
    | canRxIrq canId frame =>
        obtain ⟨-, hs⟩ := Option.ite_none_right_eq_some.mp hs
        rw [← Option.some.inj hs, canRxIrqCb]
        split <;> exact ⟨rfl, rfl, rfl, rfl, rfl, fun _ h _ => h⟩
    | canSend ctx port m => exact absurd rfl (hsend ctx port m)
    | coSetField ctx successful =>
        rw [← Option.some.inj hs, coSetField]
        split <;> exact ⟨rfl, rfl, rfl, rfl, rfl, fun _ h _ => h⟩
    | setFlag k =>
        obtain ⟨p, -, rfl⟩ := Option.map_eq_some_iff.mp hs
        exact ⟨rfl, rfl, rfl, rfl, rfl, fun _ h _ => h⟩
    | setFlagFails k =>
        obtain ⟨p, -, hs⟩ := Option.bind_eq_some_iff.mp hs
        obtain ⟨-, hs⟩ := Option.ite_none_right_eq_some.mp hs
        rw [← Option.some.inj hs]
        exact ⟨rfl, rfl, rfl, rfl, rfl, fun _ h _ => h⟩
    | coStartNode d id started =>
        rw [← Option.some.inj hs, coStartNode]
        split
        · refine ⟨rfl, rfl, rfl, rfl, rfl, fun id' h _ => ?_⟩
          simp [Function.update_apply, h]
        · exact of_crash s _
    | canSceIrq canId txPassive =>
        obtain ⟨-, hs⟩ := Option.ite_none_right_eq_some.mp hs
        rw [← Option.some.inj hs, canSceIrqCb]
        split
        · rename_i hpassive
          split
          · exact ⟨rfl, rfl, rfl, rfl, rfl, fun _ h _ => h⟩
          · rename_i h hfind
            split
            · refine ⟨rfl, rfl, rfl, rfl, rfl, fun id hid ha => ?_⟩
              have hcanId : h.canId = canId := by simpa using List.find?_some hfind
              have hne : id ≠ canId := by
                intro heq
                exact ha (by rw [heq, hpassive])
              simp [hcanId, hne, hid]
            · exact of_crash s _
        · exact ⟨rfl, rfl, rfl, rfl, rfl, fun _ h _ => h⟩
    | service b => exact absurd rfl (hservice b)

theorem outgoing (h : SameTransmit s a s') : s'.outgoing = s.outgoing := by
  rw [State.outgoing, State.outgoing, h.pc, h.txQueue]

theorem accounts (h : SameTransmit s a s') (hj : Holding s) : Accounts s s' [] False where
  sent := by rw [h.sent, List.append_nil]
  holding := by
    intro m tryTx hpc
    rw [h.frame]
    apply hj m tryTx
    rw [← h.pc, hpc]
  kept := fun _ => by simp [State.account, h.accepted, h.outgoing]
  lost := False.elim

end SameTransmit

/-- A turn of the service in which no message is taken out or sent. -/
structure SendsNothing (s s' : State) : Prop where
  before : s.pc.current = []
  after : s'.pc.current = []
  txQueue : s'.txQueue = s.txQueue
  sent : s'.sent = s.sent
  accepted : s'.accepted = s.accepted
  enabled : s'.enabled = s.enabled

/-- **What a turn of the service does to the messages to be sent**: nothing, or it takes one
out of the queue, or it tries to send the one it holds. -/
theorem service_cases {s s' : State} {rcanSend : Bool} (hs : service s rcanSend = some s') :
    SendsNothing s s' ∨
    (∃ m rest, s.pc.current = [] ∧ s.txQueue = m :: rest ∧
      s' = { s with txQueue := rest, frame := txFrame s.frame m.data, pc := .sending m 3 }) ∨
    ∃ m tryTx, s.pc = .sending m tryTx ∧ s' = serviceSend s m tryTx rcanSend := by
  rw [service] at hs
  split at hs
  · rename_i hpc
    obtain ⟨⟨rflags, left⟩, -, rfl⟩ := Option.map_eq_some_iff.mp hs
    refine .inl ⟨by rw [hpc]; rfl, ?_, rfl, rfl, rfl, rfl⟩
    dsimp only
    split_ifs <;> rfl
  · rename_i hpc
    have hcurrent : s.pc.current = [] := by rw [hpc]; rfl
    rw [← Option.some.inj hs]
    cases hq : s.rxQueue with
    | nil =>
        rw [serviceRx_nil hq]
        exact .inl ⟨hcurrent, rfl, rfl, rfl, rfl, rfl⟩
    | cons msg rest =>
        rw [serviceRx_cons hq]
        exact .inl ⟨hcurrent, hcurrent, rfl, rfl, rfl, rfl⟩
  · rename_i i hpc
    have hcurrent : s.pc.current = [] := by rw [hpc]; rfl
    rw [← Option.some.inj hs, servicePdo]
    split <;> exact .inl ⟨hcurrent, rfl, rfl, rfl, rfl, rfl⟩
  · rename_i hpc
    have hcurrent : s.pc.current = [] := by rw [hpc]; rfl
    rw [← Option.some.inj hs]
    cases hq : s.txQueue with
    | nil =>
        rw [serviceTx_nil hq]
        exact .inl ⟨hcurrent, rfl, hq.symm ▸ rfl, rfl, rfl, rfl⟩
    | cons msg rest => exact .inr (.inl ⟨msg, rest, hcurrent, rfl, serviceTx_cons hq⟩)
  · rename_i msg tryTx hpc
    exact .inr (.inr ⟨msg, tryTx, hpc, (Option.some.inj hs).symm⟩)

theorem SendsNothing.accounts {s s' : State} (h : SendsNothing s s') :
    Accounts s s' [] False where
  sent := by rw [h.sent, List.append_nil]
  holding := by
    intro m tryTx hpc
    have hafter := h.after
    rw [hpc] at hafter
    cases hafter
  kept := fun _ => by
    simp [State.account, State.outgoing, h.accepted, h.before, h.after, h.txQueue]
  lost := False.elim

theorem accounts_canSend {s : State} (hj : Holding s) (ctx : Context) (port : RHSHalCANId)
    (m : Message) :
    ∃ new, Accounts s (canSend s ctx port m) new (Drops s (.canSend ctx port m)) := by
  cases hfind : s.handler.find? (fun h => s.canHandle h.od = some port) with
  | none =>
      have hkeeps : Drops s (.canSend ctx port m) = False := by simp [Drops, hfind]
      rw [canSend_none hfind, hkeeps]
      exact ⟨[], (SameTransmit.of_crash s (.canSend ctx port m)).accounts hj⟩
  | some h =>
      have hdrops : Drops s (.canSend ctx port m) ↔ queueLength ≤ s.txQueue.length := by
        simp [Drops, hfind]
      rw [canSend_some hfind, hdrops]
      refine ⟨[{ od := h.od, canId := h.canId, data := m }], rfl, hj, fun hroom => ?_,
        fun hfull => ?_⟩
      · simp [State.account, State.outgoing, Nat.not_le.mp hroom]
      · simp [State.account, State.outgoing, Nat.not_lt.mpr hfull]

/-- The message taken out of the queue is the one that is sent next. -/
theorem accounts_take {s : State} {m : CanOpenAppMessage} {rest : List CanOpenAppMessage}
    (hcurrent : s.pc.current = []) (hq : s.txQueue = m :: rest) :
    Accounts s { s with txQueue := rest, frame := txFrame s.frame m.data, pc := .sending m 3 }
      [] False where
  sent := by simp
  holding := by
    intro msg tryTx h
    obtain ⟨rfl, -⟩ := Pc.sending.inj h
    simp [wire, rcanFrame_txFrame s.frame]
  kept := fun _ => by
    simp only [State.account, State.outgoing, hcurrent, hq]
    simp [Pc.current]
  lost := False.elim

/-- The loop that sends gives a message up after its last try, and only then. -/
theorem accounts_serviceSend {s : State} (hj : Holding s) {msg : CanOpenAppMessage} {tryTx : ℕ}
    (hpc : s.pc = .sending msg tryTx) (rcanSend : Bool) :
    Accounts s (serviceSend s msg tryTx rcanSend) [] (Drops s (.service rcanSend)) := by
  have hdrops : Drops s (.service rcanSend) ↔
      tryTx = 0 ∧ s.enabled msg.canId = true ∧ rcanSend = false := by
    simp [Drops, hpc]
  rw [hdrops, serviceSend, rhsHalCanTx]
  cases henabled : s.enabled msg.canId with
  | false => simpa using (SameTransmit.of_crash s (.service rcanSend)).accounts hj
  | true =>
      cases rcanSend with
      | true =>
          refine ⟨by simp, by simp [Holding], fun _ => ?_, by simp⟩
          simp [State.account, State.outgoing, hpc, Pc.current, hj msg tryTx hpc]
      | false =>
          cases tryTx with
          | zero =>
              refine ⟨by simp, by simp [Holding], by simp, fun _ => ?_⟩
              simp [State.account, State.outgoing, hpc, Pc.current]
          | succ tryTx =>
              refine ⟨by simp, ?_, fun _ => ?_, by simp⟩
              · intro m k h
                obtain ⟨rfl, rfl⟩ := Pc.sending.inj h
                exact hj _ _ hpc
              · simp [State.account, State.outgoing, hpc, Pc.current]

theorem accounts_service {s s' : State} (hj : Holding s) {rcanSend : Bool}
    (hs : service s rcanSend = some s') : Accounts s s' [] (Drops s (.service rcanSend)) := by
  have hkeeps : s.pc.current = [] → Drops s (.service rcanSend) = False := by
    intro hcurrent
    simp only [Drops, eq_iff_iff, iff_false]
    rintro ⟨m, hpc, -⟩
    rw [hpc] at hcurrent
    cases hcurrent
  rcases service_cases hs with hnothing | ⟨m, rest, hcurrent, hq, rfl⟩ | ⟨m, tryTx, hpc, rfl⟩
  · rw [hkeeps hnothing.before]
    exact hnothing.accounts
  · rw [hkeeps hcurrent]
    exact accounts_take hcurrent hq
  · exact accounts_serviceSend hj hpc rcanSend

/-- **One step**: everything reported as sent is accounted for, unless the step drops it. -/
theorem accounts_step {s s' : State} {a : Action} (hj : Holding s) (hs : step s a = some s') :
    ∃ new, Accounts s s' new (Drops s a) := by
  by_cases hsend : ∃ ctx port m, a = .canSend ctx port m
  · obtain ⟨ctx, port, m, rfl⟩ := hsend
    obtain ⟨-, hs⟩ := Option.ite_none_left_eq_some.mp hs
    rw [← Option.some.inj hs]
    exact accounts_canSend hj ctx port m
  by_cases hservice : ∃ b, a = .service b
  · obtain ⟨b, rfl⟩ := hservice
    obtain ⟨-, hs⟩ := Option.ite_none_left_eq_some.mp hs
    exact ⟨[], accounts_service hj hs⟩
  · simp only [not_exists] at hsend hservice
    have hkeeps : Drops s a = False := by
      cases a with
      | canSend ctx port m => exact absurd rfl (hsend ctx port m)
      | service b => exact absurd rfl (hservice b)
      | _ => rfl
    rw [hkeeps]
    exact ⟨[], (SameTransmit.of_step hs hsend hservice).accounts hj⟩

/-! ## Runs -/

theorem holding_init : Holding State.init := by
  intro m tryTx h
  cases h

theorem inOrder_init : InOrder State.init := rfl

/-- **Nothing that was reported as sent is lost, duplicated or reordered**, at any time in a
run, exactly if no step of the run drops a message. -/
theorem always_inOrder_iff (as : List Action) :
    Always step InOrder State.init as ↔ Each step (fun s a => ¬ Drops s a) State.init as := by
  refine always_iff_each (J := Holding) (fun s a s' hj hs => ?_) (fun s a s' hj h hs => ?_)
    holding_init inOrder_init as
  · obtain ⟨new, hnew⟩ := accounts_step hj hs
    exact hnew.holding
  · obtain ⟨new, hnew⟩ := accounts_step hj hs
    exact hnew.inOrder_iff h

/-- A node is started, a message queued, and the controller takes it at none of the tries. -/
def lostRun : List Action :=
  [.coStartNode 0 .id1 true, .canSend .task .id1 ⟨0x181, false, 1, Vector.replicate 8 7⟩,
    .setFlag 0, .service true, .service true, .service false, .service false, .service false,
    .service false]

theorem message_lost : ¬ Always step InOrder State.init lostRun := by
  intro h
  have hlast := h.last rfl
  exact absurd (congrArg List.length hlast) (by decide)

/-! ## Switched-off interfaces -/

/-- Every message on its way is for an interface that is switched on. -/
def Deliverable (s : State) : Prop := ∀ m ∈ s.outgoing, s.enabled m.canId = true

/-- The assertion of `rhs_hal_can_tx` holds where the service is about to call it. -/
def TxAssertHolds (s : State) : Prop :=
  ∀ m tryTx, s.pc = .sending m tryTx → s.enabled m.canId = true

/-- The steps that keep messages deliverable: no message is queued for an interface that is
switched off, and none is switched off while a message for it is on its way. -/
def Careful (s : State) : Action → Prop
  | .canSend _ port _ =>
      s.txQueue.length < queueLength →
        ∀ h ∈ s.handler.find? fun h => s.canHandle h.od = some port, s.enabled h.canId = true
  | .canSceIrq canId true => ∀ m ∈ s.outgoing, m.canId ≠ canId
  | _ => True

instance (s : State) (a : Action) : Decidable (Careful s a) :=
  match a with
  | .canSend _ _ _ => inferInstanceAs (Decidable (_ → ∀ h ∈ List.find? _ _, _))
  | .canSceIrq _ true => inferInstanceAs (Decidable (∀ m ∈ s.outgoing, _))
  | .canSceIrq _ false | .canRxIrq .. | .coSetField .. | .setFlag _ | .setFlagFails _
  | .coStartNode .. | .service _ => inferInstanceAs (Decidable True)

theorem Deliverable.txAssertHolds {s : State} (h : Deliverable s) : TxAssertHolds s := by
  intro m tryTx hpc
  apply h m
  simp [State.outgoing, hpc, Pc.current]

theorem SendsNothing.outgoing {s s' : State} (h : SendsNothing s s') :
    s'.outgoing = s.outgoing := by
  rw [State.outgoing, State.outgoing, h.before, h.after, h.txQueue]

theorem Deliverable.canSend {s : State} (h : Deliverable s) {ctx : Context} {port : RHSHalCANId}
    {m : Message} (ha : Careful s (.canSend ctx port m)) :
    Deliverable (canSend s ctx port m) := by
  cases hfind : s.handler.find? (fun h => s.canHandle h.od = some port) with
  | none =>
      rw [canSend_none hfind]
      exact h
  | some hd =>
      rw [canSend_some hfind]
      intro msg hmsg
      simp only [State.outgoing] at hmsg
      split at hmsg
      · rename_i hroom
        rw [← List.append_assoc, List.mem_append] at hmsg
        rcases hmsg with hold | hnew
        · exact h msg hold
        · rw [List.mem_singleton.mp hnew]
          exact ha hroom hd hfind
      · exact h msg hmsg

theorem Deliverable.service {s s' : State} (h : Deliverable s) {rcanSend : Bool}
    (hs : service s rcanSend = some s') : Deliverable s' := by
  rcases service_cases hs with hnothing | ⟨m, rest, hcurrent, hq, rfl⟩ | ⟨m, tryTx, hpc, rfl⟩
  · intro msg hmsg
    rw [hnothing.outgoing] at hmsg
    rw [hnothing.enabled]
    exact h msg hmsg
  · intro msg hmsg
    apply h msg
    rw [State.outgoing, hcurrent, hq]
    exact hmsg
  · have hrest : ∀ msg ∈ s.txQueue, s.enabled msg.canId = true := by
      intro msg hmsg
      exact h msg (List.mem_append_right _ hmsg)
    rw [serviceSend]
    split
    · exact h
    · exact hrest
    · split
      · intro msg hmsg
        apply h msg
        rw [State.outgoing, hpc]
        exact hmsg
      · exact hrest

/-- **One step** keeps the messages deliverable. -/
theorem Deliverable.step {s s' : State} {a : Action} (h : Deliverable s) (ha : Careful s a)
    (hs : step s a = some s') : Deliverable s' := by
  by_cases hsend : ∃ ctx port m, a = .canSend ctx port m
  · obtain ⟨ctx, port, m, rfl⟩ := hsend
    obtain ⟨-, hs⟩ := Option.ite_none_left_eq_some.mp hs
    exact Option.some.inj hs ▸ h.canSend ha
  by_cases hservice : ∃ b, a = .service b
  · obtain ⟨b, rfl⟩ := hservice
    obtain ⟨-, hs⟩ := Option.ite_none_left_eq_some.mp hs
    exact h.service hs
  · simp only [not_exists] at hsend hservice
    have hsame := SameTransmit.of_step hs hsend hservice
    intro m hm
    rw [hsame.outgoing] at hm
    apply hsame.enabled m.canId (h m hm)
    intro heq
    rw [heq] at ha
    exact ha m hm rfl

/-- **The interface is always switched on when the service sends**, in any run in which no
message is queued for an interface that is off and none is switched off while a message
for it is on its way. -/
theorem txAssertHolds_of_reach {s : State} (h : Reach step Careful State.init s) :
    TxAssertHolds s := by
  have hdeliverable : Deliverable s := by
    apply h.invariant
    · intro m hm
      cases hm
    · intro s a s' hgood ha hs
      exact hgood.step ha hs
  exact hdeliverable.txAssertHolds

/-- A message is queued, the line goes silent, and the service wakes up to send. -/
def silentLineRun : List Action :=
  [.coStartNode 0 .id1 true, .canSend .task .id1 ⟨0x181, false, 1, Vector.replicate 8 7⟩,
    .setFlag 0, .canSceIrq .id1 true, .service true, .service true]

theorem tx_assert_fails : ∃ s, Reach step (fun _ _ => True) State.init s ∧
    s.crashed = false ∧ ¬ TxAssertHolds s := by
  have hrun : runActions step (fun _ _ => True) State.init silentLineRun = some _ := rfl
  refine ⟨_, .of_runActions hrun, rfl, fun h => ?_⟩
  exact absurd (h _ _ rfl) (by decide)

/-- The same, but the line stays. -/
def liveLineRun : List Action :=
  [.coStartNode 0 .id1 true, .canSend .task .id1 ⟨0x181, false, 1, Vector.replicate 8 7⟩,
    .setFlag 0, .canSceIrq .id1 false, .service true, .service true]

theorem live_line_tx_assert_holds : ∃ s, runActions step Careful State.init liveLineRun = some s ∧
    s.pc.current ≠ [] ∧ TxAssertHolds s := by
  have hrun : runActions step Careful State.init liveLineRun = some _ := rfl
  exact ⟨_, hrun, List.cons_ne_nil _ _, txAssertHolds_of_reach (.of_runActions hrun)⟩

end RhsCore.CanOpen
