import RhsCore.CanOpen.Service

/-!
# No work is left when the CANopen service sleeps

Producers leave work and then announce it with a bit; the service sleeps until a bit is
set.  What has to hold is that work is always either announced or being attended to.

It does as long as the service wakes up to one bit at a time.  The `switch` compares the
whole word with one bit after the other, so a word with several bits is dropped, with
everything it announced.

## Main definitions

* `Job`, `Outstanding`, `Announced` — the work left for the service.
* `Good` — the invariant: outstanding work is announced or attended to.
* `SingleWake` — the steps that keep it.
* `State.Blocked`, `State.Drained` — the service asleep, and no work left.
-/

namespace RhsCore.CanOpen

/-! ## Work and its announcement -/

/-- Work that producers leave for the service. -/
inductive Job
  | rx
  | tx
  | pdo (i : ℕ)
  deriving DecidableEq, Repr

/-- The event that announces it. -/
def Job.type : Job → EventType
  | .rx => .rx
  | .tx => .tx
  | .pdo _ => .pdo

/-- A field was set while handler `i` was registered, and `sendPDOevent` has not been
called for that handler since. -/
def Stale (updates : List Update) (i : ℕ) : Prop :=
  ∃ before n after, updates = before ++ .setField n :: after ∧ i < n ∧ .sendPdo i ∉ after

/-- The work there is. -/
def Outstanding (s : State) : Job → Prop
  | .rx => s.rxQueue ≠ []
  | .tx => s.txQueue ≠ []
  | .pdo i => Stale s.updates i

/-- The bit of an event is set, or a call is about to set it. -/
def Announced (s : State) (t : EventType) : Prop :=
  (∃ p ∈ s.pending, p.type = t) ∨ s.srvEvent &&& t.value ≠ 0

/-- The work the service gets to before it sleeps again. -/
def Pc.attends : Pc → Job → Prop
  | .rxLoop, .rx => True
  | .pdoLoop _, .tx => True
  | .pdoLoop j, .pdo i => j ≤ i
  | .txLoop, .tx => True
  | .sending _ _, .tx => True
  | _, _ => False

/-- **The invariant**: work is announced or attended to, and field updates concern
registered handlers. -/
structure Good (s : State) : Prop where
  heard : ∀ job, Outstanding s job → Announced s job.type ∨ s.pc.attends job
  registered : ∀ i, Stale s.updates i → i < s.handler.length

/-- The service is in `rhs_event_flag_wait`, no bit it waits for is set, and no producer
is between its queueing or writing and the setting of its bit. -/
structure State.Blocked (s : State) : Prop where
  waiting : s.pc = .wait
  silent : s.srvEvent &&& srvFlags = 0
  idle : s.pending = []

/-- Both queues are empty, and every field that was set was followed by `sendPDOevent` for
every handler registered at the time. -/
structure State.Drained (s : State) : Prop where
  rx : s.rxQueue = []
  tx : s.txQueue = []
  pdo : ∀ before n after, s.updates = before ++ .setField n :: after →
    ∀ i < n, .sendPdo i ∈ after

theorem drained_iff {s : State} : s.Drained ↔ ∀ job, ¬ Outstanding s job := by
  constructor
  · intro h job hout
    cases job with
    | rx => exact hout h.rx
    | tx => exact hout h.tx
    | pdo i =>
        obtain ⟨before, n, after, hupdates, hi, hnot⟩ := hout
        exact hnot (h.pdo before n after hupdates i hi)
  · intro h
    refine ⟨not_not.mp (h .rx), not_not.mp (h .tx), fun before n after hupdates i hi => ?_⟩
    by_contra hnot
    exact h (.pdo i) ⟨before, n, after, hupdates, hi, hnot⟩

/-- What an erased entry leaves behind. -/
theorem eq_of_mem_of_not_mem_eraseIdx {l : List Setting} {k : ℕ} {p q : Setting}
    (hp : l[k]? = some p) (hq : q ∈ l) (hnot : q ∉ l.eraseIdx k) : q = p := by
  obtain ⟨i, hi⟩ := List.mem_iff_getElem?.mp hq
  by_cases hik : i = k
  · rw [hik, hp] at hi
    exact (Option.some.inj hi).symm
  · exact absurd (List.mem_eraseIdx_iff_getElem?.mpr ⟨i, hik, hi⟩) hnot

theorem value_and_srvFlags (t : EventType) : t.value &&& srvFlags = t.value := by
  cases t <;> rfl

theorem value_and_value_ne_zero {t u : EventType} (h : t.value &&& u.value ≠ 0) : t = u := by
  cases t <;> cases u <;> first | rfl | exact absurd rfl h

/-- Nothing is announced when the service is blocked. -/
theorem State.Blocked.not_announced {s : State} (h : s.Blocked) (t : EventType) :
    ¬ Announced s t := by
  rintro (⟨p, hp, -⟩ | hbit)
  · rw [h.idle] at hp
    cases hp
  · have hand : s.srvEvent &&& t.value = s.srvEvent &&& srvFlags &&& t.value := by
      rw [UInt32.and_assoc, UInt32.and_comm srvFlags, value_and_srvFlags]
    rw [hand, h.silent, UInt32.zero_and] at hbit
    exact hbit rfl

/-- In a good state, a blocked service has no work left. -/
theorem Good.drained {s : State} (h : Good s) (hb : s.Blocked) : s.Drained := by
  rw [drained_iff]
  intro job hout
  rcases h.heard job hout with hann | hatt
  · exact hb.not_announced _ hann
  · rw [hb.waiting] at hatt
    exact hatt

/-! ## Stale fields -/

theorem not_stale_nil (i : ℕ) : ¬ Stale [] i := by
  rintro ⟨before, n, after, h, -⟩
  simp at h

theorem stale_snoc {updates : List Update} {u : Update} {i : ℕ} (h : Stale (updates ++ [u]) i) :
    (∃ n, u = .setField n ∧ i < n) ∨ (Stale updates i ∧ u ≠ .sendPdo i) := by
  obtain ⟨before, n, after, hupdates, hi, hnot⟩ := h
  rcases List.eq_nil_or_concat after with rfl | ⟨after, v, rfl⟩
  · obtain ⟨-, hu⟩ := List.append_inj' hupdates rfl
    exact .inl ⟨n, List.head_eq_of_cons_eq hu, hi⟩
  · rw [List.concat_eq_append, ← List.cons_append, ← List.append_assoc] at hupdates
    obtain ⟨hrest, hu⟩ := List.append_inj' hupdates rfl
    obtain rfl : u = v := List.head_eq_of_cons_eq hu
    rw [List.concat_eq_append, List.mem_append, not_or] at hnot
    exact .inr ⟨⟨before, n, after, hrest, hi, hnot.1⟩, fun hu => hnot.2 (by simp [hu])⟩

/-! ## What keeps the invariant -/

/-- A step keeps the invariant if no announcement is lost, and if work outstanding after
it is announced, or was there before and stays attended to if it was. -/
theorem Good.of_step {s s' : State} (h : Good s) (hann : ∀ t, Announced s t → Announced s' t)
    (hout : ∀ job, Outstanding s' job →
      Announced s' job.type ∨ Outstanding s job ∧ (s.pc.attends job → s'.pc.attends job))
    (hreg : ∀ i, Stale s'.updates i → i < s'.handler.length) : Good s' := by
  refine ⟨fun job hjob => ?_, hreg⟩
  rcases hout job hjob with hnow | ⟨hbefore, hatt⟩
  · exact .inl hnow
  · exact (h.heard job hbefore).imp (hann _) hatt

/-- A step that leaves the queues, the announcements, the field updates and the service
alone keeps the invariant. -/
theorem Good.of_same {s s' : State} (h : Good s)
    (hout : ∀ job, Outstanding s' job = Outstanding s job)
    (hann : ∀ t, Announced s' t = Announced s t) (hpc : s'.pc = s.pc)
    (hreg : ∀ i, Stale s'.updates i → i < s'.handler.length) : Good s' :=
  h.of_step (fun t ht => (hann t).mpr ht)
    (fun job hjob => .inr ⟨(hout job).mp hjob, fun hatt => hpc.symm ▸ hatt⟩) hreg

theorem Good.crash {s : State} (h : Good s) : Good (crash s) :=
  h.of_same (fun _ => rfl) (fun _ => rfl) rfl h.registered

/-- A producer that leaves work of one kind, and will announce it, keeps the invariant. -/
theorem Good.produce {s s' : State} {p : Setting} (h : Good s)
    (hpend : s'.pending = s.pending ++ [p]) (hbits : s'.srvEvent = s.srvEvent) (hpc : s'.pc = s.pc)
    (hout : ∀ job, Outstanding s' job → job.type = p.type ∨ Outstanding s job)
    (hreg : ∀ i, Stale s'.updates i → i < s'.handler.length) : Good s' := by
  refine h.of_step (fun t ht => ?_) (fun job hjob => ?_) hreg
  · rcases ht with ⟨q, hq, rfl⟩ | hbit
    · exact .inl ⟨q, by simp [hpend, hq], rfl⟩
    · exact .inr (hbits ▸ hbit)
  · rcases hout job hjob with htype | hbefore
    · exact .inl (.inl ⟨p, by simp [hpend], htype.symm⟩)
    · exact .inr ⟨hbefore, fun hatt => hpc.symm ▸ hatt⟩

theorem Good.canRxIrqCb {s : State} (h : Good s) (canId : RHSHalCANId)
    (frame : RHSHalCANFrameType) : Good (canRxIrqCb s canId frame) := by
  rw [CanOpen.canRxIrqCb]
  split
  · exact h
  · refine h.produce (p := ⟨.rx, .irq⟩) rfl rfl rfl (fun job hjob => ?_) h.registered
    cases job with
    | rx => exact .inl rfl
    | tx => exact .inr hjob
    | pdo i => exact .inr hjob

theorem Good.canSend {s : State} (h : Good s) (ctx : Context) (port : RHSHalCANId) (m : Message) :
    Good (canSend s ctx port m) := by
  rw [CanOpen.canSend]
  split
  · exact h.crash
  · refine h.produce (p := ⟨.tx, ctx⟩) rfl rfl rfl (fun job hjob => ?_) h.registered
    cases job with
    | rx => exact .inr hjob
    | tx => exact .inl rfl
    | pdo i => exact .inr hjob

theorem Good.coSetField {s : State} (h : Good s) (ctx : Context) (successful : Bool) :
    Good (coSetField s ctx successful) := by
  rw [CanOpen.coSetField]
  split
  · refine h.produce (p := ⟨.pdo, ctx⟩) rfl rfl rfl (fun job hjob => ?_) (fun i hi => ?_)
    · cases job with
      | rx => exact .inr hjob
      | tx => exact .inr hjob
      | pdo i => exact .inl rfl
    · rcases stale_snoc hi with ⟨n, hn, hlt⟩ | ⟨hbefore, -⟩
      · rwa [Update.setField.inj hn]
      · exact h.registered i hbefore
  · exact h

/-- A call under way sets its bit. -/
theorem Good.eventFlagSet {s s' : State} (h : Good s) {k : ℕ} (hs : eventFlagSet s k = some s') :
    Good s' := by
  obtain ⟨p, hp, rfl⟩ := Option.map_eq_some_iff.mp hs
  refine h.of_step (fun t ht => ?_) (fun job hjob => .inr ⟨hjob, id⟩) h.registered
  rw [Announced, eventGroupSetBits, ne_eq, or_and_eq_zero_iff, not_and_or]
  rcases ht with ⟨q, hq, rfl⟩ | hbit
  · by_cases hmem : q ∈ s.pending.eraseIdx k
    · exact .inl ⟨q, hmem, rfl⟩
    · obtain rfl : q = p := eq_of_mem_of_not_mem_eraseIdx hp hq hmem
      exact .inr (.inr (by cases q.type <;> decide))
  · exact .inr (.inl hbit)

theorem Good.coStartNode {s : State} (h : Good s) (d : CoData) (id : RHSHalCANId)
    (started : Bool) : Good (coStartNode s d id started) := by
  rw [CanOpen.coStartNode]
  split
  · refine h.of_same (fun _ => rfl) (fun _ => rfl) rfl (fun i hi => ?_)
    exact (h.registered i hi).trans_le (by simp)
  · exact h.crash

theorem Good.canSceIrqCb {s : State} (h : Good s) (canId : RHSHalCANId) (txPassive : Bool) :
    Good (canSceIrqCb s canId txPassive) := by
  rw [CanOpen.canSceIrqCb]
  split
  · split
    · exact h
    · split
      · exact h.of_same (fun _ => rfl) (fun _ => rfl) rfl h.registered
      · exact h.crash
  · exact h

/-! ## The service -/

/-- The service may leave a loop when the work it attended to there is done, or is attended
to where it goes. -/
theorem Good.leave {s : State} (h : Good s) (pc : Pc)
    (hatt : ∀ job, Outstanding s job → s.pc.attends job → pc.attends job) :
    Good { s with pc := pc } :=
  h.of_step (fun _ => id) (fun job hjob => .inr ⟨hjob, hatt job hjob⟩) h.registered

theorem Good.serviceRx {s : State} (h : Good s) (hpc : s.pc = .rxLoop) : Good (serviceRx s) := by
  cases hq : s.rxQueue with
  | nil =>
      rw [serviceRx_nil hq]
      refine h.leave .wait fun job hjob hatt => ?_
      rw [hpc] at hatt
      cases job with
      | rx => exact absurd hq hjob
      | tx => exact hatt
      | pdo i => exact hatt
  | cons msg rest =>
      rw [serviceRx_cons hq]
      refine h.of_step (fun _ => id) (fun job hjob => .inr ⟨?_, id⟩) h.registered
      cases job with
      | rx =>
          change s.rxQueue ≠ []
          simp [hq]
      | tx => exact hjob
      | pdo i => exact hjob

theorem Good.servicePdo {s : State} (h : Good s) {i : ℕ} (hpc : s.pc = .pdoLoop i) :
    Good (servicePdo s i) := by
  rw [CanOpen.servicePdo]
  split
  · refine h.of_step (fun _ => id) (fun job hjob => .inr ?_) (fun j hj => ?_)
    · cases job with
      | rx => exact ⟨hjob, fun hatt => by rw [hpc] at hatt; exact hatt⟩
      | tx => exact ⟨hjob, fun _ => trivial⟩
      | pdo j =>
          -- the fields of handler `i` are sent now, those of later handlers in later turns
          rcases stale_snoc hjob with ⟨n, hn, -⟩ | ⟨hbefore, hne⟩
          · cases hn
          · refine ⟨hbefore, fun hatt => ?_⟩
            rw [hpc] at hatt
            exact lt_of_le_of_ne hatt fun hij => hne (by rw [hij])
    · rcases stale_snoc hj with ⟨n, hn, -⟩ | ⟨hbefore, -⟩
      · cases hn
      · exact h.registered j hbefore
  · rename_i hend
    refine h.leave .txLoop fun job hjob hatt => ?_
    rw [hpc] at hatt
    cases job with
    | rx => exact hatt
    | tx => trivial
    | pdo j => exact hend (lt_of_le_of_lt hatt (h.registered j hjob))

theorem Good.serviceTx {s : State} (h : Good s) (hpc : s.pc = .txLoop) : Good (serviceTx s) := by
  cases hq : s.txQueue with
  | nil =>
      rw [serviceTx_nil hq]
      refine h.leave .wait fun job hjob hatt => ?_
      rw [hpc] at hatt
      cases job with
      | rx => exact hatt
      | tx => exact absurd hq hjob
      | pdo i => exact hatt
  | cons msg rest =>
      rw [serviceTx_cons hq]
      refine h.of_step (fun _ => id) (fun job hjob => .inr ?_) h.registered
      rw [hpc]
      cases job with
      | rx => exact ⟨hjob, id⟩
      | tx =>
          refine ⟨?_, id⟩
          change s.txQueue ≠ []
          simp [hq]
      | pdo i => exact ⟨hjob, id⟩

/-- The loop that sends leaves the queues alone. -/
theorem Good.serviceSend {s : State} (h : Good s) {msg : CanOpenAppMessage} {tryTx : ℕ}
    (hpc : s.pc = .sending msg tryTx) (rcanSend : Bool) :
    Good (serviceSend s msg tryTx rcanSend) := by
  have hgoes : ∀ (acc : List (RHSHalCANId × RHSHalCANFrameType)) (pc : Pc),
      (∀ job, s.pc.attends job → pc.attends job) → Good { s with accepted := acc, pc := pc } :=
    fun _ _ hatt => h.of_step (fun _ => id) (fun job hjob => .inr ⟨hjob, hatt job⟩) h.registered
  rw [CanOpen.serviceSend]
  split
  · exact h.crash
  · exact hgoes _ .txLoop fun job hatt => by rw [hpc] at hatt; cases job <;> exact hatt
  · split
    · exact hgoes _ (.sending msg (tryTx - 1)) fun job hatt => by
        rw [hpc] at hatt; cases job <;> exact hatt
    · exact hgoes _ .txLoop fun job hatt => by rw [hpc] at hatt; cases job <;> exact hatt

/-! ## Waking up -/

/-- Where the `switch` goes on a single bit. -/
def EventType.entry : EventType → Pc
  | .rx => .rxLoop
  | .tx => .txLoop
  | .pdo => .pdoLoop 0

/-- On a single bit the service goes to the loop for it. -/
theorem serviceWait_single {s : State} {t : EventType} (h : s.srvEvent = t.value) :
    serviceWait s = some { s with srvEvent := 0, pc := t.entry } := by
  rw [serviceWait, h]
  cases t <;> rfl

/-- That loop gets to all the work the bit announced. -/
theorem entry_attends (job : Job) : job.type.entry.attends job := by
  cases job with
  | rx => trivial
  | tx => trivial
  | pdo i => exact Nat.zero_le i

/-- A wake to a single bit keeps the invariant. -/
theorem Good.serviceWait {s : State} (h : Good s) (hpc : s.pc = .wait) {t : EventType}
    (ht : s.srvEvent = t.value) : Good { s with srvEvent := 0, pc := t.entry } := by
  refine ⟨fun job hjob => ?_, h.registered⟩
  rcases h.heard job hjob with (hpend | hbit) | hatt
  · exact .inl (.inl hpend)
  · rw [ht] at hbit
    rw [value_and_value_ne_zero hbit]
    exact .inr (entry_attends job)
  · rw [hpc] at hatt
    exact hatt.elim

/-- A word with several bits is cleared, and the service waits again. -/
theorem serviceWait_several {s s' : State} (hpc : s.pc = .wait)
    (hne : ∀ t : EventType, s.srvEvent ≠ t.value) (hs : serviceWait s = some s') :
    s' = { s with srvEvent := s.srvEvent &&& ~~~ srvFlags } := by
  rw [serviceWait, Option.map_eq_some_iff] at hs
  obtain ⟨⟨rflags, left⟩, hwait, rfl⟩ := hs
  rw [eventGroupWaitBits] at hwait
  split at hwait
  · rename_i hthere
    obtain ⟨rfl, rfl⟩ := Prod.mk.inj (Option.some.inj hwait)
    simp only [rhsEventFlagWait_eq rhsWaitForever hthere, if_neg (hne _), ite_self, ← hpc]
    rfl
  · cases hwait

/-! ## Runs -/

/-- The word has exactly one of the bits. -/
def SingleBit (bits : UInt32) : Prop :=
  bits = EventType.rx.value ∨ bits = EventType.tx.value ∨ bits = EventType.pdo.value

instance (bits : UInt32) : Decidable (SingleBit bits) :=
  inferInstanceAs (Decidable (_ ∨ _ ∨ _))

/-- The service wakes up to one bit at a time, and the kernel refuses no bit. -/
def SingleWake (s : State) : Action → Prop
  | .service _ => s.pc = .wait → SingleBit s.srvEvent
  | .setFlagFails _ => False
  | _ => True

instance (s : State) (a : Action) : Decidable (SingleWake s a) :=
  match a with
  | .service _ => inferInstanceAs (Decidable (_ → _))
  | .setFlagFails _ => inferInstanceAs (Decidable False)
  | .canRxIrq .. | .canSend .. | .coSetField .. | .setFlag _ | .coStartNode .. | .canSceIrq .. =>
      inferInstanceAs (Decidable True)

theorem SingleBit.exists_type {bits : UInt32} (h : SingleBit bits) :
    ∃ t : EventType, bits = t.value := by
  rcases h with h | h | h
  · exact ⟨.rx, h⟩
  · exact ⟨.tx, h⟩
  · exact ⟨.pdo, h⟩

theorem good_init : Good State.init where
  heard := by
    intro job hjob
    cases job with
    | rx => exact absurd rfl hjob
    | tx => exact absurd rfl hjob
    | pdo i => exact absurd hjob (not_stale_nil i)
  registered := fun i hi => absurd hi (not_stale_nil i)

theorem Good.service {s s' : State} (h : Good s) {rcanSend : Bool}
    (hone : s.pc = .wait → SingleBit s.srvEvent) (hs : service s rcanSend = some s') :
    Good s' := by
  rw [CanOpen.service] at hs
  split at hs
  · rename_i hpc
    obtain ⟨t, ht⟩ := (hone hpc).exists_type
    rw [serviceWait_single ht] at hs
    exact Option.some.inj hs ▸ h.serviceWait hpc ht
  · rename_i hpc
    exact Option.some.inj hs ▸ h.serviceRx hpc
  · rename_i hpc
    exact Option.some.inj hs ▸ h.servicePdo hpc
  · rename_i hpc
    exact Option.some.inj hs ▸ h.serviceTx hpc
  · rename_i hpc
    exact Option.some.inj hs ▸ h.serviceSend hpc rcanSend

/-- **One step** keeps the invariant. -/
theorem Good.step {s s' : State} {a : Action} (h : Good s) (ha : SingleWake s a)
    (hs : step s a = some s') : Good s' := by
  unfold CanOpen.step at hs
  split at hs
  · cases hs
  · cases a with
    | canRxIrq canId frame =>
        obtain ⟨-, hs⟩ := Option.ite_none_right_eq_some.mp hs
        exact Option.some.inj hs ▸ h.canRxIrqCb canId frame
    | canSend ctx port m => exact Option.some.inj hs ▸ h.canSend ctx port m
    | coSetField ctx successful => exact Option.some.inj hs ▸ h.coSetField ctx successful
    | setFlag k => exact h.eventFlagSet hs
    | setFlagFails k => exact ha.elim
    | coStartNode d id started => exact Option.some.inj hs ▸ h.coStartNode d id started
    | canSceIrq canId txPassive =>
        obtain ⟨-, hs⟩ := Option.ite_none_right_eq_some.mp hs
        exact Option.some.inj hs ▸ h.canSceIrqCb canId txPassive
    | service rcanSend => exact h.service ha hs

/-- **No work is left when the service sleeps**, in any run in which it wakes up to one bit
at a time and no bit is refused. -/
theorem drained_of_blocked {s : State} (h : Reach step SingleWake State.init s)
    (hb : s.Blocked) : s.Drained :=
  (h.invariant good_init fun _ _ _ hgood ha hs => hgood.step ha hs).drained hb

/-- Waking up to several bits at once leaves work behind: with no producer under way, the
service sleeps again at once, and no work has been done. -/
theorem not_drained_of_several {s s' : State} {rcanSend : Bool} (hpc : s.pc = .wait)
    (hne : ¬ SingleBit s.srvEvent) (hidle : s.pending = []) (hwork : ¬ s.Drained)
    (hs : step s (.service rcanSend) = some s') : s'.Blocked ∧ ¬ s'.Drained := by
  unfold CanOpen.step at hs
  split at hs
  · cases hs
  · simp only [service, hpc] at hs
    have hsame := serviceWait_several hpc
      (fun t ht => hne (by rw [ht]; cases t <;> simp [SingleBit])) hs
    subst hsame
    refine ⟨⟨hpc, ?_, hidle⟩, ?_⟩
    · simp [UInt32.and_assoc]
    · rwa [drained_iff] at hwork ⊢

/-! ## Two runs -/

/-- The frame of a CAN message. -/
def someFrame : RHSHalCANFrameType := { RHSHalCANFrameType.zero with id := 0x201, len := 1 }

/-- A field is set, and while the service sends what follows from it a frame arrives and
the field is set again. -/
def busyRun : List Action :=
  [.coStartNode 0 .id1 true, .coSetField .task true, .setFlag 0, .service true, .service true,
    .canRxIrq .id1 someFrame, .coSetField .task true, .setFlag 0, .setFlag 0, .service true,
    .service true, .service true]

/-- The second wake is to both bits: the service sleeps with the frame in its queue. -/
theorem frame_stranded : ∃ s, runActions step (fun _ _ => True) State.init busyRun = some s ∧
    s.Blocked ∧ ¬ s.Drained := by
  refine ⟨_, rfl, ⟨rfl, rfl, rfl⟩, fun h => ?_⟩
  exact absurd h.rx (List.cons_ne_nil _ _)

/-- The same, but the frame arrives only when the service sleeps again. -/
def quietRun : List Action :=
  [.coStartNode 0 .id1 true, .coSetField .task true, .setFlag 0, .service true, .service true,
    .service true, .service true, .canRxIrq .id1 someFrame, .setFlag 0, .service true,
    .service true, .service true]

theorem quiet_run_drained : ∃ s, runActions step SingleWake State.init quietRun = some s ∧
    s.dispatched ≠ [] ∧ s.Drained := by
  have hrun : runActions step SingleWake State.init quietRun = some _ := rfl
  refine ⟨_, hrun, List.cons_ne_nil _ _, drained_of_blocked (.of_runActions hrun) ⟨rfl, rfl, rfl⟩⟩

end RhsCore.CanOpen
