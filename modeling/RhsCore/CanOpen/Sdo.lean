import RhsCore.CanOpen.Service

/-!
# Reading and writing a node's dictionary

`co_get_sdo` and `co_set_sdo` start a transfer in the stack and sleep until its callback,
`can_open_sdo_cb`, sets a bit, or until the time is over.  One call at a time holds
`sdo_mutex`.

The bit and the registered callback do not say which transfer they belong to.  What has
to hold is that whatever is left of a transfer is gone when its call returns.

The stack is a library.  What is used of it: it calls back at most once for a transfer,
at any time after it was started and before `resetSDO`.

## Main definitions

* `State`, `Action`, `step` — the calls, the stack's transfers and the callback.
* `Sound` — a call succeeds by its own transfer, and gets its own transfer's data.
* `Good` — the invariant: what is left of transfers belongs to the call under way.
* `Timely` — the steps that keep it.
-/

namespace RhsCore.CanOpen.Sdo

/-! ## Calls and transfers -/

/-- `EVENT_FLAG_SDO`. -/
def eventFlagSdo : UInt32 := 1

/-- `SDOCallback`: a function, and the call it was registered by. -/
structure SDOCallback where
  fn : ℕ
  call : ℕ
  deriving DecidableEq, Repr

/-- What a call asks for: `co_get_sdo`, or `co_set_sdo` with its data. -/
inductive Kind
  | get
  | set (data : List UInt8)
  deriving DecidableEq, Repr

/-- The arguments of a call; `call` numbers the calls. -/
structure Request where
  call : ℕ
  kind : Kind
  d : CoData
  id : UInt8
  ind : UInt16
  sub : UInt8
  cb : Option ℕ
  deriving DecidableEq, Repr

/-- What the call stores in `sdo_callback`. -/
def Request.callback (r : Request) : Option SDOCallback :=
  r.cb.map fun fn => { fn := fn, call := r.call }

/-- A transfer the stack has started and may still call back for. -/
structure STransfer where
  call : ℕ
  d : CoData
  nodeId : UInt8
  index : UInt16
  subIndex : UInt8
  deriving DecidableEq, Repr

/-- The transfer a call starts. -/
def Request.transfer (r : Request) : STransfer :=
  { call := r.call, d := r.d, nodeId := r.id, index := r.ind, subIndex := r.sub }

/-- The states in which the stack calls back. -/
inductive TransferState
  | finished
  | abortedInternal
  | abortedRcv
  deriving DecidableEq, Repr

/-- A call of the registered callback. -/
structure Delivery where
  callback : SDOCallback
  transfer : STransfer
  data : List UInt8
  deriving DecidableEq, Repr

/-- What a call returned, and the calls whose transfers had set the bit it woke up to. -/
structure Return where
  call : ℕ
  result : ℤ
  woken : List ℕ
  deriving DecidableEq, Repr

/-- Where the holder of `sdo_mutex` is. -/
inductive Pc
  /-- Nobody holds it. -/
  | free
  | acquired (r : Request)
  /-- Before `readNetworkDictCallback` or `writeNetworkDictCallBack`. -/
  | starting (r : Request)
  /-- In `rhs_event_flag_wait`. -/
  | waiting (r : Request)
  /-- Before `resetSDO`. -/
  | failed (r : Request) (result : ℤ)
  /-- Before `sdo_callback` is cleared. -/
  | reset (r : Request) (result : ℤ)
  /-- Before the release of the mutex. -/
  | leaving (r : Request) (result : ℤ) (woken : List ℕ)
  deriving DecidableEq, Repr

/-- The calls, the stack's transfers, and the callbacks under way. -/
structure State where
  pc : Pc
  sdoEvent : UInt32
  sdoCallback : Option SDOCallback
  transfers : List STransfer
  /-- The invocations of `can_open_sdo_cb` that have still to set the bit. -/
  running : List STransfer
  /-- The number of calls so far. -/
  calls : ℕ
  /-- The calls whose transfers have set the bit since it was last cleared. -/
  setters : List ℕ
  /-- The calls whose transfers completed without being aborted. -/
  completed : List ℕ
  delivered : List Delivery
  returned : List Return

def State.init : State where
  pc := .free
  sdoEvent := 0
  sdoCallback := none
  transfers := []
  running := []
  calls := 0
  setters := []
  completed := []
  delivered := []
  returned := []

/-! ## The calls -/

/-- `co_get_sdo` and `co_set_sdo` get the mutex. -/
def coSdo (s : State) (kind : Kind) (d : CoData) (id : UInt8) (ind : UInt16) (sub : UInt8)
    (cb : Option ℕ) : Option State :=
  if s.pc = .free then
    let r := { call := s.calls, kind := kind, d := d, id := id, ind := ind, sub := sub, cb := cb }
    some { s with pc := .acquired r, calls := s.calls + 1 }
  else none

def coGetSdo (s : State) (d : CoData) (id : UInt8) (ind : UInt16) (sub : UInt8)
    (cb : Option ℕ) : Option State :=
  coSdo s .get d id ind sub cb

def coSetSdo (s : State) (d : CoData) (id : UInt8) (ind : UInt16) (sub : UInt8)
    (data : List UInt8) (cb : Option ℕ) : Option State :=
  coSdo s (.set data) d id ind sub cb

/-- The wait comes back with the bits `rflags`. -/
def waitReturns (s : State) (r : Request) (sdoTimeoutMs rflags left : UInt32) : State :=
  if rhsEventFlagWait eventFlagSdo rhsFlagWaitAny sdoTimeoutMs rflags = eventFlagSdo then
    { s with sdoEvent := left, setters := [], pc := .leaving r 0 s.setters }
  else { s with sdoEvent := left, pc := .failed r 0 }

/-- The next step of the call that holds the mutex; `result` is what the stack answers when
it is asked to start a transfer, 0 if it has. -/
def caller (sdoTimeoutMs : UInt32) (s : State) (result : ℤ) : Option State :=
  match s.pc with
  | .free => none
  | .acquired r => some { s with sdoCallback := r.callback, pc := .starting r }
  | .starting r =>
      if result = 0 then some { s with transfers := s.transfers ++ [r.transfer], pc := .waiting r }
      else some { s with pc := .failed r result }
  | .waiting r =>
      (eventGroupWaitBits eventFlagSdo (rhsFlagWaitAny &&& rhsFlagNoClear = 0)
          (rhsFlagWaitAny &&& rhsFlagWaitAll ≠ 0) s.sdoEvent).map fun (rflags, left) =>
        waitReturns s r sdoTimeoutMs rflags left
  | .failed r result =>
      some { s with transfers := s.transfers.filter fun t => t.d ≠ r.d, pc := .reset r result }
  | .reset r result =>
      some
        { s with sdoCallback := none, pc := .leaving r (if result ≠ 0 then result else -1) [] }
  | .leaving r result woken =>
      some
        { s with
          pc := .free
          returned := s.returned ++ [{ call := r.call, result := result, woken := woken }] }

/-- The time is over and the bit is not set. -/
def timeout (sdoTimeoutMs : UInt32) (s : State) : Option State :=
  match s.pc with
  | .waiting r =>
      if eventBitsThere eventFlagSdo (rhsFlagWaitAny &&& rhsFlagWaitAll ≠ 0) s.sdoEvent then none
      else some (waitReturns s r sdoTimeoutMs s.sdoEvent s.sdoEvent)
  | _ => none

/-! ## The callback -/

/-- `can_open_sdo_cb` for the `k`-th transfer, up to the setting of the bit. -/
def canOpenSdoCb (s : State) (k : ℕ) (state : TransferState) (data : List UInt8) :
    Option State :=
  (s.transfers[k]?).map fun t =>
    let s := { s with transfers := s.transfers.eraseIdx k, running := s.running ++ [t] }
    if state ≠ .abortedInternal ∧ state ≠ .abortedRcv then
      { s with
        delivered :=
          match s.sdoCallback with
          | none => s.delivered
          | some callback =>
              s.delivered ++ [{ callback := callback, transfer := t, data := data }]
        completed := s.completed ++ [t.call] }
    else s

/-- `rhs_event_flag_set`, carried out by the kernel for the `k`-th invocation under way. -/
def eventFlagSet (s : State) (k : ℕ) : Option State :=
  (s.running[k]?).map fun t =>
    { s with
      sdoEvent := eventGroupSetBits s.sdoEvent eventFlagSdo
      setters := s.setters ++ [t.call]
      running := s.running.eraseIdx k }

/-- `rhs_event_flag_set`, refused by the kernel; this goes unnoticed. -/
def eventFlagSetFails (s : State) (k : ℕ) : Option State :=
  (s.running[k]?).map fun _ => { s with running := s.running.eraseIdx k }

/-! ## Any order of all of them -/

/-- What can happen next. -/
inductive Action
  | coGetSdo (d : CoData) (id : UInt8) (ind : UInt16) (sub : UInt8) (cb : Option ℕ)
  | coSetSdo (d : CoData) (id : UInt8) (ind : UInt16) (sub : UInt8) (data : List UInt8)
      (cb : Option ℕ)
  | caller (result : ℤ)
  | timeout
  | canOpenSdoCb (k : ℕ) (state : TransferState) (data : List UInt8)
  | setFlag (k : ℕ)
  | setFlagFails (k : ℕ)
  deriving DecidableEq, Repr

def step (sdoTimeoutMs : UInt32) (s : State) : Action → Option State
  | .coGetSdo d id ind sub cb => coGetSdo s d id ind sub cb
  | .coSetSdo d id ind sub data cb => coSetSdo s d id ind sub data cb
  | .caller result => caller sdoTimeoutMs s result
  | .timeout => timeout sdoTimeoutMs s
  | .canOpenSdoCb k state data => canOpenSdoCb s k state data
  | .setFlag k => eventFlagSet s k
  | .setFlagFails k => eventFlagSetFails s k

/-- **Sound**: a call that succeeded did so by its own transfer, which completed, and no
callback got the data of another call's transfer. -/
structure Sound (s : State) : Prop where
  returned : ∀ r ∈ s.returned, r.result = 0 →
    r.call ∈ s.completed ∧ ∀ c ∈ r.woken, c = r.call
  delivered : ∀ x ∈ s.delivered, x.callback.call = x.transfer.call

/-! ## What is left of a transfer -/

/-- The calls that something is left of: a transfer, an invocation of the callback, or the
bit it set. -/
def State.left (s : State) : List ℕ :=
  s.transfers.map (·.call) ++ s.running.map (·.call) ++ s.setters

/-- At each place of a call, what may be left. -/
def Pc.Owns (s : State) : Pc → Prop
  | .free => s.left = []
  | .acquired _ => s.left = []
  | .starting r => s.left = [] ∧ s.sdoCallback = r.callback
  | .waiting r =>
      (s.left = [] ∨ s.left = [r.call]) ∧ (∀ t ∈ s.transfers, t.d = r.d) ∧
        s.sdoCallback = r.callback
  | .failed r _ => s.running = [] ∧ s.setters = [] ∧ ∀ t ∈ s.transfers, t.d = r.d
  | .reset _ _ => s.left = []
  | .leaving r result woken =>
      s.left = [] ∧ (result = 0 → r.call ∈ s.completed ∧ ∀ c ∈ woken, c = r.call)

/-- **The invariant**: what is left belongs to the call under way, and the bit is set by
transfers that completed. -/
structure Good (s : State) : Prop where
  sound : Sound s
  event : s.sdoEvent = if s.setters = [] then 0 else eventFlagSdo
  completed : ∀ c ∈ s.running.map (·.call) ++ s.setters, c ∈ s.completed
  owns : s.pc.Owns s

/-- The steps that keep it: no transfer is aborted, none completes between the end of the
time and `resetSDO`, and the time is not over while the callback runs. -/
def Timely (s : State) : Action → Prop
  | .canOpenSdoCb _ state _ => state = .finished ∧ ∀ r result, s.pc ≠ .failed r result
  | .timeout => s.running = []
  | _ => True

theorem left_eq_nil {s : State} (h : s.left = []) :
    s.transfers = [] ∧ s.running = [] ∧ s.setters = [] := by
  simpa [State.left, and_assoc] using h

/-- A transfer that can still be called back for is all that is left. -/
theorem left_of_transfer {s : State} {c k : ℕ} {t : STransfer} (h : s.left = [c])
    (ht : s.transfers[k]? = some t) :
    k = 0 ∧ s.transfers = [t] ∧ t.call = c ∧ s.running = [] ∧ s.setters = [] := by
  cases htransfers : s.transfers with
  | nil => simp [htransfers] at ht
  | cons t' rest =>
      simp only [State.left, htransfers, List.map_cons, List.cons_append, List.cons.injEq,
        List.append_eq_nil_iff, List.map_eq_nil_iff] at h
      obtain ⟨hcall, ⟨rfl, hrunning⟩, hsetters⟩ := h
      rw [htransfers] at ht
      obtain ⟨rfl, rfl⟩ : k = 0 ∧ t' = t := by simpa [List.getElem?_singleton] using ht
      exact ⟨rfl, rfl, hcall, hrunning, hsetters⟩

/-- The same for an invocation of the callback. -/
theorem left_of_running {s : State} {c k : ℕ} {t : STransfer} (h : s.left = [c])
    (ht : s.running[k]? = some t) :
    k = 0 ∧ s.transfers = [] ∧ s.running = [t] ∧ t.call = c ∧ s.setters = [] := by
  cases htransfers : s.transfers with
  | cons t' rest =>
      simp only [State.left, htransfers, List.map_cons, List.cons_append, List.cons.injEq,
        List.append_eq_nil_iff, List.map_eq_nil_iff] at h
      simp [h.2.1.2] at ht
  | nil =>
      cases hrunning : s.running with
      | nil => simp [hrunning] at ht
      | cons t' rest =>
          simp only [State.left, htransfers, hrunning, List.map_nil, List.nil_append,
            List.map_cons, List.cons_append, List.cons.injEq, List.append_eq_nil_iff,
            List.map_eq_nil_iff] at h
          obtain ⟨hcall, rfl, hsetters⟩ := h
          rw [hrunning] at ht
          obtain ⟨rfl, rfl⟩ : k = 0 ∧ t' = t := by simpa [List.getElem?_singleton] using ht
          exact ⟨rfl, rfl, rfl, hcall, hsetters⟩

/-! ## The steps -/

theorem good_init : Good State.init where
  sound := ⟨by simp [State.init], by simp [State.init]⟩
  event := rfl
  completed := by simp [State.init]
  owns := rfl

theorem Good.coSdo {s s' : State} (h : Good s) {kind : Kind} {d : CoData} {id : UInt8}
    {ind : UInt16} {sub : UInt8} {cb : Option ℕ} (hs : coSdo s kind d id ind sub cb = some s') :
    Good s' := by
  obtain ⟨hpc, hs⟩ := Option.ite_none_right_eq_some.mp hs
  have howns := h.owns
  rw [hpc] at howns
  rw [← Option.some.inj hs]
  exact ⟨⟨h.sound.returned, h.sound.delivered⟩, h.event, h.completed, howns⟩

/-- The wait ends when the bit is there: the call's own transfer has set it. -/
theorem Good.wake {s : State} (h : Good s) {sdoTimeoutMs rflags left : UInt32} {r : Request}
    (hpc : s.pc = .waiting r)
    (hwait : eventGroupWaitBits eventFlagSdo true false s.sdoEvent = some (rflags, left)) :
    Good (waitReturns s r sdoTimeoutMs rflags left) := by
  have howns := h.owns
  rw [hpc] at howns
  obtain ⟨hleft, -, -⟩ := howns
  have hset : s.setters ≠ [] := by
    intro hnone
    rw [h.event, if_pos hnone] at hwait
    cases hwait
  rw [h.event, if_neg hset] at hwait
  obtain ⟨rfl, rfl⟩ : eventFlagSdo = rflags ∧ 0 = left := Prod.mk.inj (Option.some.inj hwait)
  rw [waitReturns, if_pos (rhsEventFlagWait_eq sdoTimeoutMs rfl)]
  have hmine : s.left = [r.call] := by
    rcases hleft with hnil | hmine
    · exact absurd (left_eq_nil hnil).2.2 hset
    · exact hmine
  have hsetters : s.transfers = [] ∧ s.running = [] ∧ s.setters = [r.call] := by
    have hlen := congrArg List.length hmine
    have hpos := List.length_pos_iff.mpr hset
    simp only [State.left, List.length_append, List.length_map, List.length_singleton] at hlen
    have htransfers : s.transfers = [] := List.length_eq_zero_iff.mp (by omega)
    have hrunning : s.running = [] := List.length_eq_zero_iff.mp (by omega)
    exact ⟨htransfers, hrunning, by simpa [State.left, htransfers, hrunning] using hmine⟩
  obtain ⟨htransfers, hrunning, hsetters⟩ := hsetters
  refine ⟨⟨h.sound.returned, h.sound.delivered⟩, rfl, ?_, ?_, fun _ => ⟨?_, ?_⟩⟩
  · simp [hrunning]
  · simp [State.left, htransfers, hrunning]
  · apply h.completed
    simp [hsetters]
  · simp [hsetters]

theorem Good.caller {s s' : State} (h : Good s) {sdoTimeoutMs : UInt32} {result : ℤ}
    (hs : caller sdoTimeoutMs s result = some s') : Good s' := by
  have howns := h.owns
  rw [Sdo.caller] at hs
  split at hs
  · cases hs
  · rename_i r hpc
    rw [hpc] at howns
    rw [← Option.some.inj hs]
    exact ⟨⟨h.sound.returned, h.sound.delivered⟩, h.event, h.completed, howns, rfl⟩
  · rename_i r hpc
    rw [hpc] at howns
    obtain ⟨hleft, hcallback⟩ := howns
    obtain ⟨htransfers, hrunning, hsetters⟩ := left_eq_nil hleft
    split at hs
    · rw [← Option.some.inj hs]
      refine ⟨⟨h.sound.returned, h.sound.delivered⟩, h.event, h.completed, .inr ?_, ?_, hcallback⟩
      · simp [State.left, htransfers, hrunning, hsetters, Request.transfer]
      · simp [htransfers, Request.transfer]
    · rw [← Option.some.inj hs]
      refine ⟨⟨h.sound.returned, h.sound.delivered⟩, h.event, h.completed, hrunning, hsetters, ?_⟩
      simp [htransfers]
  · rename_i r hpc
    obtain ⟨⟨rflags, left⟩, hwait, rfl⟩ := Option.map_eq_some_iff.mp hs
    exact h.wake hpc hwait
  · rename_i r result hpc
    rw [hpc] at howns
    obtain ⟨hrunning, hsetters, hmine⟩ := howns
    rw [← Option.some.inj hs]
    refine ⟨⟨h.sound.returned, h.sound.delivered⟩, h.event, h.completed, ?_⟩
    simpa [Pc.Owns, State.left, hrunning, hsetters] using hmine
  · rename_i r result hpc
    rw [hpc] at howns
    rw [← Option.some.inj hs]
    refine ⟨⟨h.sound.returned, h.sound.delivered⟩, h.event, h.completed, howns, fun hzero => ?_⟩
    split at hzero
    · contradiction
    · cases hzero
  · rename_i r result woken hpc
    rw [hpc] at howns
    obtain ⟨hleft, hown⟩ := howns
    rw [← Option.some.inj hs]
    refine ⟨⟨fun x hx => ?_, h.sound.delivered⟩, h.event, h.completed, hleft⟩
    rcases List.mem_append.mp hx with hold | hnew
    · exact h.sound.returned x hold
    · rw [List.mem_singleton.mp hnew]
      exact hown

theorem Good.timeout {s s' : State} (h : Good s) {sdoTimeoutMs : UInt32}
    (ha : s.running = []) (hs : timeout sdoTimeoutMs s = some s') : Good s' := by
  have howns := h.owns
  rw [Sdo.timeout] at hs
  split at hs
  · rename_i r hpc
    rw [hpc] at howns
    split at hs
    · cases hs
    · rename_i hnot
      have hset : s.setters = [] := by
        by_contra hset
        rw [h.event, if_neg hset] at hnot
        exact hnot rfl
      have herror : rhsEventFlagWait eventFlagSdo rhsFlagWaitAny sdoTimeoutMs s.sdoEvent ≠
          eventFlagSdo := by
        rw [rhsEventFlagWait_eq_error sdoTimeoutMs (by simpa using hnot)]
        split <;> decide
      rw [← Option.some.inj hs, waitReturns, if_neg herror]
      exact ⟨⟨h.sound.returned, h.sound.delivered⟩, h.event, h.completed, ha, hset, howns.2.1⟩
  · cases hs

/-- While the callback can come, something is left and the call waits for it. -/
theorem Good.waiting {s : State} (h : Good s)
    (hsome : s.running ≠ [] ∨ s.transfers ≠ [] ∧ ∀ r result, s.pc ≠ .failed r result) :
    ∃ r, s.pc = .waiting r ∧ s.left = [r.call] ∧ (∀ t ∈ s.transfers, t.d = r.d) ∧
      s.sdoCallback = r.callback := by
  have hleft : s.left ≠ [] := by
    intro hnil
    obtain ⟨htransfers, hrunning, -⟩ := left_eq_nil hnil
    simp [htransfers, hrunning] at hsome
  have howns := h.owns
  cases hpc : s.pc with
  | free => exact absurd (hpc ▸ howns : Pc.free.Owns s) hleft
  | acquired r => exact absurd (hpc ▸ howns : (Pc.acquired r).Owns s) hleft
  | starting r => exact absurd (hpc ▸ howns : (Pc.starting r).Owns s).1 hleft
  | waiting r =>
      obtain ⟨hmine, hd, hcallback⟩ := (hpc ▸ howns : (Pc.waiting r).Owns s)
      exact ⟨r, rfl, hmine.resolve_left hleft, hd, hcallback⟩
  | failed r result =>
      obtain ⟨hrunning, -, -⟩ := (hpc ▸ howns : (Pc.failed r result).Owns s)
      rcases hsome with hrun | ⟨-, hnot⟩
      · exact absurd hrunning hrun
      · exact absurd hpc (hnot r result)
  | reset r result => exact absurd (hpc ▸ howns : (Pc.reset r result).Owns s) hleft
  | leaving r result woken =>
      exact absurd (hpc ▸ howns : (Pc.leaving r result woken).Owns s).1 hleft

theorem ne_nil_of_getElem? {l : List STransfer} {k : ℕ} {t : STransfer} (h : l[k]? = some t) :
    l ≠ [] := by
  rintro rfl
  simp at h

/-- A transfer completes while its call waits: the callback registered is the call's own. -/
theorem Good.canOpenSdoCb {s s' : State} (h : Good s) {k : ℕ} {state : TransferState}
    {data : List UInt8} (ha : Timely s (.canOpenSdoCb k state data))
    (hs : canOpenSdoCb s k state data = some s') : Good s' := by
  obtain ⟨rfl, hnot⟩ := ha
  obtain ⟨t, ht, rfl⟩ := Option.map_eq_some_iff.mp hs
  obtain ⟨r, hpc, hleft, -, hcallback⟩ := h.waiting (.inr ⟨ne_nil_of_getElem? ht, hnot⟩)
  obtain ⟨rfl, htransfers, hcall, hrunning, hsetters⟩ := left_of_transfer hleft ht
  rw [if_pos ⟨by simp, by simp⟩]
  refine ⟨⟨fun x hx hzero => ?_, fun x hx => ?_⟩, h.event, ?_, ?_⟩
  · obtain ⟨hdone, hwoken⟩ := h.sound.returned x hx hzero
    exact ⟨List.mem_append_left _ hdone, hwoken⟩
  · rw [hcallback] at hx
    cases hcb : r.cb with
    | none =>
        simp only [Request.callback, hcb, Option.map_none] at hx
        exact h.sound.delivered x hx
    | some fn =>
        simp only [Request.callback, hcb, Option.map_some, List.mem_append,
          List.mem_singleton] at hx
        rcases hx with hold | rfl
        · exact h.sound.delivered x hold
        · exact hcall.symm
  · simp [hrunning, hsetters]
  · simp only [hpc, Pc.Owns, State.left]
    simp [htransfers, hrunning, hsetters, hcall, hcallback]

theorem Good.eventFlagSet {s s' : State} (h : Good s) {k : ℕ} (hs : eventFlagSet s k = some s') :
    Good s' := by
  obtain ⟨t, ht, rfl⟩ := Option.map_eq_some_iff.mp hs
  obtain ⟨r, hpc, hleft, -, hcallback⟩ := h.waiting (.inl (ne_nil_of_getElem? ht))
  obtain ⟨rfl, htransfers, hrunning, hcall, hsetters⟩ := left_of_running hleft ht
  have hdone := h.completed
  refine ⟨⟨h.sound.returned, h.sound.delivered⟩, ?_, ?_, ?_⟩
  · rw [h.event, hsetters]
    rfl
  · simpa [hrunning, hsetters] using hdone
  · simp only [hpc, Pc.Owns, State.left]
    simp [htransfers, hrunning, hsetters, hcall, hcallback]

theorem Good.eventFlagSetFails {s s' : State} (h : Good s) {k : ℕ}
    (hs : eventFlagSetFails s k = some s') : Good s' := by
  obtain ⟨t, ht, rfl⟩ := Option.map_eq_some_iff.mp hs
  obtain ⟨r, hpc, hleft, -, hcallback⟩ := h.waiting (.inl (ne_nil_of_getElem? ht))
  obtain ⟨rfl, htransfers, hrunning, hcall, hsetters⟩ := left_of_running hleft ht
  refine ⟨⟨h.sound.returned, h.sound.delivered⟩, h.event, ?_, ?_⟩
  · simp [hrunning, hsetters]
  · simp only [hpc, Pc.Owns, State.left]
    simp [htransfers, hrunning, hsetters, hcallback]

/-- **One step** keeps the invariant. -/
theorem Good.step {s s' : State} {sdoTimeoutMs : UInt32} {a : Action} (h : Good s)
    (ha : Timely s a) (hs : step sdoTimeoutMs s a = some s') : Good s' := by
  cases a with
  | coGetSdo d id ind sub cb => exact h.coSdo hs
  | coSetSdo d id ind sub data cb => exact h.coSdo hs
  | caller result => exact h.caller hs
  | timeout => exact h.timeout ha hs
  | canOpenSdoCb k state data => exact h.canOpenSdoCb ha hs
  | setFlag k => exact h.eventFlagSet hs
  | setFlagFails k => exact h.eventFlagSetFails hs

/-- **A call succeeds only by its own completed transfer, and gets only its data**, in any
run in which no transfer is aborted and none completes between the end of the time and
`resetSDO`. -/
theorem sound_of_reach {sdoTimeoutMs : UInt32} {s : State}
    (h : Reach (step sdoTimeoutMs) Timely State.init s) : Sound s := by
  have hgood : Good s := by
    apply h.invariant good_init
    intro s a s' hgood ha hs
    exact hgood.step ha hs
  exact hgood.sound

instance (s : State) (a : Action) : Decidable (Timely s a) :=
  match a with
  | .canOpenSdoCb _ state _ =>
      match hpc : s.pc with
      | .failed r result => isFalse fun h => h.2 r result hpc
      | .free | .acquired _ | .starting _ | .waiting _ | .reset .. | .leaving .. =>
          decidable_of_iff (state = .finished) (by simp [Timely, hpc])
  | .timeout => inferInstanceAs (Decidable (_ = _))
  | .coGetSdo .. | .coSetSdo .. | .caller _ | .setFlag _ | .setFlagFails _ =>
      inferInstanceAs (Decidable True)

/-! ## Three runs -/

/-- A call gets the mutex and starts its transfer. -/
def beginRun : List Action :=
  [.coGetSdo 0 5 0x1000 0 (some 1), .caller 0, .caller 0]

/-- The transfer is aborted, and the call returns. -/
def abortRun : List Action :=
  beginRun ++ [.canOpenSdoCb 0 .abortedRcv [], .setFlag 0, .caller 0, .caller 0]

/-- The node answers just after the time is over; the next call wakes up at once. -/
def lateRun : List Action :=
  beginRun ++ [.timeout, .canOpenSdoCb 0 .finished [1], .setFlag 0, .caller 0, .caller 0,
    .caller 0] ++ beginRun ++ [.caller 0, .caller 0]

theorem unsound_runs :
    (∃ s, runActions (step 1000) (fun _ _ => True) State.init abortRun = some s ∧ ¬ Sound s) ∧
    ∃ s, runActions (step 1000) (fun _ _ => True) State.init lateRun = some s ∧ ¬ Sound s := by
  constructor
  · refine ⟨_, rfl, fun h => ?_⟩
    exact absurd (h.returned ⟨0, 0, [0]⟩ (by decide) rfl).1 (by decide)
  · refine ⟨_, rfl, fun h => ?_⟩
    exact absurd (h.returned ⟨1, 0, [0]⟩ (by decide) rfl).1 (by decide)

/-- The node answers in time. -/
def timelyRun : List Action :=
  beginRun ++ [.canOpenSdoCb 0 .finished [1], .setFlag 0, .caller 0, .caller 0]

theorem timely_run_sound : ∃ s, runActions (step 1000) Timely State.init timelyRun = some s ∧
    s.returned ≠ [] ∧ s.delivered ≠ [] ∧ Sound s := by
  have hrun : runActions (step 1000) Timely State.init timelyRun = some _ := rfl
  exact ⟨_, hrun, List.cons_ne_nil _ _, List.cons_ne_nil _ _,
    sound_of_reach (.of_runActions hrun)⟩

end RhsCore.CanOpen.Sdo
