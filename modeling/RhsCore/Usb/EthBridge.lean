import Mathlib.Data.List.Basic
import Mathlib.Data.Nat.Notation
import RhsCore.Lib.Transition

/-!
# The bridge between USB and Ethernet

`usb_eth_bridge.c` over `tud_net_dispatch.c`.  The interrupt of the Ethernet driver fills a
queue, and `bridge_worker` sends what is in it to the USB host, where it waits until the USB
stack can take a frame.  In its own turns the stack hands over what comes from the host.
`usb_eth_bridge_stop` first takes the callbacks away, then asks the worker to finish.

When the stack can take a frame, what it gets from the host and what the driver says about
the link are given with each turn, and `tud_task` returns from each.  The queue is one with a
reader and a writer, without loss.  A callback finds the same handlers from its start to its
end: its test of `s_ops` and its call are one step.  Left out is `tud_net_dispatch_clear`
between the two, after which that one callback would still send its frame, or read its
handler through a null pointer.

## Main definitions

* `bridgeWorker`, `usbEthBridgeStop` — the next step of either thread.
* `bridge_forwards` — what goes out, in every order of steps.
* `stop_returns` — when the worker finishes, and when it never does.
-/

namespace RhsCore.EthBridge

/-! ## The threads -/

/-- A frame as it is in the queue: not empty, and its length fits into 16 bits. -/
structure Frame where
  bytes : List UInt8
  pos : 0 < bytes.length
  lt : bytes.length < 65536
  deriving DecidableEq

/-- Where `bridge_worker` is. -/
inductive WorkerPc
  /-- Before the driver's `poll`. -/
  | top
  /-- Before `mg_queue_next`. -/
  | next
  /-- Before `tud_network_can_xmit`. -/
  | spin (frame : Frame)
  /-- Before `mg_queue_del`. -/
  | del
  /-- Before `tud_task`. -/
  | task
  /-- Before `finish` is read. -/
  | check
  | done
  deriving DecidableEq

/-- Where `usb_eth_bridge_stop` is. -/
inductive StopPc
  | away
  /-- Behind `tud_net_dispatch_clear`. -/
  | cleared
  /-- In `rhs_thread_join`. -/
  | joining
  | joined
  deriving DecidableEq

/-- The bridge, with `up` for the state of its interface and `sOps` for handlers that are
set.  `lan` are the frames that the queue had space for, and `host` those that the USB stack
handed over. -/
structure State where
  up : Bool
  recvQueue : List Frame
  sOps : Bool
  finish : Bool
  worker : WorkerPc
  stop : StopPc
  lan : List Frame
  usbOut : List (List UInt8)
  host : List (List UInt8)
  ethOut : List (List UInt8)
  deriving DecidableEq

/-- Behind `usb_eth_bridge_start`. -/
def init : State where
  up := false
  recvQueue := []
  sOps := true
  finish := false
  worker := .top
  stop := .away
  lan := []
  usbOut := []
  host := []
  ethOut := []

/-- `bridge_recv_cb` -/
def bridgeRecvCb (s : State) (buf : List UInt8) : State :=
  if s.up then { s with ethOut := s.ethOut ++ [buf] } else s

/-- `tud_network_recv_cb`, with a frame from the host; `s_ops` is tested and used at once. -/
def tudNetworkRecvCb (s : State) (buf : List UInt8) : State :=
  let s := { s with host := s.host ++ [buf] }
  if s.sOps then bridgeRecvCb s buf else s

/-- `bridge_xmit_cb` -/
def bridgeXmitCb (ref : List UInt8) (arg : UInt16) : List UInt8 := ref.take arg.toNat

/-- `tud_network_xmit_cb`: what is then sent.  `s_ops` is tested and used at once. -/
def tudNetworkXmitCb (sOps : Bool) (ref : List UInt8) (arg : UInt16) : List UInt8 :=
  if sOps then bridgeXmitCb ref arg else []

/-- `tud_task`, with what came from the host.  It returns: with an operating system under the
USB stack, when the stack has had an event. -/
def tudTask (host : List (List UInt8)) (s : State) : State := host.foldl tudNetworkRecvCb s

/-- What a turn of the worker meets: whether a second has passed, the link, whether the USB
stack can take a frame, and what came from the host. -/
structure Turn where
  tick1s : Bool
  up : Bool
  canXmit : Bool
  host : List (List UInt8)
  deriving DecidableEq

/-- The next step of `bridge_worker`. -/
def bridgeWorker (turn : Turn) (s : State) : Option State :=
  match s.worker with
  | .top => some { s with up := if turn.tick1s then turn.up else s.up, worker := .next }
  | .next =>
      match s.recvQueue with
      | [] => some { s with worker := .task }
      | frame :: _ => some { s with worker := .spin frame }
  | .spin frame =>
      if turn.canXmit then
        some { s with
          usbOut := s.usbOut ++
            [tudNetworkXmitCb s.sOps frame.bytes (.ofNat frame.bytes.length)]
          worker := .del }
      else some (tudTask turn.host s)
  | .del => some { s with recvQueue := s.recvQueue.tail, worker := .next }
  | .task => some { tudTask turn.host s with worker := .check }
  | .check => some { s with worker := if s.finish then .done else .top }
  | .done => none

/-- The next step of `usb_eth_bridge_stop`. -/
def usbEthBridgeStop (s : State) : Option State :=
  match s.stop with
  | .away => some { s with sOps := false, stop := .cleared }
  | .cleared => some { s with finish := true, stop := .joining }
  | .joining => if s.worker = .done then some { s with stop := .joined } else none
  | .joined => none

/-- The interrupt has a frame, and puts it into the queue if there is space. -/
def ethIrq (frame : Frame) (space : Bool) (s : State) : State :=
  if space then { s with recvQueue := s.recvQueue ++ [frame], lan := s.lan ++ [frame] } else s

/-- Who goes next. -/
inductive Action
  | eth (frame : Frame) (space : Bool)
  | worker (turn : Turn)
  | stop
  deriving DecidableEq

def step (s : State) : Action → Option State
  | .eth frame space => some (ethIrq frame space s)
  | .worker turn => bridgeWorker turn s
  | .stop => usbEthBridgeStop s

/-! ## What goes out -/

variable {s s' : State}

/-- What the USB stack hands over in a turn goes out if there are handlers and the link is
up. -/
theorem tudTask_eq (host : List (List UInt8)) (s : State) :
    tudTask host s = { s with
      host := s.host ++ host
      ethOut := s.ethOut ++ if s.sOps && s.up then host else [] } := by
  induction host generalizing s with
  | nil => simp [tudTask]
  | cons buf host ih =>
      rw [tudTask, List.foldl_cons, ← tudTask, ih]
      cases hops : s.sOps <;> cases hup : s.up <;>
        simp [tudNetworkRecvCb, bridgeRecvCb, hops, hup]

theorem tudNetworkXmitCb_true (frame : Frame) :
    tudNetworkXmitCb true frame.bytes (.ofNat frame.bytes.length) = frame.bytes := by
  have hlen : (UInt16.ofNat frame.bytes.length).toNat = frame.bytes.length :=
    UInt16.toNat_ofNat_of_lt' frame.lt
  rw [tudNetworkXmitCb, if_pos rfl, bridgeXmitCb, hlen, List.take_length]

/-- The frames of the queue that were not sent. -/
def State.unsent (s : State) : List Frame :=
  match s.worker with
  | .del => s.recvQueue.tail
  | _ => s.recvQueue

/-- What came over the LAN was sent as it is, and then, without handlers, as nothing, or is
still to be sent; and what went to the LAN came from the host. -/
structure Good (s : State) : Prop where
  out : ∃ sent eaten, s.lan = sent ++ eaten ++ s.unsent ∧
    s.usbOut = sent.map Frame.bytes ++ List.replicate eaten.length [] ∧
    (s.sOps = true → eaten = [])
  inFront : ∀ frame, s.worker = .spin frame → ∃ rest, s.recvQueue = frame :: rest
  sending : s.worker = .del → s.recvQueue ≠ []
  host : s.ethOut.Sublist s.host

theorem good_init : Good init where
  out := ⟨[], [], rfl, rfl, fun _ => rfl⟩
  inFront := fun _ h => WorkerPc.noConfusion h
  sending := fun h => WorkerPc.noConfusion h
  host := List.Sublist.slnil

/-- A turn of the USB stack. -/
theorem Good.tudTask (h : Good s) (host : List (List UInt8)) : Good (tudTask host s) := by
  rw [tudTask_eq]
  refine { h with host := h.host.append ?_ }
  split
  · exact List.Sublist.refl _
  · exact List.nil_sublist _

theorem good_ethIrq (h : Good s) (frame : Frame) (space : Bool) :
    Good (ethIrq frame space s) := by
  cases space with
  | false => exact h
  | true =>
      obtain ⟨sent, eaten, hlan, husb, hops⟩ := h.out
      have hunsent : (ethIrq frame true s).unsent = s.unsent ++ [frame] := by
        cases hw : s.worker with
        | del => simp [State.unsent, ethIrq, hw, List.tail_append_of_ne_nil (h.sending hw)]
        | _ => simp [State.unsent, ethIrq, hw]
      refine { h with out := ⟨sent, eaten, ?_, husb, hops⟩, inFront := ?_, sending := ?_ }
      · rw [hunsent, ← List.append_assoc, ← hlan]
        rfl
      · intro front hw
        obtain ⟨rest, hrest⟩ := h.inFront front hw
        exact ⟨rest ++ [frame], congrArg (· ++ [frame]) hrest⟩
      · simp [ethIrq]

theorem good_bridgeWorker {turn : Turn} (h : Good s) (hs : bridgeWorker turn s = some s') :
    Good s' := by
  obtain ⟨sent, eaten, hlan, husb, hops⟩ := h.out
  rw [bridgeWorker] at hs
  cases hw : s.worker with
  | top =>
      simp only [hw, Option.some.injEq] at hs
      simp only [State.unsent, hw] at hlan
      rw [← hs]
      exact { h with out := ⟨sent, eaten, hlan, husb, hops⟩, inFront := by simp,
                     sending := by simp }
  | next =>
      simp only [State.unsent, hw] at hlan
      cases hq : s.recvQueue with
      | nil =>
          simp only [hw, hq, Option.some.injEq] at hs
          rw [hq] at hlan
          rw [← hs]
          exact { h with out := ⟨sent, eaten, hlan, husb, hops⟩, inFront := by simp,
                         sending := by simp }
      | cons frame rest =>
          simp only [hw, hq, Option.some.injEq] at hs
          rw [hq] at hlan
          rw [← hs]
          refine { h with out := ⟨sent, eaten, hlan, husb, hops⟩, inFront := ?_,
                          sending := by simp }
          intro front hfront
          rw [← WorkerPc.spin.inj hfront]
          exact ⟨rest, rfl⟩
  | spin frame =>
      obtain ⟨rest, hq⟩ := h.inFront frame hw
      simp only [State.unsent, hw, hq] at hlan
      by_cases hcan : turn.canXmit = true
      · simp only [hw, hcan, if_true, Option.some.injEq] at hs
        rw [← hs]
        refine { h with out := ?_, inFront := by simp, sending := by simp [hq] }
        -- with handlers the frame is sent as it is, and before it nothing was eaten
        cases hset : s.sOps with
        | true =>
            obtain rfl := hops hset
            refine ⟨sent ++ [frame], [], ?_, ?_, fun _ => rfl⟩
            · simp [State.unsent, hq, hlan]
            · simp [tudNetworkXmitCb_true, husb]
        | false =>
            refine ⟨sent, eaten ++ [frame], ?_, ?_, by simp⟩
            · simp [State.unsent, hq, hlan]
            · simp [tudNetworkXmitCb, husb, List.replicate_succ']
      · simp only [hw, hcan, Bool.false_eq_true, if_false, Option.some.injEq] at hs
        rw [← hs]
        exact h.tudTask turn.host
  | del =>
      simp only [hw, Option.some.injEq] at hs
      simp only [State.unsent, hw] at hlan
      rw [← hs]
      exact { h with out := ⟨sent, eaten, hlan, husb, hops⟩, inFront := by simp,
                     sending := by simp }
  | task =>
      have htask := h.tudTask turn.host
      simp only [hw, Option.some.injEq] at hs
      simp only [State.unsent, hw] at hlan
      rw [← hs]
      rw [tudTask_eq] at htask ⊢
      exact { htask with out := ⟨sent, eaten, hlan, husb, hops⟩, inFront := by simp,
                         sending := by simp }
  | check =>
      simp only [hw, Option.some.injEq] at hs
      simp only [State.unsent, hw] at hlan
      rw [← hs]
      cases s.finish <;>
        exact { h with out := ⟨sent, eaten, hlan, husb, hops⟩, inFront := by simp,
                       sending := by simp }
  | done => simp [hw] at hs

theorem good_usbEthBridgeStop (h : Good s) (hs : usbEthBridgeStop s = some s') : Good s' := by
  obtain ⟨sent, eaten, hlan, husb, hops⟩ := h.out
  rw [usbEthBridgeStop] at hs
  cases hp : s.stop with
  | away =>
      simp only [hp, Option.some.injEq] at hs
      rw [← hs]
      exact { h with out := ⟨sent, eaten, hlan, husb, by simp⟩ }
  | cleared =>
      simp only [hp, Option.some.injEq] at hs
      rw [← hs]
      exact { h with }
  | joining =>
      simp only [hp, Option.ite_none_right_eq_some, Option.some.injEq] at hs
      rw [← hs.2]
      exact { h with }
  | joined => simp [hp] at hs

theorem good_step {a : Action} (h : Good s) (hs : step s a = some s') : Good s' := by
  cases a with
  | eth frame space =>
      obtain rfl := Option.some.inj hs
      exact good_ethIrq h frame space
  | worker turn => exact good_bridgeWorker h hs
  | stop => exact good_usbEthBridgeStop h hs

/-- Without handlers, nothing but empty frames goes out. -/
structure Silent (s s' : State) : Prop where
  sOps : s'.sOps = false
  ethOut : s'.ethOut = s.ethOut
  usbOut : ∃ k, s'.usbOut = s.usbOut ++ List.replicate k []

theorem Silent.refl (h : s.sOps = false) : Silent s s := ⟨h, rfl, 0, (List.append_nil _).symm⟩

theorem Silent.tudTask {mid : State} (h : Silent s mid) (host : List (List UInt8)) :
    Silent s (tudTask host mid) := by
  rw [tudTask_eq]
  simp only [h.sOps, Bool.false_and, Bool.false_eq_true, if_false, List.append_nil]
  exact { h with sOps := rfl }

theorem silent_bridgeWorker {mid : State} {turn : Turn} (h : Silent s mid)
    (hs : bridgeWorker turn mid = some s') : Silent s s' := by
  rw [bridgeWorker] at hs
  cases hw : mid.worker with
  | top | del | check =>
      simp only [hw, Option.some.injEq] at hs
      rw [← hs]
      exact { h with }
  | next =>
      cases hq : mid.recvQueue <;>
        · simp only [hw, hq, Option.some.injEq] at hs
          rw [← hs]
          exact { h with }
  | spin frame =>
      by_cases hcan : turn.canXmit = true
      · obtain ⟨k, husb⟩ := h.usbOut
        simp only [hw, hcan, if_true, Option.some.injEq] at hs
        rw [← hs]
        refine { h with usbOut := ⟨k + 1, ?_⟩ }
        simp [tudNetworkXmitCb, h.sOps, husb, List.replicate_succ']
      · simp only [hw, hcan, Bool.false_eq_true, if_false, Option.some.injEq] at hs
        rw [← hs]
        exact h.tudTask turn.host
  | task =>
      simp only [hw, Option.some.injEq] at hs
      rw [← hs]
      exact { h.tudTask turn.host with }
  | done => simp [hw] at hs

theorem silent_step {mid : State} {a : Action} (h : Silent s mid) (hs : step mid a = some s') :
    Silent s s' := by
  cases a with
  | eth frame space =>
      obtain rfl := Option.some.inj hs
      cases space <;> exact { h with }
  | worker turn => exact silent_bridgeWorker h hs
  | stop =>
      simp only [step, usbEthBridgeStop] at hs
      cases hp : mid.stop with
      | away =>
          simp only [hp, Option.some.injEq] at hs
          rw [← hs]
          exact { h with sOps := rfl }
      | cleared =>
          simp only [hp, Option.some.injEq] at hs
          rw [← hs]
          exact { h with }
      | joining =>
          simp only [hp, Option.ite_none_right_eq_some, Option.some.injEq] at hs
          rw [← hs.2]
          exact { h with }
      | joined => simp [hp] at hs

/-- **Frames go out whole and in order**: what came over the LAN was sent as it is, in order
of arrival, or is still to be sent; once `usb_eth_bridge_stop` has cleared the handlers, with no
callback under way, it is sent as nothing, and nothing goes to the LAN any more. -/
theorem bridge_forwards (h : Reach step (fun _ _ => True) init s) :
    (∃ sent eaten, s.lan = sent ++ eaten ++ s.unsent ∧
      s.usbOut = sent.map Frame.bytes ++ List.replicate eaten.length [] ∧
      (s.sOps = true → eaten = [])) ∧
    s.ethOut.Sublist s.host ∧
    (s.sOps = false → ∀ s', Reach step (fun _ _ => True) s s' →
      s'.ethOut = s.ethOut ∧ ∃ k, s'.usbOut = s.usbOut ++ List.replicate k []) := by
  have hgood : Good s := h.invariant good_init fun _ _ _ hI _ hs => good_step hI hs
  refine ⟨hgood.out, hgood.host, ?_⟩
  intro hops s' h'
  have hsilent : Silent s s' :=
    h'.invariant (.refl hops) fun _ _ _ hI _ hs => silent_step hI hs
  exact ⟨hsilent.ethOut, hsilent.usbOut⟩

def frameA : Frame := ⟨[0x41], by decide, by decide⟩
def frameB : Frame := ⟨[0x42], by decide, by decide⟩

/-- One frame is sent, and the next after the callbacks are gone. -/
theorem second_frame_eaten : ∃ s, Reach step (fun _ _ => True) init s ∧
    s.lan = [frameA, frameB] ∧ s.usbOut = [[0x41], []] ∧
    ∀ s', Reach step (fun _ _ => True) s s' → s'.ethOut = [] := by
  let turn : Turn := ⟨true, true, true, []⟩
  have hrun : Reach step (fun _ _ => True) init _ :=
    @Reach.of_runActions _ _ _ _ _ [.eth frameA true, .eth frameB true, .worker turn,
      .worker turn, .worker turn, .worker turn, .stop, .worker turn, .worker turn] _ _ rfl
  refine ⟨_, hrun, rfl, rfl, ?_⟩
  intro s' h'
  exact ((bridge_forwards hrun).2.2 rfl s' h').1

/-! ## When the worker finishes -/

/-- The interrupt puts a frame into the queue. -/
def Action.arrives : Action → Bool
  | .eth _ space => space
  | _ => false

/-- A turn of the worker in which the USB stack can take a frame. -/
def Action.served : Action → Bool
  | .worker turn => turn.canXmit
  | _ => false

/-- How many turns the worker needs, once it is to finish, for what is there. -/
def rank (s : State) : ℕ :=
  match s.worker with
  | .top => 3 * s.recvQueue.length + 4
  | .next => 3 * s.recvQueue.length + 3
  | .spin _ => 3 * (s.recvQueue.length - 1) + 5
  | .del => 3 * (s.recvQueue.length - 1) + 4
  | .task => 2
  | .check => 1
  | .done => 0

theorem rank_le (s : State) : rank s ≤ 3 * s.recvQueue.length + 5 := by
  rw [rank]
  split <;> omega

theorem finish_step {a : Action} (hfinish : s.finish = true) (hs : step s a = some s') :
    s'.finish = true := by
  cases a with
  | eth frame space =>
      obtain rfl := Option.some.inj hs
      cases space <;> exact hfinish
  | worker turn =>
      simp only [step, bridgeWorker, tudTask_eq] at hs
      split at hs <;> try split at hs
      all_goals cases hs
      all_goals exact hfinish
  | stop =>
      simp only [step, usbEthBridgeStop] at hs
      split at hs <;> try split at hs
      all_goals cases hs
      all_goals first | exact hfinish | rfl

/-- A frame raises what is to be done by three turns, and every turn in which the USB stack
can take a frame is a turn less. -/
theorem rank_step {a : Action} (hfinish : s.finish = true) (hs : step s a = some s') :
    rank s' + (if a.served then 1 else 0) ≤ rank s + 3 * (if a.arrives then 1 else 0) := by
  cases a with
  | eth frame space =>
      obtain rfl := Option.some.inj hs
      cases space with
      | false => exact Nat.le_refl _
      | true =>
          cases hw : s.worker <;>
            simp only [rank, ethIrq, hw, if_true, List.length_append, List.length_singleton,
              Action.served, Action.arrives] <;> simp <;> omega
  | worker turn =>
      simp only [step, bridgeWorker, tudTask_eq] at hs
      cases hw : s.worker with
      | top =>
          simp only [hw, Option.some.injEq] at hs
          rw [← hs]
          simp only [rank, hw]
          split <;> omega
      | next =>
          cases hq : s.recvQueue with
          | nil =>
              simp only [hw, hq, Option.some.injEq] at hs
              rw [← hs]
              simp only [rank, hw]
              split <;> omega
          | cons front rest =>
              simp only [hw, hq, Option.some.injEq] at hs
              rw [← hs]
              simp only [rank, hw, hq, List.length_cons]
              split <;> omega
      | spin front =>
          by_cases hcan : turn.canXmit = true
          · simp only [hw, hcan, if_true, Option.some.injEq] at hs
            rw [← hs]
            simp only [rank, hw]
            split <;> omega
          · simp only [hw, hcan, Bool.false_eq_true, if_false, Option.some.injEq] at hs
            rw [← hs]
            simp only [rank, hw, Action.served, hcan]
            simp
      | del =>
          simp only [hw, Option.some.injEq] at hs
          rw [← hs]
          simp only [rank, hw, List.length_tail]
          split <;> omega
      | task =>
          simp only [hw, Option.some.injEq] at hs
          rw [← hs]
          simp only [rank, hw]
          split <;> omega
      | check =>
          simp only [hw, hfinish, if_true, Option.some.injEq] at hs
          rw [← hs]
          simp only [rank, hw]
          split <;> omega
      | done => simp [hw] at hs
  | stop =>
      have hsame : rank s' = rank s := by
        simp only [step, usbEthBridgeStop] at hs
        split at hs <;> try split at hs
        all_goals cases hs
        all_goals rfl
      simp [hsame, Action.served]

/-- The worker does not get to its check of `finish` without a frame sent. -/
def State.Owes (s : State) : Prop :=
  match s.worker with
  | .top | .next => s.recvQueue ≠ []
  | .spin _ => True
  | .del => s.recvQueue.tail ≠ []
  | .task | .check | .done => False

theorem owes_step {a : Action} (h : s.Owes) (hserved : a.served = false)
    (hs : step s a = some s') : s'.Owes := by
  cases a with
  | eth frame space =>
      obtain rfl := Option.some.inj hs
      cases space with
      | false => exact h
      | true =>
          cases hw : s.worker with
          | del =>
              simp only [State.Owes, hw] at h
              have hne : s.recvQueue ≠ [] := fun hnil => h (by rw [hnil]; rfl)
              simp [State.Owes, ethIrq, hw, List.tail_append_of_ne_nil hne]
          | top | next | spin =>
              simp [State.Owes, ethIrq, hw]
          | task | check | done =>
              simp only [State.Owes, hw] at h
  | worker turn =>
      simp only [step, bridgeWorker, tudTask_eq] at hs
      cases hw : s.worker with
      | top =>
          simp only [hw, Option.some.injEq] at hs
          simp only [State.Owes, hw] at h
          rw [← hs]
          exact h
      | next =>
          simp only [State.Owes, hw] at h
          cases hq : s.recvQueue with
          | nil => exact absurd hq h
          | cons front rest =>
              simp only [hw, hq, Option.some.injEq] at hs
              rw [← hs]
              trivial
      | spin front =>
          have hcan : turn.canXmit = false := hserved
          simp only [hw, hcan, Bool.false_eq_true, if_false, Option.some.injEq] at hs
          rw [← hs]
          trivial
      | del =>
          simp only [hw, Option.some.injEq] at hs
          simp only [State.Owes, hw] at h
          rw [← hs]
          exact h
      | task | check | done => simp only [State.Owes, hw] at h
  | stop =>
      have hsame : s'.worker = s.worker ∧ s'.recvQueue = s.recvQueue := by
        simp only [step, usbEthBridgeStop] at hs
        split at hs <;> try split at hs
        all_goals cases hs
        all_goals exact ⟨rfl, rfl⟩
      rw [State.Owes, hsame.1, hsame.2]
      exact h

/-- A worker that is not done has another turn. -/
theorem exists_turn (h : s.worker ≠ .done) (turn : Turn) :
    ∃ next, step s (.worker turn) = some next := by
  simp only [step, bridgeWorker]
  cases hw : s.worker with
  | done => exact absurd hw h
  | next => cases hq : s.recvQueue <;> exact ⟨_, rfl⟩
  | spin frame =>
      by_cases hcan : turn.canXmit = true
      · exact ⟨_, if_pos hcan⟩
      · exact ⟨_, if_neg hcan⟩
  | _ => exact ⟨_, rfl⟩

/-- **`usb_eth_bridge_stop` waits for the host**: once it has asked the worker to finish, and
as long as `tud_task` returns, the worker has turns until it is done, but only three for
each frame that is there or comes, and five more, in which the USB stack can take a frame;
and while the stack can take none, a worker with a frame to send is never done. -/
theorem stop_returns {as : List Action} (hfinish : s.finish = true)
    (hrun : runActions step (fun _ _ => True) s as = some s') :
    as.countP Action.served ≤
        3 * s.recvQueue.length + 5 + 3 * as.countP Action.arrives ∧
      (s'.worker ≠ .done → ∀ turn, ∃ next, step s' (.worker turn) = some next) ∧
      (s.Owes → (∀ a ∈ as, a.served = false) → s'.worker ≠ .done) := by
  refine ⟨?_, exists_turn, ?_⟩
  · have hwork : rank s' + as.countP Action.served ≤ rank s + 3 * as.countP Action.arrives :=
      rank_add_work_le (I := fun s => s.finish = true) (fun _ _ _ h _ hs => finish_step h hs)
        (fun _ _ _ h hs => rank_step h hs) hfinish hrun
    have hle := rank_le s
    omega
  · intro howes hserved hdone
    have hlast : s'.Owes := (Always.of_step (I := State.Owes)
      (fun a ha _ _ h hs => owes_step h (hserved a ha) hs) howes).last hrun
    rw [State.Owes, hdone] at hlast
    exact hlast

/-- With a frame in the queue and a host that is gone, ten turns are not enough. -/
theorem stop_waits_for_host :
    ∃ s s' : State, s.finish = true ∧ s.recvQueue = [frameA] ∧
      runActions step (fun _ _ => True) s
        (List.replicate 10 (.worker ⟨false, false, false, []⟩)) = some s' ∧
      s'.worker ≠ .done := by
  have hrun : runActions step (fun _ _ => True)
      { init with finish := true, recvQueue := [frameA] }
      (List.replicate 10 (.worker ⟨false, false, false, []⟩)) = some _ := rfl
  refine ⟨_, _, rfl, rfl, hrun, ?_⟩
  apply (stop_returns rfl hrun).2.2
  · simp [State.Owes, init]
  · intro a ha
    rw [List.eq_of_mem_replicate ha]
    rfl

end RhsCore.EthBridge
