import RhsCore.Net.Config
import Mathlib.Data.List.Perm.Basic

/-!
# What a restart leaves open

A restart closes every connection and opens the entries of the list again.  The responder
of mDNS is not in the list: it is closed with the others, and nothing starts it again.

## Main definitions

* `ServicesKept` — the entries are open as before, and the responder listens and answers
  with the address of the interface.
* `servicesKept_netWorkerRestart_iff` — when it is so: there was no responder to lose, and
  Mongoose can open every entry again.
-/

namespace RhsCore.NetWorker

open NetUtils

variable {m : Mongoose} {listens : ℕ → Bool} {ls : List NetListener} {s : Net}
  {c : MgConnection}

/-! ## Opening the entries again -/

@[simp] theorem listeners_mgListen (m : Mongoose) (b : Bool) (l : NetListener) (s : Net) :
    (mgListen m b l s).listeners = s.listeners := by
  cases b with
  | false => rfl
  | true => rfl

theorem opened_mgListen (m : Mongoose) (b : Bool) (l : NetListener) (s : Net) :
    opened (mgListen m b l s) = if b then l :: opened s else opened s := by
  cases b with
  | false => rfl
  | true => rfl

theorem listeners_restoreListeners (m : Mongoose) (listens : ℕ → Bool) (ls : List NetListener)
    (s : Net) : (restoreListeners m listens ls s).listeners = s.listeners := by
  induction ls generalizing listens s with
  | nil => rfl
  | cons l ls ih => rw [restoreListeners, ih, listeners_mgListen]

/-- There are as many more connections as listens that succeed. -/
theorem length_opened_restoreListeners (m : Mongoose) (listens : ℕ → Bool)
    (ls : List NetListener) (s : Net) :
    (opened (restoreListeners m listens ls s)).length =
      (opened s).length + (List.range ls.length).countP listens := by
  induction ls generalizing listens s with
  | nil => rfl
  | cons l ls ih =>
      rw [restoreListeners, ih, opened_mgListen, List.length_cons, List.range_succ_eq_map,
        List.countP_cons, List.countP_map]
      cases hl : listens 0 with
      | false => rfl
      | true =>
          change (opened s).length + 1 + (List.range ls.length).countP (fun i => listens (i + 1)) =
            (opened s).length + ((List.range ls.length).countP (fun i => listens (i + 1)) + 1)
          omega

theorem perm_opened_restoreListeners (m : Mongoose) (s : Net)
    (h : ∀ i < ls.length, listens i = true) :
    (opened (restoreListeners m listens ls s)).Perm (ls ++ opened s) := by
  induction ls generalizing listens s with
  | nil => exact .refl _
  | cons l ls ih =>
      rw [restoreListeners]
      refine (ih _ fun i hi => h (i + 1) (Nat.succ_lt_succ hi)).trans ?_
      rw [opened_mgListen, if_pos (h 0 (Nat.succ_pos _))]
      exact List.perm_middle

/-- **Every entry is open again** exactly if every listen succeeds. -/
theorem perm_opened_restoreListeners_iff (hs : opened s = []) :
    (opened (restoreListeners m listens ls s)).Perm ls ↔ ∀ i < ls.length, listens i = true := by
  constructor
  · intro hperm i hi
    have hlength := hperm.length_eq
    rw [length_opened_restoreListeners, hs, List.length_nil, Nat.zero_add] at hlength
    have hall := List.countP_eq_length.mp (hlength.trans List.length_range.symm)
    exact hall i (List.mem_range.mpr hi)
  · intro hall
    have hperm := perm_opened_restoreListeners m s hall
    rwa [hs, List.append_nil] at hperm

/-- Only connections for listeners are opened. -/
theorem mem_conns_of_responder (hc : c ∈ (restoreListeners m listens ls s).conns)
    (hnone : c.listener = none) : c ∈ s.conns := by
  induction ls generalizing listens s with
  | nil => exact hc
  | cons l ls ih =>
      have hmem := ih hc
      rw [mgListen] at hmem
      split at hmem
      · rcases List.mem_cons.mp hmem with rfl | hmem
        · cases hnone
        · exact hmem
      · exact hmem

/-! ## The restart -/

/-- All connections are closed. -/
theorem toNet_netWorkerRestart (m : Mongoose) (listens : ℕ → Bool) (config : NetConfig)
    (s : ConfiguredNet) :
    (netWorkerRestart m listens config s).toNet =
      restoreListeners m listens s.listeners { conns := [], listeners := s.listeners } := by
  have hclosed (conns : List MgConnection) :
      ((conns.map fun c => { c with isClosing := true }).filter fun c => !c.isClosing) = [] := by
    simp
  simp only [netWorkerRestart, mgMgrPoll, hclosed]

/-- The services of `s` are those of `s'`: a connection is open for each entry, and the
responder still listens and answers with the address of the interface. -/
structure ServicesKept (s s' : ConfiguredNet) : Prop where
  listeners : s'.listeners = s.listeners
  matched : Matched s'.toNet
  responder : ∀ c ∈ s.conns, c.listener = none → c ∈ s'.conns ∧ s'.responseIp = s'.ifp.ip

theorem servicesKept_iff (listens : ℕ → Bool) (config : NetConfig) (s : ConfiguredNet) :
    ServicesKept s (netWorkerRestart m listens config s) ↔
      (∀ c ∈ s.conns, c.listener ≠ none) ∧ ∀ i < s.listeners.length, listens i = true := by
  have hnet := toNet_netWorkerRestart m listens config s
  have hlisteners : (netWorkerRestart m listens config s).listeners = s.listeners := by
    rw [hnet, listeners_restoreListeners]
  have hmatched : Matched (netWorkerRestart m listens config s).toNet ↔
      ∀ i < s.listeners.length, listens i = true := by
    rw [Matched, hlisteners, hnet]
    exact perm_opened_restoreListeners_iff rfl
  constructor
  · intro h
    refine ⟨fun c hc hnone => ?_, hmatched.mp h.matched⟩
    have hmem := (h.responder c hc hnone).1
    rw [hnet] at hmem
    exact List.not_mem_nil (mem_conns_of_responder hmem hnone)
  · intro h
    exact ⟨hlisteners, hmatched.mpr h.2, fun c hc hnone => absurd hnone (h.1 c hc)⟩

/-! ## The states it meets -/

/-- A turn of the worker with one of the other messages. -/
def configuredStep (m : Mongoose) (s : ConfiguredNet) (a : Turn) : Option ConfiguredNet :=
  some { s with toNet := netWorker m a.1 s.toNet a.2 }

/-- A listener is to be opened, and can be. -/
def Opening : ConfiguredNet → Turn → Prop
  | _, (listens, .setHttp _ _ _) | _, (listens, .setTcp _ _ _) => listens = true
  | _, (_, .rstTcp _) => False

/-- The responder is there, if it was started. -/
structure Responding (m : Mongoose) (mdns : Option UInt16) (s : ConfiguredNet) : Prop where
  inOrder : InOrder m s.toNet
  responder : (∀ c ∈ s.conns, c.listener ≠ none) ↔ mdns = none

theorem responding_ethNetStart {defaults : NetConfig} {config : Option NetConfig}
    {mdns : Option UInt16} {s : ConfiguredNet} (h : ethNetStart defaults config mdns = some s) :
    Responding m mdns s := by
  rw [ethNetStart] at h
  obtain ⟨_, _, h⟩ := Option.bind_eq_some_iff.mp h
  cases h
  refine ⟨inOrder_init m mdns, ?_⟩
  cases mdns with
  | none => simp [Net.init]
  | some port => simp [Net.init]

theorem responder_mgListen (m : Mongoose) (b : Bool) (l : NetListener) (s : Net) :
    (∀ c ∈ (mgListen m b l s).conns, c.listener ≠ none) ↔ ∀ c ∈ s.conns, c.listener ≠ none := by
  cases b with
  | false => rfl
  | true => simp [mgListen]

theorem responding_step {mdns : Option UInt16} {s s' : ConfiguredNet} {a : Turn}
    (h : Responding m mdns s) (ha : Opening s a) (hs : configuredStep m s a = some s') :
    Responding m mdns s' := by
  obtain ⟨listens, msg⟩ := a
  cases hs
  refine ⟨inOrder_netWorker h.inOrder listens msg, ?_⟩
  cases msg with
  | setHttp uri fn context =>
      simp only [netWorker, mgMgrPoll_eq h.inOrder, responder_mgListen]
      exact h.responder
  | setTcp uri fn context =>
      simp only [netWorker, mgMgrPoll_eq h.inOrder, responder_mgListen]
      exact h.responder
  | rstTcp uri => exact absurd ha id

/-- **What a restart keeps**: in every state in which listeners have been opened and none
has failed, the services survive a restart exactly if there is no responder of mDNS, and
Mongoose can open every entry again. -/
theorem servicesKept_netWorkerRestart_iff {defaults : NetConfig} {config : Option NetConfig}
    {mdns : Option UInt16} {init s : ConfiguredNet}
    (hstart : ethNetStart defaults config mdns = some init)
    (hs : Reach (configuredStep m) Opening init s) (listens : ℕ → Bool) (cfg : NetConfig) :
    ServicesKept s (netWorkerRestart m listens cfg s) ↔
      mdns = none ∧ ∀ i < s.listeners.length, listens i = true := by
  have hresponding : Responding m mdns s :=
    hs.invariant (responding_ethNetStart hstart) fun _ _ _ h ha hs => responding_step h ha hs
  rw [servicesKept_iff, hresponding.responder]

/-! ## A restart with a responder, and one without -/

/-- An address, and a network around it. -/
def configOf (ip : CString) : NetConfig where
  ip := ip
  mask := "255.255.255.0".toList
  gateway := "192.168.1.1".toList
  mac := Vector.replicate 6 2

/-- The service after its start with 192.168.1.100. -/
def startedNet (mdns : Option UInt16) : ConfiguredNet where
  toNet := Net.init mdns
  config := configOf "192.168.1.100".toList
  ifp := { ip := 0x6401A8C0, mask := 0x00FFFFFF, gw := 0x0101A8C0, mac := #v[2, 2, 2, 2, 0, 0] }
  responseIp := 0x6401A8C0

theorem ethNetStart_startedNet (mdns : Option UInt16) :
    ethNetStart (configOf "192.168.1.100".toList) none mdns = some (startedNet mdns) := by
  have hinit : ethNetInitTcpip (configOf "192.168.1.100".toList)
      (configOf "192.168.1.100".toList) =
        some ((startedNet mdns).config, (startedNet mdns).ifp) := by
    change _ = some ((startedNet none).config, (startedNet none).ifp)
    decide
  rw [ethNetStart, Option.getD_none, hinit]
  rfl

/-- The service with one listener. -/
def listeningNet (mdns : Option UInt16) : ConfiguredNet :=
  { startedNet mdns with
    toNet := netWorker port502 true (Net.init mdns) (.setTcp "tcp://0.0.0.0:502" 1 0) }

theorem reach_listeningNet (mdns : Option UInt16) :
    Reach (configuredStep port502) Opening (startedNet mdns) (listeningNet mdns) :=
  .next (a := (true, .setTcp "tcp://0.0.0.0:502" 1 0)) .start rfl rfl

/-- The address is changed: the responder is gone. -/
theorem restart_closes_responder :
    ethNetStart (configOf "192.168.1.100".toList) none (some 5353) =
        some (startedNet (some 5353)) ∧
      Reach (configuredStep port502) Opening (startedNet (some 5353))
        (listeningNet (some 5353)) ∧
      ¬ServicesKept (listeningNet (some 5353)) (netWorkerRestart port502 (fun _ => true)
        (configOf "192.168.1.101".toList) (listeningNet (some 5353))) := by
  refine ⟨ethNetStart_startedNet _, reach_listeningNet _, ?_⟩
  rw [servicesKept_iff]
  intro h
  exact h.1 ⟨none, 5353, false⟩ (by decide) rfl

theorem servicesKept_without_responder :
    ServicesKept (listeningNet none) (netWorkerRestart port502 (fun _ => true)
      (configOf "192.168.1.101".toList) (listeningNet none)) :=
  (servicesKept_netWorkerRestart_iff (ethNetStart_startedNet none) (reach_listeningNet none)
    _ _).mpr ⟨rfl, fun _ _ => rfl⟩

end RhsCore.NetWorker
