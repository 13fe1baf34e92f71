import RhsCore.Lib.Transition
import RhsCore.Net.Listeners
import Mathlib.Data.List.Basic
import Mathlib.Data.Nat.Notation
import Mathlib.Logic.Function.Basic

/-!
# Starting the Modbus server on several networks

`modbus_tcp_start` of `modbus_tcp.c` stops the listener it started before and starts one on
the new port.  It remembers the port in a static variable, one for all networks: on a
network it stops what was started last, on whichever network that was.

## Main definitions

* `Start`, `modbusTcpStart` — the networks and the static variable, and a call.
* `OneListener` — each network has the listener of its last call, and no other.
* `Remembered` — the calls that keep it so.
* `oneListener_iff` — they do, and no others.
-/

namespace RhsCore.ModbusStart

open NetWorker

/-- `tcp://0.0.0.0:%u`. -/
def modbusAddr (port : UInt16) : String := "tcp://0.0.0.0:" ++ toString port.toNat

/-- The number that stands for `modbus_ev_handler`. -/
def modbusEvHandler : MgEventHandler := 1

/-- What a call registers. -/
def modbusListener (api : NetWorker.Context) (port : UInt16) : NetListener where
  type := .tcp
  uri := modbusAddr port
  fn := modbusEvHandler
  context := api

theorem modbusAddr_inj {p q : UInt16} : modbusAddr p = modbusAddr q ↔ p = q := by
  refine ⟨fun h => ?_, fun h => congrArg _ h⟩
  have hlist := congrArg String.toList h
  simp only [modbusAddr, String.toList_append] at hlist
  have hdigits := List.append_cancel_left hlist
  have hvalue := congrArg (fun l => Nat.ofDigitChars 10 l 0) hdigits
  exact UInt16.toNat_inj.mp (by simpa using hvalue)

variable {Id : Type} {m : Mongoose}

structure Start (Id : Type) where
  nets : Id → Net
  currentPort : UInt16
  /-- The port of the last call for each network. -/
  last : Id → Option UInt16

/-- A call; `listens` says whether Mongoose can open the new port. -/
structure Call (Id : Type) where
  app : Id
  api : NetWorker.Context
  port : UInt16
  listens : Bool

/-- Before the first call; `mdns` is the port of each network's responder. -/
def Start.init (mdns : Id → Option UInt16) : Start Id where
  nets := fun app => Net.init (mdns app)
  currentPort := 0
  last := fun _ => none

section Start

variable [DecidableEq Id]

/-- `modbus_tcp_start`, with what the worker does with the messages; `none` if an assertion
fails. -/
def modbusTcpStart (m : Mongoose) (s : Start Id) (call : Call Id) : Option (Start Id) :=
  if call.api = 0 ∨ call.port = 0 then none
  else
    let net := s.nets call.app
    let net :=
      if s.currentPort ≠ 0 then netWorker m true net (.rstTcp (modbusAddr s.currentPort))
      else net
    let net :=
      netWorker m call.listens net (.setTcp (modbusAddr call.port) modbusEvHandler call.api)
    some {
      nets := Function.update s.nets call.app net
      currentPort := call.port
      last := Function.update s.last call.app (some call.port) }

end Start

/-! ## One listener -/

variable {s s' : Start Id} {call : Call Id}

/-- Each network that received a call has the listener of its last call, and no other. -/
def OneListener (s : Start Id) : Prop :=
  ∀ app port, s.last app = some port →
    ∃ api, (s.nets app).listeners = [modbusListener api port]

/-- The listener of the last call is there, maybe with others. -/
structure Registered (s : Start Id) : Prop where
  none : ∀ app, s.last app = none → (s.nets app).listeners = []
  some : ∀ app port, s.last app = some port → s.currentPort ≠ 0 ∧
    ∃ before api, (s.nets app).listeners = before ++ [modbusListener api port]

/-- If the network had a call before, the last call on any network was for the same port. -/
def Remembered (s : Start Id) (call : Call Id) : Prop :=
  ∀ port, s.last call.app = some port → s.currentPort = port

theorem registered_init (mdns : Id → Option UInt16) : Registered (Start.init mdns) :=
  ⟨fun _ _ => rfl, nofun⟩

/-! ## What a call does to the lists -/

theorem listeners_netWorker_setTcp (m : Mongoose) (listens : Bool) (net : Net) (uri : String)
    (fn : MgEventHandler) (context : NetWorker.Context) :
    (netWorker m listens net (.setTcp uri fn context)).listeners =
      net.listeners ++ [{ type := .tcp, uri := uri, fn := fn, context := context }] := by
  cases listens with
  | false => rfl
  | true => rfl

theorem listeners_netWorker_rstTcp (m : Mongoose) (listens : Bool) (net : Net) {uri : String}
    (haton : m.mgAton uri = true) :
    (netWorker m listens net (.rstTcp uri)).listeners =
      net.listeners.eraseP fun l => l.uri = uri := by
  simp only [netWorker, haton, if_true, netListenersRemove_snd]
  rfl

/-- The listener of a call comes last, and that of the call before, on any network, is
taken away. -/
def stopped (s : Start Id) (app : Id) : List NetListener :=
  if s.currentPort ≠ 0 then
    (s.nets app).listeners.eraseP fun l => l.uri = modbusAddr s.currentPort
  else (s.nets app).listeners

theorem stopped_eq_nil_iff (hreg : Registered s) (h : OneListener s) (call : Call Id) :
    stopped s call.app = [] ↔ Remembered s call := by
  cases hlast : s.last call.app with
  | none =>
      have hlist := hreg.none call.app hlast
      refine iff_of_true ?_ fun port hport => ?_
      · simp [stopped, hlist]
      · rw [hlast] at hport
        cases hport
  | some port =>
      obtain ⟨api, hlist⟩ := h call.app port hlast
      have huri : (modbusListener api port).uri = modbusAddr s.currentPort ↔
          s.currentPort = port := modbusAddr_inj.trans eq_comm
      rw [stopped, if_pos (hreg.some call.app port hlast).1, hlist]
      by_cases hport : s.currentPort = port
      · refine iff_of_true ?_ fun port' hport' => ?_
        · rw [List.eraseP_cons_of_pos (by simpa using huri.mpr hport)]
        · rw [hlast] at hport'
          exact hport.trans (Option.some.inj hport')
      · refine iff_of_false ?_ fun h => hport (h port hlast)
        rw [List.eraseP_cons_of_neg (by simpa using fun h => hport (huri.mp h))]
        exact List.cons_ne_nil _ _

variable [DecidableEq Id]

/-- Mongoose reads the addresses of the server. -/
def ReadsAddrs (m : Mongoose) : Prop := ∀ port, m.mgAton (modbusAddr port) = true

/-- What a call does. -/
structure Called (s : Start Id) (call : Call Id) (s' : Start Id) : Prop where
  port : call.port ≠ 0
  current : s'.currentPort = call.port
  last : s'.last = Function.update s.last call.app (some call.port)
  others : ∀ app, app ≠ call.app → (s'.nets app).listeners = (s.nets app).listeners
  own : (s'.nets call.app).listeners = stopped s call.app ++ [modbusListener call.api call.port]

theorem called_of_modbusTcpStart (haton : ReadsAddrs m)
    (hs : modbusTcpStart m s call = some s') : Called s call s' := by
  rw [modbusTcpStart] at hs
  split at hs
  · cases hs
  · rename_i hassert
    cases hs
    refine ⟨fun h => hassert (.inr h), rfl, rfl, fun app happ => ?_, ?_⟩
    · simp only [Function.update_of_ne happ]
    · simp only [Function.update_self, listeners_netWorker_setTcp, stopped]
      split
      · rw [listeners_netWorker_rstTcp _ _ _ (haton _)]
        rfl
      · rfl

theorem registered_step (h : Registered s) (hs : Called s call s') : Registered s' := by
  have hcurrent : s'.currentPort ≠ 0 := by
    rw [hs.current]
    exact hs.port
  constructor
  · intro app hlast
    by_cases happ : app = call.app
    · rw [hs.last, happ, Function.update_self] at hlast
      cases hlast
    · rw [hs.last, Function.update_of_ne happ] at hlast
      rw [hs.others app happ]
      exact h.none app hlast
  · intro app port hlast
    refine ⟨hcurrent, ?_⟩
    by_cases happ : app = call.app
    · rw [hs.last, happ, Function.update_self] at hlast
      cases hlast
      rw [happ]
      exact ⟨stopped s call.app, call.api, hs.own⟩
    · rw [hs.last, Function.update_of_ne happ] at hlast
      rw [hs.others app happ]
      exact (h.some app port hlast).2

/-- The new listener is the only one if nothing is left. -/
theorem stopped_eq_nil (hs : Called s call s') (h : OneListener s') :
    stopped s call.app = [] := by
  obtain ⟨api, hlist⟩ := h call.app call.port (by rw [hs.last, Function.update_self])
  have hlength := congrArg List.length hlist
  rw [hs.own, List.length_append] at hlength
  exact List.eq_nil_of_length_eq_zero (Nat.succ.inj hlength)

/-- Only the list of the call's own network can go wrong. -/
theorem oneListener_step (h : OneListener s) (hs : Called s call s') :
    OneListener s' ↔ stopped s call.app = [] := by
  constructor
  · intro h'
    exact stopped_eq_nil hs h'
  · intro hnone app port hlast
    by_cases happ : app = call.app
    · rw [hs.last, happ, Function.update_self] at hlast
      cases hlast
      rw [happ]
      exact ⟨call.api, by rw [hs.own, hnone, List.nil_append]⟩
    · rw [hs.last, Function.update_of_ne happ] at hlast
      rw [hs.others app happ]
      exact h app port hlast

/-- A listener that was left over stays. -/
theorem oneListener_back (hreg : Registered s) (hs : Called s call s') (h : OneListener s') :
    OneListener s := by
  intro app port hlast
  by_cases happ : app = call.app
  · obtain ⟨hcurrent, before, api, hlist⟩ := hreg.some app port hlast
    have hstopped := stopped_eq_nil hs h
    rw [stopped, if_pos hcurrent, ← happ, hlist] at hstopped
    have hlength : (before ++ [modbusListener api port]).length - 1 ≤
        ((before ++ [modbusListener api port]).eraseP
          fun l => l.uri = modbusAddr s.currentPort).length := List.le_length_eraseP
    rw [hstopped, List.length_append] at hlength
    have hnil : before = [] := List.eq_nil_of_length_eq_zero (Nat.le_zero.mp hlength)
    exact ⟨api, by rw [hlist, hnil, List.nil_append]⟩
  · obtain ⟨api, hlist⟩ := h app port (by rw [hs.last, Function.update_of_ne happ, hlast])
    exact ⟨api, by rw [← hs.others app happ, hlist]⟩

/-- **One listener for each network** after a sequence of calls, exactly if each call on a
network that had one before comes when the last call was for that network's port. -/
theorem oneListener_iff (haton : ReadsAddrs m) {mdns : Id → Option UInt16}
    {calls : List (Call Id)} (hrun : runActions (modbusTcpStart m) (fun _ _ => True)
      (Start.init mdns) calls = some s) :
    OneListener s ↔ Each (modbusTcpStart m) Remembered (Start.init mdns) calls := by
  have hinit := registered_init mdns
  have hJ (s : Start Id) (call : Call Id) (s' : Start Id) (h : Registered s)
      (hs : modbusTcpStart m s call = some s') : Registered s' :=
    registered_step h (called_of_modbusTcpStart haton hs)
  have hback (s : Start Id) (call : Call Id) (s' : Start Id) (h : Registered s)
      (hs : modbusTcpStart m s call = some s') (h' : OneListener s') : OneListener s :=
    oneListener_back h (called_of_modbusTcpStart haton hs) h'
  rw [← always_iff_last hJ hback hinit hrun]
  refine always_iff_each hJ (fun s call s' hreg h hs => ?_) hinit nofun calls
  rw [oneListener_step h (called_of_modbusTcpStart haton hs), stopped_eq_nil_iff hreg h]

/-! ## Two networks -/

/-- The server is started on one network, on another, and again on the first. -/
def twoNets : List (Call ℕ) := [⟨0, 1, 502, true⟩, ⟨1, 1, 503, true⟩, ⟨0, 1, 502, true⟩]

theorem restart_keeps_old_listener : ∃ s,
    runActions (modbusTcpStart port502) (fun _ _ => True) (Start.init fun _ => none) twoNets =
      some s ∧ ¬ OneListener s := by
  have hrun : (runActions (modbusTcpStart port502) (fun _ _ => True) (Start.init fun _ => none)
      twoNets).map (fun s => (s.last 0, (s.nets 0).listeners.length)) = some (some 502, 2) := by
    decide
  obtain ⟨s, hs, hpair⟩ := Option.map_eq_some_iff.mp hrun
  obtain ⟨hlast, hlength⟩ := Prod.mk.inj hpair
  refine ⟨s, hs, fun h => ?_⟩
  obtain ⟨api, hlist⟩ := h 0 502 hlast
  rw [hlist] at hlength
  cases hlength

/-- The port of one network is changed. -/
def oneNet : List (Call ℕ) := [⟨0, 1, 502, true⟩, ⟨0, 1, 503, true⟩]

theorem one_net_one_listener : ∃ s,
    runActions (modbusTcpStart port502) (fun _ _ => True) (Start.init fun _ => none) oneNet =
      some s ∧ OneListener s := by
  have heach : Each (modbusTcpStart port502) Remembered (Start.init fun _ => none) oneNet := by
    intro s hs
    have hcalled := called_of_modbusTcpStart (fun _ => rfl) hs
    refine ⟨nofun, fun s' _ => ⟨fun port hport => ?_, trivial⟩⟩
    rw [hcalled.last, Function.update_self] at hport
    cases hport
    exact hcalled.current
  exact ⟨_, rfl, (oneListener_iff (m := port502) (fun _ => rfl) rfl).mpr heach⟩

end RhsCore.ModbusStart
