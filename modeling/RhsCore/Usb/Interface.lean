import Mathlib.Data.List.Count
import Mathlib.Data.Nat.Notation
import Mathlib.Logic.Function.Basic

/-!
# The USB interface

`rhs_hal_usb.c`: one interface of the USB device is registered at a time, and has hooks that
are called when it comes and goes.  `usb_eth_bridge.c` and `usb_cdc_net.c` register their own
while they run, and keep the one before in the object that they allocate.

What the hooks and the other calls do is only recorded.  Memory that was freed holds
anything.

## Main definitions

* `rhsHalUsbSetInterface` — the switch.
* `usbEthBridgeStart`, `usbEthBridgeStop`, `usbCdcNetStart`, `usbCdcNetStop` — its users.
* `Restored` — what a start and a stop should leave behind.
* `restored_iff_freed` — when they do.
-/

namespace RhsCore.Usb

/-- A pointer; 0 is `NULL`. -/
abbrev Ptr := UInt32

/-- `RHSHalUsbInterface`: the hooks that are called, with 0 for none. -/
structure RHSHalUsbInterface where
  init : Ptr
  deinit : Ptr

/-- The interfaces in memory, among them those of the two services, which have no hooks. -/
structure Memory where
  iface : Ptr → RHSHalUsbInterface
  bridgeUsbDesc : Ptr
  usbCdcNetDesc : Ptr
  bridge_ne : bridgeUsbDesc ≠ 0
  cdcNet_ne : usbCdcNetDesc ≠ 0
  bridge_hooks : iface bridgeUsbDesc = { init := 0, deinit := 0 }
  cdcNet_hooks : iface usbCdcNetDesc = { init := 0, deinit := 0 }

/-- What was called. -/
inductive Event
  | switchMode (iface : Ptr)
  | init (iface : Ptr)
  | deinit (iface : Ptr)
  | rhsHalEthInit
  | rhsHalEthDeinit
  | rhsHalUsbReinit
  | tusbInit
  | tusbDeinit
  | dispatchSet (app : Ptr)
  | dispatchClear
  | threadStart (app : Ptr)
  | netStop (app : Ptr)
  | threadJoin (app : Ptr)
  | free (app : Ptr)
  deriving DecidableEq

structure UsbEthBridge where
  prevUsbIntf : Ptr
  finish : Bool

structure CdcNet where
  prevIntf : Ptr

structure State where
  /-- `s_usb_desc`. -/
  usbDesc : Ptr
  bridges : Ptr → Option UsbEthBridge
  cdcNets : Ptr → Option CdcNet
  log : List Event

def State.call (s : State) (e : Event) : State := { s with log := s.log ++ [e] }

/-! ## The switch -/

/-- `rhs_hal_usb_set_interface`. -/
def rhsHalUsbSetInterface (m : Memory) (s : State) (iface : Ptr) : State :=
  if iface = s.usbDesc then s
  else
    let s :=
      if s.usbDesc ≠ 0 ∧ (m.iface s.usbDesc).deinit ≠ 0 then s.call (.deinit s.usbDesc) else s
    let s :=
      if iface ≠ 0 then
        let s := s.call (.switchMode iface)
        if (m.iface iface).init ≠ 0 then s.call (.init iface) else s
      else s
    { s with usbDesc := iface }

/-- `rhs_hal_usb_get_interface`. -/
def rhsHalUsbGetInterface (s : State) : Ptr := s.usbDesc

/-! ## `usb_eth_bridge.c` -/

/-- `usb_eth_bridge_start`, with the object at `b`. -/
def usbEthBridgeStart (m : Memory) (s : State) (b : Ptr) : State :=
  let s := s.call .rhsHalEthInit
  let prev := rhsHalUsbGetInterface s
  let s := { s with
    bridges := Function.update s.bridges b (some { prevUsbIntf := prev, finish := false }) }
  let s := rhsHalUsbSetInterface m s m.bridgeUsbDesc
  (((s.call .rhsHalUsbReinit).call .tusbInit).call (.dispatchSet b)).call (.threadStart b)

/-- `usb_eth_bridge_free`. -/
def usbEthBridgeFree (s : State) (bridge : Ptr) : State :=
  let s := s.call (.free bridge)
  { s with bridges := Function.update s.bridges bridge none }

/-- `bridge->prev_usb_intf`, where freed memory holds what `freed` says. -/
def State.prevUsbIntf (s : State) (freed : Ptr → Ptr) (bridge : Ptr) : Ptr :=
  match s.bridges bridge with
  | some b => b.prevUsbIntf
  | none => freed bridge

/-- `usb_eth_bridge_stop`. -/
def usbEthBridgeStop (m : Memory) (freed : Ptr → Ptr) (s : State) (bridge : Ptr) : State :=
  let s := s.call .dispatchClear
  let finished := (s.bridges bridge).map fun b : UsbEthBridge => { b with finish := true }
  let s := { s with bridges := Function.update s.bridges bridge finished }
  let s := s.call (.threadJoin bridge)
  let s := usbEthBridgeFree s bridge
  let s := s.call .tusbDeinit
  let s := rhsHalUsbSetInterface m s (s.prevUsbIntf freed bridge)
  s.call .rhsHalEthDeinit

/-! ## `usb_cdc_net.c` -/

/-- `usb_cdc_net_start`, with the object at `app`. -/
def usbCdcNetStart (m : Memory) (s : State) (app : Ptr) : State :=
  let prev := rhsHalUsbGetInterface s
  let s := { s with cdcNets := Function.update s.cdcNets app (some { prevIntf := prev }) }
  let s := rhsHalUsbSetInterface m s m.usbCdcNetDesc
  (((s.call .rhsHalUsbReinit).call .tusbInit).call (.dispatchSet app)).call (.threadStart app)

/-- `usb_cdc_net_free`. -/
def usbCdcNetFree (s : State) (app : Ptr) : State :=
  let s := s.call (.free app)
  { s with cdcNets := Function.update s.cdcNets app none }

/-- `app->prev_intf`. -/
def State.prevIntf (s : State) (freed : Ptr → Ptr) (app : Ptr) : Ptr :=
  match s.cdcNets app with
  | some net => net.prevIntf
  | none => freed app

/-- `usb_cdc_net_stop`. -/
def usbCdcNetStop (m : Memory) (freed : Ptr → Ptr) (s : State) (app : Ptr) : State :=
  let s := ((s.call .dispatchClear).call (.netStop app)).call (.threadJoin app)
  let s := usbCdcNetFree s app
  let s := s.call .tusbDeinit
  rhsHalUsbSetInterface m s (s.prevIntf freed app)

/-! ## What they should leave behind -/

/-- The two services. -/
inductive Service
  | usbEthBridge
  | usbCdcNet

def Service.desc (m : Memory) : Service → Ptr
  | .usbEthBridge => m.bridgeUsbDesc
  | .usbCdcNet => m.usbCdcNetDesc

/-- A start and a stop. -/
def Service.run (m : Memory) (freed : Ptr → Ptr) (s : State) (app : Ptr) : Service → State
  | .usbEthBridge => usbEthBridgeStop m freed (usbEthBridgeStart m s app) app
  | .usbCdcNet => usbCdcNetStop m freed (usbCdcNetStart m s app) app

/-- The interface before is registered again, and each hook it has was called once. -/
structure Restored (m : Memory) (s s' : State) : Prop where
  usbDesc : s'.usbDesc = s.usbDesc
  deinit : s.usbDesc ≠ 0 → (m.iface s.usbDesc).deinit ≠ 0 →
    s'.log.count (.deinit s.usbDesc) = s.log.count (.deinit s.usbDesc) + 1
  init : s.usbDesc ≠ 0 → (m.iface s.usbDesc).init ≠ 0 →
    s'.log.count (.init s.usbDesc) = s.log.count (.init s.usbDesc) + 1

/-! ## What a switch calls -/

variable {m : Memory} {freed : Ptr → Ptr} {s : State} {app p : Ptr}

/-- What a switch from one interface to another calls. -/
def Memory.switch (m : Memory) (old new : Ptr) : List Event :=
  if new = old then []
  else
    (if old ≠ 0 ∧ (m.iface old).deinit ≠ 0 then [.deinit old] else []) ++
      if new ≠ 0 then
        .switchMode new :: if (m.iface new).init ≠ 0 then [.init new] else []
      else []

theorem setInterface_eq (m : Memory) (s : State) (iface : Ptr) :
    rhsHalUsbSetInterface m s iface =
      { s with usbDesc := iface, log := s.log ++ m.switch s.usbDesc iface } := by
  rw [rhsHalUsbSetInterface, Memory.switch]
  split
  · rename_i heq
    rw [heq, List.append_nil]
  · simp only [State.call]
    split <;> split <;> (try split) <;> simp

/-- No call of a hook. -/
def Event.IsQuiet : Event → Prop
  | .init _ | .deinit _ => False
  | _ => True

theorem count_quiet {es : List Event} (hes : ∀ e ∈ es, e.IsQuiet) :
    es.count (.init p) = 0 ∧ es.count (.deinit p) = 0 :=
  ⟨List.count_eq_zero_of_not_mem fun hmem => hes _ hmem,
    List.count_eq_zero_of_not_mem fun hmem => hes _ hmem⟩

/-- A start and a stop switch to the service's interface, and from it to what the freed
object holds. -/
theorem Service.run_eq (m : Memory) (freed : Ptr → Ptr) (s : State) (app : Ptr)
    (service : Service) :
    (service.run m freed s app).usbDesc = freed app ∧
      ∃ first second third : List Event, (∀ e ∈ first ++ second ++ third, e.IsQuiet) ∧
        (service.run m freed s app).log = s.log ++ first ++ m.switch s.usbDesc (service.desc m) ++
          second ++ m.switch (service.desc m) (freed app) ++ third := by
  cases service with
  | usbEthBridge =>
      simp only [run, usbEthBridgeStop, usbEthBridgeStart, usbEthBridgeFree, setInterface_eq,
        State.call, State.prevUsbIntf, Function.update_self, rhsHalUsbGetInterface, desc, true_and]
      refine ⟨[.rhsHalEthInit], [.rhsHalUsbReinit, .tusbInit, .dispatchSet app, .threadStart app,
        .dispatchClear, .threadJoin app, .free app, .tusbDeinit], [.rhsHalEthDeinit], ?_, ?_⟩
      · simp [Event.IsQuiet]
      · simp
  | usbCdcNet =>
      simp only [run, usbCdcNetStop, usbCdcNetStart, usbCdcNetFree, setInterface_eq,
        State.call, State.prevIntf, Function.update_self, rhsHalUsbGetInterface, desc, true_and]
      refine ⟨[], [.rhsHalUsbReinit, .tusbInit, .dispatchSet app, .threadStart app,
        .dispatchClear, .netStop app, .threadJoin app, .free app, .tusbDeinit], [], ?_, ?_⟩
      · simp [Event.IsQuiet]
      · simp

theorem Service.desc_spec (m : Memory) (service : Service) :
    service.desc m ≠ 0 ∧ m.iface (service.desc m) = { init := 0, deinit := 0 } := by
  cases service with
  | usbEthBridge => exact ⟨m.bridge_ne, m.bridge_hooks⟩
  | usbCdcNet => exact ⟨m.cdcNet_ne, m.cdcNet_hooks⟩

/-- To an interface without hooks, and back. -/
theorem switch_to_from {own : Ptr} (hne : own ≠ p) (hzero : own ≠ 0) (hp : p ≠ 0)
    (hown : m.iface own = { init := 0, deinit := 0 }) :
    m.switch p own =
      (if (m.iface p).deinit ≠ 0 then [.deinit p] else []) ++ [.switchMode own] ∧
    m.switch own p = .switchMode p :: if (m.iface p).init ≠ 0 then [.init p] else [] := by
  simp only [Memory.switch, if_neg hne, if_neg hne.symm, hown]
  simp [hzero, hp]

/-- Each hook is called once then. -/
theorem count_switch {own : Ptr} (hzero : own ≠ 0) (hp : p ≠ 0)
    (hown : m.iface own = { init := 0, deinit := 0 }) :
    ((m.iface p).deinit ≠ 0 →
      (m.switch p own).count (.deinit p) + (m.switch own p).count (.deinit p) = 1) ∧
    ((m.iface p).init ≠ 0 →
      (m.switch p own).count (.init p) + (m.switch own p).count (.init p) = 1) := by
  by_cases heq : own = p
  · rw [← heq, hown]
    exact ⟨fun h => absurd rfl h, fun h => absurd rfl h⟩
  · obtain ⟨hto, hfrom⟩ := switch_to_from heq hzero hp hown
    rw [hto, hfrom]
    refine ⟨fun hdeinit => ?_, fun hinit => ?_⟩
    · rw [if_pos hdeinit]
      split
      · simp
      · simp
    · rw [if_pos hinit]
      split
      · simp
      · simp

/-- **When the interface is restored**: exactly when the freed object still holds it. -/
theorem restored_iff_freed (m : Memory) (freed : Ptr → Ptr) (s : State) (app : Ptr)
    (service : Service) : Restored m s (service.run m freed s app) ↔ freed app = s.usbDesc := by
  obtain ⟨husb, first, second, third, hquiet, hlog⟩ := service.run_eq m freed s app
  obtain ⟨hzero, hown⟩ := service.desc_spec m
  constructor
  · intro h
    rw [← husb]
    exact h.usbDesc
  · intro hfreed
    have hcount (e : Event) (hfirst : (first ++ second ++ third).count e = 0) :
        (service.run m freed s app).log.count e = s.log.count e +
          ((m.switch s.usbDesc (service.desc m)).count e +
            (m.switch (service.desc m) s.usbDesc).count e) := by
      rw [hlog, hfreed]
      simp only [List.count_append] at hfirst ⊢
      omega
    obtain ⟨hinit, hdeinit⟩ := count_quiet (p := s.usbDesc) hquiet
    refine ⟨husb.trans hfreed, fun hne hhook => ?_, fun hne hhook => ?_⟩
    · rw [hcount _ hdeinit, (count_switch hzero hne hown).1 hhook]
    · rw [hcount _ hinit, (count_switch hzero hne hown).2 hhook]

/-- An interface with hooks at 3, beside those of the services. -/
def threeInterfaces : Memory where
  iface p := if p = 3 then { init := 7, deinit := 8 } else { init := 0, deinit := 0 }
  bridgeUsbDesc := 1
  usbCdcNetDesc := 2
  bridge_ne := by decide
  cdcNet_ne := by decide
  bridge_hooks := rfl
  cdcNet_hooks := rfl

/-- The interface at 3 is registered. -/
def registeredState : State where
  usbDesc := 3
  bridges := fun _ => none
  cdcNets := fun _ => none
  log := []

/-- The freed object is cleared, and no interface is registered. -/
theorem cleared_object_not_restored : ¬ Restored threeInterfaces registeredState
    (Service.usbEthBridge.run threeInterfaces (fun _ => 0) registeredState 4096) := by
  intro h
  exact absurd h.usbDesc (by decide)

end RhsCore.Usb
