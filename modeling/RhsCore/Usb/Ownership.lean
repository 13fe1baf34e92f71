import RhsCore.Lib.Transition
import RhsCore.Usb.Interface

/-!
# Who drives the USB device

The services register an interface, initialise TinyUSB, and call `tud_task` in a thread of
their own: `usb_eth_bridge.c` and `usb_cdc_net.c` in their workers, and the serial bridges in
`usb_dual_cdc` of `rhs_hal_usb_cdc.c`, which the hooks of `usb_cdc_desc` start and end.
TinyUSB is for one thread.

The calls come one after the other, and `usb_dual_cdc` goes on in between.  What they do to
the device is read from the calls that they record.

## Main definitions

* `Event.effect` — what a recorded call does to the device.
* `step` — the services' calls, and the thread's own step.
* `Owned` — one thread, and everything belongs to it.
* `always_owned_iff` — the runs in which it always holds.
-/

namespace RhsCore.Usb

/-- The interfaces with that of the serial bridges, whose hooks are `cdc_init` and
`cdc_deinit`. -/
structure Interfaces extends Memory where
  usbCdcDesc : Ptr
  cdc_ne : usbCdcDesc ≠ 0
  cdc_hooks : (iface usbCdcDesc).init ≠ 0 ∧ (iface usbCdcDesc).deinit ≠ 0

/-- The threads that drive TinyUSB: `usb_dual_cdc`, with whether it is in its loop, and the
worker of a network service; whether TinyUSB is initialised; and whose `s_ops` are. -/
structure Device where
  cdcDual : Option Bool
  worker : Option Ptr
  inited : Bool
  ops : Option Ptr
  deriving DecidableEq

variable (m : Interfaces)

/-- What a recorded call does; `none` is an assertion that fails, or a join of a thread that
was not started. -/
def Event.effect (d : Device) : Event → Option Device
  | .init iface =>
      -- `cdc_init`
      if iface = m.usbCdcDesc then some { d with cdcDual := some false } else some d
  | .deinit iface =>
      -- `cdc_deinit`: the thread calls `tusb_deinit` at its end, which is waited for
      if iface = m.usbCdcDesc then some { d with cdcDual := none, inited := false } else some d
  | .tusbInit => some { d with inited := true }
  | .tusbDeinit => some { d with inited := false }
  | .dispatchSet app => if d.ops = none then some { d with ops := some app } else none
  | .dispatchClear => some { d with ops := none }
  | .threadStart app => some { d with worker := some app }
  | .threadJoin app => if d.worker = some app then some { d with worker := none } else none
  | .switchMode _ | .rhsHalEthInit | .rhsHalEthDeinit | .rhsHalUsbReinit | .netStop _
  | .free _ => some d

/-- What calls do one after the other. -/
def effects (d : Device) : List Event → Option Device
  | [] => some d
  | e :: es => (e.effect m d).bind fun d => effects d es

structure System where
  usb : State
  device : Device

/-- Nothing is registered. -/
def System.init : System where
  usb := { usbDesc := 0, bridges := fun _ => none, cdcNets := fun _ => none, log := [] }
  device := { cdcDual := none, worker := none, inited := false, ops := none }

/-- A call, with what it does to the device. -/
def System.call (s : System) (f : State → State) : Option System :=
  let usb := f { s.usb with log := [] }
  (effects m s.device usb.log).map fun device => { usb := { usb with log := [] }, device }

/-- The service has an object at this address. -/
def State.has (s : State) (app : Ptr) : Service → Bool
  | .usbEthBridge => (s.bridges app).isSome
  | .usbCdcNet => (s.cdcNets app).isSome

def Service.start (s : State) (app : Ptr) : Service → State
  | .usbEthBridge => usbEthBridgeStart m.toMemory s app
  | .usbCdcNet => usbCdcNetStart m.toMemory s app

/-- `read` is what the freed object holds. -/
def Service.stop (read : Ptr) (s : State) (app : Ptr) : Service → State
  | .usbEthBridge => usbEthBridgeStop m.toMemory (fun _ => read) s app
  | .usbCdcNet => usbCdcNetStop m.toMemory (fun _ => read) s app

/-- What happens next. -/
inductive Action
  /-- `usb_serial_vcp_init`, in the worker of a serial bridge. -/
  | vcpInit
  | start (service : Service) (app : Ptr)
  | stop (service : Service) (app read : Ptr)
  /-- `usb_dual_cdc` calls `tusb_init`. -/
  | cdcDual

/-- A start has a new object, and a stop is given one that is there. -/
def step (s : System) : Action → Option System
  | .vcpInit => s.call m (rhsHalUsbSetInterface m.toMemory · m.usbCdcDesc)
  | .start service app =>
      if s.usb.has app .usbEthBridge = false ∧ s.usb.has app .usbCdcNet = false then
        s.call m (service.start m · app)
      else none
  | .stop service app read =>
      if s.usb.has app service then s.call m (service.stop m read · app) else none
  | .cdcDual =>
      if s.device.cdcDual = some false then
        some { s with device := { s.device with cdcDual := some true, inited := true } }
      else none

/-! ## One owner -/

/-- The interface of the thread that drives the device. -/
def System.driver (s : System) : Ptr :=
  match s.device.worker with
  | some app => if s.usb.has app .usbEthBridge then m.bridgeUsbDesc else m.usbCdcNetDesc
  | none => if s.device.cdcDual = none then 0 else m.usbCdcDesc

/-- At most one thread drives the device; its interface is registered, TinyUSB is initialised
for it, and frames go to it. -/
structure Owned (s : System) : Prop where
  alone : s.device.worker = none ∨ s.device.cdcDual = none
  usbDesc : s.usb.usbDesc = s.driver m
  inited : s.device.inited = true ↔ s.device.worker ≠ none ∨ s.device.cdcDual = some true
  ops : s.device.ops = s.device.worker

/-- The serial bridges leave the device to a network service while it runs, and a stop reads
`NULL` or the interface of the serial bridges back from the object that it has freed. -/
def Allowed (s : System) : Action → Prop
  | .vcpInit => s.device.worker = none
  | .stop _ _ read => read = 0 ∨ read = m.usbCdcDesc
  | .start _ _ | .cdcDual => True

/-! ## What a call does -/

variable {m} {s s' : System} {app read : Ptr} {service : Service}

theorem effects_append (d : Device) (es es' : List Event) :
    effects m d (es ++ es') = (effects m d es).bind fun d => effects m d es' := by
  induction es generalizing d with
  | nil => rfl
  | cons e es ih => simp only [List.cons_append, effects, ih, Option.bind_assoc]

section Switch

variable (m) (d : Device) (old new : Ptr)

def Device.leave : Device :=
  if old = m.usbCdcDesc then { d with cdcDual := none, inited := false } else d

def Device.enter : Device := if new = m.usbCdcDesc then { d with cdcDual := some false } else d

/-- The device after a switch from one interface to another. -/
def Device.switch : Device := if new = old then d else (d.leave m old).enter m new

theorem effects_leave :
    effects m d (if old ≠ 0 ∧ (m.iface old).deinit ≠ 0 then [.deinit old] else []) =
      some (d.leave m old) := by
  rw [Device.leave]
  by_cases hcdc : old = m.usbCdcDesc
  · rw [if_pos hcdc, if_pos ⟨hcdc ▸ m.cdc_ne, hcdc ▸ m.cdc_hooks.2⟩]
    simp [effects, Event.effect, hcdc]
  · rw [if_neg hcdc]
    split
    · simp [effects, Event.effect, hcdc]
    · rfl

theorem effects_enter :
    effects m d (if new ≠ 0 then
        .switchMode new :: if (m.iface new).init ≠ 0 then [.init new] else [] else []) =
      some (d.enter m new) := by
  rw [Device.enter]
  by_cases hcdc : new = m.usbCdcDesc
  · rw [if_pos hcdc, if_pos (hcdc ▸ m.cdc_ne), if_pos (hcdc ▸ m.cdc_hooks.1)]
    simp [effects, Event.effect, hcdc]
  · rw [if_neg hcdc]
    split
    · split
      · simp [effects, Event.effect, hcdc]
      · rfl
    · rfl

theorem effects_switch : effects m d (m.switch old new) = some (d.switch m old new) := by
  rw [Memory.switch, Device.switch]
  split
  · rfl
  · rw [effects_append, effects_leave, Option.bind_some, effects_enter]

variable {m old new}

theorem switch_self : d.switch m old old = d := if_pos rfl

theorem switch_to_cdc (hold : old ≠ m.usbCdcDesc) :
    d.switch m old m.usbCdcDesc = { d with cdcDual := some false } := by
  rw [Device.switch, if_neg hold.symm, Device.leave, if_neg hold, Device.enter, if_pos rfl]

theorem switch_from_cdc (hnew : new ≠ m.usbCdcDesc) :
    d.switch m m.usbCdcDesc new = { d with cdcDual := none, inited := false } := by
  rw [Device.switch, if_neg hnew, Device.leave, if_pos rfl, Device.enter, if_neg hnew]

/-- Between other interfaces nothing happens to the device. -/
theorem switch_of_ne (hold : old ≠ m.usbCdcDesc) (hnew : new ≠ m.usbCdcDesc) :
    d.switch m old new = d := by
  rw [Device.switch, Device.leave, if_neg hold, Device.enter, if_neg hnew, ite_self]

/-- A switch is about `usb_dual_cdc` only. -/
theorem switch_ops_worker :
    (d.switch m old new).ops = d.ops ∧ (d.switch m old new).worker = d.worker := by
  by_cases hold : old = m.usbCdcDesc
  · by_cases hnew : new = m.usbCdcDesc
    · rw [hold, hnew, switch_self]
      exact ⟨rfl, rfl⟩
    · rw [hold, switch_from_cdc d hnew]
      exact ⟨rfl, rfl⟩
  · by_cases hnew : new = m.usbCdcDesc
    · rw [hnew, switch_to_cdc d hold]
      exact ⟨rfl, rfl⟩
    · rw [switch_of_ne d hold hnew]
      exact ⟨rfl, rfl⟩

end Switch

theorem step_vcpInit (hs : step m s .vcpInit = some s') :
    s' = { usb := { s.usb with usbDesc := m.usbCdcDesc, log := [] },
           device := s.device.switch m s.usb.usbDesc m.usbCdcDesc } := by
  rw [step, System.call, setInterface_eq] at hs
  simp only [List.nil_append, effects_switch, Option.map_some, Option.some.injEq] at hs
  exact hs.symm

section Calls

variable (m) (d : Device) (s : State) (app read : Ptr) (service : Service)

/-- A start fails when frames go to another service, and the device is its worker's. -/
theorem effects_start :
    effects m d (service.start m { s with log := [] } app).log =
      if d.ops = none then
        some { d.switch m s.usbDesc (service.desc m.toMemory) with
          inited := true, ops := some app, worker := some app }
      else none := by
  by_cases hops : d.ops = none
  · cases service <;>
      simp [Service.start, usbEthBridgeStart, usbCdcNetStart, Service.desc, State.call,
        rhsHalUsbGetInterface, setInterface_eq, effects, Event.effect, effects_append,
        effects_switch, switch_ops_worker, hops]
  · cases service <;>
      simp [Service.start, usbEthBridgeStart, usbCdcNetStart, State.call, rhsHalUsbGetInterface,
        setInterface_eq, effects, Event.effect, effects_append, effects_switch, switch_ops_worker,
        hops]

theorem usbDesc_start :
    (service.start m { s with log := [] } app).usbDesc = service.desc m.toMemory := by
  cases service <;>
    simp [Service.start, usbEthBridgeStart, usbCdcNetStart, Service.desc, State.call,
      setInterface_eq]

/-- The object is a bridge's, or the other service's as before. -/
theorem has_start :
    (service.start m { s with log := [] } app).has app .usbEthBridge =
      match service with
      | .usbEthBridge => true
      | .usbCdcNet => s.has app .usbEthBridge := by
  cases service <;>
    simp [Service.start, usbEthBridgeStart, usbCdcNetStart, State.call, setInterface_eq, State.has]

/-- A stop waits for the worker, which was started. -/
theorem effects_stop :
    effects m d (service.stop m read { s with log := [] } app).log =
      if d.worker = some app then
        some ({ d with ops := none, worker := none, inited := false }.switch m s.usbDesc read)
      else none := by
  by_cases hworker : d.worker = some app
  · cases service <;>
      simp [Service.stop, usbEthBridgeStop, usbCdcNetStop, usbEthBridgeFree, usbCdcNetFree,
        State.prevUsbIntf, State.prevIntf, State.call, setInterface_eq, effects, Event.effect,
        effects_append, effects_switch, hworker]
  · cases service <;>
      simp [Service.stop, usbEthBridgeStop, usbCdcNetStop, usbEthBridgeFree, usbCdcNetFree,
        State.call, setInterface_eq, effects, Event.effect, hworker]

theorem usbDesc_stop :
    (service.stop m read { s with log := [] } app).usbDesc = read := by
  cases service <;>
    simp [Service.stop, usbEthBridgeStop, usbCdcNetStop, usbEthBridgeFree, usbCdcNetFree,
      State.prevUsbIntf, State.prevIntf, State.call, setInterface_eq]

end Calls

/-- What a call gives that succeeds. -/
theorem call_eq_some_iff {f : State → State} :
    s.call m f = some s' ↔
      effects m s.device (f { s.usb with log := [] }).log = some s'.device ∧
        s'.usb = { f { s.usb with log := [] } with log := [] } := by
  obtain ⟨usb, device⟩ := s'
  simp [System.call, and_comm, eq_comm]

/-- A start switches to the service's interface, and the device is its worker's. -/
theorem step_start (hs : step m s (.start service app) = some s') :
    s.device.ops = none ∧ s'.usb.usbDesc = service.desc m.toMemory ∧
      s'.driver m = service.desc m.toMemory ∧
      s'.device = { s.device.switch m s.usb.usbDesc (service.desc m.toMemory) with
        inited := true, ops := some app, worker := some app } := by
  simp only [step, Option.ite_none_right_eq_some, call_eq_some_iff, effects_start,
    Option.some.injEq] at hs
  obtain ⟨⟨hnew, -⟩, ⟨hops, hdevice⟩, husb⟩ := hs
  have hworker : s'.device.worker = some app := by
    rw [← hdevice]
  have hhas : s'.usb.has app .usbEthBridge =
      (service.start m { s.usb with log := [] } app).has app .usbEthBridge := by
    rw [husb]
    rfl
  refine ⟨hops, ?_, ?_, hdevice.symm⟩
  · rw [husb]
    exact usbDesc_start m s.usb app service
  · simp only [System.driver, hworker, hhas, has_start, hnew]
    cases service <;> rfl

/-- A stop ends the worker that drives the device, and switches to what it reads. -/
theorem step_stop (hs : step m s (.stop service app read) = some s') :
    s.device.worker = some app ∧ s'.usb.usbDesc = read ∧
      s'.device = { s.device with ops := none, worker := none, inited := false }.switch m
        s.usb.usbDesc read := by
  simp only [step, Option.ite_none_right_eq_some, call_eq_some_iff, effects_stop,
    Option.some.injEq] at hs
  obtain ⟨-, ⟨hworker, hdevice⟩, husb⟩ := hs
  refine ⟨hworker, ?_, hdevice.symm⟩
  rw [husb]
  exact usbDesc_stop m s.usb app read service

theorem step_cdcDual (hs : step m s .cdcDual = some s') :
    s.device.cdcDual = some false ∧
      s' = { s with device := { s.device with cdcDual := some true, inited := true } } := by
  rw [step] at hs
  split at hs
  · rename_i hstarted
    exact ⟨hstarted, (Option.some.inj hs).symm⟩
  · cases hs

/-! ## Every run -/

/-- The hooks tell the interfaces apart. -/
theorem desc_ne_cdc (service : Service) : service.desc m.toMemory ≠ m.usbCdcDesc := by
  intro h
  have hhooks := (service.desc_spec m.toMemory).2
  rw [h] at hhooks
  exact m.cdc_hooks.1 (by rw [hhooks])

theorem driver_of_worker (hworker : s.device.worker = some app) :
    ∃ service : Service, s.driver m = service.desc m.toMemory := by
  rw [System.driver, hworker]
  simp only
  split
  · exact ⟨.usbEthBridge, rfl⟩
  · exact ⟨.usbCdcNet, rfl⟩

theorem driver_of_none (hworker : s.device.worker = none) :
    s.driver m = if s.device.cdcDual = none then 0 else m.usbCdcDesc := by
  rw [System.driver, hworker]

theorem owned_init : Owned m System.init where
  alone := .inl rfl
  usbDesc := rfl
  inited := by simp [System.init]
  ops := rfl

theorem owned_vcpInit_iff (h : Owned m s) (hs : step m s .vcpInit = some s') :
    Owned m s' ↔ s.device.worker = none := by
  obtain rfl := step_vcpInit hs
  constructor
  · intro howned
    cases hworker : s.device.worker with
    | none => rfl
    | some app =>
        obtain ⟨service, hdriver⟩ := driver_of_worker (m := m) hworker
        have halone := howned.alone
        simp only [h.usbDesc.trans hdriver, switch_to_cdc _ (desc_ne_cdc service)] at halone
        rcases halone with hnone | hnone
        · exact hworker.symm.trans hnone
        · cases hnone
  · intro hworker
    have husb := h.usbDesc.trans (driver_of_none hworker)
    by_cases hcdc : s.device.cdcDual = none
    · rw [if_pos hcdc] at husb
      have hinited : s.device.inited ≠ true := by
        rw [Ne, h.inited, hworker, hcdc]
        simp
      simp only [husb, switch_to_cdc _ m.cdc_ne.symm]
      exact ⟨.inl hworker, by simp [System.driver, hworker], by simp [hinited, hworker], h.ops⟩
    · rw [if_neg hcdc] at husb
      simp only [husb, switch_self]
      exact ⟨h.alone, by simp [System.driver, hworker, hcdc], h.inited, h.ops⟩

theorem Owned.start (h : Owned m s) (hs : step m s (.start service app) = some s') :
    Owned m s' := by
  obtain ⟨hops, husb, hdriver, hdevice⟩ := step_start hs
  have hworker : s.device.worker = none := h.ops.symm.trans hops
  have hold := h.usbDesc.trans (driver_of_none hworker)
  have hcdcDual : s'.device.cdcDual = none := by
    rw [hdevice]
    by_cases hcdc : s.device.cdcDual = none
    · rw [if_pos hcdc] at hold
      rw [hold, switch_of_ne _ m.cdc_ne.symm (desc_ne_cdc service)]
      exact hcdc
    · rw [if_neg hcdc] at hold
      rw [hold, switch_from_cdc _ (desc_ne_cdc service)]
  constructor
  · exact .inr hcdcDual
  · exact husb.trans hdriver.symm
  · rw [hdevice]
    simp
  · rw [hdevice]

theorem owned_stop_iff (h : Owned m s) (hs : step m s (.stop service app read) = some s') :
    Owned m s' ↔ read = 0 ∨ read = m.usbCdcDesc := by
  obtain ⟨hworker, husb, hdevice⟩ := step_stop hs
  obtain ⟨own, hdriver⟩ := driver_of_worker (m := m) hworker
  have hold := h.usbDesc.trans hdriver
  have hcdcDual : s.device.cdcDual = none := by
    rcases h.alone with hnone | hnone
    · cases hworker.symm.trans hnone
    · exact hnone
  have hnone : s'.device.worker = none := by
    rw [hdevice, (switch_ops_worker _).2]
  by_cases hread : read = m.usbCdcDesc
  · refine iff_of_true ?_ (.inr hread)
    have hswitch : s'.device =
        { cdcDual := some false, worker := none, inited := false, ops := none } := by
      rw [hdevice, hold, hread, switch_to_cdc _ (desc_ne_cdc own)]
    constructor
    · exact .inl hnone
    · rw [husb, hread, driver_of_none hnone, hswitch]
      rfl
    · simp [hswitch]
    · rw [hswitch]
  · have hswitch : s'.device =
        { cdcDual := none, worker := none, inited := false, ops := none } := by
      rw [hdevice, hold, switch_of_ne _ (desc_ne_cdc own) hread, ← hcdcDual]
    have hzero : s'.driver m = 0 := by
      rw [driver_of_none hnone, hswitch]
      rfl
    constructor
    · intro howned
      left
      rw [← husb, howned.usbDesc, hzero]
    · intro hallowed
      rcases hallowed with hallowed | hallowed
      · constructor
        · exact .inl hnone
        · rw [husb, hzero, hallowed]
        · simp [hswitch]
        · rw [hswitch]
      · exact absurd hallowed hread

theorem Owned.cdcDual (h : Owned m s) (hs : step m s .cdcDual = some s') : Owned m s' := by
  obtain ⟨hstarted, rfl⟩ := step_cdcDual hs
  have hworker : s.device.worker = none := by
    rcases h.alone with hnone | hnone
    · exact hnone
    · cases hstarted.symm.trans hnone
  have husb := h.usbDesc
  constructor
  · exact .inl hworker
  · rw [driver_of_none hworker, hstarted] at husb
    rw [husb, System.driver, hworker]
    rfl
  · simp
  · exact h.ops

/-- The step condition. -/
theorem owned_step_iff {a : Action} (h : Owned m s) (hs : step m s a = some s') :
    Owned m s' ↔ Allowed m s a := by
  cases a with
  | vcpInit => exact owned_vcpInit_iff h hs
  | start service app => exact iff_of_true (h.start hs) trivial
  | stop service app read => exact owned_stop_iff h hs
  | cdcDual => exact iff_of_true (h.cdcDual hs) trivial

/-- **The USB device has one owner**: whatever is started and stopped, at most one thread
drives TinyUSB, which is initialised for it, with its interface and its frames, exactly if no
serial bridge takes the interface from a network service that runs and each stop reads `NULL`
or the interface of the serial bridges. -/
theorem always_owned_iff (m : Interfaces) (actions : List Action) :
    Always (step m) (Owned m) System.init actions ↔ Each (step m) (Allowed m) System.init actions :=
  always_iff_each (J := fun _ => True) (fun _ _ _ _ _ => trivial)
    (fun _ _ _ _ h hs => owned_step_iff h hs) trivial owned_init actions

/-- The interface at 3 is that of the serial bridges. -/
def serialInterfaces : Interfaces :=
  { threeInterfaces with usbCdcDesc := 3, cdc_ne := by decide, cdc_hooks := by decide }

/-- A serial bridge is enabled, the Ethernet bridge is started, and another serial bridge is
enabled before it stops: nobody initialises TinyUSB again. -/
example : ∃ s, runActions (step serialInterfaces) (fun _ _ => True) System.init
    [.vcpInit, .cdcDual, .start .usbEthBridge 4096, .vcpInit, .cdcDual,
      .stop .usbEthBridge 4096 3] = some s ∧
    s.usb.usbDesc = 3 ∧ s.device.cdcDual = some true ∧ s.device.inited = false :=
  ⟨_, rfl, rfl, rfl, rfl⟩

end RhsCore.Usb
