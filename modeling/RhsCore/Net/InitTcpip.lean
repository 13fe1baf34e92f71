import RhsCore.Net.Config

/-!
# From the configuration to the interface

`eth_net_alloc` and `usb_cdc_net_alloc`, up to the interface each of them hands to
`mg_tcpip_init`.  The two transports differ in the addresses they are built with.  The
hardware address is generated from the number of the chip where none is configured.

## Main definitions

* `NetBuild` — the addresses a build sets, and the number of the chip.
* `ethNetAlloc`, `usbCdcNetAlloc` — the configured part of the interface of a transport.
* `effective` — the interface that the configuration asks for.
* `alloc_eq_effective_iff` — when a transport initialises it.
-/

namespace RhsCore.NetWorker

open NetUtils

/-! ## The two transports -/

/-- The strings `RHS_ETH_NET_IP` and so on of the build, and `rhs_hal_version_uid`. -/
structure NetBuild where
  ethNetIpString : CString
  ethNetMaskString : CString
  ethNetGwString : CString
  cdcNetIpString : CString
  cdcNetMaskString : CString
  cdcNetGwString : CString
  uid : Vector UInt8 12

/-- `GENERATE_LOCALLY_ADMINISTERED_MAC`. -/
def generateLocallyAdministeredMac (uuid : Vector UInt8 12) : Vector UInt8 6 :=
  #v[2, uuid[0] ^^^ uuid[1], uuid[2] ^^^ uuid[3], uuid[4] ^^^ uuid[5],
    uuid[6] ^^^ uuid[7] ^^^ uuid[8], uuid[9] ^^^ uuid[10] ^^^ uuid[11]]

/-- What `eth_net` fills in. -/
def NetBuild.ethDefaults (build : NetBuild) : NetConfig where
  ip := build.ethNetIpString
  mask := build.ethNetMaskString
  gateway := build.ethNetGwString
  mac := generateLocallyAdministeredMac build.uid

/-- What `usb_cdc_net` fills in. -/
def NetBuild.cdcDefaults (build : NetBuild) : NetConfig where
  ip := build.cdcNetIpString
  mask := build.cdcNetMaskString
  gateway := build.cdcNetGwString
  mac := generateLocallyAdministeredMac build.uid

/-- `cdc_net_init_tcpip`: the same code, with the defaults of its own transport. -/
def cdcNetInitTcpip (defaults config : NetConfig) : Option (NetConfig × MgTcpipIf) :=
  ethNetInitTcpip defaults config

/-- `eth_net_alloc`, the interface it passes to `mg_tcpip_init`: the configuration is copied,
or the defaults if there is none, and the interface is initialised from the copy. -/
def ethNetAlloc (build : NetBuild) (config : Option NetConfig) : Option MgTcpipIf :=
  (ethNetInitTcpip build.ethDefaults (config.getD build.ethDefaults)).map Prod.snd

/-- `usb_cdc_net_alloc`. -/
def usbCdcNetAlloc (build : NetBuild) (config : Option NetConfig) : Option MgTcpipIf :=
  (cdcNetInitTcpip build.cdcDefaults (config.getD build.cdcDefaults)).map Prod.snd

/-- Either of them. -/
inductive Transport
  | eth
  | cdc
  deriving DecidableEq, Repr

def Transport.defaults (build : NetBuild) : Transport → NetConfig
  | .eth => build.ethDefaults
  | .cdc => build.cdcDefaults

def Transport.alloc (build : NetBuild) (config : Option NetConfig) :
    Transport → Option MgTcpipIf
  | .eth => ethNetAlloc build config
  | .cdc => usbCdcNetAlloc build config

/-! ## What is asked for -/

/-- The interface with the addresses of a configuration, if they can be read. -/
def interfaceOf (config : NetConfig) : Option MgTcpipIf := do
  let ip ← stringToIp config.ip
  let mask ← stringToIp config.mask
  let gw ← stringToIp config.gateway
  some { ip := mgIpv4 ip, mask := mgIpv4 mask, gw := mgIpv4 gw, mac := config.mac }

/-- The interface the caller asks for: what is given, and the defaults where nothing is. -/
def effective (defaults : NetConfig) : Option NetConfig → Option MgTcpipIf
  | none => interfaceOf defaults
  | some config =>
      interfaceOf {
        ip := if config.ip = [] then defaults.ip else config.ip
        mask := if config.mask = [] then defaults.mask else config.mask
        gateway := if config.gateway = [] then defaults.gateway else config.gateway
        mac := if ∀ i : Fin 6, config.mac.get i = 0 then defaults.mac else config.mac }

/-! ## What the transports make of it -/

theorem eq_replicate_zero_iff (mac : Vector UInt8 6) :
    mac = Vector.replicate 6 0 ↔ ∀ i : Fin 6, mac.get i = 0 := by
  constructor
  · rintro rfl i
    simp [Vector.get]
  · intro h
    apply Vector.ext
    intro i hi
    simpa [Vector.get] using h ⟨i, hi⟩

theorem effective_eq (defaults : NetConfig) (config : Option NetConfig) :
    effective defaults config = interfaceOf (fillDefaults defaults (config.getD defaults)) := by
  cases config with
  | none => simp [effective, fillDefaults]
  | some config => simp [effective, fillDefaults, eq_replicate_zero_iff]

/-- The hardware address with as many of its bytes as a pointer has. -/
def copiedMac (mac : Vector UInt8 6) : Vector UInt8 6 :=
  Vector.ofFn fun i => if i.val < 4 then mac.get i else 0

theorem copiedMac_eq_iff (mac : Vector UInt8 6) :
    copiedMac mac = mac ↔ mac[4] = 0 ∧ mac[5] = 0 := by
  constructor
  · intro h
    rw [← h]
    exact ⟨rfl, rfl⟩
  · intro h
    apply Vector.ext
    intro i hi
    obtain rfl | rfl | hlow : i = 4 ∨ i = 5 ∨ i < 4 := by omega
    · simp [copiedMac, h.1]
    · simp [copiedMac, h.2]
    · simp [copiedMac, Vector.get, hlow]

theorem initTcpip_eq (defaults config : NetConfig) :
    (ethNetInitTcpip defaults config).map Prod.snd =
      (interfaceOf (fillDefaults defaults config)).map fun ifp =>
        { ifp with mac := copiedMac ifp.mac } := by
  rw [ethNetInitTcpip, interfaceOf]
  cases stringToIp (fillDefaults defaults config).ip with
  | none => rfl
  | some ip =>
      cases stringToIp (fillDefaults defaults config).mask with
      | none => rfl
      | some mask =>
          cases stringToIp (fillDefaults defaults config).gateway with
          | none => rfl
          | some gw => rfl

/-- The interface a transport initialises: all that is asked for, but of the hardware
address only what is copied. -/
theorem Transport.alloc_eq (build : NetBuild) (config : Option NetConfig) (t : Transport) :
    t.alloc build config =
      (effective (t.defaults build) config).map fun ifp =>
        { ifp with mac := copiedMac ifp.mac } := by
  rw [effective_eq, ← initTcpip_eq]
  cases t with
  | eth => rfl
  | cdc => rfl

/-- **The interface carries what is asked for**, on either transport, exactly if the last two
bytes of the hardware address are zero: they are not copied. -/
theorem alloc_eq_effective_iff {build : NetBuild} {t : Transport} {config : Option NetConfig}
    {ifp : MgTcpipIf} (h : effective (t.defaults build) config = some ifp) :
    t.alloc build config = some ifp ↔ ifp.mac[4] = 0 ∧ ifp.mac[5] = 0 := by
  rw [Transport.alloc_eq, h, Option.map_some, Option.some_inj, ← copiedMac_eq_iff]
  constructor
  · intro heq
    exact congrArg MgTcpipIf.mac heq
  · intro heq
    rw [heq]

/-- The addresses of the build as it is configured by default, on a chip with number zero. -/
def defaultBuild : NetBuild where
  ethNetIpString := "192.168.0.100".toList
  ethNetMaskString := "255.255.255.0".toList
  ethNetGwString := "192.168.0.1".toList
  cdcNetIpString := "192.168.3.100".toList
  cdcNetMaskString := "255.255.255.0".toList
  cdcNetGwString := "192.168.3.1".toList
  uid := Vector.replicate 12 0

/-- Only a hardware address is configured. -/
def macConfig (mac : Vector UInt8 6) : NetConfig where
  ip := []
  mask := []
  gateway := []
  mac := mac

/-- The address `02:00:00:00:00:01` becomes `02:00:00:00:00:00`. -/
theorem last_byte_not_copied :
    ∃ ifp, effective (Transport.eth.defaults defaultBuild) (macConfig #v[2, 0, 0, 0, 0, 1]) =
      some ifp ∧ ifp.mac = #v[2, 0, 0, 0, 0, 1] ∧
      Transport.eth.alloc defaultBuild (macConfig #v[2, 0, 0, 0, 0, 1]) ≠ some ifp := by
  refine ⟨_, rfl, rfl, ?_⟩
  decide

/-- Addresses of one's own arrive, of which the hardware address ends in zeros; the mask is the
default. -/
theorem configured_address_copied :
    Transport.eth.alloc defaultBuild (some {
        ip := "10.0.0.7".toList
        mask := []
        gateway := "10.0.0.1".toList
        mac := #v[0x02, 0xDE, 0xAD, 0xBE, 0, 0] }) =
      some {
        ip := 0x0700000A
        mask := 0x00FFFFFF
        gw := 0x0100000A
        mac := #v[0x02, 0xDE, 0xAD, 0xBE, 0, 0] } := by
  exact (alloc_eq_effective_iff (by decide)).mpr (by decide)

end RhsCore.NetWorker
