import RhsCore.Lib.Transition
import RhsCore.Net.Listeners
import RhsCore.Net.NetUtils

/-!
# The configuration of the network

`eth_net.c` and the rest of `net.c`: what the service is started with, how a message
changes the addresses of the interface, and the command line.  There are two copies of the
addresses, the strings of `net->config` and the words of `net->mgr->ifp`.

## Main definitions

* `NetConfig`, `MgTcpipIf`, `ConfiguredNet` — the two copies, and the worker that has them.
* `ethNetStart` — how they are initialised.
* `netWorkerRestart` — what the worker does with a restart.
* `netSetConfig`, `netGetConfig`, `netCliCommand` — the interface and the command.
-/

namespace RhsCore.NetWorker

open NetUtils

/-! ## The two copies -/

structure NetConfig where
  ip : CString
  mask : CString
  gateway : CString
  mac : Vector UInt8 6
  deriving DecidableEq

/-- The part of `struct mg_tcpip_if` that is configured. -/
structure MgTcpipIf where
  ip : UInt32
  mask : UInt32
  gw : UInt32
  mac : Vector UInt8 6
  deriving DecidableEq

/-- The worker's state with the configuration.  `responseIp` is what `net_mdns_start` left
in the `data` of the responder's connection: the address it answers with. -/
structure ConfiguredNet extends Net where
  config : NetConfig
  ifp : MgTcpipIf
  responseIp : UInt32
  deriving DecidableEq

/-! ## The start -/

/-- The strings and the hardware address that are not given are taken from `defaults`. -/
def fillDefaults (defaults config : NetConfig) : NetConfig where
  ip := if config.ip = [] then defaults.ip else config.ip
  mask := if config.mask = [] then defaults.mask else config.mask
  gateway := if config.gateway = [] then defaults.gateway else config.gateway
  mac := if config.mac = Vector.replicate 6 0 then defaults.mac else config.mac

/-- `eth_net_init_tcpip`, and `cdc_net_init_tcpip`, which does the same; `none` if an
assertion fails. -/
def ethNetInitTcpip (defaults config : NetConfig) : Option (NetConfig × MgTcpipIf) := do
  let config := fillDefaults defaults config
  let ip ← stringToIp config.ip
  let mask ← stringToIp config.mask
  let gw ← stringToIp config.gateway
  -- `memcpy(ifp->mac, mac, sizeof(mac))` with a pointer for `mac`: four bytes of six
  some (config, {
    ip := mgIpv4 ip, mask := mgIpv4 mask, gw := mgIpv4 gw,
    mac := Vector.ofFn fun i => if i < 4 then config.mac.get i else 0 })

/-- `eth_net_start`, up to the loop of the worker: `config` may be `NULL`, and `mdns` is the
port of the responder, if Mongoose could open it. -/
def ethNetStart (defaults : NetConfig) (config : Option NetConfig) (mdns : Option UInt16) :
    Option ConfiguredNet := do
  let (config, ifp) ← ethNetInitTcpip defaults (config.getD defaults)
  some { Net.init mdns with config := config, ifp := ifp, responseIp := ifp.ip }

/-! ## A restart -/

/-- The addresses of the message, as far as they can be read. -/
def MgTcpipIf.configure (ifp : MgTcpipIf) (config : NetConfig) : MgTcpipIf where
  ip := match stringToIp config.ip with | some o => mgIpv4 o | none => ifp.ip
  mask := match stringToIp config.mask with | some o => mgIpv4 o | none => ifp.mask
  gw := match stringToIp config.gateway with | some o => mgIpv4 o | none => ifp.gw
  mac := ifp.mac

/-- All registered listeners are opened again; `listens i` says whether Mongoose can open
number `i` of them. -/
def restoreListeners (m : Mongoose) (listens : ℕ → Bool) : List NetListener → Net → Net
  | [], s => s
  | listener :: rest, s =>
      restoreListeners m (fun i => listens (i + 1)) rest (mgListen m (listens 0) listener s)

/-- One turn of the loop of `net_worker` with a restart. -/
def netWorkerRestart (m : Mongoose) (listens : ℕ → Bool) (config : NetConfig)
    (s : ConfiguredNet) : ConfiguredNet :=
  let net := mgMgrPoll s.toNet
  let net := mgMgrPoll { net with conns := net.conns.map fun c => { c with isClosing := true } }
  { s with
    toNet := restoreListeners m listens net.listeners net
    ifp := s.ifp.configure config }

/-! ## The interface -/

/-- `net_set_config`, with the restart it waits for. -/
def netSetConfig (m : Mongoose) (listens : ℕ → Bool) (config : NetConfig) (s : ConfiguredNet) :
    ConfiguredNet :=
  netWorkerRestart m listens config s

/-- What `net_get_config` writes for one address. -/
def ipText (ip : UInt32) : Option CString :=
  ipToString (ipByte ip 0) (ipByte ip 1) (ipByte ip 2) (ipByte ip 3)

/-- `net_get_config`: the strings of `ip`, `mask` and `gateway`. -/
def netGetConfig (s : ConfiguredNet) : Option CString × Option CString × Option CString :=
  (ipText s.ifp.ip, ipText s.ifp.mask, ipText s.ifp.gw)

/-! ## The command -/

/-- The line of the status for one address. -/
def statusLine (label : String) (ip : UInt32) : String :=
  label ++ s!"{ipByte ip 0}.{ipByte ip 1}.{ipByte ip 2}.{ipByte ip 3}\n"

/-- What follows the first blank, `separator + 1`; nothing if there is none. -/
def afterBlank (args : CString) : CString := (args.dropWhile (· ≠ ' ')).tail

/-- `net_cli_command`, and what it prints; of the status, the addresses. -/
def netCliCommand (m : Mongoose) (listens : ℕ → Bool) (args : Option CString)
    (s : ConfiguredNet) : List String × ConfiguredNet :=
  match args with
  | none =>
      (["Status:\n", statusLine "  IP:      " s.ifp.ip, statusLine "  Mask:    " s.ifp.mask,
        statusLine "  Gateway: " s.ifp.gw], s)
  | some args =>
      let ipStr := afterBlank args
      if ipStr = [] then
        if "--restart".toList.isPrefixOf args then ([], netSetConfig m listens s.config s)
        else (["Invalid argument\n"], s)
      else if "--ip".toList.isPrefixOf args then
        match stringToIp ipStr with
        | some o =>
            let ip := (ipToString o.a o.b o.c o.d).getD s.config.ip
            let s := { s with config := { s.config with ip := ip } }
            ([s!"IP address will be changed to {o.a}.{o.b}.{o.c}.{o.d}\n",
              "Restarting network manager...\n"], netSetConfig m listens s.config s)
        | none => (["Invalid IP address format. Expected: eth --ip 192.168.1.100\n"], s)
      else (["Invalid argument\n"], s)

end RhsCore.NetWorker
