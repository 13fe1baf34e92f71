import RhsCore.Net.Restart

/-!
# The two copies of the configuration

`net_set_config` changes the interface, and not `net->config`; the command line takes
`net->config` for what the interface has.  What it does after a `net_set_config` depends on
whether the two happen to be the same.

## Main definitions

* `reconfigure` — `net_set_config` and the command, in any order.
* `ConfigKept` — what a configuration is to be for `net_get_config` and the command.
* `configKept_netSetConfig_iff` — it is so exactly if `net->config` has its addresses.
-/

namespace RhsCore.NetWorker

open NetUtils

variable {m : Mongoose} {listens : ℕ → Bool} {cfg : NetConfig} {s s' : ConfiguredNet}
  {o : Octets} {ipStr : CString}

/-! ## Addresses as text and as words -/

theorem mgIpv4_inj {o o' : Octets} (h : o.Small) (h' : o'.Small) (heq : mgIpv4 o = mgIpv4 o') :
    o = o' := by
  obtain ⟨ha, hb, hc, hd⟩ := ipByte_mgIpv4 h
  obtain ⟨ha', hb', hc', hd'⟩ := ipByte_mgIpv4 h'
  rw [heq] at ha hb hc hd
  cases o
  cases o'
  simp_all

theorem ipText_mgIpv4 (h : o.Small) : ipText (mgIpv4 o) = ipToString o.a o.b o.c o.d := by
  obtain ⟨ha, hb, hc, hd⟩ := ipByte_mgIpv4 h
  rw [ipText, ha, hb, hc, hd]

/-- The addresses can be read. -/
structure NetConfig.Valid (config : NetConfig) : Prop where
  ip : ∃ o, stringToIp config.ip = some o
  mask : ∃ o, stringToIp config.mask = some o
  gateway : ∃ o, stringToIp config.gateway = some o

/-- The addresses are the same. -/
structure NetConfig.Agrees (config config' : NetConfig) : Prop where
  ip : stringToIp config.ip = stringToIp config'.ip
  mask : stringToIp config.mask = stringToIp config'.mask
  gateway : stringToIp config.gateway = stringToIp config'.gateway

/-- The interface has the addresses of the strings. -/
structure MgTcpipIf.Has (ifp : MgTcpipIf) (config : NetConfig) : Prop where
  ip : (stringToIp config.ip).map mgIpv4 = some ifp.ip
  mask : (stringToIp config.mask).map mgIpv4 = some ifp.mask
  gw : (stringToIp config.gateway).map mgIpv4 = some ifp.gw

theorem MgTcpipIf.has_configure (ifp : MgTcpipIf) (h : cfg.Valid) :
    (ifp.configure cfg).Has cfg := by
  obtain ⟨⟨ip, hip⟩, ⟨mask, hmask⟩, ⟨gw, hgw⟩⟩ := h
  constructor
  · simp [configure, hip]
  · simp [configure, hmask]
  · simp [configure, hgw]

theorem MgTcpipIf.Has.configure_eq {ifp : MgTcpipIf} (h : ifp.Has cfg) :
    ifp.configure cfg = ifp := by
  obtain ⟨ip, hip, hip'⟩ := Option.map_eq_some_iff.mp h.ip
  obtain ⟨mask, hmask, hmask'⟩ := Option.map_eq_some_iff.mp h.mask
  obtain ⟨gw, hgw, hgw'⟩ := Option.map_eq_some_iff.mp h.gw
  simp [configure, hip, hip', hmask, hmask', hgw, hgw']

/-- Another address for the interface, and the rest as it is. -/
theorem MgTcpipIf.Has.configure_ip {ifp : MgTcpipIf} (h : ifp.Has cfg) {ip : CString}
    (hip : stringToIp ip = some o) :
    ifp.configure { cfg with ip := ip } = { ifp with ip := mgIpv4 o } := by
  obtain ⟨mask, hmask, hmask'⟩ := Option.map_eq_some_iff.mp h.mask
  obtain ⟨gw, hgw, hgw'⟩ := Option.map_eq_some_iff.mp h.gw
  simp [configure, hip, hmask, hmask', hgw, hgw']

theorem eq_of_map_mgIpv4_eq {a b : CString} {w : UInt32}
    (ha : (stringToIp a).map mgIpv4 = some w) (hb : (stringToIp b).map mgIpv4 = some w) :
    stringToIp a = stringToIp b := by
  obtain ⟨o, ho, hw⟩ := Option.map_eq_some_iff.mp ha
  obtain ⟨o', ho', hw'⟩ := Option.map_eq_some_iff.mp hb
  rw [ho, ho', mgIpv4_inj (small_stringToIp ho) (small_stringToIp ho') (hw.trans hw'.symm)]

/-- What an interface has determines the addresses. -/
theorem MgTcpipIf.Has.has_iff {ifp : MgTcpipIf} {config : NetConfig} (h : ifp.Has cfg) :
    ifp.Has config ↔ config.Agrees cfg := by
  constructor
  · intro h'
    exact ⟨eq_of_map_mgIpv4_eq h'.ip h.ip, eq_of_map_mgIpv4_eq h'.mask h.mask,
      eq_of_map_mgIpv4_eq h'.gw h.gw⟩
  · intro hagree
    exact ⟨hagree.ip ▸ h.ip, hagree.mask ▸ h.mask, hagree.gateway ▸ h.gw⟩

/-! ## The command -/

@[simp] theorem ifp_netSetConfig (m : Mongoose) (listens : ℕ → Bool) (cfg : NetConfig)
    (s : ConfiguredNet) : (netSetConfig m listens cfg s).ifp = s.ifp.configure cfg := rfl

@[simp] theorem config_netSetConfig (m : Mongoose) (listens : ℕ → Bool) (cfg : NetConfig)
    (s : ConfiguredNet) : (netSetConfig m listens cfg s).config = s.config := rfl

/-- The argument that restarts the service. -/
def restartArgs : CString := "--restart".toList

/-- The argument that changes the address. -/
def ipArgs (ipStr : CString) : CString := "--ip".toList ++ ' ' :: ipStr

theorem netCliCommand_restart (m : Mongoose) (listens : ℕ → Bool) (s : ConfiguredNet) :
    (netCliCommand m listens (some restartArgs) s).2 = netSetConfig m listens s.config s := rfl

/-- The state in which the command restarts the service with another address. -/
def ConfiguredNet.withIp (s : ConfiguredNet) (ip : CString) : ConfiguredNet :=
  { s with config := { s.config with ip := ip } }

/-- The address is written to `net->config` as it is printed, and can be read there. -/
theorem canonical_getD (h : stringToIp ipStr = some o) (ip : CString) :
    canonical ipStr = some ((ipToString o.a o.b o.c o.d).getD ip) ∧
      stringToIp ((ipToString o.a o.b o.c o.d).getD ip) = some o := by
  obtain ⟨text, htext⟩ := ipToString_eq (small_stringToIp h)
  rw [canonical, h, Option.bind_some, htext]
  exact ⟨rfl, stringToIp_ipToString htext⟩

/-- What the command does: nothing, a restart, or a restart with another address. -/
theorem netCliCommand_cases (m : Mongoose) (listens : ℕ → Bool) (args : Option CString)
    (s : ConfiguredNet) :
    (netCliCommand m listens args s).2 = s ∨
      (netCliCommand m listens args s).2 = netSetConfig m listens s.config s ∨
      ∃ ip o, stringToIp ip = some o ∧ (netCliCommand m listens args s).2 =
        netSetConfig m listens (s.withIp ip).config (s.withIp ip) := by
  cases args with
  | none => exact .inl rfl
  | some args =>
      simp only [netCliCommand]
      split
      · split
        · exact .inr (.inl rfl)
        · exact .inl rfl
      · split
        · split
          · rename_i o ho
            exact .inr (.inr ⟨_, o, (canonical_getD ho s.config.ip).2, rfl⟩)
          · exact .inl rfl
        · exact .inl rfl

theorem netCliCommand_ip (h : stringToIp ipStr = some o) (m : Mongoose) (listens : ℕ → Bool)
    (s : ConfiguredNet) : ∃ ip, stringToIp ip = some o ∧
      (netCliCommand m listens (some (ipArgs ipStr)) s).2 =
        netSetConfig m listens (s.withIp ip).config (s.withIp ip) := by
  have hblank : afterBlank (ipArgs ipStr) = ipStr := rfl
  have hnil : ipStr ≠ [] := by
    intro hnil
    rw [hnil, show stringToIp [] = none from rfl] at h
    cases h
  have hprefix : "--ip".toList.isPrefixOf (ipArgs ipStr) = true := rfl
  refine ⟨_, (canonical_getD h s.config.ip).2, ?_⟩
  simp only [netCliCommand, hblank, if_neg hnil, hprefix, if_true, h]
  rfl

/-! ## Runs -/

inductive ConfigAction
  | setConfig (config : NetConfig)
  | command (args : Option CString)

/-- The configuration is set, or a command given; and which listens of the restart
succeed. -/
def reconfigure (m : Mongoose) (s : ConfiguredNet) :
    (ℕ → Bool) × ConfigAction → Option ConfiguredNet
  | (listens, .setConfig config) => some (netSetConfig m listens config s)
  | (listens, .command args) => some (netCliCommand m listens args s).2

/-- A command is given. -/
def IsCommand : ConfiguredNet → (ℕ → Bool) × ConfigAction → Prop
  | _, (_, .setConfig _) => False
  | _, (_, .command _) => True

theorem valid_withIp {ip : CString} (h : s.config.Valid) (hip : stringToIp ip = some o) :
    (s.withIp ip).config.Valid :=
  ⟨⟨o, hip⟩, h.mask, h.gateway⟩

/-- `net->config` can always be read. -/
theorem valid_reconfigure {a : (ℕ → Bool) × ConfigAction} (h : s.config.Valid)
    (hs : reconfigure m s a = some s') : s'.config.Valid := by
  obtain ⟨listens, action⟩ := a
  cases action with
  | setConfig config =>
      cases hs
      exact h
  | command args =>
      cases hs
      rcases netCliCommand_cases m listens args s with heq | heq | ⟨ip, o, hip, heq⟩
      · rw [heq]
        exact h
      · rw [heq]
        exact h
      · rw [heq]
        exact valid_withIp h hip

theorem valid_ethNetStart {defaults : NetConfig} {config : Option NetConfig}
    {mdns : Option UInt16} (h : ethNetStart defaults config mdns = some s) : s.config.Valid := by
  rw [ethNetStart] at h
  obtain ⟨_, hinit, h⟩ := Option.bind_eq_some_iff.mp h
  cases h
  simp only [ethNetInitTcpip, Option.bind_eq_bind, Option.bind_eq_some_iff] at hinit
  obtain ⟨ip, hip, mask, hmask, gw, hgw, hinit⟩ := hinit
  cases hinit
  exact ⟨⟨ip, hip⟩, ⟨mask, hmask⟩, ⟨gw, hgw⟩⟩

/-- A command leaves the two copies the same. -/
theorem has_command {a : (ℕ → Bool) × ConfigAction} (hvalid : s.config.Valid)
    (h : s.ifp.Has s.config) (ha : IsCommand s a) (hs : reconfigure m s a = some s') :
    s'.ifp.Has s'.config := by
  obtain ⟨listens, action⟩ := a
  cases action with
  | setConfig config => exact absurd ha id
  | command args =>
      cases hs
      rcases netCliCommand_cases m listens args s with heq | heq | ⟨ip, o, hip, heq⟩
      · rw [heq]
        exact h
      · rw [heq]
        exact s.ifp.has_configure hvalid
      · rw [heq]
        exact s.ifp.has_configure (valid_withIp hvalid hip)

/-! ## A configuration that is kept -/

/-- The state has the configuration: `net_get_config` returns it, and whatever commands
follow, a restart leaves the interface as it is, and a new address changes only that. -/
structure ConfigKept (m : Mongoose) (cfg : NetConfig) (s : ConfiguredNet) : Prop where
  get : netGetConfig s = (canonical cfg.ip, canonical cfg.mask, canonical cfg.gateway)
  restart : ∀ s', Reach (reconfigure m) IsCommand s s' → ∀ listens,
    (netCliCommand m listens (some restartArgs) s').2.ifp = s'.ifp
  setIp : ∀ s', Reach (reconfigure m) IsCommand s s' → ∀ listens ipStr o,
    stringToIp ipStr = some o →
      (netCliCommand m listens (some (ipArgs ipStr)) s').2.ifp = { s'.ifp with ip := mgIpv4 o }

theorem ipText_of_has {w : UInt32} (h : (stringToIp ipStr).map mgIpv4 = some w) :
    ipText w = canonical ipStr := by
  obtain ⟨o, ho, rfl⟩ := Option.map_eq_some_iff.mp h
  rw [ipText_mgIpv4 (small_stringToIp ho), canonical, ho]
  rfl

theorem netGetConfig_of_has (h : s.ifp.Has cfg) :
    netGetConfig s = (canonical cfg.ip, canonical cfg.mask, canonical cfg.gateway) := by
  rw [netGetConfig, ipText_of_has h.ip, ipText_of_has h.mask, ipText_of_has h.gw]

/-- The two copies are the same after any commands. -/
theorem has_of_reach (hvalid : s.config.Valid) (h : s.ifp.Has s.config)
    (hs : Reach (reconfigure m) IsCommand s s') : s'.ifp.Has s'.config := by
  have hboth : s'.config.Valid ∧ s'.ifp.Has s'.config :=
    hs.invariant (I := fun s => s.config.Valid ∧ s.ifp.Has s.config) ⟨hvalid, h⟩
      fun _ _ _ hi ha hs => ⟨valid_reconfigure hi.1 hs, has_command hi.1 hi.2 ha hs⟩
  exact hboth.2

theorem configKept_iff (hvalid : s.config.Valid) (h : s.ifp.Has cfg) :
    ConfigKept m cfg s ↔ s.ifp.Has s.config := by
  constructor
  · intro hkept
    have hrestart := hkept.restart s .start fun _ => true
    rw [netCliCommand_restart, ifp_netSetConfig] at hrestart
    rw [← hrestart]
    exact s.ifp.has_configure hvalid
  · intro hsame
    refine ⟨netGetConfig_of_has h, fun s' hs listens => ?_, fun s' hs listens ipStr o ho => ?_⟩
    · rw [netCliCommand_restart, ifp_netSetConfig]
      exact (has_of_reach hvalid hsame hs).configure_eq
    · obtain ⟨ip, hip, heq⟩ := netCliCommand_ip ho m listens s'
      rw [heq, ifp_netSetConfig]
      exact (has_of_reach hvalid hsame hs).configure_ip hip

/-- **A configuration that is kept**: after any `net_set_config` and commands, one with
valid addresses is what it is to be for `net_get_config` and the commands that follow
exactly if `net->config` has the same addresses already. -/
theorem configKept_netSetConfig_iff {defaults : NetConfig} {config : Option NetConfig}
    {mdns : Option UInt16} {init : ConfiguredNet}
    (hstart : ethNetStart defaults config mdns = some init)
    (hs : Reach (reconfigure m) (fun _ _ => True) init s) (hcfg : cfg.Valid)
    (listens : ℕ → Bool) :
    ConfigKept m cfg (netSetConfig m listens cfg s) ↔ s.config.Agrees cfg := by
  have hvalid : s.config.Valid :=
    hs.invariant (I := fun s => s.config.Valid) (valid_ethNetStart hstart)
      fun _ _ _ h _ hs => valid_reconfigure h hs
  have hhas : (netSetConfig m listens cfg s).ifp.Has cfg := s.ifp.has_configure hcfg
  rw [configKept_iff (s := netSetConfig m listens cfg s) hvalid hhas, hhas.has_iff,
    config_netSetConfig]

/-! ## Two configurations -/

/-- The address is set, and a restart takes it back. -/
theorem restart_reverts_config :
    ethNetStart (configOf "192.168.1.100".toList) none none = some (startedNet none) ∧
      (configOf "192.168.1.101".toList).Valid ∧
      ¬ConfigKept port502 (configOf "192.168.1.101".toList) (netSetConfig port502
        (fun _ => true) (configOf "192.168.1.101".toList) (startedNet none)) := by
  refine ⟨ethNetStart_startedNet none, ⟨⟨_, rfl⟩, ⟨_, rfl⟩, ⟨_, rfl⟩⟩, fun h => ?_⟩
  have hrestart := h.restart _ .start fun _ => true
  exact absurd hrestart (by decide)

theorem configKept_of_same :
    ConfigKept port502 (configOf " 192.168.1.100".toList) (netSetConfig port502 (fun _ => true)
      (configOf " 192.168.1.100".toList) (startedNet none)) :=
  (configKept_netSetConfig_iff (ethNetStart_startedNet none) .start
    ⟨⟨⟨192, 168, 1, 100⟩, by decide⟩, ⟨⟨255, 255, 255, 0⟩, by decide⟩,
      ⟨⟨192, 168, 1, 1⟩, by decide⟩⟩ _).mpr ⟨by decide, by decide, by decide⟩

end RhsCore.NetWorker
