import TrafficPrioritizer.Config.RoundTrip
import TrafficPrioritizer.NetworkConfig.Sync

/-! Applying a pool that was submitted in the dialog: the engine is reconfigured,
then the interface is synchronised, then the settings are saved. A failure of the
second step undoes nothing of the first and does not keep the third from running. -/

namespace Hpgtp
open NetworkConfig

structure DhcpService where
  engine : DhcpEngine
  start : IPv4Net
  stop : IPv4Net
  serves : engine.Serves start stop

namespace DhcpService

def RouterInPool (s : DhcpService) : Prop :=
  ipv4InSubnet s.engine.routerIp (inferPrefixCoveringPool s.start s.stop) s.start = true

instance (s : DhcpService) : Decidable s.RouterInPool := inferInstanceAs (Decidable (_ = true))

def adopt (s : DhcpService) (cfg : DhcpPoolConfig) (r : Except String Unit × DhcpEngine)
    (hnew : cfg.poolStart.toHost.raw ≤ cfg.poolEnd.toHost.raw →
      r.2.Serves cfg.poolStart cfg.poolEnd)
    (hold : ¬ cfg.poolStart.toHost.raw ≤ cfg.poolEnd.toHost.raw → r.2.Serves s.start s.stop) :
    Except String Unit × DhcpService :=
  (r.1,
    if h : cfg.poolStart.toHost.raw ≤ cfg.poolEnd.toHost.raw then ⟨r.2, _, _, hnew h⟩
    else ⟨r.2, _, _, hold h⟩)

def reconfigure (s : DhcpService) (cfg : DhcpPoolConfig) : Except String Unit × DhcpService :=
  s.adopt cfg (s.engine.reconfigure cfg) (fun h => (s.engine.reconfigure_of_ordered h).2.1)
    s.serves.reconfigure_of_unordered

-- About any answer `r`, so that no step of the proof looks into the engine.
theorem adopt_of_ordered {s : DhcpService} {cfg : DhcpPoolConfig}
    {r : Except String Unit × DhcpEngine} (h : cfg.poolStart.toHost.raw ≤ cfg.poolEnd.toHost.raw)
    (hok : r.1 = .ok ()) (hrouter : r.2.routerIp = s.engine.routerIp) {hnew} {hold} :
    ∃ s' : DhcpService, s.adopt cfg r hnew hold = (.ok (), s') ∧ s'.start = cfg.poolStart ∧
      s'.stop = cfg.poolEnd ∧ s'.engine.routerIp = s.engine.routerIp := by
  refine ⟨⟨r.2, _, _, hnew h⟩, ?_, rfl, rfl, hrouter⟩
  rw [adopt, dif_pos h, hok]

theorem reconfigure_of_ordered (s : DhcpService) {cfg : DhcpPoolConfig}
    (h : cfg.poolStart.toHost.raw ≤ cfg.poolEnd.toHost.raw) :
    ∃ s' : DhcpService, s.reconfigure cfg = (.ok (), s') ∧ s'.start = cfg.poolStart ∧
      s'.stop = cfg.poolEnd ∧ s'.engine.routerIp = s.engine.routerIp := by
  obtain ⟨hok, -, hrouter⟩ := s.engine.reconfigure_of_ordered h
  exact adopt_of_ordered h hok hrouter

def sync (s : DhcpService) (c : Config) (k : SyncCalls) : Except String Unit × DhcpService :=
  let r := NetworkConfig.sync c k s.engine
  (r.result, ⟨r.dhcp, s.start, s.stop, sync_serves c k s.serves⟩)

end DhcpService

structure AppliedDhcp where
  service : DhcpService
  synced : Option (Except String Unit)
  saved : Option (Except String (List UInt8))

namespace ControlPlane

def configPath : String := "config/config.txt"

section
variable (c : Config) (k : SyncCalls) (refused : Option String) (s : DhcpService)

/-- The callback of the application: the file is saved whatever `sync` says. -/
def dhcpApplied : AppliedDhcp :=
  let r := s.sync c k
  ⟨r.2, some r.1, some (c.saveConfig configPath refused)⟩

def applyDhcpConfig : AppliedDhcp :=
  match parseIpStr c.dhcpPoolStart, parseIpStr c.dhcpPoolEnd with
  | .ok poolS, .ok poolE => reconfigured (s.reconfigure ⟨poolS, poolE, c.dhcpLeaseDuration⟩)
  | _, _ => ⟨s, none, none⟩
where
  reconfigured : Except String Unit × DhcpService → AppliedDhcp
    | (.ok (), s) => dhcpApplied c k refused s
    | (.error _, s) => ⟨s, none, none⟩

theorem routerInPool_dhcpApplied : (dhcpApplied c k refused s).service.RouterInPool ↔
    ipv4InSubnet (NetworkConfig.sync c k s.engine).dhcp.routerIp
      (inferPrefixCoveringPool s.start s.stop) s.start = true := Iff.rfl

def atNextStart (file : List UInt8) : Config :=
  (Config.defaults.loadConfig configPath (.contents file)).1

def AllOrNothing (next : SyncCalls) : Prop :=
  let a := applyDhcpConfig c k refused s
  a.service.RouterInPool ∧ ∀ e, a.synced = some (.error e) →
    a.service.start = s.start ∧ a.service.stop = s.stop ∧
      ∀ file, a.saved = some (.ok file) →
        (sync (atNextStart file) next a.service.engine).result = .ok ()

variable {c}

theorem applyDhcpConfig_of_pool {start stop : IPv4Net}
    (hstart : parseIpStr c.dhcpPoolStart = .ok start)
    (hstop : parseIpStr c.dhcpPoolEnd = .ok stop) (hle : start.toHost.raw ≤ stop.toHost.raw) :
    ∃ s' : DhcpService, s'.start = start ∧ s'.stop = stop ∧
      s'.engine.routerIp = s.engine.routerIp ∧
      applyDhcpConfig c k refused s = dhcpApplied c k refused s' := by
  obtain ⟨s', hok, hs, ht, hrouter⟩ := s.reconfigure_of_ordered
    (show (DhcpPoolConfig.mk start stop c.dhcpLeaseDuration).poolStart.toHost.raw ≤ _ from hle)
  refine ⟨s', hs, ht, hrouter, ?_⟩
  rw [applyDhcpConfig, hstart, hstop]
  dsimp only
  rw [hok, applyDhcpConfig.reconfigured]

end

theorem saveConfig_eq_ok {c : Config} {refused : Option String} {file : List UInt8} :
    c.saveConfig configPath refused = .ok file ↔ refused = none ∧ file = c.saveBytes := by
  cases refused with
  | none => exact ⟨fun h => ⟨rfl, (Except.ok.inj h).symm⟩, fun h => congrArg _ h.2.symm⟩
  | some reason => exact ⟨nofun, nofun⟩

/-- A submitted pool is applied wholly or not at all exactly when `sync` accepts it, or when it is
the pool that was served and the settings, if they can be saved, are accepted at the next start. -/
theorem all_or_nothing_iff {c c' : Config} {e : Config.DhcpEdit} (hsubmit : c.onApply e = some c')
    (s : DhcpService) (hrouter : s.RouterInPool) (k next : SyncCalls) (refused : Option String) :
    AllOrNothing c' k refused s next ↔ Accepts c' k ∨
      (parseIpStr e.poolStart = .ok s.start ∧ parseIpStr e.poolEnd = .ok s.stop ∧
        (refused = none → Accepts (atNextStart c'.saveBytes) next)) := by
  obtain ⟨start, stop, -, -, hstart, hstop, hlt, hc'⟩ := Config.onApply_eq_some hsubmit
  have hstart' : parseIpStr c'.dhcpPoolStart = .ok start := by rw [hc']; exact hstart
  have hstop' : parseIpStr c'.dhcpPoolEnd = .ok stop := by rw [hc']; exact hstop
  obtain ⟨s', hs, ht, hsame, happly⟩ :=
    applyDhcpConfig_of_pool k refused s hstart' hstop' (UInt32.le_of_lt hlt)
  unfold AllOrNothing
  rw [happly]
  rcases sync_cases c' k s'.engine with ⟨haccepts, hok, kern, hdhcp, hin⟩ |
    ⟨hnot, ⟨e', herror⟩, hdhcp⟩
  · refine iff_of_true ⟨?_, fun e he => ?_⟩ (.inl haccepts)
    · rw [routerInPool_dhcpApplied, hdhcp, hs, ht]
      exact hin start stop hstart' hstop'
    · cases hok.symm.trans (Option.some.inj he)
  · rw [or_iff_right hnot, hstart, hstop]
    constructor
    · rintro ⟨-, hall⟩
      obtain ⟨hstart'', hstop'', hnext⟩ := hall e' (congrArg some herror)
      refine ⟨congrArg _ (hs.symm.trans hstart''), congrArg _ (ht.symm.trans hstop''), ?_⟩
      intro hsave
      exact (sync_ok_iff _ _ _).mp (hnext _ (congrArg some (saveConfig_eq_ok.mpr ⟨hsave, rfl⟩)))
    · rintro ⟨hsame_start, hsame_stop, hnext⟩
      have hstart_eq : s'.start = s.start := hs.trans (Except.ok.inj hsame_start)
      have hstop_eq : s'.stop = s.stop := ht.trans (Except.ok.inj hsame_stop)
      refine ⟨?_, fun e he => ⟨hstart_eq, hstop_eq, fun file hfile => ?_⟩⟩
      · rw [routerInPool_dhcpApplied, hdhcp, hsame, hstart_eq, hstop_eq]
        exact hrouter
      · obtain ⟨hsave, rfl⟩ := saveConfig_eq_ok.mp (Option.some.inj hfile)
        exact (sync_ok_iff _ _ _).mpr (hnext hsave)

def defaultService : DhcpService :=
  ⟨.engineFor (octets 192 168 12 1) (octets 192 168 12 50) (octets 192 168 12 255), _, _,
    DhcpEngine.engineFor_serves _ (by decide +kernel)⟩

theorem smaller_pool_applied :
    let c := { Config.defaults with
      dhcpPoolStart := ipToStr (octets 192 168 12 100)
      dhcpPoolEnd := ipToStr (octets 192 168 12 200) }
    let k := workingIface (octets 192 168 12 1)
    Config.defaults.onApply ⟨c.dhcpPoolStart, c.dhcpPoolEnd, 1, 0, 0⟩ = some c ∧
      defaultService.RouterInPool ∧ AllOrNothing c k none defaultService k := by
  intro c k
  have hsubmit : Config.defaults.onApply ⟨c.dhcpPoolStart, c.dhcpPoolEnd, 1, 0, 0⟩ = some c := by
    decide +kernel
  have hrouter : defaultService.RouterInPool := by decide +kernel
  refine ⟨hsubmit, hrouter, (all_or_nothing_iff hsubmit _ hrouter k k none).mpr (.inl ?_)⟩
  refine (sync_ok_iff c k defaultService.engine).mp ?_
  decide +kernel

/-- A pool of another subnet is submitted while the router address stays: the new pool is served
and saved, with the old router address, and the saved settings are refused at the next start. -/
theorem foreign_pool_half_applied :
    let c := { Config.defaults with
      dhcpPoolStart := ipToStr (octets 10 0 0 10)
      dhcpPoolEnd := ipToStr (octets 10 0 0 20) }
    let k := workingIface (octets 192 168 12 1)
    let a := applyDhcpConfig c k none defaultService
    let refusal : Except String Unit := .error ("ROUTER_IP is not in the DHCP pool subnet " ++
      "(derived /27); fix ROUTER_IP or DHCP_POOL_*")
    Config.defaults.onApply ⟨c.dhcpPoolStart, c.dhcpPoolEnd, 1, 0, 0⟩ = some c ∧
      defaultService.RouterInPool ∧ a.synced = some refusal ∧
      a.service.start = octets 10 0 0 10 ∧ a.service.engine.routerIp = octets 192 168 12 1 ∧
      ¬ a.service.RouterInPool ∧
      a.saved = some (.ok c.saveBytes) ∧
      (sync (atNextStart c.saveBytes) k a.service.engine).result = refusal := by
  decide +kernel

end ControlPlane
end Hpgtp
