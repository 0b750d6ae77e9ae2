import TrafficPrioritizer.NetworkConfig.Sync

/-! The gateway that `sync` leaves: the LAN address it read last, in the subnet of the
pool, or the one the engine had. -/

namespace Hpgtp
namespace NetworkConfig

/-- The LAN addresses read once the pool and the router address are known, in order. The second
is read only after the first was not in the pool's subnet and the router address has been set. -/
def ifaceReads (c : Config) (k : SyncCalls) (start : IPv4Net) (prefixLen : ℕ) (router : IPv4Net) :
    List (Option IPv4Net) :=
  if inPoolSubnet start prefixLen k.firstAddr then [k.firstAddr]
  else if ipv4InSubnet router prefixLen start &&
      (setIfaceIpv4AndPrefix c.ifaceLan c.routerIp prefixLen k.second).1 then
    [k.firstAddr, k.secondAddr]
  else [k.firstAddr]

def addressesRead (c : Config) (k : SyncCalls) : List (Option IPv4Net) :=
  match parseIpStr c.dhcpPoolStart, parseIpStr c.dhcpPoolEnd, parseIpStr c.routerIp with
  | .ok start, .ok stop, .ok router =>
    if stop.toHost.raw < start.toHost.raw then []
    else ifaceReads c k start (inferPrefixCoveringPool start stop) router
  | _, _, _ => []

theorem IfaceEnd.gateway {c : Config} {k : SyncCalls} {dhcp : DhcpEngine} {start router : IPv4Net}
    {prefixLen : ℕ} {s : Synced} (h : IfaceEnd c k dhcp start prefixLen router s)
    (hok : s.result = .ok ()) :
    ∃ kern, (ifaceReads c k start prefixLen router).getLast? = some (some kern) ∧
      s.dhcp = dhcp.setRouterIp kern := by
  cases h with
  | @first kern haddr hin =>
    refine ⟨kern, ?_, rfl⟩
    rw [ifaceReads, if_pos (inPoolSubnet_some haddr hin), haddr]
    rfl
  | @second kern hforeign hown hset haddr _ =>
    refine ⟨kern, ?_, rfl⟩
    rw [ifaceReads, if_neg hforeign, hown, hset, haddr]
    rfl
  | refused => cases hok

theorem addressesRead_of_pool {c : Config} (k : SyncCalls) {start stop router : IPv4Net}
    (hstart : parseIpStr c.dhcpPoolStart = .ok start)
    (hstop : parseIpStr c.dhcpPoolEnd = .ok stop) (hle : start.toHost.raw ≤ stop.toHost.raw)
    (hrouter : parseIpStr c.routerIp = .ok router) :
    addressesRead c k = ifaceReads c k start (inferPrefixCoveringPool start stop) router := by
  unfold addressesRead
  rw [hstart, hstop, hrouter]
  exact if_neg (UInt32.not_lt.mpr hle)

/-- A success stores the LAN address read last, and it and the whole pool are in the subnet of the
derived prefix; a failure leaves the engine as it is. -/
theorem sync_gateway_usable_or_kept (c : Config) (k : SyncCalls) (dhcp : DhcpEngine) :
    ((sync c k dhcp).result = .ok () →
      ∃ start stop kern, parseIpStr c.dhcpPoolStart = .ok start ∧
        parseIpStr c.dhcpPoolEnd = .ok stop ∧
        (addressesRead c k).getLast? = some (some kern) ∧
        (sync c k dhcp).dhcp.routerIp = kern ∧
        ipv4InSubnet kern (inferPrefixCoveringPool start stop) start = true ∧
        ∀ x : IPv4Net, start.toHost.raw ≤ x.toHost.raw → x.toHost.raw ≤ stop.toHost.raw →
          ipv4InSubnet x (inferPrefixCoveringPool start stop) start = true) ∧
      ((∃ e, (sync c k dhcp).result = .error e) → (sync c k dhcp).dhcp = dhcp) := by
  rcases sync_cases c k dhcp with ⟨haccepts, hok, kern, hdhcp, hin⟩ | ⟨-, ⟨e, herror⟩, hsame⟩
  · refine ⟨fun _ => ?_, fun ⟨e, herror⟩ => ?_⟩
    · obtain ⟨start, stop, router, hstart, hstop, hle, hrouter, -⟩ := haccepts
      refine ⟨start, stop, kern, hstart, hstop, ?_, by rw [hdhcp]; rfl, hin start stop hstart hstop,
        fun x => ipv4InSubnet_inferPrefix⟩
      have hend := syncIface_end c k dhcp start (inferPrefixCoveringPool start stop) router
      rw [← sync_of_pool dhcp hstart hstop hle hrouter] at hend
      obtain ⟨kern', hlast, hdhcp'⟩ := hend.gateway hok
      have hkern : kern' = kern := congrArg DhcpEngine.routerIp (hdhcp'.symm.trans hdhcp)
      rw [addressesRead_of_pool k hstart hstop hle hrouter, hlast, hkern]
    · rw [hok] at herror
      cases herror
  · refine ⟨fun hok => ?_, fun _ => hsame⟩
    rw [herror] at hok
    cases hok

theorem sync_gateway_second_read :
    let k : SyncCalls :=
      ⟨allSucceed, some (octets 10 0 0 1), allSucceed, some (octets 192 168 12 1)⟩
    let s := sync .defaults k
      (DhcpEngine.engineFor (octets 10 0 0 1) (octets 192 168 12 50) (octets 192 168 12 255))
    s.result = .ok () ∧ s.dhcp.routerIp = octets 192 168 12 1 := by
  intro k s
  have hok : s.result = .ok () := by decide +kernel
  have hreads : (addressesRead .defaults k).getLast? = some (some (octets 192 168 12 1)) := by
    decide +kernel
  obtain ⟨-, -, kern, -, -, hlast, hrouter, -⟩ := (sync_gateway_usable_or_kept ..).1 hok
  rw [hreads, Option.some.injEq, Option.some.injEq] at hlast
  exact ⟨hok, hrouter.trans hlast.symm⟩

end NetworkConfig
end Hpgtp
