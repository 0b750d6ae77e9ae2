import TrafficPrioritizer.DhcpEngine.HandedOut
import TrafficPrioritizer.NetworkConfig.AdvertisedMask

/-! Addresses that no client should be given: the router's, and the first and last one of the
subnet. Neither the set-up of a pool nor `sync` leaves them out, so a client comes to be given
one exactly when the pool has it. -/

namespace Hpgtp
open ByteBuffer

inductive SubnetOf where
  | client
  | router

namespace SubnetOf

def address (s : SubnetOf) (routerIp yiaddr : UInt32) : UInt32 :=
  match s with
  | .client => yiaddr
  | .router => routerIp

def Reserves (s : SubnetOf) (mask routerIp yiaddr : UInt32) : Prop :=
  yiaddr = routerIp ∨ yiaddr = s.address routerIp yiaddr &&& mask ∨
    yiaddr = s.address routerIp yiaddr ||| ~~~mask

instance (s : SubnetOf) (mask routerIp yiaddr : UInt32) :
    Decidable (s.Reserves mask routerIp yiaddr) := inferInstanceAs (Decidable (_ ∨ _ ∨ _))

end SubnetOf

def DhcpResponse.Reserved (r : DhcpResponse) (s : SubnetOf) : Prop :=
  ∃ mask router, r.option 1 = some (bytes32 mask) ∧ r.option 3 = some (bytes32 router) ∧
    s.Reserves mask router r.yiaddr.raw

theorem DhcpResponse.reserved_iff {r : DhcpResponse} {s : SubnetOf} {mask router : UInt32}
    (hmask : r.option 1 = some (bytes32 mask)) (hrouter : r.option 3 = some (bytes32 router)) :
    r.Reserved s ↔ s.Reserves mask router r.yiaddr.raw := by
  refine ⟨?_, fun h => ⟨mask, router, hmask, hrouter, h⟩⟩
  rintro ⟨mask', router', hmask', hrouter', h⟩
  rw [bytes32_injective (Option.some.inj (hmask.symm.trans hmask')),
    bytes32_injective (Option.some.inj (hrouter.symm.trans hrouter'))]
  exact h

namespace DhcpEngine

def LeasesNoReserved (d : DhcpEngine) (s : SubnetOf) : Prop :=
  ∀ (xs : List Received) (y : Received) (response : DhcpResponse), Chronological (xs ++ [y]) →
    ((d.afterAll xs).receive y).2 = some response → response.type = 2 ∨ response.type = 5 →
    ¬ response.Reserved s

theorem PoolOk.leasesNoReserved_iff {d : DhcpEngine} (hok : d.PoolOk) (s : SubnetOf) :
    d.LeasesNoReserved s ↔
      ∀ ip, d.HandsOut ip → ¬ s.Reserves (htonl (netmask 24)) d.routerIp.raw ip.raw := by
  have hreserved {xs : List Received} {y : Received} {response : DhcpResponse}
      (hresp : ((d.afterAll xs).receive y).2 = some response) : response.Reserved s ↔
        s.Reserves (htonl (netmask 24)) d.routerIp.raw response.yiaddr.raw := by
    obtain ⟨-, -, -, hrouter, -⟩ := hok.afterAll xs
    obtain ⟨hmask, hoption⟩ := option_receive hresp
    rw [hrouter] at hoption
    exact DhcpResponse.reserved_iff hmask hoption
  constructor
  · rintro hno ip ⟨xs, y, type, mac, hclock, htype, response, hresp, rfl, rfl, -⟩ hip
    exact hno xs y response hclock hresp htype ((hreserved hresp).mpr hip)
  · intro hno xs y response hclock hresp htype hres
    exact hno response.yiaddr ⟨xs, y, response.type, response.mac, hclock, htype, response, hresp,
      rfl, rfl, rfl⟩ ((hreserved hresp).mp hres)

end DhcpEngine

namespace NetworkConfig
open DhcpEngine

/-- Once `sync` has accepted its configuration, whatever pool and router address the engine serves,
no client is ever given a reserved address exactly when none of the slots that can be given out has
one, and the 0.0.0.0 that is acknowledged on a pool that is used up is not one either. -/
theorem reserved_never_leased_iff {c : Config} {k : SyncCalls} {d : DhcpEngine}
    {start stop router : IPv4Net} (hd : d.Reachable) (hserves : d.Serves start stop)
    (hsync : (sync c k d).result = .ok ()) (hrouter : (sync c k d).dhcp.routerIp = router)
    (s : SubnetOf) :
    (sync c k d).dhcp.LeasesNoReserved s ↔
      (∀ i, d.Grantable i → ¬ s.Reserves (htonl (netmask 24)) router.raw
        (poolAdvance start (UInt32.ofNat i)).raw) ∧
      (d.Exhaustible → ¬ s.Reserves (htonl (netmask 24)) router.raw 0) := by
  subst hrouter
  obtain ⟨-, kern, hdhcp, -⟩ := sync_of_ok hsync
  have hok : (d.setRouterIp kern).PoolOk := hd.poolOk.step (.setRouterIp kern)
  rw [hdhcp, hok.leasesNoReserved_iff]
  simp only [hok.handsOut_iff]
  -- setting the router address leaves the slots as they are
  have hslot {i : Fin maxPoolSize} (hi : d.Grantable i) :
      ((d.setRouterIp kern).leases i).ip = poolAdvance start (UInt32.ofNat i) :=
    hserves.address i hi.1
  constructor
  · intro hno
    refine ⟨fun i hi => ?_, fun hexhaust => hno {} (.inr ⟨rfl, hexhaust⟩)⟩
    rw [← hslot hi]
    exact hno _ (.inl ⟨i, hi, rfl⟩)
  · rintro ⟨hslots, hzero⟩ ip (⟨i, hi, rfl⟩ | ⟨rfl, hexhaust⟩)
    · rw [hslot hi]
      exact hslots i hi
    · exact hzero hexhaust

theorem reserved_never_leased_inner_pool :
    let c := { Config.defaults with dhcpPoolEnd := ipToStr (octets 192 168 12 200) }
    let d := engineFor (octets 192 168 12 1) (octets 192 168 12 50) (octets 192 168 12 200)
    (sync c (workingIface (octets 192 168 12 1)) d).dhcp.LeasesNoReserved .router := by
  intro c d
  have hserves : d.Serves (octets 192 168 12 50) (octets 192 168 12 200) :=
    engineFor_serves _ (by decide +kernel)
  have hrouter : (sync c (workingIface (octets 192 168 12 1)) d).dhcp.routerIp =
      octets 192 168 12 1 := by decide +kernel
  have hslots : ∀ i : Fin maxPoolSize, i.val < 151 → ¬ SubnetOf.router.Reserves
      (htonl (netmask 24)) (octets 192 168 12 1).raw
      (poolAdvance (octets 192 168 12 50) (UInt32.ofNat i)).raw := by decide +kernel
  refine (reserved_never_leased_iff (c := c) (d := d) ⟨_, _, _, [], rfl⟩ hserves
    (by decide +kernel) hrouter .router).mpr ⟨fun i hi => hslots i ?_, fun _ => by decide +kernel⟩
  have hlt := hi.1
  rwa [hserves.count] at hlt

theorem default_pool_hands_out_broadcast :
    let d := engineFor (octets 192 168 12 1) (octets 192 168 12 50) (octets 192 168 12 255)
    (sync .defaults (workingIface (octets 192 168 12 1)) d).dhcp.HandsOut
      (octets 192 168 12 255) := by
  intro d
  have hd : d.Reachable := ⟨_, _, _, [], rfl⟩
  have hserves : d.Serves (octets 192 168 12 50) (octets 192 168 12 255) :=
    engineFor_serves _ (by decide +kernel)
  have hsync : (sync .defaults (workingIface (octets 192 168 12 1)) d).result = .ok () := by
    decide +kernel
  obtain ⟨-, kern, hdhcp, -⟩ := sync_of_ok hsync
  rw [hdhcp]
  have hpool : (d.setRouterIp kern).Serves (octets 192 168 12 50) (octets 192 168 12 255) :=
    hserves.congr rfl fun _ => rfl
  have hlease : 0 ≤ d.leaseDuration := by decide +kernel
  exact hpool.handsOut (hd.poolOk.step (.setRouterIp kern)) hlease (by decide +kernel)
    (by decide +kernel) (by decide +kernel)

/-- A pool that starts at the router's address: the first client is offered it. The default pool
comes to its broadcast address. -/
theorem reserved_addresses_leased :
    let c := { Config.defaults with dhcpPoolStart := ipToStr (octets 192 168 12 1) }
    let iface := workingIface (octets 192 168 12 1)
    let s := sync c iface
      (engineFor (octets 192 168 12 1) (octets 192 168 12 1) (octets 192 168 12 255))
    let shipped := sync .defaults iface
      (engineFor (octets 192 168 12 1) (octets 192 168 12 50) (octets 192 168 12 255))
    let x := receivedAt (makeDhcpDiscover selfTestMac) 0
    s.result = .ok () ∧ s.dhcp.routerIp = octets 192 168 12 1 ∧
      s.dhcp.Answers x 2 (octets 192 168 12 1) selfTestMac ∧
      (∀ anchor, ¬ s.dhcp.LeasesNoReserved anchor) ∧
      shipped.result = .ok () ∧ shipped.dhcp.HandsOut (octets 192 168 12 255) := by
  intro c iface s shipped x
  have hanswer : s.dhcp.Answers x 2 (octets 192 168 12 1) selfTestMac := by decide +kernel
  have hrouter : s.dhcp.routerIp = octets 192 168 12 1 := by decide +kernel
  refine ⟨by decide +kernel, hrouter, hanswer, fun anchor hno => ?_, by decide +kernel,
    default_pool_hands_out_broadcast⟩
  obtain ⟨response, hresp, htype, hip, -⟩ := hanswer
  obtain ⟨hmask, hoption⟩ := option_receive hresp
  refine hno [] x response (List.pairwise_singleton _ _) hresp (.inl htype)
    ⟨_, _, hmask, hoption, .inl ?_⟩
  rw [hip, hrouter]

end NetworkConfig
end Hpgtp
