import TrafficPrioritizer.DhcpEngine.Acks
import TrafficPrioritizer.DhcpEngine.ResponseFrame
import TrafficPrioritizer.NetworkConfig.Sync

/-! The subnet a client is told and the subnet of the LAN interface. The mask in
a response is always 255.255.255.0; the interface gets the mask of the prefix that
is derived from the pool. -/

namespace Hpgtp
open ByteBuffer

def findOption (code : UInt8) : ℕ → List UInt8 → Option (List UInt8)
  | 0, _ => none
  | _ + 1, [] => none
  | fuel + 1, c :: rest =>
    if c = 255 then none
    else if c = 0 then findOption code fuel rest
    else match rest with
      | [] => none
      | len :: rest =>
        if c = code then some (rest.take len.toNat)
        else findOption code fuel (rest.drop len.toNat)

namespace DhcpResponse

def option (r : DhcpResponse) (code : UInt8) : Option (List UInt8) :=
  findOption code r.frame.length (r.frame.drop 282)

def SubnetAgrees (r : DhcpResponse) (prefixLen : ℕ) : Prop :=
  ∃ mask router, r.option 1 = some (bytes32 mask) ∧ r.option 3 = some (bytes32 router) ∧
    mask = htonl (netmask prefixLen) ∧
    ntohl r.yiaddr.raw &&& ntohl mask = ntohl router &&& ntohl mask

end DhcpResponse

namespace DhcpEngine

/-! ## What a response carries -/

theorem option_sendResponse (d : DhcpEngine) (r : DhcpRequest) (type : UInt8) (yiaddr : IPv4Net) :
    (d.sendResponse r type yiaddr).option 1 = some (bytes32 (htonl (netmask 24))) ∧
      (d.sendResponse r type yiaddr).option 3 = some (bytes32 d.routerIp.raw) := by
  have hoptions : ∀ code, (d.sendResponse r type yiaddr).option code =
      findOption code 320 (d.responseOptions type) := by
    intro code
    show findOption code (d.responseFrame r type yiaddr).length
      ((d.responseFrame r type yiaddr).drop 282) = _
    rw [length_responseFrame, drop_responseFrame_bootp]
  rw [hoptions, hoptions]
  exact ⟨rfl, rfl⟩

section
variable {d : DhcpEngine} {x : Received} {response : DhcpResponse}

theorem Lookup.routerIp {d' : DhcpEngine} {mac : Mac} {now : Int} {ip : IPv4Net}
    (h : Lookup d mac now d' ip) : d'.routerIp = d.routerIp := by
  cases h <;> rfl

theorem commitLease_routerIp (d : DhcpEngine) (ip : IPv4Net) (now : Int) :
    (d.commitLease ip now).routerIp = d.routerIp := by
  rcases commitLease_cases d ip now with heq | ⟨i, -, heq⟩ <;> rw [heq]
  rfl

theorem option_receive (h : (d.receive x).2 = some response) :
    response.option 1 = some (bytes32 (htonl (netmask 24))) ∧
      response.option 3 = some (bytes32 d.routerIp.raw) := by
  have hcall := d.handled_receive x
  rw [h] at hcall
  generalize (d.receive x).1 = after at hcall
  cases hcall with
  | offered _ hlook _ _ =>
    rw [← hlook.routerIp]
    exact option_sendResponse ..
  | acked _ hlook _ _ =>
    rw [← hlook.routerIp, ← commitLease_routerIp]
    exact option_sendResponse ..
  | refused _ hlook _ _ =>
    rw [← hlook.routerIp]
    exact option_sendResponse ..

theorem Lookup.address {d' : DhcpEngine} {mac : Mac} {now : Int} {ip : IPv4Net}
    (h : Lookup d mac now d' ip) :
    (∃ i : Fin maxPoolSize, i.val < d.poolCount ∧ (d.leases i).ip = ip) ∨
      ip = {} ∧ d.NoLease mac ∧ d.Full now := by
  cases h with
  | own hi _ _ => exact .inl ⟨_, hi, rfl⟩
  | assigned hi _ _ => exact .inl ⟨_, hi, rfl⟩
  | exhausted hnone hfull => exact .inr ⟨rfl, hnone, hfull⟩

theorem yiaddr_cases (h : (d.receive x).2 = some response)
    (htype : response.type = 2 ∨ response.type = 5) :
    (¬ d.EmptyRequest x ∧ ∃ i : Fin maxPoolSize, i.val < d.poolCount ∧
      (d.leases i).ip = response.yiaddr) ∨ (d.EmptyRequest x ∧ response.yiaddr = {}) := by
  have hcall := d.handled_receive x
  rw [h] at hcall
  generalize (d.receive x).1 = after at hcall
  cases hcall with
  | offered hdec hlook hdisc hne =>
    refine .inl ⟨?_, hlook.address.resolve_right fun hzero => hne (by rw [hzero.1])⟩
    rintro ⟨r', hdec', hreq, -⟩
    obtain rfl := Option.some.inj (hdec.symm.trans hdec')
    rw [hdisc] at hreq
    exact absurd hreq (by decide)
  | acked hdec hlook hmsg hagree =>
    by_cases hempty : d.EmptyRequest x
    · obtain ⟨r', hdec', -, -, -, hnone, hfull⟩ := id hempty
      obtain rfl := Option.some.inj (hdec.symm.trans hdec')
      exact .inr ⟨hempty, hlook.eq_zero hnone hfull⟩
    · refine .inl ⟨hempty, hlook.address.resolve_right fun ⟨hzero, hnone, hfull⟩ => ?_⟩
      obtain ⟨hreq, hci⟩ := requested_eq_zero.mp (hagree.symm.trans hzero)
      exact hempty ⟨_, hdec, hmsg, hreq, hci, hnone, hfull⟩
  | refused _ _ _ _ => exact absurd htype (by simp [sendResponse])

end
end DhcpEngine

/-! ## Agreement -/

theorem netmask_eq_iff {p : ℕ} (hp : p ≤ 32) : netmask 24 = netmask p ↔ p = 24 := by
  have hall : ∀ p ≤ 32, netmask 24 = netmask p ↔ p = 24 := by decide
  exact hall p hp

theorem ipv4InSubnet_24 {ip anchor : IPv4Net} : ipv4InSubnet ip 24 anchor = true ↔
    ntohl ip.raw &&& netmask 24 = ntohl anchor.raw &&& netmask 24 :=
  ipv4InSubnet_iff_and (show 24 ≤ 32 by decide)

theorem bytes32_injective : Function.Injective bytes32 := fun v w h => by
  rw [← load32_bytes32 v [], ← load32_bytes32 w [], h]

theorem DhcpResponse.subnetAgrees_iff {r : DhcpResponse} {router : IPv4Net} {p : ℕ} (hp : p ≤ 32)
    (hmask : r.option 1 = some (bytes32 (htonl (netmask 24))))
    (hrouter : r.option 3 = some (bytes32 router.raw)) :
    r.SubnetAgrees p ↔ p = 24 ∧ ipv4InSubnet r.yiaddr 24 router = true := by
  have hhost : ∀ p, ntohl (htonl (netmask p)) = netmask p := fun p => swap32_swap32 _
  constructor
  · rintro ⟨mask, router', hmask', hrouter', rfl, hand⟩
    have hmasks := bytes32_injective (Option.some.inj (hmask.symm.trans hmask'))
    have h24 : p = 24 := (netmask_eq_iff hp).mp (swap32_injective hmasks)
    have hraw := bytes32_injective (Option.some.inj (hrouter.symm.trans hrouter'))
    rw [h24, hhost, ← hraw] at hand
    exact ⟨h24, ipv4InSubnet_24.mpr hand⟩
  · rintro ⟨rfl, hin⟩
    refine ⟨_, _, hmask, hrouter, rfl, ?_⟩
    rw [hhost]
    exact ipv4InSubnet_24.mp hin

namespace NetworkConfig
open DhcpEngine

/-- Once `sync` has accepted the pool that the engine serves, an OFFER or ACK agrees with the
subnet of the interface exactly when the derived prefix is 24 and, where a full pool acknowledges
0.0.0.0, that address lies in the pool's /24. -/
theorem advertised_mask_iff {c : Config} {k : SyncCalls} {d : DhcpEngine} {start stop : IPv4Net}
    (hd : d.Reachable) (hserves : d.Serves start stop)
    (hstart : parseIpStr c.dhcpPoolStart = .ok start) (hstop : parseIpStr c.dhcpPoolEnd = .ok stop)
    (hsync : (sync c k d).result = .ok ()) (xs : List Received) (x : Received)
    {response : DhcpResponse} (hresp : (((sync c k d).dhcp.afterAll xs).receive x).2 = some response)
    (htype : response.type = 2 ∨ response.type = 5) :
    (∀ m ∈ (sync c k d).installed, m = htonl (netmask (inferPrefixCoveringPool start stop))) ∧
      (response.SubnetAgrees (inferPrefixCoveringPool start stop) ↔
        inferPrefixCoveringPool start stop = 24 ∧
          (((sync c k d).dhcp.afterAll xs).EmptyRequest x →
            ipv4InSubnet {} 24 start = true)) := by
  obtain ⟨hp, -⟩ := inferPrefixCoveringPool_common start stop
  obtain ⟨haccepts, kern, hdhcp, hin⟩ := sync_of_ok hsync
  obtain ⟨-, router, hrouter, -⟩ := haccepts.parsed hstart hstop
  refine ⟨fun m hm => ?_, ?_⟩
  · rw [sync_of_pool d hstart hstop hserves.ordered hrouter] at hm
    exact (syncIface_end ..).installed hm
  have hkern := hin start stop hstart hstop
  rw [hdhcp] at hresp ⊢
  have hpool : (d.setRouterIp kern).Serves start stop := hserves.congr rfl fun _ => rfl
  obtain ⟨-, hserves', hrouter'⟩ := hpool.afterAll (hd.poolOk.step (.setRouterIp kern)) xs
  obtain ⟨hmask, hoption⟩ := option_receive hresp
  rw [hrouter'] at hoption
  rw [DhcpResponse.subnetAgrees_iff hp hmask hoption]
  refine and_congr_right fun h24 => ?_
  -- the router is in the subnet of the pool's start, so the address agrees with either
  rw [h24] at hkern
  have hanchor : ipv4InSubnet response.yiaddr 24 kern = true ↔
      ipv4InSubnet response.yiaddr 24 start = true := by
    rw [ipv4InSubnet_24, ipv4InSubnet_24, ipv4InSubnet_24.mp hkern]
  refine hanchor.trans ?_
  rcases yiaddr_cases hresp htype with ⟨hnot, i, hi, hip⟩ | ⟨hempty, hzero⟩
  · refine iff_of_true ?_ fun h => absurd h hnot
    obtain ⟨hlo, hhi⟩ := hserves'.between hi
    rw [hip] at hlo hhi
    have hin := ipv4InSubnet_inferPrefix hlo hhi
    rwa [h24] at hin
  · rw [hzero]
    exact ⟨fun h _ => h, fun h => h hempty⟩

theorem advertised_mask_default :
    let d := engineFor (octets 192 168 12 1) (octets 192 168 12 50) (octets 192 168 12 255)
    let s := sync .defaults (workingIface (octets 192 168 12 1)) d
    ∃ response, (s.dhcp.receive (receivedAt (makeDhcpDiscover selfTestMac) 0)).2 = some response ∧
      response.SubnetAgrees 24 := by
  intro d s
  have hresp : (s.dhcp.receive (receivedAt (makeDhcpDiscover selfTestMac) 0)).2.map
      DhcpResponse.type = some 2 := by decide +kernel
  obtain ⟨response, hresp, htype⟩ := Option.map_eq_some_iff.mp hresp
  have h24 : inferPrefixCoveringPool (octets 192 168 12 50) (octets 192 168 12 255) = 24 := by
    decide +kernel
  obtain ⟨-, hiff⟩ := advertised_mask_iff (c := .defaults) (d := d) ⟨_, _, _, [], rfl⟩
    (engineFor_serves _ (by decide +kernel)) (by decide +kernel) (by decide +kernel)
    (by decide +kernel) [] _ hresp (.inl htype)
  rw [h24] at hiff
  refine ⟨response, hresp, hiff.mpr ⟨rfl, ?_⟩⟩
  rintro ⟨r, hdec, hreq, -⟩
  obtain ⟨r', hdec', hdisc, -⟩ := decode_makeDhcpDiscover selfTestMac
  obtain rfl := Option.some.inj (hdec.symm.trans hdec')
  rw [hdisc] at hreq
  exact absurd hreq (by decide)

/-- A pool across a /24 boundary: the interface gets a /22, the client is offered 192.168.1.200
with mask 255.255.255.0 and a router that is outside of that subnet. -/
theorem offer_with_foreign_router :
    let c := { Config.defaults with
      routerIp := ipToStr (octets 192 168 2 1)
      dhcpPoolStart := ipToStr (octets 192 168 1 200)
      dhcpPoolEnd := ipToStr (octets 192 168 2 100) }
    let d := engineFor (octets 192 168 2 1) (octets 192 168 1 200) (octets 192 168 2 100)
    let s := sync c (workingIface (octets 192 168 2 1)) d
    let offer := (s.dhcp.receive (receivedAt (makeDhcpDiscover selfTestMac) 0)).2
    s.result = .ok () ∧ s.installed = some (octets 255 255 252 0).raw ∧
      offer.map DhcpResponse.yiaddr = some (octets 192 168 1 200) ∧
      (offer.bind fun r => r.option 1) = some [255, 255, 255, 0] ∧
      (offer.bind fun r => r.option 3) = some [192, 168, 2, 1] ∧
      ipv4InSubnet (octets 192 168 1 200) 24 (octets 192 168 2 1) = false := by
  decide +kernel

end NetworkConfig
end Hpgtp
