import TrafficPrioritizer.ForwardEngine.Pipeline
import TrafficPrioritizer.NatEngine.Effect
import TrafficPrioritizer.NatEngine.Frames

/-! What the Ethernet header of a routed frame says. Upstream a frame without a
next-hop address is dropped; downstream it is sent on with the addresses it came
with. -/

namespace Hpgtp
open ByteBuffer

namespace ParsedPacket

def SameViews (p q : ParsedPacket) : Prop := ∃ b h, q = p.withBytes b h

theorem SameViews.refl (p : ParsedPacket) : SameViews p p := ⟨p.rawSpan, rfl, rfl⟩

theorem SameViews.trans {p q r : ParsedPacket} (h : SameViews p q) (h' : SameViews q r) :
    SameViews p r := by
  obtain ⟨b, hb, rfl⟩ := h
  obtain ⟨b', hb', rfl⟩ := h'
  exact ⟨b', hb'.trans hb, rfl⟩

theorem SameViews.eth {p q : ParsedPacket} (h : SameViews p q) : q.eth = p.eth := by
  obtain ⟨b, hb, rfl⟩ := h
  rfl

theorem SameViews.ipv4 {p q : ParsedPacket} (h : SameViews p q) : q.ipv4 = p.ipv4 := by
  obtain ⟨b, hb, rfl⟩ := h
  rfl

theorem sameViews_storeMac (p : ParsedPacket) (field : ℕ) (mac : Mac) :
    SameViews p (p.storeMac field mac) := ⟨_, _, rfl⟩

theorem eth_of_ipv4_parse {b : List UInt8} {ip : ℕ} (h : (parse b).ipv4 = some ip) :
    (parse b).eth = some 0 := by
  revert h
  unfold parse parseL4
  dsimp only
  split_ifs
  · rintro ⟨⟩
  all_goals exact fun _ => rfl

theorem ethSrc_of_storeMacs {p : ParsedPacket} {eth : ℕ} (heth : p.eth = some eth)
    (src dest : Mac) :
    ((p.storeMac (eth + 6) src).storeMac eth dest).ethSrc = some src.toList := by
  have hlen := p.eth_inBounds eth heth
  unfold sizeofEthernetHeader at hlen
  have hsrc : src.toList.length = 6 := src.length_toList
  have hread : loadBytes (storeBytes p.rawSpan (eth + 6) src.toList) (eth + 6)
      src.toList.length = src.toList := loadBytes_storeBytes_self (by omega)
  show Option.map _ p.eth = _
  rw [heth, Option.map_some, Option.some.injEq]
  show loadBytes (storeBytes (storeBytes p.rawSpan (eth + 6) src.toList) eth dest.toList) _ _ = _
  rw [loadBytes_storeBytes_of_disjoint (.inr (by rw [dest.length_toList]))]
  rwa [hsrc] at hread

theorem ethDest_of_storeMac {p : ParsedPacket} {eth : ℕ} (heth : p.eth = some eth) (dest : Mac) :
    (p.storeMac eth dest).ethDest = some dest.toList := by
  have hlen := p.eth_inBounds eth heth
  unfold sizeofEthernetHeader at hlen
  have hdest : dest.toList.length = 6 := dest.length_toList
  have hread : loadBytes (storeBytes p.rawSpan eth dest.toList) eth dest.toList.length =
      dest.toList := loadBytes_storeBytes_self (by omega)
  show Option.map _ p.eth = _
  rw [heth, Option.map_some, Option.some.injEq]
  rwa [hdest] at hread

theorem load32_storeMac {p : ParsedPacket} {field o : ℕ} (hfield : field ≤ 6) (ho : 12 ≤ o)
    (mac : Mac) : load32 (p.storeMac field mac).rawSpan o = load32 p.rawSpan o := by
  have hmac : mac.toList.length = 6 := mac.length_toList
  exact load32_storeBytes_of_disjoint (by omega)

theorem daddr_storeMac {p : ParsedPacket} {ip field : ℕ} (hip : p.ipv4 = some ip)
    (hfield : field ≤ 6) (mac : Mac) :
    IPv4Header.daddr (p.storeMac field mac).rawSpan ip = IPv4Header.daddr p.rawSpan ip := by
  obtain rfl : ip = 14 := (p.ipv4_inBounds ip hip).1
  exact congrArg IPv4Net.mk (load32_storeMac hfield (by decide) mac)

end ParsedPacket

open ParsedPacket

theorem NatEngine.sameViews_processInbound (e : NatEngine) (pkt : ParsedPacket) :
    SameViews pkt (e.processInbound pkt).packet := by
  rcases hports : pkt.ports with _ | ⟨ip, v⟩
  · rcases hecho : pkt.echo 0 with _ | ⟨ip, icmp⟩
    · rw [processInbound_of_other hports hecho]
      exact SameViews.refl pkt
    · rw [processInbound_of_echo hecho]
      split
      · exact SameViews.refl pkt
      · exact ⟨_, length_rewriteEcho .., rfl⟩
  · rw [processInbound_of_ports hports]
    split
    · exact SameViews.refl pkt
    · exact ⟨_, length_rewritePorts .., rfl⟩

theorem NatEngine.sameViews_finishOutbound (e : NatEngine) {pkt : ParsedPacket}
    {rewritten : UInt16 → ParsedPacket} (eff : Option Effect)
    (h : ∀ ext, SameViews pkt (rewritten ext)) :
    SameViews pkt (e.finishOutbound pkt rewritten eff).packet := by
  cases eff with
  | none => exact SameViews.refl pkt
  | some eff =>
    rw [finishOutbound]
    split_ifs
    · exact SameViews.refl pkt
    · exact h _

theorem NatEngine.sameViews_processOutbound (e : NatEngine) (pkt : ParsedPacket) :
    SameViews pkt (e.processOutbound pkt).packet := by
  by_cases hw : e.wanIp.raw = 0
  · rw [processOutbound_of_wan hw]
    exact SameViews.refl pkt
  rcases hports : pkt.ports with _ | ⟨ip, v⟩
  · rcases hecho : pkt.echo 8 with _ | ⟨ip, icmp⟩
    · rw [processOutbound_of_other hports hecho]
      exact SameViews.refl pkt
    · rw [processOutbound_of_echo hw hecho]
      exact sameViews_finishOutbound e _ fun id => ⟨_, _, rfl⟩
  · rw [processOutbound_of_ports hw hports]
    exact sameViews_finishOutbound e _ fun port => ⟨_, _, rfl⟩

namespace PacketConsumer

theorem sameViews_downstream (c : PacketConsumer) (pkt : ParsedPacket) :
    SameViews pkt (c.downstream pkt).packet := by
  unfold downstream
  split_ifs
  · exact SameViews.refl pkt
  · exact c.nat.sameViews_processInbound pkt

theorem sameViews_upstream (c : PacketConsumer) (o : Outcome) :
    SameViews o.packet (c.upstream o).packet := by
  unfold upstream
  split_ifs
  · exact SameViews.refl o.packet
  · exact o.engine.sameViews_processOutbound o.packet

/-! ## What is asked of a routed frame -/

def egressHw (c : PacketConsumer) : Mac :=
  if c.coreId = 2 then c.snapshot.lanHw else c.snapshot.wanHw

def nextHop (c : PacketConsumer) (dst : IPv4Net) : Option Mac :=
  if c.coreId = 2 ∨
      (c.snapshot.wanCfgValid && ipv4InSubnet dst c.snapshot.wanPrefixLen ⟨c.snapshot.wanIpNbo⟩)
  then c.snapshot.resolveMac dst.raw
  else if c.snapshot.defaultGwIpConfigured && c.snapshot.gwHwValid then some c.snapshot.gwHw
  else none

def Addressed (c : PacketConsumer) (q : ParsedPacket) (ip : ℕ) : Prop :=
  q.ethSrc = some c.egressHw.toList ∧
    ∃ mac, c.nextHop (IPv4Header.daddr q.rawSpan ip) = some mac ∧ q.ethDest = some mac.toList

def RewriteComplete (c : PacketConsumer) (frame : List UInt8) : Prop :=
  ∀ q prio route ip, c.verdict (parse frame) = some (.routed q prio route) → q.ipv4 = some ip →
    ipv4NeedsEthRewriteForForward (IPv4Header.daddr q.rawSpan ip) = true → c.Addressed q ip

theorem addressed_of_storeMacs {c : PacketConsumer} {p : ParsedPacket} {ip : ℕ} {mac : Mac}
    (heth : p.eth = some 0) (hip : p.ipv4 = some ip)
    (hhop : c.nextHop (IPv4Header.daddr p.rawSpan ip) = some mac) :
    c.Addressed ((p.storeMac 6 c.egressHw).storeMac 0 mac) ip := by
  have hviews := sameViews_storeMac p 6 c.egressHw
  refine ⟨ethSrc_of_storeMacs heth _ _, mac, ?_, ethDest_of_storeMac (hviews.eth.trans heth) _⟩
  rw [daddr_storeMac (hviews.ipv4.trans hip) (by decide), daddr_storeMac hip (by decide), hhop]

section
variable {c : PacketConsumer} (hnat : c.enableNat = true) (hready : c.snapshot.ready = true)
include hnat hready

theorem ethRewriteLanToWan_eq (hcore : c.coreId = 3) {p : ParsedPacket} {ip : ℕ}
    (heth : p.eth = some 0) (hip : p.ipv4 = some ip)
    (hneeds : ipv4NeedsEthRewriteForForward (IPv4Header.daddr p.rawSpan ip) = true) :
    Hpgtp.ethRewriteLanToWan c.enableNat c.snapshot p =
      (c.nextHop (IPv4Header.daddr p.rawSpan ip)).map fun nh =>
        (p.storeMac 6 c.egressHw).storeMac 0 nh := by
  have hegress : c.egressHw = c.snapshot.wanHw := if_neg (by omega)
  simp only [Hpgtp.ethRewriteLanToWan, hnat, heth, hip, hready, hneeds, nextHop, hcore, hegress]
  by_cases hlink : (c.snapshot.wanCfgValid &&
      ipv4InSubnet (IPv4Header.daddr p.rawSpan ip) c.snapshot.wanPrefixLen
        ⟨c.snapshot.wanIpNbo⟩) = true
  · simp [hlink]
  · cases hgw : c.snapshot.defaultGwIpConfigured <;> cases hhw : c.snapshot.gwHwValid <;>
      simp [hlink]

theorem ethRewriteWanToLan_eq (hcore : c.coreId = 2) {p : ParsedPacket} {ip : ℕ}
    (heth : p.eth = some 0) (hip : p.ipv4 = some ip)
    (hneeds : ipv4NeedsEthRewriteForForward (IPv4Header.daddr p.rawSpan ip) = true) :
    Hpgtp.ethRewriteWanToLan c.enableNat c.snapshot p =
      ((c.nextHop (IPv4Header.daddr p.rawSpan ip)).map fun nh =>
        (p.storeMac 6 c.egressHw).storeMac 0 nh).getD p := by
  have hegress : c.egressHw = c.snapshot.lanHw := if_pos hcore
  simp only [Hpgtp.ethRewriteWanToLan, hnat, heth, hip, hready, hneeds, nextHop, hcore, hegress]
  cases hres : c.snapshot.resolveMac (IPv4Header.daddr p.rawSpan ip).raw <;> simp

end

theorem ethRewriteLanToWan_of_not_needs {c : PacketConsumer} {p : ParsedPacket} {ip : ℕ}
    (hip : p.ipv4 = some ip)
    (hneeds : ipv4NeedsEthRewriteForForward (IPv4Header.daddr p.rawSpan ip) = false) :
    Hpgtp.ethRewriteLanToWan c.enableNat c.snapshot p = some p := by
  unfold Hpgtp.ethRewriteLanToWan
  cases p.eth <;> simp [hip, hneeds]

theorem ethRewriteWanToLan_of_not_needs {c : PacketConsumer} {p : ParsedPacket} {ip : ℕ}
    (hip : p.ipv4 = some ip)
    (hneeds : ipv4NeedsEthRewriteForForward (IPv4Header.daddr p.rawSpan ip) = false) :
    Hpgtp.ethRewriteWanToLan c.enableNat c.snapshot p = p := by
  unfold Hpgtp.ethRewriteWanToLan
  cases p.eth <;> simp [hip, hneeds]

theorem sameViews_storeMacs (p : ParsedPacket) (i j : ℕ) (src dest : Mac) :
    SameViews p ((p.storeMac i src).storeMac j dest) :=
  (sameViews_storeMac p i src).trans (sameViews_storeMac _ j dest)

theorem ethRewriteLanToWan_eq_some {c : PacketConsumer} {p q : ParsedPacket}
    (h : Hpgtp.ethRewriteLanToWan c.enableNat c.snapshot p = some q) :
    q = p ∨ ∃ eth src dest, p.eth = some eth ∧ q = (p.storeMac (eth + 6) src).storeMac eth dest := by
  have hself (hpq : some p = some q) : q = p := (Option.some.inj hpq).symm
  rcases heth : p.eth with _ | eth
  · exact .inl (hself (by simpa [Hpgtp.ethRewriteLanToWan, heth] using h))
  rcases hip : p.ipv4 with _ | ip
  · exact .inl (hself (by simpa [Hpgtp.ethRewriteLanToWan, heth, hip] using h))
  simp only [Hpgtp.ethRewriteLanToWan, heth, hip] at h
  split_ifs at h
  · exact .inl (hself h)
  · exact .inl (hself h)
  · exact .inl (hself h)
  · obtain ⟨mac, -, rfl⟩ := Option.map_eq_some_iff.mp h
    exact .inr ⟨eth, _, mac, rfl, rfl⟩
  · exact .inr ⟨eth, _, _, rfl, (Option.some.inj h).symm⟩

theorem sameViews_ethRewriteLanToWan {c : PacketConsumer} {p q : ParsedPacket}
    (h : Hpgtp.ethRewriteLanToWan c.enableNat c.snapshot p = some q) : SameViews p q := by
  rcases ethRewriteLanToWan_eq_some h with rfl | ⟨eth, src, dest, -, rfl⟩
  · exact SameViews.refl q
  · exact sameViews_storeMacs p ..

theorem sameViews_ethRewriteWanToLan (c : PacketConsumer) (p : ParsedPacket) :
    SameViews p (Hpgtp.ethRewriteWanToLan c.enableNat c.snapshot p) := by
  rcases heth : p.eth with _ | eth
  · simpa [Hpgtp.ethRewriteWanToLan, heth] using SameViews.refl p
  rcases hip : p.ipv4 with _ | ip
  · simpa [Hpgtp.ethRewriteWanToLan, heth, hip] using SameViews.refl p
  simp only [Hpgtp.ethRewriteWanToLan, heth, hip]
  split_ifs
  · exact SameViews.refl p
  · exact SameViews.refl p
  · exact SameViews.refl p
  · split
    · exact sameViews_storeMacs p ..
    · exact SameViews.refl p

section
variable {c : PacketConsumer} (hnat : c.enableNat = true) (hready : c.snapshot.ready = true)
include hnat hready

theorem rewriteComplete_lanToWan (hcore : c.coreId = 3) (frame : List UInt8) :
    c.RewriteComplete frame := by
  intro q prio route ip hv hip hneeds
  rw [verdict_lanToWan hcore] at hv
  split_ifs at hv
  · cases hv
  split at hv
  · cases hv
  · rename_i q' hq
    obtain rfl : q' = q := by cases hv; rfl
    set p := (c.upstream (c.downstream (parse frame))).packet with hp
    -- the translations move no view, so the frame is an IPv4 frame after them as before
    have hviews : SameViews (parse frame) p :=
      (c.sameViews_downstream _).trans (c.sameViews_upstream _)
    have hqp := sameViews_ethRewriteLanToWan hq
    have hpip : p.ipv4 = some ip := hqp.ipv4.symm.trans hip
    have hpeth : p.eth = some 0 :=
      hviews.eth.trans (eth_of_ipv4_parse (hviews.ipv4.symm.trans hpip))
    cases hpn : ipv4NeedsEthRewriteForForward (IPv4Header.daddr p.rawSpan ip) with
    | false =>
      rw [ethRewriteLanToWan_of_not_needs hpip hpn] at hq
      obtain rfl := Option.some.inj hq
      rw [hpn] at hneeds
      cases hneeds
    | true =>
      rw [ethRewriteLanToWan_eq hnat hready hcore hpeth hpip hpn] at hq
      obtain ⟨mac, hmac, rfl⟩ := Option.map_eq_some_iff.mp hq
      exact addressed_of_storeMacs hpeth hpip hmac

theorem rewriteComplete_wanToLan_iff (hcore : c.coreId = 2) (frame : List UInt8) :
    c.RewriteComplete frame ↔ ∀ dst ∈ (c.nat.processInbound (parse frame)).packet.destAddr,
      ipv4NeedsEthRewriteForForward dst = true → (c.snapshot.resolveMac dst.raw).isSome = true := by
  have hdown : c.downstream (parse frame) = c.nat.processInbound (parse frame) := by
    simp [downstream, hnat]
  have hhop (dst : IPv4Net) : c.nextHop dst = c.snapshot.resolveMac dst.raw :=
    if_pos (.inl hcore)
  rw [← hdown]
  have hviews := c.sameViews_downstream (parse frame)
  set p := (c.downstream (parse frame)).packet with hp
  have hpeth {ip : ℕ} (hip : p.ipv4 = some ip) : p.eth = some 0 :=
    hviews.eth.trans (eth_of_ipv4_parse (hviews.ipv4.symm.trans hip))
  have hverdict := verdict_wanToLan hcore (parse frame)
  rw [← hp] at hverdict
  constructor
  · rintro hall dst hdst hneeds
    obtain ⟨ip, hip, rfl⟩ := Option.map_eq_some_iff.mp hdst
    -- without an entry the packet is routed as it is
    by_contra hnone
    rw [Option.not_isSome_iff_eq_none, ← hhop] at hnone
    rw [ethRewriteWanToLan_eq hnat hready hcore (hpeth hip) hip hneeds, hnone] at hverdict
    obtain ⟨-, mac, hmac, -⟩ := hall _ _ _ ip hverdict hip hneeds
    rw [show c.nextHop (IPv4Header.daddr p.rawSpan ip) = some mac from hmac] at hnone
    cases hnone
  · intro hall q prio route ip hv hip hneeds
    rw [hverdict] at hv
    obtain rfl : Hpgtp.ethRewriteWanToLan c.enableNat c.snapshot p = q := by cases hv; rfl
    have hpip : p.ipv4 = some ip := (c.sameViews_ethRewriteWanToLan p).ipv4.symm.trans hip
    cases hpn : ipv4NeedsEthRewriteForForward (IPv4Header.daddr p.rawSpan ip) with
    | false =>
      rw [ethRewriteWanToLan_of_not_needs hpip hpn, hpn] at hneeds
      cases hneeds
    | true =>
      obtain ⟨mac, hmac⟩ := Option.isSome_iff_exists.mp
        (hall _ (Option.map_eq_some_iff.mpr ⟨ip, hpip, rfl⟩) hpn)
      rw [← hhop] at hmac
      rw [ethRewriteWanToLan_eq hnat hready hcore (hpeth hpip) hpip hpn, hmac]
      exact addressed_of_storeMacs (hpeth hpip) hpip hmac

end

/-- With NAT enabled and a ready snapshot, every unicast frame that core 3 routes is addressed to
its next hop; for core 2 this is so exactly when the destination left by the translation is in
the ARP table. -/
theorem rewrite_complete_iff {c : PacketConsumer} (hcore : c.coreId = 2 ∨ c.coreId = 3)
    (hnat : c.enableNat = true) (hready : c.snapshot.ready = true) (frame : List UInt8) :
    c.RewriteComplete frame ↔
      c.coreId = 3 ∨ ∀ dst ∈ (c.nat.processInbound (parse frame)).packet.destAddr,
        ipv4NeedsEthRewriteForForward dst = true →
          (c.snapshot.resolveMac dst.raw).isSome = true := by
  rcases hcore with hcore | hcore
  · rw [rewriteComplete_wanToLan_iff hnat hready hcore]
    simp [hcore]
  · exact iff_of_true (rewriteComplete_lanToWan hnat hready hcore frame) (.inl hcore)

def wanWorker (nat : NatEngine) (hosts : Fin maxArp → ArpEntry) (count : ℕ)
    (h : count ≤ maxArp) : PacketConsumer where
  coreId := 2
  stats := {}
  metrics := {}
  nat := nat
  snapshot :=
    { lanHw := Vector.replicate 6 0x0A, wanHw := Vector.replicate 6 0x0B,
      gwHw := Vector.replicate 6 0x0C, wanIpNbo := (octets 203 0 113 1).raw, wanPrefixLen := 24,
      arp := hosts, arpCount := count, gwHwValid := true, wanCfgValid := true,
      defaultGwIpConfigured := true, ready := true, arpCount_le := h }
  enableNat := true
  largePacketThreshold := 1000
  effectiveBridgeMode := false

def askedNat : NatEngine :=
  NatEngine.new.run [.setWanIp (octets 203 0 113 1),
    .outbound (parse (makeUdpPkt (octets 192 168 1 10) (octets 8 8 8 8) 5000 53))]

def answer : List UInt8 := makeUdpPkt (octets 8 8 8 8) (octets 203 0 113 1) 53 10000

theorem rewrite_complete_known_host :
    (wanWorker askedNat (fun _ => ⟨(octets 192 168 1 10).raw, Vector.replicate 6 0x0D⟩) 1
      (by decide)).RewriteComplete answer :=
  (rewrite_complete_iff (.inl rfl) rfl rfl answer).mpr (.inr (by decide +kernel))

/-- The answer to a host that is not in the table is routed, not dropped, and keeps the Ethernet
addresses it came with. -/
theorem unknown_host_not_dropped :
    let c := wanWorker askedNat (fun _ => {}) 0 (by decide)
    let q := (askedNat.processInbound (parse answer)).packet
    c.verdict (parse answer) = some (.routed q .high .fastPath) ∧
      q.destAddr = some (octets 192 168 1 10) ∧ c.nextHop (octets 192 168 1 10) = none ∧
      q.ethSrc = (parse answer).ethSrc ∧ q.ethSrc ≠ some c.egressHw.toList := by
  decide +kernel

end PacketConsumer
end Hpgtp
