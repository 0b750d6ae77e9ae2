import TrafficPrioritizer.ForwardEngine.L2Rewrite
import TrafficPrioritizer.NatEngine.ReturnDelivery

/-! The priority of a translated flow. A packet is classified at the end of the pipeline, by the
ports it leaves with. The port of the remote host is the one it was received with; the port of the
LAN host is hidden in one direction and seen in the other. -/

namespace Hpgtp
open ByteBuffer

namespace ParsedPacket
variable {p q : ParsedPacket}

theorem SameViews.l4Ports (h : SameViews p q) : q.l4Ports = p.l4Ports := by
  obtain ⟨b, hb, rfl⟩ := h
  rfl

theorem SameViews.l4Protocol (h : SameViews p q) : q.l4Protocol = p.l4Protocol := by
  obtain ⟨b, hb, rfl⟩ := h
  rfl

theorem SameViews.length (h : SameViews p q) : q.rawSpan.length = p.rawSpan.length := by
  obtain ⟨b, hb, rfl⟩ := h
  exact hb

structure SamePorts (p q : ParsedPacket) : Prop where
  views : SameViews p q
  source : q.sourcePort = p.sourcePort
  dest : q.destPort = p.destPort

theorem SamePorts.refl (p : ParsedPacket) : SamePorts p p := ⟨SameViews.refl p, rfl, rfl⟩

theorem SamePorts.trans {r : ParsedPacket} (h : SamePorts p q) (h' : SamePorts q r) :
    SamePorts p r :=
  ⟨h.views.trans h'.views, h'.source.trans h.source, h'.dest.trans h.dest⟩

theorem samePorts_storeMac (p : ParsedPacket) {field : ℕ} (hfield : field ≤ 6) (mac : Mac) :
    SamePorts p (p.storeMac field mac) := by
  have hviews := sameViews_storeMac p field mac
  have hmac : mac.toList.length = 6 := mac.length_toList
  have hread {o : ℕ} (ho : 12 ≤ o) : load16 (p.storeMac field mac).rawSpan o = load16 p.rawSpan o :=
    load16_storeBytes_of_disjoint (by omega)
  refine ⟨hviews, ?_, ?_⟩
  · rw [sourcePort, sourcePort, hviews.l4Ports]
    refine Option.map_congr fun v hv => hread ?_
    have hoffset := (l4Ports_offsets hv).1
    omega
  · rw [destPort, destPort, hviews.l4Ports]
    refine Option.map_congr fun v hv => hread ?_
    have hoffset := (l4Ports_offsets hv).2.1
    omega

theorem samePorts_storeMacs (p : ParsedPacket) (src dest : Mac) :
    SamePorts p ((p.storeMac 6 src).storeMac 0 dest) :=
  (samePorts_storeMac p le_rfl src).trans (samePorts_storeMac _ (Nat.zero_le 6) dest)

theorem destPort_rewriteSource {ip : ℕ} {v : PortView} (h : p.ports = some (ip, v))
    (hihl : 20 ≤ p.ihl) (addr : IPv4Net) (port : UInt16) :
    (p.rewriteSource ip v addr port).destPort = p.destPort := by
  have hv := l4Ports_of_ports h
  obtain ⟨hsource, hdest, hcheck⟩ := l4Ports_offsets hv
  obtain rfl : ip = 14 := (p.ipv4_inBounds ip (ports_eq_some.mp h).1).1
  have hbyte {j : ℕ} (hj : j = v.dest ∨ j = v.dest + 1) :
      load8 (p.rewriteSource 14 v addr port).rawSpan j = load8 p.rawSpan j := by
    rw [rewriteSource, withBytes_rawSpan]
    exact load8_rewritePorts_of_disjoint (by omega) (by omega) (by omega) (by omega)
  rw [destPort, destPort, show (p.rewriteSource 14 v addr port).l4Ports = p.l4Ports from rfl, hv,
    Option.map_some, Option.map_some, load16, load16, hbyte (.inl rfl), hbyte (.inr rfl)]

theorem sourcePort_rewriteDestination {ip : ℕ} {v : PortView} (h : p.ports = some (ip, v))
    (hihl : 20 ≤ p.ihl) (addr : IPv4Net) (port : UInt16) :
    (p.rewriteDestination ip v addr port).sourcePort = p.sourcePort := by
  have hv := l4Ports_of_ports h
  obtain ⟨hsource, hdest, hcheck⟩ := l4Ports_offsets hv
  obtain rfl : ip = 14 := (p.ipv4_inBounds ip (ports_eq_some.mp h).1).1
  have hbyte {j : ℕ} (hj : j = v.source ∨ j = v.source + 1) :
      load8 (p.rewriteDestination 14 v addr port).rawSpan j = load8 p.rawSpan j := by
    rw [rewriteDestination, withBytes_rawSpan]
    exact load8_rewritePorts_of_disjoint (by omega) (by omega) (by omega) (by omega)
  rw [sourcePort, sourcePort,
    show (p.rewriteDestination 14 v addr port).l4Ports = p.l4Ports from rfl, hv,
    Option.map_some, Option.map_some, load16, load16, hbyte (.inl rfl), hbyte (.inr rfl)]

end ParsedPacket

open ParsedPacket

theorem HeuristicProcessor.process_eq_high_iff {threshold : UInt32} {p : ParsedPacket}
    (hip : p.isValidIpv4 = true) (hports : p.l4Ports.isSome = true) :
    process threshold p = .high ↔ p.rawSpan.length < threshold.toNat ∨
      p.l4Protocol = 17 ∧ (p.sourcePort = some (htons 53) ∨ p.destPort = some (htons 53)) := by
  have hsize : bySize threshold p = .high ↔ p.rawSpan.length < threshold.toNat := by
    unfold bySize
    split_ifs with h <;> simp [h]
  obtain ⟨v, hv⟩ := Option.isSome_iff_exists.mp hports
  rw [process, if_neg (by simp [hip]), sourcePort, destPort, hv]
  unfold ParsedPacket.l4Ports at hv
  split_ifs at hv with hudp htcp
  · obtain ⟨o, ho, rfl⟩ := Option.map_eq_some_iff.mp hv
    have hview : p.udp = some o := by rw [udp, if_pos hudp, ho]
    have hdns (x : UInt16) : ntohs x = 53 ↔ x = htons 53 := by
      rw [← htons_inj, htons_ntohs]
    rw [if_pos hudp, handleUdp, hview]
    simp only [hudp, true_and, Option.map_some, Option.some.injEq, hdns]
    split_ifs with h
    · simp [h.symm]
    · rw [hsize]
      exact (or_iff_left fun hport => h hport.symm).symm
  · rw [if_neg hudp, if_neg (by rw [htcp]; decide), hsize]
    simp [hudp]

namespace NatEngine

theorem sourcePort_processInbound (e : NatEngine) {p : ParsedPacket} (hports : p.ports.isSome = true)
    (hihl : 20 ≤ p.ihl) : (e.processInbound p).packet.sourcePort = p.sourcePort := by
  obtain ⟨⟨ip, v⟩, hv⟩ := Option.isSome_iff_exists.mp hports
  rw [processInbound_of_ports hv]
  split
  · rfl
  · exact sourcePort_rewriteDestination hv hihl _ _

theorem destPort_processOutbound (e : NatEngine) {p : ParsedPacket} (hports : p.ports.isSome = true)
    (hihl : 20 ≤ p.ihl) : (e.processOutbound p).packet.destPort = p.destPort := by
  obtain ⟨⟨ip, v⟩, hv⟩ := Option.isSome_iff_exists.mp hports
  by_cases hw : e.wanIp.raw = 0
  · rw [processOutbound_of_wan hw]
  rw [processOutbound_of_ports hw hv]
  cases e.flowEffect (p.keyAt ip v) e.currentTick with
  | none => rfl
  | some eff =>
    rw [finishOutbound]
    split_ifs
    · rfl
    · exact destPort_rewriteSource hv hihl _ _

theorem FlowsOk.sourcePort_ne_dns {e : NatEngine} (hok : e.FlowsOk) {p : ParsedPacket}
    {key : FlowKey} (hkey : p.flowKey = some key)
    (h : (e.processOutbound p).translated = true) :
    (e.processOutbound p).packet.sourcePort ≠ some (htons 53) := by
  obtain ⟨i, port, hat, hport⟩ := flowTable.at_of_translated hkey h
  have hrange := (hok.step (.outbound p)).ports i hat.active
  rw [show ((e.step (.outbound p)).sessions i).externalPort = port from hat.external] at hrange
  intro hdns
  obtain rfl := Option.some.inj (hport.symm.trans hdns)
  rw [ntohs_htons] at hrange
  exact absurd hrange.1 (by decide)

end NatEngine

namespace PacketConsumer
variable {c : PacketConsumer} {p q : ParsedPacket}

theorem samePorts_ethRewriteLanToWan (heth : p.eth = some 0)
    (h : Hpgtp.ethRewriteLanToWan c.enableNat c.snapshot p = some q) : SamePorts p q := by
  rcases ethRewriteLanToWan_eq_some h with rfl | ⟨eth, src, dest, heth', rfl⟩
  · exact SamePorts.refl q
  · obtain rfl := Option.some.inj (heth.symm.trans heth')
    exact samePorts_storeMacs p src dest

theorem samePorts_ethRewriteWanToLan (c : PacketConsumer) (heth : p.eth = some 0) :
    SamePorts p (Hpgtp.ethRewriteWanToLan c.enableNat c.snapshot p) := by
  rcases hip : p.ipv4 with _ | ip
  · simpa [Hpgtp.ethRewriteWanToLan, heth, hip] using SamePorts.refl p
  simp only [Hpgtp.ethRewriteWanToLan, heth, hip]
  split_ifs
  · exact SamePorts.refl p
  · exact SamePorts.refl p
  · exact SamePorts.refl p
  · split
    · exact samePorts_storeMacs p _ _
    · exact SamePorts.refl p

theorem process_of_samePorts {threshold : UInt32} (h : SamePorts p q) (hip : p.isValidIpv4 = true)
    (hports : p.l4Ports.isSome = true) :
    HeuristicProcessor.process threshold q = .high ↔ p.rawSpan.length < threshold.toNat ∨
      p.l4Protocol = 17 ∧ (p.sourcePort = some (htons 53) ∨ p.destPort = some (htons 53)) := by
  rw [HeuristicProcessor.process_eq_high_iff, h.views.length, h.views.l4Protocol, h.source, h.dest]
  · rwa [isValidIpv4, h.views.ipv4]
  · rwa [h.views.l4Ports]

theorem downstream_of_remote (hnat : c.enableNat = true) {key : FlowKey}
    (hkey : p.flowKey = some key) (hremote : key.daddr ≠ c.nat.wanIp) :
    c.downstream p = ⟨false, c.nat, p⟩ := by
  obtain ⟨ip, v, hports, rfl⟩ := flowKey_eq_some.mp hkey
  rw [downstream, hnat, if_neg (by decide), NatEngine.processInbound_of_ports hports,
    NatEngine.acceptSlot, if_neg hremote]

theorem priority_lanToWan (hcore : c.coreId = 3) (hnat : c.enableNat = true)
    (hok : c.nat.FlowsOk) {frame : List UInt8} {key : FlowKey}
    (hkey : (parse frame).flowKey = some key) (hremote : key.daddr ≠ c.nat.wanIp)
    (htranslated : (c.nat.processOutbound (parse frame)).translated = true)
    (hihl : 20 ≤ (parse frame).ihl) {prio : Priority} {route : Route}
    (h : c.verdict (parse frame) = some (.routed q prio route)) :
    prio = .high ↔ frame.length < c.largePacketThreshold.toNat ∨
      (parse frame).l4Protocol = 17 ∧ key.dport = htons 53 := by
  obtain ⟨ip, v, hports, hv⟩ := flowKey_eq_some.mp hkey
  have hip := (ports_eq_some.mp hports).1
  have hl4 := l4Ports_of_ports hports
  have hup : c.upstream ⟨false, c.nat, parse frame⟩ = c.nat.processOutbound (parse frame) := by
    rw [upstream, hnat, if_neg (by decide)]
  rw [verdict_lanToWan hcore, downstream_of_remote hnat hkey hremote, hup] at h
  set t := (c.nat.processOutbound (parse frame)).packet with ht
  have hviews : SameViews (parse frame) t := c.nat.sameViews_processOutbound (parse frame)
  have hdest : t.destPort = some key.dport := by
    rw [ht, NatEngine.destPort_processOutbound _ (by rw [hports]; rfl) hihl, destPort, hl4, ← hv]
    rfl
  have hsource : t.sourcePort ≠ some (htons 53) := hok.sourcePort_ne_dns hkey htranslated
  split_ifs at h
  · cases h
  split at h
  · cases h
  · next q' hq =>
    obtain rfl : HeuristicProcessor.process c.largePacketThreshold q' = prio := by
      cases h
      rfl
    have hsame := samePorts_ethRewriteLanToWan (hviews.eth.trans (eth_of_ipv4_parse hip)) hq
    rw [process_of_samePorts hsame (by rw [isValidIpv4, hviews.ipv4, hip]; rfl)
      (by rw [hviews.l4Ports, hl4]; rfl), hviews.length, hviews.l4Protocol, parse_rawSpan, hdest,
      Option.some.injEq]
    simp only [hsource, false_or]

theorem priority_wanToLan (hcore : c.coreId = 2) (hnat : c.enableNat = true) {frame : List UInt8}
    {key : FlowKey} (hkey : (parse frame).flowKey = some key) {port : UInt16}
    (hdest : (c.nat.processInbound (parse frame)).packet.destPort = some port)
    (hihl : 20 ≤ (parse frame).ihl) {prio : Priority} {route : Route}
    (h : c.verdict (parse frame) = some (.routed q prio route)) :
    prio = .high ↔ frame.length < c.largePacketThreshold.toNat ∨
      (parse frame).l4Protocol = 17 ∧ (key.sport = htons 53 ∨ port = htons 53) := by
  obtain ⟨ip, v, hports, hv⟩ := flowKey_eq_some.mp hkey
  have hip := (ports_eq_some.mp hports).1
  have hl4 := l4Ports_of_ports hports
  have hdown : c.downstream (parse frame) = c.nat.processInbound (parse frame) := by
    rw [downstream, hnat, if_neg (by decide)]
  rw [verdict_wanToLan hcore, hdown] at h
  set t := (c.nat.processInbound (parse frame)).packet with ht
  have hviews : SameViews (parse frame) t := c.nat.sameViews_processInbound (parse frame)
  have hsource : t.sourcePort = some key.sport := by
    rw [ht, NatEngine.sourcePort_processInbound _ (by rw [hports]; rfl) hihl, sourcePort, hl4, ← hv]
    rfl
  obtain rfl : HeuristicProcessor.process c.largePacketThreshold
      (Hpgtp.ethRewriteWanToLan c.enableNat c.snapshot t) = prio := by
    cases h
    rfl
  have hsame := samePorts_ethRewriteWanToLan c (hviews.eth.trans (eth_of_ipv4_parse hip))
  rw [process_of_samePorts hsame (by rw [isValidIpv4, hviews.ipv4, hip]; rfl)
    (by rw [hviews.l4Ports, hl4]; rfl), hviews.length, hviews.l4Protocol, parse_rawSpan, hdest,
    hsource, Option.some.injEq, Option.some.injEq]

/-- The two directions of a translated flow, in a run whose calls are port safe: a packet to the
remote host has high priority exactly when it is short or a datagram to port 53, and a packet that
comes back when it is short or a datagram from port 53, or to port 53 of the LAN host, which is not
seen in the other direction. -/
theorem flow_priorities {before after : List Op} {sent reply : List UInt8} {key : FlowKey}
    {port : UInt16} (h : NatEngine.FlowExchange before after (parse sent) (parse reply) key port)
    (hsafe : LabelledRun.Every NatEngine.step NatEngine.PortSafe NatEngine.new
      (before ++ .outbound (parse sent) :: after))
    (hremote : key.daddr ≠ (NatEngine.new.run before).wanIp)
    (hsent : 20 ≤ (parse sent).ihl) (hreply : 20 ≤ (parse reply).ihl)
    {up down : PacketConsumer} (hup : up.coreId = 3) (hdown : down.coreId = 2)
    (hupNat : up.enableNat = true) (hdownNat : down.enableNat = true)
    (hbefore : up.nat = NatEngine.new.run before)
    (hafter : down.nat = NatEngine.new.run (before ++ .outbound (parse sent) :: after))
    {q q' : ParsedPacket} {prio prio' : Priority} {route route' : Route}
    (hrouted : up.verdict (parse sent) = some (.routed q prio route))
    (hrouted' : down.verdict (parse reply) = some (.routed q' prio' route')) :
    (prio = .high ↔ sent.length < up.largePacketThreshold.toNat ∨
        (parse sent).l4Protocol = 17 ∧ key.dport = htons 53) ∧
      (prio' = .high ↔ reply.length < down.largePacketThreshold.toNat ∨
        (parse sent).l4Protocol = 17 ∧ (key.dport = htons 53 ∨ key.sport = htons 53)) := by
  constructor
  · refine priority_lanToWan hup hupNat ?_ h.sent ?_ ?_ hsent hrouted
    · rw [hbefore]
      exact NatEngine.flowsOk_new.run before
    · rwa [hbefore]
    · rw [hbefore]
      exact h.translated
  · obtain ⟨i, hat⟩ := flowTable.at_after h.sent h.translated h.given h.recent
    have hanswered := h.answered
    rw [← NatEngine.wanIp_after before (parse sent) h.sameWan] at hanswered
    obtain ⟨hiff, hgoes⟩ := NatEngine.processInbound_of_flowAt (NatEngine.flowsOk_new.run _)
      (NatEngine.LiveIndexed.run hsafe) hat h.recent hanswered (by omega)
    have hdest := (hgoes (hiff.mpr rfl)).2
    rw [← hafter] at hdest
    rw [← h.sameProtocol]
    exact priority_wanToLan hdown hdownNat h.answered hdest hreply hrouted'

def strictWorker (coreId : ℕ) (nat : NatEngine) : PacketConsumer :=
  { wanWorker nat (fun _ => {}) 0 (Nat.zero_le _) with coreId, largePacketThreshold := 0 }

/-- A LAN host that sends from port 53: its datagrams are shaped and the answers to them are
not. -/
theorem flow_priorities_lan_dns :
    let sent := makeUdpPkt (octets 192 168 1 10) (octets 9 9 9 9) 53 5000
    let reply := makeUdpPkt (octets 9 9 9 9) (octets 203 0 113 1) 5000 10000
    let up := strictWorker 3 (NatEngine.new.run [.setWanIp (octets 203 0 113 1)])
    let down := strictWorker 2
      (NatEngine.new.run [.setWanIp (octets 203 0 113 1), .outbound (parse sent)])
    ∃ q prio q' prio', up.verdict (parse sent) = some (.routed q prio .shaper) ∧
      down.verdict (parse reply) = some (.routed q' prio' .fastPath) ∧
      prio ≠ .high ∧ prio' = .high := by
  intro sent reply up down
  have hexchange : NatEngine.FlowExchange [.setWanIp (octets 203 0 113 1)] [] (parse sent)
      (parse reply) ⟨octets 192 168 1 10, octets 9 9 9 9, htons 53, htons 5000⟩ (htons 10000) :=
    ⟨by decide +kernel, by decide +kernel, by decide +kernel, by simp, by decide, by decide +kernel,
      by decide +kernel⟩
  have hsafe : LabelledRun.Every NatEngine.step NatEngine.PortSafe NatEngine.new
      [.setWanIp (octets 203 0 113 1), .outbound (parse sent)] := by
    refine ⟨trivial, fun _ i hlive => ?_, trivial⟩
    exact absurd hlive.1 (by simp [NatEngine.step, NatEngine.setWanIp, NatEngine.new,
      NatSession.reusable])
  have hrouted : up.verdict (parse sent) = some (.routed
      (((up.nat.processOutbound (parse sent)).packet.storeMac 6 (Vector.replicate 6 0x0B)).storeMac 0
        (Vector.replicate 6 0x0C)) .normal .shaper) := by decide +kernel
  have hrouted' : down.verdict (parse reply) = some (.routed
      (down.nat.processInbound (parse reply)).packet .high .fastPath) := by decide +kernel
  obtain ⟨hprio, hprio'⟩ := flow_priorities hexchange hsafe (by decide +kernel) (by decide +kernel)
    (by decide +kernel) rfl rfl rfl rfl rfl rfl hrouted hrouted'
  exact ⟨_, _, _, _, hrouted, hrouted', fun h => absurd (hprio.mp h) (by decide +kernel),
    hprio'.mpr (by decide +kernel)⟩

end PacketConsumer
end Hpgtp
