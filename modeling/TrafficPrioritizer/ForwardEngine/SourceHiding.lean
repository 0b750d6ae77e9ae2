import TrafficPrioritizer.ForwardEngine.L2Rewrite
import TrafficPrioritizer.NatEngine.Tables

/-! Whether a LAN address can leave on the WAN side. `step_nat_upstream` passes a
packet on whether or not it was translated, so a refused packet is sent with the
source it came with. -/

namespace Hpgtp
open ByteBuffer ParsedPacket

namespace NatEngine

theorem processOutbound_of_no_ports {e : NatEngine} {p : ParsedPacket} {ip : ℕ}
    (hip : p.ipv4 = some ip)
    (hproto : IPv4Header.protocol p.rawSpan ip = 6 ∨ IPv4Header.protocol p.rawSpan ip = 17)
    (hports : p.ports = none) : e.processOutbound p = ⟨false, e, p⟩ := by
  refine processOutbound_of_other hports ?_
  rcases hecho : p.echo 8 with _ | ⟨ip', icmp⟩
  · rfl
  · obtain ⟨hip', hp, -⟩ := echo_eq_some.mp hecho
    obtain rfl := Option.some.inj (hip.symm.trans hip')
    rw [hp] at hproto
    exact absurd hproto (by decide)

theorem protocol_processInbound (e : NatEngine) {p : ParsedPacket} {ip : ℕ} (hip : p.ipv4 = some ip)
    (hproto : IPv4Header.protocol p.rawSpan ip = 6 ∨ IPv4Header.protocol p.rawSpan ip = 17) :
    IPv4Header.protocol (e.processInbound p).packet.rawSpan ip =
      IPv4Header.protocol p.rawSpan ip := by
  rcases hports : p.ports with _ | ⟨ip', v⟩
  · rcases hecho : p.echo 0 with _ | ⟨ip', icmp⟩
    · rw [processInbound_of_other hports hecho]
    · obtain ⟨hip', hp, -⟩ := echo_eq_some.mp hecho
      obtain rfl := Option.some.inj (hip.symm.trans hip')
      rw [hp] at hproto
      exact absurd hproto (by decide)
  · obtain rfl := Option.some.inj (hip.symm.trans (ports_eq_some.mp hports).1)
    rw [processInbound_of_ports hports]
    split
    · rfl
    · exact protocol_rewriteDestination hports _ _

/-- What makes the source of `p` the WAN address: a slot of the probe chain takes the flow, as a
reusable slot or as its own, and an IHL of three words does not put the new port over the
address; or no slot does, and the source is the WAN address already. -/
def HidesSource (e : NatEngine) (p : ParsedPacket) : Prop :=
  (∃ key eff, p.flowKey = some key ∧ e.flowEffect key e.currentTick = some eff ∧
    (p.ihl ≠ 12 ∨ low16 e.wanIp.raw = e.external eff)) ∨
  ((∀ key, p.flowKey = some key → e.flowEffect key e.currentTick = none) ∧
    p.sourceAddr = some e.wanIp)

theorem FlowsOk.sourceAddr_processOutbound {e : NatEngine} (h : e.FlowsOk) {p : ParsedPacket}
    {ip : ℕ} (hw : e.wanIp.raw ≠ 0) (hip : p.ipv4 = some ip)
    (hproto : IPv4Header.protocol p.rawSpan ip = 6 ∨ IPv4Header.protocol p.rawSpan ip = 17) :
    (e.processOutbound p).packet.sourceAddr = some e.wanIp ↔ e.HidesSource p := by
  unfold HidesSource
  rcases hports : p.ports with _ | ⟨ip', v⟩
  · have hkey : p.flowKey = none := by rw [flowKey, hports]; rfl
    simp [processOutbound_of_no_ports hip hproto hports, hkey]
  · have hkey := flowKey_of_ports hports
    rw [processOutbound_of_ports hw hports]
    rcases heff : e.flowEffect (p.keyAt ip' v) e.currentTick with _ | eff
    · simp [hkey, heff, finishOutbound]
    · simp only [finishOutbound, if_neg (h.portsNonzero.external heff),
        sourceAddr_rewriteSource hports, hkey, Option.some.injEq]
      constructor
      · exact fun hih => .inl ⟨_, eff, rfl, heff, hih⟩
      · rintro (⟨key, eff', rfl, heff', hih⟩ | ⟨hnone, -⟩)
        · obtain rfl := Option.some.inj (heff.symm.trans heff')
          exact hih
        · exact absurd (hnone _ rfl) (by simp [heff])

end NatEngine

namespace PacketConsumer

theorem sourceAddr_ethRewriteLanToWan {c : PacketConsumer} {p q : ParsedPacket} {ip : ℕ}
    (hip : p.ipv4 = some ip) (heth : p.eth = some 0)
    (h : Hpgtp.ethRewriteLanToWan c.enableNat c.snapshot p = some q) :
    q.sourceAddr = p.sourceAddr := by
  rcases ethRewriteLanToWan_eq_some h with rfl | ⟨eth, src, dest, heth', rfl⟩
  · rfl
  · obtain rfl := Option.some.inj (heth.symm.trans heth')
    have hviews := sameViews_storeMacs p 6 0 src dest
    obtain rfl : ip = 14 := (p.ipv4_inBounds ip hip).1
    rw [sourceAddr, sourceAddr, hviews.ipv4, hip]
    refine congrArg some (congrArg IPv4Net.mk ?_)
    rw [load32_storeMac (by decide) (by decide), load32_storeMac (by decide) (by decide)]

theorem source_hidden_iff (ops : List Op) {c : PacketConsumer} (hops : c.nat = NatEngine.new.run ops)
    (hcore : c.coreId = 3) (hnat : c.enableNat = true) (hwan : c.nat.wanIp.raw ≠ 0)
    {frame : List UInt8} {ip : ℕ} (hip : (parse frame).ipv4 = some ip)
    (hproto : IPv4Header.protocol frame ip = 6 ∨ IPv4Header.protocol frame ip = 17)
    {q : ParsedPacket} {prio : Priority} {route : Route}
    (hpass : c.verdict (parse frame) = some (.routed q prio route)) :
    q.sourceAddr = some c.nat.wanIp ↔
      (c.nat.processInbound (parse frame)).engine.HidesSource
        (c.nat.processInbound (parse frame)).packet := by
  set o := c.nat.processInbound (parse frame) with ho
  have hdown : c.downstream (parse frame) = o := by simp [downstream, hnat, ho]
  have hup : c.upstream o = o.engine.processOutbound o.packet := by simp [upstream, hnat]
  have hok : o.engine.FlowsOk := by
    have h := (NatEngine.flowsOk_new.run ops).step (.inbound (parse frame))
    rwa [← hops] at h
  have hwanIp : o.engine.wanIp = c.nat.wanIp :=
    NatEngine.step_wanIp c.nat (.inbound (parse frame)) (by simp)
  have hviews := c.nat.sameViews_processInbound (parse frame)
  have hip1 : o.packet.ipv4 = some ip := hviews.ipv4.trans hip
  have hproto1 : IPv4Header.protocol o.packet.rawSpan ip = 6 ∨
      IPv4Header.protocol o.packet.rawSpan ip = 17 := by
    rw [ho, c.nat.protocol_processInbound hip (by rwa [parse_rawSpan]), parse_rawSpan]
    exact hproto
  rw [verdict_lanToWan hcore, hdown, hup] at hpass
  split_ifs at hpass
  · cases hpass
  split at hpass
  · cases hpass
  · rename_i q' hq
    obtain rfl : q' = q := by cases hpass; rfl
    have hviews2 := o.engine.sameViews_processOutbound o.packet
    rw [sourceAddr_ethRewriteLanToWan (hviews2.ipv4.trans hip1)
      (hviews2.eth.trans (hviews.eth.trans (eth_of_ipv4_parse hip))) hq, ← hwanIp]
    exact hok.sourceAddr_processOutbound (hwanIp ▸ hwan) hip1 hproto1

def lanWorker (nat : NatEngine) : PacketConsumer :=
  { wanWorker nat (fun _ => {}) 0 (by decide) with coreId := 3 }

def toGateway (p : ParsedPacket) : ParsedPacket :=
  (p.storeMac 6 (Vector.replicate 6 0x0B)).storeMac 0 (Vector.replicate 6 0x0C)

theorem source_hidden_tcp :
    let e := NatEngine.new.run [.setWanIp (octets 203 0 113 1)]
    let p := parse (makeTcpPkt (octets 192 168 1 10) (octets 9 9 9 9) 5000 443 2)
    let q := toGateway (e.processOutbound p).packet
    (lanWorker e).verdict p = some (.routed q .high .fastPath) ∧
      q.sourceAddr = some (octets 203 0 113 1) := by
  intro e p q
  have hpass : (lanWorker e).verdict p = some (.routed q .high .fastPath) := by decide +kernel
  have hip : p.ipv4 = some 14 := by decide +kernel
  refine ⟨hpass, (source_hidden_iff [.setWanIp (octets 203 0 113 1)] rfl rfl rfl
    (by decide +kernel) hip (by decide +kernel) hpass).mpr (.inl ?_)⟩
  exact ⟨_, .openSession _ 0 (NatEngine.probeSlot _ 0), rfl,
    NatEngine.flowEffect_of_first (NatEngine.slotEffect_of_reusable (by decide +kernel)),
    .inl (by decide +kernel)⟩

/-- A frame that holds only the first eight bytes of its TCP header, as a small first fragment
does, is refused by the translation and routed to the WAN with its LAN address. -/
theorem fragment_leaks_source :
    let c := lanWorker (NatEngine.new.run [.setWanIp (octets 203 0 113 1)])
    let frame := makeFrame 42 6 28 (octets 192 168 1 10) (octets 9 9 9 9) 5000 443
    c.verdict (parse frame) = some (.routed (toGateway (parse frame)) .high .fastPath) ∧
      (toGateway (parse frame)).sourceAddr = some (octets 192 168 1 10) := by
  decide +kernel

end PacketConsumer
end Hpgtp
