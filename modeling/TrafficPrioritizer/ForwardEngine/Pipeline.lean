import TrafficPrioritizer.DhcpEngine.Model
import TrafficPrioritizer.NatEngine.Model
import TrafficPrioritizer.Net.Subnet

/-! The packet pipelines of the two workers. Each step either stops the packet or
passes it on, rewritten or not, to the next one; core 2 takes WAN frames to the
LAN and core 3 takes LAN frames to the WAN. -/

namespace Hpgtp
open ByteBuffer

inductive Priority where
  | high
  | normal
  deriving DecidableEq

structure ArpEntry where
  ipNbo : UInt32 := 0
  mac : Mac := Vector.replicate 6 0
  deriving DecidableEq

def maxArp : ℕ := 128

structure L2Snapshot where
  lanHw : Mac
  wanHw : Mac
  gwHw : Mac
  wanIpNbo : UInt32
  wanPrefixLen : Int
  arp : Fin maxArp → ArpEntry
  arpCount : ℕ
  gwHwValid : Bool
  wanCfgValid : Bool
  defaultGwIpConfigured : Bool
  ready : Bool
  arpCount_le : arpCount ≤ maxArp

def L2Snapshot.resolveMac (s : L2Snapshot) (dst : UInt32) : Option Mac :=
  Fin.findSome? fun i : Fin maxArp =>
    if (i : ℕ) < s.arpCount ∧ (s.arp i).ipNbo = dst then some (s.arp i).mac else none

namespace ParsedPacket

def storeMac (p : ParsedPacket) (field : ℕ) (mac : Mac) : ParsedPacket :=
  p.withBytes (storeBytes p.rawSpan field mac.toList) (length_storeBytes ..)

def ethDest (p : ParsedPacket) : Option (List UInt8) :=
  p.eth.map fun eth => loadBytes p.rawSpan eth 6

def ethSrc (p : ParsedPacket) : Option (List UInt8) :=
  p.eth.map fun eth => loadBytes p.rawSpan (eth + 6) 6

end ParsedPacket

/-! ## Classification -/

namespace HeuristicProcessor

def bySize (threshold : UInt32) (p : ParsedPacket) : Priority :=
  if p.rawSpan.length < threshold.toNat then .high else .normal

def handleUdp (threshold : UInt32) (p : ParsedPacket) : Priority :=
  match p.udp with
  | none => .normal
  | some udp =>
    if ntohs (load16 p.rawSpan (udp + 2)) = 53 ∨ ntohs (load16 p.rawSpan udp) = 53 then .high
    else bySize threshold p

def process (threshold : UInt32) (p : ParsedPacket) : Priority :=
  if !p.isValidIpv4 then .normal
  else if p.l4Protocol = 17 then handleUdp threshold p
  else if p.l4Protocol = 1 then .high
  else bySize threshold p

end HeuristicProcessor

/-! ## Ethernet rewrite -/

def ipv4NeedsEthRewriteForForward (daddr : IPv4Net) : Bool :=
  let d := ntohl daddr.raw
  if d = 0xFFFFFFFF then false else if d >>> 24 ≥ 224 then false else true

def ethRewriteLanToWan (enableNat : Bool) (s : L2Snapshot) (pkt : ParsedPacket) :
    Option ParsedPacket :=
  if !enableNat then some pkt
  else
    match pkt.eth, pkt.ipv4 with
    | some eth, some ip =>
      let dst := IPv4Header.daddr pkt.rawSpan ip
      if !s.ready then some pkt
      else if !ipv4NeedsEthRewriteForForward dst then some pkt
      else
        let onLink := s.wanCfgValid && ipv4InSubnet dst s.wanPrefixLen ⟨s.wanIpNbo⟩
        let pkt := pkt.storeMac (eth + 6) s.wanHw
        if onLink then (s.resolveMac dst.raw).map fun nh => pkt.storeMac eth nh
        else if !s.defaultGwIpConfigured then none
        else if !s.gwHwValid then none
        else some (pkt.storeMac eth s.gwHw)
    | _, _ => some pkt

/-- A destination without an ARP entry passes unchanged. -/
def ethRewriteWanToLan (enableNat : Bool) (s : L2Snapshot) (pkt : ParsedPacket) : ParsedPacket :=
  if !enableNat then pkt
  else
    match pkt.eth, pkt.ipv4 with
    | some eth, some ip =>
      let dst := IPv4Header.daddr pkt.rawSpan ip
      if !s.ready then pkt
      else if !ipv4NeedsEthRewriteForForward dst then pkt
      else
        match s.resolveMac dst.raw with
        | some mac => (pkt.storeMac (eth + 6) s.lanHw).storeMac eth mac
        | none => pkt
    | _, _ => pkt

/-! ## The consumer -/

structure BatchStats where
  pkts : ℕ := 0
  bytes : ℕ := 0
  prioPkts : Priority → ℕ := fun _ => 0
  prioBytes : Priority → ℕ := fun _ => 0

def BatchStats.count (s : BatchStats) (prio : Priority) (size : ℕ) : BatchStats where
  pkts := s.pkts + 1
  bytes := s.bytes + size
  prioPkts := Function.update s.prioPkts prio (s.prioPkts prio + 1)
  prioBytes := Function.update s.prioBytes prio (s.prioBytes prio + size)

def BatchStats.add (m s : BatchStats) : BatchStats where
  pkts := m.pkts + s.pkts
  bytes := m.bytes + s.bytes
  prioPkts := fun i => m.prioPkts i + s.prioPkts i
  prioBytes := fun i => m.prioBytes i + s.prioBytes i

inductive Route where
  | fastPath
  | shaper
  deriving DecidableEq

inductive Verdict where
  | intercepted (pkt : ParsedPacket)
  | dropped
  | routed (pkt : ParsedPacket) (prio : Priority) (route : Route)
  deriving DecidableEq

structure PacketConsumer where
  coreId : ℕ
  stats : BatchStats
  metrics : BatchStats
  nat : NatEngine
  snapshot : L2Snapshot
  enableNat : Bool
  largePacketThreshold : UInt32
  effectiveBridgeMode : Bool

inductive PipelineStep where
  | dhcpInterceptor
  | natDownstream
  | natUpstream
  | ethRewriteLanToWan
  | ethRewriteWanToLan
  | qosRouting

inductive Passed where
  | on (pkt : ParsedPacket)
  | stop (v : Verdict)

namespace PacketConsumer

def intercepts (c : PacketConsumer) (pkt : ParsedPacket) : Bool :=
  c.coreId == 3 && pkt.isValidIpv4 && pkt.l4Protocol == 17 &&
    pkt.udp.any fun udp =>
      ntohs (load16 pkt.rawSpan (udp + 2)) == 67 || ntohs (load16 pkt.rawSpan (udp + 2)) == 68

def route (c : PacketConsumer) : Priority → Route
  | .high => .fastPath
  | .normal => if c.effectiveBridgeMode then .fastPath else .shaper

/-- The results of the two translations are not looked at. -/
def step (c : PacketConsumer) (pkt : ParsedPacket) : PipelineStep → PacketConsumer × Passed
  | .dhcpInterceptor => (c, if c.intercepts pkt then .stop (.intercepted pkt) else .on pkt)
  | .natDownstream =>
    if !c.enableNat then (c, .on pkt)
    else
      let o := c.nat.processInbound pkt
      ({ c with nat := o.engine }, .on o.packet)
  | .natUpstream =>
    if !c.enableNat then (c, .on pkt)
    else
      let o := c.nat.processOutbound pkt
      ({ c with nat := o.engine }, .on o.packet)
  | .ethRewriteLanToWan =>
    (c, ((Hpgtp.ethRewriteLanToWan c.enableNat c.snapshot pkt).map Passed.on).getD (.stop .dropped))
  | .ethRewriteWanToLan => (c, .on (Hpgtp.ethRewriteWanToLan c.enableNat c.snapshot pkt))
  | .qosRouting =>
    let prio := HeuristicProcessor.process c.largePacketThreshold pkt
    ({ c with stats := c.stats.count prio pkt.rawSpan.length },
      .stop (.routed pkt prio (c.route prio)))

def pipeline (c : PacketConsumer) : List PipelineStep :=
  if c.coreId = 2 then [.dhcpInterceptor, .natDownstream, .ethRewriteWanToLan, .qosRouting]
  else [.dhcpInterceptor, .natDownstream, .natUpstream, .ethRewriteLanToWan, .qosRouting]

def runSteps (c : PacketConsumer) (pkt : ParsedPacket) :
    List PipelineStep → PacketConsumer × Option Verdict
  | [] => (c, none)
  | s :: ss =>
    match c.step pkt s with
    | (c, .stop v) => (c, some v)
    | (c, .on pkt) => c.runSteps pkt ss

def commit (c : PacketConsumer) : PacketConsumer :=
  if c.stats.pkts % 32 = 0 then { c with metrics := c.metrics.add c.stats, stats := {} } else c

def onPacketEvent (c : PacketConsumer) (pkt : ParsedPacket) : PacketConsumer × Option Verdict :=
  let r := c.runSteps pkt c.pipeline
  (r.1.commit, r.2)

def verdict (c : PacketConsumer) (pkt : ParsedPacket) : Option Verdict := (c.onPacketEvent pkt).2

def routed (c : PacketConsumer) (pkt : ParsedPacket) : Verdict :=
  .routed pkt (HeuristicProcessor.process c.largePacketThreshold pkt)
    (c.route (HeuristicProcessor.process c.largePacketThreshold pkt))

def downstream (c : PacketConsumer) (pkt : ParsedPacket) : Outcome :=
  if !c.enableNat then ⟨false, c.nat, pkt⟩ else c.nat.processInbound pkt

def upstream (c : PacketConsumer) (o : Outcome) : Outcome :=
  if !c.enableNat then ⟨false, o.engine, o.packet⟩ else o.engine.processOutbound o.packet

section
variable {c c' : PacketConsumer} {pkt pkt' : ParsedPacket} {s : PipelineStep}
  {ss : List PipelineStep}

theorem runSteps_of_on (h : c.step pkt s = (c', .on pkt')) :
    c.runSteps pkt (s :: ss) = c'.runSteps pkt' ss := by
  rw [runSteps, h]

theorem runSteps_of_stop {v : Verdict} (h : c.step pkt s = (c', .stop v)) :
    c.runSteps pkt (s :: ss) = (c', some v) := by
  rw [runSteps, h]

theorem step_natDownstream (c : PacketConsumer) (pkt : ParsedPacket) :
    c.step pkt .natDownstream =
      ({ c with nat := (c.downstream pkt).engine }, .on (c.downstream pkt).packet) := by
  obtain ⟨-, -, -, -, -, enableNat, -, -⟩ := c
  cases enableNat <;> rfl

theorem step_natUpstream (c : PacketConsumer) (o : Outcome) :
    ({ c with nat := o.engine } : PacketConsumer).step o.packet .natUpstream =
      ({ c with nat := (c.upstream o).engine }, .on (c.upstream o).packet) := by
  obtain ⟨-, -, -, -, -, enableNat, -, -⟩ := c
  cases enableNat <;> rfl

end

theorem verdict_wanToLan {c : PacketConsumer} (hcore : c.coreId = 2) (pkt : ParsedPacket) :
    c.verdict pkt = some (c.routed
      (Hpgtp.ethRewriteWanToLan c.enableNat c.snapshot (c.downstream pkt).packet)) := by
  have hpass : c.step pkt .dhcpInterceptor = (c, .on pkt) := by
    simp [step, intercepts, hcore]
  show (c.runSteps pkt c.pipeline).2 = _
  rw [pipeline, if_pos hcore, runSteps_of_on hpass, runSteps_of_on (step_natDownstream c pkt)]
  rfl

theorem verdict_lanToWan {c : PacketConsumer} (hcore : c.coreId = 3) (pkt : ParsedPacket) :
    c.verdict pkt =
      if c.intercepts pkt then some (.intercepted pkt)
      else
        match Hpgtp.ethRewriteLanToWan c.enableNat c.snapshot
            (c.upstream (c.downstream pkt)).packet with
        | none => some .dropped
        | some q => some (c.routed q) := by
  show (c.runSteps pkt c.pipeline).2 = _
  rw [pipeline, if_neg (by omega)]
  split_ifs with hi
  · rw [runSteps_of_stop (v := .intercepted pkt) (by rw [step, if_pos hi])]
  · rw [runSteps_of_on (by rw [step, if_neg hi]), runSteps_of_on (step_natDownstream c pkt),
      runSteps_of_on (step_natUpstream c _)]
    set q := (c.upstream (c.downstream pkt)).packet with hq
    cases hr : Hpgtp.ethRewriteLanToWan c.enableNat c.snapshot q with
    | none => rw [runSteps_of_stop (v := .dropped) (by rw [step, hr]; rfl)]
    | some q' =>
      rw [runSteps_of_on (by rw [step, hr]; rfl)]
      rfl

end PacketConsumer
end Hpgtp
