import TrafficPrioritizer.NatEngine.Packets
import TrafficPrioritizer.Lib.Run

/-! What one call can do to the engine, said once. A call has at most one effect
on the tables; `processOutbound` and `processInbound` are the choice of that
effect followed by the rewrite of the packet. -/

namespace Hpgtp
open ByteBuffer ReverseIndex

inductive Effect
  | skip
  | openSession (key : FlowKey) (tick : UInt32) (idx : Fin maxSessions)
  | touchSession (tick : UInt32) (idx : Fin maxSessions)
  | openIcmpSession (key : EchoKey) (tick : UInt32) (idx : Fin maxIcmpSessions)
  | touchIcmpSession (tick : UInt32) (idx : Fin maxIcmpSessions)
  | advance
  | setWanIp (ip : IPv4Net)
  deriving DecidableEq

namespace NatEngine

def apply (e : NatEngine) : Effect → NatEngine
  | .skip => e
  | .openSession key tick idx => e.openSession key tick idx
  | .touchSession tick idx => e.touchSession tick idx
  | .openIcmpSession key tick idx => (e.openIcmpSession key tick idx).1
  | .touchIcmpSession tick idx => e.touchIcmpSession tick idx
  | .advance => e.tick
  | .setWanIp ip => e.setWanIp ip

def external (e : NatEngine) : Effect → UInt16
  | .openSession _ _ _ => htons e.portCursor
  | .touchSession _ idx => (e.sessions idx).externalPort
  | .openIcmpSession key tick idx => (e.openIcmpSession key tick idx).2
  | .touchIcmpSession _ idx => (e.icmpSessions idx).extIdNbo
  | _ => 0

/-! ## Outbound -/

def slotEffect (e : NatEngine) (key : FlowKey) (tick : UInt32) (idx : Fin maxSessions) :
    Option Effect :=
  if (e.sessions idx).reusable tick then some (.openSession key tick idx)
  else if (e.sessions idx).internalKey = key then some (.touchSession tick idx)
  else none

def icmpSlotEffect (e : NatEngine) (key : EchoKey) (tick : UInt32) (idx : Fin maxIcmpSessions) :
    Option Effect :=
  if (e.icmpSessions idx).reusable tick then some (.openIcmpSession key tick idx)
  else if (e.icmpSessions idx).key = key then some (.touchIcmpSession tick idx)
  else none

def flowEffect (e : NatEngine) (key : FlowKey) (tick : UInt32) : Option Effect :=
  Fin.findSome? fun i : Fin 32 => e.slotEffect key tick (probeSlot key i)

def echoEffect (e : NatEngine) (key : EchoKey) (tick : UInt32) : Option Effect :=
  Fin.findSome? fun i : Fin 32 => e.icmpSlotEffect key tick (probeIcmpSlot key i)

theorem examineSlot_eq (e : NatEngine) (key : FlowKey) (tick : UInt32) (idx : Fin maxSessions) :
    e.examineSlot key tick idx =
      (e.slotEffect key tick idx).map fun eff => (e.apply eff, e.external eff) := by
  unfold examineSlot slotEffect
  split_ifs <;> rfl

theorem examineIcmpSlot_eq (e : NatEngine) (key : EchoKey) (tick : UInt32)
    (idx : Fin maxIcmpSessions) :
    e.examineIcmpSlot key tick idx =
      (e.icmpSlotEffect key tick idx).map fun eff => (e.apply eff, e.external eff) := by
  unfold examineIcmpSlot icmpSlotEffect
  split_ifs <;> rfl

theorem probe_eq (e : NatEngine) (key : FlowKey) (tick : UInt32) :
    e.probe key tick = (e.flowEffect key tick).map fun eff => (e.apply eff, e.external eff) := by
  simp only [probe, flowEffect, Fin.map_findSome?, examineSlot_eq]

theorem probeIcmp_eq (e : NatEngine) (key : EchoKey) (tick : UInt32) :
    e.probeIcmp key tick =
      (e.echoEffect key tick).map fun eff => (e.apply eff, e.external eff) := by
  simp only [probeIcmp, echoEffect, Fin.map_findSome?, examineIcmpSlot_eq]

theorem flowEffect_eq_some {e : NatEngine} {key : FlowKey} {tick : UInt32} {eff : Effect} :
    e.flowEffect key tick = some eff ↔
      ∃ i, e.slotEffect key tick (probeSlot key i) = some eff ∧
        ∀ j < i, e.slotEffect key tick (probeSlot key j) = none := Fin.findSome?_eq_some_iff

theorem flowEffect_of_first {e : NatEngine} {key : FlowKey} {tick : UInt32} {eff : Effect}
    (h : e.slotEffect key tick (probeSlot key 0) = some eff) : e.flowEffect key tick = some eff :=
  flowEffect_eq_some.mpr ⟨0, h, fun j hj => absurd hj (Fin.not_lt_zero j)⟩

theorem echoEffect_eq_some {e : NatEngine} {key : EchoKey} {tick : UInt32} {eff : Effect} :
    e.echoEffect key tick = some eff ↔
      ∃ i, e.icmpSlotEffect key tick (probeIcmpSlot key i) = some eff ∧
        ∀ j < i, e.icmpSlotEffect key tick (probeIcmpSlot key j) = none :=
  Fin.findSome?_eq_some_iff

theorem slotEffect_eq_some {e : NatEngine} {key : FlowKey} {tick : UInt32}
    {idx : Fin maxSessions} {eff : Effect} (h : e.slotEffect key tick idx = some eff) :
    ((e.sessions idx).reusable tick = true ∧ eff = .openSession key tick idx) ∨
      ((e.sessions idx).reusable tick = false ∧ (e.sessions idx).internalKey = key ∧
        eff = .touchSession tick idx) := by
  unfold slotEffect at h
  split_ifs at h with hr hk
  · exact .inl ⟨hr, (Option.some.inj h).symm⟩
  · exact .inr ⟨by simpa using hr, hk, (Option.some.inj h).symm⟩

theorem icmpSlotEffect_eq_some {e : NatEngine} {key : EchoKey} {tick : UInt32}
    {idx : Fin maxIcmpSessions} {eff : Effect} (h : e.icmpSlotEffect key tick idx = some eff) :
    ((e.icmpSessions idx).reusable tick = true ∧ eff = .openIcmpSession key tick idx) ∨
      ((e.icmpSessions idx).reusable tick = false ∧ (e.icmpSessions idx).key = key ∧
        eff = .touchIcmpSession tick idx) := by
  unfold icmpSlotEffect at h
  split_ifs at h with hr hk
  · exact .inl ⟨hr, (Option.some.inj h).symm⟩
  · exact .inr ⟨by simpa using hr, hk, (Option.some.inj h).symm⟩

theorem slotEffect_of_reusable {e : NatEngine} {key : FlowKey} {tick : UInt32}
    {idx : Fin maxSessions} (h : (e.sessions idx).reusable tick = true) :
    e.slotEffect key tick idx = some (.openSession key tick idx) := if_pos h

theorem slotEffect_of_live {e : NatEngine} {key : FlowKey} {tick : UInt32}
    {idx : Fin maxSessions} (h : (e.sessions idx).reusable tick = false)
    (hkey : (e.sessions idx).internalKey = key) :
    e.slotEffect key tick idx = some (.touchSession tick idx) := by
  rw [slotEffect, if_neg (by rw [h]; decide), if_pos hkey]

theorem slotEffect_eq_none {e : NatEngine} {key : FlowKey} {tick : UInt32}
    {idx : Fin maxSessions} : e.slotEffect key tick idx = none ↔
      (e.sessions idx).reusable tick = false ∧ (e.sessions idx).internalKey ≠ key := by
  unfold slotEffect
  split_ifs with hr hk <;> simp_all

def outboundEffect (e : NatEngine) (pkt : ParsedPacket) : Effect :=
  if e.wanIp.raw = 0 then .skip
  else
    match pkt.flowKey, pkt.echoKey 8 with
    | some key, _ => (e.flowEffect key e.currentTick).getD .skip
    | none, some key => (e.echoEffect key e.currentTick).getD .skip
    | none, none => .skip

def finishOutbound (e : NatEngine) (pkt : ParsedPacket) (rewritten : UInt16 → ParsedPacket) :
    Option Effect → Outcome
  | none => ⟨false, e, pkt⟩
  | some eff =>
    if e.external eff = 0 then ⟨false, e.apply eff, pkt⟩
    else ⟨true, e.apply eff, rewritten (e.external eff)⟩

theorem processOutbound_of_wan {e : NatEngine} {pkt : ParsedPacket} (hw : e.wanIp.raw = 0) :
    e.processOutbound pkt = ⟨false, e, pkt⟩ := by
  unfold processOutbound
  split
  · rfl
  · rw [if_pos hw]

theorem processOutbound_of_ports {e : NatEngine} {pkt : ParsedPacket} {ip : Nat} {v : PortView}
    (hw : e.wanIp.raw ≠ 0) (h : pkt.ports = some (ip, v)) :
    e.processOutbound pkt = e.finishOutbound pkt (pkt.rewriteSource ip v e.wanIp)
      (e.flowEffect (pkt.keyAt ip v) e.currentTick) := by
  obtain ⟨hip, -, hv⟩ := ParsedPacket.ports_eq_some.mp h
  obtain ⟨hicmp, hl4⟩ := ParsedPacket.protocol_of_ports h
  simp only [processOutbound, hip, if_neg hw, if_neg hicmp, if_neg hl4, hv, probe_eq]
  rw [← ParsedPacket.keyAt]
  cases e.flowEffect (pkt.keyAt ip v) e.currentTick <;> rfl

theorem processOutbound_of_echo {e : NatEngine} {pkt : ParsedPacket} {ip icmp : Nat}
    (hw : e.wanIp.raw ≠ 0) (h : pkt.echo 8 = some (ip, icmp)) :
    e.processOutbound pkt = e.finishOutbound pkt (pkt.rewriteEchoSource ip icmp e.wanIp)
      (e.echoEffect (pkt.echoKeyAt ip icmp) e.currentTick) := by
  obtain ⟨hip, hproto, hv⟩ := ParsedPacket.echo_eq_some.mp h
  simp only [processOutbound, hip, if_neg hw, if_pos hproto, processOutboundIcmp, hv, probeIcmp_eq]
  rw [← ParsedPacket.echoKeyAt]
  cases e.echoEffect (pkt.echoKeyAt ip icmp) e.currentTick <;> rfl

theorem processOutbound_of_other {e : NatEngine} {pkt : ParsedPacket} (h : pkt.ports = none)
    (h8 : pkt.echo 8 = none) : e.processOutbound pkt = ⟨false, e, pkt⟩ := by
  unfold ParsedPacket.ports at h
  unfold ParsedPacket.echo at h8
  unfold processOutbound processOutboundIcmp
  split
  · rfl
  · rename_i ip hip
    simp only [hip] at h h8 ⊢
    split_ifs at h h8 ⊢ <;> simp_all

theorem finishOutbound_engine (e : NatEngine) (pkt : ParsedPacket)
    (rewritten : UInt16 → ParsedPacket) (eff : Option Effect) :
    (e.finishOutbound pkt rewritten eff).engine = e.apply (eff.getD .skip) := by
  cases eff with
  | none => rfl
  | some eff =>
    simp only [finishOutbound]
    split_ifs <;> rfl

theorem flowKey_of_ports {pkt : ParsedPacket} {ip : Nat} {v : PortView}
    (h : pkt.ports = some (ip, v)) : pkt.flowKey = some (pkt.keyAt ip v) := by
  rw [ParsedPacket.flowKey, h]
  rfl

theorem processOutbound_of_flowEffect {e : NatEngine} {pkt : ParsedPacket} {key : FlowKey}
    {eff : Effect} (hw : e.wanIp.raw ≠ 0) (hkey : pkt.flowKey = some key)
    (h : e.flowEffect key e.currentTick = some eff) (hext : e.external eff ≠ 0) :
    (e.processOutbound pkt).translated = true ∧
      (e.processOutbound pkt).packet.sourcePort = some (e.external eff) := by
  obtain ⟨ip, v, hports, rfl⟩ := ParsedPacket.flowKey_eq_some.mp hkey
  rw [processOutbound_of_ports hw hports, h]
  simp only [finishOutbound, if_neg hext]
  exact ⟨trivial, ParsedPacket.sourcePort_rewriteSource hports _ _⟩

theorem echoKey_of_echo {pkt : ParsedPacket} {ip icmp : Nat} {type : UInt8}
    (h : pkt.echo type = some (ip, icmp)) : pkt.echoKey type = some (pkt.echoKeyAt ip icmp) := by
  rw [ParsedPacket.echoKey, h]
  rfl

theorem processOutbound_of_echoEffect {e : NatEngine} {pkt : ParsedPacket} {key : EchoKey}
    {eff : Effect} (hw : e.wanIp.raw ≠ 0) (hkey : pkt.echoKey 8 = some key)
    (h : e.echoEffect key e.currentTick = some eff) (hext : e.external eff ≠ 0) :
    (e.processOutbound pkt).translated = true ∧
      (e.processOutbound pkt).packet.echoId = some (e.external eff) := by
  obtain ⟨ip, icmp, hecho, rfl⟩ := ParsedPacket.echoKey_eq_some.mp hkey
  have hicmp := ParsedPacket.icmpEcho_of_echoView (ParsedPacket.echo_eq_some.mp hecho).2.2
  rw [processOutbound_of_echo hw hecho, h]
  simp only [finishOutbound, if_neg hext]
  exact ⟨trivial, ParsedPacket.echoId_rewriteEchoSource hicmp _ _⟩

theorem processOutbound_engine (e : NatEngine) (pkt : ParsedPacket) :
    (e.processOutbound pkt).engine = e.apply (e.outboundEffect pkt) := by
  unfold outboundEffect
  split_ifs with hw
  · rw [processOutbound_of_wan hw]
    rfl
  cases hp : pkt.ports with
  | some q =>
    rw [processOutbound_of_ports hw hp, finishOutbound_engine, flowKey_of_ports hp]
  | none =>
    have hk : pkt.flowKey = none := by rw [ParsedPacket.flowKey, hp]; rfl
    cases he : pkt.echo 8 with
    | some q =>
      rw [processOutbound_of_echo hw he, finishOutbound_engine, echoKey_of_echo he, hk]
    | none =>
      have hk8 : pkt.echoKey 8 = none := by rw [ParsedPacket.echoKey, he]; rfl
      rw [processOutbound_of_other hp he, hk, hk8]
      rfl

end NatEngine

/-! ## Inbound -/

def NatSession.Resolves (s : NatSession) (k : FlowKey) : Prop :=
  s.seq &&& 1 = 0 ∧ s.active = true ∧ s.internalKey.daddr = k.saddr ∧
    s.internalKey.dport = k.sport ∧ s.externalPort = k.dport

instance (s : NatSession) (k : FlowKey) : Decidable (s.Resolves k) :=
  inferInstanceAs (Decidable (_ ∧ _))

def IcmpEchoSession.Resolves (s : IcmpEchoSession) (k : EchoKey) : Prop :=
  s.seq &&& 1 = 0 ∧ s.active = true ∧ s.remoteDaddr = k.saddr ∧ s.extIdNbo = k.idNbo

instance (s : IcmpEchoSession) (k : EchoKey) : Decidable (s.Resolves k) :=
  inferInstanceAs (Decidable (_ ∧ _))

namespace NatEngine

theorem retryLoop_resolve (s : NatSession) (k : FlowKey) :
    retryLoop (resolveAttempt s k.saddr k.sport k.dport) 8 =
      if s.Resolves k then some (s.internalKey.saddr, s.internalKey.sport) else none := by
  split_ifs with h
  · obtain ⟨hseq, hact, hda, hdp, hep⟩ := h
    simp [resolveAttempt, retryLoop, hseq, hact, hda, hdp, hep]
  · by_cases hseq : s.seq &&& 1 = 0
    · by_cases hact : s.active = true
      · have hne : s.internalKey.daddr ≠ k.saddr ∨ s.internalKey.dport ≠ k.sport ∨
            s.externalPort ≠ k.dport := by
          by_contra hc
          push Not at hc
          exact h ⟨hseq, hact, hc⟩
        simp [resolveAttempt, retryLoop, hseq, hact, if_pos hne]
      · simp [resolveAttempt, retryLoop, hseq, hact]
    · simp [resolveAttempt, retryLoop, hseq]

theorem retryLoop_resolveIcmp (s : IcmpEchoSession) (k : EchoKey) :
    retryLoop (resolveIcmpAttempt s k.saddr k.idNbo) 8 =
      if s.Resolves k then some (s.intSaddr, s.intIdNbo) else none := by
  split_ifs with h
  · obtain ⟨hseq, hact, hrem, hext⟩ := h
    simp [resolveIcmpAttempt, retryLoop, hseq, hact, hrem, hext]
  · by_cases hseq : s.seq &&& 1 = 0
    · by_cases hact : s.active = true
      · have hne : s.remoteDaddr ≠ k.saddr ∨ s.extIdNbo ≠ k.idNbo := by
          by_contra hc
          push Not at hc
          exact h ⟨hseq, hact, hc⟩
        simp [resolveIcmpAttempt, retryLoop, hseq, hact, if_pos hne]
      · simp [resolveIcmpAttempt, retryLoop, hseq, hact]
    · simp [resolveIcmpAttempt, retryLoop, hseq]

def acceptSlot (e : NatEngine) (k : FlowKey) : Option (Fin maxSessions) :=
  if k.daddr = e.wanIp then
    (slotOf maxSessions (e.portToIndex (ntohs k.dport))).filter fun i => (e.sessions i).Resolves k
  else none

def acceptIcmpSlot (e : NatEngine) (k : EchoKey) : Option (Fin maxIcmpSessions) :=
  if k.daddr = e.wanIp then
    (slotOf maxIcmpSessions (e.icmpIdToIndex (ntohs k.idNbo))).filter fun i =>
      (e.icmpSessions i).Resolves k
  else none

theorem acceptSlot_eq_some {e : NatEngine} {k : FlowKey} {i : Fin maxSessions} :
    e.acceptSlot k = some i ↔ k.daddr = e.wanIp ∧ e.portToIndex (ntohs k.dport) = (i : Nat) ∧
      (e.sessions i).Resolves k := by
  unfold acceptSlot
  split_ifs with hw
  · simp [Option.filter_eq_some_iff, slotOf_eq_some, hw]
  · simp [hw]

theorem acceptIcmpSlot_eq_some {e : NatEngine} {k : EchoKey} {i : Fin maxIcmpSessions} :
    e.acceptIcmpSlot k = some i ↔ k.daddr = e.wanIp ∧
      e.icmpIdToIndex (ntohs k.idNbo) = (i : Nat) ∧ (e.icmpSessions i).Resolves k := by
  unfold acceptIcmpSlot
  split_ifs with hw
  · simp [Option.filter_eq_some_iff, slotOf_eq_some, hw]
  · simp [hw]

theorem processInbound_of_ports {e : NatEngine} {pkt : ParsedPacket} {ip : Nat} {v : PortView}
    (h : pkt.ports = some (ip, v)) :
    e.processInbound pkt =
      match e.acceptSlot (pkt.keyAt ip v) with
      | none => ⟨false, e, pkt⟩
      | some i => ⟨true, e.touchSession e.currentTick i,
          pkt.rewriteDestination ip v (e.sessions i).internalKey.saddr
            (e.sessions i).internalKey.sport⟩ := by
  obtain ⟨hip, -, hv⟩ := ParsedPacket.ports_eq_some.mp h
  obtain ⟨hicmp, hl4⟩ := ParsedPacket.protocol_of_ports h
  simp only [processInbound, hip, if_neg hicmp, if_neg hl4, hv]
  have hr (i : Fin maxSessions) := retryLoop_resolve (e.sessions i) (pkt.keyAt ip v)
  simp only [ParsedPacket.keyAt_saddr, ParsedPacket.keyAt_sport, ParsedPacket.keyAt_dport] at hr
  cases hacc : e.acceptSlot (pkt.keyAt ip v) with
  | some i =>
    obtain ⟨hw, hidx, hres⟩ := acceptSlot_eq_some.mp hacc
    have hslot := slotOf_eq_some.mpr hidx
    rw [ParsedPacket.keyAt_daddr] at hw
    rw [ParsedPacket.keyAt_dport] at hslot
    simp only [hw, hslot, hr, if_pos hres, ne_eq, not_true_eq_false, if_false]
  | none =>
    by_cases hw : IPv4Header.daddr pkt.rawSpan ip = e.wanIp
    · simp only [hw, ne_eq, not_true_eq_false, if_false]
      cases hs : slotOf maxSessions (e.portToIndex (ntohs (load16 pkt.rawSpan v.dest))) with
      | none => rfl
      | some i =>
        have hres : ¬(e.sessions i).Resolves (pkt.keyAt ip v) := fun hres => by
          have hacc' : e.acceptSlot (pkt.keyAt ip v) = some i :=
            acceptSlot_eq_some.mpr ⟨hw, slotOf_eq_some.mp hs, hres⟩
          rw [hacc] at hacc'
          exact absurd hacc' (by simp)
        simp only [hr, if_neg hres]
    · simp only [hw, ne_eq, not_false_eq_true, if_true]

theorem processInbound_of_echo {e : NatEngine} {pkt : ParsedPacket} {ip icmp : Nat}
    (h : pkt.echo 0 = some (ip, icmp)) :
    e.processInbound pkt =
      match e.acceptIcmpSlot (pkt.echoKeyAt ip icmp) with
      | none => ⟨false, e, pkt⟩
      | some i => ⟨true, e.touchIcmpSession e.currentTick i,
          pkt.rewriteEchoDestination ip icmp (e.icmpSessions i).intSaddr
            (e.icmpSessions i).intIdNbo⟩ := by
  obtain ⟨hip, hproto, hv⟩ := ParsedPacket.echo_eq_some.mp h
  simp only [processInbound, hip, if_pos hproto, processInboundIcmp, hv]
  have hr (i : Fin maxIcmpSessions) :=
    retryLoop_resolveIcmp (e.icmpSessions i) (pkt.echoKeyAt ip icmp)
  simp only [ParsedPacket.echoKeyAt_saddr, ParsedPacket.echoKeyAt_idNbo] at hr
  cases hacc : e.acceptIcmpSlot (pkt.echoKeyAt ip icmp) with
  | some i =>
    obtain ⟨hw, hidx, hres⟩ := acceptIcmpSlot_eq_some.mp hacc
    have hslot := slotOf_eq_some.mpr hidx
    rw [ParsedPacket.echoKeyAt_daddr] at hw
    rw [ParsedPacket.echoKeyAt_idNbo] at hslot
    simp only [hw, hslot, hr, if_pos hres, ne_eq, not_true_eq_false, if_false]
  | none =>
    by_cases hw : IPv4Header.daddr pkt.rawSpan ip = e.wanIp
    · simp only [hw, ne_eq, not_true_eq_false, if_false]
      cases hs : slotOf maxIcmpSessions
          (e.icmpIdToIndex (ntohs (load16 pkt.rawSpan (icmp + 4)))) with
      | none => rfl
      | some i =>
        have hres : ¬(e.icmpSessions i).Resolves (pkt.echoKeyAt ip icmp) := fun hres => by
          have hacc' : e.acceptIcmpSlot (pkt.echoKeyAt ip icmp) = some i :=
            acceptIcmpSlot_eq_some.mpr ⟨hw, slotOf_eq_some.mp hs, hres⟩
          rw [hacc] at hacc'
          exact absurd hacc' (by simp)
        simp only [hr, if_neg hres]
    · simp only [hw, ne_eq, not_false_eq_true, if_true]

theorem processInbound_of_other {e : NatEngine} {pkt : ParsedPacket} (h : pkt.ports = none)
    (h0 : pkt.echo 0 = none) : e.processInbound pkt = ⟨false, e, pkt⟩ := by
  unfold ParsedPacket.ports at h
  unfold ParsedPacket.echo at h0
  unfold processInbound processInboundIcmp
  split
  · rfl
  · rename_i ip hip
    simp only [hip] at h h0 ⊢
    split_ifs at h h0 ⊢ <;> simp_all

theorem processInbound_translated_iff {e : NatEngine} {pkt : ParsedPacket}
    (hproto : pkt.l4Protocol ≠ 1) : (e.processInbound pkt).translated = true ↔
      ∃ k i, pkt.flowKey = some k ∧ e.acceptSlot k = some i := by
  cases hports : pkt.ports with
  | some q =>
    rw [processInbound_of_ports hports, flowKey_of_ports hports]
    cases hacc : e.acceptSlot (pkt.keyAt q.1 q.2) <;> simp [hacc]
  | none =>
    have hkey : pkt.flowKey = none := by rw [ParsedPacket.flowKey, hports]; rfl
    have hecho : pkt.echo 0 = none := by
      cases hecho : pkt.echo 0 with
      | none => rfl
      | some q =>
        have hview := (ParsedPacket.echo_eq_some.mp hecho).2.2
        have hicmp := ParsedPacket.icmpEcho_of_echoView hview
        exact absurd (ParsedPacket.l4Protocol_of_icmpEcho hicmp) hproto
    simp [processInbound_of_other hports hecho, hkey]

def inboundEffect (e : NatEngine) (pkt : ParsedPacket) : Effect :=
  match pkt.flowKey, pkt.echoKey 0 with
  | some k, _ => ((e.acceptSlot k).map (Effect.touchSession e.currentTick)).getD .skip
  | none, some k => ((e.acceptIcmpSlot k).map (Effect.touchIcmpSession e.currentTick)).getD .skip
  | none, none => .skip

theorem processInbound_engine (e : NatEngine) (pkt : ParsedPacket) :
    (e.processInbound pkt).engine = e.apply (e.inboundEffect pkt) := by
  unfold inboundEffect
  cases hp : pkt.ports with
  | some q =>
    rw [processInbound_of_ports hp, flowKey_of_ports hp]
    cases hs : e.acceptSlot (pkt.keyAt q.1 q.2) <;> simp only [hs] <;> rfl
  | none =>
    have hk : pkt.flowKey = none := by rw [ParsedPacket.flowKey, hp]; rfl
    cases he : pkt.echo 0 with
    | some q =>
      rw [processInbound_of_echo he, echoKey_of_echo he, hk]
      cases hs : e.acceptIcmpSlot (pkt.echoKeyAt q.1 q.2) <;> simp only [hs] <;> rfl
    | none =>
      have hk0 : pkt.echoKey 0 = none := by rw [ParsedPacket.echoKey, he]; rfl
      rw [processInbound_of_other hp he, hk, hk0]
      rfl

/-! ## Runs -/

end NatEngine

inductive Op
  | outbound (pkt : ParsedPacket)
  | inbound (pkt : ParsedPacket)
  | tick
  | setWanIp (ip : IPv4Net)

namespace NatEngine

def step (e : NatEngine) : Op → NatEngine
  | .outbound pkt => (e.processOutbound pkt).engine
  | .inbound pkt => (e.processInbound pkt).engine
  | .tick => e.tick
  | .setWanIp ip => e.setWanIp ip

def effect (e : NatEngine) : Op → Effect
  | .outbound pkt => e.outboundEffect pkt
  | .inbound pkt => e.inboundEffect pkt
  | .tick => .advance
  | .setWanIp ip => .setWanIp ip

theorem step_eq (e : NatEngine) (op : Op) : e.step op = e.apply (e.effect op) := by
  cases op with
  | outbound pkt => exact processOutbound_engine e pkt
  | inbound pkt => exact processInbound_engine e pkt
  | tick => rfl
  | setWanIp ip => rfl

def run (e : NatEngine) (ops : List Op) : NatEngine := LabelledRun.exec step e ops

end NatEngine
end Hpgtp
