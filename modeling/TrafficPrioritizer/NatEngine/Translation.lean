import TrafficPrioritizer.NatEngine.Tables

/-! Both directions of the translation at once: what the tables hold for a packet,
and the rewritten packet as a function of that. -/

namespace Hpgtp
open ByteBuffer

inductive Direction
  | outbound
  | inbound
  deriving DecidableEq

namespace Direction

def addrField : Direction → Nat → Nat
  | .outbound, ip => ip + 12
  | .inbound, ip => ip + 16

def portField : Direction → PortView → Nat
  | .outbound, v => v.source
  | .inbound, v => v.dest

def addr : Direction → FlowKey → IPv4Net
  | .outbound, key => key.saddr
  | .inbound, key => key.daddr

def port : Direction → FlowKey → UInt16
  | .outbound, key => key.sport
  | .inbound, key => key.dport

def echoType : Direction → UInt8
  | .outbound => 8
  | .inbound => 0

theorem addrField_cases (dir : Direction) (ip : Nat) :
    dir.addrField ip = ip + 12 ∨ dir.addrField ip = ip + 16 := by
  cases dir with
  | outbound => exact .inl rfl
  | inbound => exact .inr rfl

theorem portField_cases (dir : Direction) (v : PortView) :
    dir.portField v = v.source ∨ dir.portField v = v.dest := by
  cases dir with
  | outbound => exact .inl rfl
  | inbound => exact .inr rfl

end Direction

namespace ParsedPacket

def rewriteFlow (p : ParsedPacket) (dir : Direction) (ip : Nat) (v : PortView) (addr : IPv4Net)
    (port : UInt16) : ParsedPacket :=
  p.withBytes (rewritePorts p.rawSpan ip (dir.addrField ip) (dir.portField v) v.check addr port)
    (length_rewritePorts ..)

def rewriteEchoId (p : ParsedPacket) (dir : Direction) (ip icmp : Nat) (addr : IPv4Net)
    (id : UInt16) : ParsedPacket :=
  p.withBytes (rewriteEcho p.rawSpan ip (dir.addrField ip) icmp addr id) (length_rewriteEcho ..)

theorem echo_of_ports {p : ParsedPacket} {ip : Nat} {v : PortView} {type : UInt8}
    (h : p.ports = some (ip, v)) : p.echo type = none := by
  cases he : p.echo type with
  | none => rfl
  | some q =>
    have hview := (echo_eq_some.mp he).2.2
    exact absurd (l4Protocol_of_icmpEcho (icmpEcho_of_echoView hview)) (l4Protocol_of_ports h)

end ParsedPacket

namespace NatEngine
open ParsedPacket

def process (e : NatEngine) : Direction → ParsedPacket → Outcome
  | .outbound, pkt => e.processOutbound pkt
  | .inbound, pkt => e.processInbound pkt

def FlowPort (e : NatEngine) (key : FlowKey) (port : UInt16) : Prop :=
  ∃ a, (∀ b < a, (e.sessions (probeSlot key b)).reusable e.currentTick = false ∧
      (e.sessions (probeSlot key b)).internalKey ≠ key) ∧
    ((e.sessions (probeSlot key a)).reusable e.currentTick = true ∧ port = htons e.portCursor ∨
      (e.sessions (probeSlot key a)).reusable e.currentTick = false ∧
        (e.sessions (probeSlot key a)).internalKey = key ∧
        port = (e.sessions (probeSlot key a)).externalPort)

def EchoId (e : NatEngine) (key : EchoKey) (id : UInt16) : Prop :=
  ∃ a, (∀ b < a, (e.icmpSessions (probeIcmpSlot key b)).reusable e.currentTick = false ∧
      (e.icmpSessions (probeIcmpSlot key b)).key ≠ key) ∧
    ((e.icmpSessions (probeIcmpSlot key a)).reusable e.currentTick = true ∧
        id = (e.releaseIcmpSlot (probeIcmpSlot key a)).allocExternalIcmpId.1 ∨
      (e.icmpSessions (probeIcmpSlot key a)).reusable e.currentTick = false ∧
        (e.icmpSessions (probeIcmpSlot key a)).key = key ∧
        id = (e.icmpSessions (probeIcmpSlot key a)).extIdNbo)

def FlowTarget (e : NatEngine) : Direction → FlowKey → IPv4Net → UInt16 → Prop
  | .outbound, key, addr, port =>
    e.wanIp.raw ≠ 0 ∧ addr = e.wanIp ∧ port ≠ 0 ∧ e.FlowPort key port
  | .inbound, key, addr, port => ∃ i, e.acceptSlot key = some i ∧
      addr = (e.sessions i).internalKey.saddr ∧ port = (e.sessions i).internalKey.sport

def EchoTarget (e : NatEngine) : Direction → EchoKey → IPv4Net → UInt16 → Prop
  | .outbound, key, addr, id => e.wanIp.raw ≠ 0 ∧ addr = e.wanIp ∧ id ≠ 0 ∧ e.EchoId key id
  | .inbound, key, addr, id => ∃ i, e.acceptIcmpSlot key = some i ∧
      addr = (e.icmpSessions i).intSaddr ∧ id = (e.icmpSessions i).intIdNbo

theorem flowPort_iff {e : NatEngine} {key : FlowKey} {port : UInt16} :
    e.FlowPort key port ↔ ∃ eff, e.flowEffect key e.currentTick = some eff ∧
      e.external eff = port := by
  constructor
  · rintro ⟨a, hfirst, hslot⟩
    have hnone : ∀ b < a, e.slotEffect key e.currentTick (probeSlot key b) = none :=
      fun b hb => slotEffect_eq_none.mpr (hfirst b hb)
    rcases hslot with ⟨hr, rfl⟩ | ⟨hr, hkey, rfl⟩
    · exact ⟨_, flowEffect_eq_some.mpr ⟨a, slotEffect_of_reusable hr, hnone⟩, rfl⟩
    · exact ⟨_, flowEffect_eq_some.mpr ⟨a, slotEffect_of_live hr hkey, hnone⟩, rfl⟩
  · rintro ⟨eff, heff, rfl⟩
    obtain ⟨a, ha, hnone⟩ := flowEffect_eq_some.mp heff
    refine ⟨a, fun b hb => slotEffect_eq_none.mp (hnone b hb), ?_⟩
    obtain ⟨hr, rfl⟩ | ⟨hr, hkey, rfl⟩ := slotEffect_eq_some ha
    · exact .inl ⟨hr, rfl⟩
    · exact .inr ⟨hr, hkey, rfl⟩

theorem icmpSlotEffect_eq_none {e : NatEngine} {key : EchoKey} {tick : UInt32}
    {idx : Fin maxIcmpSessions} : e.icmpSlotEffect key tick idx = none ↔
      (e.icmpSessions idx).reusable tick = false ∧ (e.icmpSessions idx).key ≠ key := by
  unfold icmpSlotEffect
  split_ifs with hr hk <;> simp_all

theorem echoId_iff {e : NatEngine} {key : EchoKey} {id : UInt16} :
    e.EchoId key id ↔ ∃ eff, e.echoEffect key e.currentTick = some eff ∧ e.external eff = id := by
  constructor
  · rintro ⟨a, hfirst, hslot⟩
    have hnone : ∀ b < a, e.icmpSlotEffect key e.currentTick (probeIcmpSlot key b) = none :=
      fun b hb => icmpSlotEffect_eq_none.mpr (hfirst b hb)
    rcases hslot with ⟨hr, rfl⟩ | ⟨hr, hkey, rfl⟩
    · exact ⟨_, echoEffect_eq_some.mpr ⟨a, if_pos hr, hnone⟩, openIcmpSession_snd ..⟩
    · refine ⟨.touchIcmpSession e.currentTick (probeIcmpSlot key a),
        echoEffect_eq_some.mpr ⟨a, ?_, hnone⟩, rfl⟩
      rw [icmpSlotEffect, if_neg (by rw [hr]; decide), if_pos hkey]
  · rintro ⟨eff, heff, rfl⟩
    obtain ⟨a, ha, hnone⟩ := echoEffect_eq_some.mp heff
    refine ⟨a, fun b hb => icmpSlotEffect_eq_none.mp (hnone b hb), ?_⟩
    obtain ⟨hr, rfl⟩ | ⟨hr, hkey, rfl⟩ := icmpSlotEffect_eq_some ha
    · exact .inl ⟨hr, openIcmpSession_snd ..⟩
    · exact .inr ⟨hr, hkey, rfl⟩

/-! ## The outcome of a call -/

/-- Every outcome of a call, with what the call has found in the tables. A slot that gives the
port or id zero is written all the same, and the packet refused. -/
inductive CallOf (e : NatEngine) (pkt : ParsedPacket) : Direction → Outcome → Prop
  | refused (dir : Direction) : CallOf e pkt dir ⟨false, e, pkt⟩
  | portless {ip : Nat} {v : PortView} {eff : Effect} (ports : pkt.ports = some (ip, v))
      (effect : e.flowEffect (pkt.keyAt ip v) e.currentTick = some eff)
      (zero : e.external eff = 0) : CallOf e pkt .outbound ⟨false, e.apply eff, pkt⟩
  | idless {ip icmp : Nat} {eff : Effect} (echo : pkt.echo 8 = some (ip, icmp))
      (effect : e.echoEffect (pkt.echoKeyAt ip icmp) e.currentTick = some eff)
      (zero : e.external eff = 0) : CallOf e pkt .outbound ⟨false, e.apply eff, pkt⟩
  | flowOut {ip : Nat} {v : PortView} {eff : Effect} (wan : e.wanIp.raw ≠ 0)
      (ports : pkt.ports = some (ip, v))
      (effect : e.flowEffect (pkt.keyAt ip v) e.currentTick = some eff)
      (nonzero : e.external eff ≠ 0) : CallOf e pkt .outbound
        ⟨true, e.apply eff, pkt.rewriteFlow .outbound ip v e.wanIp (e.external eff)⟩
  | echoOut {ip icmp : Nat} {eff : Effect} (wan : e.wanIp.raw ≠ 0)
      (echo : pkt.echo 8 = some (ip, icmp))
      (effect : e.echoEffect (pkt.echoKeyAt ip icmp) e.currentTick = some eff)
      (nonzero : e.external eff ≠ 0) : CallOf e pkt .outbound
        ⟨true, e.apply eff, pkt.rewriteEchoId .outbound ip icmp e.wanIp (e.external eff)⟩
  | flowIn {ip : Nat} {v : PortView} {i : Fin maxSessions} (ports : pkt.ports = some (ip, v))
      (accepted : e.acceptSlot (pkt.keyAt ip v) = some i) : CallOf e pkt .inbound
        ⟨true, e.touchSession e.currentTick i, pkt.rewriteFlow .inbound ip v
          (e.sessions i).internalKey.saddr (e.sessions i).internalKey.sport⟩
  | echoIn {ip icmp : Nat} {i : Fin maxIcmpSessions} (echo : pkt.echo 0 = some (ip, icmp))
      (accepted : e.acceptIcmpSlot (pkt.echoKeyAt ip icmp) = some i) : CallOf e pkt .inbound
        ⟨true, e.touchIcmpSession e.currentTick i, pkt.rewriteEchoId .inbound ip icmp
          (e.icmpSessions i).intSaddr (e.icmpSessions i).intIdNbo⟩

theorem callOf_outbound (e : NatEngine) (pkt : ParsedPacket) :
    CallOf e pkt .outbound (e.processOutbound pkt) := by
  by_cases hw : e.wanIp.raw = 0
  · rw [processOutbound_of_wan hw]
    exact .refused _
  cases hp : pkt.ports with
  | some q =>
    rw [processOutbound_of_ports hw hp]
    cases heff : e.flowEffect (pkt.keyAt q.1 q.2) e.currentTick with
    | none => exact .refused _
    | some eff =>
      rw [finishOutbound]
      split_ifs with hext
      · exact .portless hp heff hext
      · exact .flowOut hw hp heff hext
  | none =>
    cases he : pkt.echo 8 with
    | some q =>
      rw [processOutbound_of_echo hw he]
      cases heff : e.echoEffect (pkt.echoKeyAt q.1 q.2) e.currentTick with
      | none => exact .refused _
      | some eff =>
        rw [finishOutbound]
        split_ifs with hext
        · exact .idless he heff hext
        · exact .echoOut hw he heff hext
    | none =>
      rw [processOutbound_of_other hp he]
      exact .refused _

theorem callOf_inbound (e : NatEngine) (pkt : ParsedPacket) :
    CallOf e pkt .inbound (e.processInbound pkt) := by
  cases hp : pkt.ports with
  | some q =>
    rw [processInbound_of_ports hp]
    cases hacc : e.acceptSlot (pkt.keyAt q.1 q.2) with
    | none => exact .refused _
    | some i => exact .flowIn hp hacc
  | none =>
    cases he : pkt.echo 0 with
    | some q =>
      rw [processInbound_of_echo he]
      cases hacc : e.acceptIcmpSlot (pkt.echoKeyAt q.1 q.2) with
      | none => exact .refused _
      | some i => exact .echoIn he hacc
    | none =>
      rw [processInbound_of_other hp he]
      exact .refused _

theorem callOf (e : NatEngine) (dir : Direction) (pkt : ParsedPacket) :
    CallOf e pkt dir (e.process dir pkt) := by
  cases dir with
  | outbound => exact callOf_outbound e pkt
  | inbound => exact callOf_inbound e pkt

section
variable {e : NatEngine} {dir : Direction} {pkt : ParsedPacket}

theorem process_of_flowTarget {ip : Nat} {v : PortView} {addr : IPv4Net} {port : UInt16}
    (hp : pkt.ports = some (ip, v)) (ht : e.FlowTarget dir (pkt.keyAt ip v) addr port) :
    (e.process dir pkt).translated = true ∧
      (e.process dir pkt).packet = pkt.rewriteFlow dir ip v addr port := by
  cases dir with
  | outbound =>
    obtain ⟨hw, rfl, hport, hflow⟩ := ht
    obtain ⟨eff, heff, rfl⟩ := flowPort_iff.mp hflow
    rw [process, processOutbound_of_ports hw hp, heff]
    simp only [finishOutbound, if_neg hport]
    exact ⟨trivial, rfl⟩
  | inbound =>
    obtain ⟨i, hacc, rfl, rfl⟩ := ht
    rw [process, processInbound_of_ports hp, hacc]
    exact ⟨rfl, rfl⟩

theorem process_of_echoTarget {ip icmp : Nat} {addr : IPv4Net} {id : UInt16}
    (he : pkt.echo dir.echoType = some (ip, icmp))
    (ht : e.EchoTarget dir (pkt.echoKeyAt ip icmp) addr id) :
    (e.process dir pkt).translated = true ∧
      (e.process dir pkt).packet = pkt.rewriteEchoId dir ip icmp addr id := by
  cases dir with
  | outbound =>
    obtain ⟨hw, rfl, hid, hecho⟩ := ht
    obtain ⟨eff, heff, rfl⟩ := echoId_iff.mp hecho
    rw [process, processOutbound_of_echo hw he, heff]
    simp only [finishOutbound, if_neg hid]
    exact ⟨trivial, rfl⟩
  | inbound =>
    obtain ⟨i, hacc, rfl, rfl⟩ := ht
    rw [process, processInbound_of_echo he, hacc]
    exact ⟨rfl, rfl⟩

theorem translated_iff {Q : ParsedPacket → Prop} :
    ((e.process dir pkt).translated = true → Q (e.process dir pkt).packet) ↔
      (∀ ip v addr port, pkt.ports = some (ip, v) →
        e.FlowTarget dir (pkt.keyAt ip v) addr port → Q (pkt.rewriteFlow dir ip v addr port)) ∧
      ∀ ip icmp addr id, pkt.echo dir.echoType = some (ip, icmp) →
        e.EchoTarget dir (pkt.echoKeyAt ip icmp) addr id →
          Q (pkt.rewriteEchoId dir ip icmp addr id) := by
  constructor
  · intro h
    refine ⟨fun ip v addr port hp ht => ?_, fun ip icmp addr id he ht => ?_⟩
    · obtain ⟨htr, hpkt⟩ := process_of_flowTarget hp ht
      exact hpkt ▸ h htr
    · obtain ⟨htr, hpkt⟩ := process_of_echoTarget he ht
      exact hpkt ▸ h htr
  · rintro ⟨hflow, hecho⟩ htr
    have hcall := callOf e dir pkt
    generalize e.process dir pkt = o at htr hcall ⊢
    cases hcall with
    | refused | portless | idless => cases htr
    | flowOut hw hp heff hext =>
      exact hflow _ _ _ _ hp ⟨hw, rfl, hext, flowPort_iff.mpr ⟨_, heff, rfl⟩⟩
    | echoOut hw he heff hext =>
      exact hecho _ _ _ _ he ⟨hw, rfl, hext, echoId_iff.mpr ⟨_, heff, rfl⟩⟩
    | flowIn hp hacc => exact hflow _ _ _ _ hp ⟨_, hacc, rfl, rfl⟩
    | echoIn he hacc => exact hecho _ _ _ _ he ⟨_, hacc, rfl, rfl⟩

theorem translated_iff_targets {Q : ParsedPacket → Prop}
    {F : FlowKey → IPv4Net → UInt16 → Prop} {E : EchoKey → IPv4Net → UInt16 → Prop}
    (hflow : ∀ ip v addr port, pkt.ports = some (ip, v) →
      e.FlowTarget dir (pkt.keyAt ip v) addr port →
        (Q (pkt.rewriteFlow dir ip v addr port) ↔ F (pkt.keyAt ip v) addr port))
    (hecho : ∀ ip icmp addr id, pkt.echo dir.echoType = some (ip, icmp) →
      e.EchoTarget dir (pkt.echoKeyAt ip icmp) addr id →
        (Q (pkt.rewriteEchoId dir ip icmp addr id) ↔ E (pkt.echoKeyAt ip icmp) addr id)) :
    ((e.process dir pkt).translated = true → Q (e.process dir pkt).packet) ↔
      (∀ key addr port, pkt.flowKey = some key → e.FlowTarget dir key addr port →
        F key addr port) ∧
      ∀ key addr id, pkt.echoKey dir.echoType = some key → e.EchoTarget dir key addr id →
        E key addr id := by
  rw [translated_iff]
  refine and_congr ⟨?_, ?_⟩ ⟨?_, ?_⟩
  · intro h key addr port hkey ht
    obtain ⟨ip, v, hp, rfl⟩ := flowKey_eq_some.mp hkey
    exact (hflow ip v addr port hp ht).mp (h ip v addr port hp ht)
  · intro h ip v addr port hp ht
    exact (hflow ip v addr port hp ht).mpr (h _ addr port (flowKey_of_ports hp) ht)
  · intro h key addr id hkey ht
    obtain ⟨ip, icmp, he, rfl⟩ := echoKey_eq_some.mp hkey
    exact (hecho ip icmp addr id he ht).mp (h ip icmp addr id he ht)
  · intro h ip icmp addr id he ht
    exact (hecho ip icmp addr id he ht).mpr (h _ addr id (echoKey_of_echo he) ht)

theorem translated_iff_flowTargets {Q : ParsedPacket → Prop}
    {F : FlowKey → IPv4Net → UInt16 → Prop} (hecho : pkt.echo dir.echoType = none)
    (hflow : ∀ ip v addr port, pkt.ports = some (ip, v) →
      e.FlowTarget dir (pkt.keyAt ip v) addr port →
        (Q (pkt.rewriteFlow dir ip v addr port) ↔ F (pkt.keyAt ip v) addr port)) :
    ((e.process dir pkt).translated = true → Q (e.process dir pkt).packet) ↔
      ∀ key addr port, pkt.flowKey = some key → e.FlowTarget dir key addr port →
        F key addr port := by
  rw [translated_iff_targets (E := fun _ _ _ => True) hflow]
  · simp only [implies_true, and_true]
  · intro ip icmp addr id he
    rw [hecho] at he
    cases he

end

end NatEngine
end Hpgtp
