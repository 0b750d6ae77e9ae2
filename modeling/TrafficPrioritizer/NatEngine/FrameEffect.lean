import TrafficPrioritizer.NatEngine.Translation
import TrafficPrioritizer.NatEngine.Frames
import TrafficPrioritizer.Net.HeaderViews

/-! What a call leaves alone, in any engine state: a refused packet as a whole, a
translated one outside the four rewritten fields, and all of the tables but one
session slot and two entries of its index. That a refused TCP or UDP packet leaves the
tables takes that no session has external port zero, which every run keeps. -/

namespace Hpgtp
open ByteBuffer ReverseIndex

def AgreeButOne {ι α : Type*} (f g : ι → α) : Prop := ∃ i, ∀ j, j ≠ i → g j = f j

def AgreeButTwo {ι α : Type*} (f g : ι → α) : Prop := ∃ i i', ∀ j, j ≠ i → j ≠ i' → g j = f j

/-! ## Bytes -/

namespace ParsedPacket

def rewrittenFields (p : ParsedPacket) (dir : Direction) : List HeaderView :=
  match p.ports, p.echo dir.echoType with
  | some (ip, v), _ =>
    [⟨ip + 10, 2⟩, ⟨dir.addrField ip, 4⟩, ⟨dir.portField v, 2⟩, ⟨v.check, 2⟩]
  | none, some (ip, icmp) => [⟨ip + 10, 2⟩, ⟨dir.addrField ip, 4⟩, ⟨icmp + 4, 2⟩, ⟨icmp + 2, 2⟩]
  | none, none => []

end ParsedPacket

theorem HeaderView.outside_of_not_covers {v : HeaderView} {j : Nat} (h : ¬v.Covers j) :
    j < v.offset ∨ v.offset + v.size ≤ j := by
  simp only [HeaderView.Covers] at h
  omega

namespace ParsedPacket
variable {p : ParsedPacket} {dir : Direction} {ip j : Nat} {addr : IPv4Net}

theorem load8_rewriteFlow {v : PortView} {port : UInt16} (hp : p.ports = some (ip, v))
    (hj : ∀ w ∈ p.rewrittenFields dir, ¬w.Covers j) :
    load8 (p.rewriteFlow dir ip v addr port).rawSpan j = load8 p.rawSpan j := by
  simp only [rewrittenFields, hp, List.forall_mem_cons] at hj
  obtain ⟨hsum, haddr, hport, hcheck, -⟩ := hj
  rw [rewriteFlow, withBytes_rawSpan]
  exact load8_rewritePorts_of_disjoint (HeaderView.outside_of_not_covers hsum)
    (HeaderView.outside_of_not_covers haddr) (HeaderView.outside_of_not_covers hport)
    (HeaderView.outside_of_not_covers hcheck)

theorem load8_rewriteEchoId {icmp : Nat} {id : UInt16} (he : p.echo dir.echoType = some (ip, icmp))
    (hj : ∀ w ∈ p.rewrittenFields dir, ¬w.Covers j) :
    load8 (p.rewriteEchoId dir ip icmp addr id).rawSpan j = load8 p.rawSpan j := by
  have hp : p.ports = none := by
    cases hp : p.ports with
    | none => rfl
    | some q =>
      rw [echo_of_ports hp] at he
      cases he
  simp only [rewrittenFields, hp, he, List.forall_mem_cons] at hj
  obtain ⟨hsum, haddr, hid, hcheck, -⟩ := hj
  rw [rewriteEchoId, withBytes_rawSpan]
  exact load8_rewriteEcho_of_disjoint (HeaderView.outside_of_not_covers hsum)
    (HeaderView.outside_of_not_covers haddr) (HeaderView.outside_of_not_covers hid)
    (HeaderView.outside_of_not_covers hcheck)

theorem length_rewriteFlow {v : PortView} {port : UInt16} :
    (p.rewriteFlow dir ip v addr port).rawSpan.length = p.rawSpan.length := by
  rw [rewriteFlow, withBytes_rawSpan, length_rewritePorts]

theorem length_rewriteEchoId {icmp : Nat} {id : UInt16} :
    (p.rewriteEchoId dir ip icmp addr id).rawSpan.length = p.rawSpan.length := by
  rw [rewriteEchoId, withBytes_rawSpan, length_rewriteEcho]

end ParsedPacket

/-! ## Tables -/

namespace NatEngine
open ParsedPacket

structure FlowFrame (e e' : NatEngine) : Prop where
  sessions : AgreeButOne e.sessions e'.sessions
  portToIndex : AgreeButTwo e.portToIndex e'.portToIndex
  echoes : SameEchoes e e'
  wanIp : e'.wanIp = e.wanIp
  currentTick : e'.currentTick = e.currentTick

structure EchoFrame (e e' : NatEngine) : Prop extends EchoOnly e e' where
  icmpSessions : AgreeButOne e.icmpSessions e'.icmpSessions
  icmpIdToIndex : AgreeButTwo e.icmpIdToIndex e'.icmpIdToIndex

section
variable {e : NatEngine} {tick : UInt32}

theorem flowFrame_openSession (key : FlowKey) (idx : Fin maxSessions) :
    FlowFrame e (e.openSession key tick idx) where
  sessions := ⟨idx, fun _ hj => openSession_of_ne e key tick hj⟩
  portToIndex := by
    refine ⟨ntohs (e.sessions idx).externalPort, e.portCursor, fun k hold hnew => ?_⟩
    rw [openSession_portToIndex, Function.update_of_ne hnew]
    split_ifs
    · exact casIndex_apply_of_ne (.inl hold)
    · rfl
  echoes := ⟨rfl, rfl, rfl⟩
  wanIp := rfl
  currentTick := rfl

theorem flowFrame_touchSession (idx : Fin maxSessions) : FlowFrame e (e.touchSession tick idx) where
  sessions := ⟨idx, fun _ hj => touchSession_of_ne e tick hj⟩
  portToIndex := ⟨0, 0, fun _ _ _ => rfl⟩
  echoes := ⟨rfl, rfl, rfl⟩
  wanIp := rfl
  currentTick := rfl

theorem flowFrame_of_flowEffect {key : FlowKey} {eff : Effect}
    (h : e.flowEffect key tick = some eff) : FlowFrame e (e.apply eff) := by
  obtain ⟨a, ha, -⟩ := flowEffect_eq_some.mp h
  obtain ⟨-, rfl⟩ | ⟨-, -, rfl⟩ := slotEffect_eq_some ha
  · exact flowFrame_openSession key _
  · exact flowFrame_touchSession _

/-- The allocation loop writes at most the entry of the id it returns, whatever the index
holds. -/
theorem allocLoop_icmpIdToIndex (n : Nat) {e : NatEngine} {k : UInt16}
    (hk : k ≠ ntohs (allocLoop n e).1) : (allocLoop n e).2.icmpIdToIndex k = e.icmpIdToIndex k := by
  induction n generalizing e with
  | zero => rfl
  | succ n ih =>
    simp only [allocLoop] at hk ⊢
    split_ifs at hk ⊢ with hfree
    · rfl
    · split at hk
      · split_ifs at hk ⊢ with hact
        · rw [ntohs_htons] at hk
          exact casIndex_apply_of_ne (.inl hk)
        · exact ih hk
      · exact ih hk

theorem releaseIcmpSlot_icmpIdToIndex {idx : Fin maxIcmpSessions} {k : UInt16}
    (hk : k ≠ ntohs (e.icmpSessions idx).extIdNbo) :
    (e.releaseIcmpSlot idx).icmpIdToIndex k = e.icmpIdToIndex k := by
  simp only [releaseIcmpSlot]
  split_ifs
  · exact casIndex_apply_of_ne (.inl hk)
  · rfl

theorem echoFrame_openIcmpSession (key : EchoKey) (idx : Fin maxIcmpSessions) :
    EchoFrame e (e.openIcmpSession key tick idx).1 where
  toEchoOnly := openIcmpSession_echoOnly e key tick idx
  icmpSessions := ⟨idx, fun _ hj => openIcmpSession_of_ne e key tick hj⟩
  icmpIdToIndex := by
    refine ⟨ntohs (e.icmpSessions idx).extIdNbo, ntohs (allocLoop 512 (e.releaseIcmpSlot idx)).1,
      fun k hold hnew => ?_⟩
    -- release, allocation and fill in turn, the last two at the same entry
    have hfill : (e.openIcmpSession key tick idx).1.icmpIdToIndex k =
        (allocLoop 512 (e.releaseIcmpSlot idx)).2.icmpIdToIndex k := by
      change (fillIcmpSlot _ key tick idx _).1.icmpIdToIndex k = _
      rw [fillIcmpSlot_icmpIdToIndex]
      split_ifs
      · rfl
      · exact Function.update_of_ne hnew _ _
    rw [hfill, allocLoop_icmpIdToIndex 512 hnew, releaseIcmpSlot_icmpIdToIndex hold]

theorem echoFrame_touchIcmpSession (idx : Fin maxIcmpSessions) :
    EchoFrame e (e.touchIcmpSession tick idx) where
  toEchoOnly := ⟨rfl, rfl, rfl, rfl, rfl⟩
  icmpSessions := ⟨idx, fun _ hj => touchIcmpSession_of_ne e tick hj⟩
  icmpIdToIndex := ⟨0, 0, fun _ _ _ => rfl⟩

theorem echoFrame_of_echoEffect {key : EchoKey} {eff : Effect}
    (h : e.echoEffect key tick = some eff) : EchoFrame e (e.apply eff) := by
  obtain ⟨a, ha, -⟩ := echoEffect_eq_some.mp h
  obtain ⟨-, rfl⟩ | ⟨-, -, rfl⟩ := icmpSlotEffect_eq_some ha
  · exact echoFrame_openIcmpSession key _
  · exact echoFrame_touchIcmpSession _

end

structure Untouched (e : NatEngine) (dir : Direction) (pkt : ParsedPacket) (o : Outcome) :
    Prop where
  packet : o.packet = pkt
  inbound : dir = .inbound → o.engine = e

structure Touched (e : NatEngine) (dir : Direction) (pkt : ParsedPacket) (o : Outcome) : Prop where
  length : o.packet.rawSpan.length = pkt.rawSpan.length
  bytes : ∀ j, (∀ v ∈ pkt.rewrittenFields dir, ¬v.Covers j) →
    load8 o.packet.rawSpan j = load8 pkt.rawSpan j
  outboundFlow : dir = .outbound → pkt.l4Protocol ≠ 1 → FlowFrame e o.engine
  outboundEcho : dir = .outbound → pkt.l4Protocol = 1 → EchoFrame e o.engine
  inbound : dir = .inbound → (∃ i, o.engine = e.touchSession e.currentTick i) ∨
    ∃ i, o.engine = e.touchIcmpSession e.currentTick i

theorem CallOf.untouched {e : NatEngine} {dir : Direction} {pkt : ParsedPacket} {o : Outcome}
    (h : CallOf e pkt dir o) (hr : o.translated = false) : Untouched e dir pkt o := by
  cases h with
  | refused => exact ⟨rfl, fun _ => rfl⟩
  | portless | idless => exact ⟨rfl, nofun⟩
  | flowOut | echoOut | flowIn | echoIn => cases hr

theorem CallOf.flow_untouched {e : NatEngine} {dir : Direction} {pkt : ParsedPacket} {o : Outcome}
    (h : CallOf e pkt dir o) (hr : o.translated = false) (hports : e.PortsNonzero)
    (hflow : pkt.l4Protocol ≠ 1) : o.engine = e := by
  cases h with
  | refused => rfl
  | portless hp heff hzero => exact absurd hzero (hports.external heff)
  | idless he heff hzero =>
    have hicmp := l4Protocol_of_icmpEcho (icmpEcho_of_echoView (echo_eq_some.mp he).2.2)
    exact absurd hicmp hflow
  | flowOut | echoOut | flowIn | echoIn => cases hr

theorem CallOf.touched {e : NatEngine} {dir : Direction} {pkt : ParsedPacket} {o : Outcome}
    (h : CallOf e pkt dir o) (ht : o.translated = true) : Touched e dir pkt o := by
  cases h with
  | refused | portless | idless => cases ht
  | flowOut hw hp heff hext =>
    exact ⟨length_rewriteFlow, fun j hj => load8_rewriteFlow hp hj,
      fun _ _ => flowFrame_of_flowEffect heff, fun _ hicmp => absurd hicmp (l4Protocol_of_ports hp),
      nofun⟩
  | echoOut hw he heff hext =>
    have hicmp := l4Protocol_of_icmpEcho (icmpEcho_of_echoView (echo_eq_some.mp he).2.2)
    exact ⟨length_rewriteEchoId, fun j hj => load8_rewriteEchoId he hj,
      fun _ hother => absurd hicmp hother, fun _ _ => echoFrame_of_echoEffect heff, nofun⟩
  | flowIn hp hacc =>
    exact ⟨length_rewriteFlow, fun j hj => load8_rewriteFlow hp hj, nofun, nofun,
      fun _ => .inl ⟨_, rfl⟩⟩
  | echoIn he hacc =>
    exact ⟨length_rewriteEchoId, fun j hj => load8_rewriteEchoId he hj, nofun, nofun,
      fun _ => .inr ⟨_, rfl⟩⟩

theorem call_touches_only (e : NatEngine) (dir : Direction) (pkt : ParsedPacket) :
    ((e.process dir pkt).translated = false → Untouched e dir pkt (e.process dir pkt)) ∧
      ((e.process dir pkt).translated = true → Touched e dir pkt (e.process dir pkt)) ∧
      ∀ ops, e = new.run ops → (e.process dir pkt).translated = false → pkt.l4Protocol ≠ 1 →
        (e.process dir pkt).engine = e := by
  refine ⟨(callOf e dir pkt).untouched, (callOf e dir pkt).touched, ?_⟩
  rintro ops rfl hr hflow
  exact (callOf (new.run ops) dir pkt).flow_untouched hr (flowsOk_new.run ops).portsNonzero hflow

theorem call_touches_only_dns :
    let query := parse (makeUdpPkt (octets 192 168 1 10) (octets 9 9 9 9) 5000 53)
    let answer := parse (makeUdpPkt (octets 9 9 9 9) (octets 203 0 113 1) 53 10000)
    let stray := parse (makeUdpPkt (octets 8 8 8 8) (octets 203 0 113 1) 53 10000)
    let ops : List Op := [.setWanIp (octets 203 0 113 1), .outbound query]
    let e := new.run ops
    (e.process .inbound answer).translated = true ∧
      Touched e .inbound answer (e.process .inbound answer) ∧
      (e.process .inbound stray).translated = false ∧
      Untouched e .inbound stray (e.process .inbound stray) ∧
      (e.process .inbound stray).engine = e := by
  intro query answer stray ops e
  have htr : (e.process .inbound answer).translated = true := by decide +kernel
  have href : (e.process .inbound stray).translated = false := by decide +kernel
  exact ⟨htr, (call_touches_only e .inbound answer).2.1 htr, href,
    (call_touches_only e .inbound stray).1 href,
    (call_touches_only e .inbound stray).2.2 ops rfl href (by decide +kernel)⟩

end NatEngine
end Hpgtp
