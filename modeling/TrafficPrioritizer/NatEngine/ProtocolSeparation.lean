import TrafficPrioritizer.NatEngine.Tables
import TrafficPrioritizer.NatEngine.Frames

/-! TCP and UDP share one session table under a key without a protocol. An outbound
packet of one protocol opens the port it is given for the other as well. -/

namespace Hpgtp
open ReverseIndex

namespace NatEngine

def Separated (e : NatEngine) (pkt : ParsedPacket) (q : UInt8) : Prop :=
  ∀ u : ParsedPacket, u.l4Protocol = q → (e.processInbound u).translated = false →
    ((e.processOutbound pkt).engine.processInbound u).translated = false

def CursorLeadsToRemote (e : NatEngine) (pkt : ParsedPacket) : Prop :=
  ∃ key i, pkt.flowKey = some key ∧ e.portToIndex e.portCursor = ((i : Fin maxSessions) : Nat) ∧
    (e.sessions i).active = true ∧ (e.sessions i).internalKey.daddr = key.daddr ∧
    (e.sessions i).internalKey.dport = key.dport

def openedKey (e : NatEngine) (key : FlowKey) : FlowKey :=
  ⟨key.daddr, e.wanIp, key.dport, htons e.portCursor⟩

section
variable {e : NatEngine} {key : FlowKey} {tick : UInt32} {idx : Fin maxSessions}

theorem acceptSlot_touchSession (k : FlowKey) :
    (e.touchSession tick idx).acceptSlot k = e.acceptSlot k := by
  have hres (i) : ((e.touchSession tick idx).sessions i).Resolves k ↔ (e.sessions i).Resolves k := by
    rw [touchSession_eq]
    rfl
  refine Option.ext fun i => ?_
  rw [acceptSlot_eq_some, acceptSlot_eq_some, hres]
  rfl

theorem acceptSlot_openedKey (hok : e.FlowsOk) :
    (e.openSession key tick idx).acceptSlot (e.openedKey key) = some idx := by
  refine acceptSlot_eq_some.mpr ⟨rfl, ?_, ?_⟩
  · rw [openSession_portToIndex, openedKey, ntohs_htons, Function.update_self]
  · rw [openSession_self]
    exact ⟨even_add_two (hok.seq idx), rfl, rfl, rfl, rfl⟩

theorem acceptSlot_openSession {k : FlowKey} {i : Fin maxSessions}
    (h : (e.openSession key tick idx).acceptSlot k = some i) :
    k = e.openedKey key ∨ e.acceptSlot k = some i := by
  obtain ⟨hw, hidx, hres⟩ := acceptSlot_eq_some.mp h
  by_cases hi : i = idx
  · subst hi
    rw [openSession_self] at hres
    obtain ⟨-, -, hda, hdp, hport⟩ := hres
    refine .inl ?_
    cases k
    simp only [openedKey, FlowKey.mk.injEq]
    exact ⟨hda.symm, hw, hdp.symm, hport.symm⟩
  · rw [openSession_of_ne e key tick hi] at hres
    rw [openSession_portToIndex] at hidx
    refine .inr (acceptSlot_eq_some.mpr ⟨hw, ?_, hres⟩)
    have hport : ntohs k.dport ≠ e.portCursor := by
      intro hc
      rw [hc, Function.update_self] at hidx
      exact hi (Fin.ext (by omega))
    rw [Function.update_of_ne hport] at hidx
    split_ifs at hidx
    · -- an entry that still names another slot has not been released
      unfold casIndex at hidx
      split_ifs at hidx
      · by_cases hold : ntohs k.dport = ntohs (e.sessions idx).externalPort
        · rw [hold, Function.update_self] at hidx
          omega
        · rwa [Function.update_of_ne hold] at hidx
      · exact hidx
    · exact hidx

end

theorem acceptSlot_openedKey_iff {e : NatEngine} (hok : e.FlowsOk) {pkt : ParsedPacket}
    {key : FlowKey} (hkey : pkt.flowKey = some key) :
    (∃ i, e.acceptSlot (e.openedKey key) = some i) ↔ e.CursorLeadsToRemote pkt := by
  constructor
  · rintro ⟨i, hacc⟩
    obtain ⟨-, hidx, -, hact, hda, hdp, -⟩ := acceptSlot_eq_some.mp hacc
    rw [openedKey, ntohs_htons] at hidx
    exact ⟨key, i, hkey, hidx, hact, hda, hdp⟩
  · rintro ⟨key', i, hkey', hidx, hact, hda, hdp⟩
    obtain rfl := Option.some.inj (hkey.symm.trans hkey')
    have hport := (hok.index.owner hidx).2
    refine ⟨i, acceptSlot_eq_some.mpr ⟨rfl, ?_, hok.seq i, hact, hda, hdp, ?_⟩⟩
    · rw [openedKey, ntohs_htons]
      exact hidx
    · rw [openedKey, ← hport, htons_ntohs]

theorem acceptSlot_of_same {e e' : NatEngine} (hs : SameFlows e e') (hw : e'.wanIp = e.wanIp)
    (k : FlowKey) : e'.acceptSlot k = e.acceptSlot k := by
  unfold acceptSlot
  rw [hs.1, hs.2.1, hw]

theorem accept_after_outbound {e : NatEngine} {pkt : ParsedPacket} {k : FlowKey}
    {i : Fin maxSessions} (h : (e.processOutbound pkt).engine.acceptSlot k = some i) :
    e.acceptSlot k = some i ∨
      e.OpensSession pkt ∧ ∃ key, pkt.flowKey = some key ∧ k = e.openedKey key := by
  rw [processOutbound_engine] at h
  have heff := effectOf_outbound e pkt
  generalize e.outboundEffect pkt = eff at heff h
  cases heff with
  | @openFlow _ key a hw hkey hr hfirst =>
    rcases acceptSlot_openSession h with hk | hacc
    · exact .inr ⟨⟨hw, key, hkey, a, hr, fun b hb => slotEffect_eq_none.mp (hfirst b hb)⟩,
        key, hkey, hk⟩
    · exact .inl hacc
  | touchFlow _ _ _ _ _ =>
    rw [← h]
    exact .inl (acceptSlot_touchSession k).symm
  | _ =>
    rw [← h]
    exact .inl (acceptSlot_of_same (sameFlows_apply e rfl)
      (apply_wanIp e (by simp)) k).symm

theorem exists_packet (k : FlowKey) {q : UInt8} (hq : q = 6 ∨ q = 17) :
    ∃ u : ParsedPacket, u.flowKey = some k ∧ u.l4Protocol = q := by
  rcases hq with rfl | rfl
  · have h := flowKey_makeTcpPkt k.saddr k.daddr (ntohs k.sport) (ntohs k.dport) 0
    simp only [htons_ntohs] at h
    exact ⟨_, h⟩
  · have h := flowKey_makeUdpPkt k.saddr k.daddr (ntohs k.sport) (ntohs k.dport)
    simp only [htons_ntohs] at h
    exact ⟨_, h⟩

theorem FlowsOk.separated_iff {e : NatEngine} (hok : e.FlowsOk) (pkt : ParsedPacket) {q : UInt8}
    (hq : q = 6 ∨ q = 17) :
    e.Separated pkt q ↔ ¬e.OpensSession pkt ∨ e.CursorLeadsToRemote pkt := by
  have hicmp (u : ParsedPacket) (hu : u.l4Protocol = q) : u.l4Protocol ≠ 1 := by
    rw [hu]
    rcases hq with rfl | rfl <;> decide
  constructor
  · -- otherwise the packet to the new port from the remote end was refused and is translated now
    intro hsep
    by_contra hc
    push Not at hc
    obtain ⟨hopen, hleads⟩ := hc
    obtain ⟨key, idx, hkey, heff⟩ := hopen.effect
    obtain ⟨u, hu, hproto⟩ := exists_packet (e.openedKey key) hq
    have hbefore : (e.processInbound u).translated = false := by
      rw [Bool.eq_false_iff, Ne, processInbound_translated_iff (hicmp u hproto)]
      rintro ⟨k, i, hk, hacc⟩
      obtain rfl := Option.some.inj (hu.symm.trans hk)
      exact hleads ((acceptSlot_openedKey_iff hok hkey).mp ⟨i, hacc⟩)
    have hafter : ((e.processOutbound pkt).engine.processInbound u).translated = true := by
      rw [processInbound_translated_iff (hicmp u hproto), processOutbound_engine, heff]
      exact ⟨_, idx, hu, acceptSlot_openedKey hok⟩
    rw [hsep u hproto hbefore] at hafter
    exact absurd hafter (by decide)
  · intro hcond u hproto hbefore
    rw [Bool.eq_false_iff, Ne, processInbound_translated_iff (hicmp u hproto)] at hbefore ⊢
    rintro ⟨k, i, hk, hacc⟩
    rcases accept_after_outbound hacc with hacc | ⟨hopen, key, hkey, rfl⟩
    · exact hbefore ⟨k, i, hk, hacc⟩
    · obtain ⟨j, hj⟩ := (acceptSlot_openedKey_iff hok hkey).mpr (hcond.resolve_left (not_not_intro hopen))
      exact hbefore ⟨_, j, hk, hj⟩

/-- After every run, sending a TCP packet keeps refusing what was refused of UDP exactly when it
opens no session or is given a port that already leads to its remote end; and so does UDP for
TCP. -/
theorem protocols_separated_iff (ops : List Op) (pkt : ParsedPacket) :
    (pkt.l4Protocol = 6 → ((new.run ops).Separated pkt 17 ↔
      ¬(new.run ops).OpensSession pkt ∨ (new.run ops).CursorLeadsToRemote pkt)) ∧
    (pkt.l4Protocol = 17 → ((new.run ops).Separated pkt 6 ↔
      ¬(new.run ops).OpensSession pkt ∨ (new.run ops).CursorLeadsToRemote pkt)) :=
  ⟨fun _ => (flowsOk_new.run ops).separated_iff pkt (.inr rfl),
    fun _ => (flowsOk_new.run ops).separated_iff pkt (.inl rfl)⟩

theorem protocols_separated_second_packet :
    let pkt := ParsedPacket.parse (makeTcpPkt (octets 192 168 1 10) (octets 9 9 9 9) 5000 443 2)
    (new.run [.setWanIp (octets 203 0 113 1), .outbound pkt]).Separated pkt 17 := by
  intro pkt
  refine ((protocols_separated_iff _ pkt).1 (by decide +kernel)).mpr (.inl ?_)
  rintro ⟨-, key, hkey, a, hr, hfirst⟩
  have hpkt : pkt.flowKey = some ⟨octets 192 168 1 10, octets 9 9 9 9, htons 5000, htons 443⟩ := by
    decide +kernel
  obtain rfl := Option.some.inj (hpkt.symm.trans hkey)
  -- the first slot of the chain holds the live session of the flow
  rcases Fin.eq_zero_or_eq_succ a with rfl | ⟨b, rfl⟩
  · exact absurd hr (by decide +kernel)
  · exact absurd (hfirst 0 (Fin.succ_pos b)).2 (by decide +kernel)

/-- The first packet of the connection lets a UDP packet in from its remote end. -/
theorem tcp_opens_udp :
    let pkt := ParsedPacket.parse (makeTcpPkt (octets 192 168 1 10) (octets 9 9 9 9) 5000 443 2)
    let u := ParsedPacket.parse (makeUdpPkt (octets 9 9 9 9) (octets 203 0 113 1) 443 10000)
    let e := new.run [.setWanIp (octets 203 0 113 1)]
    pkt.l4Protocol = 6 ∧ u.l4Protocol = 17 ∧ (e.processInbound u).translated = false ∧
      ((e.processOutbound pkt).engine.processInbound u).translated = true := by
  decide +kernel

end NatEngine
end Hpgtp
