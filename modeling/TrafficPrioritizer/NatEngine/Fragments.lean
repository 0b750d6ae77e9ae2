import TrafficPrioritizer.NatEngine.Checksums
import TrafficPrioritizer.NatEngine.FrameEffect

/-! Fragments behind the first. They carry no L4 header, and the echo paths refuse
them; the TCP and UDP paths take the first bytes of their payload for one. -/

namespace Hpgtp
open ByteBuffer OnesComplement

namespace ParsedPacket

def fragmentOffset (p : ParsedPacket) : UInt16 :=
  ntohs (IPv4Header.fragOff p.rawSpan sizeofEthernetHeader) &&& 0x1FFF

def payload (p : ParsedPacket) : List UInt8 := p.rawSpan.drop p.l4Start

theorem echo_of_fragment {p : ParsedPacket} (h : p.fragmentOffset ≠ 0) (type : UInt8) :
    p.echo type = none := by
  cases he : p.echo type with
  | none => rfl
  | some q =>
    obtain ⟨hip, -, hview⟩ := echo_eq_some.mp he
    rw [(p.ipv4_inBounds q.1 hip).1, NatEngine.echoView, icmpEcho_of_echoView hview] at hview
    dsimp only at hview
    -- the guard of the echo paths tests the more-fragments bit as well
    have hguard : ntohs (IPv4Header.fragOff p.rawSpan sizeofEthernetHeader) &&& 0x3FFF ≠ 0 := by
      intro hzero
      apply h
      rw [fragmentOffset, show (0x1FFF : UInt16) = 0x3FFF &&& 0x1FFF from rfl, ← UInt16.and_assoc,
        hzero]
      rfl
    rw [if_pos hguard] at hview
    cases hview

theorem payload_storeL4 (p : ParsedPacket) (a c f : Nat) (ipCheck l4Check : UInt16) (addr : IPv4Net)
    (port : UInt16) : (p.storeL4 a c f ipCheck l4Check addr port).payload =
      (storeFields p.rawSpan sizeofEthernetHeader a c f ipCheck l4Check addr port).drop p.l4Start :=
  rfl

theorem payload_rewriteFlow_eq_iff {p : ParsedPacket} {dir : Direction} {ip : Nat} {v : PortView}
    (h : p.ports = some (ip, v)) (hihl : 20 ≤ p.ihl) (addr : IPv4Net) (port : UInt16) :
    (p.rewriteFlow dir ip v addr port).payload = p.payload ↔
      port = dir.port (p.keyAt ip v) ∧ flowCheck p.l4Check (dir.addr (p.keyAt ip v)) addr
        (dir.port (p.keyAt ip v)) port = p.l4Check := by
  have hlayout := layout_of_ports dir h hihl
  obtain ⟨-, -, -, -, hcheck, -⟩ := ports_layout h
  have hport : load16 p.rawSpan (dir.portField v) = dir.port (p.keyAt ip v) := by cases dir <;> rfl
  rw [rewriteFlow_eq_storeL4 h hihl, payload_storeL4, payload]
  have hapart := hlayout.fieldsApart
  obtain ⟨hstart, haddr, hc, hf, -, -, -⟩ := hlayout
  have hbehind : dir.addrField ip + 4 ≤ p.l4Start := by omega
  rw [← hport, l4Check, ← hcheck]
  exact drop_storeFields_eq_iff hapart _ _ _ _ hbehind hc.1 hf.1

end ParsedPacket

theorem flowCheck_eq_self_iff {check : UInt16} (h : check ≠ 0) (old new : IPv4Net) (port : UInt16) :
    flowCheck check old new port port = check ↔
      (ntohs check).toNat ≠ 65535 ∧ words32 old.raw ≡ words32 new.raw [MOD 65535] := by
  obtain ⟨hsum, hfull⟩ := flowCheck_spec h old new port port
  have hlt := (ntohs (flowCheck check old new port port)).toNat_lt
  have hcheck := (ntohs check).toNat_lt
  have hzero : (ntohs check).toNat ≠ 0 := fun hz => h (ntohs_toNat_eq_zero.mp hz)
  have hnot := fun hv => hfull hv
  rw [← ntohs_toNat_inj, Nat.ModEq]
  simp only [endpointSum] at hsum
  omega

namespace NatEngine
open ParsedPacket

structure CreatesNothing (e e' : NatEngine) : Prop where
  sessions : ∀ i, ∃ tick, e'.sessions i = (e.sessions i).stamp tick
  portToIndex : e'.portToIndex = e.portToIndex
  icmpSessions : ∀ i, ∃ tick, e'.icmpSessions i = (e.icmpSessions i).stamp tick
  icmpIdToIndex : e'.icmpIdToIndex = e.icmpIdToIndex

section
variable {e : NatEngine} {dir : Direction} {pkt : ParsedPacket}

theorem createsNothing_refl (e : NatEngine) : CreatesNothing e e :=
  ⟨fun i => ⟨(e.sessions i).lastActiveTick, rfl⟩, rfl,
    fun i => ⟨(e.icmpSessions i).lastActiveTick, rfl⟩, rfl⟩

theorem createsNothing_touchSession (tick : UInt32) (idx : Fin maxSessions) :
    CreatesNothing e (e.touchSession tick idx) where
  sessions i := by
    by_cases hi : i = idx
    · exact ⟨tick, by rw [hi, touchSession_self]⟩
    · exact ⟨(e.sessions i).lastActiveTick, touchSession_of_ne e tick hi⟩
  portToIndex := rfl
  icmpSessions := (createsNothing_refl e).icmpSessions
  icmpIdToIndex := rfl

theorem not_createsNothing_openSession (key : FlowKey) (tick : UInt32) (idx : Fin maxSessions) :
    ¬CreatesNothing e (e.openSession key tick idx) := by
  intro h
  obtain ⟨t, ht⟩ := h.sessions idx
  have hseq : (e.sessions idx).seq + 1 + 1 = (e.sessions idx).seq := by
    rw [openSession_self] at ht
    exact congrArg NatSession.seq ht
  rw [UInt32.add_assoc, UInt32.add_eq_left] at hseq
  exact absurd hseq (by decide)

theorem createsNothing_outbound_iff (hecho : pkt.echo 8 = none) :
    CreatesNothing e (e.processOutbound pkt).engine ↔ ¬e.OpensSession pkt := by
  rw [processOutbound_engine]
  constructor
  · intro h hopen
    obtain ⟨key, idx, -, heff⟩ := hopen.effect
    rw [heff] at h
    exact not_createsNothing_openSession key e.currentTick idx h
  · intro hopen
    have heff := effectOf_outbound e pkt
    have hnone : pkt.echoKey 8 = none := by
      rw [echoKey, hecho]
      rfl
    generalize e.outboundEffect pkt = eff at heff
    cases heff with
    | skip => exact createsNothing_refl e
    | @openFlow _ key a hw hkey hr hfirst =>
      exact absurd ⟨hw, key, hkey, a, hr, fun b hb => slotEffect_eq_none.mp (hfirst b hb)⟩ hopen
    | touchFlow => exact createsNothing_touchSession ..
    | openEcho _ hkey | touchEcho _ hkey =>
      rw [hnone] at hkey
      cases hkey

theorem createsNothing_inbound (hecho : pkt.echo 0 = none) :
    CreatesNothing e (e.processInbound pkt).engine := by
  have hcall := callOf_inbound e pkt
  generalize e.processInbound pkt = o at hcall
  cases hcall with
  | refused => exact createsNothing_refl e
  | flowIn => exact createsNothing_touchSession ..
  | echoIn he =>
    rw [hecho] at he
    cases he

theorem createsNothing_iff (hfrag : pkt.fragmentOffset ≠ 0) :
    CreatesNothing e (e.process dir pkt).engine ↔ (dir = .outbound → ¬e.OpensSession pkt) := by
  cases dir with
  | outbound =>
    rw [process, createsNothing_outbound_iff (echo_of_fragment hfrag 8)]
    simp
  | inbound => simp [process, createsNothing_inbound (e := e) (echo_of_fragment hfrag 0)]

theorem payload_iff (hfrag : pkt.fragmentOffset ≠ 0) (hihl : 20 ≤ pkt.ihl) :
    (e.process dir pkt).packet.payload = pkt.payload ↔
      ∀ key addr port, pkt.flowKey = some key → e.FlowTarget dir key addr port →
        port = dir.port key ∧ (pkt.l4Check = 0 ∨ (ntohs pkt.l4Check).toNat ≠ 65535 ∧
          words32 (dir.addr key).raw ≡ words32 addr.raw [MOD 65535]) := by
  have hrefused : (e.process dir pkt).packet.payload = pkt.payload ↔
      ((e.process dir pkt).translated = true →
        (e.process dir pkt).packet.payload = pkt.payload) := by
    refine ⟨fun h _ => h, fun h => ?_⟩
    cases htr : (e.process dir pkt).translated with
    | true => exact h htr
    | false => rw [((callOf e dir pkt).untouched htr).packet]
  rw [hrefused]
  refine translated_iff_flowTargets (Q := fun q => q.payload = pkt.payload)
    (echo_of_fragment hfrag _) fun ip v addr port hp _ => ?_
  rw [payload_rewriteFlow_eq_iff hp hihl]
  refine and_congr_right fun hsame => ?_
  rw [← hsame]
  by_cases hzero : pkt.l4Check = 0
  · simp [flowCheck, hzero]
  · rw [flowCheck_eq_self_iff hzero, or_iff_right hzero]

end

/-- In every reachable state, a call leaves the payload of a later fragment alone and creates
nothing from it exactly when the bytes in place of the ports open no session and any session they
hit has the same port and an address of the same sum. -/
theorem fragment_untouched_iff (ops : List Op) (dir : Direction) {pkt : ParsedPacket}
    (hihl : 20 ≤ pkt.ihl) (hfrag : pkt.fragmentOffset ≠ 0) :
    let e := new.run ops
    let o := e.process dir pkt
    (o.packet.payload = pkt.payload ∧ CreatesNothing e o.engine) ↔
      (dir = .outbound → ¬e.OpensSession pkt) ∧
      ∀ key addr port, pkt.flowKey = some key → e.FlowTarget dir key addr port →
        port = dir.port key ∧ (pkt.l4Check = 0 ∨ (ntohs pkt.l4Check).toNat ≠ 65535 ∧
          words32 (dir.addr key).raw ≡ words32 addr.raw [MOD 65535]) := by
  intro e o
  rw [payload_iff hfrag hihl, createsNothing_iff hfrag]
  exact and_comm

def laterFragment (sip dip : IPv4Net) : List UInt8 :=
  store16 (makeUdpPkt sip dip 5000 53) 20 (htons 185)

theorem fragment_untouched_without_session :
    let e := new.run [.setWanIp (octets 203 0 113 1)]
    let pkt := parse (laterFragment (octets 9 9 9 9) (octets 203 0 113 1))
    (e.process .inbound pkt).packet.payload = pkt.payload ∧
      CreatesNothing e (e.process .inbound pkt).engine := by
  intro e pkt
  have hkey : pkt.flowKey = some ⟨octets 9 9 9 9, octets 203 0 113 1, htons 5000, htons 53⟩ := by
    decide +kernel
  refine (fragment_untouched_iff [.setWanIp (octets 203 0 113 1)] .inbound (by decide +kernel)
    (by decide +kernel)).mpr ⟨nofun, ?_⟩
  rintro key addr port hsent ⟨i, hacc, -⟩
  rw [hkey] at hsent
  cases hsent
  have hnone : e.acceptSlot ⟨octets 9 9 9 9, octets 203 0 113 1, htons 5000, htons 53⟩ = none := by
    decide +kernel
  rw [hnone] at hacc
  cases hacc

/-- Going out, the first four payload bytes are taken for ports: they open a session, and the
first two are overwritten with its external port. -/
theorem fragment_opens_session :
    let e := new.run [.setWanIp (octets 203 0 113 1)]
    let pkt := parse (laterFragment (octets 192 168 1 10) (octets 9 9 9 9))
    let o := e.process .outbound pkt
    pkt.ihl = 20 ∧ pkt.fragmentOffset = 185 ∧ pkt.payload.take 2 = [19, 136] ∧
      o.packet.payload.take 2 = [39, 16] ∧ e.portToIndex 10000 = -1 ∧
      0 ≤ o.engine.portToIndex 10000 := by
  decide +kernel

end NatEngine
end Hpgtp
