import TrafficPrioritizer.NatEngine.Checksums
import TrafficPrioritizer.NatEngine.Frames

/-! Which checksums survive translation. The header checksum always does. A TCP or
ICMP checksum field of zero is taken for an absent checksum and not updated, and
the update of a UDP checksum can come out as zero, which says that there is none. -/

namespace Hpgtp
open ByteBuffer OnesComplement

namespace ParsedPacket
variable {p : ParsedPacket} {ip : Nat} {dir : Direction}

/-! ## ICMP messages -/

theorem wordSum_segment_of_echo {type : UInt8} {icmp : Nat} (h : p.echo type = some (ip, icmp))
    (hseg : l4HeaderSize p.l4Protocol ≤ p.segment.length) :
    wordSum p.segment = 256 * type.toNat + (ntohs p.l4Check).toNat +
      (ntohs (load16 p.rawSpan (icmp + 4))).toNat + wordSum (p.segment.drop 6) := by
  obtain ⟨-, hproto, rfl, hbound, htype, hcode⟩ := echo_layout h
  have hsize : l4HeaderSize p.l4Protocol = 8 := by rw [hproto]; rfl
  have hcheck : p.l4Check = load16 p.rawSpan (p.l4Start + 2) := by rw [l4Check, hproto]; rfl
  obtain ⟨n, hn⟩ : ∃ n, p.segmentLength = n + 2 + 2 + 2 := by
    rw [segment, length_slice] at hseg
    exact ⟨p.segmentLength - 6, by omega⟩
  have hrest : slice p.rawSpan (p.l4Start + 2 + 2 + 2) n = p.segment.drop 6 := by
    rw [segment, drop_slice, hn]
    rfl
  have hsum : wordSum p.segment = (swap16 (load16 p.rawSpan p.l4Start)).toNat +
      ((swap16 (load16 p.rawSpan (p.l4Start + 2))).toNat +
        ((swap16 (load16 p.rawSpan (p.l4Start + 4))).toNat + wordSum (p.segment.drop 6))) := by
    rw [← hrest, segment, hn, wordSum_slice_add_two _ (by omega),
      wordSum_slice_add_two _ (by omega), wordSum_slice_add_two _ (by omega)]
  rw [hsum, swap16_load16_toNat p.rawSpan p.l4Start, htype, hcode, hcheck]
  simp only [ntohs, UInt8.toNat_zero]
  omega

theorem l4Verifies_iff_of_icmp (hproto : p.l4Protocol = 1) :
    p.L4Verifies ↔ l4HeaderSize p.l4Protocol ≤ p.segment.length ∧
      wordSum p.segment % 65535 = 0 ∧ wordSum p.segment ≠ 0 := by
  rw [L4Verifies, checksummed, if_pos hproto, onesSum_eq_iff]

theorem echoCheck_spec {check : UInt16} (h : check ≠ 0) (oldId newId : UInt16) :
    ((ntohs (echoCheck check oldId newId)).toNat + (ntohs newId).toNat) % 65535 =
        ((ntohs check).toNat + (ntohs oldId).toNat) % 65535 ∧
      ((ntohs (echoCheck check oldId newId)).toNat = 65535 →
        (ntohs oldId).toNat = 65535 ∧ (ntohs newId).toNat = 0) := by
  obtain ⟨hsum, hfull⟩ := updateChecksum16_spec check oldId newId
  rw [echoCheck, if_pos h]
  exact ⟨hsum, fun hv => (hfull.mp hv).2⟩

theorem l4Verifies_rewriteEchoId (dir : Direction) {type : UInt8} {icmp : Nat}
    (h : p.echo type = some (ip, icmp))
    (hihl : 20 ≤ p.ihl) (hver : p.L4Verifies) {id : UInt16} (addr : IPv4Net)
    (hids : Ephemeral (ntohs id) ∨ Ephemeral (ntohs (load16 p.rawSpan (icmp + 4))))
    (htype : type = 0 ∨ id ≠ 0) :
    (p.rewriteEchoId dir ip icmp addr id).L4Verifies ↔
      if p.l4Check = 0 then id = load16 p.rawSpan (icmp + 4)
      else id ≠ 0 ∨ ∃ x ∈ p.segment.drop 6, x ≠ 0 := by
  have hlayout := layout_of_echo dir h hihl
  obtain ⟨-, hproto, rfl, -, -, -⟩ := echo_layout h
  obtain ⟨hseg, hsum, hne⟩ := (l4Verifies_iff_of_icmp hproto).mp hver
  have hparts := wordSum_segment_of_echo h hseg
  have hcheck : load16 p.rawSpan (p.l4Start + 2) = p.l4Check := by rw [l4Check, hproto]; rfl
  obtain ⟨old, hold⟩ : ∃ old, load16 p.rawSpan (p.l4Start + 4) = old := ⟨_, rfl⟩
  have hstore := wordSum_segment_storeL4 hlayout
    (updateChecksum32 (load16 p.rawSpan 24) ⟨load32 p.rawSpan (dir.addrField ip)⟩ addr)
    (echoCheck p.l4Check old id) addr id hseg
  have hlen := length_segment_storeL4 hlayout
    (updateChecksum32 (load16 p.rawSpan 24) ⟨load32 p.rawSpan (dir.addrField ip)⟩ addr)
    (echoCheck p.l4Check old id) addr id
  rw [hold, hcheck] at hstore
  rw [rewriteEchoId_eq_storeL4 h hihl]
  rw [hold] at hparts hids ⊢
  rw [l4Verifies_iff_of_icmp (by rwa [l4Protocol_storeL4]), l4Protocol_storeL4, hlen,
    and_iff_right hseg]
  have hlt := (ntohs id).toNat_lt
  have hlt' := (ntohs old).toNat_lt
  have hids' : (10000 ≤ (ntohs id).toNat ∧ (ntohs id).toNat ≤ 60000) ∨
      (10000 ≤ (ntohs old).toNat ∧ (ntohs old).toNat ≤ 60000) := hids
  split_ifs with hzero
  · rw [echoCheck, if_neg (not_not.mpr hzero)] at hstore ⊢
    rw [← ntohs_toNat_inj]
    omega
  · obtain ⟨hupdate, hfull⟩ := echoCheck_spec hzero old id
    have hrest : (∃ x ∈ p.segment.drop 6, x ≠ 0) ↔ wordSum (p.segment.drop 6) ≠ 0 := by
      rw [Ne, wordSum_eq_zero]
      push Not
      rfl
    have hchecklt := (ntohs (echoCheck p.l4Check old id)).toNat_lt
    rw [hrest, Ne, Ne, ← ntohs_toNat_eq_zero (v := id)]
    have htype' : type.toNat = 0 ∨ (ntohs id).toNat ≠ 0 := by
      rw [Ne, ntohs_toNat_eq_zero]
      exact htype.imp_left fun h => by rw [h]; rfl
    omega

/-! ## The IPv4 header -/

theorem headerVerifies_storeL4 {a c f : Nat} (h : p.L4Layout a c f) (hver : p.HeaderVerifies)
    (hproto : IPv4Header.protocol p.rawSpan sizeofEthernetHeader ≠ 0) (l4Check : UInt16)
    (addr : IPv4Net) (port : UInt16) :
    (p.storeL4 a c f (updateChecksum32 (load16 p.rawSpan 24) ⟨load32 p.rawSpan a⟩ addr) l4Check
      addr port).HeaderVerifies := by
  have hupdate := updateChecksum32_spec (load16 p.rawSpan 24) ⟨load32 p.rawSpan a⟩ addr
  have hsum := wordSum_header_storeL4 h
    (updateChecksum32 (load16 p.rawSpan 24) ⟨load32 p.rawSpan a⟩ addr) l4Check addr port
  obtain ⟨hmod, -⟩ := onesSum_eq_iff.mp hver
  refine onesSum_eq_iff.mpr ⟨by simp only at hupdate; omega, fun hzero => hproto ?_⟩
  -- the protocol number is a byte of the header that no store touches
  obtain ⟨hstart, haddr, hcheck, hport, -, -, hbound⟩ := h
  have hihl : p.l4Start = 14 + p.ihl := rfl
  have hfour : sizeofEthernetHeader = 14 := rfl
  have hmem := load8_mem_slice
    (b := (p.storeL4 a c f (updateChecksum32 (load16 p.rawSpan 24) ⟨load32 p.rawSpan a⟩ addr)
      l4Check addr port).rawSpan) (o := sizeofEthernetHeader) (n := p.ihl) (k := 9) (by omega)
    (by simp only [storeL4, withBytes_rawSpan, length_storeFields]; omega)
  rw [← wordSum_eq_zero.mp hzero _ hmem]
  exact (load8_storeFields_of_disjoint _ _ _ _ (by omega) (by omega) (by omega) (by omega)).symm

end ParsedPacket

namespace NatEngine
open ParsedPacket
variable {e : NatEngine} {dir : Direction} {pkt : ParsedPacket} {addr : IPv4Net}

/-! ## External ports and ids -/

theorem flowTarget_ports (h : e.FlowsOk) {key : FlowKey} {port : UInt16}
    (ht : e.FlowTarget dir key addr port) :
    ¬((ntohs (dir.port key)).toNat = 65535 ∧ (ntohs port).toNat = 0) := by
  rintro ⟨hold, hnew⟩
  cases dir with
  | outbound => exact ht.2.2.1 (ntohs_toNat_eq_zero.mp hnew)
  | inbound =>
    obtain ⟨i, hacc, -, -⟩ := ht
    obtain ⟨-, -, -, hact, -, -, hport⟩ := acceptSlot_eq_some.mp hacc
    have hhigh := (h.ports i hact).2
    rw [hport, show key.dport = Direction.inbound.port key from rfl, hold] at hhigh
    exact absurd hhigh (by decide)

theorem echoTarget_ids (h : e.EchoesOk) {key : EchoKey} {id : UInt16}
    (ht : e.EchoTarget dir key addr id) :
    (Ephemeral (ntohs id) ∨ Ephemeral (ntohs key.idNbo)) ∧ (dir.echoType = 0 ∨ id ≠ 0) := by
  cases dir with
  | outbound =>
    obtain ⟨-, -, hid, a, -, hslot⟩ := ht
    refine ⟨.inl ?_, .inr hid⟩
    rcases hslot with ⟨-, rfl⟩ | ⟨hlive, -, rfl⟩
    · have hext := (openIcmpSession_external h key e.currentTick (probeIcmpSlot key a)).2
      rw [openIcmpSession_snd] at hext
      exact (hext.resolve_left hid).1
    · exact h.ids _ (IcmpEchoSession.active_of_live hlive)
  | inbound =>
    obtain ⟨i, hacc, -, -⟩ := ht
    obtain ⟨-, -, -, hact, -, hid⟩ := acceptIcmpSlot_eq_some.mp hacc
    refine ⟨.inr ?_, .inl rfl⟩
    rw [← hid]
    exact h.ids i hact

/-! ## TCP and ICMP -/

/-- In every reachable state, a translated packet whose L4 checksum verified still verifies
exactly when the checksum field was not zero or the sums of old and new endpoint agree; an echo
message also must not become all zeros. -/
theorem tcp_icmp_checksum_survives_iff (ops : List Op) (dir : Direction) {pkt : ParsedPacket}
    (hihl : 20 ≤ pkt.ihl) (hver : pkt.L4Verifies) :
    let e := new.run ops
    ((e.process dir pkt).translated = true → (e.process dir pkt).packet.L4Verifies) ↔
      (∀ key addr port, pkt.flowKey = some key → e.FlowTarget dir key addr port →
        pkt.l4Check ≠ 0 ∨ endpointSum (dir.addr key) (dir.port key) ≡
          endpointSum addr port [MOD 65535]) ∧
      ∀ key addr id, pkt.echoKey dir.echoType = some key → e.EchoTarget dir key addr id →
        if pkt.l4Check = 0 then id = key.idNbo else id ≠ 0 ∨ ∃ x ∈ pkt.segment.drop 6, x ≠ 0 := by
  intro e
  have hechoes : e.EchoesOk := echoesOk_new.run ops
  refine translated_iff_targets (fun ip v addr port hp _ => ?_) fun ip icmp addr id he ht => ?_
  · exact l4Verifies_rewriteFlow hp hihl hver addr port
  · obtain ⟨hids, htype⟩ := echoTarget_ids hechoes ht
    exact l4Verifies_rewriteEchoId dir he hihl hver addr hids htype

theorem tcp_checksum_survives_https :
    let e := new.run [.setWanIp (octets 203 0 113 1)]
    let pkt := parse (store16 (makeTcpPkt (octets 192 168 1 10) (octets 9 9 9 9) 5000 443 0x5010) 50
      (htons 50893))
    pkt.L4Verifies ∧ (e.process .outbound pkt).translated = true ∧
      (e.process .outbound pkt).packet.L4Verifies := by
  intro e pkt
  have hver : pkt.L4Verifies := by decide +kernel
  have htr : (e.process .outbound pkt).translated = true := by decide +kernel
  have hecho : pkt.echoKey 8 = none := by decide +kernel
  refine ⟨hver, htr, (tcp_icmp_checksum_survives_iff [.setWanIp (octets 203 0 113 1)] .outbound
    (by decide +kernel) hver).mpr ⟨fun _ _ _ _ _ => .inl (by decide +kernel), ?_⟩ htr⟩
  intro key _ _ hkey
  rw [show Direction.outbound.echoType = 8 from rfl, hecho] at hkey
  cases hkey

/-- From port 55893 the same segment has the checksum zero, which is not updated. -/
theorem tcp_zero_checksum_broken :
    let e := new.run [.setWanIp (octets 203 0 113 1)]
    let pkt := parse (makeTcpPkt (octets 192 168 1 10) (octets 9 9 9 9) 55893 443 0x5010)
    pkt.ihl = 20 ∧ ntohs (IPv4Header.fragOff pkt.rawSpan 14) &&& 0x3FFF = 0 ∧ pkt.L4Verifies ∧
      (e.process .outbound pkt).translated = true ∧
      ¬(e.process .outbound pkt).packet.L4Verifies := by
  decide +kernel

/-! ## UDP -/

theorem flowCheck_ne_zero_iff {check oldPort newPort : UInt16} (h : check ≠ 0)
    (hports : ¬((ntohs oldPort).toNat = 65535 ∧ (ntohs newPort).toNat = 0)) (old new : IPv4Net) :
    flowCheck check old new oldPort newPort ≠ 0 ↔
      ¬(ntohs check).toNat + endpointSum old oldPort ≡ endpointSum new newPort [MOD 65535] := by
  obtain ⟨hsum, hfull⟩ := flowCheck_spec h old new oldPort newPort
  have hlt := (ntohs (flowCheck check old new oldPort newPort)).toNat_lt
  have hnot := fun hv => hports (hfull hv)
  rw [Ne, ← ntohs_toNat_eq_zero, Nat.ModEq]
  omega

/-- In every reachable state, a UDP datagram keeps a verifying checksum exactly when the updated
field, which is congruent to the old one plus the change of the endpoint, does not come out as
zero. A field of zero stays zero. -/
theorem udp_checksum_survives_iff (ops : List Op) (dir : Direction) {pkt : ParsedPacket}
    (hihl : 20 ≤ pkt.ihl) (hproto : pkt.l4Protocol = 17)
    (hver : pkt.l4Check ≠ 0 → pkt.L4Verifies) :
    let e := new.run ops
    let q := (e.process dir pkt).packet
    ((e.process dir pkt).translated = true →
        (pkt.l4Check ≠ 0 → q.l4Check ≠ 0 ∧ q.L4Verifies) ∧ (pkt.l4Check = 0 → q.l4Check = 0)) ↔
      ∀ key addr port, pkt.flowKey = some key → e.FlowTarget dir key addr port →
        pkt.l4Check = 0 ∨ ¬(ntohs pkt.l4Check).toNat + endpointSum (dir.addr key) (dir.port key) ≡
          endpointSum addr port [MOD 65535] := by
  intro e q
  have hflows : e.FlowsOk := flowsOk_new.run ops
  have hecho : pkt.echo dir.echoType = none := by
    cases he : pkt.echo dir.echoType with
    | none => rfl
    | some r =>
      obtain ⟨-, hicmp, -, -, -, -⟩ := echo_layout he
      rw [hproto] at hicmp
      cases hicmp
  refine translated_iff_flowTargets (Q := fun q => (pkt.l4Check ≠ 0 → q.l4Check ≠ 0 ∧
    q.L4Verifies) ∧ (pkt.l4Check = 0 → q.l4Check = 0)) hecho fun ip v addr port hp ht => ?_
  rw [l4Check_rewriteFlow hp hihl]
  by_cases hzero : pkt.l4Check = 0
  · simp [hzero, flowCheck]
  · have hkeeps : (pkt.rewriteFlow dir ip v addr port).L4Verifies :=
      (l4Verifies_rewriteFlow hp hihl (hver hzero) addr port).mpr (.inl hzero)
    have hne := flowCheck_ne_zero_iff hzero (flowTarget_ports hflows ht)
      (dir.addr (pkt.keyAt ip v)) addr
    simp [hzero, hkeeps, hne]

theorem udp_checksum_survives_dns :
    let e := new.run [.setWanIp (octets 203 0 113 1)]
    let pkt := parse (store16 (makeUdpPkt (octets 192 168 1 10) (octets 9 9 9 9) 5000 53) 40
      (htons 6237))
    pkt.l4Check ≠ 0 ∧ (e.process .outbound pkt).packet.l4Check ≠ 0 ∧
      (e.process .outbound pkt).packet.L4Verifies := by
  intro e pkt
  have hver : pkt.L4Verifies := by decide +kernel
  have htr : (e.process .outbound pkt).translated = true := by decide +kernel
  have hzero : pkt.l4Check ≠ 0 := by decide +kernel
  refine ⟨hzero, ((udp_checksum_survives_iff [.setWanIp (octets 203 0 113 1)] .outbound
    (by decide +kernel) (by decide +kernel) fun _ => hver).mpr ?_ htr).1 hzero⟩
  -- no session is active yet, so the port is the one at the cursor
  have hreusable (i : Fin maxSessions) : (e.sessions i).reusable e.currentTick = true := rfl
  have hdns : pkt.flowKey =
      some ⟨octets 192 168 1 10, octets 9 9 9 9, htons 5000, htons 53⟩ := by decide +kernel
  rintro key addr port hkey ⟨-, rfl, -, a, -, hslot⟩
  rw [hdns] at hkey
  cases hkey
  rcases hslot with ⟨-, rfl⟩ | ⟨hlive, -⟩
  · exact .inr (by decide +kernel)
  · rw [show (new.run [.setWanIp (octets 203 0 113 1)]) = e from rfl, hreusable] at hlive
    cases hlive

/-- To port 35514 the sum over the translated datagram needs the checksum zero. -/
theorem udp_checksum_becomes_zero :
    let e := new.run [.setWanIp (octets 203 0 113 1)]
    let pkt := parse (store16 (makeUdpPkt (octets 192 168 1 10) (octets 9 9 9 9) 5000 35514) 40
      (htons 36311))
    pkt.ihl = 20 ∧ ntohs (IPv4Header.fragOff pkt.rawSpan 14) &&& 0x3FFF = 0 ∧
      pkt.l4Protocol = 17 ∧ pkt.l4Check ≠ 0 ∧ pkt.L4Verifies ∧
      (e.process .outbound pkt).translated = true ∧
      (e.process .outbound pkt).packet.l4Check = 0 := by
  decide +kernel

/-! ## The IPv4 header -/

theorem header_checksum_survives (e : NatEngine) (dir : Direction) {pkt : ParsedPacket}
    (hihl : 20 ≤ pkt.ihl) (hver : pkt.HeaderVerifies)
    (htr : (e.process dir pkt).translated = true) :
    (e.process dir pkt).packet.HeaderVerifies := by
  revert htr
  refine translated_iff.mpr ⟨fun ip v addr port hp _ => ?_, fun ip icmp addr id he _ => ?_⟩
  · have hlayout := layout_of_ports dir hp hihl
    obtain ⟨rfl, -, -, -, -, -⟩ := ports_layout hp
    have hproto : IPv4Header.protocol pkt.rawSpan sizeofEthernetHeader ≠ 0 := by
      rcases (ports_eq_some.mp hp).2.1 with h | h <;> rw [h] <;> decide
    have hold : dir.addr (pkt.keyAt sizeofEthernetHeader v) =
        ⟨load32 pkt.rawSpan (dir.addrField sizeofEthernetHeader)⟩ := by cases dir <;> rfl
    rw [rewriteFlow_eq_storeL4 hp hihl, hold]
    exact headerVerifies_storeL4 hlayout hver hproto ..
  · have hlayout := layout_of_echo dir he hihl
    obtain ⟨rfl, -, -, -, -, -⟩ := echo_layout he
    have hproto : IPv4Header.protocol pkt.rawSpan sizeofEthernetHeader ≠ 0 := by
      rw [(echo_eq_some.mp he).2.1]
      decide
    rw [rewriteEchoId_eq_storeL4 he hihl]
    exact headerVerifies_storeL4 hlayout hver hproto ..

theorem header_checksum_survives_https :
    let e := new.run [.setWanIp (octets 203 0 113 1)]
    let pkt := parse (store16 (makeTcpPkt (octets 192 168 1 10) (octets 9 9 9 9) 5000 443 0x5010) 24
      (htons 59148))
    pkt.HeaderVerifies ∧ (e.process .outbound pkt).packet.HeaderVerifies := by
  intro e pkt
  have hver : pkt.HeaderVerifies := by decide +kernel
  exact ⟨hver, header_checksum_survives e .outbound (by decide +kernel) hver (by decide +kernel)⟩

end NatEngine
end Hpgtp
