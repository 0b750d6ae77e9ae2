import TrafficPrioritizer.NatEngine.Rewriting
import TrafficPrioritizer.Net.PacketChecks
import Mathlib.Data.Nat.ModEq

/-! The checksums of a packet and what translation does to them. The incremental
update keeps the one's-complement sum over header, pseudo-header and message; what
it does not keep is the meaning of a checksum field of zero. -/

namespace Hpgtp
open ByteBuffer OnesComplement

/-! ## The incremental update -/

/-- Checksum and new value sum up to what checksum and old value did. The result is `0xFFFF`
only when there is nothing to sum at all. -/
theorem updateChecksum16_spec (check old new : UInt16) :
    ((ntohs (updateChecksum16 check old new)).toNat + (ntohs new).toNat) % 65535 =
        ((ntohs check).toNat + (ntohs old).toNat) % 65535 ∧
      ((ntohs (updateChecksum16 check old new)).toNat = 65535 ↔
        (ntohs check).toNat = 65535 ∧ (ntohs old).toNat = 65535 ∧ (ntohs new).toNat = 0) := by
  have hnot (v : UInt16) : (~~~v).toNat = 65535 - v.toNat := UInt16.toNat_not v
  have hc := (ntohs check).toNat_lt
  have ho := (ntohs old).toNat_lt
  have hn := (ntohs new).toNat_lt
  have hsum : (~~~(ntohs check)).toNat + (~~~(ntohs old)).toNat + (ntohs new).toNat +
      (ntohs check).toNat + (ntohs old).toNat = 131070 + (ntohs new).toNat := by
    rw [hnot, hnot]
    omega
  unfold updateChecksum16
  dsimp only
  rw [ntohs_htons, toNat_complement]
  generalize (~~~(ntohs check)).toNat + (~~~(ntohs old)).toNat + (ntohs new).toNat = s at *
  generalize ht : s % 65536 + s / 65536 = t
  obtain ⟨hmod, hzero⟩ := fold_twice (by omega) ht.symm
  have hlt : (t + t / 65536) % 65536 < 65536 := Nat.mod_lt _ (by decide)
  -- from here on only the folded value matters, not how it came about
  clear ht
  generalize (t + t / 65536) % 65536 = folded at *
  omega

theorem updateChecksum32_spec (check : UInt16) (old new : IPv4Net) :
    ((ntohs (updateChecksum32 check old new)).toNat + words32 new.raw) % 65535 =
      ((ntohs check).toNat + words32 old.raw) % 65535 := by
  have hlow := (updateChecksum16_spec check (low16 old.raw) (low16 new.raw)).1
  have hhigh := (updateChecksum16_spec (updateChecksum16 check (low16 old.raw) (low16 new.raw))
    (high16 old.raw) (high16 new.raw)).1
  unfold updateChecksum32 words32
  simp only [ntohs] at hlow hhigh ⊢
  omega

def endpointSum (addr : IPv4Net) (port : UInt16) : Nat := words32 addr.raw + (ntohs port).toNat

theorem flowCheck_spec {check : UInt16} (h : check ≠ 0) (old new : IPv4Net)
    (oldPort newPort : UInt16) :
    ((ntohs (flowCheck check old new oldPort newPort)).toNat + endpointSum new newPort) % 65535 =
        ((ntohs check).toNat + endpointSum old oldPort) % 65535 ∧
      ((ntohs (flowCheck check old new oldPort newPort)).toNat = 65535 →
        (ntohs oldPort).toNat = 65535 ∧ (ntohs newPort).toNat = 0) := by
  have haddr := updateChecksum32_spec check old new
  obtain ⟨hport, hfull⟩ := updateChecksum16_spec (updateChecksum32 check old new) oldPort newPort
  rw [flowCheck, if_pos h]
  unfold endpointSum
  exact ⟨by omega, fun hv => (hfull.mp hv).2⟩

/-! ## Where the fields are -/

namespace ParsedPacket
variable {p : ParsedPacket} {ip : Nat} {dir : Direction}

theorem ports_layout {v : PortView} (h : p.ports = some (ip, v)) :
    ip = sizeofEthernetHeader ∧ (p.l4Protocol = 6 ∨ p.l4Protocol = 17) ∧ v.source = p.l4Start ∧
      v.dest = p.l4Start + 2 ∧ v.check = p.l4Start + checkOffset p.l4Protocol ∧
      p.l4Start + l4HeaderSize p.l4Protocol ≤ p.rawSpan.length := by
  have hip := (p.ipv4_inBounds ip (ports_eq_some.mp h).1).1
  have hv := l4Ports_of_ports h
  unfold l4Ports at hv
  split_ifs at hv with hudp htcp
  all_goals
    obtain ⟨o, ho, rfl⟩ := Option.map_eq_some_iff.mp hv
    obtain ⟨hstart, hbound⟩ := p.l4_inBounds o ho
    rw [show o = p.l4Start from hstart] at hbound ⊢
  · exact ⟨hip, .inr hudp, rfl, rfl, by rw [hudp]; rfl, hbound⟩
  · exact ⟨hip, .inl htcp, rfl, rfl, by rw [htcp]; rfl, hbound⟩

theorem echo_layout {type : UInt8} {icmp : Nat} (h : p.echo type = some (ip, icmp)) :
    ip = sizeofEthernetHeader ∧ p.l4Protocol = 1 ∧ icmp = p.l4Start ∧
      p.l4Start + 8 ≤ p.rawSpan.length ∧ load8 p.rawSpan p.l4Start = type ∧
      load8 p.rawSpan (p.l4Start + 1) = 0 := by
  obtain ⟨hip, -, hview⟩ := echo_eq_some.mp h
  have hicmp := icmpEcho_of_echoView hview
  have hproto := l4Protocol_of_icmpEcho hicmp
  have hbound := icmpEcho_bounds hicmp
  have hstart : icmp = p.l4Start := by
    rw [icmpEcho_offset hicmp, l4Start, Nat.add_comm]
    rfl
  subst hstart
  refine ⟨(p.ipv4_inBounds ip hip).1, hproto, rfl, hbound, ?_⟩
  unfold NatEngine.echoView at hview
  rw [hicmp] at hview
  dsimp only at hview
  split_ifs at hview with hfrag htype
  push Not at htype
  exact htype

structure L4Layout (p : ParsedPacket) (a c f : Nat) : Prop where
  start : 34 ≤ p.l4Start
  addr : a = 26 ∨ a = 30
  check : p.l4Start ≤ c ∧ (c - p.l4Start) % 2 = 0 ∧
    c + 2 ≤ p.l4Start + l4HeaderSize p.l4Protocol
  port : p.l4Start ≤ f ∧ (f - p.l4Start) % 2 = 0 ∧
    f + 2 ≤ p.l4Start + l4HeaderSize p.l4Protocol
  apart : c + 2 ≤ f ∨ f + 2 ≤ c
  udp : p.l4Protocol = 17 → p.l4Start + 6 ≤ c ∧ f + 2 ≤ p.l4Start + 4
  bound : p.l4Start + l4HeaderSize p.l4Protocol ≤ p.rawSpan.length

theorem L4Layout.fieldsApart {a c f : Nat} (h : p.L4Layout a c f) :
    FieldsApart p.rawSpan.length sizeofEthernetHeader a c f := by
  obtain ⟨hstart, haddr, hcheck, hport, hapart, -, hbound⟩ := h
  have hfour : sizeofEthernetHeader = 14 := rfl
  constructor <;> omega

theorem layout_of_ports (dir : Direction) {v : PortView} (h : p.ports = some (ip, v))
    (hihl : 20 ≤ p.ihl) :
    p.L4Layout (dir.addrField ip) v.check (dir.portField v) := by
  obtain ⟨rfl, hproto, hsource, hdest, hcheck, hbound⟩ := ports_layout h
  have hstart : p.l4Start = 14 + p.ihl := rfl
  have hfields : dir.portField v = p.l4Start ∨ dir.portField v = p.l4Start + 2 := by
    rw [← hdest, ← hsource]
    exact dir.portField_cases v
  have hoffset : 4 ≤ checkOffset p.l4Protocol ∧ checkOffset p.l4Protocol % 2 = 0 ∧
      checkOffset p.l4Protocol + 2 ≤ l4HeaderSize p.l4Protocol := by
    rcases hproto with h | h <;> rw [h] <;> decide
  refine ⟨by omega, dir.addrField_cases 14, ?_, ?_, ?_, fun hudp => ?_, hbound⟩
  · omega
  · omega
  · omega
  · have hsix : checkOffset p.l4Protocol = 6 := by rw [hudp]; rfl
    omega

theorem layout_of_echo (dir : Direction) {type : UInt8} {icmp : Nat}
    (h : p.echo type = some (ip, icmp)) (hihl : 20 ≤ p.ihl) :
    p.L4Layout (dir.addrField ip) (icmp + 2) (icmp + 4) := by
  obtain ⟨rfl, hproto, rfl, hbound, -, -⟩ := echo_layout h
  have hstart : p.l4Start = 14 + p.ihl := rfl
  have hsize : l4HeaderSize p.l4Protocol = 8 := by rw [hproto]; rfl
  refine ⟨by omega, dir.addrField_cases 14, ?_, ?_, ?_, fun hudp => ?_, ?_⟩
  · omega
  · omega
  · omega
  · rw [hproto] at hudp
    cases hudp
  · omega

/-! ## Sums over the rewritten packet -/

def storeL4 (p : ParsedPacket) (a c f : Nat) (ipCheck l4Check : UInt16) (addr : IPv4Net)
    (port : UInt16) : ParsedPacket :=
  p.withBytes (storeFields p.rawSpan sizeofEthernetHeader a c f ipCheck l4Check addr port)
    (length_storeFields ..)

@[simp] theorem l4Protocol_storeL4 (p : ParsedPacket) (a c f : Nat) (ipCheck l4Check : UInt16)
    (addr : IPv4Net) (port : UInt16) :
    (p.storeL4 a c f ipCheck l4Check addr port).l4Protocol = p.l4Protocol := rfl

theorem rewriteFlow_eq_storeL4 {v : PortView} (h : p.ports = some (ip, v)) (hihl : 20 ≤ p.ihl)
    (addr : IPv4Net) (port : UInt16) :
    p.rewriteFlow dir ip v addr port = p.storeL4 (dir.addrField ip) v.check (dir.portField v)
      (updateChecksum32 (load16 p.rawSpan 24) (dir.addr (p.keyAt ip v)) addr)
      (flowCheck p.l4Check (dir.addr (p.keyAt ip v)) addr (dir.port (p.keyAt ip v)) port)
      addr port := by
  have hlayout := layout_of_ports dir h hihl
  obtain ⟨rfl, -, -, -, hcheck, -⟩ := ports_layout h
  have hfields := rewritePorts_eq_storeFields hlayout.fieldsApart addr port
  simp only [rewriteFlow, storeL4, hfields, l4Check, ← hcheck]
  cases dir <;> rfl

theorem rewriteEchoId_eq_storeL4 {type : UInt8} {icmp : Nat}
    (h : p.echo type = some (ip, icmp)) (hihl : 20 ≤ p.ihl) (addr : IPv4Net) (id : UInt16) :
    p.rewriteEchoId dir ip icmp addr id = p.storeL4 (dir.addrField ip) (icmp + 2) (icmp + 4)
      (updateChecksum32 (load16 p.rawSpan 24) ⟨load32 p.rawSpan (dir.addrField ip)⟩ addr)
      (echoCheck p.l4Check (load16 p.rawSpan (icmp + 4)) id) addr id := by
  have hlayout := layout_of_echo dir h hihl
  obtain ⟨rfl, hproto, rfl, -, -, -⟩ := echo_layout h
  have hfields := rewriteEcho_eq_storeFields hlayout.fieldsApart addr id
  have hcheck : p.l4Check = load16 p.rawSpan (p.l4Start + 2) := by rw [l4Check, hproto]; rfl
  simp only [rewriteEchoId, storeL4, hfields, hcheck]
  rfl

section
variable {a c f : Nat} (h : p.L4Layout a c f) (ipCheck l4Check : UInt16) (addr : IPv4Net)
  (port : UInt16)
include h

theorem segmentLength_storeL4 :
    (p.storeL4 a c f ipCheck l4Check addr port).segmentLength = p.segmentLength := by
  obtain ⟨hstart, haddr, hcheck, hport, -, hudp, -⟩ := h
  have hfour : sizeofEthernetHeader = 14 := rfl
  -- the two length fields are none of the four that are stored
  unfold segmentLength totLen
  rw [l4Protocol_storeL4,
    show (p.storeL4 a c f ipCheck l4Check addr port).l4Start = p.l4Start from rfl,
    show (p.storeL4 a c f ipCheck l4Check addr port).ihl = p.ihl from rfl]
  simp only [storeL4, withBytes_rawSpan]
  split_ifs with hproto
  · obtain ⟨hc, hf⟩ := hudp hproto
    rw [load16_storeFields_of_disjoint _ _ _ _ (by omega) (by omega) (by omega) (by omega)]
  · rw [load16_storeFields_of_disjoint _ _ _ _ (by omega) (by omega) (by omega) (by omega)]

theorem length_segment_storeL4 :
    (p.storeL4 a c f ipCheck l4Check addr port).segment.length = p.segment.length := by
  rw [segment, segment, length_slice, length_slice, segmentLength_storeL4 h]
  simp only [storeL4, withBytes_rawSpan, length_storeFields]
  rfl

theorem wordSum_segment_storeL4 (hseg : l4HeaderSize p.l4Protocol ≤ p.segment.length) :
    wordSum (p.storeL4 a c f ipCheck l4Check addr port).segment +
        (ntohs (load16 p.rawSpan c)).toNat + (ntohs (load16 p.rawSpan f)).toNat =
      wordSum p.segment + (ntohs l4Check).toNat + (ntohs port).toNat := by
  have hapart := h.fieldsApart
  have hlen := segmentLength_storeL4 h ipCheck l4Check addr port
  obtain ⟨hstart, haddr, hcheck, hport, -, -, -⟩ := h
  have hn : l4HeaderSize p.l4Protocol ≤ p.segmentLength := by
    rw [segment, length_slice] at hseg
    omega
  rw [segment, hlen]
  exact wordSum_segment_storeFields hapart ipCheck l4Check addr port (o := p.l4Start)
    (n := p.segmentLength) (by omega) hcheck.1 hport.1 hcheck.2.1 hport.2.1 (by omega) (by omega)

theorem wordSum_addresses_storeL4 :
    wordSum (slice (p.storeL4 a c f ipCheck l4Check addr port).rawSpan 26 8) +
        words32 (load32 p.rawSpan a) =
      wordSum (slice p.rawSpan 26 8) + words32 addr.raw := by
  have hapart := h.fieldsApart
  obtain ⟨hstart, haddr, hcheck, hport, -, -, -⟩ := h
  have hfour : sizeofEthernetHeader = 14 := rfl
  exact wordSum_addresses_storeFields hapart ipCheck l4Check addr port (o := 26) (n := 8)
    (by omega) (by omega) (by omega) (by omega) (by omega) (by omega)

theorem wordSum_header_storeL4 :
    wordSum (p.storeL4 a c f ipCheck l4Check addr port).headerBytes +
        (ntohs (load16 p.rawSpan 24)).toNat + words32 (load32 p.rawSpan a) =
      wordSum p.headerBytes + (ntohs ipCheck).toNat + words32 addr.raw := by
  have hapart := h.fieldsApart
  obtain ⟨hstart, haddr, hcheck, hport, -, -, -⟩ := h
  have hfour : sizeofEthernetHeader = 14 := rfl
  have hihl : p.l4Start = 14 + p.ihl := rfl
  exact wordSum_header_storeFields hapart ipCheck l4Check addr port (n := p.ihl) (by omega)
    (by omega) (by omega) (by omega)

end

theorem wordSum_pseudoHeader (p : ParsedPacket) (h : 34 ≤ p.rawSpan.length) (l : List UInt8) :
    wordSum (p.pseudoHeader ++ l) = wordSum (slice p.rawSpan 26 8) +
      wordSum [0, p.l4Protocol, UInt8.ofNat (p.segmentLength / 256),
        UInt8.ofNat p.segmentLength] + wordSum l := by
  have hslice : (slice p.rawSpan 26 8).length = 8 := by
    rw [length_slice]
    omega
  have hlen : p.pseudoHeader.length % 2 = 0 := by
    rw [pseudoHeader, List.length_append]
    simp only [sizeofEthernetHeader, hslice, List.length_cons, List.length_nil]
  rw [wordSum_append hlen, pseudoHeader, sizeofEthernetHeader, wordSum_append (by rw [hslice])]

theorem wordSum_checksummed_storeL4 {a c f : Nat} (h : p.L4Layout a c f)
    (hproto : p.l4Protocol ≠ 1) (hseg : l4HeaderSize p.l4Protocol ≤ p.segment.length)
    (ipCheck l4Check : UInt16) (addr : IPv4Net) (port : UInt16) :
    wordSum (p.storeL4 a c f ipCheck l4Check addr port).checksummed +
        (ntohs (load16 p.rawSpan c)).toNat +
        endpointSum ⟨load32 p.rawSpan a⟩ (load16 p.rawSpan f) =
      wordSum p.checksummed + (ntohs l4Check).toNat + endpointSum addr port := by
  have hsegment := wordSum_segment_storeL4 h ipCheck l4Check addr port hseg
  have haddresses := wordSum_addresses_storeL4 h ipCheck l4Check addr port
  have hlen := segmentLength_storeL4 h ipCheck l4Check addr port
  have hbytes : 34 ≤ p.rawSpan.length := by
    obtain ⟨hstart, -, -, -, -, -, hbound⟩ := h
    omega
  have hq : 34 ≤ (p.storeL4 a c f ipCheck l4Check addr port).rawSpan.length := by
    simpa only [storeL4, withBytes_rawSpan, length_storeFields] using hbytes
  rw [checksummed, checksummed, l4Protocol_storeL4, if_neg hproto, if_neg hproto,
    wordSum_pseudoHeader _ hq, wordSum_pseudoHeader _ hbytes, l4Protocol_storeL4, hlen]
  simp only [endpointSum]
  omega

/-- The pseudo-header holds the protocol number, so a TCP or UDP sum is never zero. -/
theorem l4Verifies_iff (hproto : p.l4Protocol = 6 ∨ p.l4Protocol = 17) :
    p.L4Verifies ↔ l4HeaderSize p.l4Protocol ≤ p.segment.length ∧
      wordSum p.checksummed % 65535 = 0 := by
  have hone : p.l4Protocol ≠ 1 := by rcases hproto with h | h <;> rw [h] <;> decide
  have hzero : p.l4Protocol ≠ 0 := by rcases hproto with h | h <;> rw [h] <;> decide
  have hsum : wordSum p.checksummed ≠ 0 := by
    intro hsum
    have hmem : p.l4Protocol ∈ p.checksummed := by simp [checksummed, pseudoHeader, hone]
    exact hzero (wordSum_eq_zero.mp hsum _ hmem)
  rw [L4Verifies, onesSum_eq_iff]
  simp [hsum]

theorem l4Check_rewriteFlow {v : PortView} (h : p.ports = some (ip, v)) (hihl : 20 ≤ p.ihl)
    (addr : IPv4Net) (port : UInt16) :
    (p.rewriteFlow dir ip v addr port).l4Check =
      flowCheck p.l4Check (dir.addr (p.keyAt ip v)) addr (dir.port (p.keyAt ip v)) port := by
  have hlayout := layout_of_ports dir h hihl
  obtain ⟨-, -, -, -, hcheck, -⟩ := ports_layout h
  rw [rewriteFlow_eq_storeL4 h hihl, hcheck]
  rw [hcheck] at hlayout
  exact load16_storeFields_check hlayout.fieldsApart ..

theorem l4Verifies_rewriteFlow {v : PortView} (h : p.ports = some (ip, v)) (hihl : 20 ≤ p.ihl)
    (hver : p.L4Verifies) (addr : IPv4Net) (port : UInt16) :
    (p.rewriteFlow dir ip v addr port).L4Verifies ↔ p.l4Check ≠ 0 ∨
      endpointSum (dir.addr (p.keyAt ip v)) (dir.port (p.keyAt ip v)) ≡
        endpointSum addr port [MOD 65535] := by
  have hlayout := layout_of_ports dir h hihl
  obtain ⟨-, hproto, -, -, hcheck, -⟩ := ports_layout h
  have hone : p.l4Protocol ≠ 1 := by rcases hproto with h | h <;> rw [h] <;> decide
  obtain ⟨hseg, hsum⟩ := (l4Verifies_iff hproto).mp hver
  have hstore := wordSum_checksummed_storeL4 hlayout hone hseg
    (updateChecksum32 (load16 p.rawSpan 24) (dir.addr (p.keyAt ip v)) addr)
    (flowCheck p.l4Check (dir.addr (p.keyAt ip v)) addr (dir.port (p.keyAt ip v)) port) addr port
  have hlen := length_segment_storeL4 hlayout
    (updateChecksum32 (load16 p.rawSpan 24) (dir.addr (p.keyAt ip v)) addr)
    (flowCheck p.l4Check (dir.addr (p.keyAt ip v)) addr (dir.port (p.keyAt ip v)) port) addr port
  have hold : endpointSum ⟨load32 p.rawSpan (dir.addrField ip)⟩
      (load16 p.rawSpan (dir.portField v)) =
        endpointSum (dir.addr (p.keyAt ip v)) (dir.port (p.keyAt ip v)) := by
    cases dir <;> rfl
  rw [hold, show load16 p.rawSpan v.check = p.l4Check by rw [l4Check, hcheck]] at hstore
  rw [rewriteFlow_eq_storeL4 h hihl, l4Verifies_iff (by rwa [l4Protocol_storeL4]),
    l4Protocol_storeL4, hlen, and_iff_right hseg]
  by_cases hzero : p.l4Check = 0
  · rw [flowCheck, if_neg (not_not.mpr hzero)] at hstore ⊢
    rw [or_iff_right (not_not.mpr hzero), Nat.ModEq]
    omega
  · have hupdate := (flowCheck_spec hzero (dir.addr (p.keyAt ip v)) addr
      (dir.port (p.keyAt ip v)) port).1
    simp only [ne_eq, hzero, not_false_eq_true, true_or, iff_true]
    omega

end ParsedPacket

end Hpgtp
