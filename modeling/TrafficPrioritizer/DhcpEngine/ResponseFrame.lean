import TrafficPrioritizer.DhcpEngine.Messages
import TrafficPrioritizer.Net.PacketChecks

/-! The frame of a response, taken apart again: its layers by `parse`, the sum of its IPv4
header as a receiver checks it, the BOOTP fields, and the options by the engine's own walk. -/

namespace Hpgtp
open ByteBuffer OptionArea OnesComplement

def DhcpHeader.yiaddr (b : List UInt8) (o : ℕ) : UInt32 := load32 b (o + 16)

theorem ipHeaderChecksum_spec {header : List UInt8} (h : header.length = sizeofIPv4Header) :
    (wordSum header + (ntohs (ipHeaderChecksum header)).toNat) % 65535 = 0 := by
  have hsum := wordSum_eq_sum (n := sizeofIPv4Header / 2) h
  have hlt : wordSum header < 65536 * 65536 := by
    have hle := wordSum_le header
    rw [h] at hle
    exact lt_of_le_of_lt hle (by decide)
  have hcheck : ntohs (ipHeaderChecksum header) = ~~~(UInt16.ofNat
      (wordSum header / 65536 + wordSum header % 65536 +
        (wordSum header / 65536 + wordSum header % 65536) / 65536)) := by
    rw [ipHeaderChecksum, hsum]
    exact swap16_swap16 _
  rw [hcheck]
  exact sum_add_complement hlt (Nat.add_comm _ _)

namespace DhcpEngine

section
variable (d : DhcpEngine) (r : DhcpRequest) (type : UInt8) (yiaddr : IPv4Net)

theorem length_responseHeader : (d.responseHeader r yiaddr).length = 240 := by
  simp only [responseHeader, List.length_append, List.length_replicate, Vector.length_toList]
  rfl

theorem length_responseOptions : (d.responseOptions type).length = 38 := rfl

theorem length_responseIpHeader (ipLen : ℕ) (check : UInt16) :
    (d.responseIpHeader ipLen check).length = 20 := rfl

/-! ## The layers -/

def responseEthHeader : List UInt8 :=
  r.mac.toList ++ d.lanIfMac.toList ++ bytes16 (htons 0x0800)

def responseUdpHeader : List UInt8 :=
  bytes16 (htons 67) ++ bytes16 (htons 68) ++ bytes16 (htons 286) ++ bytes16 0

theorem responseFrame_eq : d.responseFrame r type yiaddr =
    d.responseEthHeader r ++
      (d.responseIpHeader 306 (ipHeaderChecksum (d.responseIpHeader 306 0)) ++
        (responseUdpHeader ++ (d.responseHeader r yiaddr ++ d.responseOptions type))) := by
  have hlen : (d.responseHeader r yiaddr ++ d.responseOptions type).length = 278 := by
    rw [List.length_append, length_responseHeader, length_responseOptions]
  unfold responseFrame
  dsimp only
  rw [hlen, List.append_assoc, List.append_assoc]
  rfl

theorem length_responseEthHeader : (d.responseEthHeader r).length = 14 := by
  simp only [responseEthHeader, List.length_append, Vector.length_toList]
  rfl

theorem drop_responseFrame_eth : (d.responseFrame r type yiaddr).drop 14 =
    d.responseIpHeader 306 (ipHeaderChecksum (d.responseIpHeader 306 0)) ++
      (responseUdpHeader ++ (d.responseHeader r yiaddr ++ d.responseOptions type)) := by
  rw [responseFrame_eq, List.drop_left' (d.length_responseEthHeader r)]

theorem drop_responseFrame_ip : (d.responseFrame r type yiaddr).drop 34 =
    responseUdpHeader ++ (d.responseHeader r yiaddr ++ d.responseOptions type) :=
  drop_skip (d.drop_responseFrame_eth r type yiaddr) (d.length_responseIpHeader ..)

theorem drop_responseFrame_udp : (d.responseFrame r type yiaddr).drop 42 =
    d.responseHeader r yiaddr ++ d.responseOptions type :=
  drop_skip (d.drop_responseFrame_ip r type yiaddr) rfl

theorem drop_responseFrame_bootp :
    (d.responseFrame r type yiaddr).drop 282 = d.responseOptions type :=
  drop_skip (d.drop_responseFrame_udp r type yiaddr) (d.length_responseHeader r yiaddr)

theorem length_responseFrame : (d.responseFrame r type yiaddr).length = 320 := by
  rw [responseFrame_eq]
  simp only [List.length_append, length_responseEthHeader, length_responseIpHeader,
    length_responseHeader, length_responseOptions]
  rfl

theorem ethType_responseFrame :
    load16 (d.responseFrame r type yiaddr) 12 = htons 0x0800 := by
  have hmacs : (r.mac.toList ++ d.lanIfMac.toList).length = 12 := by
    rw [List.length_append, Vector.length_toList, Vector.length_toList]
  rw [← Nat.add_zero 12, ← load16_drop, responseFrame_eq, responseEthHeader, List.append_assoc,
    List.drop_left' hmacs]
  exact load16_bytes16 ..

theorem parse_responseFrame :
    let p := ParsedPacket.parse (d.responseFrame r type yiaddr)
    p.rawSpan = d.responseFrame r type yiaddr ∧ p.ipv4 = some 14 ∧ p.l4Protocol = 17 ∧
      p.ihl = 20 ∧ p.l4Offset = 34 ∧ p.l4Header = some 34 := by
  have hlen : 34 + l4HeaderSize 17 ≤ (d.responseFrame r type yiaddr).length := by
    rw [length_responseFrame]
    decide
  have hip (k : ℕ) := load8_drop (d.responseFrame r type yiaddr) 14 k
  rw [drop_responseFrame_eth] at hip
  exact ParsedPacket.parse_of_plain (.inl rfl) hlen (d.ethType_responseFrame r type yiaddr)
    (hip 0).symm (hip 9).symm

/-! ## The IPv4 header -/

theorem onesSum_responseIpHeader (ipLen : ℕ) :
    onesSum (d.responseIpHeader ipLen (ipHeaderChecksum (d.responseIpHeader ipLen 0))) =
      0xFFFF := by
  have hspec := ipHeaderChecksum_spec (d.length_responseIpHeader ipLen 0)
  generalize ipHeaderChecksum (d.responseIpHeader ipLen 0) = check at *
  have hstore : d.responseIpHeader ipLen check =
      store16 (d.responseIpHeader ipLen 0) 10 check := rfl
  have hzero : load16 (d.responseIpHeader ipLen 0) 10 = 0 := rfl
  have hsum := wordSum_store16 check (show 10 % 2 = 0 from rfl)
    (show 10 + 2 ≤ (d.responseIpHeader ipLen 0).length by rw [length_responseIpHeader]; decide)
  rw [hzero, show (swap16 0).toNat = 0 by decide, Nat.add_zero, ← hstore] at hsum
  have hmem : 0x45 ∈ d.responseIpHeader ipLen check := .head _
  have hne : wordSum (d.responseIpHeader ipLen check) ≠ 0 := fun h =>
    absurd (wordSum_eq_zero.mp h 0x45 hmem) (by decide)
  refine onesSum_eq_iff.mpr ⟨?_, hne⟩
  rw [hsum]
  exact hspec

theorem headerVerifies_responseFrame :
    (ParsedPacket.parse (d.responseFrame r type yiaddr)).HeaderVerifies := by
  obtain ⟨hspan, -, -, hihl, -, -⟩ := d.parse_responseFrame r type yiaddr
  rw [ParsedPacket.HeaderVerifies, ParsedPacket.headerBytes, hspan, hihl, slice,
    show sizeofEthernetHeader = 14 from rfl, drop_responseFrame_eth,
    List.take_left' (d.length_responseIpHeader _ _)]
  exact d.onesSum_responseIpHeader 306

theorem words_responseFrame :
    load16 (d.responseFrame r type yiaddr) 16 = htons 306 ∧
      load16 (d.responseFrame r type yiaddr) 34 = htons 67 ∧
      load16 (d.responseFrame r type yiaddr) 36 = htons 68 ∧
      load16 (d.responseFrame r type yiaddr) 38 = htons 286 := by
  have hip := load16_drop (d.responseFrame r type yiaddr) 14 2
  have hudp (k : ℕ) := load16_drop (d.responseFrame r type yiaddr) 34 k
  rw [drop_responseFrame_eth] at hip
  rw [drop_responseFrame_ip] at hudp
  exact ⟨hip.symm.trans (load16_bytes16 (htons 306) []),
    (hudp 0).symm.trans (load16_bytes16 (htons 67) []),
    (hudp 2).symm.trans (load16_bytes16 (htons 68) []),
    (hudp 4).symm.trans (load16_bytes16 (htons 286) [])⟩

theorem lengths_responseFrame :
    let p := ParsedPacket.parse (d.responseFrame r type yiaddr)
    p.totLen = 306 ∧ p.l4Start = 34 ∧ p.segmentLength = 286 := by
  obtain ⟨hspan, -, hproto, hihl, -, -⟩ := d.parse_responseFrame r type yiaddr
  obtain ⟨htot, -, -, hudp⟩ := d.words_responseFrame r type yiaddr
  have hstart : (ParsedPacket.parse (d.responseFrame r type yiaddr)).l4Start = 34 := by
    rw [ParsedPacket.l4Start, hihl]
    rfl
  refine ⟨?_, hstart, ?_⟩
  · rw [ParsedPacket.totLen, hspan, show sizeofEthernetHeader + 2 = 16 from rfl, htot, ntohs_htons]
    rfl
  · rw [ParsedPacket.segmentLength, if_pos hproto, hspan, hstart, hudp, ntohs_htons]
    rfl

/-! ## The BOOTP fields -/

theorem bootp_responseFrame :
    DhcpHeader.xid (d.responseFrame r type yiaddr) 42 = r.xid ∧
      DhcpHeader.yiaddr (d.responseFrame r type yiaddr) 42 = yiaddr.raw ∧
      DhcpHeader.chaddr (d.responseFrame r type yiaddr) 42 = r.chaddr := by
  obtain ⟨toXid, toYiaddr, toChaddr, rest, hxid, hyiaddr, hchaddr, hheader⟩ :
      ∃ toXid toYiaddr toChaddr rest : List UInt8, toXid.length = 4 ∧ toYiaddr.length = 8 ∧
        toChaddr.length = 8 ∧ d.responseHeader r yiaddr = toXid ++ (bytes32 r.xid ++
          (toYiaddr ++ (bytes32 yiaddr.raw ++ (toChaddr ++ (r.chaddr.toList ++ rest))))) :=
    ⟨[2, 1, 6, 0], bytes16 0 ++ bytes16 (htons 0x8000) ++ bytes32 0,
      bytes32 d.routerIp.raw ++ bytes32 0,
      List.replicate 64 0 ++ List.replicate 128 0 ++ bytes32 (htonl 0x63825363), rfl, rfl, rfl,
      by simp only [responseHeader, List.append_assoc]⟩
  have hdrop := d.drop_responseFrame_udp r type yiaddr
  rw [hheader] at hdrop
  simp only [List.append_assoc] at hdrop
  generalize d.responseFrame r type yiaddr = frame at *
  have hdrop46 := drop_skip hdrop hxid
  have hdrop58 := drop_skip (drop_skip hdrop46 (n := 4) rfl) hyiaddr
  have hdrop70 := drop_skip (drop_skip hdrop58 (n := 4) rfl) hchaddr
  refine ⟨?_, ?_, Vector.ext fun i hi => ?_⟩
  · show load32 frame (42 + 4 + 0) = _
    rw [← load32_drop, hdrop46]
    exact load32_bytes32 ..
  · show load32 frame (42 + 4 + 4 + 8 + 0) = _
    rw [← load32_drop, hdrop58]
    exact load32_bytes32 ..
  · have hlt : i < r.chaddr.toList.length := by rwa [Vector.length_toList]
    rw [DhcpHeader.chaddr, Vector.getElem_ofFn]
    show load8 frame (42 + 4 + 4 + 8 + 4 + 8 + i) = _
    rw [← load8_drop, hdrop70, load8_append_left hlt, Vector.getElem_toList]

/-! ## The options -/

def responseItems (d : DhcpEngine) (type : UInt8) : List (Item 0 255) :=
  [messageType type,
    .entry ⟨1, [255, 255, 255, 0], by decide, by decide, by decide⟩,
    .entry ⟨3, bytes32 d.routerIp.raw, by decide, by decide, by rw [length_bytes32]; decide⟩,
    .entry ⟨6, [8, 8, 8, 8, 8, 4, 4, 4], by decide, by decide, by decide⟩,
    .entry ⟨51, bigEndian32 (d.leaseDuration % 2 ^ 32).toNat, by decide, by decide, by
      rw [length_bigEndian32]; decide⟩,
    .entry ⟨54, bytes32 d.routerIp.raw, by decide, by decide, by rw [length_bytes32]; decide⟩]

theorem responseOptions_eq :
    d.responseOptions type = encode (d.responseItems type) ++ [255] := by
  have hlease : bytes32 (htonl (UInt32.ofNat (d.leaseDuration % 2 ^ 32).toNat)) =
      bigEndian32 (d.leaseDuration % 2 ^ 32).toNat := bytes32_swap32_ofNat _
  rw [responseOptions, hlease]
  rfl

theorem walk_responseFrame {fuel : ℕ} (hfuel : 6 ≤ fuel) :
    walk 0 255 fuel ((d.responseFrame r type yiaddr).drop 282) =
      ([(53, [type]), (1, [255, 255, 255, 0]), (3, bytes32 d.routerIp.raw),
        (6, [8, 8, 8, 8, 8, 4, 4, 4]), (51, bigEndian32 (d.leaseDuration % 2 ^ 32).toNat),
        (54, bytes32 d.routerIp.raw)], [255]) := by
  rw [drop_responseFrame_bootp, responseOptions_eq]
  exact walk_encode (by decide) (d.responseItems type) [] hfuel

theorem scanOptions_responseFrame : scanOptions (d.responseFrame r type yiaddr) 38 282 {} =
    { msgType := type, rawRequestedIp := 0 } := by
  rw [scanOptions_eq_walk, walk_responseFrame _ _ _ _ (by decide)]
  rfl

end

/-- A frame that the engine sends, taken apart by the code that takes requests apart. -/
theorem response_decodes_back (d : DhcpEngine) (r : DhcpRequest) (type : UInt8)
    (yiaddr : IPv4Net) :
    let frame := (d.sendResponse r type yiaddr).frame
    let p := ParsedPacket.parse frame
    p.isValidIpv4 = true ∧ p.l4Protocol = 17 ∧ p.udp = some 34 ∧
      ntohs (load16 frame 34) = 67 ∧ ntohs (load16 frame 36) = 68 ∧
      p.HeaderVerifies ∧
      sizeofEthernetHeader + p.totLen = frame.length ∧
      p.l4Start + p.segmentLength = frame.length ∧
      DhcpHeader.xid frame 42 = r.xid ∧ DhcpHeader.yiaddr frame 42 = yiaddr.raw ∧
      DhcpHeader.chaddr frame 42 = r.chaddr ∧
      scanOptions frame (frame.length - 282) 282 {} = { msgType := type } ∧
      walk 0 255 (frame.length - 282) (frame.drop 282) =
        ([(53, [type]), (1, [255, 255, 255, 0]), (3, bytes32 d.routerIp.raw),
          (6, [8, 8, 8, 8, 8, 4, 4, 4]), (51, bigEndian32 (d.leaseDuration % 2 ^ 32).toNat),
          (54, bytes32 d.routerIp.raw)], [255]) := by
  dsimp only [sendResponse]
  have hlen := d.length_responseFrame r type yiaddr
  obtain ⟨-, hipv4, hproto, -, -, hl4⟩ := d.parse_responseFrame r type yiaddr
  obtain ⟨-, hsource, hdest, -⟩ := d.words_responseFrame r type yiaddr
  obtain ⟨htot, hstart, hsegment⟩ := d.lengths_responseFrame r type yiaddr
  obtain ⟨hxid, hyiaddr, hchaddr⟩ := d.bootp_responseFrame r type yiaddr
  refine ⟨?_, hproto, ?_, ?_, ?_, d.headerVerifies_responseFrame r type yiaddr, ?_, ?_, hxid,
    hyiaddr, hchaddr, ?_, ?_⟩
  · rw [ParsedPacket.isValidIpv4, hipv4]
    rfl
  · rw [ParsedPacket.udp, if_pos hproto, hl4]
  · rw [hsource, ntohs_htons]
  · rw [hdest, ntohs_htons]
  · rw [htot, hlen]
    rfl
  · rw [hstart, hsegment, hlen]
  · rw [hlen]
    exact d.scanOptions_responseFrame r type yiaddr
  · rw [hlen]
    exact d.walk_responseFrame r type yiaddr (by decide)

end DhcpEngine
end Hpgtp
