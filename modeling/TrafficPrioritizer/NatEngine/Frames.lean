import TrafficPrioritizer.NatEngine.Packets

/-! The frames the self test builds, with every address and port. -/

namespace Hpgtp
open ByteBuffer

def makeFrame (size : Nat) (protocol : UInt8) (totLen : UInt16) (sip dip : IPv4Net)
    (sport dport : UInt16) : List UInt8 :=
  let b := List.replicate size 0
  let b := store16 b 12 (htons 0x0800)
  let b := b.set 14 0x45
  let b := b.set 23 protocol
  let b := store16 b 16 (htons totLen)
  let b := store32 b 26 sip.raw
  let b := store32 b 30 dip.raw
  let b := store16 b 34 (htons sport)
  store16 b 36 (htons dport)

def makeUdpPkt (sip dip : IPv4Net) (sport dport : UInt16) : List UInt8 :=
  store16 (makeFrame 42 17 28 sip dip sport dport) 38 (htons 8)

def makeTcpPkt (sip dip : IPv4Net) (sport dport flags : UInt16) : List UInt8 :=
  store16 (makeFrame 54 6 40 sip dip sport dport) 46 (htons flags)

def makeIcmpPkt (type : UInt8) (sip dip : IPv4Net) (id : UInt16) : List UInt8 :=
  let b := List.replicate 42 0
  let b := store16 b 12 (htons 0x0800)
  let b := b.set 14 0x45
  let b := b.set 23 1
  let b := store16 b 16 (htons 28)
  let b := b.set 22 64
  let b := store32 b 26 sip.raw
  let b := store32 b 30 dip.raw
  let b := b.set 34 type
  let b := store16 b 38 (htons id)
  store16 b 40 (htons 1)

namespace ParsedPacket

theorem flowKey_parse {b : List UInt8} {protocol : UInt8} (hproto : protocol = 6 ∨ protocol = 17)
    (hlen : 34 + l4HeaderSize protocol ≤ b.length) (heth : load16 b 12 = htons 0x0800)
    (hihl : load8 b 14 = 0x45) (hp : load8 b 23 = protocol) :
    (parse b).flowKey = some ⟨⟨load32 b 26⟩, ⟨load32 b 30⟩, load16 b 34, load16 b 36⟩ ∧
      (parse b).l4Protocol = protocol ∧ (parse b).ihl = 20 := by
  have hknown : protocol = 17 ∨ protocol = 6 ∨ protocol = 1 := by tauto
  obtain ⟨hraw, hipv4, hl4p, hihl, -, hl4⟩ := parse_of_plain hknown hlen heth hihl hp
  have hip : IPv4Header.protocol b 14 = protocol := hp
  refine ⟨?_, hl4p, hihl⟩
  rcases hproto with rfl | rfl <;>
    simp only [flowKey, keyAt, ports, portView, udp, tcp, hraw, hipv4, hl4p, hl4, hip] <;> rfl

end ParsedPacket

theorem length_makeFrame (size : Nat) (protocol : UInt8) (totLen : UInt16) (sip dip : IPv4Net)
    (sport dport : UInt16) :
    (makeFrame size protocol totLen sip dip sport dport).length = size := by simp [makeFrame]

theorem makeFrame_fields {size o : Nat} {v totLen sport dport : UInt16} {protocol : UInt8}
    {sip dip : IPv4Net} {b : List UInt8} (hsize : 38 ≤ size) (ho : 38 ≤ o)
    (hb : b = store16 (makeFrame size protocol totLen sip dip sport dport) o v) :
    load16 b 12 = htons 0x0800 ∧ load8 b 14 = 0x45 ∧ load8 b 23 = protocol ∧
      load32 b 26 = sip.raw ∧ load32 b 30 = dip.raw ∧ load16 b 34 = htons sport ∧
      load16 b 36 = htons dport := by
  simp only [hb, makeFrame]
  refine ⟨?_, ?_, ?_, ?_, ?_, ?_, ?_⟩
  all_goals
    simp (disch := first | omega | (simp; omega)) only [load16_store16_of_disjoint,
      load16_store32_of_disjoint, load8_store16_of_disjoint, load8_store32_of_disjoint,
      load32_store16_of_disjoint, load32_store32_of_disjoint, load16_store16_self,
      load32_store32_self, load8_set, load16_set_of_disjoint, List.length_set, length_store16,
      List.length_replicate]
  · rw [if_neg (by omega), if_pos ⟨trivial, by omega⟩]
  · rw [if_pos ⟨trivial, by omega⟩]

theorem flowKey_makeFrame {size o : Nat} {v totLen sport dport : UInt16} {protocol : UInt8}
    {sip dip : IPv4Net} {b : List UInt8} (hproto : protocol = 6 ∨ protocol = 17)
    (hsize : 34 + l4HeaderSize protocol ≤ size) (ho : 38 ≤ o)
    (hb : b = store16 (makeFrame size protocol totLen sip dip sport dport) o v) :
    (ParsedPacket.parse b).flowKey = some ⟨sip, dip, htons sport, htons dport⟩ ∧
      (ParsedPacket.parse b).l4Protocol = protocol := by
  have hl4 : 8 ≤ l4HeaderSize protocol := by rcases hproto with rfl | rfl <;> decide
  obtain ⟨heth, hihl, hp, hsa, hda, hsp, hdp⟩ := makeFrame_fields (by omega) ho hb
  have hlen : b.length = size := by rw [hb, length_store16, length_makeFrame]
  rw [← hlen] at hsize
  obtain ⟨hkey, hproto, -⟩ := ParsedPacket.flowKey_parse hproto hsize heth hihl hp
  rw [hsa, hda, hsp, hdp] at hkey
  exact ⟨hkey, hproto⟩

theorem flowKey_makeUdpPkt (sip dip : IPv4Net) (sport dport : UInt16) :
    (ParsedPacket.parse (makeUdpPkt sip dip sport dport)).flowKey =
        some ⟨sip, dip, htons sport, htons dport⟩ ∧
      (ParsedPacket.parse (makeUdpPkt sip dip sport dport)).l4Protocol = 17 :=
  flowKey_makeFrame (.inr rfl) (by decide) (by decide) rfl

theorem flowKey_makeTcpPkt (sip dip : IPv4Net) (sport dport flags : UInt16) :
    (ParsedPacket.parse (makeTcpPkt sip dip sport dport flags)).flowKey =
        some ⟨sip, dip, htons sport, htons dport⟩ ∧
      (ParsedPacket.parse (makeTcpPkt sip dip sport dport flags)).l4Protocol = 6 :=
  flowKey_makeFrame (.inl rfl) (by decide) (by decide) rfl

end Hpgtp
