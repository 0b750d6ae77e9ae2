import TrafficPrioritizer.Net.Types

/-! The packed wire headers, as field offsets into a byte span, and the packet
context that `parse` lays over a received frame. A view is the offset of its
header in the span, and `none` is the null pointer. -/

namespace Hpgtp
open ByteBuffer

def sizeofEthernetHeader : Nat := 14
def sizeofIPv4Header : Nat := 20
def sizeofUDPHeader : Nat := 8
def sizeofTCPHeader : Nat := 20
def sizeofIcmpEchoHeader : Nat := 8

namespace IPv4Header

def verIhl (b : List UInt8) (ip : Nat) : UInt8 := load8 b ip
def fragOff (b : List UInt8) (ip : Nat) : UInt16 := load16 b (ip + 6)
def protocol (b : List UInt8) (ip : Nat) : UInt8 := load8 b (ip + 9)
def saddr (b : List UInt8) (ip : Nat) : IPv4Net := ⟨load32 b (ip + 12)⟩
def daddr (b : List UInt8) (ip : Nat) : IPv4Net := ⟨load32 b (ip + 16)⟩

end IPv4Header

def ethProtoWireToHost (be : UInt16) : UInt16 := swap16 be

def l4HeaderSize (protocol : UInt8) : Nat :=
  if protocol = 17 then sizeofUDPHeader
  else if protocol = 6 then sizeofTCPHeader
  else if protocol = 1 then sizeofIcmpEchoHeader
  else 0

structure ParsedPacket where
  rawSpan : List UInt8
  eth : Option Nat := none
  ipv4 : Option Nat := none
  l4Protocol : UInt8 := 0
  ihl : Nat := 0
  l4Offset : Nat := 0
  l4Header : Option Nat := none
  eth_inBounds : ∀ o ∈ eth, o + sizeofEthernetHeader ≤ rawSpan.length := by simp
  ipv4_inBounds : ∀ o ∈ ipv4, o = sizeofEthernetHeader ∧ o + sizeofIPv4Header ≤ rawSpan.length := by
    simp
  l4_inBounds : ∀ o ∈ l4Header, o = sizeofEthernetHeader + ihl ∧
    o + l4HeaderSize l4Protocol ≤ rawSpan.length := by simp
  ihl_words : ihl % 4 = 0 := by simp
  deriving DecidableEq

namespace ParsedPacket

def udp (p : ParsedPacket) : Option Nat := if p.l4Protocol = 17 then p.l4Header else none

def tcp (p : ParsedPacket) : Option Nat := if p.l4Protocol = 6 then p.l4Header else none

def icmpEcho (p : ParsedPacket) : Option Nat := if p.l4Protocol = 1 then p.l4Header else none

def isValidIpv4 (p : ParsedPacket) : Bool := p.ipv4.isSome

/-- The tail of `parse` once the IPv4 header and its length are in the span: the L4
view is set when the header of a known protocol fits. -/
def parseL4 (span : List UInt8) (ihl : Nat) (hihl : ihl % 4 = 0)
    (hip : sizeofEthernetHeader + sizeofIPv4Header ≤ span.length) : ParsedPacket :=
  let l4Protocol := IPv4Header.protocol span sizeofEthernetHeader
  let l4Offset := sizeofEthernetHeader + ihl
  if hl4 : (l4Protocol = 17 ∨ l4Protocol = 6 ∨ l4Protocol = 1) ∧
      l4Offset + l4HeaderSize l4Protocol ≤ span.length then
    { rawSpan := span, eth := some 0, ipv4 := some sizeofEthernetHeader, l4Protocol, ihl,
      l4Offset, l4Header := some l4Offset,
      eth_inBounds := by simp; omega
      ipv4_inBounds := by simpa using hip
      l4_inBounds := by simpa [l4Offset] using hl4.2
      ihl_words := hihl }
  else
    { rawSpan := span, eth := some 0, ipv4 := some sizeofEthernetHeader, l4Protocol, ihl,
      l4Offset,
      eth_inBounds := by simp; omega
      ipv4_inBounds := by simpa using hip
      ihl_words := hihl }

def parse (span : List UInt8) : ParsedPacket :=
  if heth : span.length < sizeofEthernetHeader then { rawSpan := span }
  -- IPv4 only
  else if ethProtoWireToHost (load16 span 12) ≠ 0x0800 then
    { rawSpan := span, eth := some 0, eth_inBounds := by simpa using heth }
  else if hip : span.length < sizeofEthernetHeader + sizeofIPv4Header then
    { rawSpan := span, eth := some 0, eth_inBounds := by simpa using heth }
  else
    let ihl := (IPv4Header.verIhl span sizeofEthernetHeader &&& 0x0F).toNat * 4
    -- Bad packet
    if span.length < sizeofEthernetHeader + ihl then
      { rawSpan := span, eth := some 0, ipv4 := some sizeofEthernetHeader, ihl,
        l4Offset := sizeofEthernetHeader + ihl,
        eth_inBounds := by simpa using heth
        ipv4_inBounds := by simpa using hip
        ihl_words := Nat.mul_mod_left _ 4 }
    else parseL4 span ihl (Nat.mul_mod_left _ 4) (by omega)

@[simp] theorem parse_rawSpan (b : List UInt8) : (parse b).rawSpan = b := by
  unfold parse parseL4
  dsimp only
  split_ifs <;> rfl

theorem parse_of_plain {b : List UInt8} {protocol : UInt8}
    (hknown : protocol = 17 ∨ protocol = 6 ∨ protocol = 1)
    (hlen : 34 + l4HeaderSize protocol ≤ b.length) (heth : load16 b 12 = htons 0x0800)
    (hihl : load8 b 14 = 0x45) (hproto : load8 b 23 = protocol) :
    (parse b).rawSpan = b ∧ (parse b).ipv4 = some 14 ∧ (parse b).l4Protocol = protocol ∧
      (parse b).ihl = 20 ∧ (parse b).l4Offset = 34 ∧ (parse b).l4Header = some 34 := by
  have hihl' : (IPv4Header.verIhl b sizeofEthernetHeader &&& 0x0F).toNat * 4 = 20 := by
    rw [show IPv4Header.verIhl b sizeofEthernetHeader = 0x45 from hihl]
    decide
  have hip : IPv4Header.protocol b sizeofEthernetHeader = protocol := hproto
  have h34 : ¬b.length < sizeofEthernetHeader + sizeofIPv4Header :=
    Nat.not_lt.mpr (Nat.le_trans (Nat.le_add_right ..) hlen)
  have h14 : ¬b.length < sizeofEthernetHeader := fun h => h34 (Nat.lt_of_lt_of_le h (by decide))
  have hl4 : (protocol = 17 ∨ protocol = 6 ∨ protocol = 1) ∧
      sizeofEthernetHeader + 20 + l4HeaderSize protocol ≤ b.length := ⟨hknown, hlen⟩
  have hparse : parse b = parseL4 b 20 (by decide) (Nat.not_lt.mp h34) := by
    unfold parse
    rw [dif_neg h14, if_neg (by rw [heth]; decide), dif_neg h34]
    simp only [hihl']
    exact if_neg h34
  rw [hparse]
  simp only [parseL4, hip, dif_pos hl4]
  exact ⟨trivial, rfl, trivial, trivial, rfl, rfl⟩

def withBytes (p : ParsedPacket) (b : List UInt8) (h : b.length = p.rawSpan.length) :
    ParsedPacket :=
  { p with
    rawSpan := b
    eth_inBounds := by simpa only [h] using p.eth_inBounds
    ipv4_inBounds := by simpa only [h] using p.ipv4_inBounds
    l4_inBounds := by simpa only [h] using p.l4_inBounds }

end ParsedPacket
end Hpgtp
