import TrafficPrioritizer.Lib.OnesComplement
import TrafficPrioritizer.Net.ParsedPacket

/-! What a receiver checks of a packet: its lengths and its one's-complement sums over the
IPv4 header and over pseudo-header and message. -/

namespace Hpgtp
open ByteBuffer OnesComplement

def checkOffset (protocol : UInt8) : Nat :=
  if protocol = 17 then 6 else if protocol = 6 then 16 else 2

namespace ParsedPacket

def l4Start (p : ParsedPacket) : Nat := sizeofEthernetHeader + p.ihl

def l4Check (p : ParsedPacket) : UInt16 := load16 p.rawSpan (p.l4Start + checkOffset p.l4Protocol)

def headerBytes (p : ParsedPacket) : List UInt8 := slice p.rawSpan sizeofEthernetHeader p.ihl

def HeaderVerifies (p : ParsedPacket) : Prop := onesSum p.headerBytes = 0xFFFF

def totLen (p : ParsedPacket) : Nat := (ntohs (load16 p.rawSpan (sizeofEthernetHeader + 2))).toNat

/-- A UDP datagram gives its own length; a TCP segment or an ICMP message is what the total
length leaves after the header. -/
def segmentLength (p : ParsedPacket) : Nat :=
  if p.l4Protocol = 17 then (ntohs (load16 p.rawSpan (p.l4Start + 4))).toNat
  else p.totLen - p.ihl

def segment (p : ParsedPacket) : List UInt8 := slice p.rawSpan p.l4Start p.segmentLength

def pseudoHeader (p : ParsedPacket) : List UInt8 :=
  slice p.rawSpan (sizeofEthernetHeader + 12) 8 ++
    [0, p.l4Protocol, UInt8.ofNat (p.segmentLength / 256), UInt8.ofNat p.segmentLength]

def checksummed (p : ParsedPacket) : List UInt8 :=
  if p.l4Protocol = 1 then p.segment else p.pseudoHeader ++ p.segment

def L4Verifies (p : ParsedPacket) : Prop :=
  l4HeaderSize p.l4Protocol ≤ p.segment.length ∧ onesSum p.checksummed = 0xFFFF

instance (p : ParsedPacket) : Decidable p.HeaderVerifies := inferInstanceAs (Decidable (_ = _))

instance (p : ParsedPacket) : Decidable p.L4Verifies := inferInstanceAs (Decidable (_ ∧ _))

end ParsedPacket

end Hpgtp
