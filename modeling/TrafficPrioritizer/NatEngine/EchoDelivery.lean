import TrafficPrioritizer.NatEngine.Clock
import TrafficPrioritizer.NatEngine.Frames

/-! The echo tables are a bijection between external ids and active sessions in
every reachable state, so a reply finds the session of its request for as long as
that session cannot be overwritten. -/

namespace Hpgtp
open ByteBuffer ReverseIndex

namespace NatEngine

def EchoBijection (e : NatEngine) : Prop :=
  (∀ id, 0 ≤ e.icmpIdToIndex id → ∃ i : Fin maxIcmpSessions, e.icmpIdToIndex id = (i : Nat)) ∧
  (∀ id (i : Fin maxIcmpSessions), e.icmpIdToIndex id = (i : Nat) ↔
    (e.icmpSessions i).active = true ∧ ntohs (e.icmpSessions i).extIdNbo = id) ∧
  ∀ i, (e.icmpSessions i).active = true → Ephemeral (ntohs (e.icmpSessions i).extIdNbo)

/-- A request of `key` translated to `id` after `before`; then calls `after` with at most 300
ticks and no new WAN address; then a reply to that id from the request's destination. -/
structure EchoExchange (before after : List Op) (request reply : ParsedPacket) (key : EchoKey)
    (id : UInt16) : Prop where
  sent : request.echoKey 8 = some key
  translated : ((new.run before).processOutbound request).translated = true
  given : ((new.run before).processOutbound request).packet.echoId = some id
  sameWan : ∀ ip, Op.setWanIp ip ∉ after
  recent : ticks after ≤ 300
  answered : reply.echoKey 0 = some ⟨key.daddr, (new.run before).wanIp, id⟩

theorem EchoesOk.bijection {e : NatEngine} (h : e.EchoesOk) : e.EchoBijection := by
  refine ⟨fun id hid => ?_, fun id i => ⟨fun hi => h.index.owner hi, fun hown => ?_⟩, h.ids⟩
  · rcases h.index id with hneg | ⟨i, hi, -⟩
    · omega
    · exact ⟨i, hi⟩
  · exact h.complete i id hown

theorem acceptIcmpSlot_of_at {e : NatEngine} {i : Fin maxIcmpSessions} {key : EchoKey} {id : UInt16}
    {n : Nat} (hok : e.EchoesOk) (h : echoTable.At e i key id n) :
    e.acceptIcmpSlot ⟨key.daddr, e.wanIp, id⟩ = some i := by
  have hrem : (e.icmpSessions i).remoteDaddr = key.daddr := congrArg EchoKey.daddr h.key
  have hid : (e.icmpSessions i).extIdNbo = id := h.external
  refine acceptIcmpSlot_eq_some.mpr ⟨rfl, ?_, hok.seq i, h.active, hrem, hid⟩
  exact hok.complete i _ ⟨h.active, by rw [hid]⟩

theorem processInbound_of_echoAt {e : NatEngine} {reply : ParsedPacket}
    {i : Fin maxIcmpSessions} {key : EchoKey} {id : UInt16} {n : Nat} (hok : e.EchoesOk)
    (h : echoTable.At e i key id n) (hreply : reply.echoKey 0 = some ⟨key.daddr, e.wanIp, id⟩) :
    (e.processInbound reply).translated = true ∧
      (e.processInbound reply).packet.echoId = some key.idNbo ∧
      ((e.processInbound reply).packet.destAddr = some key.saddr ↔
        reply.ihl ≠ 12 ∨ low16 key.saddr.raw = key.idNbo) := by
  obtain ⟨ip, icmp, hecho, hkey⟩ := ParsedPacket.echoKey_eq_some.mp hreply
  obtain ⟨hip, -, hview⟩ := ParsedPacket.echo_eq_some.mp hecho
  have hicmp := ParsedPacket.icmpEcho_of_echoView hview
  have hsa : (e.icmpSessions i).intSaddr = key.saddr := congrArg EchoKey.saddr h.key
  have hid : (e.icmpSessions i).intIdNbo = key.idNbo := congrArg EchoKey.idNbo h.key
  rw [processInbound_of_echo hecho, hkey, acceptIcmpSlot_of_at hok h]
  simp only [hsa, hid]
  exact ⟨trivial, ParsedPacket.echoId_rewriteEchoDestination hicmp _ _,
    ParsedPacket.destAddr_rewriteEchoDestination hip hicmp _ _⟩

/-- In every reachable state the echo tables are a bijection, and in every exchange the reply
is translated to the address and id of the request, exactly when the reply's id field does not
overlap its destination address or the overlap does no harm. -/
theorem echo_reply_delivered (before after : List Op) (request reply : ParsedPacket)
    (key : EchoKey) (id : UInt16) :
    (new.run before).EchoBijection ∧
    (EchoExchange before after request reply key id →
      let o := (new.run (before ++ .outbound request :: after)).processInbound reply
      (o.translated = true ∧ o.packet.destAddr = some key.saddr ∧
          o.packet.echoId = some key.idNbo ↔
        reply.ihl ≠ 12 ∨ low16 key.saddr.raw = key.idNbo)) := by
  have hok := echoesOk_new.run
  refine ⟨(hok before).bijection, fun h => ?_⟩
  obtain ⟨i, hat⟩ := echoTable.at_after h.sent h.translated h.given h.recent
  have hwan := wanIp_after before request h.sameWan
  obtain ⟨htr, hid, haddr⟩ := processInbound_of_echoAt (hok _) hat (hwan ▸ h.answered)
  constructor
  · exact fun hdel => haddr.mp hdel.2.1
  · exact fun hcond => ⟨htr, haddr.mpr hcond, hid⟩

theorem echo_reply_delivered_selfTest :
    let o := (new.run [.setWanIp (octets 203 0 113 1),
      .outbound (.parse (makeIcmpPkt 8 (octets 192 168 1 100) (octets 8 8 8 8) 4242)), .tick]).processInbound
        (.parse (makeIcmpPkt 0 (octets 8 8 8 8) (octets 203 0 113 1) 25000))
    o.translated = true ∧ o.packet.destAddr = some (octets 192 168 1 100) ∧
      o.packet.echoId = some (htons 4242) :=
  ((echo_reply_delivered [.setWanIp (octets 203 0 113 1)] [.tick] _ _
    ⟨octets 192 168 1 100, octets 8 8 8 8, htons 4242⟩ (htons 25000)).2
    ⟨by decide +kernel, by decide +kernel, by decide +kernel, by simp, by decide,
      by decide +kernel⟩).mpr (.inl (by decide +kernel))

/-- A reply with an IHL of three words: its echo header starts at the source address, which
gives the type, code and checksum, and its id is the first half of the destination. -/
def shortHeaderReply (sip dip : IPv4Net) : List UInt8 :=
  let b := List.replicate 34 0
  let b := store16 b 12 (htons 0x0800)
  let b := b.set 14 0x43
  let b := b.set 23 1
  store32 (store32 b 26 sip.raw) 30 dip.raw

/-- The WAN address `97.168.0.1` begins with the bytes of id 25000: the reply from `0.0.1.2`
goes to `16.146.1.100`, the id 4242 over the first half of `192.168.1.100`. -/
theorem echo_reply_misdelivered :
    let request := ParsedPacket.parse
      (makeIcmpPkt 8 (octets 192 168 1 100) (octets 0 0 1 2) 4242)
    let reply := ParsedPacket.parse (shortHeaderReply (octets 0 0 1 2) (octets 97 168 0 1))
    let key : EchoKey := ⟨octets 192 168 1 100, octets 0 0 1 2, htons 4242⟩
    let o := (new.run [.setWanIp (octets 97 168 0 1), .outbound request]).processInbound reply
    EchoExchange [.setWanIp (octets 97 168 0 1)] [] request reply key (htons 25000) ∧
      o.translated = true ∧ o.packet.destAddr = some (octets 16 146 1 100) ∧
      o.packet.destAddr ≠ some key.saddr := by
  refine ⟨⟨?_, ?_, ?_, by simp, by decide, ?_⟩, ?_, ?_, ?_⟩ <;> decide +kernel

end NatEngine
end Hpgtp
