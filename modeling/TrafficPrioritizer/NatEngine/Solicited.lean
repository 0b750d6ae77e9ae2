import TrafficPrioritizer.NatEngine.Tables
import TrafficPrioritizer.NatEngine.Frames
import Mathlib.Data.List.Induction

/-! Only solicited traffic is translated inbound. Every active session was written by
an earlier outbound packet of the run that was translated, and it still carries that
packet's flow and the port or id the packet was given. -/

namespace Hpgtp
open ByteBuffer ReverseIndex

def SentFlow (ops : List Op) (key : FlowKey) (port : UInt16) : Prop :=
  ∃ before pkt after, ops = before ++ .outbound pkt :: after ∧ pkt.flowKey = some key ∧
    ((NatEngine.new.run before).processOutbound pkt).translated = true ∧
    ((NatEngine.new.run before).processOutbound pkt).packet.sourcePort = some port

def SentEcho (ops : List Op) (key : EchoKey) (id : UInt16) : Prop :=
  ∃ before pkt after, ops = before ++ .outbound pkt :: after ∧ pkt.echoKey 8 = some key ∧
    ((NatEngine.new.run before).processOutbound pkt).translated = true ∧
    ((NatEngine.new.run before).processOutbound pkt).packet.echoId = some id

namespace SessionTable
variable {n : ℕ} {κ : Type} {T : SessionTable n κ} {ops : List Op} {key : κ} {ext : UInt16}

def Sent (T : SessionTable n κ) (ops : List Op) (key : κ) (ext : UInt16) : Prop :=
  ∃ before pkt after, ops = before ++ .outbound pkt :: after ∧ T.keyOf pkt = some key ∧
    ((NatEngine.new.run before).processOutbound pkt).translated = true ∧
    T.given ((NatEngine.new.run before).processOutbound pkt).packet = some ext

theorem Sent.snoc (h : T.Sent ops key ext) (op : Op) : T.Sent (ops ++ [op]) key ext := by
  obtain ⟨before, pkt, after, rfl, h⟩ := h
  exact ⟨before, pkt, after ++ [op], by simp, h⟩

def Remembers (T : SessionTable n κ) (ops : List Op) : Prop :=
  ∀ i, (T.entry (NatEngine.new.run ops) i).active = true →
    T.Sent ops (T.entry (NatEngine.new.run ops) i).key (T.entry (NatEngine.new.run ops) i).external

theorem Remembers.snoc (h : T.Remembers ops) {op : Op}
    (hok : T.Ok (NatEngine.new.run (ops ++ [op]))) : T.Remembers (ops ++ [op]) := by
  intro i hi
  have hext : (T.entry (NatEngine.new.run (ops ++ [op])) i).external ≠ 0 := by
    have hne := (hok.external i hi).ne_zero
    rwa [htons_ntohs] at hne
  have hrun : NatEngine.new.run (ops ++ [op]) =
      (NatEngine.new.run ops).apply ((NatEngine.new.run ops).effect op) := by
    rw [← NatEngine.step_eq]
    exact LabelledRun.exec_append ..
  have heff := NatEngine.effectOf (NatEngine.new.run ops) op
  rw [hrun] at hi hext ⊢
  -- a slot that the call leaves alone is remembered from before, and so is one that it refreshes
  by_cases htarget : T.target ((NatEngine.new.run ops).effect op) = some i
  · have hwritten := T.written heff.allowed htarget
    have hsent (key : κ) (hopen : T.opens ((NatEngine.new.run ops).effect op) = some key) :=
      T.sent heff hopen htarget hi hext
    generalize T.opens ((NatEngine.new.run ops).effect op) = opened,
      T.entry ((NatEngine.new.run ops).apply ((NatEngine.new.run ops).effect op)) i = s
      at hwritten hsent hi ⊢
    cases hwritten with
    | refreshed hact => exact (h i hact).snoc op
    | opened _ key ext =>
      obtain ⟨pkt, rfl, hpkt⟩ := hsent key rfl
      exact ⟨ops, pkt, [], rfl, hpkt⟩
    | failed _ key hoff _ =>
      rw [hoff] at hi
      exact absurd hi (by decide)
  · rw [T.frame htarget] at hi ⊢
    exact (h i hi).snoc op

theorem remembers_run (hok : ∀ ops, T.Ok (NatEngine.new.run ops))
    (hnew : ∀ i, (T.entry NatEngine.new i).active = false) (ops : List Op) : T.Remembers ops := by
  induction ops using List.reverseRecOn with
  | nil =>
    intro i hi
    exact absurd ((hnew i).symm.trans hi) (by decide)
  | append_singleton ops op ih => exact ih.snoc (hok _)

end SessionTable

namespace NatEngine

theorem sentFlow_of_active {ops : List Op} {i : Fin maxSessions}
    (hact : ((new.run ops).sessions i).active = true) :
    SentFlow ops ((new.run ops).sessions i).internalKey ((new.run ops).sessions i).externalPort :=
  flowTable.remembers_run (fun ops => (flowsOk_new.run ops).table) (fun _ => rfl) ops i hact

theorem sentEcho_of_active {ops : List Op} {i : Fin maxIcmpSessions}
    (hact : ((new.run ops).icmpSessions i).active = true) :
    SentEcho ops ((new.run ops).icmpSessions i).key ((new.run ops).icmpSessions i).extIdNbo :=
  echoTable.remembers_run (fun ops => (echoesOk_new.run ops).table) (fun _ => rfl) ops i hact

def Solicited (ops : List Op) (pkt rewritten : ParsedPacket) : Prop :=
  (∃ k key, pkt.flowKey = some k ∧ SentFlow ops key k.dport ∧
    k.saddr = key.daddr ∧ k.sport = key.dport ∧
    rewritten.destAddr = some key.saddr ∧ rewritten.destPort = some key.sport) ∨
  ∃ k key, pkt.echoKey 0 = some k ∧ SentEcho ops key k.idNbo ∧ k.saddr = key.daddr ∧
    rewritten.destAddr = some key.saddr ∧ rewritten.echoId = some key.idNbo

/-- The inbound packet `pkt` comes back to an earlier packet of the run, and `rewritten` has the
port or id of that packet. Where the field of the port or id overlaps the destination address, it
goes to the source of that packet only if the two agree. -/
def Answers (ops : List Op) (pkt rewritten : ParsedPacket) : Prop :=
  (∃ k key, pkt.flowKey = some k ∧ SentFlow ops key k.dport ∧
    k.saddr = key.daddr ∧ k.sport = key.dport ∧ rewritten.destPort = some key.sport ∧
    (rewritten.destAddr = some key.saddr ↔ pkt.ihl ≠ 16 ∨ high16 key.saddr.raw = key.sport)) ∨
  ∃ k key, pkt.echoKey 0 = some k ∧ SentEcho ops key k.idNbo ∧ k.saddr = key.daddr ∧
    rewritten.echoId = some key.idNbo ∧
    (rewritten.destAddr = some key.saddr ↔ pkt.ihl ≠ 12 ∨ low16 key.saddr.raw = key.idNbo)

theorem Answers.solicited {ops : List Op} {pkt rewritten : ParsedPacket}
    (h : Answers ops pkt rewritten) (hihl : pkt.ihl ≠ if pkt.l4Protocol = 1 then 12 else 16) :
    Solicited ops pkt rewritten := by
  rcases h with ⟨k, key, hkey, hsent, hda, hdp, hport, haddr⟩ | ⟨k, key, hkey, hsent, hda, hid, haddr⟩
  · obtain ⟨ip, v, hports, -⟩ := ParsedPacket.flowKey_eq_some.mp hkey
    rw [if_neg (ParsedPacket.l4Protocol_of_ports hports)] at hihl
    exact .inl ⟨k, key, hkey, hsent, hda, hdp, haddr.mpr (.inl hihl), hport⟩
  · obtain ⟨ip, icmp, hecho, -⟩ := ParsedPacket.echoKey_eq_some.mp hkey
    have hicmp := ParsedPacket.icmpEcho_of_echoView (ParsedPacket.echo_eq_some.mp hecho).2.2
    rw [if_pos (ParsedPacket.l4Protocol_of_icmpEcho hicmp)] at hihl
    exact .inr ⟨k, key, hkey, hsent, hda, haddr.mpr (.inl hihl), hid⟩

theorem answers_of_translated {ops : List Op} {pkt : ParsedPacket}
    (htr : ((new.run ops).processInbound pkt).translated = true) :
    Answers ops pkt ((new.run ops).processInbound pkt).packet := by
  cases hports : pkt.ports with
  | some q =>
    obtain ⟨ip, v⟩ := q
    rw [processInbound_of_ports hports] at htr ⊢
    cases hacc : (new.run ops).acceptSlot (pkt.keyAt ip v) with
    | none => simp [hacc] at htr
    | some i =>
      obtain ⟨-, -, -, hact, hda, hdp, hport⟩ := acceptSlot_eq_some.mp hacc
      have hsent := sentFlow_of_active hact
      rw [hport] at hsent
      exact .inl ⟨_, _, flowKey_of_ports hports, hsent, hda.symm, hdp.symm,
        ParsedPacket.destPort_rewriteDestination hports _ _,
        ParsedPacket.destAddr_rewriteDestination hports _ _⟩
  | none =>
    cases hecho : pkt.echo 0 with
    | some q =>
      obtain ⟨ip, icmp⟩ := q
      obtain ⟨hip, -, hview⟩ := ParsedPacket.echo_eq_some.mp hecho
      have hicmp := ParsedPacket.icmpEcho_of_echoView hview
      rw [processInbound_of_echo hecho] at htr ⊢
      cases hacc : (new.run ops).acceptIcmpSlot (pkt.echoKeyAt ip icmp) with
      | none => simp [hacc] at htr
      | some i =>
        obtain ⟨-, -, -, hact, hda, hid⟩ := acceptIcmpSlot_eq_some.mp hacc
        have hsent := sentEcho_of_active hact
        rw [hid] at hsent
        exact .inr ⟨_, _, echoKey_of_echo hecho, hsent, hda.symm,
          ParsedPacket.echoId_rewriteEchoDestination hicmp _ _,
          ParsedPacket.destAddr_rewriteEchoDestination hip hicmp _ _⟩
    | none => simp [processInbound_of_other hports hecho] at htr

/-- Whatever is translated inbound comes back to an earlier packet of the run. It goes to the
source of that packet when its port or id lies outside its destination address, and otherwise
exactly when the two agree. -/
theorem inbound_solicited (ops : List Op) (pkt : ParsedPacket)
    (htr : ((new.run ops).processInbound pkt).translated = true) :
    Answers ops pkt ((new.run ops).processInbound pkt).packet ∧
      (pkt.ihl ≠ (if pkt.l4Protocol = 1 then 12 else 16) →
        Solicited ops pkt ((new.run ops).processInbound pkt).packet) :=
  ⟨answers_of_translated htr, (answers_of_translated htr).solicited⟩

theorem inbound_solicited_dns :
    let ops : List Op := [.setWanIp (octets 203 0 113 1),
      .outbound (.parse (makeUdpPkt (octets 192 168 1 10) (octets 8 8 8 8) 5000 53))]
    let answer := ParsedPacket.parse (makeUdpPkt (octets 8 8 8 8) (octets 203 0 113 1) 53 10000)
    ((new.run ops).processInbound answer).translated = true ∧
      Solicited ops answer ((new.run ops).processInbound answer).packet :=
  have htr : ((new.run [.setWanIp (octets 203 0 113 1),
      .outbound (.parse (makeUdpPkt (octets 192 168 1 10) (octets 8 8 8 8) 5000 53))]).processInbound
        (.parse (makeUdpPkt (octets 8 8 8 8) (octets 203 0 113 1) 53 10000))).translated = true := by
    decide +kernel
  ⟨htr, (inbound_solicited _ _ htr).2 (by decide +kernel)⟩

/-- A UDP frame with an IHL of four words: its ports are the destination address. -/
def shortHeaderUdp (sip dip : IPv4Net) : List UInt8 :=
  let b := List.replicate 38 0
  let b := store16 b 12 (htons 0x0800)
  let b := b.set 14 0x44
  let b := b.set 23 17
  store32 (store32 b 26 sip.raw) 30 dip.raw

/-- The WAN address `10.0.39.16` ends with the bytes of port 10000 and begins with those of
port 2560. A frame from `8.8.8.8` to it answers the flow to `8.8.8.8:2560`, and goes to
`192.168.19.136`, port 5000 over the second half of `192.168.1.10`: no packet of the run came
from there. -/
theorem inbound_unsolicited_address :
    let ops : List Op := [.setWanIp (octets 10 0 39 16),
      .outbound (.parse (makeUdpPkt (octets 192 168 1 10) (octets 8 8 8 8) 5000 2560))]
    let pkt := ParsedPacket.parse (shortHeaderUdp (octets 8 8 8 8) (octets 10 0 39 16))
    let o := (new.run ops).processInbound pkt
    o.translated = true ∧ o.packet.destAddr = some (octets 192 168 19 136) ∧
      ¬Solicited ops pkt o.packet := by
  intro ops pkt o
  have haddr : o.packet.destAddr = some (octets 192 168 19 136) := by decide +kernel
  refine ⟨by decide +kernel, haddr, ?_⟩
  rintro (⟨k, key, -, ⟨before, q, after, hops, hq, -⟩, -, -, hdest, -⟩ | ⟨k, key, hk, -⟩)
  · have hmem : Op.outbound q ∈ ops := by simp [hops]
    obtain rfl : q = .parse (makeUdpPkt (octets 192 168 1 10) (octets 8 8 8 8) 5000 2560) := by
      simpa [ops] using hmem
    obtain rfl : key = ⟨octets 192 168 1 10, octets 8 8 8 8, htons 5000, htons 2560⟩ :=
      Option.some.inj (hq.symm.trans (by decide +kernel))
    exact absurd (haddr.symm.trans hdest) (by decide +kernel)
  · have hecho : pkt.echoKey 0 = none := by decide +kernel
    rw [hecho] at hk
    exact absurd hk (by simp)

end NatEngine
end Hpgtp
