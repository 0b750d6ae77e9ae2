import TrafficPrioritizer.NatEngine.Clock
import TrafficPrioritizer.NatEngine.Frames

/-! Return traffic of TCP and UDP flows. A session stays in its slot for 300 ticks,
but its port is taken from a cursor that cycles through 50001 ports without looking
whether one is in use; as long as the cursor never meets the port of a live
session, the reverse index names every live session and replies find it. -/

namespace Hpgtp
open ByteBuffer ReverseIndex

namespace NatEngine

def LivePort (e : NatEngine) (i : Fin maxSessions) (port : UInt16) : Prop :=
  (e.sessions i).reusable e.currentTick = false ∧ ntohs (e.sessions i).externalPort = port

def LiveIndexed (e : NatEngine) : Prop := Complete e.portToIndex e.LivePort

/-- What a call must meet for ports to stay unique: a session is opened only while no live
session holds the port at the cursor, and the clock wraps no age. -/
def PortSafe (e : NatEngine) : Op → Prop
  | .outbound pkt => e.OpensSession pkt → ∀ i, ¬e.LivePort i e.portCursor
  | .tick => e.FlowAgesFit
  | _ => True

theorem LivePort.of_openSession {e : NatEngine} {key : FlowKey} {tick : UInt32}
    {idx j : Fin maxSessions} {port : UInt16} (h : (e.openSession key tick idx).LivePort j port) :
    j = idx ∧ port = e.portCursor ∨ j ≠ idx ∧ e.LivePort j port := by
  obtain ⟨hlive, hport⟩ := h
  by_cases hj : j = idx
  · subst hj
    rw [openSession_self, ntohs_htons] at hport
    exact .inl ⟨rfl, hport.symm⟩
  · rw [openSession_of_ne e key _ hj] at hlive hport
    exact .inr ⟨hj, hlive, hport⟩

theorem LiveIndexed.openSession {e : NatEngine} (h : e.LiveIndexed) {key : FlowKey}
    {idx : Fin maxSessions} (hfree : ∀ i, ¬e.LivePort i e.portCursor) :
    (e.openSession key e.currentTick idx).LiveIndexed := by
  rw [LiveIndexed, openSession_portToIndex]
  have hreleased : Complete
      (if (e.sessions idx).active then
        casIndex e.portToIndex (ntohs (e.sessions idx).externalPort) (idx : Nat) (-1)
      else e.portToIndex) fun j port => j ≠ idx ∧ e.LivePort j port := by
    split_ifs
    · exact h.release fun j port hown => hown
    · exact h.mono fun j port hown => hown.2
  refine hreleased.assign fun j port hown => hown.of_openSession.imp_right fun hkept => ?_
  obtain ⟨hj, hlive⟩ := hkept
  refine ⟨?_, hj, hlive⟩
  rintro rfl
  exact hfree j hlive

theorem LiveIndexed.touchSession {e : NatEngine} (h : e.LiveIndexed) {tick : UInt32}
    {idx : Fin maxSessions} (hidx : (e.sessions idx).reusable e.currentTick = false ∨
      e.portToIndex (ntohs (e.sessions idx).externalPort) = (idx : Nat)) :
    (e.touchSession tick idx).LiveIndexed := by
  rintro j port ⟨hlive, hport⟩
  change e.portToIndex port = _
  by_cases hj : j = idx
  · subst hj
    rw [touchSession_self] at hport
    rcases hidx with hlive | hidx
    · exact h j port ⟨hlive, hport⟩
    · rw [← hidx, ← hport]
      rfl
  · rw [touchSession_of_ne e tick hj] at hlive hport
    exact h j port ⟨hlive, hport⟩

theorem LiveIndexed.of_same {e e' : NatEngine} (h : e.LiveIndexed) (hs : SameFlows e e')
    (htick : e'.currentTick = e.currentTick) : e'.LiveIndexed := by
  obtain ⟨hsess, hidx, -⟩ := hs
  rw [LiveIndexed, hidx]
  refine h.mono fun j port hown => ?_
  rwa [LivePort, hsess, htick] at hown

theorem LiveIndexed.step {e : NatEngine} (h : e.LiveIndexed) {op : Op} (hsafe : e.PortSafe op) :
    (e.step op).LiveIndexed := by
  rw [step_eq]
  have heff := effectOf e op
  generalize e.effect op = eff at heff ⊢
  cases heff with
  | openFlow hw hkey hr hfirst =>
    exact h.openSession
      (hsafe ⟨hw, _, hkey, _, hr, fun b hb => slotEffect_eq_none.mp (hfirst b hb)⟩)
  | touchFlow _ _ hlive _ _ => exact h.touchSession (.inl hlive)
  | acceptFlow _ hacc =>
    obtain ⟨-, hidx, -, -, -, -, hport⟩ := acceptSlot_eq_some.mp hacc
    exact h.touchSession (.inr (hport ▸ hidx))
  | advance =>
    rintro j port ⟨hlive, hport⟩
    exact h j port ⟨NatSession.live_of_live_succ (hsafe j) hlive, hport⟩
  | _ => exact h.of_same (sameFlows_apply e rfl) (apply_currentTick e (by simp))

theorem LiveIndexed.run {ops : List Op} (h : LabelledRun.Every NatEngine.step PortSafe new ops) :
    (new.run ops).LiveIndexed :=
  h.invariant (I := LiveIndexed) (fun _ _ hi hs => hi.step hs)
    fun i port hlive => absurd hlive.1 (by simp [new, NatSession.reusable])

/-- A packet of `key` translated to `port` after `before`; then calls `after` with at most 300
ticks and no new WAN address; then a packet of the same protocol from the flow's destination
to that port. -/
structure FlowExchange (before after : List Op) (pkt reply : ParsedPacket) (key : FlowKey)
    (port : UInt16) : Prop where
  sent : pkt.flowKey = some key
  translated : ((new.run before).processOutbound pkt).translated = true
  given : ((new.run before).processOutbound pkt).packet.sourcePort = some port
  sameWan : ∀ ip, Op.setWanIp ip ∉ after
  recent : ticks after ≤ 300
  sameProtocol : reply.l4Protocol = pkt.l4Protocol
  answered : reply.flowKey = some ⟨key.daddr, (new.run before).wanIp, key.dport, port⟩

variable {before after : List Op} {pkt reply : ParsedPacket} {key : FlowKey} {port : UInt16}

theorem acceptSlot_of_at {e : NatEngine} {i : Fin maxSessions} {n : Nat} (hok : e.FlowsOk)
    (hidx : e.LiveIndexed) (h : flowTable.At e i key port n) (hn : n ≤ 300) :
    e.acceptSlot ⟨key.daddr, e.wanIp, key.dport, port⟩ = some i := by
  have hkey : (e.sessions i).internalKey = key := h.key
  have hport : (e.sessions i).externalPort = port := h.external
  refine acceptSlot_eq_some.mpr ⟨rfl, ?_, hok.seq i, h.active, ?_, ?_, hport⟩
  · exact hidx i _ ⟨h.live hn, by rw [hport]⟩
  · rw [hkey]
  · rw [hkey]

theorem processInbound_of_flowAt {e : NatEngine} {i : Fin maxSessions} {n : Nat}
    {addr : IPv4Net} (hok : e.FlowsOk) (hidx : e.LiveIndexed) (hat : flowTable.At e i key port n)
    (hn : n ≤ 300)
    (hreply : reply.flowKey = some ⟨key.daddr, addr, key.dport, port⟩) (hihl : reply.ihl ≠ 16) :
    let o := e.processInbound reply
    (o.translated = true ↔ addr = e.wanIp) ∧
      (o.translated = true →
        o.packet.destAddr = some key.saddr ∧ o.packet.destPort = some key.sport) := by
  intro o
  obtain ⟨ip, v, hports, hkey⟩ := ParsedPacket.flowKey_eq_some.mp hreply
  have ho : o = e.processInbound reply := rfl
  rw [processInbound_of_ports hports, hkey] at ho
  by_cases haddr : addr = e.wanIp
  · have hsession : (e.sessions i).internalKey = key := hat.key
    rw [haddr, acceptSlot_of_at hok hidx hat hn] at ho
    dsimp only at ho
    rw [ho, hsession]
    exact ⟨⟨fun _ => haddr, fun _ => rfl⟩, fun _ =>
      ⟨(ParsedPacket.destAddr_rewriteDestination hports _ _).mpr (.inl hihl),
        ParsedPacket.destPort_rewriteDestination hports _ _⟩⟩
  · rw [acceptSlot, if_neg haddr] at ho
    rw [ho]
    exact ⟨⟨fun h => absurd h Bool.false_ne_true, fun h => absurd h haddr⟩,
      fun h => absurd h Bool.false_ne_true⟩

/-- Replies are delivered in every run whose steps are port safe, when the header of the reply
keeps its port out of its destination address. -/
theorem return_delivered (h : FlowExchange before after pkt reply key port)
    (hsafe : LabelledRun.Every NatEngine.step PortSafe new (before ++ .outbound pkt :: after))
    (hihl : reply.ihl ≠ 16) :
    let o := (new.run (before ++ .outbound pkt :: after)).processInbound reply
    o.translated = true ∧ o.packet.destAddr = some key.saddr ∧ o.packet.destPort = some key.sport := by
  obtain ⟨i, hat⟩ := flowTable.at_after h.sent h.translated h.given h.recent
  obtain ⟨ip, v, hports, hkey⟩ := ParsedPacket.flowKey_eq_some.mp h.answered
  have hsession : ((new.run (before ++ .outbound pkt :: after)).sessions i).internalKey = key :=
    hat.key
  have hacc := acceptSlot_of_at (flowsOk_new.run _) (LiveIndexed.run hsafe) hat h.recent
  rw [wanIp_after before pkt h.sameWan, ← hkey] at hacc
  simp only [processInbound_of_ports hports, hacc, hsession]
  exact ⟨trivial, (ParsedPacket.destAddr_rewriteDestination hports _ _).mpr (.inl hihl),
    ParsedPacket.destPort_rewriteDestination hports _ _⟩

theorem return_delivered_dns :
    let query := ParsedPacket.parse (makeUdpPkt (octets 192 168 1 10) (octets 8 8 8 8) 5000 53)
    let other := ParsedPacket.parse (makeUdpPkt (octets 192 168 1 20) (octets 9 9 9 9) 17000 443)
    let answer := ParsedPacket.parse (makeUdpPkt (octets 8 8 8 8) (octets 203 0 113 1) 53 10000)
    let e := new.run [.setWanIp (octets 203 0 113 1), .outbound query, .outbound other]
    let o := e.processInbound answer
    o.translated = true ∧ o.packet.destAddr = some (octets 192 168 1 10) ∧
      o.packet.destPort = some (htons 5000) := by
  intro query other answer e o
  set e₀ := new.setWanIp (octets 203 0 113 1) with he₀
  set key : FlowKey := ⟨octets 192 168 1 10, octets 8 8 8 8, htons 5000, htons 53⟩ with hkey
  have hnone (i) (port) : ¬e₀.LivePort i port := fun hlive =>
    absurd hlive.1 (by simp [he₀, setWanIp, new, NatSession.reusable])
  have hopened : e₀.step (.outbound query) =
      e₀.openSession key e₀.currentTick (probeSlot key 0) := by
    have heff : e₀.effect (.outbound query) =
        .openSession key e₀.currentTick (probeSlot key 0) := by decide +kernel
    rw [step_eq, heff]
    rfl
  have hsafe : LabelledRun.Every NatEngine.step PortSafe new
      ([.setWanIp (octets 203 0 113 1)] ++ .outbound query :: [.outbound other]) := by
    refine ⟨trivial, fun _ i => hnone i _, fun _ i hlive => ?_, trivial⟩
    -- the one live session is on port 10000, and the cursor is past it
    change (e₀.step (.outbound query)).LivePort i (e₀.step (.outbound query)).portCursor at hlive
    rw [hopened] at hlive
    rcases hlive.of_openSession with ⟨-, hport⟩ | ⟨-, hlive⟩
    · change nextCursor 10000 = 10000 at hport
      exact absurd hport (by decide)
    · exact hnone i _ hlive
  have hexchange : FlowExchange [.setWanIp (octets 203 0 113 1)] [.outbound other] query answer key
      (htons 10000) := by
    refine ⟨?_, ?_, ?_, by simp, ?_, ?_, ?_⟩ <;> decide +kernel
  have he : e = new.run ([.setWanIp (octets 203 0 113 1)] ++ .outbound query :: [.outbound other]) :=
    rfl
  have hreturn := return_delivered hexchange hsafe (by decide +kernel)
  rwa [← he] at hreturn

/-! ## The cursor comes back

One flow is kept alive while another expires and is reopened 50000 times; the last
time it is given the port of the first. -/

section
variable {p1 p2 : ParsedPacket} {k1 k2 : FlowKey} {w : IPv4Net} {e : NatEngine} {c : UInt16}
  {m1 m2 : Nat}

structure TwoFlows (k1 k2 : FlowKey) (w : IPv4Net) (e : NatEngine) (c : UInt16) (m1 m2 : Nat) :
    Prop where
  wan : e.wanIp = w
  cursor : e.portCursor = c
  active1 : (e.sessions (probeSlot k1 0)).active = true
  key1 : (e.sessions (probeSlot k1 0)).internalKey = k1
  port1 : (e.sessions (probeSlot k1 0)).externalPort = htons 10000
  age1 : WrapClock.Tracks e.currentTick (e.sessions (probeSlot k1 0)).lastActiveTick m1
  active2 : (e.sessions (probeSlot k2 0)).active = true
  key2 : (e.sessions (probeSlot k2 0)).internalKey = k2
  age2 : WrapClock.Tracks e.currentTick (e.sessions (probeSlot k2 0)).lastActiveTick m2

theorem TwoFlows.ticks (h : TwoFlows k1 k2 w e c m1 m2) (n : Nat) :
    TwoFlows k1 k2 w (e.run (.replicate n .tick)) c (m1 + n) (m2 + n) := by
  rw [run_replicate_tick]
  exact ⟨h.wan, h.cursor, h.active1, h.key1, h.port1, h.age1.add n, h.active2, h.key2,
    h.age2.add n⟩

theorem outboundEffect_of_first {pkt : ParsedPacket} {key : FlowKey} {eff : Effect}
    (hw : e.wanIp.raw ≠ 0) (hkey : pkt.flowKey = some key)
    (h : e.slotEffect key e.currentTick (probeSlot key 0) = some eff) :
    e.outboundEffect pkt = eff := by
  simp only [outboundEffect, if_neg hw, hkey, flowEffect_of_first h, Option.getD_some]

theorem TwoFlows.refreshes (h : TwoFlows k1 k2 w e c m1 m2) (hm : m1 ≤ 300) :
    e.slotEffect k1 e.currentTick (probeSlot k1 0) =
      some (.touchSession e.currentTick (probeSlot k1 0)) := by
  have hlive : (e.sessions (probeSlot k1 0)).reusable e.currentTick = false :=
    NatSession.reusable_eq_false.mpr ⟨h.active1, h.age1.age_le.trans hm⟩
  exact slotEffect_of_live hlive h.key1

theorem TwoFlows.reopens (h : TwoFlows k1 k2 w e c m1 301) :
    e.slotEffect k2 e.currentTick (probeSlot k2 0) =
      some (.openSession k2 e.currentTick (probeSlot k2 0)) := by
  have hage := h.age2.age_toNat
  have hr : (e.sessions (probeSlot k2 0)).reusable e.currentTick = true := by
    by_contra hlive
    rw [Bool.not_eq_true, NatSession.reusable_eq_false] at hlive
    omega
  exact slotEffect_of_reusable hr

variable (hw : w.raw ≠ 0) (hne : probeSlot k1 0 ≠ probeSlot k2 0)
include hw hne

theorem TwoFlows.refresh (h : TwoFlows k1 k2 w e c m1 m2) (hp1 : p1.flowKey = some k1)
    (hm : m1 ≤ 300) : TwoFlows k1 k2 w (e.step (.outbound p1)) c 0 m2 := by
  rw [step_eq, effect, outboundEffect_of_first (h.wan ▸ hw) hp1 (h.refreshes hm)]
  have hself : (e.apply (.touchSession e.currentTick (probeSlot k1 0))).sessions (probeSlot k1 0) =
      (e.sessions (probeSlot k1 0)).stamp e.currentTick := touchSession_self ..
  have hother : (e.apply (.touchSession e.currentTick (probeSlot k1 0))).sessions (probeSlot k2 0) =
      e.sessions (probeSlot k2 0) := touchSession_of_ne e _ hne.symm
  exact { wan := h.wan, cursor := h.cursor
          active1 := by rw [hself]; exact h.active1
          key1 := by rw [hself]; exact h.key1
          port1 := by rw [hself]; exact h.port1
          age1 := by rw [hself]; exact .self _
          active2 := by rw [hother]; exact h.active2
          key2 := by rw [hother]; exact h.key2
          age2 := by rw [hother]; exact h.age2 }

theorem TwoFlows.reopen (h : TwoFlows k1 k2 w e c m1 301) (hp2 : p2.flowKey = some k2) :
    TwoFlows k1 k2 w (e.step (.outbound p2)) (nextCursor c) m1 0 := by
  rw [step_eq, effect, outboundEffect_of_first (h.wan ▸ hw) hp2 h.reopens]
  have hself : (e.apply (.openSession k2 e.currentTick (probeSlot k2 0))).sessions (probeSlot k2 0) =
      _ := openSession_self ..
  have hother : (e.apply (.openSession k2 e.currentTick (probeSlot k2 0))).sessions (probeSlot k1 0) =
      e.sessions (probeSlot k1 0) := openSession_of_ne e _ _ hne
  exact { wan := h.wan, cursor := congrArg nextCursor h.cursor
          active1 := by rw [hother]; exact h.active1
          key1 := by rw [hother]; exact h.key1
          port1 := by rw [hother]; exact h.port1
          age1 := by rw [hother]; exact h.age1
          active2 := by rw [hself]
          key2 := by rw [hself]
          age2 := by rw [hself]; exact .self _ }

omit hw hne in
/-- 301 ticks in which the first flow sends once; the second has expired when they are over. -/
def cycleTicks (p1 : ParsedPacket) : List Op :=
  .replicate 151 .tick ++ .outbound p1 :: .replicate 150 .tick

theorem TwoFlows.cycleTicks (h : TwoFlows k1 k2 w e c 0 0) (hp1 : p1.flowKey = some k1) :
    TwoFlows k1 k2 w (e.run (cycleTicks p1)) c 150 301 := by
  have h' := ((h.ticks 151).refresh hw hne hp1 (by decide)).ticks 150
  simpa only [NatEngine.cycleTicks, run, LabelledRun.exec_append, LabelledRun.exec_cons] using h'

theorem TwoFlows.cycle (h : TwoFlows k1 k2 w e c 0 0) (hp1 : p1.flowKey = some k1)
    (hp2 : p2.flowKey = some k2) :
    TwoFlows k1 k2 w (e.run (NatEngine.cycleTicks p1 ++ [.outbound p1, .outbound p2]))
      (nextCursor c) 0 0 := by
  have h' := ((h.cycleTicks hw hne hp1).refresh hw hne hp1 (by decide)).reopen hw hne hp2
  simpa only [run, LabelledRun.exec_append, LabelledRun.exec_cons, LabelledRun.exec_nil] using h'

theorem TwoFlows.cycles (h : TwoFlows k1 k2 w e c 0 0) (hp1 : p1.flowKey = some k1)
    (hp2 : p2.flowKey = some k2) (n : Nat) :
    TwoFlows k1 k2 w
      (e.run (List.replicate n (NatEngine.cycleTicks p1 ++ [.outbound p1, .outbound p2])).flatten)
      (nextCursor^[n] c) 0 0 := by
  induction n generalizing e c with
  | zero => exact h
  | succ n ih =>
    have hrest := ih (h.cycle hw hne hp1 hp2)
    rw [List.replicate_succ, List.flatten_cons, Function.iterate_succ_apply]
    simpa only [run, LabelledRun.exec_append] using hrest

end

theorem TwoFlows.refused {k1 k2 : FlowKey} {w : IPv4Net} {e : NatEngine} {m1 : Nat}
    {p2 reply : ParsedPacket} (h : TwoFlows k1 k2 w e 10000 m1 301) (hw : w.raw ≠ 0)
    (hp2 : p2.flowKey = some k2) (hremote : k2.daddr ≠ k1.daddr)
    (hreply : reply.flowKey = some ⟨k1.daddr, w, k1.dport, htons 10000⟩) :
    ((e.step (.outbound p2)).processInbound reply).translated = false := by
  obtain ⟨ip, v, hports, hkey⟩ := ParsedPacket.flowKey_eq_some.mp hreply
  rw [step_eq, effect, outboundEffect_of_first (h.wan ▸ hw) hp2 h.reopens,
    processInbound_of_ports hports, hkey]
  cases hacc : (e.apply (.openSession k2 e.currentTick (probeSlot k2 0))).acceptSlot
      ⟨k1.daddr, w, k1.dport, htons 10000⟩ with
  | none => rfl
  | some i =>
    obtain ⟨-, hidx, -, -, hda, -⟩ := acceptSlot_eq_some.mp hacc
    simp only [ntohs_htons] at hidx
    change (e.openSession k2 e.currentTick (probeSlot k2 0)).portToIndex 10000 = _ at hidx
    rw [openSession_portToIndex, h.cursor, Function.update_self] at hidx
    obtain rfl : probeSlot k2 0 = i := Fin.ext (by omega)
    have hself : (e.apply (.openSession k2 e.currentTick (probeSlot k2 0))).sessions
        (probeSlot k2 0) = _ := openSession_self ..
    rw [hself] at hda
    exact absurd hda hremote

theorem TwoFlows.stolen {k1 k2 : FlowKey} {w : IPv4Net} {m1 : Nat} {before : List Op}
    {p1 p2 reply : ParsedPacket} (h : TwoFlows k1 k2 w (new.run before) 10000 m1 301)
    (hm : m1 ≤ 300) (hw : w.raw ≠ 0) (hne : probeSlot k1 0 ≠ probeSlot k2 0)
    (hp1 : p1.flowKey = some k1) (hp2 : p2.flowKey = some k2) (hremote : k2.daddr ≠ k1.daddr)
    (hproto : reply.l4Protocol = p1.l4Protocol)
    (hreply : reply.flowKey = some ⟨k1.daddr, w, k1.dport, htons 10000⟩) :
    FlowExchange before [.outbound p2] p1 reply k1 (htons 10000) ∧
      ((new.run (before ++ [.outbound p1, .outbound p2])).processInbound reply).translated =
        false := by
  have hext : (new.run before).external
      (.touchSession (new.run before).currentTick (probeSlot k1 0)) = htons 10000 := h.port1
  obtain ⟨htr, hport⟩ := processOutbound_of_flowEffect (h.wan.symm ▸ hw) hp1
    (flowEffect_of_first (h.refreshes hm)) (by rw [hext]; decide)
  refine ⟨⟨hp1, htr, hext ▸ hport, by simp, Nat.zero_le _, hproto, ?_⟩, ?_⟩
  · rw [h.wan]
    exact hreply
  · have hrefused := (h.refresh hw hne hp1 hm).refused hw hp2 hremote hreply
    simpa only [run, LabelledRun.exec_append, LabelledRun.exec_cons, LabelledRun.exec_nil]
      using hrefused

def keptQuery : ParsedPacket := .parse (makeUdpPkt (octets 192 168 1 10) (octets 8 8 8 8) 5000 53)

def churnPacket : ParsedPacket :=
  .parse (makeUdpPkt (octets 192 168 1 20) (octets 9 9 9 9) 6000 443)

def keptAnswer : ParsedPacket :=
  .parse (makeUdpPkt (octets 8 8 8 8) (octets 203 0 113 1) 53 10000)

def keptKey : FlowKey := ⟨octets 192 168 1 10, octets 8 8 8 8, htons 5000, htons 53⟩

def churnKey : FlowKey := ⟨octets 192 168 1 20, octets 9 9 9 9, htons 6000, htons 443⟩

def cursorRun : List Op :=
  [.setWanIp (octets 203 0 113 1), .outbound keptQuery, .outbound churnPacket] ++
    (List.replicate 49999 (cycleTicks keptQuery ++ [.outbound keptQuery, .outbound churnPacket])).flatten ++
    cycleTicks keptQuery

theorem twoFlows_cursorRun :
    TwoFlows keptKey churnKey (octets 203 0 113 1) (new.run cursorRun) 10000 150 301 := by
  have hw : (octets 203 0 113 1).raw ≠ 0 := by decide
  have hne : probeSlot keptKey 0 ≠ probeSlot churnKey 0 := by decide +kernel
  have hkept : keptQuery.flowKey = some keptKey := by decide +kernel
  have hchurn : churnPacket.flowKey = some churnKey := by decide +kernel
  have hstart : TwoFlows keptKey churnKey (octets 203 0 113 1)
      (new.run [.setWanIp (octets 203 0 113 1), .outbound keptQuery, .outbound churnPacket])
      10002 0 0 := by
    constructor <;> first | unfold WrapClock.Tracks | skip
    all_goals decide +kernel
  have hcursor : nextCursor^[49999] 10002 = 10000 :=
    UInt16.toNat_inj.mp (iterate_nextCursor_toNat ⟨by decide, by decide⟩ 49999)
  have hcycles := hstart.cycles hw hne hkept hchurn 49999
  rw [hcursor] at hcycles
  have hend := hcycles.cycleTicks hw hne hkept
  simpa only [cursorRun, run, LabelledRun.exec_append] using hend

theorem return_refused_after_port_reuse :
    FlowExchange cursorRun [.outbound churnPacket] keptQuery keptAnswer keptKey (htons 10000) ∧
      ((new.run (cursorRun ++ [.outbound keptQuery, .outbound churnPacket])).processInbound
        keptAnswer).translated = false := by
  apply twoFlows_cursorRun.stolen <;> decide +kernel

end NatEngine
end Hpgtp
