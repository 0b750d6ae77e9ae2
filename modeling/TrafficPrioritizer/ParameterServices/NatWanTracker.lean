import TrafficPrioritizer.ForwardState.NextHop
import TrafficPrioritizer.NatEngine.ReturnDelivery

/-! The address that NAT writes into outgoing packets. The application takes it from the kernel
before it starts, and the tracker asks again every five seconds while packets are translated. -/

namespace Hpgtp
open LabelledRun Network NatEngine Text ByteBuffer

def initNatWan (ifaceWan : List UInt8) (enableNat : Bool) (answer : Option IPv4Net) :
    Except (List UInt8) NatEngine :=
  if enableNat then (resolveNatWanIp ifaceWan answer).map fun w => NatEngine.new.step (.setWanIp w)
  else .ok (NatEngine.new.step (.setWanIp {}))

def natWanTick5s (e : NatEngine) (enableNat : Bool) (answer : Option IPv4Net) : NatEngine :=
  if !enableNat then e
  else
    let s := getLocalIp answer
    if s = [] then e
    else match parseIpStr s with
      | .error _ => e
      | .ok ip =>
        let h := ntohl ip.raw
        if h = 0 ∨ h >>> 24 = 127 then e
        else if ip.raw = e.wanIp.raw then e
        else e.step (.setWanIp ip)

inductive NatTurn where
  | outbound (pkt : ParsedPacket)
  | inbound (pkt : ParsedPacket)
  | tick
  | wanTick (enableNat : Bool) (answer : Option IPv4Net)

def natStep (e : NatEngine) : NatTurn → NatEngine
  | .outbound pkt => e.step (.outbound pkt)
  | .inbound pkt => e.step (.inbound pkt)
  | .tick => e.step .tick
  | .wanTick enableNat answer => natWanTick5s e enableNat answer

/-- The address by the kernel's answers alone: the last usable one that was asked for. -/
def followWan (wan : IPv4Net) : NatTurn → IPv4Net
  | .wanTick true answer => (answer.filter fun ip => !isInvalidNatWan ip).getD wan
  | _ => wan

theorem natWanTick5s_some (e : NatEngine) (ip : IPv4Net) :
    natWanTick5s e true (some ip) =
      if isInvalidNatWan ip then e
      else if ip.raw = e.wanIp.raw then e
      else e.step (.setWanIp ip) := by
  have hzero : ntohl ip.raw = 0 ↔ ip.raw = 0 := ByteBuffer.swap32_injective.eq_iff (b := 0)
  have hlocal : getLocalIp (some ip) = ipToStr ip := rfl
  have hne : ipToStr ip ≠ [] := (ipWord ip).ne_nil
  rw [natWanTick5s, hlocal]
  dsimp only
  rw [if_neg (by decide), if_neg hne, parseIpStr_ipToStr]
  dsimp only
  rw [isInvalidNatWan]
  simp only [hzero, decide_eq_true_eq]

theorem natWanTick5s_cases (e : NatEngine) (enableNat : Bool) (answer : Option IPv4Net) :
    natWanTick5s e enableNat answer = e ∧
        followWan e.wanIp (.wanTick enableNat answer) = e.wanIp ∨
      ∃ ip, natWanTick5s e enableNat answer = e.step (.setWanIp ip) ∧
        followWan e.wanIp (.wanTick enableNat answer) = ip := by
  cases enableNat with
  | false => exact .inl ⟨rfl, rfl⟩
  | true =>
    cases answer with
    | none => exact .inl ⟨rfl, rfl⟩
    | some ip =>
      rw [natWanTick5s_some, followWan, Option.filter_some]
      cases hbad : isInvalidNatWan ip with
      | true => exact .inl ⟨rfl, rfl⟩
      | false =>
        by_cases hsame : ip.raw = e.wanIp.raw
        · exact .inl ⟨if_pos hsame, congrArg IPv4Net.mk hsame⟩
        · exact .inr ⟨ip, if_neg hsame, rfl⟩

def NatTurn.isTick : NatTurn → Bool
  | .tick => true
  | _ => false

def NatTurn.PortSafe (e : NatEngine) : NatTurn → Prop
  | .outbound pkt => e.PortSafe (.outbound pkt)
  | .tick => e.PortSafe .tick
  | _ => True

structure Calls (e : NatEngine) (turns : List NatTurn) (ops : List Op) : Prop where
  run : exec natStep e turns = e.run ops
  ticks : ticks ops = turns.countP NatTurn.isTick
  wanIp : (e.run ops).wanIp = exec followWan e.wanIp turns
  safe : Every natStep NatTurn.PortSafe e turns → Every NatEngine.step PortSafe e ops

theorem natStep_calls (e : NatEngine) (turn : NatTurn) : ∃ ops, Calls e [turn] ops := by
  cases turn with
  | outbound pkt =>
    exact ⟨[.outbound pkt], rfl, rfl, step_wanIp e (.outbound pkt) (fun _ h => by cases h),
      fun h => ⟨h.1, trivial⟩⟩
  | inbound pkt =>
    exact ⟨[.inbound pkt], rfl, rfl, step_wanIp e (.inbound pkt) (fun _ h => by cases h),
      fun _ => ⟨trivial, trivial⟩⟩
  | tick =>
    exact ⟨[.tick], rfl, rfl, step_wanIp e .tick (fun _ h => by cases h), fun h => ⟨h.1, trivial⟩⟩
  | wanTick enableNat answer =>
    rcases natWanTick5s_cases e enableNat answer with ⟨hsame, hwan⟩ | ⟨ip, hset, hwan⟩
    · exact ⟨[], hsame, rfl, hwan.symm, fun _ => trivial⟩
    · exact ⟨[.setWanIp ip], hset, rfl, hwan.symm, fun _ => ⟨trivial, trivial⟩⟩

theorem Calls.append {e : NatEngine} {as bs : List NatTurn} {ops₁ ops₂ : List Op}
    (h₁ : Calls e as ops₁) (h₂ : Calls (exec natStep e as) bs ops₂) :
    Calls e (as ++ bs) (ops₁ ++ ops₂) := by
  have hrun : e.run (ops₁ ++ ops₂) = (e.run ops₁).run ops₂ := exec_append ..
  have hrest := h₂.wanIp
  rw [h₁.run] at hrest
  refine ⟨?_, ?_, ?_, fun h => ?_⟩
  · rw [exec_append, h₂.run, h₁.run, hrun]
  · rw [ticks_append, h₁.ticks, h₂.ticks, List.countP_append]
  · rw [hrun, hrest, h₁.wanIp, exec_append]
  · obtain ⟨has, hbs⟩ := every_append.mp h
    refine every_append.mpr ⟨h₁.safe has, ?_⟩
    have hsafe := h₂.safe hbs
    rwa [h₁.run] at hsafe

theorem natStep_run (e : NatEngine) (turns : List NatTurn) : ∃ ops, Calls e turns ops := by
  induction turns generalizing e with
  | nil => exact ⟨[], rfl, rfl, rfl, fun _ => trivial⟩
  | cons turn turns ih =>
    obtain ⟨ops₁, h₁⟩ := natStep_calls e turn
    obtain ⟨ops₂, h₂⟩ := ih (natStep e turn)
    exact ⟨ops₁ ++ ops₂, h₁.append h₂⟩

def UsableOrUnset (wan : IPv4Net) : Prop := wan.raw = 0 ∨ isInvalidNatWan wan = false

theorem followWan_usable (wan : IPv4Net) (turn : NatTurn) (h : UsableOrUnset wan) :
    UsableOrUnset (followWan wan turn) := by
  unfold followWan
  split
  · next answer =>
    cases hanswer : answer.filter fun ip => !isInvalidNatWan ip with
    | none => exact h
    | some ip =>
      right
      simpa using (Option.filter_eq_some_iff.mp hanswer).2
  · exact h

def firstWan (enableNat : Bool) (answer : Option IPv4Net) : IPv4Net :=
  if enableNat then answer.getD {} else {}

theorem initNatWan_some (ifaceWan : List UInt8) (ip : IPv4Net) :
    initNatWan ifaceWan true (some ip) =
      if isInvalidNatWan ip then
        .error (ascii "WAN interface has unusable address: " ++ ipToStr ip)
      else .ok (NatEngine.new.run [.setWanIp ip]) := by
  have hlocal : getLocalIp (some ip) = ipToStr ip := rfl
  have hne : ipToStr ip ≠ [] := (ipWord ip).ne_nil
  rw [initNatWan, if_pos rfl, resolveNatWanIp, hlocal, if_neg hne, parseIpStr_ipToStr]
  dsimp only
  split_ifs <;> rfl

theorem initNatWan_spec {ifaceWan : List UInt8} {enableNat : Bool} {answer : Option IPv4Net}
    {e : NatEngine} (h : initNatWan ifaceWan enableNat answer = .ok e) :
    e = NatEngine.new.run [.setWanIp (firstWan enableNat answer)] ∧
      UsableOrUnset (firstWan enableNat answer) := by
  cases enableNat with
  | false =>
    obtain rfl := Except.ok.inj h
    exact ⟨rfl, .inl rfl⟩
  | true =>
    cases answer with
    | none => cases h
    | some ip =>
      rw [initNatWan_some] at h
      split_ifs at h with hbad
      obtain rfl := Except.ok.inj h
      exact ⟨rfl, .inr (Bool.eq_false_iff.mpr hbad)⟩

theorem natWan_follows {ifaceWan : List UInt8} {enableNat : Bool} {answer : Option IPv4Net}
    {e₀ : NatEngine} (hinit : initNatWan ifaceWan enableNat answer = .ok e₀)
    (turns : List NatTurn) :
    (exec natStep e₀ turns).wanIp = exec followWan (firstWan enableNat answer) turns ∧
      UsableOrUnset (exec followWan (firstWan enableNat answer) turns) := by
  obtain ⟨rfl, husable⟩ := initNatWan_spec hinit
  obtain ⟨ops, hops⟩ := natStep_run (NatEngine.new.run [.setWanIp (firstWan enableNat answer)]) turns
  exact ⟨(congrArg NatEngine.wanIp hops.run).trans hops.wanIp,
    invariant (I := UsableOrUnset) followWan_usable turns husable⟩

theorem sourceAddr_of_translated {e : NatEngine} {pkt : ParsedPacket}
    (hports : pkt.ports.isSome) (h : (e.processOutbound pkt).translated = true) :
    e.wanIp.raw ≠ 0 ∧ ((e.processOutbound pkt).packet.sourceAddr = some e.wanIp ↔
      pkt.ihl ≠ 12 ∨ (e.processOutbound pkt).packet.sourcePort = some (low16 e.wanIp.raw)) := by
  have hwan : e.wanIp.raw ≠ 0 := by
    intro hzero
    rw [processOutbound_of_wan hzero] at h
    cases h
  refine ⟨hwan, ?_⟩
  obtain ⟨⟨ip, v⟩, hv⟩ := Option.isSome_iff_exists.mp hports
  rw [processOutbound_of_ports hwan hv] at h ⊢
  cases heff : e.flowEffect (pkt.keyAt ip v) e.currentTick with
  | none =>
    rw [heff, finishOutbound] at h
    cases h
  | some eff =>
    rw [heff, finishOutbound] at h
    rw [finishOutbound]
    split_ifs at h ⊢ with hext
    rw [ParsedPacket.sourceAddr_rewriteSource hv, ParsedPacket.sourcePort_rewriteSource hv,
      Option.some.injEq, eq_comm]

/-- However the ticks of the tracker fall between the packets: the address of the NAT engine is
the last usable one that the kernel gave while NAT was on, or unset; and every TCP or UDP packet
that is translated leaves with that address, which is then usable. With an IP header of three
words the port lies over the first half of the source address. -/
theorem nat_source_follows_kernel {ifaceWan : List UInt8} {enableNat : Bool}
    {answer : Option IPv4Net} {e₀ : NatEngine}
    (hinit : initNatWan ifaceWan enableNat answer = .ok e₀) (turns : List NatTurn) :
    let e := exec natStep e₀ turns
    let wan := exec followWan (firstWan enableNat answer) turns
    e.wanIp = wan ∧ UsableOrUnset wan ∧
      ∀ pkt : ParsedPacket, pkt.ports.isSome → (e.processOutbound pkt).translated = true →
        isInvalidNatWan wan = false ∧
          ((e.processOutbound pkt).packet.sourceAddr = some wan ↔
            pkt.ihl ≠ 12 ∨
              (e.processOutbound pkt).packet.sourcePort = some (low16 wan.raw)) := by
  intro e wan
  obtain ⟨hfollows, husable⟩ := natWan_follows hinit turns
  refine ⟨hfollows, husable, fun pkt hports htranslated => ?_⟩
  obtain ⟨hwan, hsource⟩ := sourceAddr_of_translated hports htranslated
  rw [show e.wanIp = wan from hfollows] at hwan hsource
  exact ⟨husable.resolve_left hwan, hsource⟩

theorem nat_source_follows_kernel_renumbered :
    let query := ParsedPacket.parse (makeUdpPkt (octets 192 168 1 10) (octets 8 8 8 8) 5000 53)
    let e := exec natStep (NatEngine.new.run [.setWanIp (octets 203 0 113 1)])
      [.outbound query, .wanTick true (some (octets 198 51 100 7)), .wanTick true none]
    (e.processOutbound query).packet.sourceAddr = some (octets 198 51 100 7) := by
  intro query e
  have hinit := initNatWan_some (ascii "eth0") (octets 203 0 113 1)
  rw [if_neg (by decide)] at hinit
  exact ((nat_source_follows_kernel hinit _).2.2 query (by decide +kernel)
    (by decide +kernel)).2.mpr (.inl (by decide +kernel))

/-- A packet of a flow is translated to `port`; at most 300 ticks later, with any number of new
addresses in between, a packet comes back for that port at the address `addr`. It is translated
exactly when `addr` is the address that NAT has by then, not when it is an earlier one, and it
goes to the host and port that the flow came from. -/
theorem flow_survives_new_address {ifaceWan : List UInt8} {enableNat : Bool}
    {answer : Option IPv4Net} {e₀ : NatEngine} {before after : List NatTurn}
    {pkt reply : ParsedPacket} {key : FlowKey} {port : UInt16} {addr : IPv4Net}
    (hinit : initNatWan ifaceWan enableNat answer = .ok e₀)
    (hsafe : Every natStep NatTurn.PortSafe e₀ (before ++ .outbound pkt :: after))
    (hsent : pkt.flowKey = some key)
    (htranslated : ((exec natStep e₀ before).processOutbound pkt).translated = true)
    (hgiven : ((exec natStep e₀ before).processOutbound pkt).packet.sourcePort = some port)
    (hrecent : after.countP NatTurn.isTick ≤ 300)
    (hreply : reply.flowKey = some ⟨key.daddr, addr, key.dport, port⟩) (hihl : reply.ihl ≠ 16) :
    let turns := before ++ .outbound pkt :: after
    let o := (exec natStep e₀ turns).processInbound reply
    (o.translated = true ↔ addr = exec followWan (firstWan enableNat answer) turns) ∧
      (o.translated = true →
        o.packet.destAddr = some key.saddr ∧ o.packet.destPort = some key.sport) := by
  intro turns o
  obtain ⟨hwan, -⟩ := natWan_follows hinit turns
  obtain ⟨hstart, -⟩ := initNatWan_spec hinit
  obtain ⟨i, port', hopened, hport'⟩ := flowTable.at_of_translated hsent htranslated
  obtain rfl : port = port' := Option.some.inj (hgiven.symm.trans hport')
  have hat : flowTable.At (exec natStep e₀ turns) i key port (after.countP NatTurn.isTick) := by
    obtain ⟨later, hlater⟩ := natStep_run ((exec natStep e₀ before).processOutbound pkt).engine after
    have hkept := hopened.run later (by rw [hlater.ticks]; omega)
    rw [Nat.zero_add, hlater.ticks, ← hlater.run] at hkept
    rw [exec_append]
    exact hkept
  obtain ⟨ops, hops⟩ := natStep_run e₀ turns
  have hend : exec natStep e₀ turns =
      NatEngine.new.run (.setWanIp (firstWan enableNat answer) :: ops) := by
    rw [hops.run, hstart]
    rfl
  rw [← hwan]
  refine processInbound_of_flowAt ?_ ?_ hat hrecent hreply hihl
  · rw [hend]
    exact flowsOk_new.run _
  · have hops_safe := hops.safe hsafe
    rw [hstart] at hops_safe
    rw [hend]
    exact LiveIndexed.run ⟨trivial, hops_safe⟩

theorem flow_survives_new_address_dns :
    let query := ParsedPacket.parse (makeUdpPkt (octets 192 168 1 10) (octets 8 8 8 8) 5000 53)
    let answer := ParsedPacket.parse (makeUdpPkt (octets 8 8 8 8) (octets 198 51 100 7) 53 10000)
    let late := ParsedPacket.parse (makeUdpPkt (octets 8 8 8 8) (octets 203 0 113 1) 53 10000)
    let e := exec natStep (NatEngine.new.run [.setWanIp (octets 203 0 113 1)])
      [.outbound query, .wanTick true (some (octets 198 51 100 7))]
    (e.processInbound answer).packet.destAddr = some (octets 192 168 1 10) ∧
      (e.processInbound late).translated = false := by
  intro query answer late e
  have hinit := initNatWan_some (ascii "eth0") (octets 203 0 113 1)
  rw [if_neg (by decide)] at hinit
  have hsafe : Every natStep NatTurn.PortSafe (NatEngine.new.run [.setWanIp (octets 203 0 113 1)])
      [.outbound query, .wanTick true (some (octets 198 51 100 7))] := by
    refine ⟨fun _ i hlive => ?_, trivial, trivial⟩
    exact absurd hlive.1 (by simp [run, exec, NatEngine.step, setWanIp, new, NatSession.reusable])
  have hexchange (reply : ParsedPacket) (addr : IPv4Net) :=
    @flow_survives_new_address _ _ _ _ [] [.wanTick true (some (octets 198 51 100 7))] query reply
      ⟨octets 192 168 1 10, octets 8 8 8 8, htons 5000, htons 53⟩ (htons 10000) addr hinit hsafe
      (by decide +kernel) (by decide +kernel) (by decide +kernel) (by decide)
  obtain ⟨hiff, hgoes⟩ := hexchange answer (octets 198 51 100 7) (by decide +kernel)
    (by decide +kernel)
  obtain ⟨hstale, -⟩ := hexchange late (octets 203 0 113 1) (by decide +kernel) (by decide +kernel)
  exact ⟨(hgoes (hiff.mpr (by decide +kernel))).1,
    Bool.eq_false_iff.mpr fun h => absurd (hstale.mp h) (by decide +kernel)⟩

end Hpgtp
