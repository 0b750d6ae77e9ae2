import TrafficPrioritizer.NatEngine.Clock
import TrafficPrioritizer.NatEngine.Frames

/-! Whether a flow keeps its external port. The probe loop takes the first slot that
is reusable or holds the key, so a live session is found as long as no slot ahead
of it in the chain has become reusable; then no key has two live sessions. -/

namespace Hpgtp
open ReverseIndex

namespace NatEngine

theorem probeSlot_injective (key : FlowKey) : Function.Injective (probeSlot key) := by
  intro a b h
  have hval : ((hashFlow key).toNat % maxSessions + a) % maxSessions =
      ((hashFlow key).toNat % maxSessions + b) % maxSessions := congrArg Fin.val h
  have ha := a.isLt
  have hb := b.isLt
  simp only [maxSessions] at hval
  exact Fin.ext (by omega)

def LiveFlow (e : NatEngine) (i : Fin maxSessions) (key : FlowKey) : Prop :=
  (e.sessions i).reusable e.currentTick = false ∧ (e.sessions i).internalKey = key

def ChainClosed (e : NatEngine) (key : FlowKey) : Prop :=
  ∀ a, e.LiveFlow (probeSlot key a) key →
    ∀ b < a, (e.sessions (probeSlot key b)).reusable e.currentTick = false

instance (e : NatEngine) (i : Fin maxSessions) (key : FlowKey) : Decidable (e.LiveFlow i key) :=
  inferInstanceAs (Decidable (_ ∧ _))

instance (e : NatEngine) (key : FlowKey) : Decidable (e.ChainClosed key) :=
  inferInstanceAs (Decidable (∀ a, _ → ∀ b, b < a → _))

/-- What a call must meet for mappings to be stable: an outbound packet finds its chain
closed, an inbound packet revives no expired session of a key that has a live one, the clock
wraps no age, and a WAN address is set. -/
def StableStep (e : NatEngine) : Op → Prop
  | .outbound pkt => ∀ key, pkt.flowKey = some key → e.ChainClosed key
  | .inbound pkt => ∀ k i, pkt.flowKey = some k → e.acceptSlot k = some i →
      ∀ j, e.LiveFlow j (e.sessions i).internalKey → j = i
  | .tick => e.FlowAgesFit
  | .setWanIp ip => ip.raw ≠ 0

structure Stable (e : NatEngine) : Prop where
  wan : ∀ i, (e.sessions i).active = true → e.wanIp.raw ≠ 0
  unique : ∀ i j key, e.LiveFlow i key → e.LiveFlow j key → i = j

theorem Stable.of_slot {e e' : NatEngine} (h : e.Stable) {key : FlowKey} {idx : Fin maxSessions}
    (hw : e'.wanIp.raw ≠ 0) (hother : ∀ j ≠ idx, e'.sessions j = e.sessions j)
    (htick : e'.currentTick = e.currentTick) (hkey : (e'.sessions idx).internalKey = key)
    (hnone : ∀ j, e.LiveFlow j key → j = idx) : e'.Stable where
  wan := fun _ _ => hw
  unique := by
    have hlive (i) (k) (hi : e'.LiveFlow i k) : i = idx ∧ k = key ∨ e.LiveFlow i k := by
      obtain ⟨hr, hk⟩ := hi
      by_cases hidx : i = idx
      · subst hidx
        exact .inl ⟨rfl, hk.symm.trans hkey⟩
      · rw [hother i hidx, htick] at hr
        rw [hother i hidx] at hk
        exact .inr ⟨hr, hk⟩
    intro i j k hi hj
    rcases hlive i k hi with ⟨rfl, rfl⟩ | hi' <;> rcases hlive j _ hj with ⟨rfl, hk⟩ | hj'
    · rfl
    · exact (hnone j hj').symm
    · exact hnone i (hk ▸ hi')
    · exact h.unique i j k hi' hj'

theorem FlowsOk.not_liveFlow {e : NatEngine} (h : e.FlowsOk) {key : FlowKey}
    (hclosed : e.ChainClosed key) {a : Fin 32}
    (hr : (e.sessions (probeSlot key a)).reusable e.currentTick = true)
    (hbefore : ∀ b < a, e.slotEffect key e.currentTick (probeSlot key b) = none)
    (j : Fin maxSessions) : ¬e.LiveFlow j key := by
  rintro ⟨hlive, rfl⟩
  obtain ⟨b, hb⟩ := h.chain j (NatSession.active_of_live hlive)
  rcases lt_trichotomy a b with hab | rfl | hba
  · have hfalse := hclosed b (by rw [hb]; exact ⟨hlive, rfl⟩) a hab
    rw [hr] at hfalse
    exact absurd hfalse (by decide)
  · rw [hb, hlive] at hr
    exact absurd hr (by decide)
  · have hkey := (slotEffect_eq_none.mp (hbefore b hba)).2
    rw [hb] at hkey
    exact hkey rfl

theorem Stable.of_same {e e' : NatEngine} (h : e.Stable) (hs : e'.sessions = e.sessions)
    (htick : e'.currentTick = e.currentTick)
    (hwan : e'.wanIp = e.wanIp ∨ e'.wanIp.raw ≠ 0) : e'.Stable where
  wan := by
    intro i hi
    rcases hwan with hwan | hwan
    · rw [hwan]
      exact h.wan i (hs ▸ hi)
    · exact hwan
  unique := by
    intro i j key hi hj
    rw [LiveFlow, hs, htick] at hi hj
    exact h.unique i j key hi hj

theorem Stable.step {e : NatEngine} (hok : e.FlowsOk) (h : e.Stable) {op : Op}
    (hstep : e.StableStep op) : (e.step op).Stable := by
  rw [step_eq]
  have heff := effectOf e op
  generalize e.effect op = eff at heff ⊢
  have htouch (idx) (hact : (e.sessions idx).active = true)
      (hnone : ∀ j, e.LiveFlow j (e.sessions idx).internalKey → j = idx) :
      (e.touchSession e.currentTick idx).Stable :=
    h.of_slot (h.wan idx hact) (fun j hj => touchSession_of_ne e _ hj) rfl
      (congrArg NatSession.internalKey (touchSession_self e _ _)) hnone
  cases heff with
  | @openFlow pkt key a hw hkey hr hfirst =>
    exact h.of_slot hw (fun j hj => openSession_of_ne e key _ hj) rfl
      (congrArg NatSession.internalKey (openSession_self e key _ _))
      fun j hj => absurd hj (hok.not_liveFlow (hstep key hkey) hr hfirst j)
  | touchFlow _ _ hlive _ _ =>
    exact htouch _ (NatSession.active_of_live hlive) fun j hj => h.unique j _ _ hj ⟨hlive, rfl⟩
  | @acceptFlow pkt k i hk hacc =>
    exact htouch i (acceptSlot_eq_some.mp hacc).2.2.2.1 (hstep k i hk hacc)
  | advance =>
    have hlive (i) (key) (hi : e.tick.LiveFlow i key) : e.LiveFlow i key :=
      ⟨NatSession.live_of_live_succ (hstep i) hi.1, hi.2⟩
    exact ⟨h.wan, fun i j key hi hj => h.unique i j key (hlive i key hi) (hlive j key hj)⟩
  | setWanIp ip => exact h.of_same rfl rfl (.inr hstep)
  | _ =>
    exact h.of_same (sameFlows_apply e rfl).1 (apply_currentTick e (by simp))
      (.inl (apply_wanIp e (by simp)))

theorem stable_new : new.Stable where
  wan := fun i hi => absurd hi (by simp [new])
  unique := fun i _ _ hi => absurd hi.1 (by simp [new, NatSession.reusable])

theorem Stable.run {ops : List Op} (h : LabelledRun.Every NatEngine.step StableStep new ops) :
    (new.run ops).Stable :=
  (h.invariant (I := fun e => e.FlowsOk ∧ e.Stable)
    (fun _ op hi hs => ⟨hi.1.step op, hi.2.step hi.1 hs⟩) ⟨flowsOk_new, stable_new⟩).2

theorem Stable.flowEffect {e : NatEngine} (hok : e.FlowsOk) (h : e.Stable) {i : Fin maxSessions}
    {key : FlowKey} (hclosed : e.ChainClosed key) (hlive : e.LiveFlow i key) :
    e.flowEffect key e.currentTick = some (.touchSession e.currentTick i) := by
  obtain ⟨a, rfl⟩ : ∃ a, probeSlot key a = i :=
    hlive.2 ▸ hok.chain i (NatSession.active_of_live hlive.1)
  refine flowEffect_eq_some.mpr ⟨a, slotEffect_of_live hlive.1 hlive.2, fun b hb => ?_⟩
  have hr := hclosed a hlive b hb
  refine slotEffect_eq_none.mpr ⟨hr, fun hkey => ?_⟩
  exact hb.ne (probeSlot_injective key (h.unique _ _ key ⟨hr, hkey⟩ hlive))

/-- In a run of stable steps every key has at most one live session, and a packet of the key
that finds its chain closed leaves under that session's port. -/
theorem mapping_stable {ops : List Op}
    (hsteps : LabelledRun.Every NatEngine.step StableStep new ops) :
    let e := new.run ops
    (∀ i j key, e.LiveFlow i key → e.LiveFlow j key → i = j) ∧
    ∀ i key pkt, e.LiveFlow i key → pkt.flowKey = some key → e.StableStep (.outbound pkt) →
      (e.processOutbound pkt).translated = true ∧
      (e.processOutbound pkt).packet.sourcePort = some (e.sessions i).externalPort := by
  have hok : (new.run ops).FlowsOk := flowsOk_new.run ops
  have h := Stable.run hsteps
  refine ⟨h.unique, fun i key pkt hlive hkey hstep => ?_⟩
  have hact := (NatSession.active_of_live hlive.1)
  have hport := hok.ports i hact
  refine processOutbound_of_flowEffect (h.wan i hact) hkey
    (h.flowEffect hok (hstep key hkey) hlive) ?_
  have hne := hport.ne_zero
  rwa [htons_ntohs] at hne

/-- `192.168.1.20:17000` to `9.9.9.9:443` hashes to the slot of `192.168.1.10:5000` to `8.8.8.8:53`:
its session is behind another live one, and is found there. -/
theorem mapping_stable_query :
    let first := ParsedPacket.parse (makeUdpPkt (octets 192 168 1 10) (octets 8 8 8 8) 5000 53)
    let pkt := ParsedPacket.parse (makeUdpPkt (octets 192 168 1 20) (octets 9 9 9 9) 17000 443)
    let key : FlowKey := ⟨octets 192 168 1 20, octets 9 9 9 9, htons 17000, htons 443⟩
    let e := new.run [.setWanIp (octets 203 0 113 1), .outbound first, .outbound pkt]
    (e.sessions (probeSlot key 0)).reusable e.currentTick = false ∧
      e.LiveFlow (probeSlot key 1) key ∧ (e.processOutbound pkt).translated = true ∧
      (e.processOutbound pkt).packet.sourcePort = some (htons 10001) := by
  intro first pkt key e
  have hfirst : first.flowKey =
      some ⟨octets 192 168 1 10, octets 8 8 8 8, htons 5000, htons 53⟩ := by decide +kernel
  have hkey : pkt.flowKey = some key := by decide +kernel
  have hsteps : LabelledRun.Every NatEngine.step StableStep new
      [.setWanIp (octets 203 0 113 1), .outbound first, .outbound pkt] := by
    refine ⟨show (octets 203 0 113 1).raw ≠ 0 by decide, fun k hk => ?_, fun k hk => ?_, trivial⟩
    · obtain rfl := Option.some.inj (hfirst.symm.trans hk)
      decide +kernel
    · obtain rfl := Option.some.inj (hkey.symm.trans hk)
      decide +kernel
  have hclosed : e.StableStep (.outbound pkt) := by
    intro k hk
    obtain rfl := Option.some.inj (hkey.symm.trans hk)
    decide +kernel
  have hlive : e.LiveFlow (probeSlot key 1) key := by decide +kernel
  obtain ⟨htr, hport⟩ := (mapping_stable hsteps).2 _ _ pkt hlive hkey hclosed
  exact ⟨by decide +kernel, hlive, htr, hport.trans (by decide +kernel)⟩

/-- The same two flows. The second one sends every 200 ticks; when the slot ahead of it expires it
is given port 10002. -/
theorem mapping_moved_to_expired_slot :
    let first := ParsedPacket.parse (makeUdpPkt (octets 192 168 1 10) (octets 8 8 8 8) 5000 53)
    let pkt := ParsedPacket.parse (makeUdpPkt (octets 192 168 1 20) (octets 9 9 9 9) 17000 443)
    let key : FlowKey := ⟨octets 192 168 1 20, octets 9 9 9 9, htons 17000, htons 443⟩
    let e := new.run ([.setWanIp (octets 203 0 113 1), .outbound first, .outbound pkt] ++
      .replicate 200 .tick ++ [.outbound pkt] ++ .replicate 101 .tick)
    e.LiveFlow (probeSlot key 1) key ∧ pkt.flowKey = some key ∧
      (e.sessions (probeSlot key 1)).externalPort = htons 10001 ∧
      (e.processOutbound pkt).packet.sourcePort = some (htons 10002) := by
  refine ⟨⟨?_, ?_⟩, ?_, ?_, ?_⟩ <;> decide +kernel

end NatEngine
end Hpgtp
