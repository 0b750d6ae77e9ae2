import TrafficPrioritizer.NatEngine.Expiry

/-! The outbound call taken apart: it loads the tick once and then examines slot after
slot, while the timer and the inbound core run between its steps. A session is never
overwritten early as long as the loaded tick is still the current one when the call
writes a slot. -/

namespace Hpgtp
open WrapClock

/-- An outbound call between its load of `current_tick` and the end of its search: the key,
the tick it loaded and the position it examines next. -/
inductive Call
  | flow (key : FlowKey) (tick : UInt32) (pos : Fin 32)
  | echo (key : EchoKey) (tick : UInt32) (pos : Fin 32)
  deriving DecidableEq

namespace Call

def tick : Call → UInt32
  | .flow _ tick _ => tick
  | .echo _ tick _ => tick

def effect (e : NatEngine) : Call → Option Effect
  | .flow key tick pos => e.slotEffect key tick (NatEngine.probeSlot key pos)
  | .echo key tick pos => e.icmpSlotEffect key tick (NatEngine.probeIcmpSlot key pos)

def next : Call → Option Call
  | .flow key tick pos => if h : pos.val + 1 < 32 then some (.flow key tick ⟨pos + 1, h⟩) else none
  | .echo key tick pos => if h : pos.val + 1 < 32 then some (.echo key tick ⟨pos + 1, h⟩) else none

def start (e : NatEngine) (pkt : ParsedPacket) : Option Call :=
  if e.wanIp.raw = 0 then none
  else
    match pkt.flowKey, pkt.echoKey 8 with
    | some key, _ => some (.flow key e.currentTick 0)
    | none, some key => some (.echo key e.currentTick 0)
    | none, none => none

def OverwritesExpired (t : Timed) : Call → Prop
  | .flow key tick pos =>
    (t.engine.sessions (NatEngine.probeSlot key pos)).active = true →
      (t.engine.sessions (NatEngine.probeSlot key pos)).reusable tick = true →
      300 < t.idle.flows (NatEngine.probeSlot key pos)
  | .echo key tick pos =>
    (t.engine.icmpSessions (NatEngine.probeIcmpSlot key pos)).active = true →
      (t.engine.icmpSessions (NatEngine.probeIcmpSlot key pos)).reusable tick = true →
      300 < t.idle.echoes (NatEngine.probeIcmpSlot key pos)

instance (t : Timed) : (c : Call) → Decidable (c.OverwritesExpired t)
  | .flow _ _ _ => inferInstanceAs (Decidable (_ → _ → _))
  | .echo _ _ _ => inferInstanceAs (Decidable (_ → _ → _))

end Call

structure Threads extends Timed where
  call : Option Call

inductive Action
  | tick
  | inbound (pkt : ParsedPacket)
  | setWanIp (ip : IPv4Net)
  | start (pkt : ParsedPacket)
  | examine

namespace Threads

def new : Threads := ⟨Timed.new, none⟩

def step (s : Threads) : Action → Threads
  | .tick => ⟨s.toTimed.step .tick, s.call⟩
  | .inbound pkt => ⟨s.toTimed.step (.inbound pkt), s.call⟩
  | .setWanIp ip => ⟨s.toTimed.step (.setWanIp ip), s.call⟩
  | .start pkt =>
    match s.call with
    | none => { s with call := Call.start s.engine pkt }
    | some _ => s
  | .examine =>
    match s.call with
    | none => s
    | some c =>
      match c.effect s.engine with
      | none => { s with call := c.next }
      | some eff => ⟨⟨s.engine.apply eff, s.idle.apply eff⟩, none⟩

def run (s : Threads) (actions : List Action) : Threads := LabelledRun.exec step s actions

def OverwritesExpired (s : Threads) : Action → Prop
  | .examine => ∀ c ∈ s.call, c.OverwritesExpired s.toTimed
  | _ => True

def WritesInTime (s : Threads) : Action → Prop
  | .examine => ∀ c ∈ s.call, c.effect s.engine ≠ none → c.tick = s.engine.currentTick
  | _ => True

instance (s : Threads) : (a : Action) → Decidable (s.OverwritesExpired a)
  | .examine => inferInstanceAs (Decidable (∀ c ∈ s.call, Call.OverwritesExpired s.toTimed c))
  | .tick | .inbound _ | .setWanIp _ | .start _ => inferInstanceAs (Decidable True)

instance (s : Threads) : (a : Action) → Decidable (s.WritesInTime a)
  | .examine => inferInstanceAs (Decidable (∀ c ∈ s.call, _ → _))
  | .tick | .inbound _ | .setWanIp _ | .start _ => inferInstanceAs (Decidable True)

/-! ## An undisturbed call -/

theorem run_examine_idle (t : Timed) (n : Nat) :
    run ⟨t, none⟩ (.replicate n .examine) = ⟨t, none⟩ := by
  induction n with
  | zero => rfl
  | succ n ih => exact ih

theorem run_examine {t : Timed} (mk : Fin 32 → Call) {f : Fin 32 → Option Effect}
    (heff : ∀ pos, (mk pos).effect t.engine = f pos)
    (hnext : ∀ pos, (mk pos).next = if h : pos.val + 1 < 32 then some (mk ⟨pos + 1, h⟩) else none)
    {n : Nat} (pos : Fin 32) (hn : pos.val + n = 32) (hbefore : ∀ b < pos, f b = none) :
    run ⟨t, some (mk pos)⟩ (.replicate n .examine) =
      ⟨⟨t.engine.apply ((Fin.findSome? f).getD .skip),
        t.idle.apply ((Fin.findSome? f).getD .skip)⟩, none⟩ := by
  induction n generalizing pos with
  | zero => exact absurd pos.isLt (by omega)
  | succ n ih =>
    change run (step ⟨t, some (mk pos)⟩ .examine) (.replicate n .examine) = _
    simp only [step, heff]
    cases hf : f pos with
    | some eff =>
      have hfind : Fin.findSome? f = some eff := Fin.findSome?_eq_some_iff.mpr ⟨pos, hf, hbefore⟩
      rw [hfind]
      exact run_examine_idle _ n
    | none =>
      have hupto (b : Fin 32) (hb : b.val ≤ pos) : f b = none := by
        rcases Nat.lt_or_eq_of_le hb with hlt | heq
        · exact hbefore b hlt
        · rw [Fin.ext heq, hf]
      simp only [hnext]
      split_ifs with hlast
      · exact ih ⟨pos + 1, hlast⟩ (by simp only; omega)
          fun b hb => hupto b (Nat.lt_succ_iff.mp hb)
      · have hfind : Fin.findSome? f = none :=
          Fin.findSome?_eq_none_iff.mpr fun b => hupto b (by omega)
        rw [hfind]
        exact run_examine_idle t n

theorem run_call (t : Timed) (pkt : ParsedPacket) :
    run ⟨t, none⟩ (.start pkt :: .replicate 32 .examine) = ⟨t.step (.outbound pkt), none⟩ := by
  have hstep : t.step (.outbound pkt) =
      ⟨t.engine.apply (t.engine.outboundEffect pkt), t.idle.apply (t.engine.outboundEffect pkt)⟩ := by
    rw [Timed.step, NatEngine.step_eq]
    rfl
  rw [hstep]
  change run ⟨t, Call.start t.engine pkt⟩ (.replicate 32 .examine) = _
  unfold Call.start NatEngine.outboundEffect
  split_ifs
  · exact run_examine_idle t 32
  cases hkey : pkt.flowKey with
  | some key =>
    exact run_examine (Call.flow key t.engine.currentTick) (fun _ => rfl) (fun _ => rfl) 0 rfl
      fun b hb => absurd hb (Fin.not_lt_zero b)
  | none =>
    cases hecho : pkt.echoKey 8 with
    | some key =>
      exact run_examine (Call.echo key t.engine.currentTick) (fun _ => rfl) (fun _ => rfl) 0 rfl
        fun b hb => absurd hb (Fin.not_lt_zero b)
    | none => exact run_examine_idle t 32

/-! ## Disturbed calls -/

theorem stamped_step {s : Threads} (h : s.engine.Stamped s.idle) {a : Action}
    (ha : s.WritesInTime a) : (s.step a).engine.Stamped (s.step a).idle := by
  have hwhole (op : Op) : (s.engine.step op).Stamped (s.idle.apply (s.engine.effect op)) := by
    rw [NatEngine.step_eq]
    exact h.apply (NatEngine.effect_allowed s.engine op)
  cases a with
  | tick => exact hwhole .tick
  | inbound pkt => exact hwhole (.inbound pkt)
  | setWanIp ip => exact hwhole (.setWanIp ip)
  | start pkt =>
    unfold step
    cases hcall : s.call <;> exact h
  | examine =>
    cases hcall : s.call with
    | none => simpa only [step, hcall] using h
    | some c =>
      cases heff : c.effect s.engine with
      | none => simpa only [step, hcall, heff] using h
      | some eff =>
        have hnow := ha c hcall (by simp [heff])
        simp only [step, hcall, heff]
        apply h.apply
        cases c with
        | flow key tick pos => exact NatEngine.slotEffect_allowed hnow heff
        | echo key tick pos => exact NatEngine.icmpSlotEffect_allowed hnow heff

theorem overwritesExpired_of_stamped {s : Threads} (h : s.engine.Stamped s.idle) {a : Action}
    (ha : s.WritesInTime a) : s.OverwritesExpired a := by
  cases a with
  | examine =>
    intro c hcall
    cases c with
    | flow key tick pos =>
      intro hact hr
      have hnow : tick = s.engine.currentTick :=
        ha _ hcall (by simp [Call.effect, NatEngine.slotEffect_of_reusable hr])
      exact h.flows.idle_of_reusable hact (hnow ▸ hr)
    | echo key tick pos =>
      intro hact hr
      have hnow : tick = s.engine.currentTick :=
        ha _ hcall (by simp [Call.effect, NatEngine.icmpSlotEffect, hr])
      exact h.echoes.idle_of_reusable hact (hnow ▸ hr)
  | _ => trivial

theorem overwrites_only_expired {actions : List Action}
    (h : LabelledRun.Every step WritesInTime new actions) :
    LabelledRun.Every step OverwritesExpired new actions :=
  h.imp_of_invariant (I := fun s : Threads => s.engine.Stamped s.idle)
    (fun _ _ hs ha => stamped_step hs ha) (fun _ _ hs ha => overwritesExpired_of_stamped hs ha)
    (NatEngine.stamped_run [])

/-- An answer falls between the load of the tick and the examination. 301 ticks later the session
has expired, and the next query overwrites it. -/
theorem overwrites_only_expired_query :
    let query := ParsedPacket.parse (makeUdpPkt (octets 192 168 1 10) (octets 8 8 8 8) 5000 53)
    let answer := ParsedPacket.parse (makeUdpPkt (octets 8 8 8 8) (octets 203 0 113 1) 53 10000)
    let slot := NatEngine.probeSlot ⟨octets 192 168 1 10, octets 8 8 8 8, htons 5000, htons 53⟩ 0
    let before : List Action := [.setWanIp (octets 203 0 113 1), .start query, .examine,
      .start query, .inbound answer, .examine] ++ .replicate 301 .tick ++ [.start query]
    LabelledRun.Every step OverwritesExpired new (before ++ [.examine]) ∧
      ((new.run before).engine.sessions slot).active = true ∧
      (new.run before).idle.flows slot = 301 ∧
      ((new.run (before ++ [.examine])).engine.sessions slot).externalPort = htons 10001 := by
  intro query answer slot before
  have hintime : LabelledRun.Every step WritesInTime new (before ++ [.examine]) := by
    decide +kernel
  exact ⟨overwrites_only_expired hintime, by decide +kernel⟩

/-- The second query loads tick 0; the timer ticks, and an answer refreshes the session with
tick 1. The difference wraps: the session is overwritten, no tick after it was stamped, and the
flow is moved from port 10000 to port 10001. -/
theorem overwrites_refreshed_session :
    let query := ParsedPacket.parse (makeUdpPkt (octets 192 168 1 10) (octets 8 8 8 8) 5000 53)
    let answer := ParsedPacket.parse (makeUdpPkt (octets 8 8 8 8) (octets 203 0 113 1) 53 10000)
    let slot := NatEngine.probeSlot ⟨octets 192 168 1 10, octets 8 8 8 8, htons 5000, htons 53⟩ 0
    let s := new.run [.setWanIp (octets 203 0 113 1), .start query, .examine, .start query, .tick,
      .inbound answer]
    ¬s.OverwritesExpired .examine ∧ s.idle.flows slot = 0 ∧
      (s.engine.sessions slot).externalPort = htons 10000 ∧
      ((s.step .examine).engine.sessions slot).externalPort = htons 10001 := by
  decide +kernel

end Threads
end Hpgtp
