import TrafficPrioritizer.NatEngine.Tables
import TrafficPrioritizer.Lib.WrapClock

/-! Ages of sessions. The engine keeps 32-bit stamps; beside it runs the number of
`tick()` calls since each stamp was stored, and the two are tied together for the
active sessions. -/

namespace Hpgtp
open ReverseIndex WrapClock

namespace SessionTable
variable {n : ℕ} {κ : Type} {T : SessionTable n κ} {e : NatEngine} {a : Fin n → ℕ} {eff : Effect}
  {i : Fin n}

/-- The `tick()` calls since the stamp of each slot was stored. An echo session that could not be
opened leaves an inactive slot: its age is of no account. -/
def age (T : SessionTable n κ) (a : Fin n → ℕ) : Effect → Fin n → ℕ
  | .advance => fun i => a i + 1
  | eff =>
    match T.target eff with
    | some i => Function.update a i 0
    | none => a

theorem age_of_target (h : T.target eff = some i) : T.age a eff i = 0 := by
  have hadv : eff ≠ .advance := by
    rintro rfl
    rw [T.clock] at h
    exact absurd h.symm (Option.some_ne_none i)
  unfold age
  split
  · exact absurd rfl hadv
  · rw [h]
    exact Function.update_self ..

theorem age_of_ne (hadv : eff ≠ .advance) (h : T.target eff ≠ some i) : T.age a eff i = a i := by
  unfold age
  split
  · exact absurd rfl hadv
  · cases htarget : T.target eff with
    | none => rfl
    | some j =>
      refine Function.update_of_ne ?_ ..
      rintro rfl
      exact h htarget

theorem age_le (T : SessionTable n κ) (a : Fin n → ℕ) (eff : Effect) (i : Fin n) :
    T.age a eff i ≤ a i + if eff = .advance then 1 else 0 := by
  by_cases hadv : eff = .advance
  · subst hadv
    exact le_rfl
  · rw [if_neg hadv]
    by_cases hi : T.target eff = some i
    · rw [age_of_target hi]
      exact Nat.zero_le _
    · exact (age_of_ne hadv hi).le

theorem entry_tick (T : SessionTable n κ) (e : NatEngine) (i : Fin n) :
    T.entry e.tick i = T.entry e i := by
  have hother : T.target .advance ≠ some i := by
    rw [T.clock]
    exact (Option.some_ne_none i).symm
  exact T.frame hother

def Stamped (T : SessionTable n κ) (e : NatEngine) (a : Fin n → ℕ) : Prop :=
  ∀ i, (T.entry e i).active = true → Tracks e.currentTick (T.entry e i).lastActiveTick (a i)

def AgesFit (T : SessionTable n κ) (e : NatEngine) : Prop :=
  ∀ i, (T.entry e i).active = true → e.currentTick + 1 ≠ (T.entry e i).lastActiveTick

theorem stamp_of_active (a : Fin n → ℕ) (ha : e.Allowed eff) (hadv : eff ≠ .advance)
    (hact : (T.entry (e.apply eff) i).active = true) :
    (T.entry (e.apply eff) i = T.entry e i ∧ T.age a eff i = a i) ∨
      (T.entry (e.apply eff) i).lastActiveTick = e.currentTick ∧ T.age a eff i = 0 := by
  by_cases hi : T.target eff = some i
  · refine .inr ⟨?_, age_of_target hi⟩
    have hwritten := T.written ha hi
    generalize T.opens eff = opened, T.entry (e.apply eff) i = s at hwritten hact ⊢
    cases hwritten with
    | refreshed _ => rfl
    | opened _ key ext => rfl
    | failed _ key hoff _ =>
      rw [hoff] at hact
      exact absurd hact (by decide)
  · exact .inl ⟨T.frame hi, age_of_ne hadv hi⟩

theorem Stamped.apply (h : T.Stamped e a) (ha : e.Allowed eff) :
    T.Stamped (e.apply eff) (T.age a eff) := by
  intro i hi
  by_cases hadv : eff = .advance
  · subst hadv
    change Tracks (e.currentTick + 1) (T.entry e.tick i).lastActiveTick (a i + 1)
    rw [T.entry_tick]
    exact (h i (T.entry_tick e i ▸ hi)).succ
  rw [NatEngine.apply_currentTick e hadv]
  rcases stamp_of_active a ha hadv hi with ⟨hentry, hage⟩ | ⟨hlast, hage⟩
  · rw [hentry, hage]
    exact h i (hentry ▸ hi)
  · rw [hlast, hage]
    exact .self _

theorem Stamped.idle_of_reusable (h : T.Stamped e a) (hact : (T.entry e i).active = true)
    (hr : (T.entry e i).reusable e.currentTick = true) : 300 < a i := by
  have hage := (h i hact).age_le
  by_contra hle
  have hlive : (T.entry e i).reusable e.currentTick = false :=
    TableEntry.reusable_eq_false.mpr ⟨hact, by omega⟩
  rw [hr] at hlive
  exact absurd hlive (by decide)

end SessionTable

structure Idle where
  flows : Fin maxSessions → Nat
  echoes : Fin maxIcmpSessions → Nat

def Idle.apply (d : Idle) (eff : Effect) : Idle :=
  ⟨flowTable.age d.flows eff, echoTable.age d.echoes eff⟩

theorem NatSession.live_of_live_succ {s : NatSession} {tick : UInt32}
    (hfit : s.active = true → tick + 1 ≠ s.lastActiveTick) (h : s.reusable (tick + 1) = false) :
    s.reusable tick = false := by
  rw [NatSession.reusable_eq_false] at h ⊢
  have hsucc := age_succ (hfit h.1)
  exact ⟨h.1, by omega⟩

namespace NatEngine

/-- The next tick wraps the age of no TCP/UDP session: none was stamped `2 ^ 32` ticks ago. -/
def FlowAgesFit (e : NatEngine) : Prop :=
  ∀ i, (e.sessions i).active = true → e.currentTick + 1 ≠ (e.sessions i).lastActiveTick

def EchoAgesFit (e : NatEngine) : Prop :=
  ∀ i, (e.icmpSessions i).active = true → e.currentTick + 1 ≠ (e.icmpSessions i).lastActiveTick

structure Stamped (e : NatEngine) (d : Idle) : Prop where
  flows : flowTable.Stamped e d.flows
  echoes : echoTable.Stamped e d.echoes

theorem Stamped.apply {e : NatEngine} {d : Idle} (h : e.Stamped d) {eff : Effect}
    (ha : e.Allowed eff) : (e.apply eff).Stamped (d.apply eff) :=
  ⟨h.flows.apply ha, h.echoes.apply ha⟩

end NatEngine

/-! ## A session in its first 300 ticks -/

def Op.isTick : Op → Bool
  | .tick => true
  | _ => false

def ticks (ops : List Op) : Nat := ops.countP Op.isTick

@[simp] theorem ticks_nil : ticks [] = 0 := rfl

theorem ticks_cons (op : Op) (ops : List Op) :
    ticks (op :: ops) = ticks ops + if op.isTick then 1 else 0 := List.countP_cons

theorem ticks_append (as bs : List Op) : ticks (as ++ bs) = ticks as + ticks bs := List.countP_append

namespace NatEngine

theorem run_replicate_tick (e : NatEngine) (n : Nat) :
    e.run (.replicate n .tick) = { e with currentTick := e.currentTick + UInt32.ofNat n } := by
  induction n generalizing e with
  | zero => simp [run]
  | succ n ih =>
    change e.tick.run (.replicate n .tick) = _
    rw [ih, tick, UInt32.add_assoc, UInt32.add_comm 1]
    congr 2
    apply UInt32.toNat_inj.mp
    simp

theorem step_aged {P : NatEngine → ℕ → Prop} {e : NatEngine} {n : ℕ} (tick : P e.tick (n + 1))
    (other : ∀ eff, e.Allowed eff → eff ≠ .advance → P (e.apply eff) n) (op : Op) :
    P (e.step op) (n + if op.isTick then 1 else 0) := by
  by_cases htick : op = .tick
  · subst htick
    exact tick
  · have hop : op.isTick = false := by cases op <;> simp_all [Op.isTick]
    rw [step_eq, hop]
    exact other _ (effect_allowed e op) fun hadv => htick (effect_eq_advance.mp hadv)

theorem run_aged {P : NatEngine → ℕ → Prop}
    (hstep : ∀ e n op, n ≤ 300 → P e n → P (e.step op) (n + if op.isTick then 1 else 0))
    {e : NatEngine} {n : ℕ} (h : P e n) (ops : List Op) (hn : n + ticks ops ≤ 300) :
    P (e.run ops) (n + ticks ops) := by
  induction ops generalizing e n with
  | nil => exact h
  | cons op ops ih =>
    rw [ticks_cons] at hn ⊢
    have hrest := ih (hstep e n op (by omega) h) (by omega)
    rwa [Nat.add_assoc, Nat.add_comm _ (ticks ops)] at hrest

end NatEngine

namespace SessionTable
variable {m : ℕ} {κ : Type} {T : SessionTable m κ} {e : NatEngine} {i : Fin m} {key : κ}
  {ext : UInt16} {n : ℕ}

structure At (T : SessionTable m κ) (e : NatEngine) (i : Fin m) (key : κ) (ext : UInt16) (n : ℕ) :
    Prop where
  active : (T.entry e i).active = true
  key : (T.entry e i).key = key
  external : (T.entry e i).external = ext
  age : ∃ k ≤ n, Tracks e.currentTick (T.entry e i).lastActiveTick k

theorem At.live (h : T.At e i key ext n) (hn : n ≤ 300) :
    (T.entry e i).reusable e.currentTick = false := by
  obtain ⟨k, hk, htrack⟩ := h.age
  exact TableEntry.reusable_eq_false.mpr ⟨h.active, (htrack.age_le.trans hk).trans hn⟩

/-- Only the clock ages a session that is not yet 300 ticks old: no call overwrites it. -/
theorem At.apply (h : T.At e i key ext n) (hn : n ≤ 300) {eff : Effect} (ha : e.Allowed eff)
    (hadv : eff ≠ .advance) : T.At (e.apply eff) i key ext n := by
  have htick := NatEngine.apply_currentTick e hadv
  have hlive := h.live hn
  by_cases hi : T.target eff = some i
  · have hwritten := T.written ha hi
    generalize hopened : T.opens eff = opened, hentry : T.entry (e.apply eff) i = s at hwritten
    cases hwritten with
    | refreshed _ =>
      constructor <;> rw [hentry]
      · exact h.active
      · exact h.key
      · exact h.external
      · rw [htick]
        exact ⟨0, Nat.zero_le n, .self _⟩
    | opened hr _ _ | failed hr _ _ _ =>
      -- the slot would have had to be reusable
      rw [hlive] at hr
      exact absurd hr (by decide)
  · constructor <;> rw [T.frame hi]
    · exact h.active
    · exact h.key
    · exact h.external
    · rw [htick]
      exact h.age

theorem At.step (h : T.At e i key ext n) (hn : n ≤ 300) (op : Op) :
    T.At (e.step op) i key ext (n + if op.isTick then 1 else 0) := by
  refine NatEngine.step_aged (P := fun e n => T.At e i key ext n) ?_
    (fun _ ha hadv => h.apply hn ha hadv) op
  obtain ⟨k, hk, htrack⟩ := h.age
  constructor <;> rw [T.entry_tick]
  · exact h.active
  · exact h.key
  · exact h.external
  · exact ⟨k + 1, Nat.succ_le_succ hk, htrack.succ⟩

theorem At.run (h : T.At e i key ext n) (ops : List Op) (hn : n + ticks ops ≤ 300) :
    T.At (e.run ops) i key ext (n + ticks ops) :=
  NatEngine.run_aged (P := fun e n => T.At e i key ext n) (fun _ _ op hle h => h.step hle op) h ops
    hn

theorem at_of_translated {pkt : ParsedPacket} (hkey : T.keyOf pkt = some key)
    (h : (e.processOutbound pkt).translated = true) :
    ∃ i ext, T.At (e.processOutbound pkt).engine i key ext 0 ∧
      T.given (e.processOutbound pkt).packet = some ext := by
  obtain ⟨i, seq, ext, hentry, hgiven⟩ := T.found hkey h
  have hadv : e.effect (.outbound pkt) ≠ .advance :=
    fun hadv => absurd (NatEngine.effect_eq_advance.mp hadv) (by simp)
  have htick : (e.processOutbound pkt).engine.currentTick = e.currentTick := by
    rw [NatEngine.processOutbound_engine]
    exact NatEngine.apply_currentTick e hadv
  refine ⟨i, ext, ?_, hgiven⟩
  constructor <;> rw [hentry]
  exact ⟨0, le_rfl, by rw [htick]; exact .self _⟩

theorem at_after {before after : List Op} {pkt : ParsedPacket} (hkey : T.keyOf pkt = some key)
    (h : ((NatEngine.new.run before).processOutbound pkt).translated = true)
    (hgiven : T.given ((NatEngine.new.run before).processOutbound pkt).packet = some ext)
    (hrecent : ticks after ≤ 300) :
    ∃ i, T.At (NatEngine.new.run (before ++ .outbound pkt :: after)) i key ext (ticks after) := by
  obtain ⟨i, ext', hat, hgiven'⟩ := at_of_translated hkey h
  obtain rfl : ext = ext' := Option.some.inj (hgiven.symm.trans hgiven')
  have hrun : NatEngine.new.run (before ++ .outbound pkt :: after) =
      ((NatEngine.new.run before).processOutbound pkt).engine.run after :=
    LabelledRun.exec_append ..
  have hlater := hat.run after (by omega)
  rw [Nat.zero_add] at hlater
  rw [hrun]
  exact ⟨i, hlater⟩

end SessionTable

theorem NatEngine.wanIp_after (before : List Op) (pkt : ParsedPacket) {after : List Op}
    (h : ∀ ip, Op.setWanIp ip ∉ after) :
    (new.run (before ++ .outbound pkt :: after)).wanIp = (new.run before).wanIp := by
  have hrun : new.run (before ++ .outbound pkt :: after) =
      ((new.run before).step (.outbound pkt)).run after := LabelledRun.exec_append ..
  rw [hrun, run_wanIp _ h]
  exact step_wanIp _ (.outbound pkt) (by simp)

end Hpgtp
