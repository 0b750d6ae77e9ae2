import TrafficPrioritizer.NatEngine.Clock
import TrafficPrioritizer.NatEngine.Frames
import Mathlib.Data.List.Induction

/-! The idle limit on the inbound side. The engine runs beside the ages of its slots;
the inbound paths use a session whatever its age, so the limit holds of exactly
those packets whose session would still pass the outbound expiry test. -/

namespace Hpgtp
open ReverseIndex WrapClock

structure Timed where
  engine : NatEngine
  idle : Idle

namespace Timed

def new : Timed := ⟨.new, ⟨fun _ => 0, fun _ => 0⟩⟩

def step (t : Timed) (op : Op) : Timed := ⟨t.engine.step op, t.idle.apply (t.engine.effect op)⟩

def run (ops : List Op) : Timed := LabelledRun.exec step new ops

theorem run_engine (ops : List Op) : (run ops).engine = NatEngine.new.run ops :=
  LabelledRun.exec_map Timed.engine (fun _ _ => rfl) new ops

theorem run_snoc (ops : List Op) (op : Op) : run (ops ++ [op]) = (run ops).step op :=
  LabelledRun.exec_append ..

end Timed

namespace NatEngine

theorem stamped_run (ops : List Op) : (Timed.run ops).engine.Stamped (Timed.run ops).idle :=
  LabelledRun.invariant (I := fun t : Timed => t.engine.Stamped t.idle)
    (fun t op h => by
      change (t.engine.step op).Stamped _
      rw [step_eq]
      exact h.apply (effect_allowed t.engine op))
    ops ⟨fun i hi => absurd hi Bool.false_ne_true, fun i hi => absurd hi Bool.false_ne_true⟩

end NatEngine

namespace SessionTable
variable {n : ℕ} {κ : Type} {T : SessionTable n κ} {e : NatEngine} {a : Fin n → ℕ}

def Unwrapped (T : SessionTable n κ) (e : NatEngine) (a : Fin n → ℕ) : Prop :=
  ∀ i, (T.entry e i).active = true → a i < 2 ^ 32

theorem Unwrapped.step (hst : T.Stamped e a) (h : T.Unwrapped e a) {op : Op}
    (hfit : op = .tick → T.AgesFit e) : T.Unwrapped (e.step op) (T.age a (e.effect op)) := by
  rw [NatEngine.step_eq]
  intro i hi
  by_cases hadv : e.effect op = .advance
  · have hact : (T.entry e i).active = true := by
      rw [hadv] at hi
      exact T.entry_tick e i ▸ hi
    rw [hadv]
    exact (hst i hact).succ_lt (h i hact) (hfit (NatEngine.effect_eq_advance.mp hadv) i hact)
  · rcases stamp_of_active a (NatEngine.effect_allowed e op) hadv hi with ⟨hentry, hage⟩ | ⟨-, hage⟩
    · rw [hage]
      exact h i (hentry ▸ hi)
    · omega

theorem Stamped.idle_le_iff (hst : T.Stamped e a) (h : T.Unwrapped e a) {i : Fin n}
    (hact : (T.entry e i).active = true) :
    a i ≤ 300 ↔ (T.entry e i).reusable e.currentTick = false := by
  rw [TableEntry.reusable_eq_false, (hst i hact).age_eq (h i hact)]
  simp [hact]

end SessionTable

namespace NatEngine

structure Unwrapped (e : NatEngine) (d : Idle) : Prop where
  flows : flowTable.Unwrapped e d.flows
  echoes : echoTable.Unwrapped e d.echoes

def AgesFit (e : NatEngine) (op : Op) : Prop := op = .tick → e.FlowAgesFit ∧ e.EchoAgesFit

theorem Unwrapped.step {e : NatEngine} {d : Idle} (hst : e.Stamped d) (h : e.Unwrapped d) {op : Op}
    (hfit : e.AgesFit op) : (e.step op).Unwrapped (d.apply (e.effect op)) :=
  ⟨h.flows.step hst.flows fun htick => (hfit htick).1,
    h.echoes.step hst.echoes fun htick => (hfit htick).2⟩

theorem unwrapped_run {ops : List Op} (hfit : LabelledRun.Every NatEngine.step AgesFit new ops) :
    (Timed.run ops).engine.Unwrapped (Timed.run ops).idle := by
  induction ops using List.reverseRecOn with
  | nil =>
    exact ⟨fun i hi => absurd hi Bool.false_ne_true, fun i hi => absurd hi Bool.false_ne_true⟩
  | append_singleton ops op ih =>
    obtain ⟨hops, hop, -⟩ := LabelledRun.every_append.mp hfit
    rw [Timed.run_snoc]
    refine (ih hops).step (stamped_run ops) ?_
    rw [Timed.run_engine]
    exact hop

theorem idle_le_ticks (ops : List Op) :
    (∀ i, (Timed.run ops).idle.flows i ≤ ticks ops) ∧
      ∀ j, (Timed.run ops).idle.echoes j ≤ ticks ops := by
  induction ops using List.reverseRecOn with
  | nil => exact ⟨fun _ => le_rfl, fun _ => le_rfl⟩
  | append_singleton ops op ih =>
    have hflows := flowTable.age_le (Timed.run ops).idle.flows ((Timed.run ops).engine.effect op)
    have hechoes := echoTable.age_le (Timed.run ops).idle.echoes ((Timed.run ops).engine.effect op)
    have htick : (if (Timed.run ops).engine.effect op = .advance then 1 else 0) = ticks [op] := by
      cases op <;> simp [effect_eq_advance, ticks, Op.isTick]
    rw [Timed.run_snoc, ticks_append, ← htick]
    exact ⟨fun i => (hflows i).trans (Nat.add_le_add_right (ih.1 i) _),
      fun j => (hechoes j).trans (Nat.add_le_add_right (ih.2 j) _)⟩

theorem agesFit_of_ticks_lt {ops : List Op} (h : ticks ops < 2 ^ 32) :
    LabelledRun.Every NatEngine.step AgesFit new ops := by
  refine LabelledRun.every_of_split fun before op after hsplit hop => ?_
  have hst := stamped_run before
  rw [Timed.run_engine] at hst
  have hticks : ticks before + 1 < 2 ^ 32 := by
    rw [hsplit, hop, ticks_append, ticks_cons] at h
    simp only [Op.isTick, if_true] at h
    omega
  constructor
  · intro i hi
    have hle := (idle_le_ticks before).1 i
    exact (hst.flows i hi).ne_of_lt (by omega)
  · intro i hi
    have hle := (idle_le_ticks before).2 i
    exact (hst.echoes i hi).ne_of_lt (by omega)

def UsesSession (e : NatEngine) (pkt : ParsedPacket) (i : Fin maxSessions) : Prop :=
  (e.processInbound pkt).translated = true ∧
    ∃ k, pkt.flowKey = some k ∧ e.portToIndex (ntohs k.dport) = (i : Nat)

def UsesIcmpSession (e : NatEngine) (pkt : ParsedPacket) (i : Fin maxIcmpSessions) : Prop :=
  (e.processInbound pkt).translated = true ∧
    ∃ k, pkt.echoKey 0 = some k ∧ e.icmpIdToIndex (ntohs k.idNbo) = (i : Nat)

theorem usesSession_iff {e : NatEngine} {pkt : ParsedPacket} {i : Fin maxSessions} :
    e.UsesSession pkt i ↔ ∃ k, pkt.flowKey = some k ∧ e.acceptSlot k = some i := by
  constructor
  · rintro ⟨htr, k, hk, hidx⟩
    refine ⟨k, hk, ?_⟩
    obtain ⟨ip, v, hports, rfl⟩ := ParsedPacket.flowKey_eq_some.mp hk
    rw [processInbound_of_ports hports] at htr
    cases hacc : e.acceptSlot (pkt.keyAt ip v) with
    | none => simp [hacc] at htr
    | some j =>
      obtain ⟨-, hj, -⟩ := acceptSlot_eq_some.mp hacc
      exact congrArg some (Fin.ext (by omega))
  · rintro ⟨k, hk, hacc⟩
    refine ⟨?_, k, hk, (acceptSlot_eq_some.mp hacc).2.1⟩
    obtain ⟨ip, v, hports, rfl⟩ := ParsedPacket.flowKey_eq_some.mp hk
    rw [processInbound_of_ports hports, hacc]

theorem usesIcmpSession_iff {e : NatEngine} {pkt : ParsedPacket} {i : Fin maxIcmpSessions} :
    e.UsesIcmpSession pkt i ↔ ∃ k, pkt.echoKey 0 = some k ∧ e.acceptIcmpSlot k = some i := by
  constructor
  · rintro ⟨htr, k, hk, hidx⟩
    refine ⟨k, hk, ?_⟩
    obtain ⟨ip, icmp, hecho, rfl⟩ := ParsedPacket.echoKey_eq_some.mp hk
    rw [processInbound_of_echo hecho] at htr
    cases hacc : e.acceptIcmpSlot (pkt.echoKeyAt ip icmp) with
    | none => simp [hacc] at htr
    | some j =>
      obtain ⟨-, hj, -⟩ := acceptIcmpSlot_eq_some.mp hacc
      exact congrArg some (Fin.ext (by omega))
  · rintro ⟨k, hk, hacc⟩
    refine ⟨?_, k, hk, (acceptIcmpSlot_eq_some.mp hacc).2.1⟩
    obtain ⟨ip, icmp, hecho, rfl⟩ := ParsedPacket.echoKey_eq_some.mp hk
    rw [processInbound_of_echo hecho, hacc]

def MatchesLive (e : NatEngine) (pkt : ParsedPacket) : Prop :=
  (∀ k i, pkt.flowKey = some k → e.acceptSlot k = some i →
    (e.sessions i).reusable e.currentTick = false) ∧
  ∀ k i, pkt.echoKey 0 = some k → e.acceptIcmpSlot k = some i →
    (e.icmpSessions i).reusable e.currentTick = false

/-- After every run that wraps no age, the session an inbound packet is translated by was
refreshed at most 300 ticks before exactly when the packet matches no expired session. -/
theorem inbound_idle_enforced {ops : List Op}
    (hfit : LabelledRun.Every NatEngine.step AgesFit new ops) (pkt : ParsedPacket) :
    ((∀ i, (new.run ops).UsesSession pkt i → (Timed.run ops).idle.flows i ≤ 300) ∧
      ∀ i, (new.run ops).UsesIcmpSession pkt i → (Timed.run ops).idle.echoes i ≤ 300) ↔
    (new.run ops).MatchesLive pkt := by
  have hst := stamped_run ops
  have hun := unwrapped_run hfit
  rw [Timed.run_engine] at hst hun
  have hflow (i) (hact : ((new.run ops).sessions i).active = true) :
      (Timed.run ops).idle.flows i ≤ 300 ↔
        ((new.run ops).sessions i).reusable (new.run ops).currentTick = false :=
    hst.flows.idle_le_iff hun.flows hact
  have hecho (i) (hact : ((new.run ops).icmpSessions i).active = true) :
      (Timed.run ops).idle.echoes i ≤ 300 ↔
        ((new.run ops).icmpSessions i).reusable (new.run ops).currentTick = false :=
    hst.echoes.idle_le_iff hun.echoes hact
  constructor
  · rintro ⟨hf, he⟩
    refine ⟨fun k i hk hacc => ?_, fun k i hk hacc => ?_⟩
    · exact (hflow i (acceptSlot_eq_some.mp hacc).2.2.2.1).mp (hf i (usesSession_iff.mpr ⟨k, hk, hacc⟩))
    · exact (hecho i (acceptIcmpSlot_eq_some.mp hacc).2.2.2.1).mp
        (he i (usesIcmpSession_iff.mpr ⟨k, hk, hacc⟩))
  · rintro ⟨hf, he⟩
    refine ⟨fun i huse => ?_, fun i huse => ?_⟩
    · obtain ⟨k, hk, hacc⟩ := usesSession_iff.mp huse
      exact (hflow i (acceptSlot_eq_some.mp hacc).2.2.2.1).mpr (hf k i hk hacc)
    · obtain ⟨k, hk, hacc⟩ := usesIcmpSession_iff.mp huse
      exact (hecho i (acceptIcmpSlot_eq_some.mp hacc).2.2.2.1).mpr (he k i hk hacc)

theorem inbound_idle_enforced_dns :
    let ops : List Op := [.setWanIp (octets 203 0 113 1),
      .outbound (.parse (makeUdpPkt (octets 192 168 1 10) (octets 8 8 8 8) 5000 53))] ++
      .replicate 300 .tick
    let answer := ParsedPacket.parse (makeUdpPkt (octets 8 8 8 8) (octets 203 0 113 1) 53 10000)
    (∀ i, (new.run ops).UsesSession answer i → (Timed.run ops).idle.flows i ≤ 300) ∧
      ∀ i, (new.run ops).UsesIcmpSession answer i → (Timed.run ops).idle.echoes i ≤ 300 := by
  intro ops answer
  refine (inbound_idle_enforced (agesFit_of_ticks_lt (by decide +kernel)) answer).mpr ⟨?_, ?_⟩
  · intro k i hk hacc
    have hkey : answer.flowKey = some ⟨octets 8 8 8 8, octets 203 0 113 1, htons 53, htons 10000⟩ := by
      decide +kernel
    obtain rfl := Option.some.inj (hkey.symm.trans hk)
    have hslot : (new.run ops).acceptSlot
        ⟨octets 8 8 8 8, octets 203 0 113 1, htons 53, htons 10000⟩ =
        some (probeSlot ⟨octets 192 168 1 10, octets 8 8 8 8, htons 5000, htons 53⟩ 0) := by
      decide +kernel
    obtain rfl := Option.some.inj (hslot.symm.trans hacc)
    decide +kernel
  · intro k i hk
    exact absurd (hk.symm.trans (show answer.echoKey 0 = none by decide +kernel)) (by simp)

/-- One tick later the session has expired, and the answer is translated all the same. -/
theorem inbound_translates_expired :
    let ops : List Op := [.setWanIp (octets 203 0 113 1),
      .outbound (.parse (makeUdpPkt (octets 192 168 1 10) (octets 8 8 8 8) 5000 53))] ++
      .replicate 301 .tick
    let answer := ParsedPacket.parse (makeUdpPkt (octets 8 8 8 8) (octets 203 0 113 1) 53 10000)
    let slot := probeSlot ⟨octets 192 168 1 10, octets 8 8 8 8, htons 5000, htons 53⟩ 0
    (new.run ops).UsesSession answer slot ∧ (Timed.run ops).idle.flows slot = 301 := by
  refine ⟨⟨?_, ⟨octets 8 8 8 8, octets 203 0 113 1, htons 53, htons 10000⟩, ?_, ?_⟩, ?_⟩ <;>
    decide +kernel

end NatEngine
end Hpgtp
