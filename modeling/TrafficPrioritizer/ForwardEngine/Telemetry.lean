import TrafficPrioritizer.ForwardEngine.Pipeline
import TrafficPrioritizer.Lib.Run
import Mathlib.Algebra.BigOperators.Group.List.Basic

/-! The telemetry of a worker. Every packet that reaches the routing step is counted in the
consumer's batch, and the batch goes to the core's slot through the registered observers. The
counters of `PacketConsumer` have no bound; the machine's are these modulo their width. -/

namespace Hpgtp

/-! ## What the packets amount to -/

def Verdict.counted : Verdict → Option (Priority × ℕ)
  | .intercepted _ => none
  | .dropped => none
  | .routed pkt prio _ => some (prio, pkt.rawSpan.length)

namespace BatchStats

def tally (ps : List (Priority × ℕ)) : BatchStats where
  pkts := ps.length
  bytes := (ps.map Prod.snd).sum
  prioPkts := fun i => (ps.filter (·.1 = i)).length
  prioBytes := fun i => ((ps.filter (·.1 = i)).map Prod.snd).sum

def record (s : BatchStats) : Option (Priority × ℕ) → BatchStats
  | none => s
  | some (prio, size) => s.count prio size

structure Balanced (s : BatchStats) : Prop where
  pkts : s.prioPkts .high + s.prioPkts .normal = s.pkts
  bytes : s.prioBytes .high + s.prioBytes .normal = s.bytes

theorem tally_append_record (ps : List (Priority × ℕ)) (p : Option (Priority × ℕ)) :
    tally (ps ++ p.toList) = (tally ps).record p := by
  cases p with
  | none => rw [Option.toList_none, List.append_nil, record]
  | some p =>
    obtain ⟨prio, size⟩ := p
    simp only [tally, record, count, Option.toList_some, List.length_append, List.length_singleton,
      List.map_append, List.sum_append, List.filter_append, mk.injEq, true_and]
    refine ⟨by simp, ?_, ?_⟩
    all_goals
      funext i
      by_cases hi : prio = i
      · subst hi
        simp
      · simp [hi, Function.update_of_ne (Ne.symm hi)]

theorem balanced_empty : Balanced {} := ⟨rfl, rfl⟩

theorem Balanced.record {s : BatchStats} (h : s.Balanced) (p : Option (Priority × ℕ)) :
    (s.record p).Balanced := by
  obtain ⟨hpkts, hbytes⟩ := h
  match p with
  | none => exact ⟨hpkts, hbytes⟩
  | some (.high, size) =>
    constructor
    · show s.prioPkts .high + 1 + s.prioPkts .normal = s.pkts + 1
      omega
    · show s.prioBytes .high + size + s.prioBytes .normal = s.bytes + size
      omega
  | some (.normal, size) =>
    constructor
    · show s.prioPkts .high + (s.prioPkts .normal + 1) = s.pkts + 1
      omega
    · show s.prioBytes .high + (s.prioBytes .normal + size) = s.bytes + size
      omega

theorem Balanced.add {s t : BatchStats} (hs : s.Balanced) (ht : t.Balanced) :
    (s.add t).Balanced := by
  constructor
  · show s.prioPkts .high + t.prioPkts .high + (s.prioPkts .normal + t.prioPkts .normal) =
      s.pkts + t.pkts
    rw [← hs.pkts, ← ht.pkts]
    omega
  · show s.prioBytes .high + t.prioBytes .high + (s.prioBytes .normal + t.prioBytes .normal) =
      s.bytes + t.bytes
    rw [← hs.bytes, ← ht.bytes]
    omega

theorem add_record (s t : BatchStats) (p : Option (Priority × ℕ)) :
    s.add (t.record p) = (s.add t).record p := by
  cases p with
  | none => rfl
  | some p =>
    obtain ⟨prio, size⟩ := p
    simp only [record, count, add, mk.injEq, Nat.add_assoc, true_and]
    constructor
    all_goals
      funext i
      by_cases hi : i = prio
      · subst hi
        simp
      · simp [hi]

theorem add_empty (s : BatchStats) : s.add {} = s := rfl

end BatchStats

namespace PacketConsumer

theorem step_of_ne {s : PipelineStep} (hs : s ≠ .qosRouting) (c : PacketConsumer)
    (pkt : ParsedPacket) :
    (∃ nat, (c.step pkt s).1 = { c with nat }) ∧
      ∀ v, (c.step pkt s).2 = .stop v → v.counted = none := by
  cases s with
  | dhcpInterceptor =>
    refine ⟨⟨c.nat, rfl⟩, fun v hv => ?_⟩
    by_cases hi : c.intercepts pkt
    · rw [step, if_pos hi] at hv
      cases hv
      rfl
    · rw [step, if_neg hi] at hv
      cases hv
  | natDownstream =>
    rw [step_natDownstream]
    refine ⟨⟨_, rfl⟩, fun v hv => ?_⟩
    cases hv
  | natUpstream =>
    have hstep : c.step pkt .natUpstream = _ := step_natUpstream c ⟨false, c.nat, pkt⟩
    rw [hstep]
    refine ⟨⟨_, rfl⟩, fun v hv => ?_⟩
    cases hv
  | ethRewriteLanToWan =>
    refine ⟨⟨c.nat, rfl⟩, fun v hv => ?_⟩
    rw [step] at hv
    cases hr : Hpgtp.ethRewriteLanToWan c.enableNat c.snapshot pkt with
    | none =>
      rw [hr] at hv
      cases hv
      rfl
    | some q =>
      rw [hr] at hv
      cases hv
  | ethRewriteWanToLan =>
    refine ⟨⟨c.nat, rfl⟩, fun v hv => ?_⟩
    cases hv
  | qosRouting => exact absurd rfl hs

end PacketConsumer

/-! ## The machine's counters -/

structure Counters where
  pkts : UInt64 := 0
  bytes : UInt64 := 0
  prioPkts : Priority → UInt64 := fun _ => 0
  prioBytes : Priority → UInt64 := fun _ => 0

namespace Counters

def count (s : Counters) (prio : Priority) (size : ℕ) : Counters where
  pkts := s.pkts + 1
  bytes := s.bytes + UInt64.ofNat size
  prioPkts := Function.update s.prioPkts prio (s.prioPkts prio + 1)
  prioBytes := Function.update s.prioBytes prio (s.prioBytes prio + UInt64.ofNat size)

def add (m s : Counters) : Counters where
  pkts := m.pkts + s.pkts
  bytes := m.bytes + s.bytes
  prioPkts := fun i => m.prioPkts i + s.prioPkts i
  prioBytes := fun i => m.prioBytes i + s.prioBytes i

def ofStats (s : BatchStats) : Counters where
  pkts := UInt64.ofNat s.pkts
  bytes := UInt64.ofNat s.bytes
  prioPkts := fun i => UInt64.ofNat (s.prioPkts i)
  prioBytes := fun i => UInt64.ofNat (s.prioBytes i)

theorem ofStats_count (s : BatchStats) (prio : Priority) (size : ℕ) :
    ofStats (s.count prio size) = (ofStats s).count prio size := by
  simp only [ofStats, count, BatchStats.count, mk.injEq, UInt64.ofNat_add, true_and]
  refine ⟨rfl, ?_, ?_⟩
  all_goals
    funext i
    by_cases hi : i = prio
    · subst hi
      simp [UInt64.ofNat_add]
    · simp [hi]

theorem ofStats_add (s t : BatchStats) : ofStats (s.add t) = (ofStats s).add (ofStats t) := by
  simp only [ofStats, add, BatchStats.add, UInt64.ofNat_add]

structure Balanced (c : Counters) : Prop where
  pkts : c.prioPkts .high + c.prioPkts .normal = c.pkts
  bytes : c.prioBytes .high + c.prioBytes .normal = c.bytes

end Counters

structure Telemetry where
  coreMetrics : Fin 4 → Counters

def Telemetry.commitBatch (t : Telemetry) (s : Counters) (coreId : ℤ) : Telemetry :=
  if h : coreId < 0 ∨ coreId ≥ 4 then t
  else
    let slot : Fin 4 := ⟨coreId.toNat, by omega⟩
    { t with coreMetrics := Function.update t.coreMetrics slot ((t.coreMetrics slot).add s) }

structure PacketObserver where
  onPacket : ParsedPacket → Priority → Telemetry → Telemetry
  onBatch : Counters → ℤ → Telemetry → Telemetry

def telemetryObserver : PacketObserver where
  onPacket := fun _ _ t => t
  onBatch := fun stats coreId t => t.commitBatch stats coreId

structure CallbackRegistry where
  observers : List PacketObserver := []
  packetCb : Option (ParsedPacket → Priority → Telemetry → Telemetry) := none
  batchCb : Option (Counters → ℤ → Telemetry → Telemetry) := none
  observers_le : observers.length ≤ 8 := by decide

namespace CallbackRegistry

def registerObserver (r : CallbackRegistry) : Option PacketObserver → CallbackRegistry
  | none => r
  | some o =>
    if h : r.observers.length < 8 then
      { r with observers := r.observers ++ [o], observers_le := by simpa using Nat.succ_le_of_lt h }
    else r

def dispatchPacket (r : CallbackRegistry) (pkt : ParsedPacket) (prio : Priority) (t : Telemetry) :
    Telemetry :=
  let t := r.observers.foldl (fun t o => o.onPacket pkt prio t) t
  match r.packetCb with
  | none => t
  | some cb => cb pkt prio t

def dispatchBatch (r : CallbackRegistry) (stats : Counters) (coreId : ℤ) (t : Telemetry) :
    Telemetry :=
  let t := r.observers.foldl (fun t o => o.onBatch stats coreId t) t
  match r.batchCb with
  | none => t
  | some cb => cb stats coreId t

end CallbackRegistry

structure CountedConsumer where
  consumer : PacketConsumer
  stats : Counters
  callbacks : CallbackRegistry
  telemetry : Telemetry

namespace CountedConsumer

def step (d : CountedConsumer) (pkt : ParsedPacket) : PipelineStep → CountedConsumer × Passed
  | .qosRouting =>
    let prio := HeuristicProcessor.process d.consumer.largePacketThreshold pkt
    let r := d.consumer.step pkt .qosRouting
    ({ d with
        consumer := r.1
        stats := d.stats.count prio pkt.rawSpan.length
        telemetry := d.callbacks.dispatchPacket pkt prio d.telemetry }, r.2)
  | s =>
    let r := d.consumer.step pkt s
    ({ d with consumer := r.1 }, r.2)

def runSteps (d : CountedConsumer) (pkt : ParsedPacket) :
    List PipelineStep → CountedConsumer × Option Verdict
  | [] => (d, none)
  | s :: ss =>
    match d.step pkt s with
    | (d, .stop v) => (d, some v)
    | (d, .on pkt) => d.runSteps pkt ss

def commit (d : CountedConsumer) : CountedConsumer :=
  let d := { d with consumer := d.consumer.commit }
  if d.stats.pkts &&& 31 = 0 then
    { d with
      telemetry := d.callbacks.dispatchBatch d.stats d.consumer.coreId d.telemetry
      stats := {} }
  else d

def onPacketEvent (d : CountedConsumer) (pkt : ParsedPacket) : CountedConsumer × Option Verdict :=
  let r := d.runSteps pkt d.consumer.pipeline
  (r.1.commit, r.2)

/-! Without the machine's counters this is the consumer of the pipelines. -/

theorem step_consumer (d : CountedConsumer) (pkt : ParsedPacket) (s : PipelineStep) :
    ((d.step pkt s).1.consumer, (d.step pkt s).2) = d.consumer.step pkt s := by
  cases s <;> rfl

theorem runSteps_consumer (d : CountedConsumer) (pkt : ParsedPacket) (ss : List PipelineStep) :
    ((d.runSteps pkt ss).1.consumer, (d.runSteps pkt ss).2) = d.consumer.runSteps pkt ss := by
  induction ss generalizing d pkt with
  | nil => rfl
  | cons s ss ih =>
    rw [runSteps, PacketConsumer.runSteps, ← step_consumer]
    obtain ⟨d', passed⟩ := d.step pkt s
    cases passed with
    | on pkt' => exact ih d' pkt'
    | stop v => rfl

theorem onPacketEvent_consumer (d : CountedConsumer) (pkt : ParsedPacket) :
    ((d.onPacketEvent pkt).1.consumer, (d.onPacketEvent pkt).2) = d.consumer.onPacketEvent pkt := by
  have hcommit : ∀ d : CountedConsumer, d.commit.consumer = d.consumer.commit := by
    intro d
    rw [commit]
    split_ifs <;> rfl
  rw [onPacketEvent, PacketConsumer.onPacketEvent, ← runSteps_consumer, hcommit]

/-- What the other threads may have changed when a packet is taken up: everything but the core's
own slot. -/
structure Surroundings where
  nat : NatEngine
  snapshot : L2Snapshot
  enableNat : Bool
  largePacketThreshold : UInt32
  effectiveBridgeMode : Bool
  coreMetrics : Fin 4 → Counters

def within (core : Fin 4) (env : Surroundings) (d : CountedConsumer) : CountedConsumer :=
  { d with
    consumer := { d.consumer with
      nat := env.nat
      snapshot := env.snapshot
      enableNat := env.enableNat
      largePacketThreshold := env.largePacketThreshold
      effectiveBridgeMode := env.effectiveBridgeMode }
    telemetry := ⟨Function.update env.coreMetrics core (d.telemetry.coreMetrics core)⟩ }

def fresh (core : Fin 4) (env : Surroundings) : CountedConsumer where
  consumer :=
    { coreId := core, stats := {}, metrics := {}, nat := env.nat, snapshot := env.snapshot
      enableNat := env.enableNat, largePacketThreshold := env.largePacketThreshold
      effectiveBridgeMode := env.effectiveBridgeMode }
  stats := {}
  callbacks := CallbackRegistry.registerObserver {} (some telemetryObserver)
  telemetry := ⟨fun _ => {}⟩

def event (core : Fin 4) (d : CountedConsumer) (turn : Surroundings × ParsedPacket) :
    CountedConsumer :=
  ((d.within core turn.1).onPacketEvent turn.2).1

def counted (core : Fin 4) (d : CountedConsumer) (turn : Surroundings × ParsedPacket) :
    Option (Priority × ℕ) :=
  ((d.within core turn.1).onPacketEvent turn.2).2.bind Verdict.counted

structure Counting (core : Fin 4) (ps : List (Priority × ℕ)) (bound : ℕ) (d : CountedConsumer) :
    Prop where
  coreId : d.consumer.coreId = core
  callbacks : d.callbacks = CallbackRegistry.registerObserver {} (some telemetryObserver)
  stats : d.stats = .ofStats d.consumer.stats
  metrics : d.telemetry.coreMetrics core = .ofStats d.consumer.metrics
  total : d.consumer.metrics.add d.consumer.stats = .tally ps
  committed : d.consumer.metrics.Balanced
  batch : d.consumer.stats.Balanced
  pending : d.consumer.stats.pkts ≤ bound

section
variable {core : Fin 4} {ps : List (Priority × ℕ)} {d : CountedConsumer} {bound : ℕ}

theorem Counting.within (h : Counting core ps bound d) (env : Surroundings) :
    Counting core ps bound (d.within core env) :=
  ⟨h.coreId, h.callbacks, h.stats, (Function.update_self ..).trans h.metrics, h.total, h.committed,
    h.batch, h.pending⟩

theorem step_of_ne {s : PipelineStep} (hs : s ≠ .qosRouting) (d : CountedConsumer)
    (pkt : ParsedPacket) :
    d.step pkt s =
      ({ d with consumer := (d.consumer.step pkt s).1 }, (d.consumer.step pkt s).2) := by
  cases s <;> first | rfl | exact absurd rfl hs

theorem Counting.keep (h : Counting core ps bound d) {c : PacketConsumer} {nat : NatEngine}
    (hc : c = { d.consumer with nat }) : Counting core ps bound { d with consumer := c } := by
  subst hc
  exact ⟨h.coreId, h.callbacks, h.stats, h.metrics, h.total, h.committed, h.batch, h.pending⟩

theorem Counting.qosRouting (h : Counting core ps bound d) (pkt : ParsedPacket) :
    ∃ d' v, d.step pkt .qosRouting = (d', .stop v) ∧
      Counting core (ps ++ v.counted.toList) (bound + 1) d' := by
  refine ⟨_, _, rfl, h.coreId, h.callbacks, ?_, ?_, ?_, h.committed, h.batch.record (some (_, _)),
    Nat.succ_le_succ h.pending⟩
  · show d.stats.count _ _ = Counters.ofStats (d.consumer.stats.count _ _)
    rw [h.stats, Counters.ofStats_count]
  · show (d.callbacks.dispatchPacket pkt _ d.telemetry).coreMetrics core = _
    rw [h.callbacks]
    exact h.metrics
  · rw [BatchStats.tally_append_record, ← h.total, ← BatchStats.add_record]
    rfl

theorem Counting.runSteps (h : Counting core ps bound d) (pkt : ParsedPacket)
    (ss : List PipelineStep) :
    Counting core (ps ++ ((d.runSteps pkt ss).2.bind Verdict.counted).toList) (bound + 1)
      (d.runSteps pkt ss).1 := by
  induction ss generalizing d pkt with
  | nil =>
    rw [CountedConsumer.runSteps, Option.bind_none, Option.toList_none, List.append_nil]
    exact { h with pending := h.pending.trans (Nat.le_succ bound) }
  | cons s ss ih =>
    by_cases hs : s = .qosRouting
    · subst hs
      obtain ⟨d', v, hstep, hd'⟩ := h.qosRouting pkt
      rw [CountedConsumer.runSteps, hstep]
      exact hd'
    · obtain ⟨⟨nat, hnat⟩, hstop⟩ := PacketConsumer.step_of_ne hs d.consumer pkt
      rw [CountedConsumer.runSteps, step_of_ne hs]
      cases hpass : (d.consumer.step pkt s).2 with
      | on pkt' => exact ih (h.keep hnat) pkt'
      | stop v =>
        have hkept := h.keep hnat
        show Counting core (ps ++ v.counted.toList) (bound + 1) _
        rw [hstop v hpass, Option.toList_none, List.append_nil]
        exact { hkept with pending := hkept.pending.trans (Nat.le_succ bound) }

theorem and_31_eq_zero (n : ℕ) : UInt64.ofNat n &&& 31 = 0 ↔ n % 32 = 0 := by
  have hand : (UInt64.ofNat n &&& 31).toNat = n % 32 := by
    have hmask : (31 : UInt64).toNat = 2 ^ 5 - 1 := rfl
    rw [UInt64.toNat_and, hmask, Nat.and_two_pow_sub_one_eq_mod, UInt64.toNat_ofNat']
    omega
  rw [← UInt64.toNat_inj, hand]
  rfl

theorem commitBatch_core (t : Telemetry) (s : Counters) (core : Fin 4) :
    (t.commitBatch s ((core : ℕ) : ℤ)).coreMetrics =
      Function.update t.coreMetrics core ((t.coreMetrics core).add s) := by
  have hvalid : ¬ (((core : ℕ) : ℤ) < 0 ∨ ((core : ℕ) : ℤ) ≥ 4) := by
    have := core.isLt
    omega
  rw [Telemetry.commitBatch, dif_neg hvalid]
  rfl

theorem Counting.commit (h : Counting core ps 32 d) : Counting core ps 31 d.commit := by
  have hflush := and_31_eq_zero d.consumer.stats.pkts
  have hpkts : d.stats.pkts = UInt64.ofNat d.consumer.stats.pkts := congrArg Counters.pkts h.stats
  rw [← hpkts] at hflush
  by_cases hfull : d.consumer.stats.pkts % 32 = 0
  · have hcommit : d.commit = { d with
        consumer :=
          { d.consumer with metrics := d.consumer.metrics.add d.consumer.stats, stats := {} }
        telemetry := d.callbacks.dispatchBatch d.stats d.consumer.coreId d.telemetry
        stats := {} } := by
      simp only [CountedConsumer.commit, PacketConsumer.commit, if_pos hfull,
        if_pos (hflush.mpr hfull)]
    rw [hcommit]
    refine ⟨h.coreId, h.callbacks, rfl, ?_, ?_, h.committed.add h.batch, BatchStats.balanced_empty,
      Nat.zero_le 31⟩
    · show (d.callbacks.dispatchBatch d.stats d.consumer.coreId d.telemetry).coreMetrics core = _
      rw [h.callbacks, h.coreId]
      show (d.telemetry.commitBatch d.stats ((core : ℕ) : ℤ)).coreMetrics core = _
      rw [commitBatch_core, Function.update_self, h.metrics, h.stats, Counters.ofStats_add]
    · exact (BatchStats.add_empty _).trans h.total
  · have hcommit : d.commit = d := by
      simp only [CountedConsumer.commit, PacketConsumer.commit, if_neg hfull,
        if_neg (mt hflush.mp hfull)]
    have hpending := h.pending
    rw [hcommit]
    exact { h with pending := by omega }

theorem Counting.event (h : Counting core ps 31 d) (turn : Surroundings × ParsedPacket) :
    Counting core (ps ++ (counted core d turn).toList) 31 (event core d turn) :=
  ((h.within turn.1).runSteps turn.2 _).commit

theorem Counting.run (h : Counting core ps 31 d) (turns : List (Surroundings × ParsedPacket)) :
    Counting core (ps ++ LabelledRun.outputs (CountedConsumer.event core) (counted core) d turns) 31
      (LabelledRun.exec (CountedConsumer.event core) d turns) := by
  induction turns generalizing ps d with
  | nil => rwa [LabelledRun.outputs, List.append_nil, LabelledRun.exec_nil]
  | cons turn turns ih =>
    have hrest := ih (h.event turn)
    rwa [List.append_assoc] at hrest

end

end CountedConsumer
end Hpgtp
