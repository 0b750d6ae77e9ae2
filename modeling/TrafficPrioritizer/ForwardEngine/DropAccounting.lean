import TrafficPrioritizer.ForwardEngine.Forwarder

/-! The books of the forwarding engine: two workers and the DHCP engine's responses on one
telemetry. Every frame that an RX thread takes from its socket is still under way or has left in
exactly one way, and every counter is the number of its departures, modulo `2 ^ 64`. -/

namespace Hpgtp
open LabelledRun Function
variable {B κ : Type*}

/-- The worker from the WAN to the LAN is core 2, the other one core 3. -/
inductive Core where
  | core2
  | core3
  deriving DecidableEq

inductive PlaneTurn (κ : Type*) where
  | core (c : Core) (turn : ForwardTurn κ)
  | respond (response : List UInt8) (answers : List SendAnswer)

/-- `tel` are the counters that both shapers add to; what the shaper of a worker has in their
place is replaced by them before each of its steps. -/
structure DataPlane (B : Type*) where
  workers : Core → Worker B
  dropped : Core → Priority → UInt64
  tel : ShaperCounters

def Worker.withTel (w : Worker B) (tel : ShaperCounters) : Worker B :=
  { w with shaper := { w.shaper with tel := tel } }

namespace DataPlane

def init (shapers : Core → Shaper B) : DataPlane B where
  workers c := .init (shapers c)
  dropped _ _ := 0
  tel := ⟨0, 0, 0⟩

def forwarder (p : DataPlane B) (c : Core) : Forwarder B :=
  ⟨(p.workers c).withTel p.tel, p.dropped c⟩

def store (p : DataPlane B) (c : Core) (f : Forwarder B) : DataPlane B where
  workers := update p.workers c f.worker
  dropped := update p.dropped c f.dropped
  tel := f.worker.shaper.tel

/-- The DHCP engine sends its responses best effort, as core 2 and with the first priority. -/
def step (lim : Limiter B κ) (p : DataPlane B) : PlaneTurn κ → DataPlane B
  | .core c turn => p.store c ((p.forwarder c).step lim turn)
  | .respond response answers =>
    match trySendPacketNonblocking response answers with
    | none => p
    | some res =>
      { p with
        dropped := update p.dropped .core2 (sendBestEffort (p.dropped .core2) .high res) }

def takes (p : DataPlane B) : PlaneTurn κ → Option Core
  | .core c turn => if (p.forwarder c).takes turn then some c else none
  | .respond _ _ => none

def departs (p : DataPlane B) : PlaneTurn κ → Option (Core × Departure)
  | .core c turn => ((p.forwarder c).departs turn).map (c, ·)
  | .respond response answers =>
    match trySendPacketNonblocking response answers with
    | none | some .complete => none
    | some .busy | some .error => some (.core2, .unsentResponse)

end DataPlane

/-! ## The invariants -/

namespace Worker

structure Sound (w : Worker B) : Prop where
  ok : w.Ok
  tracks : w.Tracks
  short : w.Short

theorem Sound.withTel {w : Worker B} (h : Sound w) (tel : ShaperCounters) :
    Sound (w.withTel tel) :=
  ⟨⟨h.ok.ring, h.ok.signalled⟩, h.tracks, ⟨h.short.pushing, h.short.pending⟩⟩

theorem Sound.step {w : Worker B} (h : Sound w) (lim : Limiter B κ) (turn : WorkerTurn κ) :
    Sound (w.step lim turn) :=
  ⟨h.ok.step lim turn, h.tracks.step lim turn, h.short.step h.ok lim turn⟩

theorem init_sound (shaper : Shaper B) : Sound (init shaper) :=
  ⟨init_ok shaper, init_tracks shaper, init_short shaper⟩

end Worker

namespace Forwarder

theorem sound_step (lim : Limiter B κ) {f : Forwarder B} (h : f.worker.Sound)
    (turn : ForwardTurn κ) : (f.step lim turn).worker.Sound := by
  rcases step_books lim f turn with ⟨hsame, -⟩ | ⟨t, hbooks⟩
  · rwa [hsame]
  · rw [hbooks.worker]
    exact h.step lim t

theorem balance_step (lim : Limiter B κ) {f : Forwarder B} (h : f.worker.Sound)
    (turn : ForwardTurn κ) : f.worker.underWay + (f.takes turn).toNat =
      (f.departs turn).toList.length + (f.step lim turn).worker.underWay := by
  rcases step_books lim f turn with ⟨hsame, htakes, hdep⟩ | ⟨t, hbooks⟩
  · rw [hsame, htakes, hdep]
    exact (Nat.zero_add _).symm
  · have hworker := Worker.underWay_step lim h.ok h.tracks t
    have hbalance := hbooks.balance
    rw [hbooks.worker]
    omega

theorem drops_step (lim : Limiter B κ) (f : Forwarder B) (turn : ForwardTurn κ) :
    (f.step lim turn).worker.shaper.tel.drops =
      f.worker.shaper.tel.drops + shaperDrops (f.departs turn).toList := by
  rcases step_books lim f turn with ⟨hsame, -, hdep⟩ | ⟨t, hbooks⟩
  · rw [hsame, hdep]
    exact (add_shaperDrops_nil _).symm
  · rw [hbooks.worker, hbooks.refused]
    exact Worker.drops_step lim f.worker t

theorem not_tooLong (lim : Limiter B κ) {f : Forwarder B} (h : f.worker.Sound)
    (turn : ForwardTurn κ) : f.departs turn ≠ some .tooLong := by
  intro hdep
  rcases step_books lim f turn with ⟨-, -, hnone⟩ | ⟨t, hbooks⟩
  · rw [hdep] at hnone
    cases hnone
  · -- the turn of the worker would have refused a frame as too long
    have hrefused := congrArg Prod.snd hbooks.refused
    have hshort := h.short.refuses t
    rw [hdep] at hrefused
    cases hr : f.worker.refuses t with
    | none =>
      rw [hr] at hrefused
      exact absurd hrefused (by decide)
    | some d =>
      have hd : d ≠ .tooLong := fun hd => hshort (hr.trans (congrArg some hd))
      rw [hr] at hrefused
      simp [shaperDrops, hd] at hrefused

theorem counted_step (lim : Limiter B κ) (f : Forwarder B) (turn : ForwardTurn κ) :
    (f.step lim turn).worker.shaper.tel.normalTxComplete +
        .ofNat (f.step lim turn).worker.draining.uncounted =
      f.worker.shaper.tel.normalTxComplete + .ofNat f.worker.draining.uncounted +
        .ofNat ((f.departs turn).toList.countP (· = .sent .shaper)) := by
  rcases step_books lim f turn with ⟨hsame, -, hdep⟩ | ⟨t, hbooks⟩
  · rw [hsame, hdep]
    exact (UInt64.add_zero _).symm
  · rw [hbooks.worker, ← hbooks.successes]
    exact Worker.counted_step lim f.worker t

end Forwarder

namespace DataPlane

structure Ok (p : DataPlane B) : Prop where
  workers : ∀ c, (p.workers c).Sound
  oversized : p.tel.oversizedDrops = 0

theorem Ok.forwarder {p : DataPlane B} (h : Ok p) (c : Core) : (p.forwarder c).worker.Sound :=
  (h.workers c).withTel p.tel

theorem init_ok (bucket : Core → B) (pool : Core → Fin 8192 → PacketSlot) :
    Ok (init fun c => .new (bucket c) (pool c)) :=
  ⟨fun _ => Worker.init_sound _, rfl⟩

theorem respond_same (lim : Limiter B κ) (p : DataPlane B) (response : List UInt8)
    (answers : List SendAnswer) :
    (p.step lim (.respond response answers : PlaneTurn κ)).workers = p.workers ∧
      (p.step lim (.respond response answers : PlaneTurn κ)).tel = p.tel := by
  simp only [DataPlane.step]
  cases trySendPacketNonblocking response answers <;> exact ⟨rfl, rfl⟩

theorem Ok.step {p : DataPlane B} (h : Ok p) (lim : Limiter B κ) (turn : PlaneTurn κ) :
    Ok (p.step lim turn) := by
  cases turn with
  | respond response answers =>
    obtain ⟨hworkers, htel⟩ := respond_same lim p response answers
    exact ⟨fun c => by rw [hworkers]; exact h.workers c, by rw [htel]; exact h.oversized⟩
  | core c turn =>
    refine ⟨fun c' => ?_, ?_⟩
    · show (update p.workers c ((p.forwarder c).step lim turn).worker c').Sound
      by_cases hc : c' = c
      · subst hc
        rw [update_self]
        exact Forwarder.sound_step lim (h.forwarder c') turn
      · rw [update_of_ne hc]
        exact h.workers c'
    · have hdrops := congrArg Prod.snd ((p.forwarder c).drops_step lim turn)
      have hlong := Forwarder.not_tooLong lim (h.forwarder c) turn
      have hnone : ((p.forwarder c).departs turn).toList.countP (· = .tooLong) = 0 := by
        cases hdep : (p.forwarder c).departs turn with
        | none => rfl
        | some d =>
          have hd : d ≠ .tooLong := fun hd => hlong (hdep.trans (congrArg some hd))
          simp [hd]
      refine hdrops.trans ?_
      show p.tel.oversizedDrops + .ofNat (((p.forwarder c).departs turn).toList.countP _) = 0
      rw [hnone, h.oversized]
      rfl

/-! ## The steps of both workers -/

def isFrameOf (c : Core) (d : Core × Departure) : Bool := d.1 = c ∧ d.2 ≠ .unsentResponse

theorem departs_ne_unsentResponse (f : Forwarder B) (turn : ForwardTurn κ) :
    f.departs turn ≠ some .unsentResponse := by
  cases turn with
  | setRate limit => simp [Forwarder.departs]
  | rx raw =>
    simp only [Forwarder.departs]
    split <;> simp
  | proc i =>
    simp only [Forwarder.departs]
    split
    · split
      · simp
      · simp
      · split <;> simp
      · rw [Shaper.refusal]
        split_ifs <;> simp
      · simp
    · split <;> simp
    · simp

theorem balance_step (lim : Limiter B κ) (c : Core) {p : DataPlane B} (h : Ok p)
    (turn : PlaneTurn κ) :
    (p.workers c).underWay + (p.takes turn).toList.countP (· = c) =
      (p.departs turn).toList.countP (isFrameOf c) +
        ((p.step lim turn).workers c).underWay := by
  cases turn with
  | respond response answers =>
    rw [(respond_same lim p response answers).1]
    simp only [takes, departs]
    split <;> simp [isFrameOf]
  | core c' turn =>
    show _ = _ + (update p.workers c' ((p.forwarder c').step lim turn).worker c).underWay
    by_cases hc : c = c'
    · subst hc
      have hstep := Forwarder.balance_step lim (h.forwarder c) turn
      have htaken : (p.takes (.core c turn)).toList.countP (· = c) =
          ((p.forwarder c).takes turn).toNat := by
        rw [takes]
        cases (p.forwarder c).takes turn <;> simp
      have hdeparted : (p.departs (.core c turn)).toList.countP (isFrameOf c) =
          ((p.forwarder c).departs turn).toList.length := by
        have hresponse := departs_ne_unsentResponse (p.forwarder c) turn
        rw [departs]
        cases hdep : (p.forwarder c).departs turn with
        | none => rfl
        | some d =>
          have hd : d ≠ .unsentResponse := fun hd => hresponse (hdep.trans (congrArg some hd))
          simp [isFrameOf, hd]
      rw [update_self, htaken, hdeparted]
      exact hstep
    · have htaken : (p.takes (.core c' turn)).toList.countP (· = c) = 0 := by
        rw [takes]
        split_ifs <;> simp [Ne.symm hc]
      have hdeparted : (p.departs (.core c' turn)).toList.countP (isFrameOf c) = 0 := by
        rw [departs]
        cases (p.forwarder c').departs turn <;> simp [isFrameOf, Ne.symm hc]
      rw [update_of_ne hc, htaken, hdeparted]
      omega

def isCounted (c : Core) (prio : Priority) (d : Core × Departure) : Bool :=
  d.1 = c ∧ d.2.countedAs = some prio

theorem dropped_step (lim : Limiter B κ) (c : Core) (prio : Priority) (p : DataPlane B)
    (turn : PlaneTurn κ) : (p.step lim turn).dropped c prio =
      p.dropped c prio + .ofNat ((p.departs turn).toList.countP (isCounted c prio)) := by
  cases turn with
  | core c' turn =>
    show update p.dropped c' ((p.forwarder c').step lim turn).dropped c prio = _
    by_cases hc : c = c'
    · subst hc
      rw [update_self, Forwarder.dropped_step, departs]
      cases (p.forwarder c).departs turn <;> simp [isCounted, forwarder]
    · rw [update_of_ne hc, departs]
      cases (p.forwarder c').departs turn <;> simp [isCounted, Ne.symm hc]
  | respond response answers =>
    simp only [DataPlane.step, departs]
    cases trySendPacketNonblocking response answers with
    | none => exact (UInt64.add_zero _).symm
    | some res =>
      dsimp only
      cases c with
      | core3 => cases res <;> exact (UInt64.add_zero _).symm
      | core2 =>
        rw [update_self, sendBestEffort]
        cases res with
        | complete => exact (UInt64.add_zero _).symm
        | busy | error =>
          rw [if_pos (by simp), countDrop_apply]
          cases prio <;> rfl

theorem overflow_step (lim : Limiter B κ) (p : DataPlane B) (turn : PlaneTurn κ) :
    (p.step lim turn).tel.queueOverflowDrops =
      p.tel.queueOverflowDrops + .ofNat ((p.departs turn).toList.countP (·.2 = .queueFull)) := by
  cases turn with
  | core c turn =>
    refine (congrArg Prod.fst ((p.forwarder c).drops_step lim turn)).trans ?_
    rw [departs]
    cases (p.forwarder c).departs turn <;> rfl
  | respond response answers =>
    rw [(respond_same lim p response answers).2]
    simp only [departs]
    split <;> exact (UInt64.add_zero _).symm

def uncounted (p : DataPlane B) : ℕ :=
  (p.workers .core2).draining.uncounted + (p.workers .core3).draining.uncounted

theorem uncounted_store (p : DataPlane B) (c : Core) (f : Forwarder B) :
    (p.store c f).uncounted + (p.workers c).draining.uncounted =
      p.uncounted + f.worker.draining.uncounted := by
  cases c with
  | core2 =>
    show f.worker.draining.uncounted + (p.workers .core3).draining.uncounted + _ =
      (p.workers .core2).draining.uncounted + (p.workers .core3).draining.uncounted + _
    omega
  | core3 =>
    show (p.workers .core2).draining.uncounted + f.worker.draining.uncounted + _ =
      (p.workers .core2).draining.uncounted + (p.workers .core3).draining.uncounted + _
    omega

theorem counted_step (lim : Limiter B κ) (p : DataPlane B) (turn : PlaneTurn κ) :
    (p.step lim turn).tel.normalTxComplete + .ofNat (p.step lim turn).uncounted =
      p.tel.normalTxComplete + .ofNat p.uncounted +
        .ofNat ((p.departs turn).toList.countP (·.2 = .sent .shaper)) := by
  cases turn with
  | respond response answers =>
    obtain ⟨hworkers, htel⟩ := respond_same lim p response answers
    rw [htel, uncounted, hworkers]
    simp only [departs]
    split <;> exact (UInt64.add_zero _).symm
  | core c turn =>
    set f := (p.forwarder c).step lim turn
    have hcore : f.worker.shaper.tel.normalTxComplete + .ofNat f.worker.draining.uncounted =
        p.tel.normalTxComplete + .ofNat (p.workers c).draining.uncounted +
          .ofNat (((p.forwarder c).departs turn).toList.countP (· = .sent .shaper)) :=
      (p.forwarder c).counted_step lim turn
    have hstore := congrArg UInt64.ofNat (p.uncounted_store c f)
    have hdep : (p.departs (.core c turn)).toList.countP (·.2 = .sent .shaper) =
        ((p.forwarder c).departs turn).toList.countP (· = .sent .shaper) := by
      rw [departs]
      cases (p.forwarder c).departs turn <;> rfl
    rw [UInt64.ofNat_add, UInt64.ofNat_add] at hstore
    rw [hdep]
    -- add what the core had not counted, to cancel it again
    refine (UInt64.add_left_inj (.ofNat (p.workers c).draining.uncounted)).mp ?_
    calc f.worker.shaper.tel.normalTxComplete + .ofNat (p.store c f).uncounted +
          .ofNat (p.workers c).draining.uncounted
        = f.worker.shaper.tel.normalTxComplete +
            (.ofNat (p.store c f).uncounted + .ofNat (p.workers c).draining.uncounted) :=
          UInt64.add_assoc ..
      _ = f.worker.shaper.tel.normalTxComplete + .ofNat f.worker.draining.uncounted +
            .ofNat p.uncounted := by rw [hstore]; ac_rfl
      _ = _ := by rw [hcore]; ac_rfl

/-- For any interleaving of the two workers' threads with the responses of the DHCP engine, whatever
the consumers decide and the interfaces answer. Every frame that the RX thread of a core is done
with has left it in one way or is still under way. The counters `dropped` of a core are the
departures that they stand for, with the responses that were not sent under core 2; the counters
of the shapers are those of both cores together. No frame is counted as too long, and those sent
out of a shaper are counted but for one in hand at each core. -/
theorem frames_accounted (lim : Limiter B κ) (bucket : Core → B)
    (pool : Core → Fin 8192 → PacketSlot) (run : List (PlaneTurn κ)) :
    let start : DataPlane B := init fun c => .new (bucket c) (pool c)
    let p := exec (step lim) start run
    let departed := outputs (step lim) departs start run
    (∀ c, (outputs (step lim) takes start run).countP (· = c) =
        departed.countP (isFrameOf c) + (p.workers c).underWay) ∧
      (∀ c prio, p.dropped c prio = .ofNat (departed.countP (isCounted c prio))) ∧
      p.tel.queueOverflowDrops = .ofNat (departed.countP (·.2 = .queueFull)) ∧
      p.tel.oversizedDrops = 0 ∧
      p.tel.normalTxComplete + .ofNat p.uncounted =
        .ofNat (departed.countP (·.2 = .sent .shaper)) := by
  intro start p departed
  have hok : Ok p := invariant (I := Ok) (fun _ turn h => h.step lim turn) run (init_ok bucket pool)
  refine ⟨fun c => ?_, fun c prio => ?_, ?_, hok.oversized, ?_⟩
  · have hrun : (start.workers c).underWay + (outputs (step lim) takes start run).countP (· = c) =
        departed.countP (isFrameOf c) + (p.workers c).underWay :=
      countP_outputs_carried (· = c) (isFrameOf c)
        (fun p : DataPlane B => (p.workers c).underWay) (fun _ turn h => Ok.step h lim turn)
        (fun _ turn h => balance_step lim c h turn) (init_ok bucket pool) run
    have hstart : (start.workers c).underWay = 0 := by
      have hpending := Worker.init_pending (.new (bucket c) (pool c) : Shaper B)
      have hleft := Worker.init_left (bucket c) (pool c)
      show (Worker.init (.new (bucket c) (pool c) : Shaper B)).underWay = 0
      rw [Worker.underWay, hpending, hleft]
      rfl
    omega
  · exact (counter_outputs (isCounted c prio) (fun p : DataPlane B => p.dropped c prio)
      (dropped_step lim c prio) start run).trans (UInt64.zero_add _)
  · exact (counter_outputs (fun d : Core × Departure => d.2 = .queueFull)
      (fun p : DataPlane B => p.tel.queueOverflowDrops) (overflow_step lim) start run).trans
      (UInt64.zero_add _)
  · exact (counter_outputs (fun d : Core × Departure => d.2 = .sent .shaper)
      (fun p : DataPlane B => p.tel.normalTxComplete + .ofNat p.uncounted) (counted_step lim)
      start run).trans (UInt64.zero_add _)

end DataPlane
end Hpgtp
