import TrafficPrioritizer.ForwardEngine.Pipeline
import TrafficPrioritizer.ForwardEngine.SpscRingBuffer
import TrafficPrioritizer.Scheduler.Shaper

/-! One worker: the RX thread pushes frames and then signals `frame_efd`; the
processing thread pops until the ring is empty, drains the shaper and blocks in
`poll` without a timeout. -/

namespace Hpgtp
open LabelledRun BoundedFifo
variable {B κ : Type*}

inductive RxPc where
  | receiving
  | signalling
  deriving DecidableEq

inductive ProcPc where
  | looping
  | popping
  | handling (frame : List UInt8)
  | shaping (pc : DrainPc)
  | polling
  | reading
  | exited
  deriving DecidableEq

inductive Wake where
  | frame
  | stop
  | interrupted
  | failed

structure ProcInput (κ : Type*) where
  running : Bool
  consumer : PacketConsumer
  clock : κ
  res : TxResult
  wake : Wake

inductive WorkerTurn (κ : Type*) where
  | rx (raw : List UInt8)
  | proc (input : ProcInput κ)
  | setRate (limit : ℚ)

structure Worker (B : Type*) where
  frameQ : Spsc (List UInt8) 1024
  frameEfd : ℕ
  rx : RxPc
  proc : ProcPc
  shaper : Shaper B

/-- The largest value an eventfd counter takes; a write that would pass it blocks. -/
def eventfdMax : ℕ := 2 ^ 64 - 2

def rxFrameCopy (raw : List UInt8) : List UInt8 := raw.take 2048

def emptyFrameQ : Spsc (List UInt8) 1024 := .init fun _ => []

namespace Worker

def init (shaper : Shaper B) : Worker B :=
  ⟨.init fun _ => [], 0, .receiving, .looping, shaper⟩

def rxStep (w : Worker B) (raw : List UInt8) : Worker B :=
  match w.rx with
  | .receiving =>
    { w with
      frameQ := w.frameQ.step (.producer (rxFrameCopy raw))
      rx := match w.frameQ.act (.producer (rxFrameCopy raw)) with
        | .push _ => .signalling
        | _ => .receiving }
  | .signalling =>
    -- `eventfd_write` blocks at the largest value
    if w.frameEfd < eventfdMax then { w with frameEfd := w.frameEfd + 1, rx := .receiving } else w

def handle (s : Shaper B) (c : PacketConsumer) (frame : List UInt8) : Shaper B :=
  match c.verdict (ParsedPacket.parse frame) with
  | some (.routed pkt _ .shaper) => s.enqueueNormal pkt.rawSpan
  | _ => s

def procStep (lim : Limiter B κ) (w : Worker B) (i : ProcInput κ) : Worker B :=
  match w.proc with
  | .looping => { w with proc := if i.running then .popping else .exited }
  | .popping =>
    { w with
      frameQ := w.frameQ.step .consumer
      proc := match w.frameQ.act .consumer with
        | .pop (_, frame) => .handling frame
        | .empty => .shaping (.examining .zero)
        | _ => .popping }
  | .handling frame => { w with shaper := handle w.shaper i.consumer frame, proc := .popping }
  | .shaping pc =>
    let r := w.shaper.drainStep lim pc i.clock i.res
    { w with
      shaper := r.1
      proc := match r.2 with
        | .outside => .polling
        | pc => .shaping pc }
  | .polling =>
    match i.wake with
    -- there is no timeout: with the counter at zero `poll` does not return
    | .frame => if 0 < w.frameEfd then { w with proc := .reading } else w
    | .interrupted => { w with proc := .looping }
    | .stop => { w with proc := .exited }
    | .failed => { w with proc := .exited }
  | .reading => { w with frameEfd := 0, proc := .looping }
  | .exited => w

def step (lim : Limiter B κ) (w : Worker B) : WorkerTurn κ → Worker B
  | .rx raw => w.rxStep raw
  | .proc input => w.procStep lim input
  | .setRate limit => { w with shaper := w.shaper.setRateLimit lim limit }

/-! ## No lost wake-up -/

def ProcPc.Waiting : ProcPc → Prop
  | .shaping _ => True
  | .polling => True
  | _ => False

-- Once the ring was seen empty, whatever came in since is still to be signalled or has been
-- signalled: the counter is reset only on the way to the next drain.
structure Ok (w : Worker B) : Prop where
  ring : w.frameQ.Ok
  signalled : ProcPc.Waiting w.proc →
    w.frameQ.ring.queue = [] ∨ 0 < w.frameEfd ∨ w.rx = .signalling

theorem Ok.rxStep {w : Worker B} (h : Ok w) (raw : List UInt8) : Ok (w.rxStep raw) := by
  obtain ⟨frameQ, frameEfd, rx, proc, shaper⟩ := w
  cases rx with
  | receiving =>
    obtain ⟨hok, hallowed, hqueue⟩ := frameQ.simulates (.producer (rxFrameCopy raw)) h.ring
    refine ⟨hok, fun hwait => ?_⟩
    rcases h.signalled hwait with hempty | hpos | hsig
    · show (frameQ.step _).ring.queue = [] ∨ 0 < frameEfd ∨ _
      rw [hqueue]
      -- only a push fills the ring, and it leaves the RX thread with its signal to give
      cases hact : frameQ.act (.producer (rxFrameCopy raw)) with
      | push x => exact .inr (.inr (by simp [Worker.rxStep, hact]))
      | pop x => exact .inl (congrArg List.tail hempty)
      | stay | refuse | empty => exact .inl hempty
    · exact .inr (.inl hpos)
    · cases hsig
  | signalling =>
    unfold Worker.rxStep
    dsimp only
    split_ifs
    · exact ⟨h.ring, fun _ => .inr (.inl (Nat.succ_pos _))⟩
    · exact h

theorem Ok.procStep {w : Worker B} (h : Ok w) (lim : Limiter B κ) (i : ProcInput κ) :
    Ok (w.procStep lim i) := by
  obtain ⟨frameQ, frameEfd, rx, proc, shaper⟩ := w
  have hring : frameQ.Ok := h.ring
  cases proc with
  | looping =>
    refine ⟨hring, fun hwait => ?_⟩
    cases hr : i.running <;> simp [Worker.procStep, hr, ProcPc.Waiting] at hwait
  | popping =>
    obtain ⟨hok, hallowed, hqueue⟩ := frameQ.simulates .consumer hring
    refine ⟨hok, fun hwait => .inl ?_⟩
    show (frameQ.step .consumer).ring.queue = []
    rw [hqueue]
    -- the thread only gets past the loop by a pop that found the ring empty
    cases hact : frameQ.act .consumer with
    | empty =>
      rw [hact] at hallowed
      exact hallowed
    | _ => simp [Worker.procStep, hact, ProcPc.Waiting] at hwait
  | handling frame => exact ⟨hring, fun hwait => hwait.elim⟩
  | shaping pc => exact ⟨hring, fun _ => h.signalled trivial⟩
  | polling =>
    unfold Worker.procStep
    dsimp only
    cases i.wake with
    | frame =>
      dsimp only
      split_ifs
      · exact ⟨hring, fun hwait => hwait.elim⟩
      · exact h
    | _ => exact ⟨hring, fun hwait => hwait.elim⟩
  | reading => exact ⟨hring, fun hwait => hwait.elim⟩
  | exited => exact h

theorem Ok.step {w : Worker B} (h : Ok w) (lim : Limiter B κ) (turn : WorkerTurn κ) :
    Ok (w.step lim turn) := by
  cases turn with
  | rx raw => exact h.rxStep raw
  | proc input => exact h.procStep lim input
  | setRate limit => exact ⟨h.ring, h.signalled⟩

theorem init_ok (shaper : Shaper B) : Ok (init shaper) :=
  ⟨Spsc.init_ok _, fun hwait => hwait.elim⟩

/-- Whatever the interleaving, while the processing thread is blocked with the counter at zero
and the RX thread has no signal to give, the ring is empty. -/
theorem no_lost_wakeup (lim : Limiter B κ) (shaper : Shaper B) (run : List (WorkerTurn κ)) :
    let w := exec (step lim) (init shaper) run
    w.proc = .polling → w.frameEfd = 0 → w.rx ≠ .signalling → w.frameQ.ring.queue = [] := by
  intro w hproc hefd hrx
  have hok : Ok (exec (step lim) (init shaper) run) :=
    invariant (fun _ turn h => h.step lim turn) run (init_ok shaper)
  have hwait : ProcPc.Waiting w.proc := by rw [hproc]; trivial
  rcases hok.signalled hwait with hempty | hpos | hsig
  · exact hempty
  · exact absurd hefd hpos.ne'
  · exact absurd hsig hrx

def plainConsumer : PacketConsumer where
  coreId := 2
  stats := {}
  metrics := {}
  nat := .new
  snapshot :=
    { lanHw := Vector.replicate 6 0, wanHw := Vector.replicate 6 0, gwHw := Vector.replicate 6 0,
      wanIpNbo := 0, wanPrefixLen := 0, arp := fun _ => {}, arpCount := 0, gwHwValid := false,
      wanCfgValid := false, defaultGwIpConfigured := false, ready := false,
      arpCount_le := Nat.zero_le _ }
  enableNat := true
  largePacketThreshold := 1000
  effectiveBridgeMode := false

def procTurn (res : TxResult) (wake : Wake) : WorkerTurn Readings :=
  .proc ⟨true, plainConsumer, ⟨0, 0⟩, res, wake⟩

def plainShaper : Shaper TokenBucket := .new (.new 100 0) fun _ => .zero

theorem late_frame_not_lost :
    let late := List.replicate 3 (procTurn .success .frame) ++
      List.replicate 5 (.rx (List.replicate 60 0)) ++ List.replicate 15 (procTurn .success .frame)
    let w := exec (step TokenBucket.limiter) (init plainShaper) late
    w.proc = .polling ∧ w.frameEfd = 0 ∧ w.frameQ.ring.queue = [] := by
  intro late w
  have hproc : w.proc = .polling := by decide +kernel
  have hefd : w.frameEfd = 0 := by decide +kernel
  exact ⟨hproc, hefd, no_lost_wakeup _ _ late hproc hefd (by decide +kernel)⟩

end Worker
end Hpgtp
