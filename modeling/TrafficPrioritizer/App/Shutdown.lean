import Mathlib.Data.Fintype.Prod
import TrafficPrioritizer.Lib.TokenGate

/-! How `stop()` gets the threads of `ControlPlane` and `Forward_Engine` out of their
loops: it clears `running_` and writes one token for each thread to a semaphore-mode
eventfd, which the threads poll next to what they work on. A loop is cut at every load
of `running_`, at `poll` and at `eventfd_read`. -/

namespace Hpgtp
open LabelledRun Function TokenGate

inductive WaiterPc where
  | looping
  | polling
  | reading
  | checking
  | acting
  | exited
  deriving DecidableEq

inductive PollEnd where
  | stop
  | other
  | interrupted
  | failed
  deriving DecidableEq

/-- What a thread finds in one step. A relaxed store to `running_` may be seen late. -/
structure WaiterInput where
  stale : Bool
  wake : PollEnd
  ready : Bool
  more : Bool
  fdsOpen : Bool

/-- `wait_watchdog_period` in the loop of a watchdog service: the token ends the loop, and so
does a failed `poll`; after the period the service looks at `running_` again and ticks. -/
def watchdogLoop (running : Bool) (input : WaiterInput) : WaiterPc → WaiterPc
  | .looping => if running then .polling else .exited
  | .polling =>
    match input.wake with
    | .failed => .exited
    | .stop => .reading
    | .interrupted | .other => .checking
  | .reading => .exited
  | .checking => if running then .acting else .exited
  | .acting => .looping
  | .exited => .exited

/-- `control_event_loop`; it is `checking` before it applies a DHCP configuration. -/
def controlEventLoop (running : Bool) (input : WaiterInput) : WaiterPc → WaiterPc
  | .looping => if running then .polling else .exited
  | .polling =>
    match input.wake with
    | .interrupted => .looping
    | .failed => .exited
    | .stop => .reading
    | .other => if input.ready then .checking else .looping
  | .reading => .exited
  | .checking => if running then .acting else .looping
  | .acting => .looping
  | .exited => .exited

/-- The RX thread of a worker; it is `checking` before each frame of the ring. -/
def rxThreadLoop (running : Bool) (input : WaiterInput) : WaiterPc → WaiterPc
  | .looping => if running then .polling else .exited
  | .polling =>
    match input.wake with
    | .interrupted => .looping
    | .failed => .exited
    | .stop => .reading
    | .other => if input.ready then .checking else .looping
  | .reading => .exited
  | .checking => if running && input.more then .acting else .looping
  | .acting => .checking
  | .exited => .exited

/-- The processing thread of a worker; it is `checking` before each frame it pops and
`acting` while it handles one. -/
def procThreadLoop (running : Bool) (input : WaiterInput) : WaiterPc → WaiterPc
  | .looping => if running then .checking else .exited
  | .checking => if input.more then .acting else if input.fdsOpen then .polling else .exited
  | .acting => .checking
  | .polling =>
    match input.wake with
    | .interrupted => .looping
    | .failed => .exited
    | .stop => .reading
    | .other => .looping
  | .reading => .exited
  | .exited => .exited

structure Waiter where
  next : Bool → WaiterInput → WaiterPc → WaiterPc
  reads : ∀ {running input pc}, next running input pc = .reading →
    pc = .polling ∧ input.wake = .stop
  read_ends : ∀ running input, next running input .reading = .exited
  ended : ∀ running input, next running input .exited = .exited

namespace Waiter

def watchdog : Waiter where
  next := watchdogLoop
  reads {running input pc} := by fun_cases watchdogLoop running input pc <;> simp [*]
  read_ends _ _ := rfl
  ended _ _ := rfl

def controlEvent : Waiter where
  next := controlEventLoop
  reads {running input pc} := by fun_cases controlEventLoop running input pc <;> simp [*]
  read_ends _ _ := rfl
  ended _ _ := rfl

def rxThread : Waiter where
  next := rxThreadLoop
  reads {running input pc} := by fun_cases rxThreadLoop running input pc <;> simp [*]
  read_ends _ _ := rfl
  ended _ _ := rfl

def procThread : Waiter where
  next := procThreadLoop
  reads {running input pc} := by fun_cases procThreadLoop running input pc <;> simp [*]
  read_ends _ _ := rfl
  ended _ _ := rfl

end Waiter

structure StopProtocol (ι S : Type*) [Fintype ι] [DecidableEq S] where
  waiter : ι → Waiter
  stopEfd : ι → S
  order : List S
  written : ℕ
  nodup : order.Nodup
  complete : ∀ s, s ∈ order
  enough : ∀ s, (threadsAt stopEfd s).card ≤ written

inductive StopPc (S : Type*) where
  | uncalled
  | waking (left : List S)

structure Stopping (ι S : Type*) where
  pc : ι → WaiterPc
  tokens : S → ℕ
  running : Bool
  stop : StopPc S

inductive StopTurn (ι : Type*) where
  | thread (i : ι) (input : WaiterInput)
  | stop

namespace StopProtocol
variable {ι S : Type*} [Fintype ι] [DecidableEq S] (p : StopProtocol ι S)

def started : Stopping ι S := ⟨fun _ => .looping, fun _ => 0, true, .uncalled⟩

def Blocked (s : Stopping ι S) (i : ι) (wake : PollEnd) : Prop :=
  s.tokens (p.stopEfd i) = 0 ∧ (s.pc i = .reading ∨ s.pc i = .polling ∧ wake = .stop)

instance (s : Stopping ι S) (i : ι) (wake : PollEnd) : Decidable (p.Blocked s i wake) :=
  inferInstanceAs (Decidable (_ ∧ _))

def nextPc (s : Stopping ι S) (i : ι) (input : WaiterInput) : WaiterPc :=
  (p.waiter i).next (s.running || input.stale) input (s.pc i)

variable [DecidableEq ι]

def threadStep (s : Stopping ι S) (i : ι) (input : WaiterInput) : Stopping ι S :=
  if p.Blocked s i input.wake then s
  else
    { s with
      pc := update s.pc i (p.nextPc s i input)
      tokens :=
        if s.pc i = .reading then update s.tokens (p.stopEfd i) (s.tokens (p.stopEfd i) - 1)
        else s.tokens }

def stopStep (s : Stopping ι S) : Stopping ι S :=
  match s.stop with
  | .uncalled => { s with running := false, stop := .waking p.order }
  | .waking (x :: left) =>
    { s with tokens := update s.tokens x (s.tokens x + p.written), stop := .waking left }
  | .waking [] => s

def step (s : Stopping ι S) : StopTurn ι → Stopping ι S
  | .thread i input => p.threadStep s i input
  | .stop => p.stopStep s

def after (run : List (StopTurn ι)) : Stopping ι S := exec p.step started run

end StopProtocol

/-! ## The stop protocol passes a token gate -/

def WaiterPc.phase : WaiterPc → Phase
  | .reading => .reading
  | .exited => .gone
  | _ => .around

theorem WaiterPc.phase_eq_reading {pc : WaiterPc} : pc.phase = .reading ↔ pc = .reading := by
  cases pc <;> simp [phase]

theorem WaiterPc.phase_eq_gone {pc : WaiterPc} : pc.phase = .gone ↔ pc = .exited := by
  cases pc <;> simp [phase]

namespace StopProtocol
variable {ι S : Type*} [Fintype ι] [DecidableEq S] (p : StopProtocol ι S)

def unwritten (s : Stopping ι S) : List S :=
  match s.stop with
  | .uncalled => p.order
  | .waking left => left

def gate (s : Stopping ι S) : Gate ι S :=
  ⟨fun i => (s.pc i).phase, s.tokens, fun x => !(p.unwritten s).contains x⟩

def threadAct (s : Stopping ι S) (i : ι) (input : WaiterInput) : Act ι S :=
  if p.Blocked s i input.wake then .stay
  else
    match (s.pc i).phase, (p.nextPc s i input).phase with
    | .reading, _ => .take i
    | .around, .reading => .see i
    | .around, .gone => .leave i
    | _, _ => .stay

def act (s : Stopping ι S) : StopTurn ι → Act ι S
  | .thread i input => p.threadAct s i input
  | .stop =>
    match s.stop with
    | .waking (x :: _) => .post x p.written
    | _ => .stay

variable {p} {s : Stopping ι S} {i : ι} {input : WaiterInput}

theorem token_of_nextPc (hgo : ¬p.Blocked s i input.wake) (hnext : p.nextPc s i input = .reading) :
    0 < s.tokens (p.stopEfd i) := by
  obtain ⟨hpc, hwake⟩ := (p.waiter i).reads hnext
  exact Nat.pos_of_ne_zero fun hzero => hgo ⟨hzero, .inr ⟨hpc, hwake⟩⟩

variable [DecidableEq ι]

theorem gate_threadStep (hgo : ¬p.Blocked s i input.wake) :
    p.gate (p.threadStep s i input) =
      { p.gate s with
        phase := update (p.gate s).phase i (p.nextPc s i input).phase
        tokens :=
          if s.pc i = .reading then update s.tokens (p.stopEfd i) (s.tokens (p.stopEfd i) - 1)
          else s.tokens } := by
  rw [threadStep, if_neg hgo]
  simp only [gate, Gate.mk.injEq]
  exact ⟨comp_update WaiterPc.phase s.pc i _, trivial, rfl⟩

theorem gate_threadStep_around (hgo : ¬p.Blocked s i input.wake) (hpc : s.pc i ≠ .reading) :
    p.gate (p.threadStep s i input) =
      { p.gate s with phase := update (p.gate s).phase i (p.nextPc s i input).phase } := by
  rw [gate_threadStep hgo, if_neg hpc]
  rfl

theorem gate_stay {x : Phase} (hx : x = (s.pc i).phase) :
    { p.gate s with phase := update (p.gate s).phase i x } = p.gate s := by
  rw [hx]
  exact congrArg (fun phase => { p.gate s with phase }) (update_eq_self i (p.gate s).phase)

theorem unwritten_threadStep (p : StopProtocol ι S) (s : Stopping ι S) (i : ι)
    (input : WaiterInput) : p.unwritten (p.threadStep s i input) = p.unwritten s := by
  unfold threadStep
  split
  · rfl
  · rfl

theorem thread_simulates (p : StopProtocol ι S) (s : Stopping ι S) (i : ι) (input : WaiterInput) :
    Allowed p.stopEfd (p.gate s) (p.threadAct s i input) ∧
      p.gate (p.threadStep s i input) = next p.stopEfd (p.gate s) (p.threadAct s i input) := by
  by_cases hgo : p.Blocked s i input.wake
  · rw [threadAct, threadStep, if_pos hgo, if_pos hgo]
    exact ⟨trivial, rfl⟩
  rw [threadAct, if_neg hgo]
  cases hphase : (s.pc i).phase with
  | reading =>
    have hpc := WaiterPc.phase_eq_reading.mp hphase
    have hend : p.nextPc s i input = .exited := by
      rw [nextPc, hpc, (p.waiter i).read_ends]
    refine ⟨hphase, ?_⟩
    rw [gate_threadStep hgo, if_pos hpc, hend]
    rfl
  | gone =>
    have hpc := WaiterPc.phase_eq_gone.mp hphase
    have hend : p.nextPc s i input = s.pc i := by
      rw [nextPc, hpc, (p.waiter i).ended]
    refine ⟨trivial, ?_⟩
    rw [gate_threadStep_around hgo (by rw [hpc]; decide)]
    exact gate_stay (congrArg WaiterPc.phase hend)
  | around =>
    have hpc : s.pc i ≠ .reading := fun hpc => by rw [hpc] at hphase; cases hphase
    rw [gate_threadStep_around hgo hpc]
    cases hnext : (p.nextPc s i input).phase with
    | reading =>
      exact ⟨⟨hphase, token_of_nextPc hgo (WaiterPc.phase_eq_reading.mp hnext)⟩, rfl⟩
    | gone => exact ⟨hphase, rfl⟩
    | around => exact ⟨trivial, gate_stay hphase.symm⟩

theorem stop_simulates (hs : (p.unwritten s).Nodup) :
    (p.unwritten (p.stopStep s)).Nodup ∧
      Allowed p.stopEfd (p.gate s) (p.act s .stop) ∧
      p.gate (p.stopStep s) = next p.stopEfd (p.gate s) (p.act s .stop) := by
  obtain ⟨pc, tokens, running, stop⟩ := s
  match stop with
  | .uncalled => exact ⟨hs, trivial, rfl⟩
  | .waking [] => exact ⟨hs, trivial, rfl⟩
  | .waking (x :: left) =>
    obtain ⟨hx, hleft⟩ := List.nodup_cons.mp hs
    refine ⟨hleft, ⟨by simp [gate, unwritten], p.enough x⟩, ?_⟩
    simp only [gate, stopStep, unwritten, next, act, Gate.mk.injEq, true_and]
    funext y
    rcases eq_or_ne y x with rfl | hne
    · simp [hx]
    · simp [hne]

theorem step_simulates (p : StopProtocol ι S) (s : Stopping ι S) (turn : StopTurn ι)
    (hs : (p.unwritten s).Nodup) :
    (p.unwritten (p.step s turn)).Nodup ∧
      Allowed p.stopEfd (p.gate s) (p.act s turn) ∧
      p.gate (p.step s turn) = next p.stopEfd (p.gate s) (p.act s turn) := by
  cases turn with
  | stop => exact stop_simulates hs
  | thread i input =>
    refine ⟨?_, p.thread_simulates s i input⟩
    show (p.unwritten (p.threadStep s i input)).Nodup
    rwa [unwritten_threadStep]

theorem covered_after (p : StopProtocol ι S) (run : List (StopTurn ι)) (x : S) :
    Covered p.stopEfd (p.gate (p.after run)) x := by
  obtain ⟨-, hallowed, hgate⟩ := simulation p.gate p.step_simulates (s := started) p.nodup run
  rw [after, hgate]
  exact never_waits (fun y => ⟨by simp [gate, unwritten, started, p.complete y], rfl⟩)
    (fun _ => rfl) hallowed x

theorem token_of_reading (p : StopProtocol ι S) (run : List (StopTurn ι)) {i : ι}
    (hi : (p.after run).pc i = .reading) : 0 < (p.after run).tokens (p.stopEfd i) :=
  (p.covered_after run (p.stopEfd i)).token_of_reading (WaiterPc.phase_eq_reading.mpr hi)

theorem token_after_stop (p : StopProtocol ι S) (run : List (StopTurn ι)) {i : ι}
    (hstop : (p.after run).stop = .waking []) (hi : (p.after run).pc i ≠ .exited) :
    0 < (p.after run).tokens (p.stopEfd i) := by
  refine (p.covered_after run (p.stopEfd i)).available ?_ fun hgone => ?_
  · simp [gate, unwritten, hstop]
  · exact hi (WaiterPc.phase_eq_gone.mp hgone)

end StopProtocol

/-! ## `ControlPlane::stop` and `Forward_Engine::stop` -/

inductive ControlThread where
  | watchdogTelemetry
  | watchdogL2Refresh
  | watchdogWanTracker
  | watchdogDhcpWorker
  | watchdogQos
  | watchdogNatTicker
  | controlEvent
  deriving DecidableEq

instance : Fintype ControlThread where
  elems := {.watchdogTelemetry, .watchdogL2Refresh, .watchdogWanTracker, .watchdogDhcpWorker,
    .watchdogQos, .watchdogNatTicker, .controlEvent}
  complete thread := by cases thread <;> decide

def watchdogServiceCount : ℕ := 6

def controlPlaneStop : StopProtocol ControlThread Unit where
  waiter
    | .controlEvent => .controlEvent
    | _ => .watchdog
  stopEfd _ := ()
  order := [()]
  written := watchdogServiceCount + 1
  nodup := by decide
  complete := by decide
  enough := by decide

inductive WorkerThread where
  | rx
  | proc
  deriving DecidableEq

instance : Fintype WorkerThread where
  elems := {.rx, .proc}
  complete thread := by cases thread <;> decide

def forwardEngineStop : StopProtocol (Fin 2 × WorkerThread) (Fin 2) where
  waiter
    | (_, .rx) => .rxThread
    | (_, .proc) => .procThread
  stopEfd := Prod.fst
  order := [0, 1]
  written := 2
  nodup := by decide
  complete := by decide
  enough := by decide

theorem stop_tokens_never_run_out :
    (∀ run thread, (controlPlaneStop.after run).pc thread = .reading →
      0 < (controlPlaneStop.after run).tokens ()) ∧
    ∀ run worker thread, (forwardEngineStop.after run).pc (worker, thread) = .reading →
      0 < (forwardEngineStop.after run).tokens worker :=
  ⟨fun run _ => controlPlaneStop.token_of_reading run,
    fun run _ _ => forwardEngineStop.token_of_reading run⟩

theorem stop_tokens_qos_reads :
    let input : WaiterInput := ⟨false, .stop, false, false, true⟩
    let run : List (StopTurn ControlThread) :=
      [.thread .watchdogQos input, .stop, .stop, .thread .watchdogQos input]
    (controlPlaneStop.after run).pc .watchdogQos = .reading ∧
      0 < (controlPlaneStop.after run).tokens () :=
  ⟨by decide, stop_tokens_never_run_out.1 _ .watchdogQos (by decide)⟩

end Hpgtp
