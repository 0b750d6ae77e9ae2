import TrafficPrioritizer.DhcpEngine.Model
import TrafficPrioritizer.ForwardEngine.SpscRingBuffer

/-! The DHCP engine between its threads. The upstream worker hands requests over through the
lock-free ring and never waits; the background thread takes at most 32 of them in a round, under
the engine's lock; the configuration changes under the same lock. -/

namespace Hpgtp
open LabelledRun BoundedFifo

def kBackgroundTaskBudget : ℕ := 32

/-- Where `process_background_tasks` stands, with its counter. It holds the lock unless idle. -/
inductive BackgroundPc where
  | idle
  | popping (n : ℕ)
  | handling (n : ℕ) (msg : DhcpMessage)

structure DhcpHandover where
  requestQueue : Spsc DhcpMessage 512
  background : BackgroundPc
  engine : DhcpEngine

/-- Which thread takes its next step: `push` and `pop` go step by step, a request that has been
popped is handled in one, since the lock is held. -/
inductive HandoverTurn where
  | interceptRequest (span : List UInt8)
  | processBackgroundTasks (now commitNow : Int)
  | reconfigure (cfg : DhcpPoolConfig)
  | setRouterIp (ip : IPv4Net)

def DhcpOp.message : DhcpOp → Option DhcpMessage
  | .handleDhcpRequest msg _ _ => some msg
  | _ => none

namespace BackgroundPc

def loopTest (n : ℕ) : BackgroundPc := if n < kBackgroundTaskBudget then .popping n else .idle

def locked : BackgroundPc → Bool
  | .idle => false
  | _ => true

def popped (n : ℕ) : Act (Fin 512 × DhcpMessage) → BackgroundPc
  | .pop x => .handling n x.2
  | .empty => .idle
  | _ => .popping n

def inHand : BackgroundPc → Option DhcpMessage
  | .handling _ msg => some msg
  | _ => none

def count : BackgroundPc → ℕ
  | .idle => 0
  | .popping n => n
  | .handling n _ => n

theorem inHand_popped (n : ℕ) (a : Act (Fin 512 × DhcpMessage)) :
    (popped n a).inHand = a.popped?.map Prod.snd := by
  cases a <;> rfl

theorem count_popped_le (n : ℕ) (a : Act (Fin 512 × DhcpMessage)) : (popped n a).count ≤ n := by
  cases a <;> simp [popped, count]

theorem locked_popped {n : ℕ} {a : Act (Fin 512 × DhcpMessage)} (h : a ≠ .empty) :
    (popped n a).locked = true := by
  cases a with
  | empty => exact absurd rfl h
  | _ => rfl

theorem inHand_loopTest (n : ℕ) : (loopTest n).inHand = none := by
  unfold loopTest
  split_ifs <;> rfl

theorem count_loopTest_lt (n : ℕ) : (loopTest n).count < kBackgroundTaskBudget := by
  unfold loopTest
  split_ifs with h
  · exact h
  · decide

end BackgroundPc

namespace DhcpHandover
open BackgroundPc

def init (buffer : Fin 512 → DhcpMessage) (engine : DhcpEngine) : DhcpHandover :=
  ⟨.init buffer, .idle, engine⟩

def engineOp (s : DhcpHandover) : HandoverTurn → Option DhcpOp
  | .interceptRequest _ => none
  | .processBackgroundTasks now commitNow =>
    match s.background with
    | .handling _ msg => some (.handleDhcpRequest msg now commitNow)
    | _ => none
  | .reconfigure cfg => if s.background.locked then none else some (.reconfigure cfg)
  | .setRouterIp ip => if s.background.locked then none else some (.setRouterIp ip)

def step (s : DhcpHandover) (turn : HandoverTurn) : DhcpHandover :=
  let engine := ((s.engineOp turn).map s.engine.step).getD s.engine
  match turn with
  | .interceptRequest span =>
    { s with requestQueue := s.requestQueue.step (.producer (.ofFrame span)) }
  | .processBackgroundTasks _ _ =>
    match s.background with
    | .idle => { s with background := loopTest 0 }
    | .popping n =>
      { s with requestQueue := s.requestQueue.step .consumer
               background := popped n (s.requestQueue.act .consumer) }
    | .handling n _ => { s with engine, background := loopTest (n + 1) }
  | .reconfigure _ => { s with engine }
  | .setRouterIp _ => { s with engine }

/-! ## What the threads see -/

def fifoAct (s : DhcpHandover) : HandoverTurn → Act (Fin 512 × DhcpMessage)
  | .interceptRequest span => s.requestQueue.act (.producer (.ofFrame span))
  | .processBackgroundTasks _ _ =>
    match s.background with
    | .popping _ => s.requestQueue.act .consumer
    | _ => .stay
  | _ => .stay

def accepted (s : DhcpHandover) (turn : HandoverTurn) : Option DhcpMessage :=
  (s.fifoAct turn).pushed?.map Prod.snd

def handled (s : DhcpHandover) (turn : HandoverTurn) : Option DhcpMessage :=
  (s.engineOp turn).bind DhcpOp.message

def endsRound (s : DhcpHandover) (turn : HandoverTurn) : Bool :=
  s.background.locked && !(s.step turn).background.locked

def rounds (s : DhcpHandover) (turns : List HandoverTurn) : ℕ :=
  (trace step endsRound s turns).count true

def waiting (s : DhcpHandover) : List DhcpMessage :=
  s.background.inHand.toList ++ s.requestQueue.ring.queue.map Prod.snd

structure Ok (s : DhcpHandover) : Prop where
  queue : s.requestQueue.Ok
  budget : s.background.count < kBackgroundTaskBudget

/-! ## One step -/

theorem Ok.init (buffer : Fin 512 → DhcpMessage) (engine : DhcpEngine) :
    (init buffer engine).Ok := ⟨Spsc.init_ok buffer, show 0 < kBackgroundTaskBudget by decide⟩

theorem Ok.step {s : DhcpHandover} (h : s.Ok) (turn : HandoverTurn) : (s.step turn).Ok := by
  cases turn with
  | interceptRequest span =>
    exact ⟨(Spsc.producer_simulates _ (DhcpMessage.ofFrame span) h.queue).1, h.budget⟩
  | reconfigure cfg => exact ⟨h.queue, h.budget⟩
  | setRouterIp ip => exact ⟨h.queue, h.budget⟩
  | processBackgroundTasks now commitNow =>
    obtain ⟨queue, background, engine⟩ := s
    cases background with
    | idle => exact ⟨h.queue, count_loopTest_lt 0⟩
    | popping n =>
      exact ⟨(Spsc.consumer_simulates queue h.queue).1,
        (count_popped_le n (queue.act .consumer)).trans_lt h.budget⟩
    | handling n msg => exact ⟨h.queue, count_loopTest_lt (n + 1)⟩

theorem map_toList {α β : Type*} (f : α → β) (o : Option α) :
    o.toList.map f = (o.map f).toList := by
  cases o <;> rfl

theorem Ok.carried {s : DhcpHandover} (h : s.Ok) (turn : HandoverTurn) :
    s.waiting ++ (s.accepted turn).toList = (s.handled turn).toList ++ (s.step turn).waiting := by
  obtain ⟨queue, background, engine⟩ := s
  have hqueue (t : Turn DhcpMessage) : queue.ring.queue.map Prod.snd ++
      ((queue.act t).pushed?.map Prod.snd).toList =
        ((queue.act t).popped?.map Prod.snd).toList ++
          (queue.step t).ring.queue.map Prod.snd := by
    obtain ⟨-, hallowed, hnext⟩ := Spsc.simulates queue t h.queue
    have hcons := congrArg (List.map Prod.snd) (next_conserves hallowed)
    rwa [List.map_append, List.map_append, ← hnext, map_toList, map_toList] at hcons
  cases turn with
  | interceptRequest span =>
    have hpopped : (queue.act (.producer (.ofFrame span))).popped? = none := by
      rw [Spsc.act]
      cases queue.push with
      | tailLoaded item t =>
        dsimp only
        split_ifs <;> rfl
      | _ => rfl
    have h := hqueue (.producer (.ofFrame span))
    rw [hpopped] at h
    show (background.inHand.toList ++ queue.ring.queue.map Prod.snd) ++ _ = _
    rw [List.append_assoc]
    exact congrArg (background.inHand.toList ++ ·) h
  | reconfigure cfg =>
    have hnone : handled ⟨queue, background, engine⟩ (.reconfigure cfg) = none := by
      rw [handled, engineOp]
      split_ifs <;> rfl
    rw [hnone]
    exact List.append_nil _
  | setRouterIp ip =>
    have hnone : handled ⟨queue, background, engine⟩ (.setRouterIp ip) = none := by
      rw [handled, engineOp]
      split_ifs <;> rfl
    rw [hnone]
    exact List.append_nil _
  | processBackgroundTasks now commitNow =>
    cases background with
    | idle => exact List.append_nil _
    | popping n =>
      show queue.ring.queue.map Prod.snd ++ ((queue.act .consumer).pushed?.map Prod.snd).toList =
        (popped n (queue.act .consumer)).inHand.toList ++ (queue.step .consumer).ring.queue.map _
      rw [inHand_popped]
      exact hqueue .consumer
    | handling n msg =>
      show (msg :: queue.ring.queue.map Prod.snd) ++ [] =
        [msg] ++ ((loopTest (n + 1)).inHand.toList ++ queue.ring.queue.map Prod.snd)
      rw [inHand_loopTest, List.append_nil]
      rfl

theorem Ok.progress {s : DhcpHandover} (h : s.Ok) (turn : HandoverTurn) :
    s.waiting = [] ∨ kBackgroundTaskBudget * (s.endsRound turn).toNat +
      (s.step turn).background.count ≤ (s.handled turn).toList.length + s.background.count := by
  have hstays (hsame : (s.step turn).background = s.background) :
      kBackgroundTaskBudget * (s.endsRound turn).toNat + (s.step turn).background.count ≤
        (s.handled turn).toList.length + s.background.count := by
    rw [endsRound, hsame, Bool.and_not_self]
    exact Nat.le_trans (by simp) (Nat.le_add_left ..)
  obtain ⟨queue, background, engine⟩ := s
  cases turn with
  | interceptRequest span => exact .inr (hstays rfl)
  | reconfigure cfg => exact .inr (hstays rfl)
  | setRouterIp ip => exact .inr (hstays rfl)
  | processBackgroundTasks now commitNow =>
    cases background with
    | idle => exact .inr (Nat.le_refl 0)
    | popping n =>
      by_cases hempty : queue.act .consumer = .empty
      · left
        obtain ⟨-, hallowed, -⟩ := Spsc.consumer_simulates queue h.queue
        rw [hempty] at hallowed
        exact congrArg (List.map Prod.snd) hallowed
      · right
        show kBackgroundTaskBudget * (!(popped n (queue.act .consumer)).locked).toNat +
          (popped n (queue.act .consumer)).count ≤ 0 + n
        rw [locked_popped hempty, Nat.zero_add]
        exact (Nat.zero_add _).trans_le (count_popped_le n _)
    | handling n msg =>
      right
      have hbudget : n < kBackgroundTaskBudget := h.budget
      show kBackgroundTaskBudget * (!(loopTest (n + 1)).locked).toNat +
        (loopTest (n + 1)).count ≤ 1 + n
      unfold loopTest
      split_ifs with hnext
      · exact (Nat.zero_add _).trans_le (Nat.add_comm n 1).le
      · show kBackgroundTaskBudget * 1 + 0 ≤ 1 + n
        omega

/-! ## Whole runs -/

theorem served (s : DhcpHandover) (h : s.Ok) (turns : List HandoverTurn) :
    s.waiting.length ≤ (outputs step handled s turns).length ∨
      kBackgroundTaskBudget * s.rounds turns ≤
        (outputs step handled s turns).length + s.background.count := by
  induction turns generalizing s with
  | nil => exact .inr (Nat.zero_le _)
  | cons turn turns ih =>
    have hcarried := congrArg List.length (h.carried turn)
    rw [List.length_append, List.length_append] at hcarried
    have hrounds : s.rounds (turn :: turns) =
        (s.endsRound turn).toNat + (s.step turn).rounds turns := by
      rw [rounds, trace, List.count_cons, Nat.add_comm]
      cases s.endsRound turn <;> rfl
    rw [outputs, List.length_append, hrounds, Nat.mul_add]
    rcases ih (s.step turn) (h.step turn) with hall | hmany
    · left
      omega
    · rcases h.progress turn with hnone | hprogress
      · left
        rw [hnone]
        exact Nat.zero_le _
      · right
        omega

theorem engine_run (s : DhcpHandover) (turns : List HandoverTurn) :
    (exec step s turns).engine = exec DhcpEngine.step s.engine (outputs step engineOp s turns) := by
  induction turns generalizing s with
  | nil => rfl
  | cons turn turns ih =>
    have hstep : (s.step turn).engine = exec DhcpEngine.step s.engine (s.engineOp turn).toList := by
      have hengine : (s.step turn).engine = ((s.engineOp turn).map s.engine.step).getD s.engine := by
        cases turn with
        | processBackgroundTasks now commitNow =>
          obtain ⟨queue, background, engine⟩ := s
          cases background <;> rfl
        | _ => rfl
      rw [hengine]
      cases s.engineOp turn <;> rfl
    rw [exec_cons, ih, hstep, outputs, exec_append]

theorem length_waiting_le (s : DhcpHandover) : s.waiting.length ≤ 512 := by
  have hqueue := Ring.distance_lt s.requestQueue.ring.head s.requestQueue.ring.tail
  rw [waiting, List.length_append, List.length_map, SpscRingBuffer.length_queue]
  have hhand : s.background.inHand.toList.length ≤ 1 := by
    cases s.background.inHand <;> simp
  omega

theorem ok_run (buffer : Fin 512 → DhcpMessage) (engine : DhcpEngine)
    (turns : List HandoverTurn) : (exec step (init buffer engine) turns).Ok :=
  invariant (fun _ turn h => h.step turn) turns (Ok.init buffer engine)

theorem waiting_init (buffer : Fin 512 → DhcpMessage) (engine : DhcpEngine) :
    (init buffer engine).waiting = [] := by
  have hqueue : (init buffer engine).requestQueue = .init buffer := rfl
  have hbackground : (init buffer engine).background = .idle := rfl
  rw [waiting, hqueue, hbackground, Spsc.init_queue, List.map_nil, List.append_nil]
  rfl

theorem carried_run {s : DhcpHandover} (h : s.Ok) (turns : List HandoverTurn) :
    s.waiting ++ outputs step accepted s turns =
      outputs step handled s turns ++ (exec step s turns).waiting :=
  outputs_carried waiting (fun _ turn h => Ok.step h turn) (fun _ turn h => h.carried turn) h turns

end DhcpHandover

section
open DhcpHandover
variable (buffer : Fin 512 → DhcpMessage) (engine : DhcpEngine)

/-- In every interleaving of the worker's `push`, the background rounds and the configuration, the
engine goes through the calls one after another; the requests among them are those that the ring
accepted, each once and in that order, and what is missing is still waiting. The ring refuses a
request only while 511 are in it. -/
theorem dhcp_requests_served_in_order (turns : List HandoverTurn) :
    let s := exec step (init buffer engine) turns
    let ops := outputs step engineOp (init buffer engine) turns
    s.engine = exec DhcpEngine.step engine ops ∧
      outputs step accepted (init buffer engine) turns =
        ops.filterMap DhcpOp.message ++ s.waiting ∧
      ∀ span, s.fifoAct (.interceptRequest span) = .refuse →
        s.requestQueue.ring.queue.length = 511 := by
  intro s ops
  refine ⟨engine_run _ turns, ?_, fun span hrefuse => ?_⟩
  · have hcarried := carried_run (Ok.init buffer engine) turns
    rw [waiting_init, List.nil_append] at hcarried
    rw [hcarried, filterMap_outputs]
    rfl
  · have hok : s.Ok := ok_run buffer engine turns
    obtain ⟨-, hallowed, -⟩ :=
      Spsc.producer_simulates s.requestQueue (DhcpMessage.ofFrame span) hok.queue
    have hact : s.requestQueue.act (.producer (.ofFrame span)) = .refuse := hrefuse
    rw [hact] at hallowed
    exact hallowed

/-- The first `32 * n` of the requests that are waiting at some moment have been handled when `n`
rounds that began after it have ended, whatever else is handed over meanwhile. As no more than 512
can be waiting, 16 rounds are enough for any of them. -/
theorem dhcp_backlog_served_within_rounds (before during : List HandoverTurn) :
    let s := exec step (init buffer engine) before
    let n := s.rounds during - s.background.locked.toNat
    s.waiting.take (kBackgroundTaskBudget * n) <+: outputs step handled s during ∧
      s.waiting.length ≤ kBackgroundTaskBudget * 16 := by
  intro s n
  have hok : s.Ok := ok_run buffer engine before
  refine ⟨?_, length_waiting_le s⟩
  have hcarried := carried_run hok during
  have hfront : s.waiting.take (kBackgroundTaskBudget * n) <+:
      outputs step handled s during ++ (exec step s during).waiting := by
    rw [← hcarried]
    exact (List.take_prefix _ _).trans (List.prefix_append _ _)
  refine List.prefix_of_prefix_length_le hfront (List.prefix_append _ _) ?_
  rw [List.length_take]
  rcases served s hok during with hall | hmany
  · exact (Nat.min_le_right _ _).trans hall
  · refine (Nat.min_le_left _ _).trans ?_
    have hcount := hok.budget
    cases hlocked : s.background.locked with
    | false =>
      have hzero : s.background.count = 0 := by
        cases hpc : s.background with
        | idle => rfl
        | popping n => rw [hpc] at hlocked; cases hlocked
        | handling n msg => rw [hpc] at hlocked; cases hlocked
      have hn : n = s.rounds during := by
        show s.rounds during - s.background.locked.toNat = _
        rw [hlocked]
        rfl
      rw [hn]
      omega
    | true =>
      have hn : n = s.rounds during - 1 := by
        show s.rounds during - s.background.locked.toNat = _
        rw [hlocked]
        rfl
      rw [hn, Nat.mul_sub, Nat.mul_one]
      omega

end
end Hpgtp
