import TrafficPrioritizer.App.Shutdown

/-! The joins of `stop()` return. Once the tokens are written, `poll` reports them, and that alone
gets a thread out of its loop, even if it goes on to see the old value of `running_`; what delays
it is a frame that is still to be handled or a signal that interrupts `poll`. -/

namespace Hpgtp
open LabelledRun Function

/-! ## How far a loop is from its end -/

def WaiterInput.delay (input : WaiterInput) : ℕ :=
  (if input.wake = .interrupted then 4 else 0) + if input.more then 2 else 0

/-- A loop that comes closer to its end with each step, apart from the delays, as long as `poll`
does not return without the token. -/
structure Waiter.Ranked (w : Waiter) where
  rank : WaiterPc → ℕ
  rank_le : ∀ pc, rank pc ≤ 5
  rank_pos : ∀ pc, pc ≠ .exited → 0 < rank pc
  falls : ∀ running input pc, pc ≠ .exited → (pc = .polling → input.wake ≠ .other) →
    rank (w.next running input pc) + 1 ≤ rank pc + input.delay

namespace Waiter

def serviceRank : WaiterPc → ℕ
  | .checking => 5
  | .acting => 4
  | .looping => 3
  | .polling => 2
  | .reading => 1
  | .exited => 0

def watchdogRanked : watchdog.Ranked where
  rank := serviceRank
  rank_le pc := by cases pc <;> decide
  rank_pos pc := by cases pc <;> decide
  falls running input pc hpc hpoll := by
    show serviceRank (watchdogLoop running input pc) + 1 ≤ serviceRank pc + input.delay
    fun_cases watchdogLoop running input pc <;> simp_all [WaiterInput.delay, serviceRank]
    all_goals omega

def controlEventRanked : controlEvent.Ranked where
  rank := serviceRank
  rank_le pc := by cases pc <;> decide
  rank_pos pc := by cases pc <;> decide
  falls running input pc hpc hpoll := by
    show serviceRank (controlEventLoop running input pc) + 1 ≤ serviceRank pc + input.delay
    fun_cases controlEventLoop running input pc <;> simp_all [WaiterInput.delay, serviceRank]
    all_goals omega

def rxRank : WaiterPc → ℕ
  | .acting => 5
  | .checking => 4
  | .looping => 3
  | .polling => 2
  | .reading => 1
  | .exited => 0

def rxThreadRanked : rxThread.Ranked where
  rank := rxRank
  rank_le pc := by cases pc <;> decide
  rank_pos pc := by cases pc <;> decide
  falls running input pc hpc hpoll := by
    show rxRank (rxThreadLoop running input pc) + 1 ≤ rxRank pc + input.delay
    fun_cases rxThreadLoop running input pc <;> simp_all [WaiterInput.delay, rxRank]
    all_goals omega

def procRank : WaiterPc → ℕ
  | .looping => 4
  | .acting => 4
  | .checking => 3
  | .polling => 2
  | .reading => 1
  | .exited => 0

def procThreadRanked : procThread.Ranked where
  rank := procRank
  rank_le pc := by cases pc <;> decide
  rank_pos pc := by cases pc <;> decide
  falls running input pc hpc hpoll := by
    show procRank (procThreadLoop running input pc) + 1 ≤ procRank pc + input.delay
    fun_cases procThreadLoop running input pc <;> simp_all [WaiterInput.delay, procRank]
    all_goals omega

end Waiter

/-! ## Runs after the writes -/

namespace StopTurn
variable {ι : Type*} [DecidableEq ι]

def isOf (i : ι) : StopTurn ι → Bool
  | .thread j _ => j = i
  | .stop => false

def delayOf (i : ι) : StopTurn ι → ℕ
  | .thread j input => if j = i then input.delay else 0
  | .stop => 0

end StopTurn

namespace StopProtocol
variable {ι S : Type*} [Fintype ι] [DecidableEq S] [DecidableEq ι]

/-- `poll` reports a token that is there, unless it is interrupted or fails. -/
def Reports (p : StopProtocol ι S) (s : Stopping ι S) : StopTurn ι → Prop
  | .thread i input =>
    s.pc i = .polling → 0 < s.tokens (p.stopEfd i) → input.wake ≠ .other
  | .stop => True

variable {p : StopProtocol ι S} {s : Stopping ι S}

theorem pc_threadStep_of_ne {i j : ι} (h : j ≠ i) (input : WaiterInput) :
    (p.threadStep s i input).pc j = s.pc j := by
  unfold threadStep
  split_ifs
  · rfl
  · exact update_of_ne h ..
  · exact update_of_ne h ..

theorem step_stopped (hstop : s.stop = .waking []) (turn : StopTurn ι) :
    (p.step s turn).stop = .waking [] ∧
      ∀ i, turn.isOf i = false → (p.step s turn).pc i = s.pc i := by
  cases turn with
  | stop =>
    have hstay : p.step s .stop = s := by rw [step, stopStep, hstop]
    rw [hstay]
    exact ⟨hstop, fun _ _ => rfl⟩
  | thread j input =>
    refine ⟨?_, fun i hi => pc_threadStep_of_ne (fun heq => ?_) input⟩
    · show (p.threadStep s j input).stop = _
      unfold threadStep
      split_ifs <;> exact hstop
    · rw [StopTurn.isOf, heq, decide_eq_false_iff_not] at hi
      exact hi rfl

theorem pc_threadStep {i : ι} {input : WaiterInput} (htoken : 0 < s.tokens (p.stopEfd i)) :
    (p.threadStep s i input).pc i = p.nextPc s i input := by
  have hgo : ¬p.Blocked s i input.wake := fun hblocked => by
    have hzero := hblocked.1
    omega
  rw [threadStep, if_neg hgo]
  exact update_self ..

theorem exited_step {i : ι} (h : s.pc i = .exited) (turn : StopTurn ι) :
    (p.step s turn).pc i = .exited := by
  cases turn with
  | stop =>
    show (p.stopStep s).pc i = _
    unfold stopStep
    split <;> exact h
  | thread j input =>
    by_cases hj : i = j
    · subst hj
      show (p.threadStep s i input).pc i = _
      unfold threadStep
      split_ifs
      · exact h
      all_goals
        refine (update_self ..).trans ?_
        rw [nextPc, h]
        exact (p.waiter i).ended _ _
    · exact (pc_threadStep_of_ne hj input).trans h

theorem exited_run {i : ι} (h : s.pc i = .exited) (turns : List (StopTurn ι)) :
    (exec p.step s turns).pc i = .exited :=
  invariant (I := fun s : Stopping ι S => s.pc i = .exited)
    (fun _ turn h => exited_step h turn) turns h

theorem after_concat (p : StopProtocol ι S) (before : List (StopTurn ι)) (turn : StopTurn ι) :
    p.after (before ++ [turn]) = p.step (p.after before) turn := exec_append ..

theorem rank_step (ranked : ∀ i, (p.waiter i).Ranked) {i : ι} {before : List (StopTurn ι)}
    {turn : StopTurn ι} (hstop : (p.after before).stop = .waking [])
    (hreports : p.Reports (p.after before) turn) (hi : (p.after before).pc i ≠ .exited) :
    (ranked i).rank ((p.step (p.after before) turn).pc i) + (turn.isOf i).toNat ≤
      (ranked i).rank ((p.after before).pc i) + turn.delayOf i := by
  by_cases hturn : turn.isOf i = false
  · rw [(step_stopped hstop turn).2 i hturn, hturn]
    exact Nat.le_add_right ..
  · cases turn with
    | stop => exact absurd rfl hturn
    | thread j input =>
      obtain rfl : j = i := by
        by_contra hj
        exact hturn (decide_eq_false hj)
      have htoken := p.token_after_stop before hstop hi
      have hpc : (p.step (p.after before) (.thread j input)).pc j =
          p.nextPc (p.after before) j input := pc_threadStep htoken
      rw [hpc, StopTurn.isOf, StopTurn.delayOf, if_pos rfl, decide_eq_true rfl]
      exact (ranked j).falls _ input _ hi fun hpoll => hreports hpoll htoken

theorem rank_run (ranked : ∀ i, (p.waiter i).Ranked) (i : ι) (before during : List (StopTurn ι))
    (hstop : (p.after before).stop = .waking [])
    (hreports : Every p.step p.Reports (p.after before) during)
    (hend : (p.after (before ++ during)).pc i ≠ .exited) :
    (ranked i).rank ((p.after (before ++ during)).pc i) + during.countP (StopTurn.isOf i) ≤
      (ranked i).rank ((p.after before).pc i) + (during.map (StopTurn.delayOf i)).sum := by
  induction during generalizing before with
  | nil => rw [List.append_nil]; exact Nat.le_refl _
  | cons turn during ih =>
    obtain ⟨hturn, hrest⟩ := hreports
    have hi : (p.after before).pc i ≠ .exited := by
      intro hexited
      refine hend ?_
      rw [after, exec_append]
      exact exited_run hexited (turn :: during)
    have hstep := rank_step ranked hstop hturn hi
    rw [← after_concat] at hstep hrest
    rw [List.append_cons] at hend ⊢
    have hnext : (p.after (before ++ [turn])).stop = .waking [] := by
      rw [after_concat]
      exact (step_stopped hstop turn).1
    have hih := ih (before ++ [turn]) hnext hrest hend
    rw [List.countP_cons, List.map_cons, List.sum_cons]
    have hcount : (if turn.isOf i = true then 1 else 0) = (turn.isOf i).toNat := by
      cases turn.isOf i <;> rfl
    omega

theorem exited_of_turns (ranked : ∀ i, (p.waiter i).Ranked) (i : ι)
    (before during : List (StopTurn ι)) (hstop : (p.after before).stop = .waking [])
    (hreports : Every p.step p.Reports (p.after before) during)
    (hturns : 5 + (during.map (StopTurn.delayOf i)).sum ≤ during.countP (StopTurn.isOf i)) :
    (p.after (before ++ during)).pc i = .exited := by
  by_contra hend
  have hrank := rank_run ranked i before during hstop hreports hend
  have hle := (ranked i).rank_le ((p.after before).pc i)
  have hpos := (ranked i).rank_pos _ hend
  omega

end StopProtocol

def controlPlaneRanked : ∀ i, (controlPlaneStop.waiter i).Ranked
  | .controlEvent => Waiter.controlEventRanked
  | .watchdogTelemetry | .watchdogL2Refresh | .watchdogWanTracker | .watchdogDhcpWorker
  | .watchdogQos | .watchdogNatTicker => Waiter.watchdogRanked

def forwardEngineRanked : ∀ i, (forwardEngineStop.waiter i).Ranked
  | (_, .rx) => Waiter.rxThreadRanked
  | (_, .proc) => Waiter.procThreadRanked

/-- Whatever the threads were at when `stop()` had written its tokens, each of them exits within
five of its turns, four more for each signal that interrupts its `poll` and two more for each frame
it still finds; so the joins of `ControlPlane::stop` and `Forward_Engine::stop` return. It does not
take that any thread ever sees `running_` cleared. -/
theorem stop_joins_return :
    (∀ thread before during, (controlPlaneStop.after before).stop = .waking [] →
      Every controlPlaneStop.step controlPlaneStop.Reports (controlPlaneStop.after before) during →
      5 + (during.map (StopTurn.delayOf thread)).sum ≤ during.countP (StopTurn.isOf thread) →
      (controlPlaneStop.after (before ++ during)).pc thread = .exited) ∧
    ∀ thread before during, (forwardEngineStop.after before).stop = .waking [] →
      Every forwardEngineStop.step forwardEngineStop.Reports (forwardEngineStop.after before)
        during →
      5 + (during.map (StopTurn.delayOf thread)).sum ≤ during.countP (StopTurn.isOf thread) →
      (forwardEngineStop.after (before ++ during)).pc thread = .exited :=
  ⟨StopProtocol.exited_of_turns controlPlaneRanked,
    StopProtocol.exited_of_turns forwardEngineRanked⟩

theorem stop_joins_return_with_stale_flag :
    let input : WaiterInput := ⟨true, .stop, false, false, true⟩
    let before : List (StopTurn ControlThread) := [.stop, .stop]
    let during := List.replicate 5 (StopTurn.thread ControlThread.watchdogQos input)
    (controlPlaneStop.after (before ++ during)).pc .watchdogQos = .exited :=
  stop_joins_return.1 .watchdogQos _ _ rfl (by simp [Every, StopProtocol.Reports]) (by decide)

end Hpgtp
