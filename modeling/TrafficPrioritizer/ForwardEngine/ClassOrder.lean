import TrafficPrioritizer.ForwardEngine.Stranding

/-! A worker from end to end: the frames that get into its ring, what `on_packet_event` decides for
each of them, and what it sends. The two routes may overtake each other; neither reorders,
duplicates or makes up frames. -/

namespace Hpgtp
open LabelledRun BoundedFifo
variable {B κ : Type*}

def ShaperTurn.offer : ShaperTurn κ → Option (List UInt8)
  | .enqueue pkt => some pkt
  | _ => none

namespace Draining

def left (s : Draining B) : List (List UInt8) := s.packets.drop s.inHand.length

theorem packets_eq {s : Draining B} (hs : Ok s) : s.packets = s.inHand ++ s.left := by
  obtain ⟨rest, hrest⟩ := inHand_isPrefix hs
  rw [left, ← hrest, List.drop_left]

theorem left_step (lim : Limiter B κ) {s : Draining B} (hs : Ok s) (turn : ShaperTurn κ) :
    s.left ++ (act s turn).pushed?.toList = gone [s.handed turn] ++ (step lim s turn).left := by
  obtain ⟨hok, hallowed, hnext⟩ := simulates lim s turn hs
  have hqueue := next_conserves hallowed
  rw [← hnext, packets_eq hs, packets_eq hok] at hqueue
  have hhand := inHand_step lim s turn
  have hboth : s.inHand ++ (s.left ++ (act s turn).pushed?.toList) =
      s.inHand ++ (gone [s.handed turn] ++ (step lim s turn).left) := by
    rw [← List.append_assoc, hqueue, ← List.append_assoc, ← hhand, List.append_assoc]
  exact List.append_cancel_left hboth

end Draining

namespace Worker

def accepts (w : Worker B) : WorkerTurn κ → Option (List UInt8)
  | .rx raw =>
    match w.rx with
    | .receiving => (w.frameQ.act (.producer (rxFrameCopy raw))).pushed?.map Prod.snd
    | .signalling => none
  | _ => none

def handles (w : Worker B) : WorkerTurn κ → Option (List UInt8 × Option Verdict)
  | .proc i =>
    match w.proc with
    | .handling frame => some (frame, i.consumer.verdict (ParsedPacket.parse frame))
    | _ => none
  | _ => none

def onRoute (route : Route) (handled : List UInt8 × Option Verdict) : Option (List UInt8) :=
  match handled.2 with
  | some (.routed pkt _ r) => if r = route then some pkt.rawSpan else none
  | _ => none

/-- A frame that is handed to the interface and not turned away as congested: at once on the fast
path, and by `process_queue` out of the shaper. -/
def sends (w : Worker B) (turn : WorkerTurn κ) : Route → Option (List UInt8)
  | .fastPath =>
    match turn, w.proc with
    | .proc i, .handling frame =>
      match i.consumer.verdict (ParsedPacket.parse frame) with
      | some (.routed pkt _ .fastPath) => some pkt.rawSpan
      | _ => none
    | _, _ => none
  | .shaper =>
    match turn, w.proc with
    | .proc i, .shaping (.copied copy) => if i.res = .congested then none else some copy.view
    | _, _ => none

theorem sends_fastPath (w : Worker B) (turn : WorkerTurn κ) :
    w.sends turn .fastPath = (w.handles turn).bind (onRoute .fastPath) := by
  cases turn with
  | rx raw => rfl
  | setRate limit => rfl
  | proc i =>
    unfold sends handles
    cases w.proc with
    | handling frame =>
      dsimp only
      rw [Option.bind_some, onRoute]
      cases i.consumer.verdict (ParsedPacket.parse frame) with
      | none => rfl
      | some v =>
        cases v with
        | routed pkt prio route => cases route <;> rfl
        | intercepted | dropped => rfl
    | _ => rfl

def popped : ProcPc → List (List UInt8)
  | .handling frame => [frame]
  | _ => []

def pending (w : Worker B) : List (List UInt8) :=
  popped w.proc ++ w.frameQ.ring.queue.map Prod.snd

def drainPc : ProcPc → DrainPc
  | .shaping pc => pc
  | _ => .outside

def draining (w : Worker B) : Draining B := ⟨w.shaper, drainPc w.proc⟩

/-! ## The ring -/

theorem producer_popped (q : Spsc (List UInt8) 1024) (x : List UInt8) :
    (q.act (.producer x)).popped? = none := by
  unfold Spsc.act
  cases q.push with
  | tailLoaded item t => dsimp only; split_ifs <;> rfl
  | idle | hasRoom | slotWritten => rfl

theorem consumer_pushed (q : Spsc (List UInt8) 1024) : (q.act .consumer).pushed? = none := by
  unfold Spsc.act
  cases q.pop with
  | headLoaded h => dsimp only; split_ifs <;> rfl
  | idle | nonEmpty | itemRead => rfl

theorem queue_push {q : Spsc (List UInt8) 1024} (hq : q.Ok) (x : List UInt8) :
    (q.step (.producer x)).ring.queue = q.ring.queue ++ (q.act (.producer x)).pushed?.toList := by
  obtain ⟨-, hallowed, hnext⟩ := q.simulates (.producer x) hq
  have hqueue := next_conserves hallowed
  rw [producer_popped, ← hnext] at hqueue
  exact hqueue.symm

theorem queue_pop {q : Spsc (List UInt8) 1024} (hq : q.Ok) :
    q.ring.queue = (q.act .consumer).popped?.toList ++ (q.step .consumer).ring.queue := by
  obtain ⟨-, hallowed, hnext⟩ := q.simulates .consumer hq
  have hqueue := next_conserves hallowed
  rw [consumer_pushed, ← hnext] at hqueue
  exact (List.append_nil _).symm.trans hqueue

theorem pending_step (lim : Limiter B κ) {w : Worker B} (hok : w.Ok) (turn : WorkerTurn κ) :
    w.pending ++ (w.accepts turn).toList =
      ((w.handles turn).map Prod.fst).toList ++ (w.step lim turn).pending := by
  obtain ⟨frameQ, frameEfd, rx, proc, shaper⟩ := w
  have hring : frameQ.Ok := hok.ring
  cases turn with
  | setRate limit => exact List.append_nil _
  | rx raw =>
    cases rx with
    | receiving =>
      have hpush := queue_push hring (rxFrameCopy raw)
      simp only [pending, accepts, handles, Worker.step, rxStep, hpush, List.map_append,
        Option.map_none, Option.toList_none, List.nil_append, List.append_assoc]
      cases (frameQ.act (.producer (rxFrameCopy raw))).pushed? <;> rfl
    | signalling =>
      simp only [pending, accepts, handles, Worker.step, rxStep]
      split_ifs <;> simp
  | proc i =>
    cases proc with
    | looping =>
      cases hr : i.running <;>
        simp [pending, popped, accepts, handles, Worker.step, procStep, hr]
    | popping =>
      have hpop := queue_pop hring
      simp only [pending, popped, accepts, handles, Worker.step, procStep]
      rw [hpop]
      cases hact : frameQ.act .consumer <;> simp [Act.popped?]
    | handling frame => simp [pending, popped, accepts, handles, Worker.step, procStep]
    | shaping pc =>
      simp only [pending, popped, accepts, handles, Worker.step, procStep]
      cases (shaper.drainStep lim pc i.clock i.res).2 <;> simp
    | polling =>
      simp only [pending, popped, accepts, handles, Worker.step, procStep]
      cases i.wake with
      | frame => dsimp only; split_ifs <;> simp
      | _ => simp
    | reading => simp [pending, popped, accepts, handles, Worker.step, procStep]
    | exited => simp [pending, popped, accepts, handles, Worker.step, procStep]

/-! ## The shaper -/

def offers (w : Worker B) (turn : WorkerTurn κ) : Option (List UInt8) :=
  (w.handles turn).bind (onRoute .shaper)

def enters (w : Worker B) (turn : WorkerTurn κ) : Option (List UInt8) :=
  (w.offers turn).filter fun pkt => (w.shaper.normalQueue.push pkt).isSome

def handed (w : Worker B) (turn : WorkerTurn κ) : Option (List UInt8 × TxResult) :=
  match turn, w.proc with
  | .proc i, .shaping (.copied copy) => some (copy.view, i.res)
  | _, _ => none

theorem sends_shaper (w : Worker B) (turn : WorkerTurn κ) :
    (w.sends turn .shaper).toList = Draining.gone [w.handed turn] := by
  unfold sends handed Draining.gone
  dsimp only
  split
  · split_ifs with hres <;> simp [hres]
  · rfl

theorem Tracks.draining {w : Worker B} (h : w.Tracks) : w.draining.Ok := by
  unfold Worker.draining
  cases hproc : w.proc with
  | shaping pc => exact h pc hproc
  | _ => trivial

theorem pushed_act (s : Draining B) (t : ShaperTurn κ) :
    (Draining.act s t).pushed? =
      t.offer.filter fun pkt => (s.shaper.normalQueue.push pkt).isSome := by
  cases t with
  | enqueue pkt =>
    unfold Draining.act ShaperTurn.offer
    dsimp only
    rw [Option.filter_some]
    cases s.shaper.normalQueue.push pkt with
    | some q => rfl
    | none =>
      rw [Option.isSome_none, if_neg Bool.false_ne_true]
      split_ifs <;> rfl
  | setRate limit => rfl
  | drain clock res =>
    unfold Draining.act
    dsimp only
    split <;> rfl

theorem handle_eq (s : Shaper B) (c : PacketConsumer) (frame : List UInt8) :
    handle s c frame = ((onRoute .shaper (frame, c.verdict (ParsedPacket.parse frame))).map
      s.enqueueNormal).getD s := by
  unfold handle onRoute
  dsimp only
  cases c.verdict (ParsedPacket.parse frame) with
  | none => rfl
  | some v =>
    cases v with
    | routed pkt prio route => cases route <;> rfl
    | intercepted | dropped => rfl

theorem draining_step (lim : Limiter B κ) (w : Worker B) (turn : WorkerTurn κ) :
    ((w.step lim turn).draining = w.draining ∧ w.offers turn = none ∧ w.handed turn = none) ∨
    ∃ t : ShaperTurn κ, (w.step lim turn).draining = Draining.step lim w.draining t ∧
      w.offers turn = t.offer ∧ w.handed turn = w.draining.handed t := by
  cases turn with
  | rx raw =>
    obtain ⟨hproc, hshaper⟩ := w.rxStep_proc raw
    refine .inl ⟨?_, rfl, rfl⟩
    show Draining.mk (w.rxStep raw).shaper (drainPc (w.rxStep raw).proc) = _
    rw [hproc, hshaper]
    rfl
  | setRate limit => exact .inr ⟨.setRate limit, rfl, rfl, rfl⟩
  | proc i =>
    obtain ⟨frameQ, frameEfd, rx, proc, shaper⟩ := w
    cases proc with
    | looping =>
      refine .inl ⟨?_, rfl, rfl⟩
      cases hr : i.running <;> simp [draining, drainPc, Worker.step, procStep, hr]
    | popping =>
      cases hact : frameQ.act .consumer with
      | empty =>
        refine .inr ⟨.drain i.clock i.res, ?_, rfl, rfl⟩
        simp [draining, drainPc, Worker.step, procStep, hact, Draining.step, Shaper.drainStep]
      | _ =>
        refine .inl ⟨?_, rfl, rfl⟩
        simp [draining, drainPc, Worker.step, procStep, hact]
    | handling frame =>
      have hshaper := handle_eq shaper i.consumer frame
      cases hroute : onRoute .shaper (frame, i.consumer.verdict (ParsedPacket.parse frame)) with
      | none =>
        rw [hroute] at hshaper
        exact .inl ⟨congrArg (Draining.mk · .outside) hshaper, hroute, rfl⟩
      | some pkt =>
        rw [hroute] at hshaper
        exact .inr ⟨.enqueue pkt, congrArg (Draining.mk · .outside) hshaper, hroute, rfl⟩
    | shaping pc =>
      refine .inr ⟨.drain i.clock i.res, ?_, rfl, ?_⟩
      · simp only [draining, drainPc, Worker.step, procStep, Draining.step]
        cases (shaper.drainStep lim pc i.clock i.res).2 <;> rfl
      · cases pc <;> rfl
    | polling =>
      refine .inl ⟨?_, rfl, rfl⟩
      simp only [draining, Worker.step, procStep]
      cases i.wake with
      | frame => dsimp only; split_ifs <;> rfl
      | _ => rfl
    | reading => exact .inl ⟨rfl, rfl, rfl⟩
    | exited => exact .inl ⟨rfl, rfl, rfl⟩

theorem left_step (lim : Limiter B κ) {w : Worker B} (hok : w.Tracks) (turn : WorkerTurn κ) :
    w.draining.left ++ (w.enters turn).toList =
      (w.sends turn .shaper).toList ++ (w.step lim turn).draining.left := by
  rw [sends_shaper, enters]
  rcases draining_step lim w turn with ⟨hsame, hoffers, hhanded⟩ | ⟨t, hstep, hoffers, hhanded⟩
  · rw [hsame, hoffers, hhanded]
    exact List.append_nil _
  · have hleft := Draining.left_step lim hok.draining t
    rw [pushed_act] at hleft
    rw [hstep, hoffers, hhanded]
    exact hleft

theorem init_pending (shaper : Shaper B) : (init shaper).pending = [] := by
  have hqueue : (init shaper).frameQ.ring.queue = [] := Spsc.init_queue _
  rw [pending, hqueue]
  rfl

theorem init_left (bucket : B) (pool : Fin 8192 → PacketSlot) :
    (init (.new bucket pool)).draining.left = [] := by
  have hempty : (ZeroAllocRingBuffer.new pool).packets = [] :=
    List.eq_nil_of_length_eq_zero (ZeroAllocRingBuffer.length_packets _)
  exact (congrArg (List.drop 0) hempty).trans List.drop_nil

/-- For any interleaving of the two threads, whatever the consumer, the tokens and the interface
do: frames are handled once each and in the order in which they got into the ring; the fast path
sends those it is given in that order; and what the shaper has sent and still holds is, in that
order, some of what it was given. -/
theorem routes_keep_order (lim : Limiter B κ) (bucket : B) (pool : Fin 8192 → PacketSlot)
    (run : List (WorkerTurn κ)) :
    let start : Worker B := init (.new bucket pool)
    let w := exec (step lim) start run
    let handled := outputs (step lim) handles start run
    let sent (route : Route) := outputs (step lim) (fun w turn => w.sends turn route) start run
    outputs (step lim) accepts start run = handled.map Prod.fst ++ w.pending ∧
      sent .fastPath = handled.filterMap (onRoute .fastPath) ∧
      (sent .shaper ++ w.draining.left).Sublist (handled.filterMap (onRoute .shaper)) := by
  intro start w handled sent
  refine ⟨?_, ?_, ?_⟩
  · have hring := outputs_carried pending (fun _ turn h => h.step lim turn)
      (fun _ turn h => pending_step lim h turn) (init_ok (.new bucket pool)) run
    rw [init_pending, List.nil_append] at hring
    rw [map_outputs]
    exact hring
  · rw [filterMap_outputs]
    show outputs (step lim) (fun w turn => w.sends turn .fastPath) start run = _
    simp only [sends_fastPath]
  · have hshaper := outputs_carried (fun w : Worker B => w.draining.left)
      (fun _ turn h => h.step lim turn) (fun _ turn h => left_step lim h turn)
      (init_tracks (.new bucket pool)) run
    have hsub : (outputs (step lim) enters start run).Sublist
        (handled.filterMap (onRoute .shaper)) := by
      rw [filterMap_outputs]
      exact outputs_sublist (fun w turn x hx => Option.eq_some_of_filter_eq_some hx) start run
    rw [init_left, List.nil_append] at hshaper
    rwa [hshaper] at hsub

end Worker
end Hpgtp
