import TrafficPrioritizer.ForwardEngine.ClassOrder
import TrafficPrioritizer.ForwardEngine.Classification
import TrafficPrioritizer.RawSocket.Delivery

/-! A worker with its sends and its counters `dropped`: in what way each frame leaves it, and what
the counters make of that. -/

namespace Hpgtp
open LabelledRun BoundedFifo
variable {B κ : Type*}

/-! ## Sending -/

/-- What a `send` with `MSG_DONTWAIT` answers: a number of bytes, `EINTR`, one of the errors of a
full queue, or another error. -/
inductive SendAnswer where
  | count (n : ℕ)
  | interrupted
  | busy
  | failed

inductive PacketTxTry where
  | complete
  | busy
  | error
  deriving DecidableEq

/-- The answers are those of the calls so far; there is no result while all were interrupted. -/
def trySendPacketNonblocking (pkt : List UInt8) : List SendAnswer → Option PacketTxTry
  | [] => none
  | .count n :: _ => some (if n = pkt.length then .complete else .error)
  | .interrupted :: answers => trySendPacketNonblocking pkt answers
  | .busy :: _ => some .busy
  | .failed :: _ => some .error

def PacketTxTry.txResult : PacketTxTry → TxResult
  | .complete => .success
  | .busy => .congested
  | .error => .fatal

def countDrop (dropped : Priority → UInt64) (prio : Priority) : Priority → UInt64 :=
  Function.update dropped prio (dropped prio + 1)

/-- `send_best_effort`, as far as the counters see it. -/
def sendBestEffort (dropped : Priority → UInt64) (prio : Priority) (res : PacketTxTry) :
    Priority → UInt64 :=
  if res ≠ .complete then countDrop dropped prio else dropped

theorem countDrop_apply (dropped : Priority → UInt64) (prio q : Priority) :
    countDrop dropped prio q = dropped q + .ofNat (if prio = q then 1 else 0) := by
  by_cases h : prio = q
  · subst h
    rw [countDrop, Function.update_self, if_pos rfl]
    rfl
  · rw [countDrop, Function.update_of_ne (Ne.symm h), if_neg h]
    exact (UInt64.add_zero _).symm

/-! ## The worker with its counters -/

structure Forwarder (B : Type*) where
  worker : Worker B
  dropped : Priority → UInt64

structure ForwardInput (κ : Type*) where
  running : Bool
  consumer : PacketConsumer
  clock : κ
  answers : List SendAnswer
  wake : Wake

inductive ForwardTurn (κ : Type*) where
  | rx (raw : List UInt8)
  | proc (input : ForwardInput κ)
  | setRate (limit : ℚ)

def ForwardInput.turn (i : ForwardInput κ) (res : TxResult) : WorkerTurn κ :=
  .proc ⟨i.running, i.consumer, i.clock, res, i.wake⟩

/-- How a frame leaves a worker. A response of the DHCP engine that is not sent counts as a frame
that leaves core 2. -/
inductive Departure where
  | intercepted
  | unaddressed
  | sent (route : Route)
  | failed
  | ringFull
  | unsent (prio : Priority)
  | queueFull
  | tooLong
  | unsentResponse
  deriving DecidableEq

def Departure.countedAs : Departure → Option Priority
  | .ringFull | .unsentResponse => some .high
  | .unsent prio => some prio
  | _ => none

def Shaper.refusal (s : Shaper B) (pkt : List UInt8) : Option Departure :=
  if (s.normalQueue.push pkt).isSome then none
  else if 2048 < pkt.length then some .tooLong
  else some .queueFull

namespace Forwarder

def rx (f : Forwarder B) (raw : List UInt8) : Forwarder B where
  worker := f.worker.rxStep raw
  dropped :=
    match f.worker.rx, f.worker.frameQ.act (.producer (rxFrameCopy raw)) with
    | .receiving, .refuse => countDrop f.dropped .high
    | _, _ => f.dropped

/-- The processing thread stays in `try_send_packet_nonblocking` while it is interrupted. -/
def proc (lim : Limiter B κ) (f : Forwarder B) (i : ForwardInput κ) : Forwarder B :=
  match f.worker.proc with
  | .handling frame =>
    match i.consumer.verdict (ParsedPacket.parse frame) with
    | some (.routed pkt prio .fastPath) =>
      match trySendPacketNonblocking pkt.rawSpan i.answers with
      | none => f
      | some res =>
        ⟨f.worker.step lim (i.turn .success), sendBestEffort f.dropped prio res⟩
    | _ => { f with worker := f.worker.step lim (i.turn .success) }
  | .shaping (.copied copy) =>
    match trySendPacketNonblocking copy.view i.answers with
    | none => f
    | some res => { f with worker := f.worker.step lim (i.turn res.txResult) }
  | _ => { f with worker := f.worker.step lim (i.turn .success) }

def step (lim : Limiter B κ) (f : Forwarder B) : ForwardTurn κ → Forwarder B
  | .rx raw => f.rx raw
  | .proc i => f.proc lim i
  | .setRate limit => { f with worker := f.worker.step lim (.setRate limit : WorkerTurn κ) }

def takes (f : Forwarder B) : ForwardTurn κ → Bool
  | .rx raw =>
    match f.worker.rx, f.worker.frameQ.act (.producer (rxFrameCopy raw)) with
    | .receiving, .push _ => true
    | .receiving, .refuse => true
    | _, _ => false
  | _ => false

def departs (f : Forwarder B) : ForwardTurn κ → Option Departure
  | .rx raw =>
    match f.worker.rx, f.worker.frameQ.act (.producer (rxFrameCopy raw)) with
    | .receiving, .refuse => some .ringFull
    | _, _ => none
  | .proc i =>
    match f.worker.proc with
    | .handling frame =>
      match i.consumer.verdict (ParsedPacket.parse frame) with
      | some (.intercepted _) => some .intercepted
      | some .dropped => some .unaddressed
      | some (.routed pkt prio .fastPath) =>
        match trySendPacketNonblocking pkt.rawSpan i.answers with
        | none => none
        | some .complete => some (.sent .fastPath)
        | some _ => some (.unsent prio)
      | some (.routed pkt _ .shaper) => f.worker.shaper.refusal pkt.rawSpan
      | none => none
    | .shaping (.copied copy) =>
      match trySendPacketNonblocking copy.view i.answers with
      | some .complete => some (.sent .shaper)
      | some .error => some .failed
      | _ => none
    | _ => none
  | _ => none

end Forwarder

/-! ## What the pipeline does to a frame's length -/

namespace PacketConsumer
open ParsedPacket

def Passed.packet? : Passed → Option ParsedPacket
  | .on pkt => some pkt
  | .stop (.routed pkt _ _) => some pkt
  | .stop _ => none

theorem sameViews_step (c : PacketConsumer) (pkt : ParsedPacket) (s : PipelineStep)
    {q : ParsedPacket} (h : Passed.packet? (c.step pkt s).2 = some q) : SameViews pkt q := by
  cases s with
  | dhcpInterceptor =>
    simp only [step] at h
    split_ifs at h with hstop
    · cases h
    · cases h
      exact SameViews.refl pkt
  | natDownstream =>
    simp only [step] at h
    split_ifs at h with hnat
    · cases h
      exact SameViews.refl pkt
    · cases h
      exact c.nat.sameViews_processInbound pkt
  | natUpstream =>
    simp only [step] at h
    split_ifs at h with hnat
    · cases h
      exact SameViews.refl pkt
    · cases h
      exact c.nat.sameViews_processOutbound pkt
  | ethRewriteLanToWan =>
    cases hrw : Hpgtp.ethRewriteLanToWan c.enableNat c.snapshot pkt with
    | none =>
      rw [step, hrw] at h
      cases h
    | some p =>
      rw [step, hrw] at h
      cases h
      exact sameViews_ethRewriteLanToWan hrw
  | ethRewriteWanToLan =>
    cases h
    exact sameViews_ethRewriteWanToLan c pkt
  | qosRouting =>
    cases h
    exact SameViews.refl pkt

theorem sameViews_runSteps {ss : List PipelineStep} {c : PacketConsumer} {pkt q : ParsedPacket}
    {prio : Priority} {route : Route}
    (h : (c.runSteps pkt ss).2 = some (.routed q prio route)) : SameViews pkt q := by
  induction ss generalizing c pkt with
  | nil => cases h
  | cons s ss ih =>
    have hstep := sameViews_step c pkt s (q := q)
    unfold runSteps at h
    rcases hs : c.step pkt s with ⟨c', out⟩
    rw [hs] at h hstep
    cases out with
    | on pkt' => exact (sameViews_step c pkt s (by rw [hs]; rfl)).trans (ih h)
    | stop v =>
      cases h
      exact hstep rfl

theorem length_of_routed {c : PacketConsumer} {frame : List UInt8} {q : ParsedPacket}
    {prio : Priority} {route : Route}
    (h : c.verdict (parse frame) = some (.routed q prio route)) :
    q.rawSpan.length = frame.length := by
  have hlen := (sameViews_runSteps h).length
  rwa [parse_rawSpan] at hlen

theorem runSteps_isSome (c : PacketConsumer) (pkt : ParsedPacket) (ss : List PipelineStep) :
    (c.runSteps pkt (ss ++ [.qosRouting])).2.isSome := by
  induction ss generalizing c pkt with
  | nil => rfl
  | cons s ss ih =>
    rw [List.cons_append, runSteps]
    rcases c.step pkt s with ⟨c', out⟩
    cases out with
    | on pkt' => exact ih c' pkt'
    | stop v => rfl

theorem verdict_isSome (c : PacketConsumer) (pkt : ParsedPacket) : (c.verdict pkt).isSome := by
  show (c.runSteps pkt c.pipeline).2.isSome
  unfold pipeline
  split_ifs
  · exact c.runSteps_isSome pkt [.dhcpInterceptor, .natDownstream, .ethRewriteWanToLan]
  · exact c.runSteps_isSome pkt
      [.dhcpInterceptor, .natDownstream, .natUpstream, .ethRewriteLanToWan]

end PacketConsumer

/-! ## What the shaper refuses -/

def shaperDrops (ds : List Departure) : UInt64 × UInt64 :=
  (.ofNat (ds.countP (· = .queueFull)), .ofNat (ds.countP (· = .tooLong)))

theorem add_shaperDrops_nil (d : UInt64 × UInt64) : d + shaperDrops [] = d :=
  Prod.ext (UInt64.add_zero _) (UInt64.add_zero _)

theorem Shaper.drops_enqueueNormal (s : Shaper B) (pkt : List UInt8) :
    (s.enqueueNormal pkt).tel.drops = s.tel.drops + shaperDrops (s.refusal pkt).toList := by
  unfold enqueueNormal refusal
  cases s.normalQueue.push pkt with
  | some q => exact (add_shaperDrops_nil _).symm
  | none =>
    dsimp only
    rw [Option.isSome_none, if_neg Bool.false_ne_true]
    split_ifs with hlong
    · exact Prod.ext (UInt64.add_zero _).symm rfl
    · exact Prod.ext rfl (UInt64.add_zero _).symm

theorem Draining.drops_refusal (lim : Limiter B κ) (s : Draining B) (t : ShaperTurn κ) :
    (step lim s t).shaper.tel.drops =
      s.shaper.tel.drops + shaperDrops (t.offer.bind s.shaper.refusal).toList := by
  cases t with
  | enqueue pkt => exact s.shaper.drops_enqueueNormal pkt
  | setRate limit => exact (add_shaperDrops_nil _).symm
  | drain clock res =>
    refine Eq.trans ?_ (add_shaperDrops_nil _).symm
    exact @drops_step _ _ lim s (.drain clock res) (fun pkt h => by cases h)

namespace Worker

def refuses (w : Worker B) (turn : WorkerTurn κ) : Option Departure :=
  (w.offers turn).bind w.shaper.refusal

theorem drops_step (lim : Limiter B κ) (w : Worker B) (turn : WorkerTurn κ) :
    (w.step lim turn).shaper.tel.drops =
      w.shaper.tel.drops + shaperDrops (w.refuses turn).toList := by
  rw [refuses]
  rcases draining_step lim w turn with ⟨hsame, hoffers, -⟩ | ⟨t, hstep, hoffers, -⟩
  · have htel : (w.step lim turn).shaper = w.shaper := congrArg Draining.shaper hsame
    rw [hoffers, htel]
    exact (add_shaperDrops_nil _).symm
  · have htel : (w.step lim turn).shaper = (Draining.step lim w.draining t).shaper :=
      congrArg Draining.shaper hstep
    rw [hoffers, htel]
    exact Draining.drops_refusal lim w.draining t

theorem length_offers (w : Worker B) (turn : WorkerTurn κ) :
    (w.offers turn).toList.length =
      (w.enters turn).toList.length + (w.refuses turn).toList.length := by
  rw [enters, refuses]
  cases w.offers turn with
  | none => rfl
  | some pkt =>
    rw [Option.filter_some, Option.bind_some, Shaper.refusal]
    cases (w.shaper.normalQueue.push pkt).isSome with
    | true => rfl
    | false =>
      rw [if_neg Bool.false_ne_true, if_neg Bool.false_ne_true]
      split_ifs <;> rfl

theorem counted_step (lim : Limiter B κ) (w : Worker B) (turn : WorkerTurn κ) :
    (w.step lim turn).shaper.tel.normalTxComplete + .ofNat (w.step lim turn).draining.uncounted =
      w.shaper.tel.normalTxComplete + .ofNat w.draining.uncounted +
        .ofNat (Draining.successes [w.handed turn]) := by
  rcases draining_step lim w turn with ⟨hsame, -, hhanded⟩ | ⟨t, hstep, -, hhanded⟩
  · have htel : (w.step lim turn).shaper = w.shaper := congrArg Draining.shaper hsame
    rw [hsame, hhanded, htel]
    exact (UInt64.add_zero _).symm
  · have htel : (w.step lim turn).shaper = (Draining.step lim w.draining t).shaper :=
      congrArg Draining.shaper hstep
    rw [hstep, hhanded, htel]
    exact Draining.counted_step lim w.draining t

def underWay (w : Worker B) : ℕ := w.pending.length + w.draining.left.length

theorem underWay_step (lim : Limiter B κ) {w : Worker B} (hok : w.Ok) (htracks : w.Tracks)
    (turn : WorkerTurn κ) :
    w.underWay + (w.accepts turn).toList.length + (w.offers turn).toList.length =
      (w.handles turn).toList.length + (w.sends turn .shaper).toList.length +
        (w.refuses turn).toList.length + (w.step lim turn).underWay := by
  have hring := congrArg List.length (pending_step lim hok turn)
  have hshaper := congrArg List.length (left_step lim htracks turn)
  have hoffers := w.length_offers turn
  have hhandled : ((w.handles turn).map Prod.fst).toList.length =
      (w.handles turn).toList.length := by
    cases w.handles turn <;> rfl
  rw [List.length_append, List.length_append, hhandled] at hring
  rw [List.length_append, List.length_append] at hshaper
  unfold underWay
  omega

/-! ## No frame is too long for the shaper -/

/-- `RxFrameCopy` has room for 2048 bytes, as many as a cell of the shaper's pool. -/
structure Short (w : Worker B) : Prop where
  pushing : ∀ x, w.frameQ.push.item? = some x → x.length ≤ 2048
  pending : ∀ x ∈ w.pending, x.length ≤ 2048

theorem length_rxFrameCopy (raw : List UInt8) : (rxFrameCopy raw).length ≤ 2048 :=
  List.length_take_le ..

theorem init_short (shaper : Shaper B) : Short (init shaper) where
  pushing := fun x h => by cases h
  pending := fun x hx => by
    rw [init_pending] at hx
    cases hx

theorem item?_of_accepts {w : Worker B} {turn : WorkerTurn κ} {x : List UInt8}
    (h : w.accepts turn = some x) : w.frameQ.push.item? = some x := by
  obtain ⟨frameQ, frameEfd, rx, proc, shaper⟩ := w
  cases turn with
  | proc i => cases h
  | setRate limit => cases h
  | rx raw =>
    cases rx with
    | signalling => cases h
    | receiving =>
      cases hact : frameQ.act (.producer (rxFrameCopy raw)) with
      | push c =>
        simp only [accepts, hact] at h
        cases h
        exact (Spsc.item?_of_push hact).1
      | stay | refuse | empty | pop =>
        simp only [accepts, hact] at h
        cases h

theorem item?_step (lim : Limiter B κ) (w : Worker B) (turn : WorkerTurn κ) {x : List UInt8}
    (h : (w.step lim turn).frameQ.push.item? = some x) :
    w.frameQ.push.item? = some x ∨ ∃ raw, x = rxFrameCopy raw := by
  obtain ⟨frameQ, frameEfd, rx, proc, shaper⟩ := w
  cases turn with
  | setRate limit => exact .inl h
  | rx raw =>
    cases rx with
    | receiving =>
      rcases Spsc.item?_step h with hnew | hold
      · exact .inr ⟨raw, hnew⟩
      · exact .inl hold
    | signalling =>
      simp only [Worker.step, rxStep] at h
      split_ifs at h <;> exact .inl h
  | proc i =>
    refine .inl ?_
    cases proc with
    | popping =>
      rw [← Spsc.push_step_consumer (q := frameQ)]
      exact h
    | polling =>
      simp only [Worker.step, procStep] at h
      cases hwake : i.wake with
      | frame =>
        rw [hwake] at h
        dsimp only at h
        split_ifs at h <;> exact h
      | _ =>
        rw [hwake] at h
        exact h
    | looping | handling | shaping | reading | exited => exact h

theorem Short.step {w : Worker B} (h : Short w) (hok : w.Ok) (lim : Limiter B κ)
    (turn : WorkerTurn κ) : Short (w.step lim turn) where
  pushing := fun x hx => by
    rcases item?_step lim w turn hx with hold | ⟨raw, rfl⟩
    · exact h.pushing x hold
    · exact length_rxFrameCopy raw
  pending := fun x hx => by
    have hmem : x ∈ w.pending ++ (w.accepts turn).toList := by
      rw [pending_step lim hok turn]
      exact List.mem_append_right _ hx
    rcases List.mem_append.mp hmem with hold | hnew
    · exact h.pending x hold
    · exact h.pushing x (item?_of_accepts (Option.mem_toList.mp hnew))

theorem Short.offers {w : Worker B} (h : Short w) {turn : WorkerTurn κ} {pkt : List UInt8}
    (hoffers : w.offers turn = some pkt) : pkt.length ≤ 2048 := by
  obtain ⟨frameQ, frameEfd, rx, proc, shaper⟩ := w
  cases turn with
  | rx raw => cases hoffers
  | setRate limit => cases hoffers
  | proc i =>
    cases proc with
    | handling frame =>
      have hframe : frame.length ≤ 2048 :=
        h.pending frame (List.mem_append_left _ (List.mem_singleton_self frame))
      simp only [Worker.offers, handles, Option.bind_some, onRoute] at hoffers
      split at hoffers
      · rename_i q prio r hv
        split_ifs at hoffers
        cases hoffers
        rwa [PacketConsumer.length_of_routed hv]
      · cases hoffers
    | looping | popping | shaping | polling | reading | exited => cases hoffers

theorem Short.refuses {w : Worker B} (h : Short w) (turn : WorkerTurn κ) :
    w.refuses turn ≠ some .tooLong := by
  rw [Worker.refuses]
  cases hoffers : w.offers turn with
  | none => simp
  | some pkt =>
    have hsize := h.offers hoffers
    rw [Option.bind_some, Shaper.refusal, if_neg (Nat.not_lt.mpr hsize)]
    split_ifs <;> simp

end Worker

/-! ## What a turn comes to -/

namespace Forwarder

structure Books (lim : Limiter B κ) (f : Forwarder B) (turn : ForwardTurn κ)
    (t : WorkerTurn κ) : Prop where
  worker : (f.step lim turn).worker = f.worker.step lim t
  balance : (f.takes turn).toNat + (f.worker.handles t).toList.length +
      (f.worker.sends t .shaper).toList.length + (f.worker.refuses t).toList.length =
    (f.worker.accepts t).toList.length + (f.worker.offers t).toList.length +
      (f.departs turn).toList.length
  refused : shaperDrops (f.departs turn).toList = shaperDrops (f.worker.refuses t).toList
  successes : Draining.successes [f.worker.handed t] =
    (f.departs turn).toList.countP (· = .sent .shaper)

theorem rx_books (lim : Limiter B κ) (f : Forwarder B) (raw : List UInt8) :
    Books lim f (.rx raw) (.rx raw) := by
  obtain ⟨⟨frameQ, frameEfd, rx, proc, shaper⟩, dropped⟩ := f
  cases rx with
  | signalling => exact ⟨rfl, rfl, rfl, rfl⟩
  | receiving =>
    have hpop := Worker.producer_popped frameQ (rxFrameCopy raw)
    cases hact : frameQ.act (.producer (rxFrameCopy raw)) with
    | pop x =>
      rw [hact] at hpop
      cases hpop
    | push x =>
      refine ⟨rfl, ?_, ?_, ?_⟩ <;>
      simp [takes, departs, Worker.accepts, Worker.offers, Worker.refuses, Worker.handles,
        Worker.sends, Worker.handed, Draining.successes, hact, Act.pushed?]
    | refuse | stay | empty =>
      refine ⟨rfl, ?_, ?_, ?_⟩ <;>
      simp [takes, departs, Worker.accepts, Worker.offers, Worker.refuses, Worker.handles,
        Worker.sends, Worker.handed, Draining.successes, shaperDrops, hact, Act.pushed?]

section
variable (lim : Limiter B κ) {f : Forwarder B} (i : ForwardInput κ)

theorem books_of_handling {frame : List UInt8} (hproc : f.worker.proc = .handling frame)
    (hworker : (f.step lim (.proc i)).worker = f.worker.step lim (i.turn .success))
    (hdep : (∃ d, f.departs (.proc i) = some d ∧ d ≠ .sent .shaper ∧ d ≠ .queueFull ∧
        d ≠ .tooLong ∧
        Worker.onRoute .shaper (frame, i.consumer.verdict (ParsedPacket.parse frame)) = none) ∨
      ∃ pkt, f.departs (.proc i) = f.worker.shaper.refusal pkt ∧
        Worker.onRoute .shaper (frame, i.consumer.verdict (ParsedPacket.parse frame)) =
          some pkt) :
    Books lim f (.proc i) (i.turn .success) := by
  have hhandles : f.worker.handles (i.turn .success) =
      some (frame, i.consumer.verdict (ParsedPacket.parse frame)) := by
    simp only [Worker.handles, ForwardInput.turn, hproc]
  have hhanded : f.worker.handed (i.turn .success) = none := by
    simp only [Worker.handed, ForwardInput.turn, hproc]
  have hsends : (f.worker.sends (i.turn .success) .shaper).toList = [] := by
    rw [Worker.sends_shaper, hhanded]
    rfl
  have htakes : f.takes (.proc i) = false := rfl
  have haccepts : f.worker.accepts (i.turn .success) = none := rfl
  have hoffers : f.worker.offers (i.turn .success) = Worker.onRoute .shaper
      (frame, i.consumer.verdict (ParsedPacket.parse frame)) := by
    rw [Worker.offers, hhandles, Option.bind_some]
  rcases hdep with ⟨d, hd, hsent, hfull, hlong, hroute⟩ | ⟨pkt, hd, hroute⟩
  · rw [hroute] at hoffers
    refine ⟨hworker, ?_, ?_, ?_⟩
    · rw [Worker.refuses, hhandles, hsends, hoffers, hd, htakes, haccepts]
      rfl
    · rw [Worker.refuses, hoffers, hd]
      simp [shaperDrops, hfull, hlong]
    · rw [hhanded, hd]
      simp [Draining.successes, hsent]
  · rw [hroute] at hoffers
    have hrefuses : f.worker.refuses (i.turn .success) = f.departs (.proc i) := by
      rw [Worker.refuses, hoffers, hd, Option.bind_some]
    refine ⟨hworker, ?_, ?_, ?_⟩
    · rw [hrefuses, hhandles, hsends, hoffers, htakes, haccepts]
      simp only [Option.toList_some, List.length_singleton, List.length_nil, Bool.toNat_false,
        Option.toList_none, Nat.zero_add, Nat.add_zero]
    · rw [hrefuses]
    · rw [hhanded, hd, Shaper.refusal]
      split_ifs <;> rfl

theorem handling_books {frame : List UInt8} (hproc : f.worker.proc = .handling frame) :
    (f.step lim (.proc i) = f ∧ f.departs (.proc i) = none) ∨
      Books lim f (.proc i) (i.turn .success) := by
  obtain ⟨v, hv⟩ := Option.isSome_iff_exists.mp
    (i.consumer.verdict_isSome (ParsedPacket.parse frame))
  cases v with
  | intercepted pkt =>
    refine .inr (books_of_handling lim i hproc ?_ (.inl ⟨.intercepted, ?_, ?_⟩))
    · simp only [Forwarder.step, Forwarder.proc, hproc, hv]
    · simp only [departs, hproc, hv]
    · simp [hv, Worker.onRoute]
  | dropped =>
    refine .inr (books_of_handling lim i hproc ?_ (.inl ⟨.unaddressed, ?_, ?_⟩))
    · simp only [Forwarder.step, Forwarder.proc, hproc, hv]
    · simp only [departs, hproc, hv]
    · simp [hv, Worker.onRoute]
  | routed pkt prio route =>
    cases route with
    | shaper =>
      refine .inr (books_of_handling lim i hproc ?_ (.inr ⟨pkt.rawSpan, ?_, ?_⟩))
      · simp only [Forwarder.step, Forwarder.proc, hproc, hv]
      · simp only [departs, hproc, hv]
      · simp [hv, Worker.onRoute]
    | fastPath =>
      cases hsend : trySendPacketNonblocking pkt.rawSpan i.answers with
      | none => exact .inl (by simp [Forwarder.step, Forwarder.proc, departs, hproc, hv, hsend])
      | some res =>
        refine .inr (books_of_handling lim i hproc ?_
          (.inl ⟨if res = .complete then .sent .fastPath else .unsent prio, ?_, ?_⟩))
        · simp only [Forwarder.step, Forwarder.proc, hproc, hv, hsend]
        · simp only [departs, hproc, hv, hsend]
          cases res <;> rfl
        · cases res <;> simp [hv, Worker.onRoute]

theorem shaping_books {copy : PacketSlot} (hproc : f.worker.proc = .shaping (.copied copy)) :
    (f.step lim (.proc i) = f ∧ f.departs (.proc i) = none) ∨
      ∃ res, Books lim f (.proc i) (i.turn res) := by
  cases hsend : trySendPacketNonblocking copy.view i.answers with
  | none => exact .inl (by simp [Forwarder.step, Forwarder.proc, departs, hproc, hsend])
  | some res =>
    have hstep : f.step lim (.proc i) =
        { f with worker := f.worker.step lim (i.turn res.txResult) } := by
      simp only [Forwarder.step, Forwarder.proc, hproc, hsend]
    have hhanded : f.worker.handed (i.turn res.txResult) = some (copy.view, res.txResult) := by
      simp only [Worker.handed, ForwardInput.turn, hproc]
    have hhandles : f.worker.handles (i.turn res.txResult) = none := by
      simp only [Worker.handles, ForwardInput.turn, hproc]
    have hrefuses : f.worker.refuses (i.turn res.txResult) = none := by
      rw [Worker.refuses, Worker.offers, hhandles]
      rfl
    refine .inr ⟨res.txResult, congrArg worker hstep, ?_, ?_, ?_⟩
    · rw [hrefuses, Worker.offers, hhandles, Worker.sends_shaper, hhanded]
      show 0 + 0 + _ + 0 = 0 + 0 + _
      cases res <;> simp [departs, hproc, hsend, Draining.gone, PacketTxTry.txResult]
    · rw [hrefuses]
      cases res <;> simp [departs, hproc, hsend, shaperDrops]
    · rw [hhanded]
      cases res <;> simp [departs, hproc, hsend, Draining.successes, PacketTxTry.txResult]

end

theorem step_books (lim : Limiter B κ) (f : Forwarder B) (turn : ForwardTurn κ) :
    (f.step lim turn = f ∧ f.takes turn = false ∧ f.departs turn = none) ∨
      ∃ t, Books lim f turn t := by
  cases turn with
  | rx raw => exact .inr ⟨_, rx_books lim f raw⟩
  | setRate limit => exact .inr ⟨.setRate limit, rfl, rfl, rfl, rfl⟩
  | proc i =>
    cases hproc : f.worker.proc with
    | handling frame =>
      rcases handling_books lim i hproc with ⟨hstep, hdep⟩ | hbooks
      · exact .inl ⟨hstep, rfl, hdep⟩
      · exact .inr ⟨_, hbooks⟩
    | shaping pc =>
      cases pc with
      | copied copy =>
        rcases shaping_books lim i hproc with ⟨hstep, hdep⟩ | ⟨res, hbooks⟩
        · exact .inl ⟨hstep, rfl, hdep⟩
        · exact .inr ⟨_, hbooks⟩
      | outside | examining | sent =>
        refine .inr ⟨i.turn .success, ?_, ?_, ?_, ?_⟩ <;>
        simp [Forwarder.step, Forwarder.proc, departs, takes, hproc, ForwardInput.turn,
          Worker.handles, Worker.sends, Worker.accepts, Worker.offers, Worker.refuses,
          Worker.handed, Draining.successes]
    | looping | popping | polling | reading | exited =>
      refine .inr ⟨i.turn .success, ?_, ?_, ?_, ?_⟩ <;>
      simp [Forwarder.step, Forwarder.proc, departs, takes, hproc, ForwardInput.turn,
        Worker.handles, Worker.sends, Worker.accepts, Worker.offers, Worker.refuses,
        Worker.handed, Draining.successes]

theorem add_counted_eq_self (n : UInt64) {d : Option Departure} {prio : Priority}
    (h : ∀ x ∈ d, x.countedAs = none) :
    n + .ofNat (d.toList.countP (·.countedAs = some prio)) = n := by
  have hzero : d.toList.countP (·.countedAs = some prio) = 0 := by
    cases d with
    | none => rfl
    | some x => simp [h x rfl]
  rw [hzero]
  exact UInt64.add_zero _

section
variable (lim : Limiter B κ) {f : Forwarder B} (i : ForwardInput κ) (prio : Priority)

theorem dropped_rx (f : Forwarder B) (raw : List UInt8) : (f.rx raw).dropped prio =
    f.dropped prio +
      .ofNat ((f.departs (.rx raw : ForwardTurn κ)).toList.countP (·.countedAs = some prio)) := by
  cases hrx : f.worker.rx with
  | signalling =>
    simp only [Forwarder.rx, departs, hrx]
    exact (add_counted_eq_self _ (by simp)).symm
  | receiving =>
    cases hact : f.worker.frameQ.act (.producer (rxFrameCopy raw)) with
    | refuse =>
      simp only [Forwarder.rx, departs, hrx, hact]
      rw [countDrop_apply]
      cases prio <;> rfl
    | push x | stay | empty | pop x =>
      simp only [Forwarder.rx, departs, hrx, hact]
      exact (add_counted_eq_self _ (by simp)).symm

theorem dropped_handling {frame : List UInt8} (hproc : f.worker.proc = .handling frame) :
    (f.proc lim i).dropped prio = f.dropped prio +
      .ofNat ((f.departs (.proc i)).toList.countP (·.countedAs = some prio)) := by
  obtain ⟨v, hv⟩ := Option.isSome_iff_exists.mp
    (i.consumer.verdict_isSome (ParsedPacket.parse frame))
  cases v with
  | intercepted pkt | dropped =>
    simp only [Forwarder.proc, departs, hproc, hv]
    exact (add_counted_eq_self _ (by simp [Departure.countedAs])).symm
  | routed pkt q route =>
    cases route with
    | shaper =>
      simp only [Forwarder.proc, departs, hproc, hv]
      refine (add_counted_eq_self _ ?_).symm
      rw [Shaper.refusal]
      split_ifs <;> simp [Departure.countedAs]
    | fastPath =>
      cases hsend : trySendPacketNonblocking pkt.rawSpan i.answers with
      | none =>
        simp only [Forwarder.proc, departs, hproc, hv, hsend]
        exact (add_counted_eq_self _ (by simp)).symm
      | some res =>
        simp only [Forwarder.proc, departs, hproc, hv, hsend, sendBestEffort]
        cases res with
        | complete => exact (add_counted_eq_self _ (by simp [Departure.countedAs])).symm
        | busy | error =>
          rw [if_pos (by simp), countDrop_apply]
          cases q <;> cases prio <;> rfl

theorem dropped_shaping {pc : DrainPc} (hproc : f.worker.proc = .shaping pc) :
    (f.proc lim i).dropped prio = f.dropped prio +
      .ofNat ((f.departs (.proc i)).toList.countP (·.countedAs = some prio)) := by
  cases pc with
  | copied copy =>
    cases hsend : trySendPacketNonblocking copy.view i.answers with
    | none =>
      simp only [Forwarder.proc, departs, hproc, hsend]
      exact (add_counted_eq_self _ (by simp)).symm
    | some res =>
      simp only [Forwarder.proc, departs, hproc, hsend]
      cases res <;> exact (add_counted_eq_self _ (by simp [Departure.countedAs])).symm
  | outside | examining | sent =>
    simp only [Forwarder.proc, departs, hproc]
    exact (add_counted_eq_self _ (by simp)).symm

theorem dropped_step (f : Forwarder B) (turn : ForwardTurn κ) : (f.step lim turn).dropped prio =
    f.dropped prio + .ofNat ((f.departs turn).toList.countP (·.countedAs = some prio)) := by
  cases turn with
  | setRate limit => exact (add_counted_eq_self _ (by simp [departs])).symm
  | rx raw => exact dropped_rx prio f raw
  | proc i =>
    cases hproc : f.worker.proc with
    | shaping pc => exact dropped_shaping lim i prio hproc
    | handling frame => exact dropped_handling lim i prio hproc
    | looping | popping | polling | reading | exited =>
      simp only [Forwarder.step, Forwarder.proc, departs, hproc]
      exact (add_counted_eq_self _ (by simp)).symm

end

end Forwarder
end Hpgtp
