import Mathlib.Data.List.Induction
import TrafficPrioritizer.Lib.BoundedFifo
import TrafficPrioritizer.Scheduler.TokenBucket
import TrafficPrioritizer.Scheduler.ZeroAllocRingBuffer

/-! The traffic shaper. `process_queue` copies the head of the queue under the
lock, sends the copy without it, and takes the lock again to act on the result;
frames may be enqueued between any two of its steps. -/

namespace Hpgtp
open LabelledRun BoundedFifo
variable {B κ : Type*}

/-- The operations the shaper uses of its token bucket. Nothing below depends on the arithmetic
behind them; a clock reading is an input of `tryConsume`. -/
structure Limiter (B κ : Type*) where
  tryConsume : B → κ → ℕ → Bool × B
  refund : B → ℕ → B
  setRate : B → ℚ → B

def TokenBucket.limiter : Limiter TokenBucket Readings where
  tryConsume := tryConsume
  refund := refund
  setRate := setRate

inductive TxResult where
  | success
  | congested
  | fatal
  deriving DecidableEq

/-- The counters of the telemetry that a shaper adds to. Here one shaper is alone with them; two
workers share one set. -/
structure ShaperCounters where
  normalTxComplete : UInt64
  queueOverflowDrops : UInt64
  oversizedDrops : UInt64
  deriving DecidableEq

def ShaperCounters.drops (t : ShaperCounters) : UInt64 × UInt64 :=
  (t.queueOverflowDrops, t.oversizedDrops)

structure Shaper (B : Type*) where
  normalQueue : ZeroAllocRingBuffer 8192
  bucket : B
  tel : ShaperCounters

inductive DrainPc where
  | outside
  | examining (copy : PacketSlot)
  | copied (copy : PacketSlot)
  | sent (copy : PacketSlot) (res : TxResult)
  deriving DecidableEq

namespace Shaper

def new (bucket : B) (pool : Fin 8192 → PacketSlot) : Shaper B :=
  ⟨.new pool, bucket, ⟨0, 0, 0⟩⟩

def setRateLimit (lim : Limiter B κ) (s : Shaper B) (limit : ℚ) : Shaper B :=
  { s with bucket := lim.setRate s.bucket limit }

def enqueueNormal (s : Shaper B) (pkt : List UInt8) : Shaper B :=
  match s.normalQueue.push pkt with
  | some q => { s with normalQueue := q }
  | none =>
    if 2048 < pkt.length then
      { s with tel := { s.tel with oversizedDrops := s.tel.oversizedDrops + 1 } }
    else { s with tel := { s.tel with queueOverflowDrops := s.tel.queueOverflowDrops + 1 } }

def resultHandler (lim : Limiter B κ) (s : Shaper B) (bytes : ℕ) : TxResult → Shaper B
  | .success =>
    { s with normalQueue := s.normalQueue.pop,
             tel := { s.tel with normalTxComplete := s.tel.normalTxComplete + 1 } }
  | .congested => { s with bucket := lim.refund s.bucket bytes }
  | .fatal =>
    { s with bucket := lim.refund s.bucket bytes, normalQueue := s.normalQueue.pop }

def examine (lim : Limiter B κ) (s : Shaper B) (copy : PacketSlot) (clock : κ) :
    Shaper B × DrainPc :=
  if s.normalQueue.empty then (s, .outside)
  else
    let r := lim.tryConsume s.bucket clock s.normalQueue.front.length
    if r.1 then ({ s with bucket := r.2 }, .copied (copy.store s.normalQueue.front
      s.normalQueue.length_front_le))
    else ({ s with bucket := r.2 }, .outside)

def drainStep (lim : Limiter B κ) (s : Shaper B) (pc : DrainPc) (clock : κ) (res : TxResult) :
    Shaper B × DrainPc :=
  match pc with
  | .outside => (s, .examining .zero)
  | .examining copy => s.examine lim copy clock
  | .copied copy => (s, .sent copy res)
  | .sent copy r =>
    -- a congested send ends the loop, with the frame left at the head
    (s.resultHandler lim copy.size.toNat r, if r = .congested then .outside else .examining copy)

def Offered (s s' : Shaper B) (pkt : List UInt8) : Prop :=
  (s.normalQueue.packets.length < 8192 ∧ pkt.length ≤ 2048 ∧
    s'.normalQueue.packets = s.normalQueue.packets ++ [pkt] ∧ s'.tel = s.tel) ∨
  (2048 < pkt.length ∧ s'.normalQueue = s.normalQueue ∧
    s'.tel = { s.tel with oversizedDrops := s.tel.oversizedDrops + 1 }) ∨
  (s.normalQueue.packets.length = 8192 ∧ pkt.length ≤ 2048 ∧ s'.normalQueue = s.normalQueue ∧
    s'.tel = { s.tel with queueOverflowDrops := s.tel.queueOverflowDrops + 1 })

theorem enqueueNormal_offered (s : Shaper B) (pkt : List UInt8) :
    Offered s (s.enqueueNormal pkt) pkt := by
  unfold enqueueNormal
  cases hpush : s.normalQueue.push pkt with
  | some q =>
    obtain ⟨hroom, hsize, hq⟩ := ZeroAllocRingBuffer.packets_push hpush
    exact .inl ⟨hroom, hsize, hq, rfl⟩
  | none =>
    dsimp only
    split_ifs with hsize
    · exact .inr (.inl ⟨hsize, rfl, rfl⟩)
    · have hfull := (ZeroAllocRingBuffer.push_eq_none_iff.mp hpush).resolve_right hsize
      exact .inr (.inr ⟨hfull, Nat.le_of_not_lt hsize, rfl, rfl⟩)

end Shaper

structure Draining (B : Type*) where
  shaper : Shaper B
  drain : DrainPc

inductive ShaperTurn (κ : Type*) where
  | enqueue (pkt : List UInt8)
  | setRate (limit : ℚ)
  | drain (clock : κ) (res : TxResult)

namespace Draining

def new (bucket : B) (pool : Fin 8192 → PacketSlot) : Draining B :=
  ⟨.new bucket pool, .outside⟩

def packets (s : Draining B) : List (List UInt8) := s.shaper.normalQueue.packets

def step (lim : Limiter B κ) (s : Draining B) : ShaperTurn κ → Draining B
  | .enqueue pkt => { s with shaper := s.shaper.enqueueNormal pkt }
  | .setRate limit => { s with shaper := s.shaper.setRateLimit lim limit }
  | .drain clock res =>
    let r := s.shaper.drainStep lim s.drain clock res
    ⟨r.1, r.2⟩

def handed (s : Draining B) : ShaperTurn κ → Option (List UInt8 × TxResult)
  | .drain _ res =>
    match s.drain with
    | .copied copy => some (copy.view, res)
    | _ => none
  | _ => none

/-- The step as an action on the queue. A frame leaves it when the result of its send is acted
on, as the frame that was sent; that it is the frame at the head is what is to be shown. -/
def act (s : Draining B) : ShaperTurn κ → Act (List UInt8)
  | .enqueue pkt =>
    match s.shaper.normalQueue.push pkt with
    | some _ => .push pkt
    | none => if 2048 < pkt.length then .stay else .refuse
  | .setRate _ => .stay
  | .drain _ _ =>
    match s.drain with
    | .sent copy .success => .pop copy.view
    | .sent copy .fatal => .pop copy.view
    | _ => .stay

def inHand (s : Draining B) : List (List UInt8) :=
  match s.drain with
  | .sent copy .success => [copy.view]
  | .sent copy .fatal => [copy.view]
  | _ => []

def uncounted (s : Draining B) : ℕ :=
  match s.drain with
  | .sent _ .success => 1
  | _ => 0

def gone (sends : List (Option (List UInt8 × TxResult))) : List (List UInt8) :=
  sends.filterMap fun e => e.bind fun p => if p.2 = .congested then none else some p.1

def successes (sends : List (Option (List UInt8 × TxResult))) : ℕ :=
  sends.countP fun e => e.any fun p => p.2 = .success

def Ok (s : Draining B) : Prop :=
  match s.drain with
  | .copied copy => s.packets.head? = some copy.view
  | .sent copy _ => s.packets.head? = some copy.view
  | _ => True

theorem ok_of_head {s s' : Draining B} (hs : Ok s) (hdrain : s'.drain = s.drain)
    (hhead : ∀ f, s.packets.head? = some f → s'.packets.head? = some f) : Ok s' := by
  unfold Ok at *
  rw [hdrain]
  split <;> simp_all

theorem enqueue_simulates (lim : Limiter B κ) (s : Draining B) (pkt : List UInt8) (hs : Ok s) :
    let turn : ShaperTurn κ := .enqueue pkt
    Ok (step lim s turn) ∧ Allowed 8192 s.packets (act s turn) ∧
      (step lim s turn).packets = next s.packets (act s turn) := by
  intro turn
  have hkeep : ∀ t, (step lim s turn).packets = s.packets ++ t → Ok (step lim s turn) :=
    fun t ht => ok_of_head hs rfl fun f hf => by rw [ht, List.head?_append, hf, Option.some_or]
  rcases hpush : s.shaper.normalQueue.push pkt with _ | q
  · have hsame : (step lim s turn).packets = s.packets := by
      show (s.shaper.enqueueNormal pkt).normalQueue.packets = _
      rw [Shaper.enqueueNormal, hpush]
      dsimp only
      split_ifs <;> rfl
    have hact : act s turn = if 2048 < pkt.length then .stay else .refuse := by
      simp only [turn, act, hpush]
    rw [hact]
    refine ⟨hkeep [] (by rw [hsame, List.append_nil]), ?_, ?_⟩
    · split_ifs with hsize
      · trivial
      · exact (ZeroAllocRingBuffer.push_eq_none_iff.mp hpush).resolve_right hsize
    · split_ifs <;> exact hsame
  · obtain ⟨hroom, -, hq⟩ := ZeroAllocRingBuffer.packets_push hpush
    have hnew : (step lim s turn).packets = s.packets ++ [pkt] := by
      show (s.shaper.enqueueNormal pkt).normalQueue.packets = _
      rw [Shaper.enqueueNormal, hpush]
      exact hq
    have hact : act s turn = .push pkt := by simp only [turn, act, hpush]
    rw [hact]
    exact ⟨hkeep _ hnew, hroom, hnew⟩

theorem head_examine (lim : Limiter B κ) (s : Shaper B) (copy : PacketSlot) (clock : κ) :
    (s.examine lim copy clock).1.normalQueue = s.normalQueue ∧
      ((s.examine lim copy clock).2 = .outside ∨ ∃ copy',
        (s.examine lim copy clock).2 = .copied copy' ∧
          s.normalQueue.packets.head? = some copy'.view) := by
  unfold Shaper.examine
  split_ifs with hempty
  · exact ⟨rfl, .inl rfl⟩
  · have hcons := ZeroAllocRingBuffer.packets_eq_cons (Bool.not_eq_true _ ▸ hempty)
    dsimp only
    split_ifs
    · refine ⟨rfl, .inr ⟨_, rfl, ?_⟩⟩
      rw [PacketSlot.view_store, hcons, List.head?_cons]
    · exact ⟨rfl, .inl rfl⟩

theorem pop_of_head {q : ZeroAllocRingBuffer 8192} {f : List UInt8}
    (h : q.packets.head? = some f) : q.pop.packets = q.packets.tail := by
  have hne : q.empty = false := by
    rw [← Bool.not_eq_true, ZeroAllocRingBuffer.empty_iff]
    rintro hnil
    rw [hnil] at h
    cases h
  rw [ZeroAllocRingBuffer.packets_eq_cons hne, List.tail_cons]

theorem drain_simulates (lim : Limiter B κ) (s : Draining B) (clock : κ) (res : TxResult)
    (hs : Ok s) : Ok (step lim s (.drain clock res)) ∧
      Allowed 8192 s.packets (act s (.drain clock res)) ∧
      (step lim s (.drain clock res)).packets = next s.packets (act s (.drain clock res)) := by
  obtain ⟨shaper, drain⟩ := s
  cases drain with
  | outside => exact ⟨trivial, trivial, rfl⟩
  | examining copy =>
    obtain ⟨hq, hpc⟩ := head_examine lim shaper copy clock
    have hpk : (step lim ⟨shaper, .examining copy⟩ (.drain clock res)).packets =
        shaper.normalQueue.packets := congrArg ZeroAllocRingBuffer.packets hq
    refine ⟨?_, trivial, hpk⟩
    rcases hpc with hpc | ⟨copy', hpc, hhead⟩
    · show match (shaper.examine lim copy clock).2 with
        | .copied _ => _ | .sent _ _ => _ | _ => True
      rw [hpc]
      trivial
    · unfold Ok
      rw [show (step lim ⟨shaper, .examining copy⟩ (.drain clock res)).drain = .copied copy'
        from hpc, hpk]
      exact hhead
  | copied copy => exact ⟨hs, trivial, rfl⟩
  | sent copy r =>
    -- frames were only appended since the copy was made, so it is the head that goes
    have hhead : shaper.normalQueue.packets.head? = some copy.view := hs
    cases r with
    | success | fatal => exact ⟨trivial, hhead, pop_of_head hhead⟩
    | congested => exact ⟨trivial, trivial, rfl⟩

theorem simulates (lim : Limiter B κ) (s : Draining B) (turn : ShaperTurn κ) (hs : Ok s) :
    Ok (step lim s turn) ∧ Allowed 8192 s.packets (act s turn) ∧
      (step lim s turn).packets = next s.packets (act s turn) := by
  cases turn with
  | enqueue pkt => exact enqueue_simulates lim s pkt hs
  | setRate limit => exact ⟨ok_of_head hs rfl fun _ hf => hf, trivial, rfl⟩
  | drain clock res => exact drain_simulates lim s clock res hs

theorem gone_concat (sends : List (Option (List UInt8 × TxResult)))
    (e : Option (List UInt8 × TxResult)) : gone (sends ++ [e]) = gone sends ++ gone [e] :=
  List.filterMap_append

theorem popped_concat (acts : List (Act (List UInt8))) (a : Act (List UInt8)) :
    popped (acts ++ [a]) = popped acts ++ a.popped?.toList := by
  rw [popped, List.filterMap_append, filterMap_cons_toList, List.filterMap_nil, List.append_nil]
  rfl

theorem inHand_step (lim : Limiter B κ) (s : Draining B) (turn : ShaperTurn κ) :
    s.inHand ++ gone [s.handed turn] =
      (act s turn).popped?.toList ++ (step lim s turn).inHand := by
  rcases turn with pkt | limit | ⟨clock, res⟩
  · have hact : (act s (.enqueue pkt : ShaperTurn κ)).popped? = none := by
      unfold act
      dsimp only
      split
      · rfl
      · split_ifs <;> rfl
    rw [hact]
    exact List.append_nil _
  · exact List.append_nil _
  · obtain ⟨shaper, drain⟩ := s
    cases drain with
    | outside => rfl
    | examining copy =>
      rcases (head_examine lim shaper copy clock).2 with hpc | ⟨copy', hpc, -⟩ <;>
      · show [] = (inHand ⟨_, (shaper.examine lim copy clock).2⟩)
        rw [hpc]
        rfl
    | copied copy => cases res <;> rfl
    | sent copy r => cases r <;> rfl

theorem inHand_isPrefix {s : Draining B} (hs : Ok s) : s.inHand <+: s.packets := by
  obtain ⟨shaper, drain⟩ := s
  have hhead : ∀ {f : List UInt8}, shaper.normalQueue.packets.head? = some f →
      [f] <+: shaper.normalQueue.packets := by
    intro f hf
    obtain ⟨rest, hrest⟩ := List.head?_eq_some_iff.mp hf
    exact ⟨rest, hrest.symm⟩
  rcases drain with _ | copy | copy | ⟨copy, res⟩
  · exact List.nil_prefix
  · exact List.nil_prefix
  · exact List.nil_prefix
  · cases res with
    | congested => exact List.nil_prefix
    | success | fatal => exact hhead hs

theorem examine_tel (lim : Limiter B κ) (s : Shaper B) (copy : PacketSlot) (clock : κ) :
    (s.examine lim copy clock).1.tel = s.tel := by
  unfold Shaper.examine
  dsimp only
  split_ifs <;> rfl

theorem drops_step (lim : Limiter B κ) (s : Draining B) {turn : ShaperTurn κ}
    (h : ∀ pkt, turn ≠ .enqueue pkt) :
    (step lim s turn).shaper.tel.drops = s.shaper.tel.drops := by
  rcases turn with pkt | limit | ⟨clock, res⟩
  · exact absurd rfl (h pkt)
  · rfl
  · obtain ⟨shaper, drain⟩ := s
    cases drain with
    | outside => rfl
    | examining copy => exact congrArg ShaperCounters.drops (examine_tel lim shaper copy clock)
    | copied copy => rfl
    | sent copy r => cases r <;> rfl

theorem counted_step (lim : Limiter B κ) (s : Draining B) (turn : ShaperTurn κ) :
    (step lim s turn).shaper.tel.normalTxComplete + .ofNat (step lim s turn).uncounted =
      s.shaper.tel.normalTxComplete + .ofNat s.uncounted + .ofNat (successes [s.handed turn]) := by
  rcases turn with pkt | limit | ⟨clock, res⟩
  · have htx : (s.shaper.enqueueNormal pkt).tel.normalTxComplete =
        s.shaper.tel.normalTxComplete := by
      rcases s.shaper.enqueueNormal_offered pkt with ⟨-, -, -, h⟩ | ⟨-, -, h⟩ | ⟨-, -, -, h⟩ <;>
        rw [h]
    show (s.shaper.enqueueNormal pkt).tel.normalTxComplete + .ofNat s.uncounted = _
    rw [htx]
    exact (UInt64.add_zero _).symm
  · exact (UInt64.add_zero _).symm
  · obtain ⟨shaper, drain⟩ := s
    cases drain with
    | outside => exact (UInt64.add_zero _).symm
    | examining copy =>
      show (shaper.examine lim copy clock).1.tel.normalTxComplete +
        .ofNat (uncounted ⟨_, (shaper.examine lim copy clock).2⟩) = _
      rw [examine_tel]
      rcases (head_examine lim shaper copy clock).2 with hpc | ⟨copy', hpc, -⟩ <;>
      · rw [hpc]
        exact (UInt64.add_zero _).symm
    | copied copy =>
      show shaper.tel.normalTxComplete + _ = shaper.tel.normalTxComplete + 0 + _
      rw [UInt64.add_zero]
      cases res <;> rfl
    | sent copy r =>
      refine Eq.trans ?_ (UInt64.add_zero _).symm
      cases r with
      | success => exact UInt64.add_zero _
      | congested | fatal => rfl

section Runs
variable (lim : Limiter B κ) (bucket : B) (pool : Fin 8192 → PacketSlot)

theorem gone_run (run : List (ShaperTurn κ)) :
    gone (trace (step lim) handed (new bucket pool) run) =
      popped (trace (step lim) act (new bucket pool) run) ++
        (exec (step lim) (new bucket pool) run).inHand := by
  induction run using List.reverseRecOn with
  | nil => rfl
  | append_singleton run turn ih =>
    -- the last step sends a frame, acts on the result of a send, or does neither
    rw [trace_concat, trace_concat, gone_concat, popped_concat, ih, List.append_assoc,
      inHand_step lim, exec_append, List.append_assoc]
    rfl

theorem counted_run (run : List (ShaperTurn κ)) :
    (exec (step lim) (new bucket pool) run).shaper.tel.normalTxComplete +
        .ofNat (exec (step lim) (new bucket pool) run).uncounted =
      .ofNat (successes (trace (step lim) handed (new bucket pool) run)) := by
  induction run using List.reverseRecOn with
  | nil => rfl
  | append_singleton run turn ih =>
    rw [trace_concat, exec_append, successes, List.countP_append, UInt64.ofNat_add]
    exact (counted_step lim _ turn).trans (congrArg (· + UInt64.ofNat (successes _)) ih)

/-- For any interleaving of offers and rate changes with the draining thread, any token
availability and any answers of the hardware: the frames sent without congestion, in order, and
then the frames left are the accepted frames; the frame of a send is the head of the queue and
stays there when congested; and each offer and each success is counted once, modulo `2 ^ 64`. A
frame whose result is not yet acted on is in hand: it is sent, but still queued and uncounted. -/
theorem shaper_conserves (run : List (ShaperTurn κ)) :
    let acts := trace (step lim) act (new bucket pool) run
    let sends := trace (step lim) handed (new bucket pool) run
    let s := exec (step lim) (new bucket pool) run
    (∃ left, pushed acts = gone sends ++ left ∧ s.packets = s.inHand ++ left) ∧
      (∀ copy res, s.drain = .sent copy res → s.packets.head? = some copy.view) ∧
      (∀ copy clock res, s.drain = .sent copy .congested →
        (step lim s (.drain clock res)).packets = s.packets) ∧
      (∀ pkt, Shaper.Offered s.shaper (step lim s (.enqueue pkt)).shaper pkt) ∧
      (∀ turn, (∀ pkt, turn ≠ .enqueue pkt) →
        (step lim s turn).shaper.tel.drops = s.shaper.tel.drops) ∧
      s.shaper.tel.normalTxComplete + .ofNat s.uncounted = .ofNat (successes sends) := by
  intro acts sends s
  obtain ⟨hok, hevery, hqueue⟩ := simulation packets (simulates lim)
    (show Ok (new bucket pool) from trivial) run
  have hcons : pushed acts = popped acts ++ s.packets := by
    have h := conservation hevery
    rw [← hqueue] at h
    exact h
  have hgone : gone sends = popped acts ++ s.inHand := gone_run lim bucket pool run
  obtain ⟨left, hleft⟩ := inHand_isPrefix hok
  refine ⟨⟨left, ?_, hleft.symm⟩, ?_, ?_, ?_, ?_, counted_run lim bucket pool run⟩
  · rw [hgone, hcons, ← hleft, List.append_assoc]
  · intro copy res hpc
    have h : Ok s := hok
    unfold Ok at h
    rw [hpc] at h
    exact h
  · intro copy clock res hpc
    rw [(simulates lim s (.drain clock res) hok).2.2, act, hpc]
    rfl
  · exact fun pkt => s.shaper.enqueueNormal_offered pkt
  · exact fun turn hturn => drops_step lim s hturn

end Runs
end Draining
end Hpgtp
