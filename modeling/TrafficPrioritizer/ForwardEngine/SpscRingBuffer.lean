import TrafficPrioritizer.Lib.BoundedFifo
import TrafficPrioritizer.Lib.Ring

/-! The lock-free ring between a worker's RX thread and its processing thread.
`push` and `pop` are cut into their atomic steps; the indices wrap, and one cell
is kept free so that equal indices mean an empty ring. -/

namespace Hpgtp
open LabelledRun BoundedFifo Function
variable {T : Type*} {N : ℕ}

structure SpscRingBuffer (T : Type*) (N : ℕ) where
  buffer : Fin N → T
  head : Fin N
  tail : Fin N

inductive PushPc (T : Type*) (N : ℕ) where
  | idle
  | tailLoaded (item : T) (currentTail : Fin N)
  | hasRoom (item : T) (currentTail : Fin N)
  | slotWritten (item : T) (currentTail : Fin N)

inductive PopPc (T : Type*) (N : ℕ) where
  | idle
  | headLoaded (currentHead : Fin N)
  | nonEmpty (currentHead : Fin N)
  | itemRead (currentHead : Fin N) (item : T)

structure Spsc (T : Type*) (N : ℕ) where
  ring : SpscRingBuffer T N
  push : PushPc T N
  pop : PopPc T N

inductive Turn (T : Type*) where
  | producer (item : T)
  | consumer

namespace SpscRingBuffer

def queue (r : SpscRingBuffer T N) : List (Fin N × T) :=
  Ring.items r.buffer r.head (Ring.distance r.head r.tail)

theorem length_queue (r : SpscRingBuffer T N) :
    r.queue.length = Ring.distance r.head r.tail := Ring.length_items ..

theorem queue_eq_nil {r : SpscRingBuffer T N} : r.queue = [] ↔ r.head = r.tail := by
  rw [← List.length_eq_zero_iff, length_queue, Ring.distance_eq_zero]

theorem queue_store_head {r : SpscRingBuffer T N} (h : r.head ≠ r.tail) :
    r.queue = (r.head, r.buffer r.head) ::
      ({ r with head := Ring.advance r.head 1 } : SpscRingBuffer T N).queue := by
  rw [queue, ← Ring.distance_advance_left h, Ring.items]
  rfl

theorem tail_notMem_queue (r : SpscRingBuffer T N) : r.tail ∉ r.queue.map Prod.fst := by
  have h := Ring.advance_notMem_items r.buffer r.head (Ring.distance_lt r.head r.tail)
  rwa [Ring.advance_distance] at h

theorem queue_store_tail {r : SpscRingBuffer T N} (h : Ring.advance r.tail 1 ≠ r.head) :
    ({ r with tail := Ring.advance r.tail 1 } : SpscRingBuffer T N).queue =
      r.queue ++ [(r.tail, r.buffer r.tail)] := by
  show Ring.items r.buffer r.head (Ring.distance r.head (Ring.advance r.tail 1)) = _
  rw [Ring.distance_advance_right h, Ring.items_snoc, Ring.advance_distance]
  rfl

end SpscRingBuffer

namespace Spsc

def init [NeZero N] (buffer : Fin N → T) : Spsc T N := ⟨⟨buffer, 0, 0⟩, .idle, .idle⟩

def step (s : Spsc T N) : Turn T → Spsc T N
  | .producer x =>
    match s.push with
    | .idle => { s with push := .tailLoaded x s.ring.tail }
    | .tailLoaded item t =>
      if Ring.advance t 1 = s.ring.head then { s with push := .idle }
      else { s with push := .hasRoom item t }
    | .hasRoom item t =>
      { s with ring := { s.ring with buffer := update s.ring.buffer t item },
               push := .slotWritten item t }
    | .slotWritten _ t =>
      { s with ring := { s.ring with tail := Ring.advance t 1 }, push := .idle }
  | .consumer =>
    match s.pop with
    | .idle => { s with pop := .headLoaded s.ring.head }
    | .headLoaded h =>
      if h = s.ring.tail then { s with pop := .idle } else { s with pop := .nonEmpty h }
    | .nonEmpty h => { s with pop := .itemRead h (s.ring.buffer h) }
    | .itemRead h _ =>
      { s with ring := { s.ring with head := Ring.advance h 1 }, pop := .idle }

/-- What a step means to the callers: a push is accepted when it stores the tail and refused when
it loads the head; a pop returns its item when it stores the head and finds nothing when it loads
the tail. Items come with the cell they were written to or read from. -/
def act (s : Spsc T N) : Turn T → Act (Fin N × T)
  | .producer _ =>
    match s.push with
    | .tailLoaded _ t => if Ring.advance t 1 = s.ring.head then .refuse else .stay
    | .slotWritten item t => .push (t, item)
    | _ => .stay
  | .consumer =>
    match s.pop with
    | .headLoaded h => if h = s.ring.tail then .empty else .stay
    | .itemRead h item => .pop (h, item)
    | _ => .stay

-- The locals of a call in progress. The other side's index may have moved since it was read,
-- but only away: the room a push has seen and the item a pop has seen are still there.
def PushOk (r : SpscRingBuffer T N) : PushPc T N → Prop
  | .idle => True
  | .tailLoaded _ t => t = r.tail
  | .hasRoom _ t => t = r.tail ∧ Ring.advance t 1 ≠ r.head
  | .slotWritten item t => t = r.tail ∧ Ring.advance t 1 ≠ r.head ∧ r.buffer t = item

def PopOk (r : SpscRingBuffer T N) : PopPc T N → Prop
  | .idle => True
  | .headLoaded h => h = r.head
  | .nonEmpty h => h = r.head ∧ h ≠ r.tail
  | .itemRead h item => h = r.head ∧ h ≠ r.tail ∧ r.buffer h = item

structure Ok (s : Spsc T N) : Prop where
  push : PushOk s.ring s.push
  pop : PopOk s.ring s.pop

theorem PopOk.write {r : SpscRingBuffer T N} {pc : PopPc T N} (h : PopOk r pc) (x : T) :
    PopOk { r with buffer := update r.buffer r.tail x } pc := by
  cases pc with
  | idle => trivial
  | headLoaded i => exact h
  | nonEmpty i => exact h
  | itemRead i item =>
    obtain ⟨hhead, hne, hitem⟩ := h
    exact ⟨hhead, hne, (update_of_ne hne _ _).trans hitem⟩

theorem PopOk.storeTail {r : SpscRingBuffer T N} {pc : PopPc T N} (h : PopOk r pc)
    (hroom : Ring.advance r.tail 1 ≠ r.head) :
    PopOk { r with tail := Ring.advance r.tail 1 } pc := by
  cases pc with
  | idle => trivial
  | headLoaded i => exact h
  | nonEmpty i => exact ⟨h.1, h.1 ▸ hroom.symm⟩
  | itemRead i item => exact ⟨h.1, h.1 ▸ hroom.symm, h.2.2⟩

theorem PushOk.storeHead {r : SpscRingBuffer T N} {pc : PushPc T N} (h : PushOk r pc)
    (hne : r.head ≠ r.tail) : PushOk { r with head := Ring.advance r.head 1 } pc := by
  -- the ring would have to hold one item more than it has cells
  have hroom : Ring.advance r.tail 1 ≠ Ring.advance r.head 1 := by
    intro heq
    have hd := Ring.distance_advance_left hne
    rw [Ring.advance_one_eq_iff] at heq
    have := Ring.distance_lt r.head r.tail
    omega
  cases pc with
  | idle => trivial
  | tailLoaded item t => exact h
  | hasRoom item t => exact ⟨h.1, h.1 ▸ hroom⟩
  | slotWritten item t => exact ⟨h.1, h.1 ▸ hroom, h.2.2⟩

theorem producer_simulates (s : Spsc T N) (x : T) (hs : Ok s) :
    Ok (step s (.producer x)) ∧ Allowed (N - 1) s.ring.queue (act s (.producer x)) ∧
      (step s (.producer x)).ring.queue = next s.ring.queue (act s (.producer x)) := by
  obtain ⟨r, push, pop⟩ := s
  obtain ⟨(hpush : PushOk r push), (hpop : PopOk r pop)⟩ := hs
  cases push with
  | idle => exact ⟨⟨rfl, hpop⟩, trivial, rfl⟩
  | tailLoaded item t =>
    obtain rfl : t = r.tail := hpush
    by_cases hfull : Ring.advance r.tail 1 = r.head
    · simp only [step, act, if_pos hfull]
      refine ⟨⟨trivial, hpop⟩, ?_, rfl⟩
      have := Ring.advance_one_eq_iff.mp hfull
      show r.queue.length = N - 1
      rw [r.length_queue]
      omega
    · simp only [step, act, if_neg hfull]
      exact ⟨⟨⟨rfl, hfull⟩, hpop⟩, trivial, rfl⟩
  | hasRoom item t =>
    obtain ⟨rfl, hroom⟩ := hpush
    -- the cell at the tail is outside the queue until the tail is stored
    refine ⟨⟨⟨rfl, hroom, update_self ..⟩, PopOk.write hpop item⟩, trivial, ?_⟩
    exact Ring.items_update r.tail_notMem_queue
  | slotWritten item t =>
    obtain ⟨rfl, hroom, rfl⟩ := hpush
    refine ⟨⟨trivial, PopOk.storeTail hpop hroom⟩, ?_, SpscRingBuffer.queue_store_tail hroom⟩
    have hne := mt Ring.advance_one_eq_iff.mpr hroom
    have := Ring.distance_lt r.head r.tail
    show r.queue.length < N - 1
    rw [r.length_queue]
    omega

theorem consumer_simulates (s : Spsc T N) (hs : Ok s) :
    Ok (step s .consumer) ∧ Allowed (N - 1) s.ring.queue (act s .consumer) ∧
      (step s .consumer).ring.queue = next s.ring.queue (act s .consumer) := by
  obtain ⟨r, push, pop⟩ := s
  obtain ⟨(hpush : PushOk r push), (hpop : PopOk r pop)⟩ := hs
  cases pop with
  | idle => exact ⟨⟨hpush, rfl⟩, trivial, rfl⟩
  | headLoaded h =>
    obtain rfl : h = r.head := hpop
    by_cases hempty : r.head = r.tail
    · simp only [step, act, if_pos hempty]
      exact ⟨⟨hpush, trivial⟩, SpscRingBuffer.queue_eq_nil.mpr hempty, rfl⟩
    · simp only [step, act, if_neg hempty]
      exact ⟨⟨hpush, rfl, hempty⟩, trivial, rfl⟩
  | nonEmpty h =>
    exact ⟨⟨hpush, hpop.1, hpop.2, rfl⟩, trivial, rfl⟩
  | itemRead h item =>
    obtain ⟨rfl, hne, rfl⟩ := hpop
    have hq := SpscRingBuffer.queue_store_head hne
    refine ⟨⟨PushOk.storeHead hpush hne, trivial⟩, ?_, ?_⟩
    · show r.queue.head? = some (r.head, r.buffer r.head)
      rw [hq, List.head?_cons]
    · exact (congrArg List.tail hq).symm

theorem simulates (s : Spsc T N) (turn : Turn T) (hs : Ok s) :
    Ok (step s turn) ∧ Allowed (N - 1) s.ring.queue (act s turn) ∧
      (step s turn).ring.queue = next s.ring.queue (act s turn) := by
  cases turn with
  | producer x => exact producer_simulates s x hs
  | consumer => exact consumer_simulates s hs

theorem init_ok [NeZero N] (buffer : Fin N → T) : Ok (init buffer) := ⟨trivial, trivial⟩

theorem init_queue [NeZero N] (buffer : Fin N → T) : (init buffer).ring.queue = [] :=
  SpscRingBuffer.queue_eq_nil.mpr rfl

/-- For every capacity and every interleaving of the two sides' atomic steps the ring is a bounded
FIFO of `N - 1` items: what is popped is a prefix of what was accepted, a push is refused only
while `N - 1` accepted items are unconsumed, and the cell a push writes to holds none of them. -/
theorem spsc_refines_bounded_fifo [NeZero N] (buffer : Fin N → T) (run : List (Turn T)) :
    let acts := trace step act (init buffer) run
    let s := exec step (init buffer) run
    Every next (Allowed (N - 1)) [] acts ∧ popped acts <+: pushed acts ∧
      (∀ turn, act s turn = .refuse → (pushed acts).length = (popped acts).length + (N - 1)) ∧
      (∀ item t, s.push = .hasRoom item t →
        t ∉ ((pushed acts).drop (popped acts).length).map Prod.fst) := by
  intro acts s
  obtain ⟨hok, hevery, hqueue⟩ := simulation (fun s : Spsc T N => s.ring.queue)
    simulates (init_ok buffer) run
  rw [init_queue] at hevery hqueue
  have hpre : popped acts <+: pushed acts := popped_isPrefix hevery
  rw [queue_eq_drop hevery] at hqueue
  refine ⟨hevery, hpre, ?_, ?_⟩
  · intro turn hrefuse
    have hfull := (simulates s turn hok).2.1
    rw [hrefuse] at hfull
    have hlen : ((pushed acts).drop (popped acts).length).length = N - 1 := by
      rw [← hqueue]
      exact hfull
    rw [List.length_drop] at hlen
    have := hpre.length_le
    omega
  · intro item t hpc
    have hpush := hok.push
    rw [hpc] at hpush
    rw [← hqueue, hpush.1]
    exact s.ring.tail_notMem_queue

-- A ring of two cells refuses the second item while the first one waits.
theorem spsc_two_cells_refuse :
    let run := List.replicate 5 (Turn.producer 7)
    let acts := trace step act (init (N := 2) fun _ => 0) run
    act (exec step (init (N := 2) fun _ => 0) run) (.producer 7) = .refuse ∧
      (pushed acts).length = (popped acts).length + (2 - 1) :=
  ⟨rfl, (spsc_refines_bounded_fifo (N := 2) (fun _ => 0) _).2.2.1 (.producer 7) rfl⟩

end Spsc
end Hpgtp
