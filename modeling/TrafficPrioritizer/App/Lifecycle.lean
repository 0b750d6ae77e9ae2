import Mathlib.Algebra.BigOperators.Group.Finset.Basic
import Mathlib.Algebra.Order.BigOperators.Group.Finset
import TrafficPrioritizer.Lib.Run

/-! `Lifecycle` and the calls of `App::stop` and `App::wait_for_shutdown` by any number of threads.
The first `stop()` takes the planes down and wakes those that wait; the others return at once. A
condition variable gives the mutex up and falls asleep in one step. -/

namespace Hpgtp
open LabelledRun Function

inductive LifecyclePc where
  | beginStop
  | stopForwardEngine
  | stopControlPlane
  | lockComplete
  | storeComplete
  | unlockComplete
  | notifyAll
  | lockWait
  | testComplete
  | asleep
  | unlockWait
  | returned
  deriving DecidableEq

inductive Plane where
  | forwardEngine
  | controlPlane
  deriving DecidableEq

structure LifecycleState (ι : Type*) where
  pc : ι → LifecyclePc
  started : Bool
  complete : Bool
  mutex : Option ι
  stopped : List Plane

inductive LifecycleTurn (ι : Type*) where
  | thread (i : ι)
  | spurious (i : ι)

namespace LifecycleState
variable {ι : Type*} [DecidableEq ι]

/-- Each thread of `stoppers` is to call `stop()`, the others `wait_for_shutdown()`. -/
def init (stoppers : ι → Bool) : LifecycleState ι where
  pc i := if stoppers i then .beginStop else .lockWait
  started := false
  complete := false
  mutex := none
  stopped := []

def goto (s : LifecycleState ι) (i : ι) (pc : LifecyclePc) : LifecycleState ι :=
  { s with pc := update s.pc i pc }

def wake : LifecyclePc → LifecyclePc
  | .asleep => .lockWait
  | pc => pc

def threadStep (s : LifecycleState ι) (i : ι) : LifecycleState ι :=
  match s.pc i with
  | .beginStop =>
    { s.goto i (if s.started then .returned else .stopForwardEngine) with started := true }
  | .stopForwardEngine =>
    { s.goto i .stopControlPlane with stopped := s.stopped ++ [.forwardEngine] }
  | .stopControlPlane => { s.goto i .lockComplete with stopped := s.stopped ++ [.controlPlane] }
  | .lockComplete => if s.mutex.isNone then { s.goto i .storeComplete with mutex := some i } else s
  | .storeComplete => { s.goto i .unlockComplete with complete := true }
  | .unlockComplete => { s.goto i .notifyAll with mutex := none }
  | .notifyAll => { s with pc := update (fun j => wake (s.pc j)) i .returned }
  | .lockWait => if s.mutex.isNone then { s.goto i .testComplete with mutex := some i } else s
  | .testComplete =>
    if s.complete then s.goto i .unlockWait else { s.goto i .asleep with mutex := none }
  | .asleep => s
  | .unlockWait => { s.goto i .returned with mutex := none }
  | .returned => s

def step (s : LifecycleState ι) : LifecycleTurn ι → LifecycleState ι
  | .thread i => s.threadStep i
  | .spurious i => s.goto i (wake (s.pc i))

end LifecycleState

/-! ## One thread takes the planes down -/

inductive TeardownStage where
  | stopForwardEngine
  | stopControlPlane
  | lockComplete
  | storeComplete
  | unlockComplete
  | notifyAll
  deriving DecidableEq

inductive Teardown (ι : Type*) where
  | idle
  | underWay (i : ι) (stage : TeardownStage)
  | done

namespace LifecyclePc

def stage : LifecyclePc → Option TeardownStage
  | .stopForwardEngine => some .stopForwardEngine
  | .stopControlPlane => some .stopControlPlane
  | .lockComplete => some .lockComplete
  | .storeComplete => some .storeComplete
  | .unlockComplete => some .unlockComplete
  | .notifyAll => some .notifyAll
  | _ => none

def holdsMutex : LifecyclePc → Bool
  | .storeComplete | .unlockComplete | .testComplete | .unlockWait => true
  | _ => false

def waits : LifecyclePc → Bool
  | .lockWait | .testComplete | .asleep | .unlockWait => true
  | _ => false

end LifecyclePc

namespace Teardown
variable {ι : Type*} [DecidableEq ι]

def stageOf : Teardown ι → ι → Option TeardownStage
  | .underWay i stage, j => if j = i then some stage else none
  | _, _ => none

def started : Teardown ι → Bool
  | .idle => false
  | _ => true

def complete : Teardown ι → Bool
  | .underWay _ .unlockComplete | .underWay _ .notifyAll | .done => true
  | _ => false

def stopped : Teardown ι → List Plane
  | .idle | .underWay _ .stopForwardEngine => []
  | .underWay _ .stopControlPlane => [.forwardEngine]
  | _ => [.forwardEngine, .controlPlane]

theorem eq_underWay {t : Teardown ι} {i : ι} {stage : TeardownStage}
    (h : some stage = t.stageOf i) : t = .underWay i stage := by
  cases t with
  | underWay j st =>
    rw [stageOf] at h
    split_ifs at h with hi
    rw [hi, Option.some.inj h]
  | _ => cases h

theorem stageOf_underWay_of_ne {i j : ι} (h : j ≠ i) (stage : TeardownStage) :
    (underWay i stage).stageOf j = none := if_neg h

end Teardown

theorem mutex_other {ι : Type*} {i : ι} {m m' : Option ι} (hm : m = none ∨ m = some i)
    (hm' : m' = none ∨ m' = some i) (j : ι) (hj : j ≠ i) : m' = some j ↔ m = some j := by
  rcases hm with rfl | rfl <;> rcases hm' with rfl | rfl <;> simp [hj.symm]

namespace LifecycleState
variable {ι : Type*} [DecidableEq ι] {stoppers : ι → Bool}

structure Local (stoppers : ι → Bool) (t : Teardown ι) (mutex : Option ι) (j : ι)
    (pc : LifecyclePc) : Prop where
  stage : pc.stage = t.stageOf j
  mutex : pc.holdsMutex = true ↔ mutex = some j
  awake : t = .done → pc ≠ .asleep
  tested : pc = .unlockWait → t.complete = true
  waiter : stoppers j = false → pc.waits = true ∨ pc = .returned ∧ t.complete = true
  stopper : stoppers j = true → pc.waits = false ∧ (pc = .returned → t.started = true)

structure Inv (stoppers : ι → Bool) (t : Teardown ι) (s : LifecycleState ι) : Prop where
  started : s.started = t.started
  complete : s.complete = t.complete
  stopped : s.stopped = t.stopped
  threads : ∀ j, Local stoppers t s.mutex j (s.pc j)

section
variable {t t' : Teardown ι} {m m' : Option ι} {i j : ι} {pc : LifecyclePc} {s : LifecycleState ι}

theorem Local.frame (h : Local stoppers t m j pc) (hstage : t'.stageOf j = t.stageOf j)
    (hmutex : m' = some j ↔ m = some j) (hawake : t' = .done → pc ≠ .asleep)
    (hcomplete : t.complete = true → t'.complete = true)
    (hstarted : t.started = true → t'.started = true) : Local stoppers t' m' j pc where
  stage := h.stage.trans hstage.symm
  mutex := h.mutex.trans hmutex.symm
  awake := hawake
  tested := fun hpc => hcomplete (h.tested hpc)
  waiter := fun hj => (h.waiter hj).imp id fun hreturned => ⟨hreturned.1, hcomplete hreturned.2⟩
  stopper := fun hj => ⟨(h.stopper hj).1, fun hpc => hstarted ((h.stopper hj).2 hpc)⟩

theorem Inv.init (stoppers : ι → Bool) : Inv stoppers .idle (init stoppers) := by
  refine ⟨rfl, rfl, rfl, fun j => ?_⟩
  show Local stoppers .idle none j (if stoppers j then .beginStop else .lockWait)
  cases hj : stoppers j <;> constructor <;>
    simp [hj, LifecyclePc.stage, LifecyclePc.holdsMutex, LifecyclePc.waits, Teardown.stageOf]

theorem Inv.goto {s' : LifecycleState ι} {pc' : LifecyclePc} (h : Inv stoppers t s)
    (hpc : s'.pc = update s.pc i pc') (hstarted : s'.started = t'.started)
    (hcomplete : s'.complete = t'.complete) (hstopped : s'.stopped = t'.stopped)
    (hi : Local stoppers t' s'.mutex i pc') (hstage : ∀ j, j ≠ i → t'.stageOf j = t.stageOf j)
    (hmutex : ∀ j, j ≠ i → (s'.mutex = some j ↔ s.mutex = some j))
    (hdone : t' = .done → t = .done) (hc : t.complete = true → t'.complete = true)
    (hst : t.started = true → t'.started = true) : Inv stoppers t' s' := by
  refine ⟨hstarted, hcomplete, hstopped, fun j => ?_⟩
  rw [hpc]
  by_cases hj : j = i
  · subst hj
    rw [update_self]
    exact hi
  · rw [update_of_ne hj]
    have hlocal := h.threads j
    exact hlocal.frame (hstage j hj) (hmutex j hj) (fun hd => hlocal.awake (hdone hd)) hc hst

theorem Inv.is_stopper (h : Inv stoppers t s) (hwaits : (s.pc i).waits = false)
    (hpc : s.pc i ≠ .returned) : stoppers i = true := by
  by_contra hi
  rcases (h.threads i).waiter (Bool.eq_false_iff.mpr hi) with hw | hr
  · rw [hwaits] at hw
    cases hw
  · exact hpc hr.1

theorem Inv.beginStop (h : Inv stoppers t s) (hpc : s.pc i = .beginStop) :
    ∃ t', Inv stoppers t' (s.threadStep i) := by
  have hstopper := h.is_stopper (i := i) (by rw [hpc]; rfl) (by rw [hpc]; decide)
  have hi := h.threads i
  rw [hpc] at hi
  have hmutex : s.mutex ≠ some i := fun hm => by
    have hholds := hi.mutex.mpr hm
    cases hholds
  rw [threadStep, hpc]
  cases hs : s.started with
  | true =>
    have ht : t.started = true := h.started ▸ hs
    refine ⟨t, h.goto rfl ht.symm h.complete h.stopped ?_ (fun _ _ => rfl) (fun _ _ => Iff.rfl)
      id id id⟩
    constructor <;>
      simp [hstopper, hmutex, ht, ← hi.stage, LifecyclePc.stage, LifecyclePc.holdsMutex,
        LifecyclePc.waits, LifecycleState.goto]
  | false =>
    obtain rfl : t = .idle := by
      have ht : t.started = false := h.started ▸ hs
      cases t with
      | idle => rfl
      | _ => cases ht
    refine ⟨.underWay i .stopForwardEngine, h.goto rfl rfl h.complete h.stopped ?_
      (fun j hj => if_neg hj) (fun _ _ => Iff.rfl) (by simp) (by simp [Teardown.complete])
      (by simp [Teardown.started])⟩
    constructor <;>
      simp [hstopper, hmutex, LifecyclePc.stage, LifecyclePc.holdsMutex, LifecyclePc.waits,
        LifecycleState.goto, Teardown.stageOf]

theorem Inv.advance {stage stage' : TeardownStage} {s' : LifecycleState ι} {pc' : LifecyclePc}
    (h : Inv stoppers (.underWay i stage) s) (hstopper : stoppers i = true)
    (hpc : s'.pc = update s.pc i pc') (hstage : pc'.stage = some stage')
    (hwaits : pc'.waits = false) (hstarted : s'.started = s.started)
    (hcomplete : s'.complete = (Teardown.underWay i stage').complete)
    (hstopped : s'.stopped = (Teardown.underWay i stage').stopped)
    (hi : pc'.holdsMutex = true ↔ s'.mutex = some i)
    (hmutex : ∀ j, j ≠ i → (s'.mutex = some j ↔ s.mutex = some j))
    (hc : (Teardown.underWay i stage).complete = true →
      (Teardown.underWay i stage').complete = true) :
    Inv stoppers (.underWay i stage') s' := by
  have hlocal : Local stoppers (.underWay i stage') s'.mutex i pc' := by
    refine ⟨?_, hi, by simp, ?_, by simp [hstopper], fun _ => ⟨hwaits, fun _ => rfl⟩⟩
    · rw [hstage, Teardown.stageOf, if_pos rfl]
    · rintro rfl
      cases hstage
  refine h.goto hpc (hstarted.trans h.started) hcomplete hstopped hlocal (fun j hj => ?_) hmutex
    (by simp) hc id
  rw [Teardown.stageOf_underWay_of_ne hj, Teardown.stageOf_underWay_of_ne hj]

theorem Local.wake (h : Local stoppers t m j pc) :
    Local stoppers t m j (wake pc) ∧ wake pc ≠ .asleep := by
  cases pc with
  | asleep =>
    refine ⟨⟨h.stage, h.mutex, by simp [LifecycleState.wake], by simp [LifecycleState.wake],
      fun _ => .inl rfl, fun hj => ?_⟩, by simp [LifecycleState.wake]⟩
    have hwaits := (h.stopper hj).1
    cases hwaits
  | _ => exact ⟨h, by simp [LifecycleState.wake]⟩

theorem Inv.teardown (h : Inv stoppers t s) (hstage : (s.pc i).stage ≠ none) :
    ∃ t', Inv stoppers t' (s.threadStep i) := by
  have hstopper : stoppers i = true := by
    refine h.is_stopper (i := i) ?_ fun hpc => hstage (by rw [hpc]; rfl)
    cases hpc : s.pc i <;> rw [hpc] at hstage <;> first | rfl | exact absurd rfl hstage
  have hi := h.threads i
  cases hpc : s.pc i with
  | stopForwardEngine =>
    have hstep : s.threadStep i =
        { s.goto i .stopControlPlane with stopped := s.stopped ++ [.forwardEngine] } := by
      rw [threadStep, hpc]
    rw [hpc] at hi
    obtain rfl := Teardown.eq_underWay hi.stage
    rw [hstep]
    exact ⟨_, h.advance hstopper rfl rfl rfl rfl h.complete (by rw [h.stopped]; rfl) hi.mutex
      (fun _ _ => Iff.rfl) id⟩
  | stopControlPlane =>
    have hstep : s.threadStep i =
        { s.goto i .lockComplete with stopped := s.stopped ++ [.controlPlane] } := by
      rw [threadStep, hpc]
    rw [hpc] at hi
    obtain rfl := Teardown.eq_underWay hi.stage
    rw [hstep]
    exact ⟨_, h.advance hstopper rfl rfl rfl rfl h.complete (by rw [h.stopped]; rfl) hi.mutex
      (fun _ _ => Iff.rfl) id⟩
  | lockComplete =>
    rw [hpc] at hi
    obtain rfl := Teardown.eq_underWay hi.stage
    by_cases hm : s.mutex = none
    · have hstep : s.threadStep i = { s.goto i .storeComplete with mutex := some i } := by
        rw [threadStep, hpc, hm]
        rfl
      rw [hstep]
      exact ⟨_, h.advance hstopper rfl rfl rfl rfl h.complete h.stopped (iff_of_true rfl rfl)
        (mutex_other (.inl hm) (.inr rfl)) id⟩
    · have hstep : s.threadStep i = s := by
        obtain ⟨k, hk⟩ := Option.ne_none_iff_exists'.mp hm
        rw [threadStep, hpc, hk]
        rfl
      rw [hstep]
      exact ⟨_, h⟩
  | storeComplete =>
    have hstep : s.threadStep i = { s.goto i .unlockComplete with complete := true } := by
      rw [threadStep, hpc]
    rw [hpc] at hi
    obtain rfl := Teardown.eq_underWay hi.stage
    rw [hstep]
    exact ⟨_, h.advance hstopper rfl rfl rfl rfl rfl h.stopped hi.mutex (fun _ _ => Iff.rfl)
      (fun _ => rfl)⟩
  | unlockComplete =>
    have hstep : s.threadStep i = { s.goto i .notifyAll with mutex := none } := by
      rw [threadStep, hpc]
    rw [hpc] at hi
    obtain rfl := Teardown.eq_underWay hi.stage
    rw [hstep]
    exact ⟨_, h.advance hstopper rfl rfl rfl rfl h.complete h.stopped
      (by simp [LifecyclePc.holdsMutex]) (mutex_other (.inr (hi.mutex.mp rfl)) (.inl rfl)) id⟩
  | notifyAll =>
    have hstep : s.threadStep i =
        { s with pc := update (fun j => LifecycleState.wake (s.pc j)) i .returned } := by
      rw [threadStep, hpc]
    rw [hpc] at hi
    obtain rfl := Teardown.eq_underWay hi.stage
    rw [hstep]
    refine ⟨.done, h.started, h.complete, h.stopped, fun j => ?_⟩
    by_cases hj : j = i
    · subst hj
      dsimp only
      rw [update_self]
      exact ⟨rfl, hi.mutex, by simp, by simp, by simp [hstopper], fun _ => ⟨rfl, fun _ => rfl⟩⟩
    · dsimp only
      rw [update_of_ne hj]
      obtain ⟨hlocal, hawake⟩ := (h.threads j).wake
      exact hlocal.frame (Teardown.stageOf_underWay_of_ne hj _).symm Iff.rfl (fun _ => hawake) id id
  | _ => exact absurd (by rw [hpc]; rfl) hstage

theorem Inv.goto_wait {s' : LifecycleState ι} {pc' : LifecyclePc} (h : Inv stoppers t s)
    (hwaits : (s.pc i).waits = true) (hpc : s'.pc = update s.pc i pc')
    (hstarted : s'.started = s.started) (hcomplete : s'.complete = s.complete)
    (hstopped : s'.stopped = s.stopped) (hstage : pc'.stage = none)
    (hi : pc'.holdsMutex = true ↔ s'.mutex = some i)
    (hmutex : ∀ j, j ≠ i → (s'.mutex = some j ↔ s.mutex = some j))
    (hawake : t = .done → pc' ≠ .asleep) (htested : pc' = .unlockWait → t.complete = true)
    (hwaiter : pc'.waits = true ∨ pc' = .returned ∧ t.complete = true) :
    Inv stoppers t s' := by
  have hlocal := h.threads i
  have hnone : t.stageOf i = none := by
    rw [← hlocal.stage]
    cases hold : s.pc i <;> rw [hold] at hwaits <;> first | rfl | cases hwaits
  refine h.goto hpc (hstarted.trans h.started) (hcomplete.trans h.complete)
    (hstopped.trans h.stopped) ?_ (fun _ _ => rfl) hmutex id id id
  refine ⟨hstage.trans hnone.symm, hi, hawake, htested, fun _ => hwaiter, fun hj => ?_⟩
  have hcalls := (hlocal.stopper hj).1
  rw [hwaits] at hcalls
  cases hcalls

theorem Inv.waiting (h : Inv stoppers t s) (hwaits : (s.pc i).waits = true) :
    Inv stoppers t (s.threadStep i) := by
  have hi := h.threads i
  cases hpc : s.pc i with
  | lockWait =>
    by_cases hm : s.mutex = none
    · have hstep : s.threadStep i = { s.goto i .testComplete with mutex := some i } := by
        rw [threadStep, hpc, hm]
        rfl
      rw [hstep]
      exact h.goto_wait hwaits rfl rfl rfl rfl rfl (iff_of_true rfl rfl)
        (mutex_other (.inl hm) (.inr rfl)) (by simp) (by simp) (.inl rfl)
    · have hstep : s.threadStep i = s := by
        obtain ⟨k, hk⟩ := Option.ne_none_iff_exists'.mp hm
        rw [threadStep, hpc, hk]
        rfl
      rwa [hstep]
  | testComplete =>
    have hm : s.mutex = some i := hi.mutex.mp (by rw [hpc]; rfl)
    cases hc : s.complete with
    | true =>
      have hstep : s.threadStep i = s.goto i .unlockWait := by
        rw [threadStep, hpc, hc]
        rfl
      rw [hstep]
      exact h.goto_wait hwaits rfl rfl rfl rfl rfl (iff_of_true rfl hm) (fun _ _ => Iff.rfl)
        (by simp) (fun _ => h.complete ▸ hc) (.inl rfl)
    | false =>
      have hstep : s.threadStep i = { s.goto i .asleep with mutex := none } := by
        rw [threadStep, hpc, hc]
        rfl
      rw [hstep]
      -- nobody falls asleep once the teardown is done
      refine h.goto_wait hwaits rfl rfl rfl rfl rfl (by simp [LifecyclePc.holdsMutex])
        (mutex_other (.inr hm) (.inl rfl)) (fun hdone => ?_) (by simp) (.inl rfl)
      have htrue := h.complete
      rw [hc, hdone] at htrue
      cases htrue
  | asleep =>
    have hstep : s.threadStep i = s := by rw [threadStep, hpc]
    rwa [hstep]
  | unlockWait =>
    have hm : s.mutex = some i := hi.mutex.mp (by rw [hpc]; rfl)
    have hstep : s.threadStep i = { s.goto i .returned with mutex := none } := by
      rw [threadStep, hpc]
    rw [hstep]
    exact h.goto_wait hwaits rfl rfl rfl rfl rfl (by simp [LifecyclePc.holdsMutex])
      (mutex_other (.inr hm) (.inl rfl)) (by simp) (by simp) (.inr ⟨rfl, hi.tested hpc⟩)
  | _ =>
    rw [hpc] at hwaits
    cases hwaits

theorem Inv.step (h : Inv stoppers t s) (turn : LifecycleTurn ι) :
    ∃ t', Inv stoppers t' (s.step turn) := by
  cases turn with
  | spurious i =>
    refine ⟨t, h.goto rfl h.started h.complete h.stopped (h.threads i).wake.1 (fun _ _ => rfl)
      (fun _ _ => Iff.rfl) id id id⟩
  | thread i =>
    by_cases hwaits : (s.pc i).waits = true
    · exact ⟨t, h.waiting hwaits⟩
    by_cases hstage : (s.pc i).stage = none
    · cases hpc : s.pc i with
      | beginStop => exact h.beginStop hpc
      | returned =>
        have hstep : s.step (.thread i) = s := by rw [LifecycleState.step, threadStep, hpc]
        exact ⟨t, by rwa [hstep]⟩
      | _ =>
        rw [hpc] at hwaits hstage
        first | exact absurd rfl hwaits | cases hstage
    · exact h.teardown hstage

theorem inv_run (stoppers : ι → Bool) (turns : List (LifecycleTurn ι)) :
    ∃ t, Inv stoppers t (exec LifecycleState.step (LifecycleState.init stoppers) turns) :=
  invariant (I := fun s => ∃ t, Inv stoppers t s)
    (fun _ turn h => h.elim fun _ h => h.step turn) turns ⟨_, Inv.init stoppers⟩

/-! ## Nobody is left waiting -/

def moves (s : LifecycleState ι) : LifecycleTurn ι → Bool
  | .thread i => (s.threadStep i).pc i ≠ s.pc i
  | .spurious _ => false

theorem moves_of_pc (hlock : s.pc i ≠ .lockComplete) (hwait : s.pc i ≠ .lockWait)
    (hasleep : s.pc i ≠ .asleep) (hreturned : s.pc i ≠ .returned) :
    s.moves (.thread i) = true := by
  rw [moves, decide_eq_true_eq, threadStep]
  cases hpc : s.pc i with
  | beginStop => cases hs : s.started <;> simp [LifecycleState.goto]
  | testComplete => cases hc : s.complete <;> simp [LifecycleState.goto]
  | lockComplete => exact absurd hpc hlock
  | lockWait => exact absurd hpc hwait
  | asleep => exact absurd hpc hasleep
  | returned => exact absurd hpc hreturned
  | _ => simp [LifecycleState.goto]

theorem moves_of_mutex (hpc : s.pc i = .lockComplete ∨ s.pc i = .lockWait)
    (hm : s.mutex = none) : s.moves (.thread i) = true := by
  rw [moves, decide_eq_true_eq, threadStep]
  rcases hpc with hpc | hpc <;> simp [hpc, hm, LifecycleState.goto]

theorem Inv.rest_of_stuck (h : Inv stoppers t s) (hstuck : ∀ i, s.moves (.thread i) = false)
    (i : ι) : s.pc i = .asleep ∨ s.pc i = .returned := by
  have hmutex : s.mutex = none := by
    by_contra hm
    obtain ⟨j, hj⟩ := Option.ne_none_iff_exists'.mp hm
    have hholds := (h.threads j).mutex.mpr hj
    have hmoves : s.moves (.thread j) = true := by
      apply moves_of_pc <;> rintro hpc <;> rw [hpc] at hholds <;> cases hholds
    rw [hstuck j] at hmoves
    cases hmoves
  by_contra hnot
  rw [not_or] at hnot
  have hmoves : s.moves (.thread i) = true := by
    by_cases hpc : s.pc i = .lockComplete ∨ s.pc i = .lockWait
    · exact moves_of_mutex hpc hmutex
    · rw [not_or] at hpc
      exact moves_of_pc hpc.1 hpc.2 hnot.1 hnot.2
  rw [hstuck i] at hmoves
  cases hmoves

theorem Inv.done_of_stuck (h : Inv stoppers t s) {k : ι} (hk : stoppers k = true)
    (hstuck : ∀ i, s.moves (.thread i) = false) : t = .done := by
  have hlocal := h.threads k
  have hreturned : s.pc k = .returned := by
    refine (h.rest_of_stuck hstuck k).resolve_left fun hpc => ?_
    have hwaits := (hlocal.stopper hk).1
    rw [hpc] at hwaits
    cases hwaits
  have hstarted := (hlocal.stopper hk).2 hreturned
  cases t with
  | idle => cases hstarted
  | done => rfl
  | underWay j stage =>
    have hstage := (h.threads j).stage
    rw [Teardown.stageOf, if_pos rfl] at hstage
    rcases h.rest_of_stuck hstuck j with hpc | hpc <;> rw [hpc] at hstage <;> cases hstage

theorem Inv.returned_of_stuck (h : Inv stoppers t s) {k : ι} (hk : stoppers k = true)
    (hstuck : ∀ i, s.moves (.thread i) = false) (i : ι) : s.pc i = .returned :=
  (h.rest_of_stuck hstuck i).resolve_left ((h.threads i).awake (h.done_of_stuck hk hstuck))

end

/-! ## How long it takes -/

section
variable [Fintype ι] (s : LifecycleState ι)

/-- What a thread has still to do; the one that wakes the sleepers pays for them. -/
def weight (n : ℕ) : LifecyclePc → ℕ
  | .beginStop => 2 * n + 7
  | .stopForwardEngine => 2 * n + 6
  | .stopControlPlane => 2 * n + 5
  | .lockComplete => 2 * n + 4
  | .storeComplete => 2 * n + 3
  | .unlockComplete => 2 * n + 2
  | .notifyAll => 2 * n + 1
  | .lockWait => 3
  | .testComplete => 2
  | .asleep => 1
  | .unlockWait => 1
  | .returned => 0

def potential : ℕ := ∑ i, weight (Fintype.card ι) (s.pc i)

theorem potential_eq (i : ι) : s.potential = weight (Fintype.card ι) (s.pc i) +
    ∑ j ∈ Finset.univ.erase i, weight (Fintype.card ι) (s.pc j) :=
  (Finset.add_sum_erase _ _ (Finset.mem_univ i)).symm

variable {s}

theorem potential_goto {s' : LifecycleState ι} {i : ι} {pc' : LifecyclePc}
    (hpc : s'.pc = update s.pc i pc') : s'.potential + weight (Fintype.card ι) (s.pc i) =
      s.potential + weight (Fintype.card ι) pc' := by
  have hothers : ∑ j ∈ Finset.univ.erase i, weight (Fintype.card ι) (s'.pc j) =
      ∑ j ∈ Finset.univ.erase i, weight (Fintype.card ι) (s.pc j) := by
    refine Finset.sum_congr rfl fun j hj => ?_
    rw [hpc, update_of_ne (Finset.ne_of_mem_erase hj)]
  rw [s'.potential_eq i, s.potential_eq i, hothers, hpc, update_self]
  omega

theorem weight_wake_le (n : ℕ) (pc : LifecyclePc) : weight n (wake pc) ≤ weight n pc + 2 := by
  cases pc <;> simp [wake, weight]

theorem potential_notifyAll {i : ι} (hpc : s.pc i = .notifyAll) :
    (s.threadStep i).potential + 1 ≤ s.potential := by
  have hstep : (s.threadStep i).pc = update (fun j => wake (s.pc j)) i .returned := by
    rw [threadStep, hpc]
  have hothers : ∑ j ∈ Finset.univ.erase i, weight (Fintype.card ι) ((s.threadStep i).pc j) ≤
      ∑ j ∈ Finset.univ.erase i, (weight (Fintype.card ι) (s.pc j) + 2) := by
    refine Finset.sum_le_sum fun j hj => ?_
    rw [hstep, update_of_ne (Finset.ne_of_mem_erase hj)]
    exact weight_wake_le _ _
  rw [Finset.sum_add_distrib, Finset.sum_const_nat fun _ _ => rfl] at hothers
  have hcard : (Finset.univ.erase i).card ≤ Fintype.card ι := Finset.card_le_univ _
  have hpaid : weight (Fintype.card ι) .notifyAll = 2 * Fintype.card ι + 1 := rfl
  have hzero : weight (Fintype.card ι) .returned = 0 := rfl
  rw [(s.threadStep i).potential_eq i, s.potential_eq i, hpc, hpaid]
  nth_rewrite 1 [hstep]
  rw [update_self, hzero]
  omega

theorem potential_thread (i : ι) :
    (s.threadStep i).potential + (s.moves (.thread i)).toNat ≤ s.potential := by
  have hfalls (pc' : LifecyclePc) (hpc : (s.threadStep i).pc = update s.pc i pc')
      (hweight : weight (Fintype.card ι) pc' + 1 ≤ weight (Fintype.card ι) (s.pc i)) :
      (s.threadStep i).potential + (s.moves (.thread i)).toNat ≤ s.potential := by
    have hgoto := potential_goto hpc
    have hone := Bool.toNat_le (s.moves (.thread i))
    omega
  have hstays (hsame : s.threadStep i = s) :
      (s.threadStep i).potential + (s.moves (.thread i)).toNat ≤ s.potential := by
    rw [moves, hsame]
    simp
  cases hpc : s.pc i with
  | beginStop =>
    cases hs : s.started with
    | true =>
      exact hfalls .returned (by rw [threadStep, hpc, hs]; rfl) (by simp [hpc, weight])
    | false =>
      exact hfalls .stopForwardEngine (by rw [threadStep, hpc, hs]; rfl)
        (by simp [hpc, weight])
  | lockComplete =>
    cases hm : s.mutex with
    | none =>
      exact hfalls .storeComplete (by rw [threadStep, hpc, hm]; rfl)
        (by simp [hpc, weight])
    | some k => exact hstays (by rw [threadStep, hpc, hm]; rfl)
  | lockWait =>
    cases hm : s.mutex with
    | none =>
      exact hfalls .testComplete (by rw [threadStep, hpc, hm]; rfl)
        (by simp [hpc, weight])
    | some k => exact hstays (by rw [threadStep, hpc, hm]; rfl)
  | testComplete =>
    cases hc : s.complete with
    | true =>
      exact hfalls .unlockWait (by rw [threadStep, hpc, hc]; rfl) (by simp [hpc, weight])
    | false =>
      exact hfalls .asleep (by rw [threadStep, hpc, hc]; rfl) (by simp [hpc, weight])
  | notifyAll =>
    have hone := Bool.toNat_le (s.moves (.thread i))
    have hnotify := potential_notifyAll hpc
    omega
  | stopForwardEngine =>
    exact hfalls .stopControlPlane (by rw [threadStep, hpc]; rfl) (by simp [hpc, weight])
  | stopControlPlane =>
    exact hfalls .lockComplete (by rw [threadStep, hpc]; rfl) (by simp [hpc, weight])
  | storeComplete =>
    exact hfalls .unlockComplete (by rw [threadStep, hpc]; rfl) (by simp [hpc, weight])
  | unlockComplete =>
    exact hfalls .notifyAll (by rw [threadStep, hpc]; rfl) (by simp [hpc, weight])
  | unlockWait =>
    exact hfalls .returned (by rw [threadStep, hpc]; rfl) (by simp [hpc, weight])
  | asleep => exact hstays (by rw [threadStep, hpc])
  | returned => exact hstays (by rw [threadStep, hpc])

def isSpurious : LifecycleTurn ι → Bool
  | .spurious _ => true
  | .thread _ => false

theorem potential_step (s : LifecycleState ι) (turn : LifecycleTurn ι) :
    (s.step turn).potential + (s.moves turn).toNat ≤
      s.potential + 2 * (isSpurious turn).toNat := by
  cases turn with
  | thread i => exact potential_thread i
  | spurious i =>
    have hgoto : (s.step (.spurious i)).potential + weight (Fintype.card ι) (s.pc i) =
        s.potential + weight (Fintype.card ι) (wake (s.pc i)) := potential_goto rfl
    have hwake := weight_wake_le (Fintype.card ι) (s.pc i)
    show (s.step (.spurious i)).potential + 0 ≤ s.potential + 2 * 1
    omega

theorem potential_run (s : LifecycleState ι) (turns : List (LifecycleTurn ι)) :
    (exec step s turns).potential + (trace step moves s turns).count true ≤
      s.potential + 2 * turns.countP isSpurious := by
  induction turns generalizing s with
  | nil => exact Nat.le_refl _
  | cons turn turns ih =>
    have hstep := potential_step s turn
    have hrest := ih (s.step turn)
    have hmoves : (trace step moves s (turn :: turns)).count true =
        (trace step moves (s.step turn) turns).count true + (s.moves turn).toNat := by
      rw [trace, List.count_cons]
      cases s.moves turn <;> rfl
    have hspurious : (turn :: turns).countP isSpurious =
        turns.countP isSpurious + (isSpurious turn).toNat := by
      rw [List.countP_cons]
      cases isSpurious turn <;> rfl
    rw [exec_cons, hmoves, hspurious]
    omega

omit [DecidableEq ι] in
theorem potential_init_le (stoppers : ι → Bool) : (init stoppers).potential ≤
    Fintype.card ι * (2 * Fintype.card ι + 7) := by
  refine Finset.sum_le_card_nsmul _ _ _ fun i _ => ?_
  show weight _ (if stoppers i then .beginStop else .lockWait) ≤ _
  split_ifs <;> simp [weight]

end
end LifecycleState

/-! ## `App::stop` and `App::wait_for_shutdown` -/

open LifecycleState

section
variable {ι : Type*} [DecidableEq ι]

/-- However many threads call `stop()` and in whatever order, the forwarding engine is stopped at
most once and then the control plane at most once; `wait_for_shutdown()` returns in no thread
before both are, and once a thread calls `stop()` the threads come to rest only with both
stopped. -/
theorem shutdown_happens_once (stoppers : ι → Bool) (turns : List (LifecycleTurn ι)) :
    let s := exec step (init stoppers) turns
    s.stopped <+: [.forwardEngine, .controlPlane] ∧
      (∀ i, stoppers i = false → s.pc i = .returned →
        s.stopped = [.forwardEngine, .controlPlane]) ∧
      ((∀ i, s.moves (.thread i) = false) → (∃ i, stoppers i = true) →
        s.stopped = [.forwardEngine, .controlPlane]) := by
  intro s
  obtain ⟨t, h⟩ : ∃ t, Inv stoppers t s := inv_run stoppers turns
  rw [h.stopped]
  refine ⟨?_, ?_, ?_⟩
  · cases t with
    | underWay i stage => cases stage <;> simp [Teardown.stopped]
    | _ => simp [Teardown.stopped]
  · intro i hi hreturned
    have hcomplete : t.complete = true := by
      rcases (h.threads i).waiter hi with hwaits | hdone
      · rw [hreturned] at hwaits
        cases hwaits
      · exact hdone.2
    cases t with
    | underWay j stage => cases stage <;> first | rfl | cases hcomplete
    | idle => cases hcomplete
    | done => rfl
  · rintro hstuck ⟨k, hk⟩
    rw [h.done_of_stuck hk hstuck]
    rfl

/-- No wake-up is lost. The threads make a bounded number of steps, not counting those that a
spurious wake-up adds; and when none of them can make another, all calls have returned, if one of
them was a call of `stop()`. -/
theorem shutdown_reaches_everyone [Fintype ι] (stoppers : ι → Bool)
    (turns : List (LifecycleTurn ι)) :
    let s := exec step (init stoppers) turns
    (trace step moves (init stoppers) turns).count true ≤
        Fintype.card ι * (2 * Fintype.card ι + 7) + 2 * turns.countP isSpurious ∧
      ((∀ i, s.moves (.thread i) = false) → (∃ i, stoppers i = true) →
        ∀ i, s.pc i = .returned) := by
  intro s
  constructor
  · have hrun := potential_run (init stoppers) turns
    have hinit := potential_init_le stoppers
    omega
  · intro hstuck hstop i
    obtain ⟨k, hk⟩ := hstop
    obtain ⟨t, h⟩ : ∃ t, Inv stoppers t s := inv_run stoppers turns
    exact h.returned_of_stuck hk hstuck i

end

theorem shutdown_reaches_everyone_asleep :
    let turns : List (LifecycleTurn Bool) := List.replicate 2 (.thread false) ++
      List.replicate 7 (.thread true) ++ List.replicate 3 (.thread false)
    (exec step (init id) (turns.take 2)).pc false = .asleep ∧
      (exec step (init id) turns).pc false = .returned := by
  intro turns
  exact ⟨by decide, (shutdown_reaches_everyone id turns).2 (by decide) ⟨true, rfl⟩ false⟩

end Hpgtp
