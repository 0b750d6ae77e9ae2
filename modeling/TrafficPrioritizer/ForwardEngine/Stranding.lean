import TrafficPrioritizer.ForwardEngine.Worker

/-! When a worker blocks in `poll` over a shaper that still holds frames.
`process_queue` also stops when the bucket or the hardware refuses a frame, and
nothing but a new frame wakes the thread then. -/

namespace Hpgtp.Worker
open LabelledRun BoundedFifo
variable {B κ : Type*}

def Quiet (w : Worker B) : Prop := w.frameEfd = 0 ∧ w.frameQ.ring.queue = []

def Tracks (w : Worker B) : Prop := ∀ pc, w.proc = .shaping pc → Draining.Ok ⟨w.shaper, pc⟩

theorem init_tracks (shaper : Shaper B) : Tracks (init shaper) := fun _ hpc => nomatch hpc

theorem rxStep_proc (w : Worker B) (raw : List UInt8) :
    (w.rxStep raw).proc = w.proc ∧ (w.rxStep raw).shaper = w.shaper := by
  unfold rxStep
  cases w.rx with
  | receiving => exact ⟨rfl, rfl⟩
  | signalling =>
    dsimp only
    split_ifs <;> exact ⟨rfl, rfl⟩

section
variable {w : Worker B} {pc : DrainPc} (lim : Limiter B κ) (i : ProcInput κ)

theorem procStep_shaping (h : w.proc = .shaping pc) {pc' : DrainPc}
    (hpc' : (w.procStep lim i).proc = .shaping pc') :
    w.shaper.drainStep lim pc i.clock i.res = ((w.procStep lim i).shaper, pc') := by
  unfold procStep at hpc' ⊢
  rw [h] at hpc' ⊢
  dsimp only at hpc' ⊢
  cases hr : (w.shaper.drainStep lim pc i.clock i.res).2 <;> rw [hr] at hpc' <;> cases hpc'
  all_goals exact Prod.ext rfl hr

end

theorem Tracks.step {w : Worker B} (h : Tracks w) (lim : Limiter B κ) (turn : WorkerTurn κ) :
    Tracks (w.step lim turn) := by
  intro pc hpc
  cases turn with
  | rx raw =>
    obtain ⟨hproc, hshaper⟩ := w.rxStep_proc raw
    show Draining.Ok ⟨(w.rxStep raw).shaper, pc⟩
    rw [hshaper]
    exact h pc (hproc ▸ hpc)
  | setRate limit => exact (Draining.simulates lim ⟨w.shaper, pc⟩ (.setRate limit) (h pc hpc)).1
  | proc i =>
    obtain ⟨frameQ, frameEfd, rx, proc, shaper⟩ := w
    cases proc with
    | looping => cases hr : i.running <;> simp [Worker.step, procStep, hr] at hpc
    | popping =>
      simp only [Worker.step, procStep] at hpc
      cases hact : frameQ.act .consumer <;> simp only [hact] at hpc <;> cases hpc
      trivial
    | handling | reading | exited => cases hpc
    | shaping pc₀ =>
      have hdrain := (Draining.simulates lim ⟨shaper, pc₀⟩ (.drain i.clock i.res) (h pc₀ rfl)).1
      unfold Draining.step at hdrain
      dsimp only at hdrain
      rwa [procStep_shaping lim i rfl hpc] at hdrain
    | polling =>
      cases hw : i.wake <;> simp only [Worker.step, procStep, hw] at hpc
      · split_ifs at hpc
      all_goals cases hpc

end Hpgtp.Worker
