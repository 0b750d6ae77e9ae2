import Mathlib.Algebra.Order.Ring.Nat
import Mathlib.Data.Fintype.Card
import TrafficPrioritizer.Lib.Run

/-! Counting semaphores that let a group of threads go. Each thread waits at one
semaphore; it sees a token there, and takes one in a later step of its own. A
semaphore is posted once, with a token for each of its threads. A thread that leaves
without a token leaves one too many behind, so that nobody ever waits for one. -/

namespace TokenGate
open LabelledRun Function
variable {ι S : Type*}

inductive Phase where
  | around
  | reading
  | gone
  deriving DecidableEq

structure Gate (ι S : Type*) where
  phase : ι → Phase
  tokens : S → ℕ
  posted : S → Bool

inductive Act (ι S : Type*) where
  | stay
  | post (s : S) (k : ℕ)
  | see (i : ι)
  | take (i : ι)
  | leave (i : ι)

def next [DecidableEq ι] [DecidableEq S] (sem : ι → S) (g : Gate ι S) : Act ι S → Gate ι S
  | .stay => g
  | .post s k =>
    { g with
      tokens := update g.tokens s (g.tokens s + k)
      posted := update g.posted s true }
  | .see i => { g with phase := update g.phase i .reading }
  | .take i =>
    { g with
      phase := update g.phase i .gone
      tokens := update g.tokens (sem i) (g.tokens (sem i) - 1) }
  | .leave i => { g with phase := update g.phase i .gone }

theorem not_reading_of_gone [DecidableEq ι] {phase : ι → Phase} {i j : ι}
    (h : phase j ≠ .reading) : update phase i .gone j ≠ .reading := by
  rcases eq_or_ne j i with rfl | hne
  · simp
  · rwa [update_of_ne hne]

section Counting
variable [Fintype ι] [DecidableEq S]

def threadsAt (sem : ι → S) (s : S) : Finset ι := {i | sem i = s}

/-- What a thread and the poster may do. A take at zero tokens is not excluded here. -/
def Allowed (sem : ι → S) (g : Gate ι S) : Act ι S → Prop
  | .stay => True
  | .post s k => g.posted s = false ∧ (threadsAt sem s).card ≤ k
  | .see i => g.phase i = .around ∧ 0 < g.tokens (sem i)
  | .take i => g.phase i = .reading
  | .leave i => g.phase i = .around

def staying (sem : ι → S) (phase : ι → Phase) (s : S) : Finset ι :=
  {i ∈ threadsAt sem s | phase i ≠ .gone}

theorem mem_staying {sem : ι → S} {phase : ι → Phase} {s : S} {i : ι} :
    i ∈ staying sem phase s ↔ sem i = s ∧ phase i ≠ .gone := by
  simp [staying, threadsAt]

structure Covered (sem : ι → S) (g : Gate ι S) (s : S) : Prop where
  unposted : g.posted s = false → g.tokens s = 0 ∧ ∀ i, sem i = s → g.phase i ≠ .reading
  posted : g.posted s = true → (staying sem g.phase s).card ≤ g.tokens s

variable {sem : ι → S} {g : Gate ι S}

theorem Covered.available {i : ι} (h : Covered sem g (sem i)) (hposted : g.posted (sem i) = true)
    (hi : g.phase i ≠ .gone) : 0 < g.tokens (sem i) := by
  have hmem : i ∈ staying sem g.phase (sem i) := mem_staying.mpr ⟨rfl, hi⟩
  exact (Finset.card_pos.mpr ⟨i, hmem⟩).trans_le (h.posted hposted)

theorem Covered.token_of_reading {i : ι} (h : Covered sem g (sem i)) (hi : g.phase i = .reading) :
    0 < g.tokens (sem i) := by
  cases hposted : g.posted (sem i) with
  | false => exact absurd hi ((h.unposted hposted).2 i rfl)
  | true => exact h.available hposted (by rw [hi]; decide)

variable [DecidableEq ι]

theorem staying_gone (sem : ι → S) (phase : ι → Phase) (i : ι) (s : S) :
    staying sem (update phase i .gone) s = (staying sem phase s).erase i := by
  ext j
  rw [Finset.mem_erase, mem_staying, mem_staying]
  rcases eq_or_ne j i with rfl | hne
  · simp
  · simp [hne]

theorem staying_reading {sem : ι → S} {phase : ι → Phase} {i : ι} (hi : phase i ≠ .gone) (s : S) :
    staying sem (update phase i .reading) s = staying sem phase s := by
  ext j
  rw [mem_staying, mem_staying]
  rcases eq_or_ne j i with rfl | hne
  · simp [hi]
  · simp [hne]

theorem Covered.post {s : S} (h : Covered sem g s) {t : S} {k : ℕ} (hposted : g.posted t = false)
    (hk : (threadsAt sem t).card ≤ k) : Covered sem (next sem g (.post t k)) s := by
  rcases eq_or_ne s t with rfl | hne
  · have hsub : (staying sem g.phase s).card ≤ (threadsAt sem s).card :=
      Finset.card_le_card (Finset.filter_subset _ _)
    refine ⟨fun hnot => ?_, fun _ => ?_⟩
    · simp [next] at hnot
    · simp only [next, update_self, (h.unposted hposted).1, Nat.zero_add]
      exact hsub.trans hk
  · refine ⟨?_, ?_⟩
    · simpa [next, hne] using h.unposted
    · simpa [next, hne] using h.posted

theorem Covered.see {s : S} (h : Covered sem g s) {i : ι} (hi : g.phase i = .around)
    (htok : 0 < g.tokens (sem i)) : Covered sem (next sem g (.see i)) s := by
  have hstay : staying sem (update g.phase i .reading) s = staying sem g.phase s :=
    staying_reading (by rw [hi]; decide) s
  refine ⟨fun hnot => ⟨(h.unposted hnot).1, fun j hj => ?_⟩, fun hposted => ?_⟩
  · rcases eq_or_ne j i with rfl | hne
    · -- a token to be seen comes from the post
      rw [hj, (h.unposted hnot).1] at htok
      exact absurd htok (lt_irrefl 0)
    · show update g.phase i .reading j ≠ .reading
      rw [update_of_ne hne]
      exact (h.unposted hnot).2 j hj
  · show (staying sem (update g.phase i .reading) s).card ≤ g.tokens s
    rw [hstay]
    exact h.posted hposted

theorem Covered.leave {s : S} (h : Covered sem g s) (i : ι) :
    Covered sem (next sem g (.leave i)) s := by
  refine ⟨fun hnot => ⟨(h.unposted hnot).1, fun j hj => ?_⟩, fun hposted => ?_⟩
  · exact not_reading_of_gone ((h.unposted hnot).2 j hj)
  · show (staying sem (update g.phase i .gone) s).card ≤ g.tokens s
    rw [staying_gone]
    exact Finset.card_erase_le.trans (h.posted hposted)

theorem Covered.take {s : S} (h : Covered sem g s) {i : ι} (hi : g.phase i = .reading) :
    Covered sem (next sem g (.take i)) s := by
  rcases eq_or_ne s (sem i) with rfl | hne
  · have hmem : i ∈ staying sem g.phase (sem i) := mem_staying.mpr ⟨rfl, by rw [hi]; decide⟩
    refine ⟨fun hnot => absurd hi ((h.unposted hnot).2 i rfl), fun hposted => ?_⟩
    show (staying sem (update g.phase i .gone) (sem i)).card ≤ update g.tokens (sem i) _ (sem i)
    rw [staying_gone, update_self, Finset.card_erase_of_mem hmem]
    exact Nat.sub_le_sub_right (h.posted hposted) 1
  · -- the other semaphores see the thread leave as if without a token
    have hleave := h.leave i
    refine ⟨fun hnot => ?_, fun hposted => ?_⟩
    · simpa [next, hne] using hleave.unposted hnot
    · simpa [next, hne] using hleave.posted hposted

theorem Covered.next (h : ∀ s, Covered sem g s) {a : Act ι S} (ha : Allowed sem g a) (s : S) :
    Covered sem (next sem g a) s := by
  cases a with
  | stay => exact h s
  | post t k => exact (h s).post ha.1 ha.2
  | see i => exact (h s).see ha.1 ha.2
  | take i => exact (h s).take ha
  | leave i => exact (h s).leave i

theorem never_waits {acts : List (Act ι S)} (hfresh : ∀ s, g.posted s = false ∧ g.tokens s = 0)
    (haround : ∀ i, g.phase i = .around)
    (hacts : Every (TokenGate.next sem) (Allowed sem) g acts) (s : S) :
    Covered sem (exec (TokenGate.next sem) g acts) s := by
  have hinit : ∀ s, Covered sem g s := by
    intro s
    refine ⟨fun _ => ⟨(hfresh s).2, fun i _ => by rw [haround i]; decide⟩, fun hposted => ?_⟩
    rw [(hfresh s).1] at hposted
    cases hposted
  exact hacts.invariant (I := fun g => ∀ s, Covered sem g s)
    (fun _ _ hg ha s => Covered.next hg ha s) hinit s

end Counting
end TokenGate
