import TrafficPrioritizer.Lib.Ring

/-! A ring whose slots say themselves who owns them. The producer fills the slot at
its index when that is free and the consumer gives slots back from its own; neither
reads the other's index. The owned slots are always one run of cells, from the
consumer's index to the producer's. -/

namespace OwnershipRing
open Ring Function
variable {n : ℕ} {α : Type*} {owned : α → Bool}

structure State (α : Type*) (n : ℕ) where
  slots : Fin n → α
  prod : Fin n
  cons : Fin n

namespace State

def fill (s : State α n) (x : α) : State α n :=
  { s with slots := update s.slots s.prod x, prod := advance s.prod 1 }

def release (s : State α n) (x : α) : State α n :=
  { s with slots := update s.slots s.cons x, cons := advance s.cons 1 }

/-- What the consumer finds from its index on, up to the first free slot. -/
def queue (owned : α → Bool) (s : State α n) : List (Fin n × α) :=
  (items s.slots s.cons n).takeWhile fun p => owned p.2

structure Holds (owned : α → Bool) (s : State α n) (k : ℕ) : Prop where
  le : k ≤ n
  prod : s.prod = advance s.cons k
  owned_iff : ∀ j < n, owned (s.slots (advance s.cons j)) = true ↔ j < k

def Ok (owned : α → Bool) (s : State α n) : Prop := ∃ k, s.Holds owned k

end State

theorem takeWhile_items {buf : Fin n → α} {i : Fin n} {k m : ℕ} (hk : k ≤ m)
    (h : ∀ j < m, owned (buf (advance i j)) = true ↔ j < k) :
    (items buf i m).takeWhile (fun p => owned p.2) = items buf i k := by
  induction m generalizing i k with
  | zero => rw [Nat.le_zero.mp hk]; rfl
  | succ m ih =>
    have hfirst := h 0 m.succ_pos
    rw [advance_zero] at hfirst
    rw [items, List.takeWhile_cons]
    cases k with
    | zero =>
      have hfree : owned (buf i) = false := by simpa using hfirst
      rw [hfree]
      rfl
    | succ k =>
      rw [hfirst.mpr k.succ_pos, if_pos rfl, items]
      congr 1
      refine ih (Nat.le_of_succ_le_succ hk) fun j hj => ?_
      rw [advance_advance, h (1 + j) (by omega)]
      omega

namespace State
variable {s : State α n} {k : ℕ}

theorem Holds.queue_eq (h : s.Holds owned k) : s.queue owned = items s.slots s.cons k :=
  takeWhile_items h.le h.owned_iff

theorem Holds.length_queue (h : s.Holds owned k) : (s.queue owned).length = k := by
  rw [h.queue_eq, length_items]

theorem Holds.owned_prod (h : s.Holds owned k) : owned (s.slots s.prod) = true ↔ k = n := by
  rcases Nat.lt_or_eq_of_le h.le with hlt | rfl
  · rw [h.prod, h.owned_iff k hlt]
    omega
  · have hround : advance s.cons k = advance s.cons 0 := by
      rw [advance_zero]
      exact Fin.ext (by simp [advance, Nat.mod_eq_of_lt s.cons.isLt])
    rw [h.prod, hround, h.owned_iff 0 s.cons.pos]
    exact ⟨fun _ => rfl, fun _ => s.cons.pos⟩

theorem Ok.full (h : s.Ok owned) (hfull : owned (s.slots s.prod) = true) :
    (s.queue owned).length = n := by
  obtain ⟨k, hk⟩ := h
  rw [hk.length_queue]
  exact hk.owned_prod.mp hfull

theorem Ok.empty (h : s.Ok owned) (hempty : owned (s.slots s.cons) = false) :
    s.queue owned = [] := by
  obtain ⟨k, hk⟩ := h
  have hfirst := hk.owned_iff 0 s.cons.pos
  rw [advance_zero, hempty] at hfirst
  obtain rfl : k = 0 := by simpa using hfirst
  rw [hk.queue_eq, items]

theorem Ok.fill (h : s.Ok owned) (hfree : owned (s.slots s.prod) = false) {x : α}
    (hx : owned x = true) :
    (s.fill x).Ok owned ∧ (s.queue owned).length < n ∧
      (s.fill x).queue owned = s.queue owned ++ [(s.prod, x)] := by
  obtain ⟨k, hk⟩ := h
  have hlt : k < n := by
    refine Nat.lt_of_le_of_ne hk.le fun hkn => ?_
    rw [hk.owned_prod.mpr hkn] at hfree
    cases hfree
  have hnew : (s.fill x).Holds owned (k + 1) := by
    refine ⟨hlt, ?_, fun j hj => ?_⟩
    · show advance s.prod 1 = advance s.cons (k + 1)
      rw [hk.prod, advance_advance]
    · show owned (update s.slots s.prod x (advance s.cons j)) = true ↔ j < k + 1
      by_cases hjk : j = k
      · rw [hjk, ← hk.prod, update_self]
        simp [hx]
      · have hne : advance s.cons j ≠ s.prod := by
          rw [hk.prod]
          exact fun heq => hjk (advance_injOn hj hlt heq)
        rw [update_of_ne hne, hk.owned_iff j hj]
        omega
  refine ⟨⟨k + 1, hnew⟩, by rwa [hk.length_queue], ?_⟩
  rw [hnew.queue_eq, hk.queue_eq]
  show items (update s.slots s.prod x) s.cons (k + 1) = _
  rw [hk.prod, items_push s.slots s.cons hlt]

theorem Ok.release (h : s.Ok owned) (hown : owned (s.slots s.cons) = true) {x : α}
    (hx : owned x = false) :
    (s.release x).Ok owned ∧
      s.queue owned = (s.cons, s.slots s.cons) :: (s.release x).queue owned := by
  obtain ⟨k, hk⟩ := h
  have hfirst := hk.owned_iff 0 s.cons.pos
  rw [advance_zero, hown] at hfirst
  obtain ⟨d, rfl⟩ : ∃ d, k = d + 1 := Nat.exists_eq_add_of_lt (hfirst.mp rfl) |>.imp (by omega)
  have hle := hk.le
  have hnew : (s.release x).Holds owned d := by
    refine ⟨by omega, ?_, fun j hj => ?_⟩
    · show s.prod = advance (advance s.cons 1) d
      rw [hk.prod, advance_advance, Nat.add_comm]
    · show owned (update s.slots s.cons x (advance (advance s.cons 1) j)) = true ↔ j < d
      rw [advance_advance]
      rcases Nat.lt_or_eq_of_le (show 1 + j ≤ n by omega) with hlt | hround
      · have hne : advance s.cons (1 + j) ≠ s.cons := by
          intro heq
          have := advance_injOn hlt s.cons.pos (heq.trans (advance_zero s.cons).symm)
          omega
        rw [update_of_ne hne, hk.owned_iff _ hlt]
        omega
      · -- one round on, the slot that has just been given back
        have hself : advance s.cons (1 + j) = s.cons :=
          Fin.ext (by simp [advance, hround, Nat.mod_eq_of_lt s.cons.isLt])
        rw [hself, update_self, hx]
        simp only [Bool.false_eq_true, false_iff]
        omega
  refine ⟨⟨d, hnew⟩, ?_⟩
  rw [hk.queue_eq, hnew.queue_eq, items]
  congr 1
  show items s.slots (advance s.cons 1) d = items (update s.slots s.cons x) (advance s.cons 1) d
  refine (items_update fun hmem => ?_).symm
  obtain ⟨p, hp, hcell⟩ := List.mem_map.mp hmem
  obtain ⟨j, hj, hpos⟩ := mem_items hp
  have hself : advance s.cons (1 + j) = advance s.cons 0 := by
    rw [advance_zero, ← advance_advance, ← hpos, hcell]
  have := advance_injOn (by omega) s.cons.pos hself
  omega

end State
end OwnershipRing
