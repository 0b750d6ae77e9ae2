import Mathlib.Algebra.Order.Ring.Nat
import Mathlib.Data.Fin.Basic
import Mathlib.Logic.Function.Basic
import Mathlib.Tactic.SplitIfs

/-! Circular buffers of `n` cells. The items stored in `k` consecutive cells are
listed in order, each with the cell that holds it; `distance` counts the cells
between two indices that wrap. -/

namespace Ring
open Function
variable {n : ℕ} {α : Type*}

def advance (i : Fin n) (k : ℕ) : Fin n := ⟨(i + k) % n, Nat.mod_lt _ i.pos⟩

def distance (i j : Fin n) : ℕ := (j + n - i) % n

def items (buf : Fin n → α) : Fin n → ℕ → List (Fin n × α)
  | _, 0 => []
  | i, k + 1 => (i, buf i) :: items buf (advance i 1) k

@[simp] theorem advance_zero (i : Fin n) : advance i 0 = i :=
  Fin.ext (Nat.mod_eq_of_lt i.isLt)

@[simp] theorem advance_advance (i : Fin n) (j k : ℕ) :
    advance (advance i j) k = advance i (j + k) := by
  apply Fin.ext
  show ((i + j) % n + k) % n = (i + (j + k)) % n
  rw [Nat.mod_add_mod, Nat.add_assoc]

theorem distance_lt (i j : Fin n) : distance i j < n := Nat.mod_lt _ i.pos

theorem distance_advance (i : Fin n) {k : ℕ} (hk : k < n) : distance i (advance i k) = k := by
  show ((i + k) % n + n - i) % n = k
  have hi := i.isLt
  rcases Nat.lt_or_ge (i + k) n with h | h
  · rw [Nat.mod_eq_of_lt h, show (i : ℕ) + k + n - i = k + n by omega, Nat.add_mod_right,
      Nat.mod_eq_of_lt hk]
  · rw [Nat.mod_eq_sub_mod h, Nat.mod_eq_of_lt (show (i : ℕ) + k - n < n by omega),
      show (i : ℕ) + k - n + n - i = k by omega, Nat.mod_eq_of_lt hk]

theorem advance_distance (i j : Fin n) : advance i (distance i j) = j := by
  apply Fin.ext
  show (i + (j + n - i) % n) % n = j
  rw [Nat.add_mod_mod, show (i : ℕ) + (j + n - i) = j + n by omega, Nat.add_mod_right,
    Nat.mod_eq_of_lt j.isLt]

theorem advance_injOn {i : Fin n} {j k : ℕ} (hj : j < n) (hk : k < n)
    (h : advance i j = advance i k) : j = k := by
  rw [← distance_advance i hj, h, distance_advance i hk]

theorem distance_eq_zero {i j : Fin n} : distance i j = 0 ↔ i = j := by
  constructor
  · intro h
    rw [← advance_distance i j, h, advance_zero]
  · rintro rfl
    simpa using distance_advance i i.pos

theorem advance_one_eq_iff {i j : Fin n} : advance j 1 = i ↔ distance i j + 1 = n := by
  have hd := distance_lt i j
  have hj : advance j 1 = advance i (distance i j + 1) := by
    rw [← advance_advance, advance_distance]
  rw [hj]
  constructor
  · intro h
    by_contra hne
    have := advance_injOn (show distance i j + 1 < n by omega) i.pos (h.trans (advance_zero i).symm)
    omega
  · intro h
    apply Fin.ext
    show (i + (distance i j + 1)) % n = i
    rw [h, Nat.add_mod_right, Nat.mod_eq_of_lt i.isLt]

theorem distance_advance_right {i j : Fin n} (h : advance j 1 ≠ i) :
    distance i (advance j 1) = distance i j + 1 := by
  have hd := distance_lt i j
  rw [Ne, advance_one_eq_iff] at h
  conv_lhs => rw [← advance_distance i j, advance_advance]
  exact distance_advance i (by omega)

theorem distance_advance_left {i j : Fin n} (h : i ≠ j) :
    distance (advance i 1) j + 1 = distance i j := by
  have hd := distance_lt i j
  obtain ⟨d, hdist⟩ : ∃ d, distance i j = d + 1 :=
    Nat.exists_eq_succ_of_ne_zero (mt distance_eq_zero.mp h)
  have hj : j = advance (advance i 1) d := by
    rw [advance_advance, Nat.add_comm, ← hdist, advance_distance]
  rw [hdist, hj, distance_advance _ (by omega)]

@[simp] theorem length_items (buf : Fin n → α) (i : Fin n) (k : ℕ) :
    (items buf i k).length = k := by
  induction k generalizing i with
  | zero => rfl
  | succ k ih => rw [items, List.length_cons, ih]

theorem items_snoc (buf : Fin n → α) (i : Fin n) (k : ℕ) :
    items buf i (k + 1) = items buf i k ++ [(advance i k, buf (advance i k))] := by
  induction k generalizing i with
  | zero => simp [items]
  | succ k ih => rw [items, ih, items, List.cons_append, advance_advance, Nat.add_comm 1 k]

theorem mem_items {buf : Fin n → α} {i : Fin n} {k : ℕ} {p : Fin n × α}
    (hp : p ∈ items buf i k) : ∃ j < k, p.1 = advance i j := by
  induction k generalizing i with
  | zero => cases hp
  | succ k ih =>
    rcases List.mem_cons.mp hp with rfl | hp
    · exact ⟨0, k.succ_pos, (advance_zero i).symm⟩
    · obtain ⟨j, hj, h⟩ := ih hp
      exact ⟨1 + j, by omega, by rw [h, advance_advance]⟩

theorem advance_notMem_items (buf : Fin n → α) (i : Fin n) {k : ℕ} (hk : k < n) :
    advance i k ∉ (items buf i k).map Prod.fst := by
  intro hmem
  obtain ⟨p, hp, hpi⟩ := List.mem_map.mp hmem
  obtain ⟨j, hj, h⟩ := mem_items hp
  have := advance_injOn (by omega) hk (h.symm.trans hpi)
  omega

theorem items_update [DecidableEq (Fin n)] {buf : Fin n → α} {i c : Fin n} {k : ℕ} {x : α}
    (hc : c ∉ (items buf i k).map Prod.fst) : items (update buf c x) i k = items buf i k := by
  induction k generalizing i with
  | zero => rfl
  | succ k ih =>
    rw [items, List.map_cons, List.mem_cons, not_or] at hc
    rw [items, items, ih hc.2, update_of_ne (Ne.symm hc.1)]

theorem items_push (buf : Fin n → α) (i : Fin n) {k : ℕ} (hk : k < n) (x : α) :
    items (update buf (advance i k) x) i (k + 1) = items buf i k ++ [(advance i k, x)] := by
  rw [items_snoc, items_update (advance_notMem_items buf i hk), update_self]

end Ring
