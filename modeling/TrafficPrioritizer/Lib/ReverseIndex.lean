import Mathlib.Logic.Function.Basic
import Mathlib.Tactic.SplitIfs

/-! A reverse index over a slot table: a map from keys to slot numbers, with `-1`
for no slot. `owns i k` says that slot `i` holds key `k`. The index is sound when
its entries name owners, complete when it names every owner; a slot is handed
over by releasing its old entry and assigning the new one. -/

namespace ReverseIndex
open Function
variable {n : Nat} {κ : Type*}

def Sound (t : κ → Int) (owns : Fin n → κ → Prop) : Prop :=
  ∀ k, t k = -1 ∨ ∃ i : Fin n, t k = (i : Nat) ∧ owns i k

def Complete (t : κ → Int) (owns : Fin n → κ → Prop) : Prop :=
  ∀ i k, owns i k → t k = (i : Nat)

section
variable {t : κ → Int} {owns owns' : Fin n → κ → Prop} {i : Fin n}

theorem Sound.owner (h : Sound t owns) {k : κ} (hk : t k = (i : Nat)) : owns i k := by
  rcases h k with hneg | ⟨j, hj, hown⟩
  · omega
  · obtain rfl : i = j := Fin.ext (by omega)
    exact hown

theorem Sound.slot (h : Sound t owns) {k : κ} (hk : 0 ≤ t k) :
    ∃ i : Fin n, t k = (i : Nat) ∧ owns i k :=
  (h k).resolve_left (by omega)

theorem Sound.injOn (h : Sound t owns) (hone : ∀ i k l, owns i k → owns i l → k = l) {k l : κ}
    (hk : 0 ≤ t k) (hkl : t k = t l) : k = l := by
  obtain ⟨i, hi, hown⟩ := h.slot hk
  exact hone i k l hown (h.owner (hkl.symm.trans hi))

theorem Sound.mono (h : Sound t owns) (hmono : ∀ j k, owns j k → owns' j k) : Sound t owns' :=
  fun k => (h k).imp_right fun ⟨j, hj, hown⟩ => ⟨j, hj, hmono j k hown⟩

theorem Complete.mono (h : Complete t owns) (hmono : ∀ j k, owns' j k → owns j k) :
    Complete t owns' := fun j k hown => h j k (hmono j k hown)

end

variable [DecidableEq κ]

def casIndex (t : κ → Int) (k : κ) (expect desired : Int) : κ → Int :=
  if t k = expect then update t k desired else t

def slotOf (n : Nat) (z : Int) : Option (Fin n) :=
  if h : 0 ≤ z ∧ z.toNat < n then some ⟨z.toNat, h.2⟩ else none

theorem slotOf_eq_some {z : Int} {i : Fin n} : slotOf n z = some i ↔ z = (i : Nat) := by
  unfold slotOf
  split_ifs with h
  · simp only [Option.some.injEq, Fin.ext_iff]
    omega
  · have := i.isLt
    simp only [false_iff]
    omega

theorem casIndex_apply_of_ne {t : κ → Int} {k j : κ} {expect desired : Int}
    (h : j ≠ k ∨ t j ≠ expect) : casIndex t k expect desired j = t j := by
  unfold casIndex
  split_ifs with hk
  · have hj : j ≠ k := by
      rcases h with h | h
      · exact h
      · rintro rfl
        exact h hk
    rw [update_of_ne hj]
  · rfl

theorem casIndex_eq_update (t : κ → Int) (k : κ) (expect desired : Int) :
    casIndex t k expect desired = update t k (if t k = expect then desired else t k) := by
  unfold casIndex
  split_ifs
  · rfl
  · rw [update_eq_self]

theorem casIndex_apply_self {t : κ → Int} {k : κ} {expect desired : Int} (h : t k = expect) :
    casIndex t k expect desired k = desired := by
  rw [casIndex, if_pos h, update_self]

variable {t : κ → Int} {owns owns' : Fin n → κ → Prop} {i : Fin n}

theorem Sound.release (h : Sound t owns) {old : κ} (hold : ∀ k, owns i k → k = old)
    (hother : ∀ j ≠ i, ∀ k, owns j k → owns' j k) :
    Sound (casIndex t old (i : Nat) (-1)) owns' := by
  intro k
  by_cases hk : t k = (i : Nat)
  · obtain rfl := hold k (h.owner hk)
    exact .inl (casIndex_apply_self hk)
  · rw [casIndex_apply_of_ne (.inr hk)]
    refine (h k).imp_right fun ⟨j, hj, hown⟩ => ⟨j, hj, hother j ?_ k hown⟩
    rintro rfl
    exact hk hj

theorem Sound.assign (h : Sound t owns) {c : κ} (hi : ∀ k, ¬owns i k) (hc : owns' i c)
    (hother : ∀ j ≠ i, ∀ k, owns j k → owns' j k) : Sound (update t c (i : Nat)) owns' := by
  intro k
  by_cases hk : k = c
  · subst hk
    exact .inr ⟨i, update_self .., hc⟩
  · rw [update_of_ne hk]
    refine (h k).imp_right fun ⟨j, hj, hown⟩ => ⟨j, hj, hother j ?_ k hown⟩
    rintro rfl
    exact hi k hown

theorem Complete.release (h : Complete t owns) {old : κ}
    (hother : ∀ j k, owns' j k → j ≠ i ∧ owns j k) :
    Complete (casIndex t old (i : Nat) (-1)) owns' := by
  intro j k hown
  obtain ⟨hji, hown⟩ := hother j k hown
  have hj := h j k hown
  rw [casIndex_apply_of_ne (.inr ?_), hj]
  intro hi
  exact hji (Fin.ext (by omega))

theorem Complete.assign (h : Complete t owns) {c : κ}
    (hother : ∀ j k, owns' j k → j = i ∧ k = c ∨ k ≠ c ∧ owns j k) :
    Complete (update t c (i : Nat)) owns' := by
  intro j k hown
  rcases hother j k hown with ⟨rfl, rfl⟩ | ⟨hk, hown⟩
  · exact update_self ..
  · rw [update_of_ne hk]
    exact h j k hown

end ReverseIndex
