import TrafficPrioritizer.Lib.Bytes
import Mathlib.Algebra.Order.Ring.Nat
import Mathlib.Tactic.SplitIfs

/-! One's-complement sums of the 16-bit words of a byte string, most significant
byte first and an odd last byte padded with zero. Zero has two representations:
a sum folds to zero only when every byte is zero, and to `65535` when it is any
other multiple of `65535`. -/

namespace OnesComplement
open ByteBuffer

def onesAdd (a b : ℕ) : ℕ := (a + b) % 65536 + (a + b) / 65536

def wordSum : List UInt8 → ℕ
  | [] => 0
  | [x] => 256 * x.toNat
  | x :: y :: l => 256 * x.toNat + y.toNat + wordSum l

def onesSum : List UInt8 → ℕ
  | [] => 0
  | [x] => 256 * x.toNat
  | x :: y :: l => onesAdd (256 * x.toNat + y.toNat) (onesSum l)

/-! ## Folding -/

theorem onesAdd_le {a b : ℕ} (ha : a ≤ 65535) (hb : b ≤ 65535) : onesAdd a b ≤ 65535 := by
  unfold onesAdd
  omega

theorem onesSum_le (l : List UInt8) : onesSum l ≤ 65535 := by
  fun_induction onesSum l with
  | case1 => exact Nat.zero_le _
  | case2 x =>
    have := x.toNat_lt
    omega
  | case3 x y l ih =>
    have hx := x.toNat_lt
    have hy := y.toNat_lt
    exact onesAdd_le (by omega) ih

/-- Folding keeps the residue and keeps a sum other than zero other than zero. -/
theorem onesSum_spec (l : List UInt8) :
    onesSum l % 65535 = wordSum l % 65535 ∧ (onesSum l = 0 ↔ wordSum l = 0) := by
  fun_induction onesSum l with
  | case1 => exact ⟨rfl, Iff.rfl⟩
  | case2 x => exact ⟨rfl, Iff.rfl⟩
  | case3 x y l ih =>
    obtain ⟨hmod, hzero⟩ := ih
    have hx := x.toNat_lt
    have hy := y.toNat_lt
    have hle := onesSum_le l
    rw [wordSum]
    unfold onesAdd
    constructor
    · omega
    · omega

theorem onesSum_eq_iff {l : List UInt8} :
    onesSum l = 0xFFFF ↔ wordSum l % 65535 = 0 ∧ wordSum l ≠ 0 := by
  obtain ⟨hmod, hzero⟩ := onesSum_spec l
  have hle := onesSum_le l
  omega

theorem fold_twice {s : ℕ} (hs : s < 65536 * 65536) {t : ℕ} (ht : t = s % 65536 + s / 65536) :
    (t + t / 65536) % 65536 % 65535 = s % 65535 ∧ ((t + t / 65536) % 65536 = 0 ↔ s = 0) := by
  have hround : s % 65535 = t % 65535 := by
    have hsum : s = t + 65535 * (s / 65536) := by omega
    rw [hsum, Nat.add_mul_mod_self_left]
  rw [hround]
  -- after the first round there is at most one carry left
  rcases Nat.lt_or_ge t 65536 with hlt | hge
  · rw [Nat.div_eq_of_lt hlt, Nat.add_zero, Nat.mod_eq_of_lt hlt]
    omega
  · have hle : t ≤ 131070 := by omega
    have hdiv : t / 65536 = 1 := by omega
    have hcarry : (t + 1) % 65536 = t - 65535 := by
      rw [Nat.mod_eq_sub_mod (by omega), Nat.mod_eq_of_lt (by omega)]
      omega
    rw [hdiv, hcarry, ← Nat.mod_eq_sub_mod (by omega)]
    omega

def fold (s : ℕ) : ℕ := if s < 65536 then s else fold (s % 65536 + s / 65536)

theorem fold_spec (s : ℕ) :
    fold s < 65536 ∧ fold s % 65535 = s % 65535 ∧ (fold s = 0 ↔ s = 0) := by
  fun_induction fold s with
  | case1 s hlt => exact ⟨hlt, rfl, Iff.rfl⟩
  | case2 s hge ih =>
    obtain ⟨hlt, hmod, hzero⟩ := ih
    have hsum : s = s % 65536 + s / 65536 + 65535 * (s / 65536) := by omega
    refine ⟨hlt, ?_, hzero.trans (by omega)⟩
    rw [hmod]
    conv_rhs => rw [hsum, Nat.add_mul_mod_self_left]

theorem fold_eq_iff {s : ℕ} : fold s = 0xFFFF ↔ s % 65535 = 0 ∧ s ≠ 0 := by
  obtain ⟨hlt, hmod, hzero⟩ := fold_spec s
  omega

theorem fold_eq_twice {s : ℕ} (hs : s < 65536 * 65536) {t : ℕ} (ht : t = s % 65536 + s / 65536) :
    fold s = (t + t / 65536) % 65536 := by
  obtain ⟨hlt, hmod, hzero⟩ := fold_spec s
  obtain ⟨hmod', hzero'⟩ := fold_twice hs ht
  have hlt' : (t + t / 65536) % 65536 < 65536 := Nat.mod_lt _ (by decide)
  generalize (t + t / 65536) % 65536 = folded at *
  omega

theorem toNat_complement (n : ℕ) : (~~~(UInt16.ofNat n)).toNat = 65535 - n % 65536 := by
  rw [UInt16.toNat_not, UInt16.toNat_ofNat']
  rfl

theorem sum_add_complement {s : ℕ} (hs : s < 65536 * 65536) {t : ℕ}
    (ht : t = s % 65536 + s / 65536) :
    (s + (~~~(UInt16.ofNat (t + t / 65536))).toNat) % 65535 = 0 := by
  obtain ⟨hmod, -⟩ := fold_twice hs ht
  have hlt : (t + t / 65536) % 65536 < 65536 := Nat.mod_lt _ (by decide)
  rw [toNat_complement]
  generalize (t + t / 65536) % 65536 = folded at *
  omega

/-! ## Sums of byte strings -/

theorem wordSum_append {l : List UInt8} (h : l.length % 2 = 0) (r : List UInt8) :
    wordSum (l ++ r) = wordSum l + wordSum r := by
  fun_induction wordSum l with
  | case1 => rw [List.nil_append, Nat.zero_add]
  | case2 x => cases h
  | case3 x y l ih =>
    have hl : l.length % 2 = 0 := by
      rw [List.length_cons, List.length_cons] at h
      omega
    rw [List.cons_append, List.cons_append, wordSum, ih hl, ← Nat.add_assoc]

theorem wordSum_le (l : List UInt8) : wordSum l ≤ 65535 * l.length := by
  fun_induction wordSum l with
  | case1 => exact Nat.zero_le _
  | case2 x =>
    have hx := x.toNat_lt
    rw [List.length_singleton]
    omega
  | case3 x y l ih =>
    have hx := x.toNat_lt
    have hy := y.toNat_lt
    rw [List.length_cons, List.length_cons]
    omega

theorem wordSum_eq_zero {l : List UInt8} : wordSum l = 0 ↔ ∀ x ∈ l, x = 0 := by
  have hbyte (x : UInt8) : x.toNat = 0 ↔ x = 0 := by rw [← UInt8.toNat_inj, UInt8.toNat_zero]
  fun_induction wordSum l with
  | case1 => simp
  | case2 x =>
    rw [Nat.mul_eq_zero, hbyte]
    simp
  | case3 x y l ih =>
    rw [List.forall_mem_cons, List.forall_mem_cons, ← hbyte x, ← hbyte y]
    constructor
    · intro h
      exact ⟨by omega, by omega, ih.mp (by omega)⟩
    · rintro ⟨hx, hy, hl⟩
      have := ih.mpr hl
      omega

theorem swap16_load16_toNat (b : List UInt8) (o : ℕ) :
    (swap16 (load16 b o)).toNat = 256 * (load8 b o).toNat + (load8 b (o + 1)).toNat := by
  have h0 := (load8 b o).toNat_lt
  have h1 := (load8 b (o + 1)).toNat_lt
  rw [swap16_toNat, load16_toNat]
  omega

theorem wordSum_store16 {l : List UInt8} {k : ℕ} (v : UInt16) (hk : k % 2 = 0)
    (hl : k + 2 ≤ l.length) :
    wordSum (store16 l k v) + (swap16 (load16 l k)).toNat = wordSum l + (swap16 v).toNat := by
  fun_induction wordSum l generalizing k with
  | case1 => cases hl
  | case2 x =>
    rw [List.length_singleton] at hl
    omega
  | case3 x y l ih =>
    rcases Nat.lt_or_ge k 2 with hlt | hge
    · obtain rfl : k = 0 := by omega
      have hv := v.toNat_lt
      have hstore : store16 (x :: y :: l) 0 v =
        UInt8.ofNat v.toNat :: UInt8.ofNat (v.toNat / 256) :: l := rfl
      have hword := swap16_load16_toNat (x :: y :: l) 0
      simp only [load8, List.getD_cons_zero, List.getD_cons_succ, Nat.zero_add] at hword
      rw [hstore, wordSum, hword, swap16_toNat]
      simp only [UInt8.toNat_ofNat']
      omega
    · obtain ⟨k, rfl⟩ : ∃ j, k = j + 2 := ⟨k - 2, by omega⟩
      have hstore : store16 (x :: y :: l) (k + 2) v = x :: y :: store16 l k v := rfl
      have hload : load16 (x :: y :: l) (k + 2) = load16 l k := rfl
      have hrest := ih (k := k) (by omega) (by simp only [List.length_cons] at hl; omega)
      rw [hstore, hload, wordSum]
      omega

theorem wordSum_slice_store16 {b : List UInt8} {o n k : ℕ} (v : UInt16) (hk : o ≤ k)
    (heven : (k - o) % 2 = 0) (hn : k + 2 ≤ o + n) (hb : k + 2 ≤ b.length) :
    wordSum (slice (store16 b k v) o n) + (swap16 (load16 b k)).toNat =
      wordSum (slice b o n) + (swap16 v).toNat := by
  have hload : load16 (slice b o n) (k - o) = load16 b k := by
    rw [load16_slice (by omega), Nat.add_sub_cancel' hk]
  rw [slice_store16_inside hk, ← hload]
  exact wordSum_store16 v heven (by rw [length_slice]; omega)

theorem wordSum_slice_add_two {b : List UInt8} {o : ℕ} (n : ℕ) (h : o + 2 ≤ b.length) :
    wordSum (slice b o (n + 2)) = (swap16 (load16 b o)).toNat + wordSum (slice b (o + 2) n) := by
  have hcons (j : ℕ) (hj : j < b.length) : b.drop j = load8 b j :: b.drop (j + 1) := by
    rw [List.drop_eq_getElem_cons hj, load8, List.getD_eq_getElem?_getD,
      List.getElem?_eq_getElem hj, Option.getD_some]
  have hslice : slice b o (n + 2) = load8 b o :: load8 b (o + 1) :: slice b (o + 2) n := by
    rw [slice, hcons o (by omega), hcons (o + 1) (by omega), slice]
    rfl
  rw [hslice, wordSum, swap16_load16_toNat]

theorem wordSum_eq_sum {l : List UInt8} {n : ℕ} (h : l.length = 2 * n) :
    wordSum l = ((List.range n).map fun i => (swap16 (load16 l (2 * i))).toNat).sum := by
  induction n generalizing l with
  | zero => rw [List.eq_nil_of_length_eq_zero h]; rfl
  | succ n ih =>
    have hslice : slice l 0 (2 * n + 2) = l :=
      List.take_of_length_le (by rw [List.drop_zero]; omega)
    have hrest : slice l 2 (2 * n) = l.drop 2 :=
      List.take_of_length_le (by rw [List.length_drop]; omega)
    have htail := ih (l := l.drop 2) (by rw [List.length_drop]; omega)
    rw [← hslice, wordSum_slice_add_two _ (by omega), hslice, Nat.zero_add, hrest, htail,
      List.range_succ_eq_map, List.map_cons, List.sum_cons, List.map_map]
    simp only [load16_drop, Function.comp_def, Nat.mul_succ, Nat.add_comm 2, Nat.mul_zero]

def words32 (v : UInt32) : ℕ := (swap16 (low16 v)).toNat + (swap16 (high16 v)).toNat

theorem words32_load32 (b : List UInt8) (o : ℕ) :
    words32 (load32 b o) = (swap16 (load16 b o)).toNat + (swap16 (load16 b (o + 2))).toNat := by
  obtain ⟨hlow, hhigh⟩ := load32_eq_iff.mp (rfl : load32 b o = load32 b o)
  rw [words32, ← hlow, ← hhigh]

theorem wordSum_slice_store32 {b : List UInt8} {o n k : ℕ} (v : UInt32) (hk : o ≤ k)
    (heven : (k - o) % 2 = 0) (hn : k + 4 ≤ o + n) (hb : k + 4 ≤ b.length) :
    wordSum (slice (store32 b k v) o n) + words32 (load32 b k) =
      wordSum (slice b o n) + words32 v := by
  have hlow := wordSum_slice_store16 (n := n) (low16 v) hk heven (by omega)
    (show k + 2 ≤ b.length by omega)
  have hhigh := wordSum_slice_store16 (o := o) (n := n) (k := k + 2) (high16 v) (by omega)
    (by omega) (by omega) (show k + 2 + 2 ≤ (store16 b k (low16 v)).length by
      rw [length_store16]; omega)
  rw [load16_store16_of_disjoint (by omega)] at hhigh
  rw [words32_load32, words32, store32]
  omega

end OnesComplement
