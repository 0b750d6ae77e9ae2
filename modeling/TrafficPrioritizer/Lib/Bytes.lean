import Mathlib.Data.List.Basic

/-! Little-endian loads and stores in a byte buffer, and the byte swaps between
host and network order. Loads past the end read zero, stores past the end do
nothing; the read-back lemmas carry the bound they need. -/

namespace ByteBuffer

def load8 (b : List UInt8) (o : Nat) : UInt8 := b.getD o 0

def load16 (b : List UInt8) (o : Nat) : UInt16 :=
  UInt16.ofNat ((load8 b o).toNat + 256 * (load8 b (o + 1)).toNat)

def load32 (b : List UInt8) (o : Nat) : UInt32 :=
  UInt32.ofNat ((load16 b o).toNat + 65536 * (load16 b (o + 2)).toNat)

def load64 (b : List UInt8) (o : Nat) : UInt64 :=
  UInt64.ofNat ((load32 b o).toNat + 4294967296 * (load32 b (o + 4)).toNat)

def store16 (b : List UInt8) (o : Nat) (v : UInt16) : List UInt8 :=
  (b.set o (UInt8.ofNat v.toNat)).set (o + 1) (UInt8.ofNat (v.toNat / 256))

def low16 (v : UInt32) : UInt16 := UInt16.ofNat (v.toNat % 65536)

def high16 (v : UInt32) : UInt16 := UInt16.ofNat (v.toNat / 65536)

def store32 (b : List UInt8) (o : Nat) (v : UInt32) : List UInt8 :=
  store16 (store16 b o (low16 v)) (o + 2) (high16 v)

def storeBytes (b : List UInt8) (o : Nat) : List UInt8 → List UInt8
  | [] => b
  | x :: v => storeBytes (b.set o x) (o + 1) v

def loadBytes (b : List UInt8) (o : Nat) : Nat → List UInt8
  | 0 => []
  | n + 1 => load8 b o :: loadBytes b (o + 1) n

def bytes16 (v : UInt16) : List UInt8 := [UInt8.ofNat v.toNat, UInt8.ofNat (v.toNat / 256)]

def bytes32 (v : UInt32) : List UInt8 := bytes16 (low16 v) ++ bytes16 (high16 v)

def swap16 (v : UInt16) : UInt16 := UInt16.ofNat (v.toNat % 256 * 256 + v.toNat / 256)

def swap32 (v : UInt32) : UInt32 :=
  UInt32.ofNat ((swap16 (low16 v)).toNat * 65536 + (swap16 (high16 v)).toNat)

/-! ## Values -/

theorem load16_toNat (b : List UInt8) (o : Nat) :
    (load16 b o).toNat = (load8 b o).toNat + 256 * (load8 b (o + 1)).toNat := by
  have h0 := (load8 b o).toNat_lt
  have h1 := (load8 b (o + 1)).toNat_lt
  simp only [load16, UInt16.toNat_ofNat']
  omega

theorem load32_toNat (b : List UInt8) (o : Nat) :
    (load32 b o).toNat = (load16 b o).toNat + 65536 * (load16 b (o + 2)).toNat := by
  have h0 := (load16 b o).toNat_lt
  have h1 := (load16 b (o + 2)).toNat_lt
  simp only [load32, UInt32.toNat_ofNat']
  omega

theorem low16_toNat (v : UInt32) : (low16 v).toNat = v.toNat % 65536 := by
  simp only [low16, UInt16.toNat_ofNat']
  omega

theorem high16_toNat (v : UInt32) : (high16 v).toNat = v.toNat / 65536 := by
  have h := v.toNat_lt
  simp only [high16, UInt16.toNat_ofNat']
  omega

theorem swap16_toNat (v : UInt16) : (swap16 v).toNat = v.toNat % 256 * 256 + v.toNat / 256 := by
  have h := v.toNat_lt
  simp only [swap16, UInt16.toNat_ofNat']
  omega

@[simp] theorem swap16_swap16 (v : UInt16) : swap16 (swap16 v) = v := by
  have h := v.toNat_lt
  apply UInt16.toNat_inj.mp
  rw [swap16_toNat, swap16_toNat]
  omega

theorem swap16_injective : Function.Injective swap16 :=
  Function.LeftInverse.injective swap16_swap16

theorem swap32_toNat (v : UInt32) : (swap32 v).toNat =
    (swap16 (low16 v)).toNat * 65536 + (swap16 (high16 v)).toNat := by
  have h0 := (swap16 (low16 v)).toNat_lt
  have h1 := (swap16 (high16 v)).toNat_lt
  simp only [swap32, UInt32.toNat_ofNat']
  omega

theorem low16_swap32 (v : UInt32) : low16 (swap32 v) = swap16 (high16 v) := by
  have h := (swap16 (high16 v)).toNat_lt
  apply UInt16.toNat_inj.mp
  rw [low16_toNat, swap32_toNat]
  omega

theorem high16_swap32 (v : UInt32) : high16 (swap32 v) = swap16 (low16 v) := by
  have h := (swap16 (high16 v)).toNat_lt
  apply UInt16.toNat_inj.mp
  rw [high16_toNat, swap32_toNat]
  omega

@[simp] theorem swap32_swap32 (v : UInt32) : swap32 (swap32 v) = v := by
  apply UInt32.toNat_inj.mp
  rw [swap32_toNat, low16_swap32, high16_swap32, swap16_swap16, swap16_swap16, high16_toNat,
    low16_toNat]
  omega

theorem swap32_injective : Function.Injective swap32 :=
  Function.LeftInverse.injective swap32_swap32

/-! ## Reading back a store -/

theorem load8_set (b : List UInt8) (i j : Nat) (v : UInt8) :
    load8 (b.set i v) j = if i = j ∧ j < b.length then v else load8 b j := by
  simp only [load8, List.getD_eq_getElem?_getD, List.getElem?_set]
  split_ifs with hij hlt hc hc <;> simp_all

@[simp] theorem length_store16 (b : List UInt8) (o : Nat) (v : UInt16) :
    (store16 b o v).length = b.length := by simp [store16]

@[simp] theorem length_store32 (b : List UInt8) (o : Nat) (v : UInt32) :
    (store32 b o v).length = b.length := by simp [store32]

theorem load8_store16_of_disjoint {b : List UInt8} {o j : Nat} {v : UInt16}
    (h : j < o ∨ o + 2 ≤ j) : load8 (store16 b o v) j = load8 b j := by
  rw [store16, load8_set, load8_set, if_neg (by omega), if_neg (by omega)]

theorem load16_set_of_disjoint {b : List UInt8} {i j : Nat} {v : UInt8}
    (h : j + 2 ≤ i ∨ i < j) : load16 (b.set i v) j = load16 b j := by
  rw [load16, load8_set, load8_set, if_neg (by omega), if_neg (by omega), load16]

theorem load8_store32_of_disjoint {b : List UInt8} {o j : Nat} {v : UInt32}
    (h : j < o ∨ o + 4 ≤ j) : load8 (store32 b o v) j = load8 b j := by
  rw [store32, load8_store16_of_disjoint (by omega), load8_store16_of_disjoint (by omega)]

theorem load16_store16_of_disjoint {b : List UInt8} {o j : Nat} {v : UInt16}
    (h : j + 2 ≤ o ∨ o + 2 ≤ j) : load16 (store16 b o v) j = load16 b j := by
  rw [load16, load8_store16_of_disjoint (by omega), load8_store16_of_disjoint (by omega), load16]

theorem load16_store32_of_disjoint {b : List UInt8} {o j : Nat} {v : UInt32}
    (h : j + 2 ≤ o ∨ o + 4 ≤ j) : load16 (store32 b o v) j = load16 b j := by
  rw [store32, load16_store16_of_disjoint (by omega), load16_store16_of_disjoint (by omega)]

theorem load32_store16_of_disjoint {b : List UInt8} {o j : Nat} {v : UInt16}
    (h : j + 4 ≤ o ∨ o + 2 ≤ j) : load32 (store16 b o v) j = load32 b j := by
  rw [load32, load16_store16_of_disjoint (by omega), load16_store16_of_disjoint (by omega), load32]

theorem load32_store32_of_disjoint {b : List UInt8} {o j : Nat} {v : UInt32}
    (h : j + 4 ≤ o ∨ o + 4 ≤ j) : load32 (store32 b o v) j = load32 b j := by
  rw [store32, load32_store16_of_disjoint (by omega), load32_store16_of_disjoint (by omega)]

theorem load16_store16_self {b : List UInt8} {o : Nat} (v : UInt16) (h : o + 2 ≤ b.length) :
    load16 (store16 b o v) o = v := by
  have hv := v.toNat_lt
  have hlo : load8 (store16 b o v) o = UInt8.ofNat v.toNat := by
    rw [store16, load8_set, if_neg (by omega), load8_set, if_pos ⟨rfl, by omega⟩]
  have hhi : load8 (store16 b o v) (o + 1) = UInt8.ofNat (v.toNat / 256) := by
    rw [store16, load8_set, if_pos ⟨rfl, by rw [List.length_set]; omega⟩]
  apply UInt16.toNat_inj.mp
  rw [load16_toNat, hlo, hhi]
  simp only [UInt8.toNat_ofNat']
  omega

theorem load32_eq_iff {b : List UInt8} {o : Nat} {v : UInt32} :
    load32 b o = v ↔ load16 b o = low16 v ∧ load16 b (o + 2) = high16 v := by
  have h0 := (load16 b o).toNat_lt
  have h1 := (load16 b (o + 2)).toNat_lt
  rw [← UInt32.toNat_inj, ← UInt16.toNat_inj, ← UInt16.toNat_inj, load32_toNat, low16_toNat,
    high16_toNat]
  omega

theorem load32_store32_self {b : List UInt8} {o : Nat} (v : UInt32) (h : o + 4 ≤ b.length) :
    load32 (store32 b o v) o = v := by
  rw [load32_eq_iff, store32]
  refine ⟨?_, load16_store16_self _ (by rw [length_store16]; omega)⟩
  rw [load16_store16_of_disjoint (by omega), load16_store16_self _ (by omega)]

theorem load32_store16_store32 {b : List UInt8} {o : Nat} {v : UInt32} {w : UInt16}
    (h : o + 4 ≤ b.length) : load32 (store16 (store32 b o v) o w) o = v ↔ low16 v = w := by
  rw [load32_eq_iff, load16_store16_self _ (by rw [length_store32]; omega),
    load16_store16_of_disjoint (by omega), store32,
    load16_store16_self _ (by rw [length_store16]; omega)]
  simp [eq_comm]

theorem load32_store16_store32_high {b : List UInt8} {o : Nat} {v : UInt32} {w : UInt16}
    (h : o + 4 ≤ b.length) :
    load32 (store16 (store32 b o v) (o + 2) w) o = v ↔ high16 v = w := by
  rw [load32_eq_iff, load16_store16_self _ (by rw [length_store32]; omega),
    load16_store16_of_disjoint (by omega), store32, load16_store16_of_disjoint (by omega),
    load16_store16_self _ (by omega)]
  simp [eq_comm]

theorem load16_bytes16 (v : UInt16) (b : List UInt8) : load16 (bytes16 v ++ b) 0 = v := by
  have hv := v.toNat_lt
  show UInt16.ofNat ((UInt8.ofNat v.toNat).toNat + 256 * (UInt8.ofNat (v.toNat / 256)).toNat) = v
  apply UInt16.toNat_inj.mp
  simp only [UInt16.toNat_ofNat', UInt8.toNat_ofNat']
  omega

theorem load32_bytes32 (v : UInt32) (b : List UInt8) : load32 (bytes32 v ++ b) 0 = v :=
  load32_eq_iff.mpr ⟨load16_bytes16 (low16 v) (bytes16 (high16 v) ++ b),
    load16_bytes16 (high16 v) b⟩

@[simp] theorem length_storeBytes (b : List UInt8) (o : Nat) (v : List UInt8) :
    (storeBytes b o v).length = b.length := by
  induction v generalizing b o with
  | nil => rfl
  | cons x v ih => rw [storeBytes, ih, List.length_set]

theorem load8_storeBytes_of_disjoint {b : List UInt8} {o j : Nat} {v : List UInt8}
    (h : j < o ∨ o + v.length ≤ j) : load8 (storeBytes b o v) j = load8 b j := by
  induction v generalizing b o with
  | nil => rfl
  | cons x v ih =>
    rw [List.length_cons] at h
    rw [storeBytes, ih (by omega), load8_set, if_neg (by omega)]

theorem load16_storeBytes_of_disjoint {b : List UInt8} {o j : Nat} {v : List UInt8}
    (h : j + 2 ≤ o ∨ o + v.length ≤ j) : load16 (storeBytes b o v) j = load16 b j := by
  rw [load16, load8_storeBytes_of_disjoint (by omega), load8_storeBytes_of_disjoint (by omega),
    load16]

theorem load32_storeBytes_of_disjoint {b : List UInt8} {o j : Nat} {v : List UInt8}
    (h : j + 4 ≤ o ∨ o + v.length ≤ j) : load32 (storeBytes b o v) j = load32 b j := by
  rw [load32, load16_storeBytes_of_disjoint (by omega), load16_storeBytes_of_disjoint (by omega),
    load32]

theorem loadBytes_storeBytes_of_disjoint {b : List UInt8} {o j n : Nat} {v : List UInt8}
    (h : j + n ≤ o ∨ o + v.length ≤ j) : loadBytes (storeBytes b o v) j n = loadBytes b j n := by
  induction n generalizing j with
  | zero => rfl
  | succ n ih =>
    rw [loadBytes, ih (by omega), load8_storeBytes_of_disjoint (by omega), loadBytes]

theorem loadBytes_storeBytes_self {b : List UInt8} {o : Nat} {v : List UInt8}
    (h : o + v.length ≤ b.length) : loadBytes (storeBytes b o v) o v.length = v := by
  induction v generalizing b o with
  | nil => rfl
  | cons x v ih =>
    rw [List.length_cons] at h
    rw [List.length_cons, loadBytes, storeBytes, ih (by rw [List.length_set]; omega),
      load8_storeBytes_of_disjoint (by omega), load8_set, if_pos ⟨rfl, by omega⟩]

def bigEndian32 (n : Nat) : List UInt8 :=
  [UInt8.ofNat (n / 16777216), UInt8.ofNat (n / 65536), UInt8.ofNat (n / 256), UInt8.ofNat n]

theorem length_bytes32 (v : UInt32) : (bytes32 v).length = 4 := rfl

theorem length_bigEndian32 (n : Nat) : (bigEndian32 n).length = 4 := rfl

theorem ofNat8_congr {k l : Nat} (h : k % 256 = l % 256) : UInt8.ofNat k = UInt8.ofNat l := by
  apply UInt8.toNat_inj.mp
  rw [UInt8.toNat_ofNat', UInt8.toNat_ofNat']
  exact h

theorem bytes16_swap16 (v : UInt16) :
    bytes16 (swap16 v) = [UInt8.ofNat (v.toNat / 256), UInt8.ofNat v.toNat] := by
  have hv := v.toNat_lt
  have hhigh : (v.toNat % 256 * 256 + v.toNat / 256) / 256 = v.toNat % 256 := by omega
  rw [bytes16, swap16_toNat, hhigh, List.cons.injEq, List.cons.injEq]
  exact ⟨ofNat8_congr (by omega), ofNat8_congr (by omega), rfl⟩

theorem bytes32_swap32_ofNat (n : Nat) : bytes32 (swap32 (UInt32.ofNat n)) = bigEndian32 n := by
  have hlow : (low16 (UInt32.ofNat n)).toNat = n % 65536 := by
    rw [low16_toNat, UInt32.toNat_ofNat']
    omega
  have hhigh : (high16 (UInt32.ofNat n)).toNat = n / 65536 % 65536 := by
    rw [high16_toNat, UInt32.toNat_ofNat']
    omega
  rw [bytes32, low16_swap32, high16_swap32, bytes16_swap16, bytes16_swap16, hlow, hhigh]
  simp only [bigEndian32, List.cons_append, List.nil_append, List.cons.injEq]
  exact ⟨ofNat8_congr (by omega), ofNat8_congr (by omega), ofNat8_congr (by omega),
    ofNat8_congr (by omega), trivial⟩

/-! ## Stores over the same place -/

theorem store16_store16_self (b : List UInt8) (o : Nat) (v w : UInt16) :
    store16 (store16 b o v) o w = store16 b o w := by
  simp only [store16]
  rw [List.set_comm _ _ (show o + 1 ≠ o by omega), List.set_set, List.set_set]

theorem store16_load16_self {b : List UInt8} {o : Nat} (h : o + 2 ≤ b.length) :
    store16 b o (load16 b o) = b := by
  have hlo := (load8 b o).toNat_lt
  have hhi := (load8 b (o + 1)).toNat_lt
  have hv := load16_toNat b o
  have hbyte (j : Nat) (hj : j < b.length) : b.set j (load8 b j) = b := by
    rw [load8, List.getD_eq_getElem?_getD, List.getElem?_eq_getElem hj, Option.getD_some,
      List.set_getElem_self]
  have hlow : UInt8.ofNat (load16 b o).toNat = load8 b o := by
    apply UInt8.toNat_inj.mp
    rw [UInt8.toNat_ofNat', hv]
    omega
  have hhigh : UInt8.ofNat ((load16 b o).toNat / 256) = load8 b (o + 1) := by
    apply UInt8.toNat_inj.mp
    rw [UInt8.toNat_ofNat', hv]
    omega
  rw [store16, hlow, hhigh, hbyte o (by omega), hbyte (o + 1) (by omega)]

/-! ## Slices -/

def slice (b : List UInt8) (o n : Nat) : List UInt8 := (b.drop o).take n

@[simp] theorem length_slice (b : List UInt8) (o n : Nat) :
    (slice b o n).length = min n (b.length - o) := by
  rw [slice, List.length_take, List.length_drop]

theorem slice_store16_of_disjoint {b : List UInt8} {o n k : Nat} {v : UInt16}
    (h : k + 2 ≤ o ∨ o + n ≤ k) : slice (store16 b k v) o n = slice b o n := by
  have hset (b : List UInt8) (j : Nat) (x : UInt8) (hj : j < o ∨ o + n ≤ j) :
      slice (b.set j x) o n = slice b o n := by
    rcases hj with hj | hj
    · rw [slice, List.drop_set_of_lt hj, slice]
    · rw [slice, List.drop_set, if_neg (by omega), List.take_set_of_le (by omega), slice]
  rw [store16, hset _ _ _ (by omega), hset _ _ _ (by omega)]

theorem slice_store16_inside {b : List UInt8} {o n k : Nat} {v : UInt16} (h : o ≤ k) :
    slice (store16 b k v) o n = store16 (slice b o n) (k - o) v := by
  have hset (b : List UInt8) (j : Nat) (x : UInt8) (hj : o ≤ j) :
      slice (b.set j x) o n = (slice b o n).set (j - o) x := by
    rw [slice, List.drop_set, if_neg (by omega), List.take_set, slice]
  rw [store16, hset _ _ _ (by omega), hset _ _ _ h, store16, Nat.sub_add_comm h]

theorem slice_store32_of_disjoint {b : List UInt8} {o n k : Nat} {v : UInt32}
    (h : k + 4 ≤ o ∨ o + n ≤ k) : slice (store32 b k v) o n = slice b o n := by
  rw [store32, slice_store16_of_disjoint (by omega), slice_store16_of_disjoint (by omega)]

theorem drop_store16_of_le {b : List UInt8} {o k : Nat} {v : UInt16} (h : k + 2 ≤ o) :
    (store16 b k v).drop o = b.drop o := by
  rw [store16, List.drop_set_of_lt (by omega), List.drop_set_of_lt (by omega)]

theorem drop_store32_of_le {b : List UInt8} {o k : Nat} {v : UInt32} (h : k + 4 ≤ o) :
    (store32 b k v).drop o = b.drop o := by
  rw [store32, drop_store16_of_le (by omega), drop_store16_of_le (by omega)]

theorem drop_skip {b front rest : List UInt8} {o n : Nat} (h : b.drop o = front ++ rest)
    (hn : front.length = n) : b.drop (o + n) = rest := by
  rw [← List.drop_drop, h, List.drop_left' hn]

theorem load8_drop (b : List UInt8) (o k : Nat) : load8 (b.drop o) k = load8 b (o + k) := by
  rw [load8, load8, List.getD_eq_getElem?_getD, List.getD_eq_getElem?_getD, List.getElem?_drop]

theorem load16_drop (b : List UInt8) (o k : Nat) : load16 (b.drop o) k = load16 b (o + k) := by
  rw [load16, load8_drop, load8_drop, load16, Nat.add_assoc]

theorem load32_drop (b : List UInt8) (o k : Nat) : load32 (b.drop o) k = load32 b (o + k) := by
  rw [load32, load16_drop, load16_drop, load32, Nat.add_assoc]

theorem load8_append_left {b c : List UInt8} {o : Nat} (h : o < b.length) :
    load8 (b ++ c) o = b[o] := by
  rw [load8, List.getD_eq_getElem?_getD, List.getElem?_append_left h, List.getElem?_eq_getElem h,
    Option.getD_some]

theorem drop_slice (b : List UInt8) (o n k : Nat) :
    (slice b o n).drop k = slice b (o + k) (n - k) := by
  rw [slice, List.drop_take, List.drop_drop, slice]

theorem load8_slice {b : List UInt8} {o n k : Nat} (h : k < n) :
    load8 (slice b o n) k = load8 b (o + k) := by
  rw [load8, load8, slice, List.getD_eq_getElem?_getD, List.getD_eq_getElem?_getD,
    List.getElem?_take_of_lt h, List.getElem?_drop]

theorem load8_mem_slice {b : List UInt8} {o n k : Nat} (hk : k < n) (hb : o + k < b.length) :
    load8 b (o + k) ∈ slice b o n := by
  have hlen : k < (slice b o n).length := by
    rw [length_slice]
    omega
  rw [← load8_slice hk, load8, List.getD_eq_getElem?_getD, List.getElem?_eq_getElem hlen]
  exact List.getElem_mem hlen

theorem load16_slice {b : List UInt8} {o n k : Nat} (h : k + 2 ≤ n) :
    load16 (slice b o n) k = load16 b (o + k) := by
  rw [load16, load8_slice (by omega), load8_slice (by omega), load16, Nat.add_assoc]

theorem load32_slice {b : List UInt8} {o n k : Nat} (h : k + 4 ≤ n) :
    load32 (slice b o n) k = load32 b (o + k) := by
  rw [load32, load16_slice (by omega), load16_slice (by omega), load32, Nat.add_assoc]

end ByteBuffer
