import TrafficPrioritizer.NatEngine.Checksums
import Mathlib.Algebra.BigOperators.Fin
import Mathlib.Algebra.Order.BigOperators.Group.Finset

/-! The incremental update over any words and any run of replacements. A sum folds to `0xFFFF`
when it is a multiple of `65535` other than zero; every update keeps the residue, and a word
other than zero keeps the sum from being zero. -/

namespace Hpgtp
open ByteBuffer OnesComplement

structure Summed (n : ℕ) where
  words : Fin n → UInt16
  check : UInt16

inductive Replacement (n : ℕ)
  | word (i : Fin n) (new : UInt16)
  | address (i j : Fin n) (adjacent : j.val = i.val + 1) (new : IPv4Net)

namespace Summed
variable {n : ℕ}

def sum (s : Summed n) : ℕ := ∑ i, (ntohs (s.words i)).toNat + (ntohs s.check).toNat

def Verifies (s : Summed n) : Prop := fold s.sum = 0xFFFF

def replaceWord (s : Summed n) (i : Fin n) (new : UInt16) : Summed n where
  words := Function.update s.words i new
  check := updateChecksum16 s.check (s.words i) new

def replace (s : Summed n) : Replacement n → Summed n
  | .word i new => s.replaceWord i new
  | .address i j _ new =>
    { words := Function.update (Function.update s.words i (low16 new.raw)) j (high16 new.raw)
      check := updateChecksum32 s.check ⟨load32 (bytes16 (s.words i) ++ bytes16 (s.words j)) 0⟩
        new }

theorem replace_address (s : Summed n) {i j : Fin n} (h : j.val = i.val + 1) (new : IPv4Net) :
    s.replace (.address i j h new) =
      (s.replaceWord i (low16 new.raw)).replaceWord j (high16 new.raw) := by
  have hne : j ≠ i := fun heq => by rw [heq] at h; omega
  obtain ⟨hlow, hhigh⟩ := load32_eq_iff.mp
    (rfl : load32 (bytes16 (s.words i) ++ bytes16 (s.words j)) 0 = _)
  have hj : load16 (bytes16 (s.words i) ++ bytes16 (s.words j)) 2 = s.words j := by
    have hword := load16_bytes16 (s.words j) []
    rw [List.append_nil] at hword
    exact hword
  rw [load16_bytes16] at hlow
  rw [Nat.zero_add, hj] at hhigh
  simp only [replace, replaceWord, updateChecksum32, ← hlow, ← hhigh, Function.update_of_ne hne]

theorem sum_replaceWord (s : Summed n) (i : Fin n) (new : UInt16) :
    (s.replaceWord i new).sum % 65535 = s.sum % 65535 := by
  obtain ⟨hcheck, -⟩ := updateChecksum16_spec s.check (s.words i) new
  -- of the words only the one replaced changes
  have hold := Finset.add_sum_erase Finset.univ (fun k => (ntohs (s.words k)).toNat)
    (Finset.mem_univ i)
  have hnew := Finset.add_sum_erase Finset.univ
    (fun k => (ntohs (Function.update s.words i new k)).toNat) (Finset.mem_univ i)
  have hrest : ∑ k ∈ Finset.univ.erase i, (ntohs (Function.update s.words i new k)).toNat =
      ∑ k ∈ Finset.univ.erase i, (ntohs (s.words k)).toNat :=
    Finset.sum_congr rfl fun k hk => by rw [Function.update_of_ne (Finset.ne_of_mem_erase hk)]
  rw [hrest, Function.update_self] at hnew
  rw [sum, sum, ← hold]
  show (∑ k, (ntohs (Function.update s.words i new k)).toNat +
    (ntohs (updateChecksum16 s.check (s.words i) new)).toNat) % 65535 = _
  rw [← hnew]
  omega

theorem sum_replace (s : Summed n) (r : Replacement n) :
    (s.replace r).sum % 65535 = s.sum % 65535 := by
  cases r with
  | word i new => exact sum_replaceWord s i new
  | address i j h new => rw [replace_address, sum_replaceWord, sum_replaceWord]

theorem sum_ne_zero {s : Summed n} {i : Fin n} (h : s.words i ≠ 0) : s.sum ≠ 0 := by
  have hword : 0 < (ntohs (s.words i)).toNat :=
    Nat.pos_of_ne_zero fun hzero => h (ntohs_toNat_eq_zero.mp hzero)
  have hle : (ntohs (s.words i)).toNat ≤ ∑ k, (ntohs (s.words k)).toNat :=
    Finset.single_le_sum (f := fun k => (ntohs (s.words k)).toNat) (fun _ _ => Nat.zero_le _)
      (Finset.mem_univ i)
  rw [sum]
  omega

end Summed

def updateSum (check oldVal newVal : UInt16) : ℕ :=
  (~~~(ntohs check)).toNat + (~~~(ntohs oldVal)).toNat + (ntohs newVal).toNat

/-- The two rounds of `update_checksum_16` are the whole fold, of a sum that fits 32 bits. -/
theorem updateChecksum16_carries (check oldVal newVal : UInt16) :
    updateSum check oldVal newVal < 2 ^ 32 ∧
      (ntohs (updateChecksum16 check oldVal newVal)).toNat =
        65535 - fold (updateSum check oldVal newVal) := by
  have hc := (~~~(ntohs check)).toNat_lt
  have ho := (~~~(ntohs oldVal)).toNat_lt
  have hn := (ntohs newVal).toNat_lt
  have hlt : updateSum check oldVal newVal < 65536 * 65536 := by
    unfold updateSum
    omega
  refine ⟨hlt, ?_⟩
  rw [fold_eq_twice hlt rfl, updateChecksum16, ntohs_htons, toNat_complement]
  rfl

/-- Words that verify still do after any run of replacements that leaves one of them other than
zero, and no update on the way loses a carry. -/
theorem incremental_checksum_verifies {n : ℕ} {s : Summed n} (hverifies : s.Verifies)
    (rs : List (Replacement n))
    (hword : ∃ i, (LabelledRun.exec Summed.replace s rs).words i ≠ 0) :
    (LabelledRun.exec Summed.replace s rs).Verifies ∧
      ∀ check oldVal newVal : UInt16, updateSum check oldVal newVal < 2 ^ 32 ∧
        (ntohs (updateChecksum16 check oldVal newVal)).toNat =
          65535 - fold (updateSum check oldVal newVal) := by
  obtain ⟨i, hi⟩ := hword
  have hsum : (LabelledRun.exec Summed.replace s rs).sum % 65535 = s.sum % 65535 :=
    LabelledRun.invariant (I := fun t : Summed n => t.sum % 65535 = s.sum % 65535)
      (fun t r ht => (t.sum_replace r).trans ht) rs rfl
  obtain ⟨hzero, -⟩ := fold_eq_iff.mp hverifies
  exact ⟨fold_eq_iff.mpr ⟨hsum.trans hzero, Summed.sum_ne_zero hi⟩, updateChecksum16_carries⟩

theorem incremental_checksum_through_zero :
    let s : Summed 3 := ⟨![0xFFFF, 0, 0], 0xFFFF⟩
    let rs : List (Replacement 3) :=
      [.word 0 0, .address 1 2 rfl (octets 192 168 1 10), .word 0 0xFFFF]
    s.Verifies ∧ (LabelledRun.exec Summed.replace s rs).Verifies := by
  intro s rs
  have hs : s.Verifies := fold_eq_iff.mpr (by decide +kernel)
  exact ⟨hs, (incremental_checksum_verifies hs rs ⟨0, by decide +kernel⟩).1⟩

end Hpgtp
