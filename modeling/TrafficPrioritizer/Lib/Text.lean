import Mathlib.Algebra.Order.Ring.Nat
import Mathlib.Data.List.Basic
import Mathlib.Data.List.TakeWhile

/-! Texts as bytes: C strings, lines that end in a newline, and unsigned decimals
as `printf` writes them and `from_chars` reads them. -/

namespace Text

def ascii (s : String) : List UInt8 := s.toList.map fun ch => UInt8.ofNat ch.toNat

def cString (s : List UInt8) : List UInt8 := s.takeWhile (· ≠ 0)

theorem cString_of_notMem {s : List UInt8} (h : 0 ∉ s) : cString s = s := by
  refine List.takeWhile_eq_self_iff.mpr fun b hb => ?_
  exact decide_eq_true (ne_of_mem_of_not_mem hb h)

theorem notMem_cString (s : List UInt8) : 0 ∉ cString s := fun h => by
  simpa using List.mem_takeWhile_imp h

theorem mem_of_mem_cString {s : List UInt8} {b : UInt8} (h : b ∈ cString s) : b ∈ s :=
  (List.takeWhile_prefix _).subset h

theorem length_cString_le (s : List UInt8) : (cString s).length ≤ s.length :=
  (List.takeWhile_prefix _).length_le

/-! ## Lines -/

def lines : List UInt8 → List (List UInt8)
  | [] => []
  | b :: bs =>
    if b = 10 then [] :: lines bs
    else match lines bs with
      | [] => [[b]]
      | l :: ls => (b :: l) :: ls

def unlines (ls : List (List UInt8)) : List UInt8 := (ls.map (· ++ [10])).flatten

theorem lines_append {l : List UInt8} (h : 10 ∉ l) (rest : List UInt8) :
    lines (l ++ 10 :: rest) = l :: lines rest := by
  induction l with
  | nil => rfl
  | cons b bs ih =>
    obtain ⟨hb, hbs⟩ := not_or.mp (mt List.mem_cons.mpr h)
    rw [List.cons_append, lines, if_neg (Ne.symm hb), ih hbs]

theorem lines_unlines {ls : List (List UInt8)} (h : ∀ l ∈ ls, 10 ∉ l) :
    lines (unlines ls) = ls := by
  induction ls with
  | nil => rfl
  | cons l ls ih =>
    obtain ⟨hl, hls⟩ := List.forall_mem_cons.mp h
    rw [unlines, List.map_cons, List.flatten_cons, List.append_assoc, List.singleton_append,
      lines_append hl]
    exact congrArg _ (ih hls)

theorem notMem_of_mem_lines {text l : List UInt8} (h : l ∈ lines text) : 10 ∉ l := by
  induction text generalizing l with
  | nil => cases h
  | cons b bs ih =>
    rw [lines] at h
    split_ifs at h with hb
    · rcases List.mem_cons.mp h with rfl | h
      · exact List.not_mem_nil
      · exact ih h
    · cases hrest : lines bs with
      | nil =>
        rw [hrest] at h
        rw [List.mem_singleton.mp h, List.mem_singleton]
        exact Ne.symm hb
      | cons l' ls =>
        rw [hrest] at h ih
        rcases List.mem_cons.mp h with rfl | h
        · exact mt List.mem_cons.mp (not_or.mpr ⟨Ne.symm hb, ih List.mem_cons_self⟩)
        · exact ih (List.mem_cons_of_mem _ h)

theorem length_unlines_le {ls : List (List UInt8)} {n : ℕ} (h : ∀ l ∈ ls, l.length ≤ n) :
    (unlines ls).length ≤ ls.length * (n + 1) := by
  induction ls with
  | nil => exact Nat.zero_le _
  | cons l ls ih =>
    obtain ⟨hl, hls⟩ := List.forall_mem_cons.mp h
    have hrest := ih hls
    rw [unlines] at hrest ⊢
    rw [List.map_cons, List.flatten_cons, List.length_append, List.length_append,
      List.length_singleton, List.length_cons, Nat.succ_mul]
    omega

/-! ## Decimals -/

def isDigit (b : UInt8) : Bool := 48 ≤ b ∧ b ≤ 57

def digit (n : ℕ) : UInt8 := UInt8.ofNat (48 + n)

def digitsValue (s : List UInt8) : ℕ := s.foldl (fun v b => 10 * v + (b.toNat - 48)) 0

def decimalDigits : ℕ → ℕ → List UInt8
  | 0, _ => []
  | fuel + 1, n => (if n < 10 then [] else decimalDigits fuel (n / 10)) ++ [digit (n % 10)]

def decimal (n : ℕ) : List UInt8 := decimalDigits (n + 1) n

theorem toNat_digit {n : ℕ} (h : n < 10) : (digit n).toNat = 48 + n := by
  rw [digit, UInt8.toNat_ofNat_of_lt' (by simp [UInt8.size]; omega)]

theorem isDigit_digit {n : ℕ} (h : n < 10) : isDigit (digit n) = true := by
  have hn := toNat_digit h
  simp only [isDigit, UInt8.le_iff_toNat_le, hn, decide_eq_true_eq]
  exact ⟨Nat.le_add_right _ _, by show 48 + n ≤ 57; omega⟩

theorem digitsValue_concat (s : List UInt8) (b : UInt8) :
    digitsValue (s ++ [b]) = 10 * digitsValue s + (b.toNat - 48) := by
  rw [digitsValue, List.foldl_append]
  rfl

theorem digitsValue_decimalDigits {fuel n : ℕ} (h : n < 10 ^ fuel) :
    digitsValue (decimalDigits fuel n) = n := by
  induction fuel generalizing n with
  | zero =>
    rw [pow_zero] at h
    exact (Nat.lt_one_iff.mp h).symm
  | succ fuel ih =>
    have hdigit := toNat_digit (Nat.mod_lt n (show 10 > 0 by decide))
    rw [decimalDigits, digitsValue_concat, hdigit]
    split_ifs with hn
    · show 10 * 0 + _ = n
      omega
    · rw [ih (by rw [pow_succ] at h; omega)]
      omega

theorem digitsValue_decimal (n : ℕ) : digitsValue (decimal n) = n := by
  refine digitsValue_decimalDigits ?_
  calc n < n + 1 := Nat.lt_succ_self n
    _ < 10 ^ (n + 1) := Nat.lt_pow_self (by decide)

theorem isDigit_of_mem_decimalDigits {fuel n : ℕ} {b : UInt8} (h : b ∈ decimalDigits fuel n) :
    isDigit b = true := by
  induction fuel generalizing n with
  | zero => cases h
  | succ fuel ih =>
    rw [decimalDigits, List.mem_append] at h
    rcases h with h | h
    · split_ifs at h
      · cases h
      · exact ih h
    · rw [List.mem_singleton.mp h]
      exact isDigit_digit (Nat.mod_lt _ (by decide))

theorem isDigit_of_mem_decimal {n : ℕ} {b : UInt8} (h : b ∈ decimal n) : isDigit b = true :=
  isDigit_of_mem_decimalDigits h

theorem length_decimalDigits_le {k n : ℕ} (h : n < 10 ^ (k + 1)) (fuel : ℕ) :
    (decimalDigits fuel n).length ≤ k + 1 := by
  induction fuel generalizing k n with
  | zero => exact Nat.zero_le _
  | succ fuel ih =>
    rw [decimalDigits, List.length_append, List.length_singleton]
    split_ifs with hn
    · exact Nat.le_add_left 1 k
    · cases k with
      | zero => exact absurd h hn
      | succ k =>
        have := ih (k := k) (n := n / 10) (by rw [pow_succ] at h; omega)
        omega

theorem length_decimal_le {k n : ℕ} (h : n < 10 ^ (k + 1)) : (decimal n).length ≤ k + 1 :=
  length_decimalDigits_le h _

theorem head_decimalDigits {fuel n : ℕ} (hpos : 0 < n) (h : n < 10 ^ fuel) :
    (decimalDigits fuel n).head? ≠ some 48 := by
  induction fuel generalizing n with
  | zero => exact nofun
  | succ fuel ih =>
    rw [decimalDigits]
    split_ifs with hn
    · intro heq
      have hdigit := toNat_digit (Nat.mod_lt n (show 10 > 0 by decide))
      rw [Option.some.inj heq, show (48 : UInt8).toNat = 48 from rfl] at hdigit
      omega
    · have hlt : n / 10 < 10 ^ fuel := by
        rw [pow_succ] at h
        omega
      have hne : decimalDigits fuel (n / 10) ≠ [] := by
        intro hnil
        have hvalue := digitsValue_decimalDigits hlt
        rw [hnil] at hvalue
        change 0 = n / 10 at hvalue
        omega
      rw [List.head?_append_of_ne_nil _ hne]
      exact ih (by omega) hlt

theorem decimal_canonical (n : ℕ) : (decimal n).length = 1 ∨ (decimal n).head? ≠ some 48 := by
  rcases Nat.eq_zero_or_pos n with rfl | hpos
  · exact .inl rfl
  · exact .inr (head_decimalDigits hpos ((Nat.lt_succ_self n).trans (Nat.lt_pow_self (by decide))))

theorem decimal_ne_nil (n : ℕ) : decimal n ≠ [] := by
  rw [decimal, decimalDigits]
  exact List.append_ne_nil_of_right_ne_nil _ (List.cons_ne_nil _ _)

/-- `from_chars` into a `uint32_t` that was zero: the value of the digits in front, and zero when
there are none or too many. -/
def parseU32 (s : List UInt8) : UInt32 :=
  let v := digitsValue (s.takeWhile isDigit)
  if v < 2 ^ 32 then UInt32.ofNat v else 0

theorem parseU32_decimal {n : ℕ} (h : n < 2 ^ 32) : parseU32 (decimal n) = UInt32.ofNat n := by
  have hall : (decimal n).takeWhile isDigit = decimal n :=
    List.takeWhile_eq_self_iff.mpr fun _ hb => isDigit_of_mem_decimal hb
  simp only [parseU32, hall, digitsValue_decimal, if_pos h]

theorem parseU32_of_head {b : UInt8} (s : List UInt8) (h : isDigit b = false) :
    parseU32 (b :: s) = 0 := by
  have hnone : (b :: s).takeWhile isDigit = [] := List.takeWhile_cons_of_neg (by simp [h])
  rw [parseU32, hnone]
  rfl

end Text
