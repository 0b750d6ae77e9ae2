import Mathlib.Data.List.TakeWhile
import TrafficPrioritizer.Lib.Text

/-! The conversions of `sscanf` that read words and hexadecimal numbers, and a text read line by
line in the way of a pointer that `sscanf` is called on: each time with all that follows. A text
that is cut off anywhere gives the rows in front of the cut, as long as a row that is cut itself
is refused or has been read to its end. -/

namespace Scanf
open Text

def isSpace (b : UInt8) : Bool := b = 32 ∨ 9 ≤ b ∧ b ≤ 13

def word (width : ℕ) (s : List UInt8) : Option (List UInt8 × List UInt8) :=
  let s := s.dropWhile isSpace
  let w := (s.takeWhile fun b => !isSpace b).take width
  if w = [] then none else some (w, s.drop w.length)

def words : List ℕ → List UInt8 → List (List UInt8)
  | [], _ => []
  | width :: widths, s =>
    match word width s with
    | none => []
    | some (w, rest) => w :: words widths rest

theorem word_skip {gap : List UInt8} (h : ∀ b ∈ gap, isSpace b = true) (width : ℕ)
    (s : List UInt8) : word width (gap ++ s) = word width s := by
  simp only [word, List.dropWhile_append_of_pos h]

theorem word_append {width : ℕ} {w rest : List UInt8} (hne : w ≠ [])
    (hw : ∀ b ∈ w, isSpace b = false) (hle : w.length ≤ width)
    (hrest : ∀ b ∈ rest.head?, isSpace b = true) : word width (w ++ rest) = some (w, rest) := by
  have hskip : (w ++ rest).dropWhile isSpace = w ++ rest := by
    obtain ⟨b, w, rfl⟩ := List.exists_cons_of_ne_nil hne
    rw [List.cons_append, List.dropWhile_cons_of_neg]
    rw [hw b List.mem_cons_self]
    exact Bool.false_ne_true
  have hnext : rest.takeWhile (fun b => !isSpace b) = [] := by
    cases rest with
    | nil => rfl
    | cons b rest => exact List.takeWhile_cons_of_neg (by simp [hrest b rfl])
  have htake : (w ++ rest).takeWhile (fun b => !isSpace b) = w := by
    rw [List.takeWhile_append_of_pos fun b hb => by simp [hw b hb], hnext, List.append_nil]
  simp only [word, hskip, htake, List.take_of_length_le hle, if_neg hne, List.drop_left]

theorem words_nil (widths : List ℕ) : words widths [] = [] := by
  cases widths with
  | nil => rfl
  | cons width widths => simp [words, word]

theorem word_of_front {width : ℕ} {s w rest : List UInt8} (h : word width s = some (w, rest))
    (t : List UInt8) : word width (s ++ t) = some (w, rest ++ t) ∨
      rest = [] ∧ ∃ w' rest', word width (s ++ t) = some (w', rest') ∧ w <+: w' := by
  simp only [word] at h
  split_ifs at h with hne
  obtain ⟨rfl, rfl⟩ := Prod.mk.injEq .. ▸ Option.some.inj h
  set u := s.dropWhile isSpace with hu
  have hu_ne : u ≠ [] := by
    intro hnil
    rw [hnil] at hne
    exact hne List.take_nil
  have hskip : (s ++ t).dropWhile isSpace = u ++ t := by
    rw [List.dropWhile_append, if_neg]
    rwa [List.isEmpty_iff]
  simp only [word, hskip]
  by_cases hall : ∀ b ∈ u, isSpace b = false
  · -- no blank up to the end of the front: the word may go on behind it
    have hfront : u.takeWhile (fun b => !isSpace b) = u :=
      List.takeWhile_eq_self_iff.mpr fun b hb => by simp [hall b hb]
    have hboth : (u ++ t).takeWhile (fun b => !isSpace b) =
        u ++ t.takeWhile fun b => !isSpace b :=
      List.takeWhile_append_of_pos fun b hb => by simp [hall b hb]
    rw [hfront] at hne ⊢
    rw [hboth]
    rcases le_total u.length width with hlen | hlen
    · right
      have hpre : u <+: (u ++ t.takeWhile fun b => !isSpace b).take width := by
        rw [List.take_append, List.take_of_length_le hlen]
        exact List.prefix_append _ _
      refine ⟨?_, _, _, if_neg ?_, ?_⟩
      · rw [List.take_of_length_le hlen, List.drop_length]
      · intro hnil
        rw [hnil] at hpre
        exact hu_ne (List.prefix_nil.mp hpre)
      · rwa [List.take_of_length_le hlen]
    · left
      rw [List.take_append_of_le_length hlen, if_neg hne, List.drop_append_of_le_length]
      rw [List.length_take]
      exact Nat.min_le_right _ _
  · left
    push Not at hall
    have hlt : (u.takeWhile fun b => !isSpace b).length < u.length := by
      refine lt_of_le_of_ne (List.takeWhile_prefix _).length_le fun heq => ?_
      obtain ⟨b, hb, hspace⟩ := hall
      have hself := (List.takeWhile_prefix _).eq_of_length heq
      rw [← hself] at hb
      have := List.mem_takeWhile_imp hb
      simp_all
    have hboth : (u ++ t).takeWhile (fun b => !isSpace b) = u.takeWhile fun b => !isSpace b := by
      rw [List.takeWhile_append, if_neg hlt.ne]
    rw [hboth, if_neg hne, List.drop_append_of_le_length]
    rw [List.length_take]
    exact (Nat.min_le_right _ _).trans hlt.le

/-- What is read from the front of a text: some of its words, the last of them cut or not. -/
def CutOff (front whole : List (List UInt8)) : Prop :=
  front <+: whole ∨ ∃ init w w' rest, front = init ++ [w] ∧ whole = init ++ w' :: rest ∧ w <+: w'

theorem words_cutOff (widths : List ℕ) (s t : List UInt8) :
    CutOff (words widths s) (words widths (s ++ t)) := by
  induction widths generalizing s with
  | nil => exact .inl (List.prefix_refl _)
  | cons width widths ih =>
    cases hword : word width s with
    | none =>
      simp only [words, hword]
      exact .inl (List.nil_prefix)
    | some p =>
      obtain ⟨w, rest⟩ := p
      rcases word_of_front hword t with hwhole | ⟨rfl, w', rest', hwhole, hpre⟩
      · simp only [words, hword, hwhole]
        rcases ih rest with hpre | ⟨init, v, v', more, hfront, hall, hpre⟩
        · exact .inl (List.cons_prefix_cons.mpr ⟨rfl, hpre⟩)
        · exact .inr ⟨w :: init, v, v', more, by rw [hfront]; rfl, by rw [hall]; rfl, hpre⟩
      · simp only [words, hword, hwhole, words_nil]
        exact .inr ⟨[], w, w', words widths rest', rfl, rfl, hpre⟩

theorem CutOff.eq_of_length {init front : List (List UInt8)} {w : List UInt8}
    (h : CutOff front (init ++ [w])) (hlen : front.length = init.length + 1) :
    ∃ v, front = init ++ [v] ∧ v <+: w := by
  rcases h with hpre | ⟨init', v, w', rest, rfl, hwhole, hpre⟩
  · refine ⟨w, hpre.eq_of_length ?_, List.prefix_refl _⟩
    rw [hlen, List.length_append, List.length_singleton]
  · have hinit : init'.length = init.length := by
      rw [List.length_append, List.length_singleton] at hlen
      omega
    obtain ⟨rfl, hlast⟩ := List.append_inj hwhole.symm hinit
    obtain ⟨rfl, -⟩ := List.cons.inj hlast
    exact ⟨v, rfl, hpre⟩

/-! ## Columns -/

structure Word (width : ℕ) where
  bytes : List UInt8
  ne_nil : bytes ≠ []
  length_le : bytes.length ≤ width
  plain : ∀ b ∈ bytes, isSpace b = false ∧ b ≠ 0

structure Gap where
  bytes : List UInt8
  ne_nil : bytes ≠ []
  blank : ∀ b ∈ bytes, b = 32 ∨ b = 9

structure Cell where
  width : ℕ
  word : Word width
  gap : Gap

def columns (cells : List Cell) : List UInt8 :=
  cells.flatMap fun c => c.word.bytes ++ c.gap.bytes

theorem Gap.isSpace (g : Gap) {b : UInt8} (hb : b ∈ g.bytes) : isSpace b = true := by
  rcases g.blank b hb with rfl | rfl <;> decide

theorem words_skip (g : Gap) (widths : List ℕ) (s : List UInt8) :
    words widths (g.bytes ++ s) = words widths s := by
  cases widths with
  | nil => rfl
  | cons width widths => rw [words, words, word_skip fun b hb => g.isSpace hb]

theorem word_cell (c : Cell) (s : List UInt8) :
    word c.width (c.word.bytes ++ (c.gap.bytes ++ s)) = some (c.word.bytes, c.gap.bytes ++ s) := by
  refine word_append c.word.ne_nil (fun b hb => (c.word.plain b hb).1) c.word.length_le ?_
  intro b hb
  obtain ⟨g, gap, hgap⟩ := List.exists_cons_of_ne_nil c.gap.ne_nil
  rw [hgap, List.cons_append, List.head?_cons, Option.mem_some_iff] at hb
  exact c.gap.isSpace (hgap ▸ hb ▸ List.mem_cons_self)

theorem words_columns (cells : List Cell) (rest : List UInt8) :
    words (cells.map Cell.width) (columns cells ++ rest) = cells.map fun c => c.word.bytes := by
  induction cells with
  | nil => rfl
  | cons c cells ih =>
    have htext : columns (c :: cells) ++ rest =
        c.word.bytes ++ (c.gap.bytes ++ (columns cells ++ rest)) := by
      simp only [columns, List.flatMap_cons, List.append_assoc]
    rw [htext, List.map_cons, words, word_cell, List.map_cons]
    dsimp only
    rw [words_skip, ih]

theorem columns_plain {cells : List Cell} {b : UInt8} (hb : b ∈ columns cells) :
    b ≠ 10 ∧ b ≠ 0 := by
  obtain ⟨c, -, hb⟩ := List.mem_flatMap.mp hb
  rcases List.mem_append.mp hb with hb | hb
  · refine ⟨?_, (c.word.plain b hb).2⟩
    rintro rfl
    exact absurd (c.word.plain 10 hb).1 (by decide)
  · rcases c.gap.blank b hb with rfl | rfl <;> decide

/-! ## Hexadecimal numbers -/

def hexDigit (b : UInt8) : Option ℕ :=
  if 48 ≤ b ∧ b ≤ 57 then some (b.toNat - 48)
  else if 97 ≤ b ∧ b ≤ 102 then some (b.toNat - 87)
  else if 65 ≤ b ∧ b ≤ 70 then some (b.toNat - 55)
  else none

def hexValue (s : List UInt8) : ℕ := s.foldl (fun v b => 16 * v + (hexDigit b).getD 0) 0

def skip0x : List UInt8 → List UInt8
  | 48 :: x :: s => if x = 120 ∨ x = 88 then s else 48 :: x :: s
  | s => s

/-- `%x` into an `unsigned`: the digits are converted as by `strtoul`, to 64 bits. -/
def hex (s : List UInt8) : Option (UInt32 × List UInt8) :=
  let s := s.dropWhile isSpace
  let negative := s.head? == some 45
  let s := if negative || s.head? == some 43 then s.tail else s
  let s := skip0x s
  let ds := s.takeWhile fun b => (hexDigit b).isSome
  if ds = [] then none
  else
    let v := hexValue ds
    let v := if v < 2 ^ 64 then if negative then 0 - UInt32.ofNat v else UInt32.ofNat v
      else 0xFFFFFFFF
    some (v, s.drop ds.length)

def hexes (sep : UInt8) : ℕ → List UInt8 → List UInt32
  | 0, _ => []
  | count + 1, s =>
    match hex s with
    | none => []
    | some (v, rest) => v :: if rest.head? = some sep then hexes sep count rest.tail else []

def hexChar (letter : UInt8) (d : ℕ) : UInt8 :=
  if d < 10 then UInt8.ofNat (48 + d) else UInt8.ofNat (letter.toNat + (d - 10))

def hexDigits (letter : UInt8) : ℕ → ℕ → List UInt8
  | 0, _ => []
  | width + 1, n => hexDigits letter width (n / 16) ++ [hexChar letter (n % 16)]

def IsLetter (letter : UInt8) : Prop := letter = 97 ∨ letter = 65

theorem hexDigit_hexChar {letter : UInt8} (hl : IsLetter letter) {d : ℕ} (hd : d < 16) :
    hexDigit (hexChar letter d) = some d := by
  have hall : ∀ d : Fin 16, hexDigit (hexChar 97 d) = some d.val ∧
      hexDigit (hexChar 65 d) = some d.val := by decide
  rcases hl with rfl | rfl
  · exact (hall ⟨d, hd⟩).1
  · exact (hall ⟨d, hd⟩).2

theorem length_hexDigits (letter : UInt8) (width n : ℕ) :
    (hexDigits letter width n).length = width := by
  induction width generalizing n with
  | zero => rfl
  | succ width ih => rw [hexDigits, List.length_append, ih, List.length_singleton]

theorem hexDigit_of_mem {letter : UInt8} (hl : IsLetter letter) {width n : ℕ} {b : UInt8}
    (h : b ∈ hexDigits letter width n) : (hexDigit b).isSome = true := by
  induction width generalizing n with
  | zero => cases h
  | succ width ih =>
    rw [hexDigits, List.mem_append, List.mem_singleton] at h
    rcases h with h | rfl
    · exact ih h
    · rw [hexDigit_hexChar hl (Nat.mod_lt _ (by decide))]
      rfl

theorem hexValue_hexDigits {letter : UInt8} (hl : IsLetter letter) {width n : ℕ}
    (h : n < 16 ^ width) : hexValue (hexDigits letter width n) = n := by
  induction width generalizing n with
  | zero =>
    rw [pow_zero] at h
    exact (Nat.lt_one_iff.mp h).symm
  | succ width ih =>
    have hrest := ih (n := n / 16) (by rw [pow_succ] at h; omega)
    unfold hexValue at hrest ⊢
    rw [hexDigits, List.foldl_append, hrest, List.foldl_cons, List.foldl_nil,
      hexDigit_hexChar hl (Nat.mod_lt _ (by decide)), Option.getD_some]
    omega

theorem plain_of_hexDigit {b : UInt8} (h : (hexDigit b).isSome = true) :
    isSpace b = false ∧ b ≠ 0 ∧ b ≠ 45 ∧ b ≠ 43 ∧ b ≠ 120 ∧ b ≠ 88 ∧ b ≠ 58 := by
  have hall : ∀ n : Fin 256, (hexDigit (UInt8.ofNat n)).isSome = true →
      isSpace (UInt8.ofNat n) = false ∧ UInt8.ofNat n ≠ 0 ∧ UInt8.ofNat n ≠ 45 ∧
        UInt8.ofNat n ≠ 43 ∧ UInt8.ofNat n ≠ 120 ∧ UInt8.ofNat n ≠ 88 ∧ UInt8.ofNat n ≠ 58 := by
    decide +kernel
  have hb := hall ⟨b.toNat, b.toNat_lt⟩
  rw [UInt8.ofNat_toNat] at hb
  exact hb h

theorem hex_append {ds rest : List UInt8} (hds : ∀ b ∈ ds, (hexDigit b).isSome = true)
    (hlen : 2 ≤ ds.length) (hvalue : hexValue ds < 2 ^ 64)
    (hrest : ∀ b ∈ rest.head?, hexDigit b = none) :
    hex (ds ++ rest) = some (UInt32.ofNat (hexValue ds), rest) := by
  obtain ⟨d, e, ds', rfl⟩ : ∃ d e ds', ds = d :: e :: ds' := by
    match ds, hlen with
    | d :: e :: ds', _ => exact ⟨d, e, ds', rfl⟩
  obtain ⟨hspace, -, hminus, hplus, -, -, -⟩ := plain_of_hexDigit (hds d (by simp))
  obtain ⟨-, -, -, -, hx, hX, -⟩ := plain_of_hexDigit (hds e (by simp))
  have hskip : (d :: e :: ds' ++ rest).dropWhile isSpace = d :: e :: ds' ++ rest := by
    rw [List.cons_append, List.dropWhile_cons_of_neg]
    rw [hspace]
    exact Bool.false_ne_true
  have h0x : skip0x (d :: e :: ds' ++ rest) = d :: e :: ds' ++ rest := by
    rw [List.cons_append, List.cons_append]
    unfold skip0x
    split
    · next x s heq =>
      obtain ⟨rfl, hrest⟩ := List.cons.inj heq
      obtain ⟨rfl, rfl⟩ := List.cons.inj hrest
      rw [if_neg (not_or.mpr ⟨hx, hX⟩)]
    · rfl
  have hnext : rest.takeWhile (fun b => (hexDigit b).isSome) = [] := by
    cases rest with
    | nil => rfl
    | cons b rest => exact List.takeWhile_cons_of_neg (by simp [hrest b rfl])
  have htake : (d :: e :: ds' ++ rest).takeWhile (fun b => (hexDigit b).isSome) =
      d :: e :: ds' := by
    rw [List.takeWhile_append_of_pos hds, hnext, List.append_nil]
  have hhead : (d :: e :: ds' ++ rest).head? = some d := rfl
  have hnegative : (some d == some (45 : UInt8)) = false := by simpa using hminus
  have hpositive : (some d == some (43 : UInt8)) = false := by simpa using hplus
  simp only [hex, hskip, hhead, hnegative, hpositive, Bool.or_false, Bool.false_eq_true, if_false,
    h0x, htake, if_neg (List.cons_ne_nil d _), if_pos hvalue, List.drop_left]

theorem intercalate_cons_cons (sep : UInt8) (l l' : List UInt8) (ls : List (List UInt8)) :
    [sep].intercalate (l :: l' :: ls) = l ++ sep :: [sep].intercalate (l' :: ls) := by
  simp [List.intercalate]

theorem mem_intercalate {sep b : UInt8} {ls : List (List UInt8)}
    (h : b ∈ [sep].intercalate ls) : b = sep ∨ ∃ l ∈ ls, b ∈ l := by
  induction ls with
  | nil => cases h
  | cons l ls ih =>
    cases ls with
    | nil => exact .inr ⟨l, List.mem_cons_self, by simpa [List.intercalate] using h⟩
    | cons l' ls =>
      rw [intercalate_cons_cons, List.mem_append, List.mem_cons] at h
      rcases h with h | h | h
      · exact .inr ⟨l, List.mem_cons_self, h⟩
      · exact .inl h
      · exact (ih h).imp id fun ⟨l, hl, hb⟩ => ⟨l, List.mem_cons_of_mem _ hl, hb⟩

theorem hexes_intercalate {letter sep : UInt8} (hl : IsLetter letter) (hsep : hexDigit sep = none)
    {width : ℕ} (hwidth : 2 ≤ width) (hle : width ≤ 16) {ns : List ℕ}
    (hns : ∀ n ∈ ns, n < 16 ^ width) :
    hexes sep ns.length ([sep].intercalate (ns.map (hexDigits letter width))) =
      ns.map UInt32.ofNat := by
  induction ns with
  | nil => rfl
  | cons n ns ih =>
    obtain ⟨hn, hns⟩ := List.forall_mem_cons.mp hns
    have hvalue := hexValue_hexDigits hl hn
    have hhex : ∀ rest : List UInt8, (∀ b ∈ rest.head?, hexDigit b = none) →
        hex (hexDigits letter width n ++ rest) = some (UInt32.ofNat n, rest) := by
      intro rest hrest
      have hbound : hexValue (hexDigits letter width n) < 2 ^ 64 := by
        rw [hvalue]
        calc n < 16 ^ width := hn
          _ ≤ 16 ^ 16 := Nat.pow_le_pow_right (by decide) hle
          _ = 2 ^ 64 := by decide
      rw [hex_append (fun b hb => hexDigit_of_mem hl hb) (by rwa [length_hexDigits]) hbound hrest,
        hvalue]
    cases ns with
    | nil =>
      have h := hhex [] (by simp)
      rw [List.append_nil] at h
      simp [List.intercalate, hexes, h]
    | cons m ns =>
      rw [List.map_cons, List.map_cons, intercalate_cons_cons, List.length_cons, hexes,
        hhex _ (by simpa using hsep)]
      dsimp only
      rw [List.head?_cons, if_pos rfl, List.tail_cons, ← List.map_cons, ih hns]
      rfl

/-! ## Lines -/

def afterLine (s : List UInt8) : List UInt8 := (s.dropWhile (· ≠ 10)).drop 1

def startsFrom : Bool → List UInt8 → List (List UInt8)
  | _, [] => []
  | true, b :: bs => (b :: bs) :: startsFrom (b == 10) bs
  | false, b :: bs => startsFrom (b == 10) bs

def lineStarts (s : List UInt8) : List (List UInt8) := startsFrom true s

def readRows {α : Type*} (row : List UInt8 → Option α) : ℕ → List (List UInt8) → List α
  | 0, _ => []
  | _ + 1, [] => []
  | room + 1, line :: lines =>
    match row line with
    | some r => r :: readRows row room lines
    | none => readRows row (room + 1) lines

section
variable {α β : Type*}

theorem readRows_eq_take (row : List UInt8 → Option α) (room : ℕ) (lines : List (List UInt8)) :
    readRows row room lines = (lines.filterMap row).take room := by
  induction lines generalizing room with
  | nil => cases room <;> simp [readRows]
  | cons line lines ih =>
    cases room with
    | zero => simp [readRows]
    | succ room =>
      cases hrow : row line with
      | none =>
        rw [readRows, hrow, List.filterMap_cons_none hrow]
        exact ih (room + 1)
      | some r =>
        rw [readRows, hrow, List.filterMap_cons_some hrow, List.take_succ_cons, ← ih]

theorem afterLine_append {l : List UInt8} (h : 10 ∉ l) (rest : List UInt8) :
    afterLine (l ++ 10 :: rest) = rest := by
  have hskip : (l ++ 10 :: rest).dropWhile (· ≠ 10) = 10 :: rest := by
    rw [List.dropWhile_append_of_pos fun b hb => decide_eq_true (ne_of_mem_of_not_mem hb h)]
    rfl
  rw [afterLine, hskip]
  rfl

theorem afterLine_of_notMem {l : List UInt8} (h : 10 ∉ l) : afterLine l = [] := by
  have hskip : l.dropWhile (· ≠ 10) = [] :=
    List.dropWhile_eq_nil_iff.mpr fun b hb => decide_eq_true (ne_of_mem_of_not_mem hb h)
  rw [afterLine, hskip]
  rfl

theorem startsFrom_false {l : List UInt8} (h : 10 ∉ l) (rest : List UInt8) :
    startsFrom false (l ++ 10 :: rest) = lineStarts rest := by
  induction l with
  | nil => rfl
  | cons b bs ih =>
    obtain ⟨hb, hbs⟩ := not_or.mp (mt List.mem_cons.mpr h)
    rw [List.cons_append, startsFrom, beq_false_of_ne (Ne.symm hb), ih hbs]

theorem startsFrom_false_of_notMem {l : List UInt8} (h : 10 ∉ l) : startsFrom false l = [] := by
  induction l with
  | nil => rfl
  | cons b bs ih =>
    obtain ⟨hb, hbs⟩ := not_or.mp (mt List.mem_cons.mpr h)
    rw [startsFrom, beq_false_of_ne (Ne.symm hb), ih hbs]

theorem lineStarts_append {l : List UInt8} (h : 10 ∉ l) (rest : List UInt8) :
    lineStarts (l ++ 10 :: rest) = (l ++ 10 :: rest) :: lineStarts rest := by
  cases l with
  | nil => rfl
  | cons b bs =>
    obtain ⟨hb, hbs⟩ := not_or.mp (mt List.mem_cons.mpr h)
    rw [List.cons_append, lineStarts, startsFrom, beq_false_of_ne (Ne.symm hb),
      startsFrom_false hbs]

theorem lineStarts_of_notMem {l : List UInt8} (h : 10 ∉ l) (hne : l ≠ []) :
    lineStarts l = [l] := by
  obtain ⟨b, bs, rfl⟩ := List.exists_cons_of_ne_nil hne
  obtain ⟨hb, hbs⟩ := not_or.mp (mt List.mem_cons.mpr h)
  rw [lineStarts, startsFrom, beq_false_of_ne (Ne.symm hb), startsFrom_false_of_notMem hbs]

theorem unlines_cons (l : List UInt8) (ls : List (List UInt8)) :
    unlines (l :: ls) = l ++ 10 :: unlines ls := by
  rw [unlines, List.map_cons, List.flatten_cons, List.append_assoc, List.singleton_append]
  rfl

theorem take_unlines (ls : List (List UInt8)) (k : ℕ) :
    ∃ m j, (unlines ls).take k = unlines (ls.take m) ++ (ls.getD m []).take j := by
  induction ls generalizing k with
  | nil => exact ⟨0, 0, by simp [unlines]⟩
  | cons l ls ih =>
    rw [unlines_cons]
    rcases Nat.lt_or_ge l.length k with hk | hk
    · obtain ⟨i, rfl⟩ : ∃ i, k = l.length + (i + 1) := ⟨k - l.length - 1, by omega⟩
      obtain ⟨m, j, hcut⟩ := ih i
      refine ⟨m + 1, j, ?_⟩
      rw [List.take_length_add_append, List.take_succ_cons, hcut, List.take_succ_cons,
        unlines_cons, List.append_assoc, List.cons_append]
      rfl
    · exact ⟨0, k, List.take_append_of_le_length hk⟩

theorem take_unlines_of_length {n : ℕ} {ls : List (List UInt8)} (h : ∀ l ∈ ls, l.length = n)
    (m : ℕ) : (unlines ls).take ((n + 1) * m + n) = unlines (ls.take m) ++ ls.getD m [] := by
  induction ls generalizing m with
  | nil => simp [unlines]
  | cons l ls ih =>
    obtain ⟨hl, hls⟩ := List.forall_mem_cons.mp h
    rw [unlines_cons]
    cases m with
    | zero =>
      rw [Nat.mul_zero, Nat.zero_add, ← hl, List.take_left]
      rfl
    | succ m =>
      have hk : (n + 1) * (m + 1) + n = l.length + ((n + 1) * m + n + 1) := by
        rw [hl, Nat.mul_succ]
        omega
      rw [hk, List.take_length_add_append, List.take_succ_cons, ih hls, List.take_succ_cons,
        unlines_cons, List.append_assoc, List.cons_append]
      rfl

structure Readable (row : List UInt8 → Option α) (text : β → List UInt8) (out : β → Option α) :
    Prop where
  oneLine : ∀ line, 10 ∉ text line
  followed : ∀ line rest, row (text line ++ 10 :: rest) = out line
  last : ∀ line, row (text line) = out line

variable {row : List UInt8 → Option α} {text : β → List UInt8} {out : β → Option α}

theorem filterMap_lineStarts_cons (h : Readable row text out) (line : β) (rest : List UInt8) :
    (lineStarts (text line ++ 10 :: rest)).filterMap row =
      (out line).toList ++ (lineStarts rest).filterMap row := by
  rw [lineStarts_append (h.oneLine line), List.filterMap_cons, h.followed]
  cases out line <;> rfl

theorem filterMap_lineStarts_unlines (h : Readable row text out) (hnil : row [] = none)
    (lines : List β) {last : List UInt8} (hlast : 10 ∉ last) :
    (lineStarts (unlines (lines.map text) ++ last)).filterMap row =
      lines.filterMap out ++ (row last).toList := by
  induction lines with
  | nil =>
    rw [List.map_nil, show unlines [] = [] from rfl, List.nil_append, List.filterMap_nil,
      List.nil_append]
    by_cases hempty : last = []
    · rw [hempty, hnil]
      rfl
    · rw [lineStarts_of_notMem hlast hempty, List.filterMap_cons]
      cases row last <;> rfl
  | cons line lines ih =>
    rw [List.map_cons, unlines_cons, List.append_assoc, List.cons_append,
      filterMap_lineStarts_cons h, ih, List.filterMap_cons]
    cases out line <;> rfl

end
end Scanf
