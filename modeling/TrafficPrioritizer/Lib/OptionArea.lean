import TrafficPrioritizer.Lib.Bytes

/-! Areas of options: each option is a code, a length and its data, pad bytes may stand
between them and an end mark follows the last. What stands at the head of an area is read
by one rule; a walk applies it until it finds no further option. -/

namespace OptionArea
open ByteBuffer

structure Entry (pad fin : UInt8) where
  code : UInt8
  data : List UInt8
  code_ne_pad : code ≠ pad
  code_ne_fin : code ≠ fin
  length_lt : data.length < 256

inductive Item (pad fin : UInt8) where
  | padding
  | entry (e : Entry pad fin)

variable {pad fin : UInt8}

def Item.bytes : Item pad fin → List UInt8
  | .padding => [pad]
  | .entry e => e.code :: UInt8.ofNat e.data.length :: e.data

def Item.content : Item pad fin → Option (UInt8 × List UInt8)
  | .padding => none
  | .entry e => some (e.code, e.data)

def encode (items : List (Item pad fin)) : List UInt8 := items.flatMap Item.bytes

def contents (items : List (Item pad fin)) : List (UInt8 × List UInt8) :=
  items.filterMap Item.content

inductive Head where
  | done
  | padding (rest : List UInt8)
  | cut
  | overrun
  | entry (code : UInt8) (data rest : List UInt8)

def head (pad fin : UInt8) : List UInt8 → Head
  | [] => .done
  | c :: rest =>
    if c = fin then .done
    else if c = pad then .padding rest
    else if rest = [] then .cut
    else if rest.length < 1 + (load8 rest 0).toNat then .overrun
    else .entry c (slice rest 1 (load8 rest 0).toNat) (rest.drop (1 + (load8 rest 0).toNat))

def walk (pad fin : UInt8) : ℕ → List UInt8 → List (UInt8 × List UInt8) × List UInt8
  | 0, area => ([], area)
  | fuel + 1, area =>
    match head pad fin area with
    | .padding rest => walk pad fin fuel rest
    | .entry code data rest =>
      let further := walk pad fin fuel rest
      ((code, data) :: further.1, further.2)
    | _ => ([], area)

/-! ## Reading what was written -/

theorem head_fin (rest : List UInt8) : head pad fin (fin :: rest) = .done := if_pos rfl

theorem head_padding (hne : pad ≠ fin) (rest : List UInt8) :
    head pad fin (pad :: rest) = .padding rest := by
  rw [head, if_neg hne, if_pos rfl]

theorem head_entry (e : Entry pad fin) (rest : List UInt8) :
    head pad fin ((Item.entry e).bytes ++ rest) = .entry e.code e.data rest := by
  have hlen : (UInt8.ofNat e.data.length).toNat = e.data.length := by
    rw [UInt8.toNat_ofNat']
    exact Nat.mod_eq_of_lt e.length_lt
  have hload : (load8 (UInt8.ofNat e.data.length :: (e.data ++ rest)) 0).toNat = e.data.length :=
    hlen
  have hfits : ¬ (UInt8.ofNat e.data.length :: (e.data ++ rest)).length < 1 + e.data.length := by
    rw [List.length_cons, List.length_append]
    omega
  rw [Item.bytes, List.cons_append, List.cons_append, head, if_neg e.code_ne_fin,
    if_neg e.code_ne_pad, if_neg (List.cons_ne_nil _ _), hload, if_neg hfits, slice,
    Nat.add_comm 1, List.drop_succ_cons, List.drop_succ_cons, List.drop_zero, List.take_left,
    List.drop_left]

/-- A walk over an area that was written reads its options and stops at the end mark, whatever
the data are and whatever follows. -/
theorem walk_encode (hne : pad ≠ fin) (items : List (Item pad fin)) (rest : List UInt8) {fuel : ℕ}
    (hfuel : items.length ≤ fuel) :
    walk pad fin fuel (encode items ++ fin :: rest) = (contents items, fin :: rest) := by
  induction items generalizing fuel with
  | nil =>
    cases fuel with
    | zero => rfl
    | succ fuel =>
      rw [encode, List.flatMap_nil, List.nil_append, walk, head_fin]
      rfl
  | cons item items ih =>
    obtain ⟨fuel, rfl⟩ : ∃ n, fuel = n + 1 := Nat.exists_eq_succ_of_ne_zero (by
      rw [List.length_cons] at hfuel
      omega)
    have hrest := ih (Nat.le_of_succ_le_succ hfuel)
    rw [encode, List.flatMap_cons, List.append_assoc, ← encode, walk]
    cases item with
    | padding =>
      rw [show Item.bytes (.padding : Item pad fin) = [pad] from rfl, List.singleton_append,
        head_padding hne]
      exact hrest
    | entry e =>
      rw [head_entry]
      dsimp only
      rw [hrest]
      rfl

theorem length_le_encode (items : List (Item pad fin)) : items.length ≤ (encode items).length := by
  induction items with
  | nil => exact Nat.zero_le _
  | cons item items ih =>
    have hitem : 1 ≤ item.bytes.length := by cases item <;> simp [Item.bytes]
    rw [encode, List.flatMap_cons, List.length_append, ← encode, List.length_cons]
    omega

/-! ## Writing what was read -/

theorem eq_of_head_padding {area rest : List UInt8} (h : head pad fin area = .padding rest) :
    area = pad :: rest := by
  cases area with
  | nil => cases h
  | cons c area =>
    rw [head] at h
    split_ifs at h with hfin hpad
    rw [hpad, Head.padding.inj h]

theorem eq_of_head_cut {area : List UInt8} (h : head pad fin area = .cut) :
    ∃ c, c ≠ pad ∧ c ≠ fin ∧ area = [c] := by
  cases area with
  | nil => cases h
  | cons c area =>
    rw [head] at h
    split_ifs at h with hfin hpad hnil
    exact ⟨c, hpad, hfin, by rw [hnil]⟩

theorem eq_of_head_entry {area data rest : List UInt8} {code : UInt8}
    (h : head pad fin area = .entry code data rest) :
    ∃ e : Entry pad fin, e.code = code ∧ e.data = data ∧ area = (Item.entry e).bytes ++ rest := by
  cases area with
  | nil => cases h
  | cons c area =>
    rw [head] at h
    split_ifs at h with hfin hpad hnil hlen
    cases area with
    | nil => exact absurd rfl hnil
    | cons len area =>
      obtain ⟨rfl, rfl, rfl⟩ := Head.entry.inj h
      have hload : load8 (len :: area) 0 = len := rfl
      rw [hload] at hlen ⊢
      rw [List.length_cons] at hlen
      have hdata : (slice (len :: area) 1 len.toNat).length = len.toNat := by
        rw [length_slice, List.length_cons]
        omega
      refine ⟨⟨c, slice (len :: area) 1 len.toNat, hpad, hfin, ?_⟩, rfl, rfl, ?_⟩
      · rw [hdata]
        exact len.toNat_lt
      · rw [Item.bytes]
        dsimp only
        rw [hdata, UInt8.ofNat_toNat, slice, Nat.add_comm 1, List.drop_succ_cons, List.drop_succ_cons,
          List.drop_zero, List.cons_append, List.cons_append, List.take_append_drop]

theorem length_head {area rest : List UInt8} (h : head pad fin area = .padding rest ∨
    ∃ code data, head pad fin area = .entry code data rest) : rest.length < area.length := by
  rcases h with h | ⟨code, data, h⟩
  · rw [eq_of_head_padding h, List.length_cons]
    exact Nat.lt_succ_self _
  · obtain ⟨e, -, -, rfl⟩ := eq_of_head_entry h
    rw [Item.bytes, List.length_append, List.length_cons]
    omega

theorem walk_succ {fuel : ℕ} {area : List UInt8} (hfuel : area.length ≤ fuel) :
    walk pad fin (fuel + 1) area = walk pad fin fuel area := by
  induction fuel generalizing area with
  | zero =>
    rw [List.eq_nil_of_length_eq_zero (Nat.le_zero.mp hfuel)]
    rfl
  | succ fuel ih =>
    rw [walk, walk]
    cases hhead : head pad fin area with
    | done => rfl
    | padding rest =>
      have hlt := length_head (.inl hhead)
      exact ih (by omega)
    | cut => rfl
    | overrun => rfl
    | entry code data rest =>
      have hlt := length_head (.inr ⟨code, data, hhead⟩)
      dsimp only
      rw [ih (by omega)]

def CutOff (pad fin : UInt8) (area : List UInt8) : Prop :=
  ∃ (items : List (Item pad fin)) (c : UInt8), c ≠ pad ∧ c ≠ fin ∧ area = encode items ++ [c]

theorem cutOff_iff (hne : pad ≠ fin) {area : List UInt8} :
    CutOff pad fin area ↔ head pad fin area = .cut ∨ ∃ rest, CutOff pad fin rest ∧
      (head pad fin area = .padding rest ∨
        ∃ code data, head pad fin area = .entry code data rest) := by
  constructor
  · rintro ⟨items, c, hpad, hfin, rfl⟩
    cases items with
    | nil =>
      refine .inl ?_
      rw [encode, List.flatMap_nil, List.nil_append, head, if_neg hfin, if_neg hpad, if_pos rfl]
    | cons item items =>
      rw [encode, List.flatMap_cons, List.append_assoc, ← encode]
      refine .inr ⟨_, ⟨items, c, hpad, hfin, rfl⟩, ?_⟩
      cases item with
      | padding => exact .inl (head_padding hne _)
      | entry e => exact .inr ⟨_, _, head_entry e _⟩
  · rintro (hcut | ⟨rest, ⟨items, c, hpad, hfin, rfl⟩, hhead | ⟨code, data, hhead⟩⟩)
    · obtain ⟨c, hpad, hfin, rfl⟩ := eq_of_head_cut hcut
      exact ⟨[], c, hpad, hfin, rfl⟩
    · exact ⟨.padding :: items, c, hpad, hfin, eq_of_head_padding hhead⟩
    · obtain ⟨e, -, -, rfl⟩ := eq_of_head_entry hhead
      refine ⟨.entry e :: items, c, hpad, hfin, ?_⟩
      rw [encode, encode, List.flatMap_cons, List.append_assoc]

/-! ## Reading at an offset of a buffer -/

theorem head_drop_of_le {b : List UInt8} {o : ℕ} (h : b.length ≤ o) :
    head pad fin (b.drop o) = .done := by
  rw [List.drop_eq_nil_of_le h]
  rfl

theorem head_drop {b : List UInt8} {o : ℕ} (h : o < b.length) :
    head pad fin (b.drop o) =
      if load8 b o = fin then .done
      else if load8 b o = pad then .padding (b.drop (o + 1))
      else if b.length ≤ o + 1 then .cut
      else if b.length < o + 2 + (load8 b (o + 1)).toNat then .overrun
      else .entry (load8 b o) (slice b (o + 2) (load8 b (o + 1)).toNat)
        (b.drop (o + 2 + (load8 b (o + 1)).toNat)) := by
  have hcons : b.drop o = load8 b o :: b.drop (o + 1) := by
    rw [List.drop_eq_getElem_cons h, load8, List.getD_eq_getElem?_getD, List.getElem?_eq_getElem h,
      Option.getD_some]
  have hnil : b.drop (o + 1) = [] ↔ b.length ≤ o + 1 := List.drop_eq_nil_iff
  have hlen : (load8 (b.drop (o + 1)) 0).toNat = (load8 b (o + 1)).toNat := by rw [load8_drop]
  rw [hcons, head, hlen, List.length_drop, List.drop_drop, slice, List.drop_drop, ← slice]
  by_cases hle : b.length ≤ o + 1
  · simp only [hnil, hle, if_true]
  · have hover : b.length - (o + 1) < 1 + (load8 b (o + 1)).toNat ↔
        b.length < o + 2 + (load8 b (o + 1)).toNat := by omega
    have hrest : o + 1 + (1 + (load8 b (o + 1)).toNat) = o + 2 + (load8 b (o + 1)).toNat := by omega
    simp only [hnil, hle, if_false, hover, hrest]

end OptionArea
