import TrafficPrioritizer.DhcpEngine.Model
import TrafficPrioritizer.Lib.OptionArea
import Mathlib.Data.List.Induction

/-! What the option loop of a request finds: the message type and the requested address of
the options that a walk over their area comes by. -/

namespace Hpgtp
open ByteBuffer OptionArea

def DhcpOptions.note (found : DhcpOptions) (option : UInt8 × List UInt8) : DhcpOptions :=
  let found :=
    if option.1 = 53 ∧ option.2.length = 1 then { found with msgType := load8 option.2 0 } else found
  if option.1 = 50 ∧ option.2.length = 4 then { found with rawRequestedIp := load32 option.2 0 }
  else found

theorem note_slice (b : List UInt8) (found : DhcpOptions) (code len : UInt8) {o : ℕ}
    (hfits : o + len.toNat ≤ b.length) :
    found.note (code, slice b o len.toNat) =
      let found := if code = 53 ∧ len = 1 then { found with msgType := load8 b o } else found
      if code = 50 ∧ len = 4 then { found with rawRequestedIp := load32 b o } else found := by
  have hlength : (slice b o len.toNat).length = len.toNat := by
    rw [length_slice]
    omega
  have hone : len.toNat = 1 ↔ len = 1 := UInt8.toNat_inj (b := 1)
  have hfour : len.toNat = 4 ↔ len = 4 := UInt8.toNat_inj (b := 4)
  simp only [DhcpOptions.note, hlength, hone, hfour]
  by_cases h1 : len = 1
  · subst h1
    simp [load8_slice]
  · by_cases h4 : len = 4
    · subst h4
      simp [load32_slice]
    · simp [h1, h4]

theorem scanOptions_eq_walk (b : List UInt8) (fuel opt : ℕ) (found : DhcpOptions) :
    scanOptions b fuel opt found =
      (walk 0 255 fuel (b.drop opt)).1.foldl DhcpOptions.note found := by
  induction fuel generalizing opt found with
  | zero => rfl
  | succ fuel ih =>
    by_cases hopt : opt < b.length
    · rw [scanOptions, walk, head_drop hopt]
      by_cases hfin : load8 b opt = 255
      · simp [hfin]
      rw [if_pos ⟨hopt, hfin⟩, if_neg hfin]
      by_cases hpad : load8 b opt = 0
      · rw [if_pos hpad, if_pos hpad]
        exact ih (opt + 1) found
      rw [if_neg hpad, if_neg hpad]
      dsimp only
      by_cases hcut : b.length ≤ opt + 1
      · rw [if_pos (show opt + 2 + (load8 b (opt + 1)).toNat > b.length by omega), if_pos hcut]
        rfl
      rw [if_neg hcut]
      by_cases hover : b.length < opt + 2 + (load8 b (opt + 1)).toNat
      · rw [if_pos hover, if_pos hover]
        rfl
      rw [if_neg hover, if_neg hover, ih]
      dsimp only
      rw [List.foldl_cons, note_slice b found _ _ (by omega)]
    · rw [scanOptions, if_neg (fun h => hopt h.1), walk, head_drop_of_le (Nat.not_lt.mp hopt)]
      rfl

def lastData (code : UInt8) (len : ℕ) (options : List (UInt8 × List UInt8)) :
    Option (List UInt8) :=
  (options.filter fun o => o.1 = code ∧ o.2.length = len).getLast?.map Prod.snd

theorem lastData_concat (code : UInt8) (len : ℕ) (options : List (UInt8 × List UInt8))
    (option : UInt8 × List UInt8) : lastData code len (options ++ [option]) =
      if option.1 = code ∧ option.2.length = len then some option.2
      else lastData code len options := by
  rw [lastData, List.filter_append]
  split_ifs with hmatch
  · simp [hmatch]
  · simp [hmatch, lastData]

theorem foldl_note (options : List (UInt8 × List UInt8)) :
    options.foldl DhcpOptions.note {} =
      { msgType := (lastData 53 1 options).elim 0 (load8 · 0)
        rawRequestedIp := (lastData 50 4 options).elim 0 (load32 · 0) } := by
  induction options using List.reverseRecOn with
  | nil => rfl
  | append_singleton options option ih =>
    rw [List.foldl_append, ih, lastData_concat, lastData_concat]
    simp only [List.foldl_cons, List.foldl_nil, DhcpOptions.note]
    by_cases htype : option.1 = 53 ∧ option.2.length = 1
    · simp [htype]
    · by_cases hip : option.1 = 50 ∧ option.2.length = 4 <;> simp [htype, hip]

theorem scanOptions_of_drop {b trailing : List UInt8} {opt fuel : ℕ} {items : List (Item 0 255)}
    (harea : b.drop opt = encode items ++ 255 :: trailing) (hfuel : items.length ≤ fuel) :
    scanOptions b fuel opt {} =
      { msgType := (lastData 53 1 (contents items)).elim 0 (load8 · 0)
        rawRequestedIp := (lastData 50 4 (contents items)).elim 0 (load32 · 0) } := by
  rw [scanOptions_eq_walk, harea, walk_encode (by decide) items trailing hfuel, foldl_note]

/-- Over an area of options and pad bytes that is closed by the end mark, the loop ends with the
last message type and the last requested address; whatever the other options hold, and whatever
comes after the mark, it finds nothing else. -/
theorem scan_decodes_option_area (header : List UInt8) (items : List (Item 0 255))
    (trailing : List UInt8) :
    let b := header ++ (encode items ++ 255 :: trailing)
    scanOptions b (b.length - header.length) header.length {} =
      { msgType := (lastData 53 1 (contents items)).elim 0 (load8 · 0)
        rawRequestedIp := (lastData 50 4 (contents items)).elim 0 (load32 · 0) } := by
  intro b
  have harea : b.drop header.length = encode items ++ 255 :: trailing := List.drop_left
  refine scanOptions_of_drop harea ?_
  have hitems := length_le_encode items
  rw [← List.length_drop, harea, List.length_append]
  omega

end Hpgtp
