import TrafficPrioritizer.Lib.Text
import TrafficPrioritizer.Net.Types

/-! IPv4 addresses as texts: the dotted quads that are accepted and the ones that
are printed. -/

namespace Hpgtp
open ByteBuffer Text

def parseOctet (s : List UInt8) : Option UInt8 :=
  if s ≠ [] ∧ s.all isDigit ∧ (s.length = 1 ∨ s.head? ≠ some 48) ∧ digitsValue s ≤ 255 then
    some (UInt8.ofNat (digitsValue s))
  else none

/-- The strings `inet_pton` takes for an IPv4 address; the validator of the dialog's two address
fields accepts the same. -/
def dottedQuad (s : List UInt8) : Option IPv4Net :=
  match (s.splitOn 46).map parseOctet with
  | [some a, some b, some c, some d] => some (octets a b c d)
  | _ => none

def parseIpStr (s : List UInt8) : Except String IPv4Net :=
  if s = [] then .error "empty IPv4 string"
  else if 15 < s.length then .error "IPv4 string too long"
  else match dottedQuad (cString s) with
    | some ip => .ok ip
    | none => .error "invalid IPv4 address"

def ipToStr (ip : IPv4Net) : List UInt8 :=
  [46].intercalate ((bytes32 ip.raw).map fun b => decimal b.toNat)

theorem parseOctet_digits {s : List UInt8} {a : UInt8} (h : parseOctet s = some a) :
    ∀ b ∈ s, isDigit b = true := by
  unfold parseOctet at h
  split_ifs at h with hok
  exact List.all_eq_true.mp hok.2.1

theorem dottedQuad_parts {s : List UInt8} {ip : IPv4Net} (h : dottedQuad s = some ip) :
    ∃ p₁ p₂ p₃ p₄, s = p₁ ++ 46 :: p₂ ++ 46 :: p₃ ++ 46 :: p₄ ∧
      ∀ p ∈ [p₁, p₂, p₃, p₄], ∃ a, parseOctet p = some a := by
  have hjoin : [46].intercalate (s.splitOn 46) = s := List.intercalate_splitOn 46
  unfold dottedQuad at h
  split at h
  · rename_i a b c d hmap
    obtain ⟨p₁, ps, hs, h₁, hmap⟩ := List.map_eq_cons_iff.mp hmap
    obtain ⟨p₂, ps, rfl, h₂, hmap⟩ := List.map_eq_cons_iff.mp hmap
    obtain ⟨p₃, ps, rfl, h₃, hmap⟩ := List.map_eq_cons_iff.mp hmap
    obtain ⟨p₄, ps, rfl, h₄, hmap⟩ := List.map_eq_cons_iff.mp hmap
    obtain rfl := List.map_eq_nil_iff.mp hmap
    refine ⟨p₁, p₂, p₃, p₄, ?_, ?_⟩
    · rw [← hjoin, hs]
      simp [List.intercalate]
    · simp [h₁, h₂, h₃, h₄]
  · cases h

theorem dottedQuad_bytes {s : List UInt8} {ip : IPv4Net} (h : dottedQuad s = some ip) {b : UInt8}
    (hb : b ∈ s) : isDigit b = true ∨ b = 46 := by
  obtain ⟨p₁, p₂, p₃, p₄, rfl, hparts⟩ := dottedQuad_parts h
  have hdigits : ∀ p ∈ [p₁, p₂, p₃, p₄], b ∈ p → isDigit b = true := by
    intro p hp hbp
    obtain ⟨a, ha⟩ := hparts p hp
    exact parseOctet_digits ha b hbp
  simp only [List.mem_append, List.mem_cons] at hb
  rcases hb with ((hb | hb | hb) | hb | hb) | hb | hb
  · exact .inl (hdigits p₁ (by simp) hb)
  · exact .inr hb
  · exact .inl (hdigits p₂ (by simp) hb)
  · exact .inr hb
  · exact .inl (hdigits p₃ (by simp) hb)
  · exact .inr hb
  · exact .inl (hdigits p₄ (by simp) hb)

theorem length_le_of_parseIpStr {s : List UInt8} {ip : IPv4Net} (h : parseIpStr s = .ok ip) :
    s.length ≤ 15 := by
  unfold parseIpStr at h
  split_ifs at h with hempty hlong
  exact Nat.le_of_not_lt hlong

theorem parseOctet_decimal (b : UInt8) : parseOctet (decimal b.toNat) = some b := by
  have hall : (decimal b.toNat).all isDigit = true :=
    List.all_eq_true.mpr fun _ h => isDigit_of_mem_decimal h
  have hle : b.toNat ≤ 255 := Nat.le_of_lt_succ b.toNat_lt
  rw [parseOctet, digitsValue_decimal, if_pos ⟨decimal_ne_nil _, hall, decimal_canonical _, hle⟩,
    UInt8.ofNat_toNat]

theorem dottedQuad_ipToStr (ip : IPv4Net) : dottedQuad (ipToStr ip) = some ip := by
  have hsplit : (ipToStr ip).splitOn 46 = (bytes32 ip.raw).map fun b => decimal b.toNat := by
    refine List.splitOn_intercalate 46 (fun l hl => ?_) (by simp [bytes32, bytes16])
    obtain ⟨b, -, rfl⟩ := List.mem_map.mp hl
    exact fun h => absurd (isDigit_of_mem_decimal h) (by decide)
  have hparts : ((bytes32 ip.raw).map fun b => decimal b.toNat).map parseOctet =
      (bytes32 ip.raw).map some := by
    rw [List.map_map]
    exact List.map_congr_left fun b _ => parseOctet_decimal b
  unfold dottedQuad
  rw [hsplit, hparts]
  exact congrArg (fun raw => some (IPv4Net.mk raw)) (load32_bytes32 ip.raw [])

theorem length_ipToStr_le (ip : IPv4Net) : (ipToStr ip).length ≤ 15 := by
  have h (b : UInt8) : (decimal b.toNat).length ≤ 2 + 1 :=
    length_decimal_le (b.toNat_lt.trans (by decide))
  simp only [ipToStr, bytes32, bytes16, List.cons_append, List.nil_append, List.map_cons,
    List.map_nil, List.intercalate, List.intersperse, List.flatten_cons, List.flatten_nil,
    List.length_append, List.length_cons, List.length_nil]
  have h₀ := h (UInt8.ofNat (low16 ip.raw).toNat)
  have h₁ := h (UInt8.ofNat ((low16 ip.raw).toNat / 256))
  have h₂ := h (UInt8.ofNat (high16 ip.raw).toNat)
  have h₃ := h (UInt8.ofNat ((high16 ip.raw).toNat / 256))
  omega

theorem parseIpStr_ipToStr (ip : IPv4Net) : parseIpStr (ipToStr ip) = .ok ip := by
  have hquad := dottedQuad_ipToStr ip
  have hne : ipToStr ip ≠ [] := by
    intro hnil
    rw [hnil] at hquad
    cases hquad
  have hnul : 0 ∉ ipToStr ip := fun h => absurd (dottedQuad_bytes hquad h) (by decide)
  rw [parseIpStr, if_neg hne, if_neg (Nat.not_lt.mpr (length_ipToStr_le ip)),
    cString_of_notMem hnul, hquad]

end Hpgtp
