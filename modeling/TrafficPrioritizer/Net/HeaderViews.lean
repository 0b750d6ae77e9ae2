import TrafficPrioritizer.Net.ParsedPacket

/-! Where the header views of a parsed frame lie. The length tests keep every view
inside the span; the header length is taken from the frame as it stands, and one
of less than five words puts the L4 view over the IPv4 header. -/

namespace Hpgtp
open ByteBuffer

structure HeaderView where
  offset : Nat
  size : Nat
  deriving DecidableEq

def HeaderView.Covers (v : HeaderView) (j : Nat) : Prop := v.offset ≤ j ∧ j < v.offset + v.size

instance (v : HeaderView) (j : Nat) : Decidable (v.Covers j) := inferInstanceAs (Decidable (_ ∧ _))

def HeaderView.Apart (v w : HeaderView) : Prop := ∀ j, ¬(v.Covers j ∧ w.Covers j)

namespace ParsedPacket

def views (p : ParsedPacket) : List HeaderView :=
  p.eth.toList.map (⟨·, sizeofEthernetHeader⟩) ++ p.ipv4.toList.map (⟨·, sizeofIPv4Header⟩) ++
    p.l4Header.toList.map (⟨·, l4HeaderSize p.l4Protocol⟩)

theorem views_inBounds (p : ParsedPacket) :
    ∀ v ∈ p.views, v.offset + v.size ≤ p.rawSpan.length := by
  intro v hv
  simp only [views, List.mem_append, List.mem_map, Option.mem_toList] at hv
  rcases hv with (⟨o, ho, rfl⟩ | ⟨o, ho, rfl⟩) | ⟨o, ho, rfl⟩
  · exact p.eth_inBounds o ho
  · exact (p.ipv4_inBounds o ho).2
  · exact (p.l4_inBounds o ho).2

def headerLength (span : List UInt8) : Nat :=
  (IPv4Header.verIhl span sizeofEthernetHeader &&& 0x0F).toNat * 4

def HasIpv4 (span : List UInt8) : Prop :=
  sizeofEthernetHeader + sizeofIPv4Header ≤ span.length ∧
    ethProtoWireToHost (load16 span 12) = 0x0800

def HasL4 (span : List UInt8) : Prop :=
  let protocol := IPv4Header.protocol span sizeofEthernetHeader
  (protocol = 17 ∨ protocol = 6 ∨ protocol = 1) ∧
    sizeofEthernetHeader + headerLength span + l4HeaderSize protocol ≤ span.length

instance (span : List UInt8) : Decidable (HasIpv4 span) := inferInstanceAs (Decidable (_ ∧ _))

instance (span : List UInt8) : Decidable (HasL4 span) := inferInstanceAs (Decidable (_ ∧ _))

theorem views_of_not_hasIpv4 {span : List UInt8} (h : ¬HasIpv4 span) :
    (parse span).views =
      if span.length < sizeofEthernetHeader then [] else [⟨0, sizeofEthernetHeader⟩] := by
  unfold parse
  split_ifs with heth htype hip
  · rfl
  · rfl
  · rfl
  · exact absurd ⟨Nat.not_lt.mp hip, not_not.mp htype⟩ h

theorem views_of_hasIpv4 {span : List UInt8} (h : HasIpv4 span) :
    (parse span).views =
      if HasL4 span then
        [⟨0, sizeofEthernetHeader⟩, ⟨sizeofEthernetHeader, sizeofIPv4Header⟩,
          ⟨sizeofEthernetHeader + headerLength span,
            l4HeaderSize (IPv4Header.protocol span sizeofEthernetHeader)⟩]
      else [⟨0, sizeofEthernetHeader⟩, ⟨sizeofEthernetHeader, sizeofIPv4Header⟩] := by
  obtain ⟨hlen, htype⟩ := h
  have heth : ¬span.length < sizeofEthernetHeader :=
    Nat.not_lt.mpr (Nat.le_trans (Nat.le_add_right ..) hlen)
  unfold parse
  rw [dif_neg heth, if_neg (not_not.mpr htype), dif_neg (Nat.not_lt.mpr hlen)]
  show (if span.length < sizeofEthernetHeader + headerLength span then _
    else parseL4 span (headerLength span) _ _).views = _
  by_cases hl4 : HasL4 span
  · have hihl : ¬span.length < sizeofEthernetHeader + headerLength span :=
      Nat.not_lt.mpr (Nat.le_trans (Nat.le_add_right ..) hl4.2)
    rw [if_neg hihl, if_pos hl4]
    simp only [parseL4, dif_pos (show _ ∧ _ from hl4)]
    rfl
  · rw [if_neg hl4]
    split_ifs
    · rfl
    · simp only [parseL4, dif_neg (show ¬(_ ∧ _) from hl4)]
      rfl

theorem apart_l4_iff {o n : Nat} (hn : 0 < n) (ho : sizeofEthernetHeader ≤ o) :
    HeaderView.Apart ⟨sizeofEthernetHeader, sizeofIPv4Header⟩ ⟨o, n⟩ ↔
      sizeofEthernetHeader + sizeofIPv4Header ≤ o := by
  simp only [HeaderView.Apart, HeaderView.Covers]
  constructor
  · intro h
    by_contra hlt
    exact h o (by omega)
  · intro h j hj
    omega

/-- Every view lies inside the span. The views are apart exactly when the frame does not have an
L4 view behind a header length of less than five words. -/
theorem header_views_apart_iff (span : List UInt8) :
    (∀ v ∈ (parse span).views, v.offset + v.size ≤ span.length) ∧
      ((parse span).views.Pairwise HeaderView.Apart ↔
        ¬(HasIpv4 span ∧ HasL4 span ∧ headerLength span < sizeofIPv4Header)) := by
  have hraw := parse_rawSpan span
  constructor
  · intro v hv
    have hbound := views_inBounds (parse span) v hv
    rwa [hraw] at hbound
  have heth (o n : Nat) (ho : sizeofEthernetHeader ≤ o) :
      HeaderView.Apart ⟨0, sizeofEthernetHeader⟩ ⟨o, n⟩ := by
    rintro j ⟨hj, hj'⟩
    simp only [HeaderView.Covers] at hj hj'
    omega
  by_cases hip : HasIpv4 span
  · have hipeth := heth sizeofEthernetHeader sizeofIPv4Header (Nat.le_refl _)
    rw [views_of_hasIpv4 hip]
    split_ifs with hl4
    · have hsize : 0 < l4HeaderSize (IPv4Header.protocol span sizeofEthernetHeader) := by
        rcases hl4.1 with h | h | h <;> rw [h] <;> decide
      have hl4eth := heth (sizeofEthernetHeader + headerLength span)
        (l4HeaderSize (IPv4Header.protocol span sizeofEthernetHeader)) (Nat.le_add_right ..)
      simp [hipeth, hl4eth, hip, hl4, apart_l4_iff hsize (Nat.le_add_right ..)]
    · simp [hipeth, hl4]
  · rw [views_of_not_hasIpv4 hip]
    split_ifs <;> simp [hip]

def fourWordFrame : List UInt8 :=
  store16 (((List.replicate 42 0).set 14 0x44).set 23 17) 12 (htons 0x0800)

theorem four_word_views_overlap :
    ¬(parse fourWordFrame).views.Pairwise HeaderView.Apart := by
  have hviews : (parse fourWordFrame).views = [⟨0, 14⟩, ⟨14, 20⟩, ⟨30, 8⟩] := by decide
  rw [hviews]
  intro h
  have hapart : HeaderView.Apart ⟨14, 20⟩ ⟨30, 8⟩ := by simpa using (List.pairwise_cons.mp h).2
  exact hapart 30 ⟨by decide, by decide⟩

end ParsedPacket
end Hpgtp
