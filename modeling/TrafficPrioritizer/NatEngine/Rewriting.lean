import TrafficPrioritizer.NatEngine.Translation
import TrafficPrioritizer.Lib.OnesComplement

/-! The stores of a translation as four fields, written once each. While the L4
header lies behind the IPv4 header the fields are apart, and what is read or
summed over the rewritten packet follows from their old and new values. -/

namespace Hpgtp
open ByteBuffer OnesComplement

def storeFields (b : List UInt8) (ip a c p : Nat) (ipCheck l4Check : UInt16) (addr : IPv4Net)
    (port : UInt16) : List UInt8 :=
  store16 (store32 (store16 (store16 b (ip + 10) ipCheck) c l4Check) a addr.raw) p port

@[simp] theorem length_storeFields (b : List UInt8) (ip a c p : Nat) (ipCheck l4Check : UInt16)
    (addr : IPv4Net) (port : UInt16) :
    (storeFields b ip a c p ipCheck l4Check addr port).length = b.length := by simp [storeFields]

def flowCheck (check : UInt16) (oldAddr newAddr : IPv4Net) (oldPort newPort : UInt16) : UInt16 :=
  if check ≠ 0 then updateChecksum16 (updateChecksum32 check oldAddr newAddr) oldPort newPort
  else check

def echoCheck (check oldId newId : UInt16) : UInt16 :=
  if check ≠ 0 then updateChecksum16 check oldId newId else check

structure FieldsApart (n ip a c p : Nat) : Prop where
  addr : ip + 12 ≤ a
  check : a + 4 ≤ c
  port : a + 4 ≤ p
  apart : c + 2 ≤ p ∨ p + 2 ≤ c
  check_inBounds : c + 2 ≤ n
  port_inBounds : p + 2 ≤ n

section
variable {b : List UInt8} {ip a c p : Nat}

theorem rewritePorts_eq_storeFields (h : FieldsApart b.length ip a c p) (addr : IPv4Net)
    (port : UInt16) :
    rewritePorts b ip a p c addr port =
      storeFields b ip a c p (updateChecksum32 (load16 b (ip + 10)) ⟨load32 b a⟩ addr)
        (flowCheck (load16 b c) ⟨load32 b a⟩ addr (load16 b p) port) addr port := by
  obtain ⟨haddr, hcheck, hport, hapart, hc, hp⟩ := h
  have hload (x : UInt16) : load16 (store16 b (ip + 10) x) c = load16 b c :=
    load16_store16_of_disjoint (by omega)
  have hload32 (x : UInt16) : load32 (store16 b (ip + 10) x) a = load32 b a :=
    load32_store16_of_disjoint (by omega)
  have hloadp (x : UInt16) : load16 (store16 b (ip + 10) x) p = load16 b p :=
    load16_store16_of_disjoint (by omega)
  have hlen (x : UInt16) : c + 2 ≤ (store16 b (ip + 10) x).length := by rwa [length_store16]
  simp only [rewritePorts, storeFields, flowCheck, hload, hload32]
  split_ifs with hzero
  · rw [store16_store16_self, load16_store16_self _ (hlen _),
      load16_store16_of_disjoint hapart.symm, hloadp]
  · congr 2
    rw [← hload, store16_load16_self (hlen _)]

theorem rewriteEcho_eq_storeFields {icmp : Nat}
    (h : FieldsApart b.length ip a (icmp + 2) (icmp + 4)) (addr : IPv4Net) (id : UInt16) :
    rewriteEcho b ip a icmp addr id =
      storeFields b ip a (icmp + 2) (icmp + 4)
        (updateChecksum32 (load16 b (ip + 10)) ⟨load32 b a⟩ addr)
        (echoCheck (load16 b (icmp + 2)) (load16 b (icmp + 4)) id) addr id := by
  obtain ⟨haddr, hcheck, hport, hapart, hc, hp⟩ := h
  have hload (x : UInt16) : load16 (store16 b (ip + 10) x) (icmp + 2) = load16 b (icmp + 2) :=
    load16_store16_of_disjoint (by omega)
  simp only [rewriteEcho, storeFields, echoCheck, hload]
  split_ifs with hzero
  · rfl
  · congr 2
    rw [← hload, store16_load16_self (by rwa [length_store16])]

/-! ## Reading the fields back -/

theorem load16_storeFields_of_disjoint {o : Nat} (ipCheck l4Check : UInt16) (addr : IPv4Net)
    (port : UInt16) (hip : o + 2 ≤ ip + 10 ∨ ip + 12 ≤ o) (ha : o + 2 ≤ a ∨ a + 4 ≤ o)
    (hc : o + 2 ≤ c ∨ c + 2 ≤ o) (hp : o + 2 ≤ p ∨ p + 2 ≤ o) :
    load16 (storeFields b ip a c p ipCheck l4Check addr port) o = load16 b o := by
  rw [storeFields, load16_store16_of_disjoint hp, load16_store32_of_disjoint ha,
    load16_store16_of_disjoint hc, load16_store16_of_disjoint (by omega)]

theorem load8_storeFields_of_disjoint {o : Nat} (ipCheck l4Check : UInt16) (addr : IPv4Net)
    (port : UInt16) (hip : o < ip + 10 ∨ ip + 12 ≤ o) (ha : o < a ∨ a + 4 ≤ o)
    (hc : o < c ∨ c + 2 ≤ o) (hp : o < p ∨ p + 2 ≤ o) :
    load8 (storeFields b ip a c p ipCheck l4Check addr port) o = load8 b o := by
  rw [storeFields, load8_store16_of_disjoint hp, load8_store32_of_disjoint ha,
    load8_store16_of_disjoint hc, load8_store16_of_disjoint (by omega)]

section
variable (h : FieldsApart b.length ip a c p) (ipCheck l4Check : UInt16) (addr : IPv4Net)
  (port : UInt16)
include h

theorem load16_storeFields_check :
    load16 (storeFields b ip a c p ipCheck l4Check addr port) c = l4Check := by
  obtain ⟨haddr, hcheck, hport, hapart, hc, hp⟩ := h
  rw [storeFields, load16_store16_of_disjoint (by omega), load16_store32_of_disjoint (by omega),
    load16_store16_self _ (by rwa [length_store16])]

theorem load16_storeFields_port :
    load16 (storeFields b ip a c p ipCheck l4Check addr port) p = port := by
  rw [storeFields, load16_store16_self _ (by simpa using h.port_inBounds)]

theorem drop_storeFields_eq_iff {o : Nat} (ho : a + 4 ≤ o) (hoc : o ≤ c) (hop : o ≤ p) :
    (storeFields b ip a c p ipCheck l4Check addr port).drop o = b.drop o ↔
      port = load16 b p ∧ l4Check = load16 b c := by
  constructor
  · intro hdrop
    have hread (k : Nat) (hk : o ≤ k) :
        load16 (storeFields b ip a c p ipCheck l4Check addr port) k = load16 b k := by
      rw [← Nat.add_sub_of_le hk, ← load16_drop, hdrop, load16_drop]
    rw [← hread p hop, ← hread c hoc, load16_storeFields_port h, load16_storeFields_check h]
    exact ⟨rfl, rfl⟩
  · rintro ⟨rfl, rfl⟩
    obtain ⟨haddr, hcheck, hport, hapart, hc, hp⟩ := h
    -- the checksum and the port are stored back as they were
    have hcheckBack : store16 (store16 b (ip + 10) ipCheck) c (load16 b c) =
        store16 b (ip + 10) ipCheck := by
      have hload : load16 (store16 b (ip + 10) ipCheck) c = load16 b c :=
        load16_store16_of_disjoint (by omega)
      rw [← hload]
      exact store16_load16_self (by simpa using hc)
    have hportBack : store16 (store32 (store16 b (ip + 10) ipCheck) a addr.raw) p (load16 b p) =
        store32 (store16 b (ip + 10) ipCheck) a addr.raw := by
      have hload : load16 (store32 (store16 b (ip + 10) ipCheck) a addr.raw) p = load16 b p := by
        rw [load16_store32_of_disjoint (by omega), load16_store16_of_disjoint (by omega)]
      rw [← hload]
      exact store16_load16_self (by simpa using hp)
    rw [storeFields, hcheckBack, hportBack, drop_store32_of_le ho, drop_store16_of_le (by omega)]

/-! ## Sums over the rewritten packet -/

theorem wordSum_header_storeFields {n : Nat} (heven : (a - ip) % 2 = 0) (hn : a + 4 ≤ ip + n)
    (hc : ip + n ≤ c) (hp : ip + n ≤ p) :
    wordSum (slice (storeFields b ip a c p ipCheck l4Check addr port) ip n) +
        (ntohs (load16 b (ip + 10))).toNat + words32 (load32 b a) =
      wordSum (slice b ip n) + (ntohs ipCheck).toNat + words32 addr.raw := by
  obtain ⟨haddr, hcheck, hport, hapart, hcb, hpb⟩ := h
  rw [storeFields, slice_store16_of_disjoint (.inr hp)]
  have hcheck := wordSum_slice_store16 (b := b) (o := ip) (n := n) (k := ip + 10) ipCheck
    (by omega) (by omega) (by omega) (by omega)
  have haddr := wordSum_slice_store32 (b := store16 (store16 b (ip + 10) ipCheck) c l4Check)
    (o := ip) (n := n) (k := a) addr.raw (by omega) heven hn (by simp only [length_store16]; omega)
  rw [slice_store16_of_disjoint (.inr hc), load32_store16_of_disjoint (by omega),
    load32_store16_of_disjoint (by omega)] at haddr
  simp only [ntohs]
  omega

theorem wordSum_addresses_storeFields {o n : Nat} (ho : ip + 12 ≤ o) (hoa : o ≤ a)
    (heven : (a - o) % 2 = 0) (hn : a + 4 ≤ o + n) (hc : o + n ≤ c) (hp : o + n ≤ p) :
    wordSum (slice (storeFields b ip a c p ipCheck l4Check addr port) o n) +
        words32 (load32 b a) =
      wordSum (slice b o n) + words32 addr.raw := by
  obtain ⟨haddr, hcheck, hport, hapart, hcb, hpb⟩ := h
  rw [storeFields, slice_store16_of_disjoint (.inr hp)]
  have haddr := wordSum_slice_store32 (b := store16 (store16 b (ip + 10) ipCheck) c l4Check)
    (o := o) (n := n) (k := a) addr.raw hoa heven hn (by simp only [length_store16]; omega)
  rwa [slice_store16_of_disjoint (.inr hc), slice_store16_of_disjoint (.inl (by omega)),
    load32_store16_of_disjoint (by omega), load32_store16_of_disjoint (by omega)] at haddr

theorem wordSum_segment_storeFields {o n : Nat} (ho : a + 4 ≤ o) (hc : o ≤ c) (hp : o ≤ p)
    (hceven : (c - o) % 2 = 0) (hpeven : (p - o) % 2 = 0) (hcn : c + 2 ≤ o + n)
    (hpn : p + 2 ≤ o + n) :
    wordSum (slice (storeFields b ip a c p ipCheck l4Check addr port) o n) +
        (ntohs (load16 b c)).toNat + (ntohs (load16 b p)).toNat =
      wordSum (slice b o n) + (ntohs l4Check).toNat + (ntohs port).toNat := by
  obtain ⟨haddr, hcheck, hport, hapart, hcb, hpb⟩ := h
  have hcheck := wordSum_slice_store16 (b := store16 b (ip + 10) ipCheck) (o := o) (n := n)
    (k := c) l4Check hc hceven hcn (by rwa [length_store16])
  have hport := wordSum_slice_store16
    (b := store32 (store16 (store16 b (ip + 10) ipCheck) c l4Check) a addr.raw) (o := o) (n := n)
    (k := p) port hp hpeven hpn (by simpa using hpb)
  have hslice : slice (store16 b (ip + 10) ipCheck) o n = slice b o n :=
    slice_store16_of_disjoint (.inl (by omega))
  rw [hslice, load16_store16_of_disjoint (by omega)] at hcheck
  rw [slice_store32_of_disjoint (.inl (by omega)), load16_store32_of_disjoint (by omega),
    load16_store16_of_disjoint (by omega), load16_store16_of_disjoint (by omega)] at hport
  rw [storeFields]
  simp only [ntohs]
  omega

end
end
end Hpgtp
