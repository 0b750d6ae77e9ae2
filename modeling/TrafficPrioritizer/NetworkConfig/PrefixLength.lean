import TrafficPrioritizer.NetworkConfig.Sync

/-! The prefix length of an interface, read back from its netmask. The loop shifts the leading
ones of the mask out; nothing is left of it exactly when the mask has ones in front of zeros. -/

namespace Hpgtp

structure NetmaskCalls where
  socket : Bool
  netmask : Option UInt32

def leadingOnes : ℕ → ℕ → UInt32 → Option (ℕ × UInt32)
  | 0, _, _ => none
  | fuel + 1, prefixLen, m =>
    if m &&& 0x80000000 ≠ 0 then leadingOnes fuel (prefixLen + 1) (m <<< 1)
    else some (prefixLen, m)

def getIfaceIpv4PrefixLen (fuel : ℕ) (k : NetmaskCalls) : Option Int :=
  if !k.socket then some (-1)
  else
    match k.netmask with
    | none => some (-1)
    | some addr =>
      let m := ntohl addr
      if m = 0 then some (-1)
      else (leadingOnes fuel 0 m).map fun (prefixLen, m) => if m ≠ 0 then -1 else (prefixLen : Int)

/-! ## The loop -/

theorem and_top_bit_ne_zero {m : UInt32} : m &&& 0x80000000 ≠ 0 ↔ 2 ^ 31 ≤ m.toNat := by
  have hm := m.toNat_lt
  have hand : (m &&& 0x80000000).toNat = (m.toNat.testBit 31).toNat * 2 ^ 31 := by
    rw [UInt32.toNat_and, ← Nat.and_two_pow]
    rfl
  rw [Ne, ← UInt32.toNat_inj, hand, UInt32.toNat_zero, Nat.testBit_eq_decide_div_mod_eq]
  by_cases hbit : m.toNat / 2 ^ 31 % 2 = 1
  · rw [decide_eq_true hbit, Bool.toNat_true]
    omega
  · rw [decide_eq_false hbit, Bool.toNat_false]
    omega

theorem shiftLeft_one_toNat (m : UInt32) : (m <<< 1).toNat = 2 * m.toNat % 2 ^ 32 := by
  rw [UInt32.toNat_shiftLeft, Nat.shiftLeft_eq, Nat.mul_comm]
  rfl

theorem leadingOnes_spec {fuel p : ℕ} {m : UInt32}
    (hfuel : 2 ^ 32 < (2 ^ 32 - m.toNat) * 2 ^ fuel) :
    ∃ k rest, leadingOnes fuel p m = some (p + k, rest) ∧ rest.toNat < 2 ^ 31 ∧
      rest.toNat + (2 ^ 32 - m.toNat) * 2 ^ k = 2 ^ 32 := by
  have hm := m.toNat_lt
  induction fuel generalizing p m with
  | zero => omega
  | succ fuel ih =>
    rw [leadingOnes]
    split_ifs with hbit
    · rw [and_top_bit_ne_zero] at hbit
      have hdouble : 2 ^ 32 - (m <<< 1).toNat = (2 ^ 32 - m.toNat) * 2 := by
        rw [shiftLeft_one_toNat]
        omega
      obtain ⟨k, rest, hloop, hrest, hsum⟩ := ih (p := p + 1) (m := m <<< 1)
        (by rwa [hdouble, Nat.mul_assoc, ← Nat.pow_succ']) (m <<< 1).toNat_lt
      have hpow : 2 ^ (k + 1) = 2 * 2 ^ k := Nat.pow_succ'
      refine ⟨k + 1, rest, by rw [hloop, Nat.add_assoc, Nat.add_comm 1], hrest, ?_⟩
      rwa [hpow, ← Nat.mul_assoc, ← hdouble]
    · rw [and_top_bit_ne_zero, not_le] at hbit
      exact ⟨0, m, rfl, hbit, by omega⟩

/-! ## Masks -/

theorem netmask_add {q : ℕ} (hq : q ≤ 32) : (netmask q).toNat + 2 ^ (32 - q) = 2 ^ 32 := by
  have hall : ∀ q : Fin 33, (netmask q).toNat + 2 ^ (32 - q.val) = 2 ^ 32 := by decide +kernel
  exact hall ⟨q, Nat.lt_succ_of_le hq⟩

theorem testBit_netmask {q i : ℕ} (hq : q ≤ 32) (hi : i < 32) :
    (netmask q).toNat.testBit i = decide (32 - q ≤ i) := by
  have hall : ∀ (q : Fin 33) (i : Fin 32),
      (netmask q).toNat.testBit i = decide (32 - q.val ≤ i.val) := by decide +kernel
  exact hall ⟨q, Nat.lt_succ_of_le hq⟩ ⟨i, hi⟩

def Contiguous (m : UInt32) : Prop :=
  ∀ i j, i ≤ j → j < 32 → m.toNat.testBit i = true → m.toNat.testBit j = true

theorem contiguous_iff {m : UInt32} : Contiguous m ↔ ∃ q ≤ 32, m = netmask q := by
  constructor
  · intro h
    by_cases hzero : m = 0
    · exact ⟨0, Nat.zero_le _, hzero⟩
    have hbits : ∃ i, m.toNat.testBit i = true := by
      by_contra! hnone
      refine hzero (UInt32.toNat_inj.mp (Nat.eq_of_testBit_eq fun i => ?_))
      rw [UInt32.toNat_zero, Nat.zero_testBit, Bool.eq_false_iff]
      exact hnone i
    -- the lowest bit that is set is where the zeros end
    obtain ⟨i, hset, hmin⟩ : ∃ i, m.toNat.testBit i = true ∧
        ∀ j < i, ¬ m.toNat.testBit j = true :=
      ⟨Nat.find hbits, Nat.find_spec hbits, fun j => Nat.find_min hbits⟩
    have hhigh {x : UInt32} {j : ℕ} (hj : 32 ≤ j) : x.toNat.testBit j = false :=
      Nat.testBit_lt_two_pow (lt_of_lt_of_le x.toNat_lt (Nat.pow_le_pow_right (by decide) hj))
    have hi : i < 32 := by
      by_contra! hge
      rw [hhigh hge] at hset
      cases hset
    refine ⟨32 - i, Nat.sub_le _ _, UInt32.toNat_inj.mp (Nat.eq_of_testBit_eq fun j => ?_)⟩
    rcases Nat.lt_or_ge j 32 with hj | hj
    · rw [testBit_netmask (Nat.sub_le _ _) hj, Nat.sub_sub_self hi.le]
      rcases Nat.lt_or_ge j i with hji | hij
      · rw [decide_eq_false (Nat.not_le.mpr hji), Bool.eq_false_iff]
        exact hmin j hji
      · rw [decide_eq_true hij]
        exact h i j hij hj hset
    · rw [hhigh hj, hhigh hj]
  · rintro ⟨q, hq, rfl⟩ i j hij hj hset
    rw [testBit_netmask hq (lt_of_le_of_lt hij hj), decide_eq_true_iff] at hset
    rw [testBit_netmask hq hj, decide_eq_true_iff]
    exact hset.trans hij

/-! ## Decoding -/

section
variable {m : UInt32} {fuel : ℕ}

theorem leadingOnes_of_fuel (m : UInt32) (hfuel : 32 < fuel) :
    ∃ k rest, leadingOnes fuel 0 m = some (k, rest) ∧ rest.toNat < 2 ^ 31 ∧
      rest.toNat + (2 ^ 32 - m.toNat) * 2 ^ k = 2 ^ 32 := by
  have hm := m.toNat_lt
  have hpow : 2 ^ 32 < 2 ^ fuel := Nat.pow_lt_pow_right (by decide) hfuel
  have hroom : 2 ^ 32 < (2 ^ 32 - m.toNat) * 2 ^ fuel :=
    lt_of_lt_of_le hpow (Nat.le_mul_of_pos_left _ (Nat.sub_pos_of_lt hm))
  have hrun := leadingOnes_spec (p := 0) hroom
  simpa only [Nat.zero_add] using hrun

theorem prefixLen_of_loop {k : ℕ} {rest : UInt32} (hm : m ≠ 0)
    (hloop : leadingOnes fuel 0 m = some (k, rest)) :
    getIfaceIpv4PrefixLen fuel ⟨true, some (htonl m)⟩ =
      some (if rest ≠ 0 then -1 else (k : Int)) := by
  have hswap : ntohl (htonl m) = m := ByteBuffer.swap32_swap32 m
  simp only [getIfaceIpv4PrefixLen, hswap, hloop]
  rw [if_neg (by decide), if_neg hm]
  rfl

theorem prefixLen_of_netmask {q : ℕ} (hq : 1 ≤ q) (hq32 : q ≤ 32) (hm : m = netmask q)
    (hfuel : 32 < fuel) : getIfaceIpv4PrefixLen fuel ⟨true, some (htonl m)⟩ = some (q : Int) := by
  have hadd := netmask_add hq32
  have hne : m ≠ 0 := by
    have hpow : 2 ^ (32 - q) < 2 ^ 32 := Nat.pow_lt_pow_right (by decide) (by omega)
    rintro rfl
    rw [← hm, UInt32.toNat_zero] at hadd
    omega
  obtain ⟨k, rest, hloop, hrest, hsum⟩ := leadingOnes_of_fuel m hfuel
  have hlack : 2 ^ 32 - m.toNat = 2 ^ (32 - q) := by
    rw [hm, ← hadd, Nat.add_sub_cancel_left]
  rw [hlack, ← Nat.pow_add] at hsum
  have hlow : 31 < 32 - q + k := (Nat.pow_lt_pow_iff_right (a := 2) (by decide)).mp (by omega)
  have hhigh : 32 - q + k ≤ 32 := (Nat.pow_le_pow_iff_right (a := 2) (by decide)).mp (by omega)
  obtain rfl : k = q := by omega
  have hzero : rest = 0 := by
    rw [Nat.sub_add_cancel hq32] at hsum
    exact UInt32.toNat_inj.mp (by rw [UInt32.toNat_zero]; omega)
  rw [prefixLen_of_loop hne hloop, if_neg (not_not.mpr hzero)]

theorem prefixLen_of_other (hm : ∀ q : ℕ, 1 ≤ q → q ≤ 32 → m ≠ netmask q) (hfuel : 32 < fuel) :
    getIfaceIpv4PrefixLen fuel ⟨true, some (htonl m)⟩ = some (-1) := by
  by_cases hzero : m = 0
  · rw [hzero]
    rfl
  obtain ⟨k, rest, hloop, -, hsum⟩ := leadingOnes_of_fuel m hfuel
  rw [prefixLen_of_loop hzero hloop, if_pos]
  -- a mask of which nothing is left is the mask of the prefix that was counted
  rintro rfl
  rw [UInt32.toNat_zero, Nat.zero_add] at hsum
  have hdvd : 2 ^ k ∣ 2 ^ 32 := Dvd.intro_left _ hsum
  have hk : k ≤ 32 := (Nat.pow_dvd_pow_iff_le_right (by decide)).mp hdvd
  have hpow : 2 ^ 32 = 2 ^ (32 - k) * 2 ^ k := by rw [← Nat.pow_add, Nat.sub_add_cancel hk]
  have hlack : 2 ^ 32 - m.toNat = 2 ^ (32 - k) :=
    Nat.eq_of_mul_eq_mul_right (Nat.two_pow_pos k) (hsum.trans hpow)
  have hadd := netmask_add hk
  have heq : m = netmask k := UInt32.toNat_inj.mp (by have := m.toNat_lt; omega)
  rcases Nat.eq_zero_or_pos k with rfl | hpos
  · exact hzero heq
  · exact hm k hpos hk heq

end

namespace NetworkConfig

theorem mem_setIface {iface ipv4 : List UInt8} {q : ℕ} {calls : IfaceCalls} {w : UInt32}
    (h : w ∈ (setIfaceIpv4AndPrefix iface ipv4 q calls).2) :
    1 ≤ q ∧ q ≤ 32 ∧ w = htonl (netmask q) := by
  have hw := setIface_installed h
  unfold setIfaceIpv4AndPrefix at h
  split_ifs at h with hq
  all_goals cases h
  exact ⟨by omega, by omega, hw⟩

theorem mem_setIface_htonl {iface ipv4 : List UInt8} {q : ℕ} {calls : IfaceCalls} {m : UInt32}
    (h : htonl m ∈ (setIfaceIpv4AndPrefix iface ipv4 q calls).2) :
    1 ≤ q ∧ q ≤ 32 ∧ m = netmask q := by
  obtain ⟨hq, hq32, heq⟩ := mem_setIface h
  exact ⟨hq, hq32, ByteBuffer.swap32_injective heq⟩

end NetworkConfig

theorem netmask_injective {q q' : ℕ} (hq : q ≤ 32) (hq' : q' ≤ 32) (heq : netmask q = netmask q') :
    q = q' := by
  have h1 := netmask_add hq
  have h2 := netmask_add hq'
  rw [heq] at h1
  have hpow : 2 ^ (32 - q) = 2 ^ (32 - q') := by omega
  have := Nat.pow_right_injective le_rfl hpow
  omega

/-- The loop ends for every mask; a prefix length comes out exactly for its own mask, which is the
one that is installed for it, and the same bits decide what is in the subnet. -/
theorem netmask_decoding_exact (m : UInt32) :
    ∃ p : Int, (∀ fuel > 32, getIfaceIpv4PrefixLen fuel ⟨true, some (htonl m)⟩ = some p) ∧
      (p = -1 ∨ 1 ≤ p ∧ p ≤ 32) ∧
      (∀ q : ℕ, 1 ≤ q → q ≤ 32 → (p = q ↔ m = 0xFFFFFFFF <<< UInt32.ofNat (32 - q))) ∧
      (p = -1 ↔ m = 0 ∨ ¬ Contiguous m) ∧
      (∀ q iface ipv4 calls, htonl m ∈ (setIfaceIpv4AndPrefix iface ipv4 q calls).2 → p = q) ∧
      ∀ x y : IPv4Net, p ≠ -1 →
        (ipv4InSubnet x p y = true ↔ ntohl x.raw &&& m = ntohl y.raw &&& m) := by
  have hshift {q : ℕ} (hq : 1 ≤ q) : 0xFFFFFFFF <<< UInt32.ofNat (32 - q) = netmask q := by
    rw [netmask, if_neg (by omega)]
  by_cases hmask : ∃ q : ℕ, 1 ≤ q ∧ q ≤ 32 ∧ m = netmask q
  · obtain ⟨q, hq, hq32, rfl⟩ := hmask
    refine ⟨q, fun fuel => prefixLen_of_netmask hq hq32 rfl, .inr ⟨by omega, by omega⟩,
      fun q' hq' hq32' => ?_, ?_, fun q' iface ipv4 calls h => ?_, fun x y _ => ?_⟩
    · rw [hshift hq', Nat.cast_inj]
      exact ⟨fun h => h ▸ rfl, netmask_injective hq32 hq32'⟩
    · have hne : netmask q ≠ 0 := fun h =>
        absurd (netmask_injective hq32 (Nat.zero_le 32) h) (by omega)
      have hcont : Contiguous (netmask q) := contiguous_iff.mpr ⟨q, hq32, rfl⟩
      refine iff_of_false (by omega) ?_
      rintro (h | h)
      · exact hne h
      · exact h hcont
    · obtain ⟨-, hq32', heq⟩ := NetworkConfig.mem_setIface_htonl h
      rw [netmask_injective hq32 hq32' heq]
    · exact ipv4InSubnet_iff_and hq32
  · push Not at hmask
    refine ⟨-1, fun fuel => prefixLen_of_other hmask, .inl rfl, fun q hq hq32 => ?_, ?_,
      fun q iface ipv4 calls h => ?_, fun x y h => absurd rfl h⟩
    · rw [hshift hq]
      exact iff_of_false (by omega) (hmask q hq hq32)
    · refine iff_of_true rfl (or_iff_not_imp_left.mpr fun hzero hcont => ?_)
      obtain ⟨q, hq32, heq⟩ := contiguous_iff.mp hcont
      rcases Nat.eq_zero_or_pos q with rfl | hpos
      · exact hzero heq
      · exact hmask q hpos hq32 heq
    · obtain ⟨hq, hq32, heq⟩ := NetworkConfig.mem_setIface_htonl h
      exact absurd heq (hmask q hq hq32)

end Hpgtp
