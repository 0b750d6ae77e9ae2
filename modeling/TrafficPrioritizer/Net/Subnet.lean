import Mathlib.Data.Nat.Bitwise
import TrafficPrioritizer.Net.Types

/-! Prefixes and masks of IPv4 addresses. The common prefix of a pool's ends is
found bit by bit from the top; an address is in a subnet when it agrees with the
anchor under the mask, that is above the host bits. -/

namespace Hpgtp

def netmask (len : ℕ) : UInt32 := if len = 0 then 0 else 0xFFFFFFFF <<< UInt32.ofNat (32 - len)

def ipv4InSubnet (ip : IPv4Net) (prefixLen : Int) (anchor : IPv4Net) : Bool :=
  if prefixLen < 0 ∨ 32 < prefixLen then false
  else decide (ntohl ip.raw &&& netmask prefixLen.toNat = ntohl anchor.raw &&& netmask prefixLen.toNat)

def prefixLoop (ha hb : UInt32) : ℕ → ℕ → ℕ
  | 0, p => p
  | n + 1, p =>
    if (ha >>> UInt32.ofNat (31 - p)) &&& 1 ≠ (hb >>> UInt32.ofNat (31 - p)) &&& 1 then p
    else prefixLoop ha hb n (p + 1)

def commonPrefixLen (ha hb : UInt32) : ℕ := if ha = hb then 32 else prefixLoop ha hb 32 0

def inferPrefixCoveringPool (a b : IPv4Net) : ℕ :=
  if ntohl a.raw > ntohl b.raw then commonPrefixLen (ntohl b.raw) (ntohl a.raw)
  else commonPrefixLen (ntohl a.raw) (ntohl b.raw)

theorem netmask_toNat {len : ℕ} (hlen : len ≤ 32) (x : UInt32) :
    (x &&& netmask len).toNat = x.toNat / 2 ^ (32 - len) * 2 ^ (32 - len) := by
  have hx := x.toNat_lt
  rcases Nat.eq_zero_or_pos len with rfl | hpos
  · rw [netmask, if_pos rfl, UInt32.toNat_and, UInt32.toNat_zero, Nat.and_zero, Nat.sub_zero,
      Nat.div_eq_of_lt hx, Nat.zero_mul]
  · have hk : (UInt32.ofNat (32 - len)).toNat % 32 = 32 - len := by
      rw [UInt32.toNat_ofNat']
      omega
    rw [netmask, if_neg (by omega), UInt32.toNat_and, UInt32.toNat_shiftLeft, hk]
    apply Nat.eq_of_testBit_eq
    intro i
    have hones : (0xFFFFFFFF : UInt32).toNat = 2 ^ 32 - 1 := rfl
    rw [hones, Nat.testBit_and, Nat.testBit_mod_two_pow, Nat.testBit_shiftLeft,
      Nat.testBit_two_pow_sub_one, Nat.testBit_mul_two_pow, Nat.testBit_div_two_pow]
    by_cases hi : i < 32
    · by_cases hik : 32 - len ≤ i
      · have h1 : i - (32 - len) < 32 := by omega
        have h2 : i - (32 - len) + (32 - len) = i := by omega
        simp [hi, hik, h1, h2]
      · simp [hik]
    · have hbit : x.toNat.testBit i = false :=
        Nat.testBit_lt_two_pow (Nat.lt_of_lt_of_le hx (Nat.pow_le_pow_right (by decide) (by omega)))
      by_cases hik : 32 - len ≤ i
      · have h2 : i - (32 - len) + (32 - len) = i := by omega
        simp [hbit, h2]
      · simp [hik]

theorem and_netmask_eq_iff {len : ℕ} (hlen : len ≤ 32) {x y : UInt32} :
    x &&& netmask len = y &&& netmask len ↔
      x.toNat / 2 ^ (32 - len) = y.toNat / 2 ^ (32 - len) := by
  rw [← UInt32.toNat_inj, netmask_toNat hlen, netmask_toNat hlen]
  exact Nat.mul_left_inj (Nat.two_pow_pos _).ne'

theorem ipv4InSubnet_iff_and {ip anchor : IPv4Net} {len : ℕ} (hlen : len ≤ 32) :
    ipv4InSubnet ip len anchor = true ↔
      ntohl ip.raw &&& netmask len = ntohl anchor.raw &&& netmask len := by
  rw [ipv4InSubnet, if_neg (by omega), decide_eq_true_iff, Int.toNat_natCast]

theorem ipv4InSubnet_iff {ip anchor : IPv4Net} {len : ℕ} (hlen : len ≤ 32) :
    ipv4InSubnet ip len anchor = true ↔
      (ntohl ip.raw).toNat / 2 ^ (32 - len) = (ntohl anchor.raw).toNat / 2 ^ (32 - len) := by
  rw [ipv4InSubnet_iff_and hlen, and_netmask_eq_iff hlen]

theorem top_bit_toNat {x : UInt32} {p : ℕ} (hp : p < 32) :
    ((x >>> UInt32.ofNat (31 - p)) &&& 1).toNat = x.toNat / 2 ^ (31 - p) % 2 := by
  have hk : (UInt32.ofNat (31 - p)).toNat % 32 = 31 - p := by
    rw [UInt32.toNat_ofNat']
    omega
  rw [UInt32.toNat_and, UInt32.toNat_shiftRight, hk, UInt32.toNat_one, Nat.and_one_is_mod,
    Nat.shiftRight_eq_div_pow]

theorem prefixLoop_common {ha hb : UInt32} {n p : ℕ} (hn : p + n = 32)
    (hcommon : ha.toNat / 2 ^ (32 - p) = hb.toNat / 2 ^ (32 - p)) :
    prefixLoop ha hb n p ≤ 32 ∧
      ha.toNat / 2 ^ (32 - prefixLoop ha hb n p) = hb.toNat / 2 ^ (32 - prefixLoop ha hb n p) := by
  induction n generalizing p with
  | zero => exact ⟨by rw [prefixLoop]; omega, hcommon⟩
  | succ n ih =>
    rw [prefixLoop]
    split_ifs with hbit
    · exact ⟨by omega, hcommon⟩
    · refine ih (by omega) ?_
      -- one more bit agrees, so the quotients by half the power do
      have hbit' := congrArg UInt32.toNat (not_not.mp hbit)
      rw [top_bit_toNat (by omega), top_bit_toNat (by omega)] at hbit'
      have hpow : 2 ^ (32 - p) = 2 ^ (31 - p) * 2 := by
        rw [← Nat.pow_succ]
        congr 1
        omega
      rw [hpow, ← Nat.div_div_eq_div_mul, ← Nat.div_div_eq_div_mul] at hcommon
      rw [show 32 - (p + 1) = 31 - p by omega]
      omega

theorem commonPrefixLen_common (ha hb : UInt32) :
    commonPrefixLen ha hb ≤ 32 ∧
      ha.toNat / 2 ^ (32 - commonPrefixLen ha hb) = hb.toNat / 2 ^ (32 - commonPrefixLen ha hb) := by
  rw [commonPrefixLen]
  split_ifs with heq
  · exact ⟨le_rfl, by rw [heq]⟩
  · refine prefixLoop_common rfl ?_
    rw [Nat.div_eq_of_lt ha.toNat_lt, Nat.div_eq_of_lt hb.toNat_lt]

theorem inferPrefixCoveringPool_common (a b : IPv4Net) :
    inferPrefixCoveringPool a b ≤ 32 ∧
      (ntohl a.raw).toNat / 2 ^ (32 - inferPrefixCoveringPool a b) =
        (ntohl b.raw).toNat / 2 ^ (32 - inferPrefixCoveringPool a b) := by
  rw [inferPrefixCoveringPool]
  split_ifs
  · exact (commonPrefixLen_common _ _).imp_right Eq.symm
  · exact commonPrefixLen_common _ _

theorem ipv4InSubnet_inferPrefix {a b x : IPv4Net} (hlo : (ntohl a.raw).toNat ≤ (ntohl x.raw).toNat)
    (hhi : (ntohl x.raw).toNat ≤ (ntohl b.raw).toNat) :
    ipv4InSubnet x (inferPrefixCoveringPool a b) a = true := by
  obtain ⟨hle, hcommon⟩ := inferPrefixCoveringPool_common a b
  rw [ipv4InSubnet_iff hle]
  have h1 := Nat.div_le_div_right (c := 2 ^ (32 - inferPrefixCoveringPool a b)) hlo
  have h2 := Nat.div_le_div_right (c := 2 ^ (32 - inferPrefixCoveringPool a b)) hhi
  omega

/-! ## No longer prefix -/

theorem prefixLoop_differs {ha hb : UInt32} {n p : ℕ} (hn : p + n = 32)
    (hlt : prefixLoop ha hb n p < 32) :
    ha.toNat / 2 ^ (31 - prefixLoop ha hb n p) ≠ hb.toNat / 2 ^ (31 - prefixLoop ha hb n p) := by
  induction n generalizing p with
  | zero =>
    rw [prefixLoop] at hlt
    omega
  | succ n ih =>
    rw [prefixLoop] at hlt ⊢
    split_ifs at hlt ⊢ with hbit
    · intro heq
      refine hbit (UInt32.toNat_inj.mp ?_)
      rw [top_bit_toNat hlt, top_bit_toNat hlt, heq]
    · exact ih (by omega) hlt

theorem commonPrefixLen_differs {ha hb : UInt32} (hlt : commonPrefixLen ha hb < 32) :
    ha.toNat / 2 ^ (31 - commonPrefixLen ha hb) ≠ hb.toNat / 2 ^ (31 - commonPrefixLen ha hb) := by
  rw [commonPrefixLen] at hlt ⊢
  split_ifs at hlt ⊢
  · exact absurd hlt (lt_irrefl _)
  · exact prefixLoop_differs rfl hlt

theorem inferPrefixCoveringPool_comm (a b : IPv4Net) :
    inferPrefixCoveringPool b a = inferPrefixCoveringPool a b := by
  simp only [inferPrefixCoveringPool]
  by_cases heq : ntohl a.raw = ntohl b.raw
  · rw [heq]
  · rcases UInt32.lt_or_lt_of_ne heq with hlt | hgt
    · rw [if_pos hlt, if_neg (UInt32.lt_asymm hlt)]
    · rw [if_neg (UInt32.lt_asymm hgt), if_pos hgt]

theorem inferPrefixCoveringPool_differs {a b : IPv4Net} (hlt : inferPrefixCoveringPool a b < 32) :
    (ntohl a.raw).toNat / 2 ^ (31 - inferPrefixCoveringPool a b) ≠
      (ntohl b.raw).toNat / 2 ^ (31 - inferPrefixCoveringPool a b) := by
  rw [inferPrefixCoveringPool] at hlt ⊢
  split_ifs at hlt ⊢
  · exact (commonPrefixLen_differs hlt).symm
  · exact commonPrefixLen_differs hlt

theorem not_ipv4InSubnet_of_longer {a b : IPv4Net} {q : ℕ} (hq : inferPrefixCoveringPool a b < q)
    (hle : q ≤ 32) : ipv4InSubnet b q a = false := by
  rw [← Bool.not_eq_true, ipv4InSubnet_iff hle]
  intro heq
  refine inferPrefixCoveringPool_differs (lt_of_lt_of_le hq hle) ?_
  -- a prefix of `q` bits that agrees holds the bit at which the ends part
  have hpow : 2 ^ (31 - inferPrefixCoveringPool a b) =
      2 ^ (32 - q) * 2 ^ (q - 1 - inferPrefixCoveringPool a b) := by
    rw [← Nat.pow_add]
    congr 1
    omega
  rw [hpow, ← Nat.div_div_eq_div_mul, ← Nat.div_div_eq_div_mul, heq]

theorem inferred_prefix_covers_and_is_longest (a b : IPv4Net) :
    inferPrefixCoveringPool a b ≤ 32 ∧
      (∀ x : IPv4Net, ntohl a.raw ≤ ntohl x.raw ∧ ntohl x.raw ≤ ntohl b.raw ∨
          ntohl b.raw ≤ ntohl x.raw ∧ ntohl x.raw ≤ ntohl a.raw →
        ipv4InSubnet x (inferPrefixCoveringPool a b) a = true) ∧
      (∀ q : Int, inferPrefixCoveringPool a b < q → q ≤ 32 → ipv4InSubnet b q a = false) ∧
      inferPrefixCoveringPool b a = inferPrefixCoveringPool a b := by
  obtain ⟨hle, hcommon⟩ := inferPrefixCoveringPool_common a b
  refine ⟨hle, ?_, fun q hq hq32 => ?_, inferPrefixCoveringPool_comm a b⟩
  · rintro x (⟨hax, hxb⟩ | ⟨hbx, hxa⟩)
    · exact ipv4InSubnet_inferPrefix hax hxb
    · have hin := ipv4InSubnet_inferPrefix hbx hxa
      rw [inferPrefixCoveringPool_comm, ipv4InSubnet_iff hle, ← hcommon] at hin
      exact (ipv4InSubnet_iff hle).mpr hin
  · lift q to ℕ using by omega
    exact not_ipv4InSubnet_of_longer (Int.ofNat_lt.mp hq) (Int.ofNat_le.mp hq32)

end Hpgtp
