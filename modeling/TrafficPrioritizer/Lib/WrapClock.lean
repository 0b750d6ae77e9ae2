import Mathlib.Algebra.Order.Ring.Nat

/-! A 32-bit tick counter against the number of ticks that really passed. A stamp
is a stored counter value; its age is the difference modulo `2 ^ 32`. -/

namespace WrapClock

/-- `n` ticks have passed since the counter, now at `now`, was copied to `stamp`. -/
def Tracks (now stamp : UInt32) (n : Nat) : Prop := now = stamp + UInt32.ofNat n

theorem Tracks.self (now : UInt32) : Tracks now now 0 := (UInt32.add_zero now).symm

theorem Tracks.add {now stamp : UInt32} {m : Nat} (h : Tracks now stamp m) (n : Nat) :
    Tracks (now + UInt32.ofNat n) stamp (m + n) := by
  rw [Tracks, h, UInt32.add_assoc]
  congr 1
  apply UInt32.toNat_inj.mp
  simp

theorem Tracks.succ {now stamp : UInt32} {n : Nat} (h : Tracks now stamp n) :
    Tracks (now + 1) stamp (n + 1) := h.add 1

theorem Tracks.age_toNat {now stamp : UInt32} {n : Nat} (h : Tracks now stamp n) :
    (now - stamp).toNat = n % 2 ^ 32 := by
  rw [h, UInt32.add_comm, UInt32.add_sub_cancel, UInt32.toNat_ofNat']

theorem Tracks.age_le {now stamp : UInt32} {n : Nat} (h : Tracks now stamp n) :
    (now - stamp).toNat ≤ n := h.age_toNat ▸ Nat.mod_le ..

theorem Tracks.age_eq {now stamp : UInt32} {n : Nat} (h : Tracks now stamp n) (hn : n < 2 ^ 32) :
    (now - stamp).toNat = n := h.age_toNat.trans (Nat.mod_eq_of_lt hn)

theorem Tracks.ne_of_lt {now stamp : UInt32} {n : Nat} (h : Tracks now stamp n)
    (hn : n + 1 < 2 ^ 32) : now + 1 ≠ stamp := by
  intro hc
  have hage := h.succ.age_eq hn
  rw [hc, UInt32.sub_self, UInt32.toNat_zero] at hage
  omega

theorem Tracks.succ_lt {now stamp : UInt32} {n : Nat} (h : Tracks now stamp n) (hn : n < 2 ^ 32)
    (hne : now + 1 ≠ stamp) : n + 1 < 2 ^ 32 := by
  by_contra hge
  obtain rfl : n = 2 ^ 32 - 1 := by omega
  exact hne (h.succ.trans (UInt32.add_zero stamp))

theorem age_succ {now stamp : UInt32} (h : now + 1 ≠ stamp) :
    (now + 1 - stamp).toNat = (now - stamp).toNat + 1 := by
  have hne : now - stamp ≠ -1 := by
    intro hc
    apply h
    have : now = stamp + -1 := by rw [← hc, UInt32.add_comm, UInt32.sub_add_cancel]
    rw [this, UInt32.add_assoc, show (-1 : UInt32) + 1 = 0 by decide, UInt32.add_zero]
  have hlt : (now - stamp).toNat ≠ 2 ^ 32 - 1 := fun hc => hne (UInt32.toNat_inj.mp hc)
  have hmax := (now - stamp).toNat_lt
  rw [show now + 1 - stamp = now - stamp + 1 by
    simp only [UInt32.sub_eq_add_neg, UInt32.add_assoc, UInt32.add_comm 1], UInt32.toNat_add]
  simp only [UInt32.toNat_one]
  omega

end WrapClock
