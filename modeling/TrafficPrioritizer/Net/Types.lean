import TrafficPrioritizer.Lib.Bytes

/-! Addresses and byte order. The host is little-endian, so a raw network-order
value is the little-endian load of its bytes and `ntohs`, `ntohl` swap them. -/

namespace Hpgtp
open ByteBuffer

def ntohs (v : UInt16) : UInt16 := swap16 v

def htons (v : UInt16) : UInt16 := swap16 v

def ntohl (v : UInt32) : UInt32 := swap32 v

def htonl (v : UInt32) : UInt32 := swap32 v

@[simp] theorem ntohs_htons (v : UInt16) : ntohs (htons v) = v := swap16_swap16 v

@[simp] theorem htons_ntohs (v : UInt16) : htons (ntohs v) = v := swap16_swap16 v

@[simp] theorem htons_inj {v w : UInt16} : htons v = htons w ↔ v = w := swap16_injective.eq_iff

theorem htons_eq_zero {v : UInt16} : htons v = 0 ↔ v = 0 := htons_inj (w := 0)

theorem ntohs_toNat_eq_zero {v : UInt16} : (ntohs v).toNat = 0 ↔ v = 0 := by
  rw [← UInt16.toNat_zero, UInt16.toNat_inj, ← htons_eq_zero, htons_ntohs]

theorem ntohs_toNat_inj {v w : UInt16} : (ntohs v).toNat = (ntohs w).toNat ↔ v = w := by
  rw [UInt16.toNat_inj]
  exact htons_inj

/-- Network-byte-order IPv4 address. -/
structure IPv4Net where
  raw : UInt32 := 0
  deriving DecidableEq, Repr

def octets (a b c d : UInt8) : IPv4Net := ⟨load32 [a, b, c, d] 0⟩

structure IPv4Host where
  raw : UInt32 := 0
  deriving DecidableEq, Repr

def IPv4Net.toHost (a : IPv4Net) : IPv4Host := ⟨ntohl a.raw⟩

def IPv4Host.toNet (a : IPv4Host) : IPv4Net := ⟨htonl a.raw⟩

theorem IPv4Net.eq_of_toHost {a b : IPv4Net}
    (h : a.toHost.raw.toNat = b.toHost.raw.toNat) : a = b := by
  have hraw : a.raw = b.raw := swap32_injective (UInt32.toNat_inj.mp h)
  cases a
  cases b
  exact congrArg IPv4Net.mk hraw

def poolAdvance (base : IPv4Net) (offset : UInt32) : IPv4Net :=
  (IPv4Host.mk (base.toHost.raw + offset)).toNet

theorem poolAdvance_injective (base : IPv4Net) : Function.Injective (poolAdvance base) := by
  intro i j h
  have hraw : htonl (base.toHost.raw + i) = htonl (base.toHost.raw + j) := congrArg IPv4Net.raw h
  have hsum := congrArg (· - base.toHost.raw) (swap32_injective hraw)
  simpa only [UInt32.add_comm base.toHost.raw, UInt32.add_sub_cancel] using hsum

end Hpgtp
