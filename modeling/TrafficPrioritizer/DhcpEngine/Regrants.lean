import TrafficPrioritizer.DhcpEngine.HandedOut
import TrafficPrioritizer.DhcpEngine.Reconfigure

/-! What becomes of a lease when a pool is accepted that has its address. Setting up the pool
clears every slot, so the address can be given out again at once, for as long as its slot can be
reached at all. -/

namespace Hpgtp
namespace DhcpEngine

def Granted (d : DhcpEngine) (ip : IPv4Net) (mac : Mac) (expiry : Int) : Prop :=
  ∃ (before : DhcpEngine) (x : Received) (later : List DhcpOp), before.Reachable ∧
    before.Answers x 5 ip mac ∧ expiry = x.commitNow + before.duration ∧
    d = LabelledRun.exec step (before.receive x).1 later

def GivenAway (d : DhcpEngine) (ip : IPv4Net) (mac : Mac) (now expiry : Int) : Prop :=
  ∃ (xs : List Received) (y : Received) (type : UInt8) (mac' : Mac), Chronological (xs ++ [y]) ∧
    (∀ z ∈ xs ++ [y], now ≤ z.now) ∧ y.now ≤ expiry ∧ (type = 2 ∨ type = 5) ∧
    (d.afterAll xs).Answers y type ip mac' ∧ mac' ≠ mac

theorem Granted.poolOk {d : DhcpEngine} {ip : IPv4Net} {mac : Mac} {expiry : Int}
    (h : d.Granted ip mac expiry) : d.PoolOk := by
  obtain ⟨before, x, later, hbefore, -, -, rfl⟩ := h
  exact LabelledRun.invariant (fun _ op h => h.step op) later (hbefore.poolOk.receive x)

theorem leaseDuration_reconfigure (d : DhcpEngine) (cfg : DhcpPoolConfig) :
    (d.reconfigure cfg).2.leaseDuration = cfg.lease := by
  rw [reconfigure_eq]
  rcases UInt32.le_or_lt cfg.poolStart.toHost.raw cfg.poolEnd.toHost.raw with hle | hlt
  · rw [initPool_of_ordered _ hle]
    rfl
  · rw [initPool_of_unordered _ hlt]

section
variable {d : DhcpEngine} {start stop ip : IPv4Net}

theorem Serves.grantable_iff (h : d.Serves start stop)
    (hidle : ∀ i : Fin maxPoolSize, i.val < d.poolCount → ¬ (d.leases i).active = true)
    (hstart : start.toHost.raw ≤ ip.toHost.raw) (hstop : ip.toHost.raw ≤ stop.toHost.raw) :
    (∃ i, d.Grantable i ∧ (d.leases i).ip = ip) ↔
      ip.toHost.raw.toNat - start.toHost.raw.toNat < maxPoolSize ∧
        (0 ≤ d.leaseDuration ∨ ip = start) := by
  constructor
  · rintro ⟨i, ⟨hi, hgrant⟩, rfl⟩
    obtain ⟨hip, -⟩ := h.ip_toNat hi
    refine ⟨by rw [hip]; omega, ?_⟩
    rcases hgrant with hlease | hact | hfront
    · exact .inl hlease
    · exact absurd hact (hidle i hi)
    · -- the first slot is not active, so it is this one
      refine .inr (IPv4Net.eq_of_toHost ?_)
      rcases Nat.eq_zero_or_pos i.val with hzero | hpos
      · rw [hip, hzero, Nat.add_zero]
      · exact absurd (hfront ⟨0, by decide⟩ hpos) (hidle _ (lt_trans hpos hi))
  · rintro ⟨hlt, hgrant⟩
    obtain ⟨i, hi, hip⟩ := h.exists_slot hstart hstop hlt
    refine ⟨i, ⟨hi, hgrant.imp_right fun heq => .inr fun j hj => ?_⟩, hip⟩
    have hnat := (h.ip_toNat hi).1
    rw [hip, heq] at hnat
    have hj' : j.val < i.val := hj
    omega

end

section
variable {d : DhcpEngine} {ip : IPv4Net} {mac : Mac} {now expiry : Int}

theorem Grantable.givenAway (hok : d.PoolOk) {i : Fin maxPoolSize} (h : d.Grantable i)
    (hidle : ∀ j : Fin maxPoolSize, j.val < d.poolCount → ¬ (d.leases j).active = true)
    (mac : Mac) (hnow : now ≤ expiry) : d.GivenAway (d.leases i).ip mac now expiry := by
  obtain ⟨hi, hgrant⟩ := h
  have hfill : 0 ≤ d.duration ∨ ∀ j < i, ¬ d.Free now j := by
    rcases hgrant with hlease | hact | hfront
    · exact .inl (duration_nonneg.mpr hlease)
    · exact absurd hact (hidle i hi)
    · exact .inr fun j hj => absurd (hfront j hj) (hidle j (lt_trans hj hi))
  obtain ⟨clients, fresh, hne, hnone, hfree, hslot⟩ :=
    hok.freed hi (fun hact => absurd hact (hidle i hi)) hfill mac
  have hanswer := hfree.answers hnone
  rw [hslot] at hanswer
  refine ⟨_, _, 5, fresh, chronological_discoversAt clients _ now, fun z hz => ?_, hnow, .inr rfl,
    hanswer, hne⟩
  rw [(times_discoversAt hz).1]

/-- A lease on an address of the new pool is kept until its expiry exactly when the address is not
among those that have a slot, or the new lease time is negative and it is not the first one. -/
theorem reconfigure_keeps_grant_iff {cfg : DhcpPoolConfig} (hgranted : d.Granted ip mac expiry)
    (hnow : now ≤ expiry) (haccepted : (d.reconfigure cfg).1 = .ok ())
    (hstart : cfg.poolStart.toHost.raw ≤ ip.toHost.raw)
    (hend : ip.toHost.raw ≤ cfg.poolEnd.toHost.raw) :
    ¬ (d.reconfigure cfg).2.GivenAway ip mac now expiry ↔
      253 ≤ ip.toHost.raw.toNat - cfg.poolStart.toHost.raw.toNat ∨
        cfg.lease < 0 ∧ ip ≠ cfg.poolStart := by
  have hle := ordered_of_accepted haccepted
  obtain ⟨-, hserves, -⟩ := d.reconfigure_of_ordered hle
  have hok := hgranted.poolOk.reconfigure cfg
  have hidle : ∀ i : Fin maxPoolSize, i.val < (d.reconfigure cfg).2.poolCount →
      ¬ ((d.reconfigure cfg).2.leases i).active = true :=
    fun i hi => Bool.eq_false_iff.mp (d.active_reconfigure hle hi)
  have hlease := leaseDuration_reconfigure d cfg
  have hgrantable := hserves.grantable_iff hidle hstart hend
  generalize (d.reconfigure cfg).2 = after at *
  rw [hlease] at hgrantable
  constructor
  · intro hkept
    by_contra! hnot
    have hreach : 0 ≤ cfg.lease ∨ ip = cfg.poolStart :=
      (le_or_gt 0 cfg.lease).imp_right hnot.2
    obtain ⟨i, hi, hip⟩ := hgrantable.mpr ⟨hnot.1, hreach⟩
    exact hkept (hip ▸ hi.givenAway hok hidle mac hnow)
  · rintro hcond ⟨xs, y, type, mac', hclock, -, -, htype, hanswer, -⟩
    have hslot : ip.toHost.raw.toNat - cfg.poolStart.toHost.raw.toNat < maxPoolSize ∧
        (0 ≤ cfg.lease ∨ ip = cfg.poolStart) := by
      rcases hok.answers_grantable hclock htype hanswer with hgrant | ⟨rfl, -⟩
      · exact hgrantable.mp hgrant
      · -- the zero address is the first of any pool that has it
        have hzero : (IPv4Net.toHost {}).raw.toNat = 0 := by decide
        have hstart' : cfg.poolStart.toHost.raw.toNat ≤ (IPv4Net.toHost {}).raw.toNat := hstart
        rw [hzero] at hstart'
        refine ⟨by rw [hzero, Nat.zero_sub]; decide, .inr (IPv4Net.eq_of_toHost ?_)⟩
        omega
    rcases hcond with hfar | ⟨hneg, hne⟩
    · exact absurd hslot.1 (not_lt.mpr hfar)
    · exact absurd (hslot.2.resolve_left (not_le.mpr hneg)) hne

end

def takenPool : DhcpEngine :=
  ((smallPool.afterAll [receivedAt (makeDhcpRequest otherMac (octets 192 168 1 100)) 0]).receive
    (receivedAt (makeDhcpRequest selfTestMac (octets 192 168 1 101)) 0)).1

theorem granted_takenPool :
    takenPool.Granted (octets 192 168 1 101) selfTestMac 60000000000 :=
  ⟨smallPool.afterAll [receivedAt (makeDhcpRequest otherMac (octets 192 168 1 100)) 0],
    receivedAt (makeDhcpRequest selfTestMac (octets 192 168 1 101)) 0, [],
    ⟨_, _, _, [.handleDhcpRequest (makeDhcpRequest otherMac (octets 192 168 1 100)) 0 0], rfl⟩,
    by decide +kernel, by decide +kernel, rfl⟩

theorem reconfigure_keeps_second_address :
    let cfg : DhcpPoolConfig :=
      { poolStart := octets 192 168 1 100, poolEnd := octets 192 168 1 101, lease := -1 }
    ¬ (takenPool.reconfigure cfg).2.GivenAway (octets 192 168 1 101) selfTestMac 1 60000000000 := by
  intro cfg
  have haccepted : (takenPool.reconfigure cfg).1 = .ok () :=
    (takenPool.reconfigure_of_ordered (by decide +kernel)).1
  exact (reconfigure_keeps_grant_iff granted_takenPool (by decide) haccepted (by decide +kernel)
    (by decide +kernel)).mpr (.inr ⟨by decide, by decide +kernel⟩)

/-- The same pool is set again: both leases are gone, and after two other clients have asked the
second address is offered to one of them, almost a minute before its lease ends. -/
theorem reconfigure_regrants_address :
    let cfg : DhcpPoolConfig :=
      { poolStart := octets 192 168 1 100, poolEnd := octets 192 168 1 101, lease := 60 }
    let first := receivedAt (makeDhcpDiscover #v[2, 0, 0, 0, 0, 8]) 2
    let second := receivedAt (makeDhcpDiscover otherMac) 3
    takenPool.Granted (octets 192 168 1 101) selfTestMac 60000000000 ∧
      (takenPool.reconfigure cfg).1 = .ok () ∧
      ((takenPool.reconfigure cfg).2.afterAll [first]).Answers second 2 (octets 192 168 1 101)
        otherMac ∧
      (takenPool.reconfigure cfg).2.GivenAway (octets 192 168 1 101) selfTestMac 1
        60000000000 := by
  intro cfg first second
  have hanswer : ((takenPool.reconfigure cfg).2.afterAll [first]).Answers second 2
      (octets 192 168 1 101) otherMac := by decide +kernel
  refine ⟨granted_takenPool, (takenPool.reconfigure_of_ordered (by decide +kernel)).1, hanswer,
    [first], second, 2, otherMac, by decide +kernel, by decide +kernel, by decide +kernel, .inl rfl,
    hanswer, by decide +kernel⟩

end DhcpEngine
end Hpgtp
