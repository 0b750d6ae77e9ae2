import TrafficPrioritizer.DhcpEngine.ServedPool

/-! What a reconfiguration that fails leaves behind: the new lease time is stored before the
pool is looked at, and stays. -/

namespace Hpgtp
namespace DhcpEngine

section
variable (d : DhcpEngine) (cfg : DhcpPoolConfig)

theorem reconfigure_of_unordered (h : cfg.poolEnd.toHost.raw < cfg.poolStart.toHost.raw) :
    d.reconfigure cfg =
      (.error "DHCP pool_end is before pool_start", { d with leaseDuration := cfg.lease }) := by
  rw [reconfigure_eq, initPool_of_unordered _ h]

theorem reconfigure_error_iff : (∃ e, (d.reconfigure cfg).1 = .error e) ↔
    cfg.poolEnd.toHost.raw < cfg.poolStart.toHost.raw := by
  rcases UInt32.le_or_lt cfg.poolStart.toHost.raw cfg.poolEnd.toHost.raw with hle | hlt
  · refine iff_of_false ?_ (UInt32.not_lt.mpr hle)
    rw [(d.reconfigure_of_ordered hle).1]
    rintro ⟨e, he⟩
    cases he
  · rw [reconfigure_of_unordered d cfg hlt]
    exact iff_of_true ⟨_, rfl⟩ hlt

variable {d cfg} in
theorem ordered_of_accepted (h : (d.reconfigure cfg).1 = .ok ()) :
    cfg.poolStart.toHost.raw ≤ cfg.poolEnd.toHost.raw := by
  refine UInt32.not_lt.mp fun hlt => ?_
  obtain ⟨e, he⟩ := (reconfigure_error_iff d cfg).mpr hlt
  rw [h] at he
  cases he

def FailureIsNoOp : Prop :=
  ∀ e, (d.reconfigure cfg).1 = .error e → (d.reconfigure cfg).2 = d ∧
    ∀ xs x, (((d.reconfigure cfg).2.afterAll xs).receive x).2 = ((d.afterAll xs).receive x).2

/-- A reconfiguration fails exactly when the ends are out of order, and has then no effect exactly
when the lease time is the one the engine had. -/
theorem failed_reconfigure_iff :
    ((∃ e, (d.reconfigure cfg).1 = .error e) ↔
        cfg.poolEnd.toHost.raw < cfg.poolStart.toHost.raw) ∧
      (FailureIsNoOp d cfg ↔
        (cfg.poolEnd.toHost.raw < cfg.poolStart.toHost.raw → cfg.lease = d.leaseDuration)) := by
  refine ⟨reconfigure_error_iff d cfg, fun hnoop hlt => ?_, fun hlease e he => ?_⟩
  · have heq := reconfigure_of_unordered d cfg hlt
    obtain ⟨hsame, -⟩ := hnoop _ (congrArg Prod.fst heq)
    rw [heq] at hsame
    exact congrArg leaseDuration hsame
  · have hlt := (reconfigure_error_iff d cfg).mp ⟨e, he⟩
    have hsame : (d.reconfigure cfg).2 = d := by
      rw [reconfigure_of_unordered d cfg hlt, hlease hlt]
    rw [hsame]
    exact ⟨rfl, fun _ _ => rfl⟩

end

/-- The ends are swapped and the lease time is new: the call fails, and the next client is offered
the new lease time. -/
theorem failed_reconfigure_keeps_lease_time :
    let cfg : DhcpPoolConfig :=
      { poolStart := octets 192 168 1 101, poolEnd := octets 192 168 1 100, lease := 3600 }
    let x := receivedAt (makeDhcpDiscover selfTestMac) 0
    (smallPool.reconfigure cfg).1 = .error "DHCP pool_end is before pool_start" ∧
      smallPool.leaseDuration = 60 ∧ (smallPool.reconfigure cfg).2.leaseDuration = 3600 ∧
      ((smallPool.reconfigure cfg).2.receive x).2.map DhcpResponse.frame ≠
        (smallPool.receive x).2.map DhcpResponse.frame ∧
      ¬ smallPool.FailureIsNoOp cfg := by
  intro cfg x
  have herror : (smallPool.reconfigure cfg).1 = .error "DHCP pool_end is before pool_start" := by
    decide +kernel
  have hframes : ((smallPool.reconfigure cfg).2.receive x).2.map DhcpResponse.frame ≠
      (smallPool.receive x).2.map DhcpResponse.frame := by decide +kernel
  refine ⟨herror, by decide +kernel, by decide +kernel, hframes, fun hnoop => hframes ?_⟩
  rw [(hnoop _ herror).1]

end DhcpEngine
end Hpgtp
