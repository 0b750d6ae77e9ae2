import TrafficPrioritizer.DhcpEngine.Exclusivity
import TrafficPrioritizer.Net.Subnet

/-! The pool an engine serves. The engine keeps only the addresses of its slots;
which range they were made from is stated here and kept by every request. -/

namespace Hpgtp
namespace DhcpEngine

structure Serves (d : DhcpEngine) (start stop : IPv4Net) : Prop where
  ordered : start.toHost.raw ≤ stop.toHost.raw
  count : d.poolCount = min (stop.toHost.raw.toNat - start.toHost.raw.toNat + 1) maxPoolSize
  address : ∀ i : Fin maxPoolSize, i.val < d.poolCount →
    (d.leases i).ip = poolAdvance start (UInt32.ofNat i)

@[simp] theorem routerIp_withPool (d : DhcpEngine) (start : IPv4Net) (count : ℕ)
    (h : count ≤ maxPoolSize) : (d.withPool start count h).routerIp = d.routerIp := by
  simp only [withPool]

theorem serves_withPool (d : DhcpEngine) {start stop : IPv4Net}
    (h : start.toHost.raw ≤ stop.toHost.raw) :
    (d.withPool start (min (stop.toHost.raw.toNat - start.toHost.raw.toNat + 1) maxPoolSize)
      (Nat.min_le_right ..)).Serves start stop where
  ordered := h
  count := rfl
  address := fun _ hi => congrArg DhcpLease.ip (if_pos hi)

def engineFor (router start stop : IPv4Net) : DhcpEngine :=
  new router { poolStart := start, poolEnd := stop } (Vector.replicate 6 0)

theorem engineFor_serves (router : IPv4Net) {start stop : IPv4Net}
    (h : start.toHost.raw ≤ stop.toHost.raw) : (engineFor router start stop).Serves start stop := by
  rw [engineFor, new_eq]
  dsimp only
  rw [initPool_of_ordered _ h]
  exact serves_withPool _ h

theorem reconfigure_of_ordered (d : DhcpEngine) {cfg : DhcpPoolConfig}
    (h : cfg.poolStart.toHost.raw ≤ cfg.poolEnd.toHost.raw) :
    (d.reconfigure cfg).1 = .ok () ∧ (d.reconfigure cfg).2.Serves cfg.poolStart cfg.poolEnd ∧
      (d.reconfigure cfg).2.routerIp = d.routerIp := by
  rw [reconfigure_eq, initPool_of_ordered _ h]
  exact ⟨rfl, serves_withPool _ h, routerIp_withPool ..⟩

theorem active_reconfigure (d : DhcpEngine) {cfg : DhcpPoolConfig}
    (h : cfg.poolStart.toHost.raw ≤ cfg.poolEnd.toHost.raw) {i : Fin maxPoolSize}
    (hi : i.val < (d.reconfigure cfg).2.poolCount) :
    ((d.reconfigure cfg).2.leases i).active = false := by
  rw [reconfigure_eq, initPool_of_ordered _ h] at hi ⊢
  exact active_withPool _ _ _ hi

section
variable {d : DhcpEngine} {start stop : IPv4Net}

theorem Serves.congr {d' : DhcpEngine} (h : d.Serves start stop) (hcount : d'.poolCount = d.poolCount)
    (hip : ∀ i, (d'.leases i).ip = (d.leases i).ip) : d'.Serves start stop where
  ordered := h.ordered
  count := hcount.trans h.count
  address := fun i hi => (hip i).trans (h.address i (hcount ▸ hi))

theorem Serves.reconfigure_of_unordered (h : d.Serves start stop) {cfg : DhcpPoolConfig}
    (hcfg : ¬ cfg.poolStart.toHost.raw ≤ cfg.poolEnd.toHost.raw) :
    (d.reconfigure cfg).2.Serves start stop := by
  rw [reconfigure_eq, initPool_of_unordered _ (UInt32.not_le.mp hcfg)]
  exact h.congr rfl fun _ => rfl

theorem PoolOk.handle_frame (hok : d.PoolOk) (msg : DhcpMessage) (now commitNow : Int) :
    (d.handleDhcpRequest msg now commitNow).1.poolCount = d.poolCount ∧
      (∀ i, ((d.handleDhcpRequest msg now commitNow).1.leases i).ip = (d.leases i).ip) ∧
      (d.handleDhcpRequest msg now commitNow).1.routerIp = d.routerIp := by
  refine hok.handle_induction (P := fun d' => d'.poolCount = d.poolCount ∧
    (∀ i, (d'.leases i).ip = (d.leases i).ip) ∧ d'.routerIp = d.routerIp) msg
    ⟨rfl, fun _ => rfl, rfl⟩ (fun mac d' ip hlook => ?_) fun mac d' hcom => ?_
  · cases hlook with
    | own _ _ _ => exact ⟨rfl, fun _ => rfl, rfl⟩
    | assigned _ _ _ => exact ⟨rfl, assignLease_ip d _ _ _, rfl⟩
    | exhausted _ _ => exact ⟨rfl, fun _ => rfl, rfl⟩
  · cases hcom with
    | own _ _ _ => exact ⟨rfl, renewLease_ip d _ _, rfl⟩
    | assigned _ _ _ =>
      exact ⟨rfl, fun i => (renewLease_ip _ _ _ i).trans (assignLease_ip d _ _ _ i), rfl⟩
    | unchanged => exact ⟨rfl, fun _ => rfl, rfl⟩
    | extended _ _ => exact ⟨rfl, renewLease_ip d _ _, rfl⟩

theorem PoolOk.receive_frame (hok : d.PoolOk) (x : Received) :
    (d.receive x).1.poolCount = d.poolCount ∧
      (∀ i, ((d.receive x).1.leases i).ip = (d.leases i).ip) ∧
      (d.receive x).1.routerIp = d.routerIp := hok.handle_frame x.msg x.now x.commitNow

theorem PoolOk.afterAll (hok : d.PoolOk) (xs : List Received) :
    (d.afterAll xs).PoolOk ∧ (d.afterAll xs).poolCount = d.poolCount ∧
      (∀ i, ((d.afterAll xs).leases i).ip = (d.leases i).ip) ∧
      (d.afterAll xs).routerIp = d.routerIp ∧ (d.afterAll xs).duration = d.duration := by
  refine LabelledRun.invariant (I := fun d' : DhcpEngine => d'.PoolOk ∧
    d'.poolCount = d.poolCount ∧ (∀ i, (d'.leases i).ip = (d.leases i).ip) ∧
    d'.routerIp = d.routerIp ∧ d'.duration = d.duration) (fun d' x hd' => ?_) xs
    ⟨hok, rfl, fun _ => rfl, rfl, rfl⟩
  obtain ⟨hok', hcount, hip, hrouter, hdur⟩ := hd'
  obtain ⟨hcount', hip', hrouter'⟩ := hok'.receive_frame x
  exact ⟨hok'.receive x, hcount'.trans hcount, fun i => (hip' i).trans (hip i),
    hrouter'.trans hrouter, (hok'.duration_receive x).trans hdur⟩

theorem Serves.afterAll (h : d.Serves start stop) (hok : d.PoolOk) (xs : List Received) :
    (d.afterAll xs).PoolOk ∧ (d.afterAll xs).Serves start stop ∧
      (d.afterAll xs).routerIp = d.routerIp := by
  obtain ⟨hok', hcount, hip, hrouter, -⟩ := hok.afterAll xs
  exact ⟨hok', h.congr hcount hip, hrouter⟩

theorem Serves.ip_toNat (h : d.Serves start stop) {i : Fin maxPoolSize} (hi : i.val < d.poolCount) :
    (d.leases i).ip.toHost.raw.toNat = start.toHost.raw.toNat + i ∧
      start.toHost.raw.toNat + i ≤ stop.toHost.raw.toNat := by
  have hcount := h.count
  have hlt := stop.toHost.raw.toNat_lt
  have hle : start.toHost.raw.toNat ≤ stop.toHost.raw.toNat := h.ordered
  have hspan : i.val ≤ stop.toHost.raw.toNat - start.toHost.raw.toNat := by omega
  have hi' : (UInt32.ofNat i.val).toNat = i.val := by
    rw [UInt32.toNat_ofNat']
    omega
  have hip : (d.leases i).ip.toHost.raw = start.toHost.raw + UInt32.ofNat i := by
    rw [h.address i hi]
    exact ByteBuffer.swap32_swap32 _
  rw [hip, UInt32.toNat_add, hi', Nat.mod_eq_of_lt (by omega)]
  omega

theorem Serves.exists_slot (h : d.Serves start stop) {ip : IPv4Net}
    (hstart : start.toHost.raw ≤ ip.toHost.raw) (hstop : ip.toHost.raw ≤ stop.toHost.raw)
    (hlt : ip.toHost.raw.toNat - start.toHost.raw.toNat < maxPoolSize) :
    ∃ i : Fin maxPoolSize, i.val < d.poolCount ∧ (d.leases i).ip = ip := by
  have hstart' : start.toHost.raw.toNat ≤ ip.toHost.raw.toNat := hstart
  have hstop' : ip.toHost.raw.toNat ≤ stop.toHost.raw.toNat := hstop
  have hcount := h.count
  generalize hn : ip.toHost.raw.toNat - start.toHost.raw.toNat = n at hlt
  have hi : n < d.poolCount := by omega
  refine ⟨⟨n, hlt⟩, hi, IPv4Net.eq_of_toHost ?_⟩
  rw [(h.ip_toNat (i := ⟨n, hlt⟩) hi).1]
  dsimp only
  omega

theorem Serves.between (h : d.Serves start stop) {i : Fin maxPoolSize} (hi : i.val < d.poolCount) :
    start.toHost.raw.toNat ≤ (d.leases i).ip.toHost.raw.toNat ∧
      (d.leases i).ip.toHost.raw.toNat ≤ stop.toHost.raw.toNat := by
  obtain ⟨hip, hle⟩ := h.ip_toNat hi
  rw [hip]
  exact ⟨Nat.le_add_right .., hle⟩

end
end DhcpEngine
end Hpgtp
