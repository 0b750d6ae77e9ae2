import TrafficPrioritizer.DhcpEngine.Reconfigure

/-! The lease table over whole runs: whatever is received and however the engine is
reconfigured, its slots are those of the last accepted pool and no client has two of them.
The engine does not keep the pool; it is recorded here beside it. -/

namespace Hpgtp

def DhcpOp.pool? : DhcpOp → Option DhcpPoolConfig
  | .reconfigure cfg => some cfg
  | _ => none

namespace DhcpEngine

def accepts (d : DhcpEngine) (cfg : DhcpPoolConfig) : Bool := (d.reconfigure cfg).1.isOk

def blank (routerIp : IPv4Net) (cfg : DhcpPoolConfig) (lanIfMac : Mac) : DhcpEngine :=
  { leases := fun _ => {}, poolCount := 0, routerIp, leaseDuration := cfg.lease, lanIfMac,
    poolCount_le := Nat.zero_le _ }

theorem new_eq_blank (routerIp : IPv4Net) (cfg : DhcpPoolConfig) (lanIfMac : Mac) :
    new routerIp cfg lanIfMac =
      ((blank routerIp cfg lanIfMac).initPool cfg.poolStart cfg.poolEnd).2 := by
  rw [new_eq]
  rfl

theorem accepts_iff {d : DhcpEngine} {cfg : DhcpPoolConfig} :
    d.accepts cfg = true ↔ cfg.poolStart.toHost.raw ≤ cfg.poolEnd.toHost.raw := by
  rcases UInt32.le_or_lt cfg.poolStart.toHost.raw cfg.poolEnd.toHost.raw with hle | hlt
  · rw [accepts, (d.reconfigure_of_ordered hle).1]
    exact iff_of_true rfl hle
  · rw [accepts, reconfigure_of_unordered d cfg hlt]
    exact iff_of_false Bool.false_ne_true (UInt32.not_le.mpr hlt)

structure Owns (d : DhcpEngine) (i : Fin maxPoolSize) (mac : Mac) : Prop where
  inPool : i.val < d.poolCount
  active : (d.leases i).active = true
  owner : (d.leases i).mac = mac

end DhcpEngine

structure Configured where
  engine : DhcpEngine
  accepted : Option DhcpPoolConfig

namespace Configured
open DhcpEngine

def new (routerIp : IPv4Net) (cfg : DhcpPoolConfig) (lanIfMac : Mac) : Configured where
  engine := DhcpEngine.new routerIp cfg lanIfMac
  accepted :=
    if ((blank routerIp cfg lanIfMac).initPool cfg.poolStart cfg.poolEnd).1.isOk then some cfg
    else none

def step (s : Configured) (op : DhcpOp) : Configured where
  engine := s.engine.step op
  accepted := (op.pool?.filter s.engine.accepts).or s.accepted

def run (routerIp : IPv4Net) (cfg : DhcpPoolConfig) (lanIfMac : Mac) (ops : List DhcpOp) :
    Configured :=
  LabelledRun.exec step (new routerIp cfg lanIfMac) ops

theorem engine_run (routerIp : IPv4Net) (cfg : DhcpPoolConfig) (lanIfMac : Mac)
    (ops : List DhcpOp) : (run routerIp cfg lanIfMac ops).engine =
      LabelledRun.exec DhcpEngine.step (DhcpEngine.new routerIp cfg lanIfMac) ops :=
  LabelledRun.exec_map engine (fun _ _ => rfl) _ ops

structure TableOk (s : Configured) : Prop where
  ok : s.engine.PoolOk
  empty : s.accepted = none → s.engine.poolCount = 0
  serves : ∀ cfg ∈ s.accepted, s.engine.Serves cfg.poolStart cfg.poolEnd

theorem tableOk_new (routerIp : IPv4Net) (cfg : DhcpPoolConfig) (lanIfMac : Mac) :
    (new routerIp cfg lanIfMac).TableOk := by
  have hengine := new_eq_blank routerIp cfg lanIfMac
  have hok := poolOk_new routerIp cfg lanIfMac
  rcases UInt32.le_or_lt cfg.poolStart.toHost.raw cfg.poolEnd.toHost.raw with hle | hlt
  · have hinit := initPool_of_ordered (blank routerIp cfg lanIfMac) hle
    have haccepted : (new routerIp cfg lanIfMac).accepted = some cfg := by
      rw [new, hinit]
      rfl
    refine ⟨hok, fun hnone => ?_, fun cfg' hcfg => ?_⟩
    · rw [haccepted] at hnone
      cases hnone
    · rw [haccepted] at hcfg
      rw [← Option.some.inj hcfg]
      show (DhcpEngine.new routerIp cfg lanIfMac).Serves cfg.poolStart cfg.poolEnd
      rw [hengine, hinit]
      exact serves_withPool _ hle
  · have hinit := initPool_of_unordered (blank routerIp cfg lanIfMac) hlt
    have haccepted : (new routerIp cfg lanIfMac).accepted = none := by
      rw [new, hinit]
      rfl
    refine ⟨hok, fun _ => ?_, fun cfg' hcfg => ?_⟩
    · show (DhcpEngine.new routerIp cfg lanIfMac).poolCount = 0
      rw [hengine, hinit]
      rfl
    · rw [haccepted] at hcfg
      cases hcfg

section
variable {s : Configured}

theorem TableOk.congr (h : s.TableOk) {d : DhcpEngine} (hok : d.PoolOk)
    (hcount : d.poolCount = s.engine.poolCount)
    (hip : ∀ i, (d.leases i).ip = (s.engine.leases i).ip) : TableOk ⟨d, s.accepted⟩ where
  ok := hok
  empty := fun hnone => hcount.trans (h.empty hnone)
  serves := fun cfg hcfg => (h.serves cfg hcfg).congr hcount hip

theorem TableOk.step (h : s.TableOk) (op : DhcpOp) : (s.step op).TableOk := by
  have hok := h.ok.step op
  have hcases := s.engine.step_cases op
  rw [Configured.step]
  generalize s.engine.step op = after at hok hcases ⊢
  rcases hcases with ⟨msg, now, commitNow, rfl, rfl⟩ | ⟨cfg, rfl, hafter⟩ | ⟨ip, rfl, rfl⟩
  · obtain ⟨hcount, hip, -⟩ := h.ok.handle_frame msg now commitNow
    exact h.congr hok hcount hip
  · by_cases hle : cfg.poolStart.toHost.raw ≤ cfg.poolEnd.toHost.raw
    · obtain ⟨-, hserves, -⟩ := s.engine.reconfigure_of_ordered hle
      have haccepted : ((some cfg).filter s.engine.accepts).or s.accepted = some cfg := by
        rw [Option.filter_some, if_pos (accepts_iff.mpr hle), Option.some_or]
      rw [DhcpOp.pool?, haccepted]
      refine ⟨hok, nofun, fun cfg' hcfg => ?_⟩
      rw [← Option.some.inj hcfg]
      show after.Serves cfg.poolStart cfg.poolEnd
      rw [hafter]
      exact hserves
    · have haccepted : ((some cfg).filter s.engine.accepts).or s.accepted = s.accepted := by
        rw [Option.filter_some, if_neg (mt accepts_iff.mp hle), Option.none_or]
      rw [DhcpOp.pool?, haccepted]
      rw [reconfigure_of_unordered _ _ (UInt32.not_le.mp hle)] at hafter
      subst hafter
      exact h.congr hok rfl fun _ => rfl
  · exact h.congr hok rfl fun _ => rfl

end

theorem tableOk_run (routerIp : IPv4Net) (cfg : DhcpPoolConfig) (lanIfMac : Mac)
    (ops : List DhcpOp) : (run routerIp cfg lanIfMac ops).TableOk :=
  LabelledRun.invariant (fun _ op h => h.step op) ops (tableOk_new routerIp cfg lanIfMac)

end Configured

/-! ## The client of a lease -/

namespace DhcpEngine
variable {d : DhcpEngine} {i : Fin maxPoolSize} {mac : Mac}

theorem Owns.yiaddr_eq (h : d.Owns i mac) (hok : d.PoolOk) {msg : DhcpMessage} {now commitNow : Int}
    {response : DhcpResponse}
    (hresp : (d.handleDhcpRequest msg now commitNow).2 = some response)
    (htype : response.type = 2 ∨ response.type = 5) (hmac : response.mac = mac) :
    response.yiaddr = (d.leases i).ip := by
  have hlookup {d' : DhcpEngine} {ip : IPv4Net} (hlook : Lookup d mac now d' ip) :
      ip = (d.leases i).ip := by
    cases hlook with
    | own hj hact howner =>
      rw [hok.owners _ _ hj h.inPool hact h.active (howner.trans h.owner.symm)]
    | assigned _ hnone _ => exact absurd h.owner (hnone i h.inPool h.active)
    | exhausted hnone _ => exact absurd h.owner (hnone i h.inPool h.active)
  have hcall := handled d msg now commitNow
  subst hmac
  rw [hresp] at hcall
  generalize (d.handleDhcpRequest msg now commitNow).1 = after at hcall
  cases hcall with
  | offered _ hlook _ _ => exact hlookup hlook
  | acked _ hlook _ _ => exact hlookup hlook
  | refused _ _ _ _ => exact absurd htype (by simp [sendResponse])

theorem Owns.ip_step (hok : d.PoolOk) (op : DhcpOp) (hafter : (d.step op).Owns i mac) :
    ((d.step op).leases i).ip = (d.leases i).ip := by
  rcases d.step_cases op with ⟨msg, now, commitNow, -, heq⟩ | ⟨cfg, -, heq⟩ | ⟨ip, -, heq⟩
  · rw [heq]
    exact (hok.handle_frame msg now commitNow).2.1 i
  · rw [heq] at hafter ⊢
    rcases UInt32.le_or_lt cfg.poolStart.toHost.raw cfg.poolEnd.toHost.raw with hle | hlt
    · -- an accepted pool leaves no lease
      have hfree := d.active_reconfigure hle hafter.inPool
      exact absurd (hfree.symm.trans hafter.active) Bool.false_ne_true
    · rw [reconfigure_of_unordered d cfg hlt]
  · rw [heq]
    rfl

def KeepsLease (d : DhcpEngine) (i : Fin maxPoolSize) (mac : Mac) (ops : List DhcpOp) : Prop :=
  LabelledRun.Every DhcpEngine.step (fun d op => (d.step op).Owns i mac) d ops

theorem Owns.run (h : d.Owns i mac) (hok : d.PoolOk) {ops : List DhcpOp}
    (hkeeps : d.KeepsLease i mac ops) :
    (LabelledRun.exec step d ops).Owns i mac ∧ (LabelledRun.exec step d ops).PoolOk ∧
      ((LabelledRun.exec step d ops).leases i).ip = (d.leases i).ip := by
  refine hkeeps.invariant (I := fun d' : DhcpEngine => d'.Owns i mac ∧ d'.PoolOk ∧
    (d'.leases i).ip = (d.leases i).ip) (fun d' op hd' howns => ?_) ⟨h, hok, rfl⟩
  exact ⟨howns, hd'.2.1.step op, (Owns.ip_step hd'.2.1 op howns).trans hd'.2.2⟩

end DhcpEngine

/-- The lease table in every reachable state: at most 253 slots, which are consecutive addresses of
the last accepted pool, and no client with two leases; and what is offered or acknowledged to the
client of a lease, as long as it is not taken over, is that one address. -/
theorem lease_table_invariant (routerIp : IPv4Net) (cfg : DhcpPoolConfig) (lanIfMac : Mac)
    (ops : List DhcpOp) :
    let s := Configured.run routerIp cfg lanIfMac ops
    let d := s.engine
    d = LabelledRun.exec DhcpEngine.step (DhcpEngine.new routerIp cfg lanIfMac) ops ∧
      d.poolCount ≤ 253 ∧
      (s.accepted = none → d.poolCount = 0) ∧
      (∀ pool ∈ s.accepted, ∀ i : Fin maxPoolSize, i.val < d.poolCount →
        (d.leases i).ip.toHost.raw.toNat = pool.poolStart.toHost.raw.toNat + i ∧
          pool.poolStart.toHost.raw ≤ (d.leases i).ip.toHost.raw ∧
          (d.leases i).ip.toHost.raw ≤ pool.poolEnd.toHost.raw) ∧
      (∀ i j : Fin maxPoolSize, i.val < d.poolCount → j.val < d.poolCount →
        (d.leases i).ip = (d.leases j).ip → i = j) ∧
      (∀ i j : Fin maxPoolSize, i.val < d.poolCount → j.val < d.poolCount →
        (d.leases i).active = true → (d.leases j).active = true →
        (d.leases i).mac = (d.leases j).mac → i = j) ∧
      ∀ i mac, d.Owns i mac → ∀ later, d.KeepsLease i mac later →
        ∀ msg now commitNow response,
          ((LabelledRun.exec DhcpEngine.step d later).handleDhcpRequest msg now commitNow).2 =
            some response →
          response.type = 2 ∨ response.type = 5 → response.mac = mac →
          response.yiaddr = (d.leases i).ip := by
  intro s d
  have htable : s.TableOk := Configured.tableOk_run routerIp cfg lanIfMac ops
  refine ⟨Configured.engine_run routerIp cfg lanIfMac ops, d.poolCount_le, htable.empty,
    fun pool hpool i hi => ?_, fun i j => htable.ok.ip_injective, htable.ok.owners, ?_⟩
  · have hserves := htable.serves pool hpool
    obtain ⟨hlo, hhi⟩ := hserves.between hi
    exact ⟨(hserves.ip_toNat hi).1, hlo, hhi⟩
  · intro i mac howns later hkeeps msg now commitNow response hresp htype hmac
    obtain ⟨howns', hok', hip⟩ := howns.run htable.ok hkeeps
    rw [← hip]
    exact howns'.yiaddr_eq hok' hresp htype hmac

end Hpgtp
