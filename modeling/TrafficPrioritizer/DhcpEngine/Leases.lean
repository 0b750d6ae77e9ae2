import TrafficPrioritizer.DhcpEngine.Model

/-! What a request can do to the lease pool, said once, and what holds of the pool in
every reachable state: its addresses are distinct and no client has two leases. -/

namespace Hpgtp

namespace DhcpEngine

section
variable {d : DhcpEngine} {p : DhcpLease → Bool} {i : Fin maxPoolSize}

theorem firstLease_eq_some : d.firstLease p = some i ↔
    (i.val < d.poolCount ∧ p (d.leases i) = true) ∧ ∀ j < i, p (d.leases j) = false := by
  rw [firstLease, Fin.find?_eq_some_iff, Bool.and_eq_true, decide_eq_true_iff]
  refine and_congr_right fun hi => forall₂_congr fun j hj => ?_
  have hlt : j.val < d.poolCount := lt_trans hj hi.1
  simp [hlt]

theorem firstLease_eq_none :
    d.firstLease p = none ↔ ∀ j : Fin maxPoolSize, j.val < d.poolCount → p (d.leases j) = false := by
  simp [firstLease]

end

-- Unification must not run the search over the slots of the pool.
attribute [local irreducible] firstLease

def NoLease (d : DhcpEngine) (mac : Mac) : Prop :=
  ∀ i : Fin maxPoolSize, i.val < d.poolCount → (d.leases i).active = true → (d.leases i).mac ≠ mac

def Full (d : DhcpEngine) (now : Int) : Prop :=
  ∀ i : Fin maxPoolSize, i.val < d.poolCount →
    (d.leases i).active = true ∧ now ≤ (d.leases i).leaseExpiry

inductive Lookup (d : DhcpEngine) (mac : Mac) (now : Int) : DhcpEngine → IPv4Net → Prop
  | own {i : Fin maxPoolSize} (inPool : i.val < d.poolCount) (active : (d.leases i).active = true)
      (owner : (d.leases i).mac = mac) : Lookup d mac now d (d.leases i).ip
  | assigned {i : Fin maxPoolSize} (inPool : i.val < d.poolCount) (none : d.NoLease mac)
      (free : (d.leases i).active = true → (d.leases i).leaseExpiry < now) :
      Lookup d mac now (d.assignLease i mac now) (d.leases i).ip
  | exhausted (none : d.NoLease mac) (full : d.Full now) : Lookup d mac now d {}

def Free (d : DhcpEngine) (now : Int) (i : Fin maxPoolSize) : Prop :=
  (d.leases i).active = true → (d.leases i).leaseExpiry < now

instance (d : DhcpEngine) (now : Int) (i : Fin maxPoolSize) : Decidable (d.Free now i) :=
  inferInstanceAs (Decidable (_ → _))

structure FirstFree (d : DhcpEngine) (now : Int) (i : Fin maxPoolSize) : Prop where
  inPool : i.val < d.poolCount
  free : d.Free now i
  first : ∀ j < i, ¬ d.Free now j

theorem FirstFree.unique {d : DhcpEngine} {now : Int} {i j : Fin maxPoolSize}
    (hi : d.FirstFree now i) (hj : d.FirstFree now j) : i = j := by
  rcases lt_trichotomy i j with hlt | heq | hgt
  · exact absurd hi.free (hj.first i hlt)
  · exact heq
  · exact absurd hj.free (hi.first j hgt)

theorem free_iff {d : DhcpEngine} {now : Int} {i : Fin maxPoolSize} :
    (!(d.leases i).active || decide (now > (d.leases i).leaseExpiry)) = true ↔ d.Free now i := by
  cases hact : (d.leases i).active <;> simp [Free, hact]

theorem firstFree_iff {d : DhcpEngine} {now : Int} {i : Fin maxPoolSize} :
    (d.firstLease fun l => !l.active || decide (now > l.leaseExpiry)) = some i ↔
      d.FirstFree now i := by
  rw [firstLease_eq_some, free_iff]
  refine ⟨fun h => ⟨h.1.1, h.1.2, fun j hj hfree => ?_⟩,
    fun h => ⟨⟨h.inPool, h.free⟩, fun j hj => ?_⟩⟩
  · exact Bool.false_ne_true ((h.2 j hj).symm.trans (free_iff.mpr hfree))
  · exact Bool.eq_false_iff.mpr (mt free_iff.mp (h.first j hj))

theorem Free.exists_firstFree {d : DhcpEngine} {now : Int} {i : Fin maxPoolSize}
    (hi : i.val < d.poolCount) (h : d.Free now i) : ∃ j ≤ i, d.FirstFree now j := by
  cases hfirst : d.firstLease fun l => !l.active || decide (now > l.leaseExpiry) with
  | none =>
    have hp := firstLease_eq_none.mp hfirst i hi
    exact absurd (hp.symm.trans (free_iff.mpr h)) Bool.false_ne_true
  | some j =>
    have hfree := firstFree_iff.mp hfirst
    exact ⟨j, not_lt.mp fun hlt => hfree.first i hlt h, hfree⟩

theorem findOrAssignLease_cases (d : DhcpEngine) (mac : Mac) (now : Int) :
    (∃ i : Fin maxPoolSize, i.val < d.poolCount ∧ (d.leases i).active = true ∧
      (d.leases i).mac = mac ∧ d.findOrAssignLease mac now = (d, (d.leases i).ip)) ∨
    (d.NoLease mac ∧ ∃ i, d.FirstFree now i ∧
      d.findOrAssignLease mac now = (d.assignLease i mac now, (d.leases i).ip)) ∨
    (d.NoLease mac ∧ d.Full now ∧ d.findOrAssignLease mac now = (d, {})) := by
  unfold findOrAssignLease
  cases hown : d.firstLease fun l => l.active && l.mac == mac with
  | some i =>
    obtain ⟨⟨hi, hp⟩, -⟩ := firstLease_eq_some.mp hown
    simp only [Bool.and_eq_true, beq_iff_eq] at hp
    exact .inl ⟨i, hi, hp.1, hp.2, rfl⟩
  | none =>
    have hnone : d.NoLease mac := fun j hj hact hmac => by
      have hp := firstLease_eq_none.mp hown j hj
      simp [hact, hmac] at hp
    cases hfree : d.firstLease fun l => !l.active || decide (now > l.leaseExpiry) with
    | some i => exact .inr (.inl ⟨hnone, i, firstFree_iff.mp hfree, rfl⟩)
    | none =>
      refine .inr (.inr ⟨hnone, fun j hj => ?_, rfl⟩)
      have hp := firstLease_eq_none.mp hfree j hj
      simpa using hp

theorem FirstFree.findOrAssignLease {d : DhcpEngine} {mac : Mac} {now : Int}
    {i : Fin maxPoolSize} (hfree : d.FirstFree now i) (hnone : d.NoLease mac) :
    d.findOrAssignLease mac now = (d.assignLease i mac now, (d.leases i).ip) := by
  rcases findOrAssignLease_cases d mac now with ⟨j, hj, hact, hmac, -⟩ | ⟨-, j, hfree', heq⟩ |
    ⟨-, hfull, -⟩
  · exact absurd hmac (hnone j hj hact)
  · rw [heq, hfree.unique hfree']
  · obtain ⟨hact, hlasts⟩ := hfull i hfree.inPool
    exact absurd (hfree.free hact) (not_lt.mpr hlasts)

theorem Full.findOrAssignLease {d : DhcpEngine} {mac : Mac} {now : Int} (hfull : d.Full now)
    (hnone : d.NoLease mac) : d.findOrAssignLease mac now = (d, {}) := by
  rcases findOrAssignLease_cases d mac now with ⟨j, hj, hact, hmac, -⟩ | ⟨-, j, hfree, -⟩ |
    ⟨-, -, heq⟩
  · exact absurd hmac (hnone j hj hact)
  · obtain ⟨hact, hlasts⟩ := hfull j hfree.inPool
    exact absurd (hfree.free hact) (not_lt.mpr hlasts)
  · exact heq

theorem lookup {d d' : DhcpEngine} {mac : Mac} {now : Int} {ip : IPv4Net}
    (hfound : d.findOrAssignLease mac now = (d', ip)) : Lookup d mac now d' ip := by
  rcases findOrAssignLease_cases d mac now with ⟨i, hi, hact, hmac, heq⟩ |
    ⟨hnone, i, hfree, heq⟩ | ⟨hnone, hfull, heq⟩
  all_goals
    obtain ⟨rfl, rfl⟩ := Prod.mk.inj (heq.symm.trans hfound)
  · exact .own hi hact hmac
  · exact .assigned hfree.inPool hnone hfree.free
  · exact .exhausted hnone hfull

/-! ## The pool -/

structure PoolOk (d : DhcpEngine) : Prop where
  addresses : ∃ start, ∀ i : Fin maxPoolSize, i.val < d.poolCount →
    (d.leases i).ip = poolAdvance start (UInt32.ofNat i)
  owners : ∀ i j : Fin maxPoolSize, i.val < d.poolCount → j.val < d.poolCount →
    (d.leases i).active = true → (d.leases j).active = true →
    (d.leases i).mac = (d.leases j).mac → i = j

theorem PoolOk.ip_injective {d : DhcpEngine} (h : d.PoolOk) {i j : Fin maxPoolSize}
    (hi : i.val < d.poolCount) (hj : j.val < d.poolCount)
    (hip : (d.leases i).ip = (d.leases j).ip) : i = j := by
  obtain ⟨start, hstart⟩ := h.addresses
  rw [hstart i hi, hstart j hj] at hip
  have hval := congrArg UInt32.toNat (poolAdvance_injective start hip)
  have hi' := i.isLt
  have hj' := j.isLt
  simp only [UInt32.toNat_ofNat', maxPoolSize] at hval hi' hj'
  exact Fin.ext (by omega)

section
variable (d : DhcpEngine) (i : Fin maxPoolSize) (mac : Mac) (now : Int)

@[simp] theorem assignLease_poolCount : (d.assignLease i mac now).poolCount = d.poolCount := rfl

@[simp] theorem renewLease_poolCount : (d.renewLease i now).poolCount = d.poolCount := rfl

@[simp] theorem assignLease_duration : (d.assignLease i mac now).duration = d.duration := rfl

@[simp] theorem renewLease_duration : (d.renewLease i now).duration = d.duration := rfl

theorem assignLease_self : (d.assignLease i mac now).leases i =
    { d.leases i with mac, active := true, leaseExpiry := now + d.duration } :=
  Function.update_self ..

theorem assignLease_of_ne {j : Fin maxPoolSize} (h : j ≠ i) :
    (d.assignLease i mac now).leases j = d.leases j := Function.update_of_ne h ..

theorem renewLease_self : (d.renewLease i now).leases i =
    { d.leases i with active := true, leaseExpiry := now + d.duration } := Function.update_self ..

theorem renewLease_of_ne {j : Fin maxPoolSize} (h : j ≠ i) :
    (d.renewLease i now).leases j = d.leases j := Function.update_of_ne h ..

@[simp] theorem assignLease_ip (j : Fin maxPoolSize) :
    ((d.assignLease i mac now).leases j).ip = (d.leases j).ip := by
  by_cases h : j = i
  · subst h
    rw [assignLease_self]
  · rw [assignLease_of_ne d i mac now h]

@[simp] theorem renewLease_ip (j : Fin maxPoolSize) :
    ((d.renewLease i now).leases j).ip = (d.leases j).ip := by
  by_cases h : j = i
  · subst h
    rw [renewLease_self]
  · rw [renewLease_of_ne d i now h]

@[simp] theorem renewLease_mac (j : Fin maxPoolSize) :
    ((d.renewLease i now).leases j).mac = (d.leases j).mac := by
  by_cases h : j = i
  · subst h
    rw [renewLease_self]
  · rw [renewLease_of_ne d i now h]

end

theorem PoolOk.assignLease {d : DhcpEngine} (h : d.PoolOk) {mac : Mac} (hnone : d.NoLease mac)
    (i : Fin maxPoolSize) (now : Int) : (d.assignLease i mac now).PoolOk where
  addresses := by simpa using h.addresses
  owners := by
    intro j k hj hk hjact hkact hmac
    by_cases hji : j = i <;> by_cases hki : k = i
    · rw [hji, hki]
    · subst hji
      rw [assignLease_of_ne d j mac now hki] at hkact hmac
      rw [assignLease_self] at hmac
      exact absurd hmac.symm (hnone k hk hkact)
    · subst hki
      rw [assignLease_of_ne d k mac now hji] at hjact hmac
      rw [assignLease_self] at hmac
      exact absurd hmac (hnone j hj hjact)
    · rw [assignLease_of_ne d i mac now hji] at hjact hmac
      rw [assignLease_of_ne d i mac now hki] at hkact hmac
      exact h.owners j k hj hk hjact hkact hmac

theorem PoolOk.renewLease {d : DhcpEngine} (h : d.PoolOk) {i : Fin maxPoolSize}
    (hact : (d.leases i).active = true) (now : Int) : (d.renewLease i now).PoolOk where
  addresses := by simpa using h.addresses
  owners := by
    have hactive (j) (hj : ((d.renewLease i now).leases j).active = true) :
        (d.leases j).active = true := by
      by_cases hji : j = i
      · rw [hji]
        exact hact
      · rwa [renewLease_of_ne d i now hji] at hj
    intro j k hj hk hjact hkact hmac
    rw [renewLease_mac, renewLease_mac] at hmac
    exact h.owners j k hj hk (hactive j hjact) (hactive k hkact) hmac

theorem PoolOk.commitLease_eq {d : DhcpEngine} (h : d.PoolOk) {i : Fin maxPoolSize}
    (hi : i.val < d.poolCount) (now : Int) :
    d.commitLease (d.leases i).ip now = d.renewLease i now := by
  unfold commitLease
  have hfirst : (d.firstLease fun l => l.ip == (d.leases i).ip) = some i := by
    refine firstLease_eq_some.mpr ⟨⟨hi, by simp⟩, fun j hj => ?_⟩
    have hj' : j.val < d.poolCount := lt_trans hj hi
    simp only [beq_eq_false_iff_ne]
    exact fun hip => hj.ne (h.ip_injective hj' hi hip)
  rw [hfirst]

theorem PoolOk.lookup {d d' : DhcpEngine} (h : d.PoolOk) {mac : Mac} {now : Int} {ip : IPv4Net}
    (hlook : Lookup d mac now d' ip) : d'.PoolOk := by
  cases hlook with
  | own _ _ _ => exact h
  | assigned _ hnone _ => exact h.assignLease hnone _ now
  | exhausted _ _ => exact h

theorem commitLease_cases (d : DhcpEngine) (ip : IPv4Net) (now : Int) :
    d.commitLease ip now = d ∨
      ∃ i : Fin maxPoolSize, i.val < d.poolCount ∧ d.commitLease ip now = d.renewLease i now := by
  unfold commitLease
  cases hfirst : d.firstLease fun l => l.ip == ip with
  | none => exact .inl rfl
  | some i => exact .inr ⟨i, (firstLease_eq_some.mp hfirst).1.1, rfl⟩

/-- What a lookup and the commit of its result come to: the found slot is renewed, whether it
was the client's or has just been assigned to it. On an exhausted pool the address is zero, and
at most a lease of the full pool is extended. -/
inductive Committed (d : DhcpEngine) (mac : Mac) (now commitNow : Int) : DhcpEngine → Prop
  | own {i : Fin maxPoolSize} (inPool : i.val < d.poolCount) (active : (d.leases i).active = true)
      (owner : (d.leases i).mac = mac) : Committed d mac now commitNow (d.renewLease i commitNow)
  | assigned {i : Fin maxPoolSize} (inPool : i.val < d.poolCount) (none : d.NoLease mac)
      (free : (d.leases i).active = true → (d.leases i).leaseExpiry < now) :
      Committed d mac now commitNow ((d.assignLease i mac now).renewLease i commitNow)
  | unchanged : Committed d mac now commitNow d
  | extended {i : Fin maxPoolSize} (inPool : i.val < d.poolCount) (full : d.Full now) :
      Committed d mac now commitNow (d.renewLease i commitNow)

theorem PoolOk.committed {d d' : DhcpEngine} (h : d.PoolOk) {mac : Mac} {now : Int} {ip : IPv4Net}
    (hlook : Lookup d mac now d' ip) (commitNow : Int) :
    Committed d mac now commitNow (d'.commitLease ip commitNow) := by
  cases hlook with
  | own hi hact hmac =>
    rw [h.commitLease_eq hi]
    exact .own hi hact hmac
  | @assigned i hi hnone hfree =>
    have hip := assignLease_ip d i mac now i
    rw [← hip, (h.assignLease hnone i now).commitLease_eq hi]
    exact .assigned hi hnone hfree
  | exhausted hnone hfull =>
    rcases commitLease_cases d {} commitNow with heq | ⟨i, hi, heq⟩ <;> rw [heq]
    · exact .unchanged
    · exact .extended hi hfull

section
variable {d d' : DhcpEngine} {msg : DhcpMessage} {r : DhcpRequest} {now : Int} {ip : IPv4Net}

theorem handle_discover (commitNow : Int) (hdec : msg.decode = some r) (hdisc : r.msgType = 1)
    (hfound : d.findOrAssignLease r.mac now = (d', ip)) :
    d.handleDhcpRequest msg now commitNow =
      if ip.raw ≠ 0 then (d', some (d'.sendResponse r 2 ip)) else (d', none) := by
  simp only [handleDhcpRequest, hdec, if_pos hdisc]
  unfold handleDiscover
  rw [hfound]

theorem handle_request (commitNow : Int) (hdec : msg.decode = some r) (hreq : r.msgType = 3)
    (hfound : d.findOrAssignLease r.mac now = (d', ip)) :
    d.handleDhcpRequest msg now commitNow =
      if ip = r.requested then
        (d'.commitLease ip commitNow, some ((d'.commitLease ip commitNow).sendResponse r 5 ip))
      else (d', some (d'.sendResponse r 6 r.requested)) := by
  have hdisc : r.msgType ≠ 1 := by rw [hreq]; decide
  simp only [handleDhcpRequest, hdec, if_neg hdisc, if_pos hreq]
  unfold handleRequest
  rw [hfound]

theorem handle_ignored (now commitNow : Int)
    (hother : ∀ r, msg.decode = some r → r.msgType ≠ 1 ∧ r.msgType ≠ 3) :
    d.handleDhcpRequest msg now commitNow = (d, none) := by
  cases hdec : msg.decode with
  | none => simp only [handleDhcpRequest, hdec]
  | some r =>
    obtain ⟨hdisc, hreq⟩ := hother r hdec
    simp only [handleDhcpRequest, hdec, if_neg hdisc, if_neg hreq]

/-- A message either does nothing, or looks up a lease for its client: the lookup and at most the
commit of its result are all it does, and an OFFER or ACK carries that result. -/
theorem handle_cases (d : DhcpEngine) (msg : DhcpMessage) (now commitNow : Int) :
    d.handleDhcpRequest msg now commitNow = (d, none) ∨
    ∃ r d' ip, msg.decode = some r ∧ d.findOrAssignLease r.mac now = (d', ip) ∧
      ((d.handleDhcpRequest msg now commitNow).1 = d' ∨
        (d.handleDhcpRequest msg now commitNow).1 = d'.commitLease ip commitNow) ∧
      ∀ response ∈ (d.handleDhcpRequest msg now commitNow).2, response.mac = r.mac ∧
        (response.type = 2 ∨ response.type = 5 → response.yiaddr = ip) := by
  by_cases hother : ∀ r, msg.decode = some r → r.msgType ≠ 1 ∧ r.msgType ≠ 3
  · exact .inl (handle_ignored now commitNow hother)
  push Not at hother
  obtain ⟨r, hdec, hmsg⟩ := hother
  generalize hfound : d.findOrAssignLease r.mac now = found
  obtain ⟨d', ip⟩ := found
  refine .inr ⟨r, d', ip, hdec, hfound, ?_⟩
  by_cases hdisc : r.msgType = 1
  · rw [handle_discover commitNow hdec hdisc hfound]
    split_ifs with hne
    · exact ⟨.inl rfl, fun response hresp => Option.some.inj hresp ▸ ⟨rfl, fun _ => rfl⟩⟩
    · exact ⟨.inl rfl, nofun⟩
  · rw [handle_request commitNow hdec (hmsg hdisc) hfound]
    split_ifs with hagree
    · exact ⟨.inr rfl, fun response hresp => Option.some.inj hresp ▸ ⟨rfl, fun _ => rfl⟩⟩
    · refine ⟨.inl rfl, fun response hresp => Option.some.inj hresp ▸ ⟨rfl, fun htype => ?_⟩⟩
      exact absurd htype (by simp [sendResponse])

end

inductive Handled (d : DhcpEngine) (msg : DhcpMessage) (now commitNow : Int) :
    DhcpEngine → Option DhcpResponse → Prop
  | ignored (other : ∀ r, msg.decode = some r → r.msgType ≠ 1 ∧ r.msgType ≠ 3) :
      Handled d msg now commitNow d none
  | offered {r : DhcpRequest} {d' : DhcpEngine} {ip : IPv4Net} (decoded : msg.decode = some r)
      (found : Lookup d r.mac now d' ip) (discover : r.msgType = 1)
      (nonzero : ip.raw ≠ 0) : Handled d msg now commitNow d' (some (d'.sendResponse r 2 ip))
  | unserved {r : DhcpRequest} {d' : DhcpEngine} {ip : IPv4Net} (decoded : msg.decode = some r)
      (found : Lookup d r.mac now d' ip) (discover : r.msgType = 1) :
      Handled d msg now commitNow d' none
  | acked {r : DhcpRequest} {d' : DhcpEngine} {ip : IPv4Net} (decoded : msg.decode = some r)
      (found : Lookup d r.mac now d' ip) (request : r.msgType = 3)
      (agrees : ip = r.requested) :
      Handled d msg now commitNow (d'.commitLease ip commitNow)
        (some ((d'.commitLease ip commitNow).sendResponse r 5 ip))
  | refused {r : DhcpRequest} {d' : DhcpEngine} {ip : IPv4Net} (decoded : msg.decode = some r)
      (found : Lookup d r.mac now d' ip) (request : r.msgType = 3)
      (differs : ip ≠ r.requested) :
      Handled d msg now commitNow d' (some (d'.sendResponse r 6 r.requested))

theorem handled (d : DhcpEngine) (msg : DhcpMessage) (now commitNow : Int) :
    Handled d msg now commitNow (d.handleDhcpRequest msg now commitNow).1
      (d.handleDhcpRequest msg now commitNow).2 := by
  by_cases hother : ∀ r, msg.decode = some r → r.msgType ≠ 1 ∧ r.msgType ≠ 3
  · rw [handle_ignored now commitNow hother]
    exact .ignored hother
  · push Not at hother
    obtain ⟨r, hdec, hmsg⟩ := hother
    generalize hfound : d.findOrAssignLease r.mac now = found
    obtain ⟨d', ip⟩ := found
    by_cases hdisc : r.msgType = 1
    · rw [handle_discover commitNow hdec hdisc hfound]
      split_ifs with hne
      · exact .offered hdec (lookup hfound) hdisc hne
      · exact .unserved hdec (lookup hfound) hdisc
    · rw [handle_request commitNow hdec (hmsg hdisc) hfound]
      split_ifs with hagree
      · exact .acked hdec (lookup hfound) (hmsg hdisc) hagree
      · exact .refused hdec (lookup hfound) (hmsg hdisc) hagree

theorem PoolOk.handle_induction {P : DhcpEngine → Prop} {d : DhcpEngine} (h : d.PoolOk)
    (msg : DhcpMessage) {now commitNow : Int} (hd : P d)
    (hlookup : ∀ mac d' ip, Lookup d mac now d' ip → P d')
    (hcommit : ∀ mac d', Committed d mac now commitNow d' → P d') :
    P (d.handleDhcpRequest msg now commitNow).1 := by
  have hcall := handled d msg now commitNow
  generalize (d.handleDhcpRequest msg now commitNow).1 = after at hcall ⊢
  generalize (d.handleDhcpRequest msg now commitNow).2 = response at hcall
  cases hcall with
  | ignored _ => exact hd
  | offered _ hlook _ _ => exact hlookup _ _ _ hlook
  | unserved _ hlook _ => exact hlookup _ _ _ hlook
  | acked _ hlook _ _ => exact hcommit _ _ (h.committed hlook commitNow)
  | refused _ hlook _ _ => exact hlookup _ _ _ hlook

theorem PoolOk.handleDhcpRequest {d : DhcpEngine} (h : d.PoolOk) (msg : DhcpMessage)
    (now commitNow : Int) : (d.handleDhcpRequest msg now commitNow).1.PoolOk := by
  refine h.handle_induction msg h (fun mac d' ip hlook => h.lookup hlook) fun mac d' hcom => ?_
  cases hcom with
  | own _ hact _ => exact h.renewLease hact commitNow
  | @assigned i _ hnone _ =>
    refine (h.assignLease hnone i now).renewLease ?_ commitNow
    rw [assignLease_self]
  | unchanged => exact h
  | extended hi hfull => exact h.renewLease (hfull _ hi).1 commitNow

def withPool (d : DhcpEngine) (start : IPv4Net) (count : ℕ) (h : count ≤ maxPoolSize) :
    DhcpEngine :=
  { d with
    poolCount := count
    poolCount_le := h
    leases := fun i =>
      if i.val < count then
        { d.leases i with ip := poolAdvance start (UInt32.ofNat i), active := false }
      else d.leases i }

theorem active_withPool (d : DhcpEngine) (start : IPv4Net) {count : ℕ} (h : count ≤ maxPoolSize)
    {i : Fin maxPoolSize} (hi : i.val < count) :
    ((d.withPool start count h).leases i).active = false := congrArg DhcpLease.active (if_pos hi)

-- The pool is set up through these equations, and `new` unfolds as a function: unfolding
-- `initPool` under a projection makes the kernel evaluate its comparison of addresses.
theorem initPool_of_ordered (d : DhcpEngine) {start stop : IPv4Net}
    (h : start.toHost.raw ≤ stop.toHost.raw) : d.initPool start stop = (.ok (),
      d.withPool start (min (stop.toHost.raw.toNat - start.toHost.raw.toNat + 1) maxPoolSize)
        (Nat.min_le_right ..)) := by
  unfold initPool
  extract_lets startH endH span d'
  have hlt : ¬ endH < startH := UInt32.not_lt.mpr h
  have hspan : span ≠ 0 := Nat.succ_ne_zero _
  have hcount : d'.poolCount ≠ 0 := by
    simp only [d', maxPoolSize]
    omega
  rw [if_neg hlt, if_neg hspan, if_neg hcount]
  rfl

theorem initPool_of_unordered (d : DhcpEngine) {start stop : IPv4Net}
    (h : stop.toHost.raw < start.toHost.raw) :
    d.initPool start stop = (.error "DHCP pool_end is before pool_start", d) := by
  unfold initPool
  exact if_pos h

theorem reconfigure_eq (d : DhcpEngine) (cfg : DhcpPoolConfig) : d.reconfigure cfg =
    { d with leaseDuration := cfg.lease }.initPool cfg.poolStart cfg.poolEnd := rfl

theorem PoolOk.initPool {d : DhcpEngine} (h : d.PoolOk) (startIp endIp : IPv4Net) :
    (d.initPool startIp endIp).2.PoolOk := by
  rcases UInt32.le_or_lt startIp.toHost.raw endIp.toHost.raw with hle | hlt
  · rw [initPool_of_ordered d hle]
    refine ⟨⟨startIp, fun i hi => congrArg DhcpLease.ip (if_pos hi)⟩, fun i j hi hj hact => ?_⟩
    have hfree := d.active_withPool startIp (Nat.min_le_right ..) hi
    exact absurd (hfree.symm.trans hact) Bool.false_ne_true
  · rw [initPool_of_unordered d hlt]
    exact h

theorem new_eq : new = fun routerIp cfg lanIfMac =>
    let d : DhcpEngine :=
      { leases := fun _ => {}, poolCount := 0, routerIp, leaseDuration := cfg.lease, lanIfMac,
        poolCount_le := Nat.zero_le _ }
    (d.initPool cfg.poolStart cfg.poolEnd).2 := rfl

theorem poolOk_new (routerIp : IPv4Net) (cfg : DhcpPoolConfig) (lanIfMac : Mac) :
    (new routerIp cfg lanIfMac).PoolOk := by
  rw [new_eq]
  refine PoolOk.initPool ⟨⟨{}, fun i hi => ?_⟩, fun i j hi => ?_⟩ cfg.poolStart cfg.poolEnd
  · exact absurd hi (Nat.not_lt_zero _)
  · exact absurd hi (Nat.not_lt_zero _)

theorem PoolOk.reconfigure {d : DhcpEngine} (h : d.PoolOk) (cfg : DhcpPoolConfig) :
    (d.reconfigure cfg).2.PoolOk := by
  have hlease : PoolOk { d with leaseDuration := cfg.lease } := ⟨h.addresses, h.owners⟩
  rw [reconfigure_eq]
  exact hlease.initPool cfg.poolStart cfg.poolEnd

theorem PoolOk.step {d : DhcpEngine} (h : d.PoolOk) (op : DhcpOp) : (d.step op).PoolOk := by
  refine step_induction op (fun msg now commitNow => ?_) h.reconfigure fun ip => ?_
  · exact h.handleDhcpRequest msg now commitNow
  · exact ⟨h.addresses, h.owners⟩

theorem Reachable.poolOk {d : DhcpEngine} (h : d.Reachable) : d.PoolOk := by
  obtain ⟨routerIp, cfg, lanIfMac, ops, rfl⟩ := h
  exact LabelledRun.invariant (fun _ op h => h.step op) ops (poolOk_new routerIp cfg lanIfMac)

end DhcpEngine
end Hpgtp
