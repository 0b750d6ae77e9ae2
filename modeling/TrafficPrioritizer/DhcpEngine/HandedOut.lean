import TrafficPrioritizer.DhcpEngine.Acks
import Mathlib.Data.Fintype.Order

/-! Which addresses an engine can come to offer or acknowledge, over every run of messages.
Under a lease time that is not negative these are all addresses of the pool. A negative one
leaves a slot free as soon as it is given out, so that no slot behind it is reached any more. -/

namespace Hpgtp

theorem Chronological.concat {xs : List Received} {y : Received}
    (h : Chronological (xs ++ [y])) : Chronological xs ∧ ∀ x ∈ xs, x.commitNow ≤ y.now := by
  obtain ⟨hxs, -, hlast⟩ := List.pairwise_append.mp h
  exact ⟨hxs, fun x hx => hlast x hx y (List.mem_singleton_self y)⟩

namespace DhcpEngine

-- Unification must not run the search over the slots of the pool.
attribute [local irreducible] firstLease

def HandsOut (d : DhcpEngine) (ip : IPv4Net) : Prop :=
  ∃ (xs : List Received) (y : Received) (type : UInt8) (mac : Mac), Chronological (xs ++ [y]) ∧
    (type = 2 ∨ type = 5) ∧ (d.afterAll xs).Answers y type ip mac

/-! ## One message -/

section
variable {d : DhcpEngine}

theorem slot_renewLease (d : DhcpEngine) (i j : Fin maxPoolSize) (now : Int) :
    (d.renewLease j now).leases i = d.leases i ∨
      i = j ∧ ((d.renewLease j now).leases i).leaseExpiry = now + d.duration := by
  by_cases hij : i = j
  · subst hij
    exact .inr ⟨rfl, by rw [renewLease_self]⟩
  · exact .inl (renewLease_of_ne d j now hij)

theorem PoolOk.slot_receive (hok : d.PoolOk) (x : Received) (i : Fin maxPoolSize) :
    (d.receive x).1.leases i = d.leases i ∨
      ((d.leases i).active = true ∨ d.FirstFree x.now i) ∧
        ((d.receive x).1.leases i).leaseExpiry ≤ x.commitNow + d.duration := by
  have hordered := x.ordered
  -- renewing a slot that was active, or has just been assigned, is the last thing a message does
  have hrenewed {j : Fin maxPoolSize} (hj : (d.leases j).active = true) :
      (d.renewLease j x.commitNow).leases i = d.leases i ∨
        ((d.leases i).active = true ∨ d.FirstFree x.now i) ∧
          ((d.renewLease j x.commitNow).leases i).leaseExpiry ≤ x.commitNow + d.duration := by
    rcases d.slot_renewLease i j x.commitNow with hsame | ⟨rfl, hexpiry⟩
    · exact .inl hsame
    · exact .inr ⟨.inl hj, hexpiry.le⟩
  rcases handle_cases d x.msg x.now x.commitNow with hnone | ⟨r, d', ip, -, hfound, hafter, -⟩
  · exact .inl (congrArg (fun out : DhcpEngine × Option DhcpResponse => out.1.leases i) hnone)
  rw [DhcpEngine.receive]
  generalize (d.handleDhcpRequest x.msg x.now x.commitNow).1 = after at hafter ⊢
  rcases findOrAssignLease_cases d r.mac x.now with ⟨j, hj, hact, -, heq⟩ | ⟨hnone, j, hfree, heq⟩ |
    ⟨-, hfull, heq⟩
  all_goals obtain ⟨rfl, rfl⟩ := Prod.mk.inj (heq.symm.trans hfound)
  · rcases hafter with rfl | rfl
    · exact .inl rfl
    · rw [hok.commitLease_eq hj]
      exact hrenewed hact
  · by_cases hij : i = j
    · subst hij
      refine .inr ⟨.inr hfree, ?_⟩
      rcases hafter with rfl | rfl
      · rw [assignLease_self]
        exact Int.add_le_add_right hordered _
      · rw [← assignLease_ip d i r.mac x.now i,
          (hok.assignLease hnone i x.now).commitLease_eq hfree.inPool, renewLease_self]
        exact le_rfl
    · refine .inl ?_
      rcases hafter with rfl | rfl
      · exact assignLease_of_ne d j r.mac x.now hij
      · rw [← assignLease_ip d j r.mac x.now j,
          (hok.assignLease hnone j x.now).commitLease_eq hfree.inPool,
          renewLease_of_ne _ j x.commitNow hij, assignLease_of_ne d j r.mac x.now hij]
  · rcases hafter with rfl | rfl
    · exact .inl rfl
    · rcases commitLease_cases d {} x.commitNow with hsame | ⟨j, hj, hrenew⟩
      · exact .inl (by rw [hsame])
      · rw [hrenew]
        exact hrenewed (hfull j hj).1

theorem Answers.slot {x : Received} {type : UInt8} {ip : IPv4Net} {mac : Mac}
    (h : d.Answers x type ip mac) (htype : type = 2 ∨ type = 5) :
    (∃ i : Fin maxPoolSize, i.val < d.poolCount ∧ (d.leases i).ip = ip ∧
      ((d.leases i).active = true ∨ d.FirstFree x.now i)) ∨ ip = {} ∧ d.Full x.now := by
  obtain ⟨response, hresp, rfl, rfl, rfl⟩ := h
  rcases handle_cases d x.msg x.now x.commitNow with hnone | ⟨r, d', ip, -, hfound, -, hanswer⟩
  · rw [receive, hnone] at hresp
    cases hresp
  · rw [(hanswer response hresp).2 htype]
    rcases findOrAssignLease_cases d r.mac x.now with ⟨j, hj, hact, -, heq⟩ | ⟨-, j, hfree, heq⟩ |
      ⟨-, hfull, heq⟩
    all_goals obtain ⟨rfl, rfl⟩ := Prod.mk.inj (heq.symm.trans hfound)
    · exact .inl ⟨j, hj, rfl, .inl hact⟩
    · exact .inl ⟨j, hfree.inPool, rfl, .inr hfree⟩
    · exact .inr ⟨rfl, hfull⟩

end

theorem decode_makeDhcp_empty (mac : Mac) :
    ∃ r, (makeDhcp mac [53, 1, 3, 255]).decode = some r ∧ r.msgType = 3 ∧ r.mac = mac ∧
      r.requested = {} := by
  obtain ⟨r, hdec, hmac, hciaddr, htype, hip⟩ :=
    decode_makeDhcp_encode mac (show (OptionArea.encode [messageType 3]).length < 230 by decide)
  exact ⟨r, hdec, htype, hmac, requested_eq_zero.mpr ⟨hip, by rw [hciaddr]⟩⟩

theorem Full.answers {d : DhcpEngine} {mac : Mac} {now : Int} (hfull : d.Full now)
    (hnone : d.NoLease mac) :
    d.Answers (receivedAt (makeDhcp mac [53, 1, 3, 255]) now) 5 {} mac := by
  obtain ⟨r, hdec, hreq, rfl, hrequested⟩ := decode_makeDhcp_empty mac
  have hcall := handle_request now hdec hreq (hfull.findOrAssignLease hnone)
  rw [if_pos hrequested.symm] at hcall
  exact ⟨_, congrArg Prod.snd hcall, rfl, rfl, rfl⟩

/-! ## Behind a free slot -/

/-- From `since` on a slot is free, and no slot behind it has become active: the lease time is
negative, so that giving the slot out leaves it free. -/
structure StaysFree (initial d : DhcpEngine) (since : Int) (j : Fin maxPoolSize) : Prop where
  negative : d.duration < 0
  free : ∀ now, since ≤ now → d.Free now j
  behind : ∀ i > j, (d.leases i).active = true → (initial.leases i).active = true

section
variable {initial d : DhcpEngine} {since : Int} {j : Fin maxPoolSize}

theorem StaysFree.mono (h : StaysFree initial d since j) {later : Int} (hle : since ≤ later) :
    StaysFree initial d later j :=
  { h with free := fun now hnow => h.free now (le_trans hle hnow) }

theorem StaysFree.receive (h : StaysFree initial d since j) (hok : d.PoolOk) {x : Received}
    (hx : since ≤ x.now) : StaysFree initial (d.receive x).1 x.commitNow j where
  negative := by
    rw [hok.duration_receive]
    exact h.negative
  free := fun now hnow hact => by
    have hneg := h.negative
    have hordered := x.ordered
    rcases hok.slot_receive x j with hsame | ⟨-, hexpiry⟩
    · rw [hsame] at hact ⊢
      exact h.free now (by omega) hact
    · omega
  behind := fun i hi hact => by
    rcases hok.slot_receive x i with hsame | ⟨hactive | hfirst, -⟩
    · exact h.behind i hi (hsame ▸ hact)
    · exact h.behind i hi hactive
    · exact absurd (h.free x.now hx) (hfirst.first j hi)

theorem PoolOk.staysFree (hok : d.PoolOk) (hneg : d.duration < 0)
    (hj : (d.leases j).active = false) {xs : List Received} (hclock : Chronological xs) {now : Int}
    (hnow : ∀ x ∈ xs, x.commitNow ≤ now) : StaysFree d (d.afterAll xs) now j := by
  induction xs using List.reverseRecOn generalizing now with
  | nil =>
    exact ⟨hneg, fun _ _ hact => absurd (hj.symm.trans hact) Bool.false_ne_true, fun _ _ h => h⟩
  | append_singleton xs x ih =>
    obtain ⟨hclock', hlast⟩ := hclock.concat
    have hstep := (ih hclock' hlast).receive (hok.afterAll xs).1 le_rfl
    rw [afterAll_concat]
    exact hstep.mono (hnow x (List.mem_append_right xs (List.mem_singleton_self x)))

end

/-! ## Whole runs -/

section
variable {d : DhcpEngine}

def Grantable (d : DhcpEngine) (i : Fin maxPoolSize) : Prop :=
  i.val < d.poolCount ∧ (0 ≤ d.leaseDuration ∨ (d.leases i).active = true ∨
    ∀ j < i, (d.leases j).active = true)

def Exhaustible (d : DhcpEngine) : Prop :=
  0 ≤ d.leaseDuration ∨ ∀ i : Fin maxPoolSize, i.val < d.poolCount → (d.leases i).active = true

theorem duration_nonneg : 0 ≤ d.duration ↔ 0 ≤ d.leaseDuration := by
  rw [duration]
  omega

theorem PoolOk.answers_grantable (hok : d.PoolOk) {xs : List Received} {y : Received}
    (hclock : Chronological (xs ++ [y])) {type : UInt8} (htype : type = 2 ∨ type = 5)
    {ip : IPv4Net} {mac : Mac} (h : (d.afterAll xs).Answers y type ip mac) :
    (∃ i, d.Grantable i ∧ (d.leases i).ip = ip) ∨ ip = {} ∧ d.Exhaustible := by
  obtain ⟨-, hcount, hip, -, -⟩ := hok.afterAll xs
  obtain ⟨hxs, hlast⟩ := hclock.concat
  have hstays {j : Fin maxPoolSize} (hneg : ¬ 0 ≤ d.leaseDuration)
      (hj : ¬ (d.leases j).active = true) : StaysFree d (d.afterAll xs) y.now j :=
    hok.staysFree (not_le.mp (mt duration_nonneg.mp hneg)) (Bool.not_eq_true _ ▸ hj) hxs hlast
  rcases h.slot htype with ⟨i, hi, rfl, hslot⟩ | ⟨rfl, hfull⟩
  · refine .inl ⟨i, ⟨hcount ▸ hi, ?_⟩, (hip i).symm⟩
    by_contra! hnot
    obtain ⟨hneg, hidle, j, hji, hj⟩ := hnot
    have hfree := hstays (not_le.mpr hneg) hj
    rcases hslot with hact | hfirst
    · exact hidle (hfree.behind i hji hact)
    · exact hfirst.first j hji (hfree.free y.now le_rfl)
  · refine .inr ⟨rfl, ?_⟩
    by_contra hnot
    rw [Exhaustible, not_or] at hnot
    obtain ⟨hneg, hidle⟩ := hnot
    push Not at hidle
    obtain ⟨j, hj, hidle⟩ := hidle
    obtain ⟨hact, hlasts⟩ := hfull j (hcount ▸ hj)
    exact absurd ((hstays hneg hidle).free y.now le_rfl hact) (not_lt.mpr hlasts)

theorem PoolOk.handsOut_slot (hok : d.PoolOk) {i : Fin maxPoolSize} (h : d.Grantable i) :
    d.HandsOut (d.leases i).ip := by
  obtain ⟨hi, hgrant⟩ := h
  by_cases hact : (d.leases i).active = true
  · -- the client of the slot asks for its address
    obtain ⟨r, hdec, hreq, hmac, hrequested⟩ :=
      decode_makeDhcpRequest (d.leases i).mac (d.leases i).ip
    have hholds : d.Holds i (d.leases i).ip (d.leases i).mac (d.leases i).leaseExpiry :=
      ⟨hi, rfl, hact, rfl, le_rfl⟩
    exact ⟨[], receivedAt _ 0, 5, _, List.pairwise_singleton _ _, .inr rfl,
      hholds.answers hok hdec hreq hmac hrequested⟩
  · -- a new client asks for it, at a moment when every active slot in front of it is taken
    obtain ⟨now, hnow⟩ := Finite.exists_ge fun j => (d.leases j).leaseExpiry
    have hfill : 0 ≤ d.duration ∨ ∀ j < i, ¬ d.Free now j := by
      rcases hgrant with hdur | hact' | hfront
      · exact .inl (duration_nonneg.mpr hdur)
      · exact absurd hact' hact
      · exact .inr fun j hj hfree => absurd (hfree (hfront j hj)) (not_lt.mpr (hnow j))
    obtain ⟨clients, fresh, -, hnone, hfree, hslot⟩ :=
      hok.freed hi (fun hact' => absurd hact' hact) hfill (Vector.replicate 6 0)
    have hanswer := hfree.answers hnone
    rw [hslot] at hanswer
    exact ⟨_, _, 5, fresh, chronological_discoversAt clients _ now, .inr rfl, hanswer⟩

theorem PoolOk.handsOut_zero (hok : d.PoolOk) (h : d.Exhaustible) : d.HandsOut {} := by
  obtain ⟨now, hnow⟩ := Finite.exists_ge fun j => (d.leases j).leaseExpiry
  obtain ⟨clients, htaken, -⟩ := hok.fill now d.poolCount
    (h.imp duration_nonneg.mpr fun hact i hi _ hfree =>
      absurd (hfree (hact i hi)) (not_lt.mpr (hnow i)))
  obtain ⟨-, hcount, -⟩ := hok.afterAll (discoversAt clients now)
  have hfull : (d.afterAll (discoversAt clients now)).Full now := fun i hi => by
    have hnot := htaken i (hcount ▸ hi) (hcount ▸ hi)
    rw [Free] at hnot
    push Not at hnot
    exact hnot
  obtain ⟨fresh, -, hnone⟩ :=
    (d.afterAll (discoversAt clients now)).exists_new_client (Vector.replicate 6 0)
  exact ⟨_, _, 5, fresh, chronological_discoversAt clients _ now, .inr rfl, hfull.answers hnone⟩

/-- The addresses that an engine can come to hand out: those of the grantable slots, and 0.0.0.0
once the pool is used up. -/
theorem PoolOk.handsOut_iff (hok : d.PoolOk) {ip : IPv4Net} :
    d.HandsOut ip ↔ (∃ i, d.Grantable i ∧ (d.leases i).ip = ip) ∨ ip = {} ∧ d.Exhaustible := by
  constructor
  · rintro ⟨xs, y, type, mac, hclock, htype, hanswer⟩
    exact hok.answers_grantable hclock htype hanswer
  · rintro (⟨i, hi, rfl⟩ | ⟨rfl, hexhaust⟩)
    · exact hok.handsOut_slot hi
    · exact hok.handsOut_zero hexhaust

theorem Serves.handsOut {start stop ip : IPv4Net} (h : d.Serves start stop) (hok : d.PoolOk)
    (hlease : 0 ≤ d.leaseDuration) (hstart : start.toHost.raw ≤ ip.toHost.raw)
    (hstop : ip.toHost.raw ≤ stop.toHost.raw)
    (hlt : ip.toHost.raw.toNat - start.toHost.raw.toNat < maxPoolSize) : d.HandsOut ip := by
  obtain ⟨i, hi, rfl⟩ := h.exists_slot hstart hstop hlt
  exact hok.handsOut_slot ⟨hi, .inl hlease⟩

end
end DhcpEngine
end Hpgtp
