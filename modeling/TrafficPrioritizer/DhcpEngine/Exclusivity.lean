import TrafficPrioritizer.DhcpEngine.Leases
import TrafficPrioritizer.DhcpEngine.Messages

/-! A lease is exclusive while it lasts: the slot of an acknowledged address stays with its
client through every exchange of other messages, until the clock passes its expiry. -/

namespace Hpgtp

/-- A message with the two readings of the clock its handling makes. -/
structure Received where
  msg : DhcpMessage
  now : Int
  commitNow : Int
  ordered : now ≤ commitNow

def receivedAt (msg : DhcpMessage) (now : Int) : Received := ⟨msg, now, now, le_rfl⟩

def Chronological (xs : List Received) : Prop := xs.Pairwise fun x y => x.commitNow ≤ y.now

instance (xs : List Received) : Decidable (Chronological xs) :=
  inferInstanceAs (Decidable (xs.Pairwise _))

theorem Chronological.between {x y : Received} {xs : List Received}
    (h : Chronological (x :: xs ++ [y])) :
    x.commitNow ≤ y.now ∧ ∀ z ∈ xs, x.commitNow ≤ z.now ∧ z.commitNow ≤ y.now := by
  rw [Chronological, List.cons_append, List.pairwise_cons, List.pairwise_append] at h
  obtain ⟨hx, -, -, hxs⟩ := h
  refine ⟨hx y (by simp), fun z hz => ⟨hx z (by simp [hz]), hxs z hz y (by simp)⟩⟩

namespace DhcpEngine

def receive (d : DhcpEngine) (x : Received) : DhcpEngine × Option DhcpResponse :=
  d.handleDhcpRequest x.msg x.now x.commitNow

def afterAll (d : DhcpEngine) (xs : List Received) : DhcpEngine :=
  LabelledRun.exec (fun d x => (d.receive x).1) d xs

theorem afterAll_concat (d : DhcpEngine) (xs : List Received) (x : Received) :
    d.afterAll (xs ++ [x]) = ((d.afterAll xs).receive x).1 := LabelledRun.exec_append ..

def Answers (d : DhcpEngine) (x : Received) (type : UInt8) (ip : IPv4Net) (mac : Mac) : Prop :=
  ∃ response, (d.receive x).2 = some response ∧ response.type = type ∧ response.yiaddr = ip ∧
    response.mac = mac

theorem answers_iff {d : DhcpEngine} {x : Received} {type : UInt8} {ip : IPv4Net} {mac : Mac} :
    d.Answers x type ip mac ↔
      (d.receive x).2.map (fun r => (r.type, r.yiaddr, r.mac)) = some (type, ip, mac) := by
  simp [Answers]

instance (d : DhcpEngine) (x : Received) (type : UInt8) (ip : IPv4Net) (mac : Mac) :
    Decidable (d.Answers x type ip mac) := decidable_of_iff' _ answers_iff

structure Holds (d : DhcpEngine) (i : Fin maxPoolSize) (ip : IPv4Net) (mac : Mac) (expiry : Int) :
    Prop where
  inPool : i.val < d.poolCount
  address : (d.leases i).ip = ip
  active : (d.leases i).active = true
  owner : (d.leases i).mac = mac
  lasts : expiry ≤ (d.leases i).leaseExpiry

section
variable {d d' : DhcpEngine} {i : Fin maxPoolSize} {ip ip' : IPv4Net} {mac mac' : Mac}
  {now commitNow expiry : Int}

theorem holds_assignLease (hi : i.val < d.poolCount) :
    (d.assignLease i mac now).Holds i (d.leases i).ip mac (now + d.duration) := by
  constructor <;> simp [assignLease_self, hi]

theorem Holds.renewLease_self (h : d.Holds i ip mac expiry) :
    (d.renewLease i now).Holds i ip mac (now + d.duration) := by
  constructor <;> simp [DhcpEngine.renewLease_self, h.inPool, h.address, h.owner]

theorem Holds.mono (h : d.Holds i ip mac expiry) {earlier : Int} (hle : earlier ≤ expiry) :
    d.Holds i ip mac earlier := { h with lasts := le_trans hle h.lasts }

theorem Holds.assignLease (h : d.Holds i ip mac expiry) {j : Fin maxPoolSize}
    (hfree : (d.leases j).active = true → (d.leases j).leaseExpiry < now) (hnow : now ≤ expiry) :
    (d.assignLease j mac' now).Holds i ip mac expiry := by
  have hij : i ≠ j := by
    rintro rfl
    have hexpired := hfree h.active
    have hlasts := h.lasts
    omega
  have hslot := assignLease_of_ne d j mac' now hij
  exact ⟨h.inPool, hslot ▸ h.address, hslot ▸ h.active, hslot ▸ h.owner, hslot ▸ h.lasts⟩

theorem Holds.renewLease (h : d.Holds i ip mac expiry) (j : Fin maxPoolSize)
    (hlasts : expiry ≤ now + d.duration) : (d.renewLease j now).Holds i ip mac expiry := by
  by_cases hij : i = j
  · subst hij
    exact h.renewLease_self.mono hlasts
  · have hslot := renewLease_of_ne d j now hij
    exact ⟨h.inPool, hslot ▸ h.address, hslot ▸ h.active, hslot ▸ h.owner, hslot ▸ h.lasts⟩

end

theorem PoolOk.receive {d : DhcpEngine} (h : d.PoolOk) (x : Received) : (d.receive x).1.PoolOk :=
  h.handleDhcpRequest x.msg x.now x.commitNow

theorem PoolOk.duration_receive {d : DhcpEngine} (h : d.PoolOk) (x : Received) :
    (d.receive x).1.duration = d.duration := by
  refine h.handle_induction (P := fun d' => d'.duration = d.duration) x.msg rfl
    (fun mac d' ip hlook => ?_) fun mac d' hcom => ?_
  · cases hlook <;> simp
  · cases hcom <;> simp

theorem Holds.receive {d : DhcpEngine} (hok : d.PoolOk) {i : Fin maxPoolSize} {ip : IPv4Net}
    {mac : Mac} {expiry : Int} (h : d.Holds i ip mac expiry) {x : Received}
    (hnow : x.now ≤ expiry) (hlasts : expiry ≤ x.commitNow + d.duration) :
    (d.receive x).1.Holds i ip mac expiry := by
  refine hok.handle_induction (P := (Holds · i ip mac expiry)) x.msg h
    (fun mac' d' ip' hlook => ?_) fun mac' d' hcom => ?_
  · cases hlook with
    | own _ _ _ => exact h
    | assigned _ _ hfree => exact h.assignLease hfree hnow
    | exhausted _ _ => exact h
  · cases hcom with
    | own _ _ _ => exact h.renewLease _ hlasts
    | assigned _ _ hfree => exact (h.assignLease hfree hnow).renewLease _ hlasts
    | unchanged => exact h
    | extended _ _ => exact h.renewLease _ hlasts

theorem Holds.afterAll {d : DhcpEngine} (hok : d.PoolOk) {i : Fin maxPoolSize} {ip : IPv4Net}
    {mac : Mac} {expiry : Int} (h : d.Holds i ip mac expiry) {xs : List Received}
    (hxs : ∀ x ∈ xs, x.now ≤ expiry ∧ expiry ≤ x.commitNow + d.duration) :
    (d.afterAll xs).PoolOk ∧ (d.afterAll xs).Holds i ip mac expiry := by
  induction xs generalizing d with
  | nil => exact ⟨hok, h⟩
  | cons x xs ih =>
    obtain ⟨hnow, hlasts⟩ := hxs x List.mem_cons_self
    refine ih (hok.receive x) (h.receive hok hnow hlasts) fun y hy => ?_
    rw [hok.duration_receive]
    exact hxs y (List.mem_cons_of_mem x hy)

theorem handled_receive (d : DhcpEngine) (x : Received) :
    Handled d x.msg x.now x.commitNow (d.receive x).1 (d.receive x).2 :=
  handled d x.msg x.now x.commitNow

theorem Answers.of_offer {d : DhcpEngine} {x : Received} {ip : IPv4Net} {mac : Mac}
    (h : d.Answers x 2 ip mac) : ip.raw ≠ 0 ∧ Lookup d mac x.now (d.receive x).1 ip := by
  obtain ⟨response, hresp, htype, rfl, rfl⟩ := h
  have hcall := d.handled_receive x
  rw [hresp] at hcall
  generalize (d.receive x).1 = after at hcall ⊢
  cases hcall with
  | offered _ hlook _ hne => exact ⟨hne, hlook⟩
  | acked _ _ _ _ => simp [sendResponse] at htype
  | refused _ _ _ _ => simp [sendResponse] at htype

theorem Answers.of_ack {d : DhcpEngine} {x : Received} {ip : IPv4Net} {mac : Mac}
    (h : d.Answers x 5 ip mac) :
    ∃ r d', x.msg.decode = some r ∧ r.msgType = 3 ∧ r.mac = mac ∧ r.requested = ip ∧
      Lookup d mac x.now d' ip ∧ (d.receive x).1 = d'.commitLease ip x.commitNow := by
  obtain ⟨response, hresp, htype, rfl, rfl⟩ := h
  have hcall := d.handled_receive x
  rw [hresp] at hcall
  generalize (d.receive x).1 = after at hcall ⊢
  cases hcall with
  | offered _ _ _ _ => simp [sendResponse] at htype
  | acked hdec hlook hreq hagree => exact ⟨_, _, hdec, hreq, rfl, hagree.symm, hlook, rfl⟩
  | refused _ _ _ _ => simp [sendResponse] at htype

theorem answers_request {d : DhcpEngine} {x : Received} {r : DhcpRequest}
    (hdec : x.msg.decode = some r) (htype : r.msgType = 3) :
    ∃ d' ip, Lookup d r.mac x.now d' ip ∧ (ip = r.requested → d.Answers x 5 ip r.mac) := by
  have hcall := d.handled_receive x
  have hr {r'} (hdec' : x.msg.decode = some r') : r' = r := Option.some.inj (hdec'.symm.trans hdec)
  unfold Answers
  generalize d.receive x = out at hcall ⊢
  obtain ⟨after, response⟩ := out
  dsimp only at hcall ⊢
  cases hcall with
  | ignored hother => exact absurd htype (hother r hdec).2
  | offered hdec' _ hdisc _ =>
    rw [hr hdec', htype] at hdisc
    contradiction
  | unserved hdec' _ hdisc =>
    rw [hr hdec', htype] at hdisc
    contradiction
  | acked hdec' hlook _ _ =>
    cases hr hdec'
    exact ⟨_, _, hlook, fun _ => ⟨_, rfl, rfl, rfl, rfl⟩⟩
  | refused hdec' hlook _ hdiffers =>
    cases hr hdec'
    exact ⟨_, _, hlook, fun hagree => absurd hagree hdiffers⟩

theorem Lookup.holds {d d' : DhcpEngine} {mac : Mac} {now : Int} {ip : IPv4Net}
    (h : Lookup d mac now d' ip) :
    d'.duration = d.duration ∧ (∃ i expiry, d'.Holds i ip mac expiry) ∨
      ip = {} ∧ d.NoLease mac ∧ d.Full now := by
  cases h with
  | own hi hact hmac => exact .inl ⟨rfl, _, _, hi, rfl, hact, hmac, le_rfl⟩
  | assigned hi _ _ => exact .inl ⟨rfl, _, _, holds_assignLease hi⟩
  | exhausted hnone hfull => exact .inr ⟨rfl, hnone, hfull⟩

theorem Holds.commitLease {d : DhcpEngine} (hok : d.PoolOk) {i : Fin maxPoolSize} {ip : IPv4Net}
    {mac : Mac} {expiry : Int} (h : d.Holds i ip mac expiry) (now : Int) :
    i.val < (d.commitLease ip now).poolCount ∧ (d.commitLease ip now).leases i =
      { mac, ip, active := true, leaseExpiry := now + d.duration } := by
  rw [← h.address, ← h.owner, hok.commitLease_eq h.inPool, DhcpEngine.renewLease_self]
  exact ⟨h.inPool, rfl⟩

theorem Holds.lookup_owner {d d' : DhcpEngine} (hok : d.PoolOk) {i : Fin maxPoolSize} {ip : IPv4Net}
    {mac mac' : Mac} {now expiry : Int} (h : d.Holds i ip mac expiry) (hnow : now ≤ expiry)
    (hip : ip.raw ≠ 0) (hlook : Lookup d mac' now d' ip) : mac' = mac := by
  obtain ⟨hi, haddr, hact, hmac, hlasts⟩ := h
  generalize haddr' : ip = ip' at hlook
  cases hlook with
  | own hj _ hmac' =>
    have hij := hok.ip_injective hi hj (haddr.trans haddr')
    rw [← hmac', ← hmac, hij]
  | assigned hj _ hfree =>
    have hij := hok.ip_injective hi hj (haddr.trans haddr')
    subst hij
    have hexpired := hfree hact
    omega
  | exhausted _ _ => exact absurd (congrArg IPv4Net.raw haddr') hip

theorem Answers.holds_of_ack {d : DhcpEngine} (hok : d.PoolOk) {x : Received} {ip : IPv4Net}
    {mac : Mac} (h : d.Answers x 5 ip mac) (hip : ip.raw ≠ 0) :
    ∃ i, (d.receive x).1.Holds i ip mac (x.commitNow + d.duration) := by
  obtain ⟨r, d', -, -, -, -, hlook, hafter⟩ := h.of_ack
  rcases hlook.holds with ⟨hdur, i, expiry, hholds⟩ | ⟨rfl, -, -⟩
  · obtain ⟨hi, hlease⟩ := hholds.commitLease (hok.lookup hlook) x.commitNow
    rw [hafter, ← hdur]
    exact ⟨i, by constructor <;> simp [hi, hlease]⟩
  · exact absurd rfl hip

theorem ack_exclusive {d : DhcpEngine} (hd : d.Reachable) {x y : Received} {between : List Received}
    (hclock : Chronological (x :: between ++ [y])) {ip : IPv4Net} (hip : ip.raw ≠ 0) {mac mac' : Mac}
    {type : UInt8} (hack : d.Answers x 5 ip mac) (htype : type = 2 ∨ type = 5)
    (hanswer : (d.afterAll (x :: between)).Answers y type ip mac')
    (hwithin : y.now ≤ x.commitNow + d.duration) : mac' = mac := by
  have hok := hd.poolOk
  obtain ⟨i, hholds⟩ := hack.holds_of_ack hok hip
  obtain ⟨-, hbetween⟩ := hclock.between
  obtain ⟨hok', hholds'⟩ := hholds.afterAll (hok.receive x) fun z hz => by
    obtain ⟨hxz, hzy⟩ := hbetween z hz
    have hz := z.ordered
    rw [hok.duration_receive]
    omega
  rcases htype with rfl | rfl
  · exact hholds'.lookup_owner hok' hwithin hip hanswer.of_offer.2
  · obtain ⟨r, d', -, -, -, -, hlook, -⟩ := hanswer.of_ack
    exact hholds'.lookup_owner hok' hwithin hip hlook

def smallPool : DhcpEngine :=
  new (octets 192 168 1 1)
    { poolStart := octets 192 168 1 100, poolEnd := octets 192 168 1 101, lease := 60 }
    #v[2, 0, 0, 0, 0, 1]

theorem ack_exclusive_renewal :
    ∃ mac, (smallPool.afterAll
        [receivedAt (makeDhcpRequest selfTestMac (octets 192 168 1 100)) 0,
          receivedAt (makeDhcpDiscover otherMac) 10]).Answers
        (receivedAt (makeDhcpRequest selfTestMac (octets 192 168 1 100)) 50000000000) 5
        (octets 192 168 1 100) mac ∧
      mac = selfTestMac := by
  have hanswer : (smallPool.afterAll
      [receivedAt (makeDhcpRequest selfTestMac (octets 192 168 1 100)) 0,
        receivedAt (makeDhcpDiscover otherMac) 10]).Answers
      (receivedAt (makeDhcpRequest selfTestMac (octets 192 168 1 100)) 50000000000) 5
      (octets 192 168 1 100) selfTestMac := by decide +kernel
  exact ⟨_, hanswer, ack_exclusive ⟨_, _, _, [], rfl⟩ (by decide +kernel) (by decide)
    (by decide +kernel) (.inr rfl) hanswer (by decide +kernel)⟩

end DhcpEngine
end Hpgtp
