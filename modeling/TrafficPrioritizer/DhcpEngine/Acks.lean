import TrafficPrioritizer.DhcpEngine.Offers

/-! Which acknowledgements have a lease behind them. A lookup that finds nothing answers with
the zero address; a REQUEST that names no address asks for the same zero address, and the
comparison of the two takes the one for the other. -/

namespace Hpgtp
namespace DhcpEngine

def AckBacked (d : DhcpEngine) (x : Received) : Prop :=
  ∀ ip mac, d.Answers x 5 ip mac →
    ∃ i : Fin maxPoolSize, i.val < (d.receive x).1.poolCount ∧
      (d.receive x).1.leases i =
        { mac, ip, active := true, leaseExpiry := x.commitNow + d.duration }

def EmptyRequest (d : DhcpEngine) (x : Received) : Prop :=
  ∃ r, x.msg.decode = some r ∧ r.msgType = 3 ∧ r.requestedIp.raw = 0 ∧ r.ciaddr.raw = 0 ∧
    d.NoLease r.mac ∧ d.Full x.now

theorem requested_eq_zero {r : DhcpRequest} :
    r.requested = {} ↔ r.requestedIp.raw = 0 ∧ r.ciaddr.raw = 0 := by
  have hzero (a : IPv4Net) : a = {} ↔ a.raw = 0 := by cases a; simp
  rw [DhcpRequest.requested]
  split_ifs with h <;> simp [h, hzero]

theorem Lookup.eq_zero {d d' : DhcpEngine} {mac : Mac} {now : Int} {ip : IPv4Net}
    (h : Lookup d mac now d' ip) (hnone : d.NoLease mac) (hfull : d.Full now) : ip = {} := by
  cases h with
  | own hi hact hmac => exact absurd hmac (hnone _ hi hact)
  | assigned hi _ hfree =>
    obtain ⟨hact, hlasts⟩ := hfull _ hi
    exact absurd (hfree hact) (not_lt.mpr hlasts)
  | exhausted _ _ => rfl

theorem PoolOk.owner_of_full {d : DhcpEngine} (h : d.PoolOk) {x : Received} (hfull : d.Full x.now) :
    (d.receive x).1.poolCount = d.poolCount ∧
      ∀ i : Fin maxPoolSize, ((d.receive x).1.leases i).mac = (d.leases i).mac := by
  have hassigned {i : Fin maxPoolSize} (hi : i.val < d.poolCount)
      (hfree : (d.leases i).active = true → (d.leases i).leaseExpiry < x.now) : False := by
    obtain ⟨hact, hlasts⟩ := hfull i hi
    exact absurd (hfree hact) (not_lt.mpr hlasts)
  refine h.handle_induction (P := fun d' => d'.poolCount = d.poolCount ∧
    ∀ i, (d'.leases i).mac = (d.leases i).mac) x.msg ⟨rfl, fun _ => rfl⟩
    (fun mac d' ip hlook => ?_) fun mac d' hcom => ?_
  · cases hlook with
    | own _ _ _ => exact ⟨rfl, fun _ => rfl⟩
    | assigned hi _ hfree => exact (hassigned hi hfree).elim
    | exhausted _ _ => exact ⟨rfl, fun _ => rfl⟩
  · cases hcom with
    | own _ _ _ => exact ⟨rfl, renewLease_mac d _ _⟩
    | assigned hi _ hfree => exact (hassigned hi hfree).elim
    | unchanged => exact ⟨rfl, fun _ => rfl⟩
    | extended _ _ => exact ⟨rfl, renewLease_mac d _ _⟩

/-- Every acknowledgement has its lease, but for that of an empty request. -/
theorem acks_backed_iff {d : DhcpEngine} (hd : d.Reachable) (x : Received) :
    d.AckBacked x ↔ ¬d.EmptyRequest x := by
  have hok := hd.poolOk
  constructor
  · rintro hbacked ⟨r, hdec, htype, hreq, hci, hnone, hfull⟩
    obtain ⟨d', ip, hlook, hack⟩ := answers_request hdec htype
    have hzero := hlook.eq_zero hnone hfull
    obtain ⟨i, hi, hlease⟩ := hbacked ip r.mac
      (hack (hzero.trans (requested_eq_zero.mpr ⟨hreq, hci⟩).symm))
    obtain ⟨hcount, howner⟩ := hok.owner_of_full hfull
    rw [hcount] at hi
    have hmac := howner i
    rw [hlease] at hmac
    exact hnone i hi (hfull i hi).1 hmac.symm
  · intro hnot ip mac hack
    obtain ⟨r, d', hdec, htype, rfl, hreq, hlook, hafter⟩ := hack.of_ack
    rw [hafter]
    rcases hlook.holds with ⟨hdur, i, expiry, hholds⟩ | ⟨hzero, hnone, hfull⟩
    · rw [← hdur]
      exact ⟨i, hholds.commitLease (hok.lookup hlook) x.commitNow⟩
    · obtain ⟨hreq, hci⟩ := requested_eq_zero.mp (hreq.trans hzero)
      exact absurd ⟨r, hdec, htype, hreq, hci, hnone, hfull⟩ hnot

theorem acks_backed_first_lease :
    smallPool.Answers (receivedAt (makeDhcpRequest selfTestMac (octets 192 168 1 100)) 0) 5
        (octets 192 168 1 100) selfTestMac ∧
      smallPool.AckBacked (receivedAt (makeDhcpRequest selfTestMac (octets 192 168 1 100)) 0) := by
  have hd : smallPool.Reachable := ⟨_, _, _, [], rfl⟩
  refine ⟨by decide +kernel, (acks_backed_iff hd _).mpr ?_⟩
  rintro ⟨r, -, -, -, -, -, hfull⟩
  exact absurd (hfull ⟨0, by decide⟩ (by decide +kernel)).1 (by decide +kernel)

/-- The one address is taken; another client asks for no address and is acknowledged 0.0.0.0. -/
theorem ack_without_lease :
    (oneAddress.afterAll [receivedAt (makeDhcpDiscover selfTestMac) 0]).Reachable ∧
      (oneAddress.afterAll [receivedAt (makeDhcpDiscover selfTestMac) 0]).Answers
        (receivedAt (makeDhcp otherMac [53, 1, 3, 255]) 1) 5 (octets 0 0 0 0) otherMac ∧
      ¬(oneAddress.afterAll [receivedAt (makeDhcpDiscover selfTestMac) 0]).AckBacked
        (receivedAt (makeDhcp otherMac [53, 1, 3, 255]) 1) := by
  have hack : (oneAddress.afterAll [receivedAt (makeDhcpDiscover selfTestMac) 0]).Answers
      (receivedAt (makeDhcp otherMac [53, 1, 3, 255]) 1) 5 (octets 0 0 0 0) otherMac := by
    decide +kernel
  refine ⟨⟨_, _, _, [.handleDhcpRequest (makeDhcpDiscover selfTestMac) 0 0], rfl⟩, hack, ?_⟩
  intro hbacked
  obtain ⟨i, hi, hlease⟩ := hbacked _ _ hack
  have hpool : ∀ i : Fin maxPoolSize,
      i.val < ((oneAddress.afterAll [receivedAt (makeDhcpDiscover selfTestMac) 0]).receive
        (receivedAt (makeDhcp otherMac [53, 1, 3, 255]) 1)).1.poolCount →
      (((oneAddress.afterAll [receivedAt (makeDhcpDiscover selfTestMac) 0]).receive
        (receivedAt (makeDhcp otherMac [53, 1, 3, 255]) 1)).1.leases i).ip ≠ octets 0 0 0 0 := by
    decide +kernel
  exact hpool i hi (congrArg DhcpLease.ip hlease)

end DhcpEngine
end Hpgtp
