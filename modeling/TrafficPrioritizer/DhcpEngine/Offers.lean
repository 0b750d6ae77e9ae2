import TrafficPrioritizer.DhcpEngine.Exhaustion

/-! When an offer is honoured. A fresh lease is good for a whole lease duration, but a client's
own lease is offered again with the expiry it had: from then on any other client may be given
the slot, within the time the offer was good for. -/

namespace Hpgtp
namespace DhcpEngine

def Honoured (d : DhcpEngine) (x : Received) (ip : IPv4Net) (mac : Mac) : Prop :=
  ∀ (between : List Received) (y : Received) (r : DhcpRequest),
    Chronological (x :: between ++ [y]) → y.now ≤ x.now + d.duration →
    y.msg.decode = some r → r.msgType = 3 → r.mac = mac → r.requested = ip →
    (d.afterAll (x :: between)).Answers y 5 ip mac

def LeaseLasts (d : DhcpEngine) (mac : Mac) (time : Int) : Prop :=
  ∀ i : Fin maxPoolSize, i.val < d.poolCount → (d.leases i).active = true →
    (d.leases i).mac = mac → time ≤ (d.leases i).leaseExpiry

instance (d : DhcpEngine) (mac : Mac) (time : Int) : Decidable (d.LeaseLasts mac time) :=
  inferInstanceAs (Decidable (∀ _ : Fin maxPoolSize, _))

/-! ## The offer is kept -/

theorem Holds.lookup_eq {d d' : DhcpEngine} (hok : d.PoolOk) {i : Fin maxPoolSize}
    {ip ip' : IPv4Net} {mac : Mac} {now expiry : Int} (h : d.Holds i ip mac expiry)
    (hlook : Lookup d mac now d' ip') : ip' = ip := by
  cases hlook with
  | own hj hact hmac =>
    have hij := hok.owners _ _ h.inPool hj h.active hact (h.owner.trans hmac.symm)
    rw [← hij, h.address]
  | assigned _ hnone _ => exact absurd h.owner (hnone i h.inPool h.active)
  | exhausted hnone _ => exact absurd h.owner (hnone i h.inPool h.active)

theorem Holds.answers {d : DhcpEngine} (hok : d.PoolOk) {i : Fin maxPoolSize} {ip : IPv4Net}
    {mac : Mac} {expiry : Int} (h : d.Holds i ip mac expiry) {y : Received} {r : DhcpRequest}
    (hdec : y.msg.decode = some r) (htype : r.msgType = 3) (hmac : r.mac = mac)
    (hreq : r.requested = ip) : d.Answers y 5 ip mac := by
  obtain ⟨d', ip', hlook, hack⟩ := answers_request hdec htype
  subst hmac
  have hfound := h.lookup_eq hok hlook
  subst hfound
  exact hack hreq.symm

theorem Answers.holds_of_offer {d : DhcpEngine} {x : Received} {ip : IPv4Net} {mac : Mac}
    (h : d.Answers x 2 ip mac) (hlasts : d.LeaseLasts mac (x.now + d.duration)) :
    ∃ i, (d.receive x).1.Holds i ip mac (x.now + d.duration) := by
  obtain ⟨hip, hlook⟩ := h.of_offer
  generalize (d.receive x).1 = after at hlook ⊢
  cases hlook with
  | own hi hact hmac => exact ⟨_, hi, rfl, hact, hmac, hlasts _ hi hact hmac⟩
  | assigned hi _ _ => exact ⟨_, holds_assignLease hi⟩
  | exhausted _ _ => exact absurd rfl hip

theorem Answers.honoured {d : DhcpEngine} (hok : d.PoolOk) {x : Received} {ip : IPv4Net} {mac : Mac}
    (h : d.Answers x 2 ip mac) (hlasts : d.LeaseLasts mac (x.now + d.duration)) :
    d.Honoured x ip mac := by
  intro between y r hclock hwithin hdec htype hmac hreq
  obtain ⟨i, hholds⟩ := h.holds_of_offer hlasts
  obtain ⟨-, hbetween⟩ := hclock.between
  obtain ⟨hok', hholds'⟩ := hholds.afterAll (hok.receive x) fun z hz => by
    obtain ⟨hxz, hzy⟩ := hbetween z hz
    have hx := x.ordered
    have hz := z.ordered
    rw [hok.duration_receive]
    omega
  exact hholds'.answers hok' hdec htype hmac hreq

/-! ## The offer is broken -/

theorem PoolOk.stolen {d : DhcpEngine} (hok : d.PoolOk) {i : Fin maxPoolSize} {now : Int}
    (hi : i.val < d.poolCount) (hexp : (d.leases i).leaseExpiry < now) (hdur : 0 ≤ d.duration)
    (mac : Mac) :
    ∃ clients, (d.afterAll (discoversAt clients now)).PoolOk ∧
      ∃ mac' ≠ mac, (d.afterAll (discoversAt clients now)).Holds i (d.leases i).ip mac' now := by
  obtain ⟨clients, fresh, hne, hnone, hfree, hslot⟩ :=
    hok.freed hi (fun _ => hexp) (.inl hdur) mac
  have hrun : d.afterAll (discoversAt (clients ++ [fresh]) now) =
      (d.afterAll (discoversAt clients now)).assignLease i fresh now := by
    rw [afterAll_discoversAt_append]
    exact hfree.receive_discover hnone
  obtain ⟨hok', -, -, -, hdur'⟩ := hok.afterAll (discoversAt clients now)
  refine ⟨clients ++ [fresh], ?_, fresh, hne, ?_⟩
  · rw [hrun]
    exact hok'.assignLease hnone i now
  · rw [hrun, ← hslot]
    exact (holds_assignLease hfree.inPool).mono (by omega)

/-- An offer is honoured exactly when the client had no lease that ends within the time of the
offer, or the handling of the DISCOVER has used up that time. -/
theorem offer_honoured_iff {d : DhcpEngine} (hd : d.Reachable) {x : Received} {ip : IPv4Net}
    {mac : Mac} (hoffer : d.Answers x 2 ip mac) :
    d.Honoured x ip mac ↔
      (x.commitNow ≤ x.now + d.duration → d.LeaseLasts mac (x.now + d.duration)) := by
  have hok := hd.poolOk
  constructor
  · intro hhon hwindow i hi hact hmac
    by_contra! hexp
    have hdur : 0 ≤ d.duration := by have := x.ordered; omega
    obtain ⟨hip, hlook⟩ := hoffer.of_offer
    generalize hafter : (d.receive x).1 = after at hlook
    cases hlook with
    | assigned _ hnone _ => exact hnone i hi hact hmac
    | exhausted hnone _ => exact hnone i hi hact hmac
    | own hj hjact hjmac =>
      -- the client was offered the lease it had, and the engine is as before
      have hij := hok.owners _ _ hi hj hact hjact (hmac.trans hjmac.symm)
      subst hij
      have hclock (clients : List Mac) : Chronological (x :: (discoversAt clients
          (x.now + d.duration) ++
            [receivedAt (makeDhcpRequest mac (d.leases i).ip) (x.now + d.duration)])) := by
        refine List.pairwise_cons.mpr ⟨fun z hz => ?_, chronological_discoversAt ..⟩
        rwa [(times_discoversAt hz).1]
      obtain ⟨clients, hok', mac', hne, hholds⟩ := hok.stolen hi hexp hdur mac
      obtain ⟨r, hdec, htype, hrmac, hreq⟩ := decode_makeDhcpRequest mac (d.leases i).ip
      have hack := hhon (discoversAt clients (x.now + d.duration))
        (receivedAt (makeDhcpRequest mac (d.leases i).ip) (x.now + d.duration)) r
        (hclock clients) le_rfl hdec htype hrmac hreq
      have hrun : d.afterAll (x :: discoversAt clients (x.now + d.duration)) =
          d.afterAll (discoversAt clients (x.now + d.duration)) :=
        congrArg (afterAll · _) hafter
      obtain ⟨r, d', -, -, -, -, hlook, -⟩ := hack.of_ack
      rw [hrun] at hlook
      exact hne (hholds.lookup_owner hok' le_rfl hip hlook).symm
  · intro hlasts between y r hclock hwithin
    have hxy := hclock.between.1
    exact hoffer.honoured hok (hlasts (hxy.trans hwithin)) between y r hclock hwithin

theorem offer_honoured_new_client :
    smallPool.Answers (receivedAt (makeDhcpDiscover selfTestMac) 0) 2 (octets 192 168 1 100)
        selfTestMac ∧
      smallPool.Honoured (receivedAt (makeDhcpDiscover selfTestMac) 0) (octets 192 168 1 100)
        selfTestMac := by
  have hoffer : smallPool.Answers (receivedAt (makeDhcpDiscover selfTestMac) 0) 2
      (octets 192 168 1 100) selfTestMac := by decide +kernel
  have hd : smallPool.Reachable := ⟨_, _, _, [], rfl⟩
  exact ⟨hoffer, (offer_honoured_iff hd hoffer).mpr fun _ => by decide +kernel⟩

def oneAddress : DhcpEngine :=
  new (octets 192 168 1 1)
    { poolStart := octets 192 168 1 100, poolEnd := octets 192 168 1 100, lease := 60 }
    smallPool.lanIfMac

/-- A client that asks again after a minute is offered its address once more; a second later
another client is given it, and the REQUEST that follows is refused. -/
theorem offer_withdrawn :
    (oneAddress.afterAll [receivedAt (makeDhcpDiscover selfTestMac) 0]).Reachable ∧
      (oneAddress.afterAll [receivedAt (makeDhcpDiscover selfTestMac) 0]).Answers
        (receivedAt (makeDhcpDiscover selfTestMac) 61000000000) 2 (octets 192 168 1 100)
        selfTestMac ∧
      ¬(oneAddress.afterAll [receivedAt (makeDhcpDiscover selfTestMac) 0]).Honoured
        (receivedAt (makeDhcpDiscover selfTestMac) 61000000000) (octets 192 168 1 100)
        selfTestMac := by
  refine ⟨⟨_, _, _, [.handleDhcpRequest (makeDhcpDiscover selfTestMac) 0 0], rfl⟩,
    by decide +kernel, fun hhon => ?_⟩
  obtain ⟨r, hdec, htype, hmac, hreq⟩ :=
    decode_makeDhcpRequest selfTestMac (octets 192 168 1 100)
  have hack := hhon [receivedAt (makeDhcpDiscover otherMac) 62000000000]
    (receivedAt (makeDhcpRequest selfTestMac (octets 192 168 1 100)) 63000000000) r
    (by decide +kernel) (by decide +kernel) hdec htype hmac hreq
  exact absurd hack (by decide +kernel)

end DhcpEngine
end Hpgtp
