import TrafficPrioritizer.DhcpEngine.ServedPool
import Mathlib.Data.Fintype.Card
import Mathlib.Data.Finset.Card

/-! How clients can use up the pool. Under a lease time that is not negative each DISCOVER of
a new client takes a free slot for good, so the slots in front of any slot, and all slots, can be
taken at one moment. -/

namespace Hpgtp
namespace DhcpEngine

/-- Some hardware address is in no slot and is not the given one: there are more values of its last
byte than slots. -/
theorem exists_fresh_mac (d : DhcpEngine) (avoid : Mac) :
    ∃ mac ≠ avoid, ∀ i, (d.leases i).mac ≠ mac := by
  let ofByte (n : Fin 256) : Mac := #v[0, 0, 0, 0, 0, UInt8.ofNat n]
  have hinj : Function.Injective ofByte := by
    intro n m h
    have hbyte : UInt8.ofNat n = UInt8.ofNat m := congrArg (fun v : Mac => v[5]) h
    have hnat := congrArg UInt8.toNat hbyte
    simp only [UInt8.toNat_ofNat'] at hnat
    omega
  have hcard : (insert avoid (Finset.univ.image fun i => (d.leases i).mac)).card <
      (Finset.univ.image ofByte).card := by
    rw [Finset.card_image_of_injective _ hinj, Finset.card_univ, Fintype.card_fin]
    refine lt_of_le_of_lt (Finset.card_insert_le _ _) (Nat.lt_of_le_of_lt
      (Nat.add_le_add_right Finset.card_image_le 1) ?_)
    rw [Finset.card_univ, Fintype.card_fin]
    decide
  obtain ⟨mac, -, hfresh⟩ := Finset.exists_mem_notMem_of_card_lt_card hcard
  rw [Finset.mem_insert, not_or] at hfresh
  exact ⟨mac, hfresh.1, fun i hi => hfresh.2 (Finset.mem_image.mpr ⟨i, Finset.mem_univ i, hi⟩)⟩

theorem exists_new_client (d : DhcpEngine) (avoid : Mac) : ∃ mac ≠ avoid, d.NoLease mac := by
  obtain ⟨mac, hne, hfresh⟩ := d.exists_fresh_mac avoid
  exact ⟨mac, hne, fun i _ _ => hfresh i⟩

def freeSlots (d : DhcpEngine) (now : Int) : Finset (Fin maxPoolSize) :=
  Finset.univ.filter fun i => ¬((d.leases i).active = true ∧ now ≤ (d.leases i).leaseExpiry)

theorem freeSlots_assignLease {d : DhcpEngine} {j : Fin maxPoolSize} {now : Int} (mac : Mac)
    (hfree : (d.leases j).active = true → (d.leases j).leaseExpiry < now)
    (hdur : 0 ≤ d.duration) :
    ((d.assignLease j mac now).freeSlots now).card < (d.freeSlots now).card := by
  refine Finset.card_lt_card (Finset.ssubset_iff_of_subset ?_ |>.mpr ⟨j, ?_, ?_⟩)
  · intro i hi
    simp only [freeSlots, Finset.mem_filter, Finset.mem_univ, true_and] at hi ⊢
    by_cases hij : i = j
    · subst hij
      simp [assignLease_self, hdur] at hi
    · rwa [assignLease_of_ne d j mac now hij] at hi
  · simp only [freeSlots, Finset.mem_filter, Finset.mem_univ, true_and]
    rintro ⟨hact, hle⟩
    exact absurd (hfree hact) (not_lt.mpr hle)
  · simp [freeSlots, assignLease_self, hdur]

def discoversAt (clients : List Mac) (now : Int) : List Received :=
  clients.map fun mac => receivedAt (makeDhcpDiscover mac) now

theorem times_discoversAt {clients : List Mac} {msg : DhcpMessage} {now : Int} {z : Received}
    (hz : z ∈ discoversAt clients now ++ [receivedAt msg now]) :
    z.now = now ∧ z.commitNow = now := by
  rcases List.mem_append.mp hz with hz | hz
  · obtain ⟨mac, -, rfl⟩ := List.mem_map.mp hz
    exact ⟨rfl, rfl⟩
  · rw [List.mem_singleton.mp hz]
    exact ⟨rfl, rfl⟩

theorem chronological_discoversAt (clients : List Mac) (msg : DhcpMessage) (now : Int) :
    Chronological (discoversAt clients now ++ [receivedAt msg now]) := by
  refine List.pairwise_of_forall_mem_list fun y hy z hz => ?_
  rw [(times_discoversAt hy).2, (times_discoversAt hz).1]

theorem afterAll_discoversAt_append (d : DhcpEngine) (clients : List Mac) (mac : Mac) (now : Int) :
    d.afterAll (discoversAt (clients ++ [mac]) now) =
      ((d.afterAll (discoversAt clients now)).receive
        (receivedAt (makeDhcpDiscover mac) now)).1 := by
  rw [discoversAt, List.map_append]
  exact afterAll_concat ..

section
variable {d : DhcpEngine} {i : Fin maxPoolSize} {mac : Mac} {now : Int}

theorem FirstFree.receive_discover (hfree : d.FirstFree now i) (hnone : d.NoLease mac) :
    (d.receive (receivedAt (makeDhcpDiscover mac) now)).1 = d.assignLease i mac now := by
  obtain ⟨r, hdec, hdisc, rfl⟩ := decode_makeDhcpDiscover mac
  have hcall := handle_discover now hdec hdisc (hfree.findOrAssignLease hnone)
  rw [receive]
  show (d.handleDhcpRequest (makeDhcpDiscover r.mac) now now).1 = _
  rw [hcall]
  split_ifs <;> rfl

theorem FirstFree.answers (hfree : d.FirstFree now i) (hnone : d.NoLease mac) :
    d.Answers (receivedAt (makeDhcpRequest mac (d.leases i).ip) now) 5 (d.leases i).ip mac := by
  obtain ⟨r, hdec, hreq, rfl, hrequested⟩ := decode_makeDhcpRequest mac (d.leases i).ip
  have hcall := handle_request now hdec hreq (hfree.findOrAssignLease hnone)
  rw [if_pos hrequested.symm] at hcall
  exact ⟨_, congrArg Prod.snd hcall, rfl, rfl, rfl⟩

theorem PoolOk.fill (hok : d.PoolOk) (now : Int) (bound : ℕ)
    (hfill : 0 ≤ d.duration ∨
      ∀ i : Fin maxPoolSize, i.val < bound → i.val < d.poolCount → ¬ d.Free now i) :
    ∃ clients,
      (∀ i : Fin maxPoolSize, i.val < bound → i.val < d.poolCount →
        ¬ (d.afterAll (discoversAt clients now)).Free now i) ∧
      ∀ i : Fin maxPoolSize, bound ≤ i.val →
        (d.afterAll (discoversAt clients now)).leases i = d.leases i := by
  induction hn : (d.freeSlots now).card using Nat.strong_induction_on generalizing d with
  | _ n ih =>
    by_cases htaken : ∀ i : Fin maxPoolSize, i.val < bound → i.val < d.poolCount → ¬ d.Free now i
    · exact ⟨[], htaken, fun _ _ => rfl⟩
    · -- a new client takes the first free slot, which is below the bound
      have hdur := hfill.resolve_right htaken
      push Not at htaken
      obtain ⟨i, hbound, hi, hfree⟩ := htaken
      obtain ⟨j, hji, hfirst⟩ := hfree.exists_firstFree hi
      obtain ⟨fresh, -, hnone⟩ := d.exists_new_client (Vector.replicate 6 0)
      obtain ⟨clients, htaken, hkept⟩ := ih _ (hn ▸ freeSlots_assignLease fresh hfirst.free hdur)
        (hok.assignLease hnone j now) (.inl hdur) rfl
      have hrun : d.afterAll (discoversAt (fresh :: clients) now) =
          (d.assignLease j fresh now).afterAll (discoversAt clients now) := by
        rw [← hfirst.receive_discover hnone]
        rfl
      refine ⟨fresh :: clients, fun k hk hk' => ?_, fun k hk => ?_⟩
      · rw [hrun]
        exact htaken k hk hk'
      · have hkj : k ≠ j := by
          rintro rfl
          have hle : k.val ≤ i.val := hji
          omega
        rw [hrun, hkept k hk, assignLease_of_ne d j fresh now hkj]

theorem PoolOk.freed (hok : d.PoolOk) (hi : i.val < d.poolCount) (hfree : d.Free now i)
    (hfill : 0 ≤ d.duration ∨ ∀ j < i, ¬ d.Free now j) (avoid : Mac) :
    ∃ clients, ∃ fresh ≠ avoid, (d.afterAll (discoversAt clients now)).NoLease fresh ∧
      (d.afterAll (discoversAt clients now)).FirstFree now i ∧
      (d.afterAll (discoversAt clients now)).leases i = d.leases i := by
  obtain ⟨clients, htaken, hkept⟩ := hok.fill now i.val
    (hfill.imp_right fun h j hj _ => h j hj)
  obtain ⟨-, hcount, -⟩ := hok.afterAll (discoversAt clients now)
  obtain ⟨fresh, hne, hnone⟩ := (d.afterAll (discoversAt clients now)).exists_new_client avoid
  have hslot := hkept i le_rfl
  refine ⟨clients, fresh, hne, hnone, ⟨hcount ▸ hi, ?_, fun j hj => ?_⟩, hslot⟩
  · rw [Free, hslot]
    exact hfree
  · exact htaken j hj (lt_trans hj hi)

end
end DhcpEngine
end Hpgtp
