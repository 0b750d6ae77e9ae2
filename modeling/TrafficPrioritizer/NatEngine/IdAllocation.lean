import TrafficPrioritizer.NatEngine.Tables
import Mathlib.Data.Fintype.Card
import Mathlib.Logic.Function.Iterate

/-! When the scan for a free echo id succeeds. It looks at 512 ids on from the cursor, so what
decides is whether the ids in use fill that stretch, not how many they are. -/

namespace Hpgtp
open ReverseIndex

namespace NatEngine

def candidate (e : NatEngine) (n : ℕ) : UInt16 := nextCursor^[n] e.icmpIdCursor

theorem candidate_injOn {e : NatEngine} (hcur : Ephemeral e.icmpIdCursor) {m n : ℕ}
    (hm : m < 50001) (hn : n < 50001) (h : e.candidate m = e.candidate n) : m = n := by
  have htoNat := congrArg UInt16.toNat h
  rw [candidate, candidate, iterate_nextCursor_toNat hcur, iterate_nextCursor_toNat hcur] at htoNat
  omega

structure IdsConsistent (e : NatEngine) : Prop where
  sound : Sound e.icmpIdToIndex e.HoldsId
  complete : Complete e.icmpIdToIndex e.HoldsId

theorem allocLoop_eq_zero_iff (n : ℕ) {e : NatEngine} (hcur : Ephemeral e.icmpIdCursor)
    (hids : e.IdsConsistent) :
    (allocLoop n e).1 = 0 ↔ ∀ k < n, ∃ i, e.HoldsId i (e.candidate k) := by
  induction n generalizing e with
  | zero => exact iff_of_true rfl fun k hk => absurd hk (Nat.not_lt_zero k)
  | succ n ih =>
    rw [Nat.forall_lt_succ_left]
    rcases hids.sound e.icmpIdCursor with hfree | ⟨i, hi, hown⟩
    · -- no entry: the id is taken at once
      have htaken : (allocLoop (n + 1) e).1 = htons e.icmpIdCursor := by
        simp only [allocLoop, hfree, Int.reduceNeg, Int.reduceLT, if_true]
      refine iff_of_false (htaken ▸ hcur.ne_zero) fun hall => ?_
      obtain ⟨i, hi⟩ := hall.1
      have hentry := hids.complete i _ hi
      rw [show e.candidate 0 = e.icmpIdCursor from rfl, hfree] at hentry
      omega
    · have hnext : (allocLoop (n + 1) e).1 =
          (allocLoop n { e with icmpIdCursor := nextCursor e.icmpIdCursor }).1 := by
        simp only [allocLoop, slotOf_eq_some.mpr hi, hown.1, Bool.not_true, Bool.false_eq_true,
          if_false, if_neg (show ¬ e.icmpIdToIndex e.icmpIdCursor < 0 by omega)]
      have hrec := ih (e := { e with icmpIdCursor := nextCursor e.icmpIdCursor })
        (nextCursor_ephemeral hcur) ⟨hids.sound, hids.complete⟩
      rw [hnext, hrec]
      exact (and_iff_right ⟨i, hown⟩).symm

def AllocatesFreeId (e : NatEngine) : Prop :=
  e.allocExternalIcmpId.1 ≠ 0 ∧ Ephemeral (ntohs e.allocExternalIcmpId.1) ∧
    (∀ i, ¬ e.allocExternalIcmpId.2.HoldsId i (ntohs e.allocExternalIcmpId.1)) ∧
    Ephemeral e.allocExternalIcmpId.2.icmpIdCursor

theorem allocatesFreeId_of_ne_zero {e : NatEngine} (hcur : Ephemeral e.icmpIdCursor)
    (hids : e.IdsConsistent) (h : e.allocExternalIcmpId.1 ≠ 0) : e.AllocatesFreeId := by
  obtain ⟨-, hcur', hext⟩ := allocLoop_spec 512 hcur hids.sound
  obtain ⟨host, hhost, hid, hfree⟩ := hext.resolve_left h
  have hid' : ntohs e.allocExternalIcmpId.1 = host := by
    rw [allocExternalIcmpId, hid, ntohs_htons]
  have hsess : e.allocExternalIcmpId.2.icmpSessions = e.icmpSessions := (allocLoop_frame 512 e).2
  refine ⟨h, hid'.symm ▸ hhost, fun i hown => ?_, hcur'⟩
  rw [hid', HoldsId, hsess] at hown
  have hentry := hids.complete i host hown
  omega

/-- Sessions 0 to 511 but for `gap`, on the ids from 25000 on, and the cursor back at the first
of them. -/
def crowdedBut (gap : ℕ) : NatEngine :=
  { new with
    icmpSessions := fun i =>
      if i.val < 512 ∧ i.val ≠ gap then
        { intSaddr := ⟨0x6401A8C0⟩, remoteDaddr := ⟨0x08080808⟩, intIdNbo := htons (.ofNat i),
          extIdNbo := htons (.ofNat (25000 + i)), active := true }
      else {}
    icmpIdToIndex := fun id =>
      if 25000 ≤ id.toNat ∧ id.toNat < 25512 ∧ id.toNat ≠ 25000 + gap then
        (id.toNat - 25000 : ℕ)
      else -1 }

theorem holdsId_crowdedBut {gap : ℕ} {i : Fin maxIcmpSessions} {id : UInt16} :
    (crowdedBut gap).HoldsId i id ↔ (i.val < 512 ∧ i.val ≠ gap) ∧ id.toNat = 25000 + i := by
  by_cases hi : i.val < 512 ∧ i.val ≠ gap
  · have hid : (UInt16.ofNat (25000 + i)).toNat = 25000 + i := by
      rw [UInt16.toNat_ofNat']
      omega
    simp only [HoldsId, crowdedBut, if_pos hi, ntohs_htons, true_and]
    rw [← UInt16.toNat_inj, hid, eq_comm, and_iff_right hi]
  · have hinactive : (crowdedBut gap).icmpSessions i = {} := if_neg hi
    rw [HoldsId, hinactive]
    exact iff_of_false (fun h => Bool.false_ne_true h.1) fun h => hi h.1

theorem crowdedBut_idsConsistent (gap : ℕ) : (crowdedBut gap).IdsConsistent where
  sound := by
    intro id
    by_cases hid : 25000 ≤ id.toNat ∧ id.toNat < 25512 ∧ id.toNat ≠ 25000 + gap
    · refine .inr ⟨⟨id.toNat - 25000, ?_⟩, if_pos hid, holdsId_crowdedBut.mpr ⟨⟨?_, ?_⟩, ?_⟩⟩
      · rw [maxIcmpSessions]
        omega
      · show id.toNat - 25000 < 512
        omega
      · show id.toNat - 25000 ≠ gap
        omega
      · show id.toNat = 25000 + (id.toNat - 25000)
        omega
    · exact .inl (if_neg hid)
  complete := by
    intro i id hown
    obtain ⟨hi, hid⟩ := holdsId_crowdedBut.mp hown
    have hentry : (crowdedBut gap).icmpIdToIndex id = (id.toNat - 25000 : ℕ) :=
      if_pos ⟨by omega, by omega, by omega⟩
    rw [hentry]
    omega

theorem crowdedBut_cursor (gap : ℕ) : Ephemeral (crowdedBut gap).icmpIdCursor :=
  ⟨show 10000 ≤ (25000 : UInt16).toNat by decide, show (25000 : UInt16).toNat ≤ 60000 by decide⟩

theorem exists_holdsId_candidate {gap k : ℕ} (hk : k < 512) (hgap : k ≠ gap) :
    ∃ i, (crowdedBut gap).HoldsId i ((crowdedBut gap).candidate k) := by
  have hcand : ((crowdedBut gap).candidate k).toNat = 25000 + k := by
    rw [candidate, iterate_nextCursor_toNat (crowdedBut_cursor gap)]
    show (25000 - 10000 + k) % 50001 + 10000 = 25000 + k
    omega
  exact ⟨⟨k, by rw [maxIcmpSessions]; omega⟩, holdsId_crowdedBut.mpr ⟨⟨hk, hgap⟩, hcand⟩⟩

/-- In a consistent state the allocation gives a free id unless active sessions use the very 512
ids the scan looks at. -/
theorem icmp_id_allocated_iff {e : NatEngine} (hids : e.IdsConsistent)
    (hcur : Ephemeral e.icmpIdCursor) :
    e.AllocatesFreeId ↔ ∃ n < 512, ∀ i, ¬ e.HoldsId i (e.candidate n) := by
  have hscan := allocLoop_eq_zero_iff 512 hcur hids
  constructor
  · intro h
    by_contra hnone
    push Not at hnone
    exact h.1 (hscan.mpr hnone)
  · rintro ⟨n, hn, hfree⟩
    refine allocatesFreeId_of_ne_zero hcur hids fun hzero => ?_
    obtain ⟨i, hi⟩ := hscan.mp hzero n hn
    exact hfree i hi

/-- With session 511 gone the scan passes over 511 ids in use and takes the last it looks at. -/
theorem icmp_id_allocated_behind_used_ids :
    let e := crowdedBut 511
    e.IdsConsistent ∧ Ephemeral e.icmpIdCursor ∧ (∀ k < 511, ∃ i, e.HoldsId i (e.candidate k)) ∧
      e.AllocatesFreeId ∧ ntohs e.allocExternalIcmpId.1 = 25511 := by
  intro e
  have hids : e.IdsConsistent := crowdedBut_idsConsistent 511
  have hcur : Ephemeral e.icmpIdCursor := crowdedBut_cursor 511
  refine ⟨hids, hcur, fun k hk => exists_holdsId_candidate (by omega) (by omega),
    (icmp_id_allocated_iff hids hcur).mpr ⟨511, by decide, fun i hown => ?_⟩, by decide +kernel⟩
  obtain ⟨hi, hid⟩ := holdsId_crowdedBut.mp hown
  have hlast : (e.candidate 511).toNat = 25511 := by decide +kernel
  omega

theorem icmp_id_scan_starved :
    let crowded := crowdedBut 512
    crowded.IdsConsistent ∧ Ephemeral crowded.icmpIdCursor ∧
      (∀ id : UInt16, 25512 ≤ id.toNat → ∀ i, ¬ crowded.HoldsId i id) ∧
      crowded.allocExternalIcmpId.1 = 0 ∧ ¬ crowded.AllocatesFreeId := by
  intro crowded
  have hids : crowded.IdsConsistent := crowdedBut_idsConsistent 512
  have hcur : Ephemeral crowded.icmpIdCursor := crowdedBut_cursor 512
  have hzero : crowded.allocExternalIcmpId.1 = 0 :=
    (allocLoop_eq_zero_iff 512 hcur hids).mpr fun k hk =>
      exists_holdsId_candidate hk (Nat.ne_of_lt hk)
  refine ⟨hids, hcur, fun id hid i hown => ?_, hzero, fun h => h.1 hzero⟩
  have := holdsId_crowdedBut.mp hown
  omega

theorem allocatesFreeId_of_card_lt {e : NatEngine} (hids : e.IdsConsistent)
    (hcur : Ephemeral e.icmpIdCursor)
    (hcard : (Finset.univ.filter fun i => (e.icmpSessions i).active).card < 512) :
    e.AllocatesFreeId := by
  refine allocatesFreeId_of_ne_zero hcur hids fun hzero => ?_
  have hall := (allocLoop_eq_zero_iff 512 hcur hids).mp hzero
  choose holder hholder using hall
  refine absurd hcard (not_lt.mpr ?_)
  -- a session holds one id, so the 512 candidates have 512 holders
  have hinj : Function.Injective fun k : Fin 512 => holder k k.isLt := by
    intro j k hjk
    have hj := (hholder j j.isLt).2
    have hk := (hholder k k.isLt).2
    have hsame : e.candidate j = e.candidate k := by
      rw [← hj, ← hk, show holder j j.isLt = holder k k.isLt from hjk]
    exact Fin.ext (candidate_injOn hcur (by omega) (by omega) hsame)
  calc 512 = (Finset.univ.image fun k : Fin 512 => holder k k.isLt).card := by
        rw [Finset.card_image_of_injective _ hinj, Finset.card_univ, Fintype.card_fin]
    _ ≤ _ := by
        refine Finset.card_le_card fun i hi => ?_
        obtain ⟨k, -, rfl⟩ := Finset.mem_image.mp hi
        exact Finset.mem_filter.mpr ⟨Finset.mem_univ _, (hholder k k.isLt).1⟩

end NatEngine
end Hpgtp
