import TrafficPrioritizer.NatEngine.SessionTable

/-! What holds of the session tables, their reverse indices and the two cursors
after any run: nothing here depends on the clock or on what packets arrive. -/

namespace Hpgtp
open ReverseIndex

def Ephemeral (v : UInt16) : Prop := 10000 ≤ v.toNat ∧ v.toNat ≤ 60000

theorem Ephemeral.ne_zero {v : UInt16} (h : Ephemeral v) : htons v ≠ 0 := by
  rw [Ne, htons_eq_zero]
  rintro rfl
  exact absurd h.1 (by decide)

theorem nextCursor_toNat {c : UInt16} (h : Ephemeral c) :
    (nextCursor c).toNat = (c.toNat - 10000 + 1) % 50001 + 10000 := by
  obtain ⟨hlo, hhi⟩ := h
  have hsucc : (c + 1).toNat = c.toNat + 1 := by
    rw [UInt16.toNat_add]
    simp only [UInt16.toNat_one]
    omega
  unfold nextCursor
  split_ifs with hgt
  · rw [gt_iff_lt, UInt16.lt_iff_toNat_lt, hsucc] at hgt
    simp only [UInt16.reduceToNat] at hgt ⊢
    omega
  · rw [gt_iff_lt, UInt16.lt_iff_toNat_lt, hsucc] at hgt
    simp only [UInt16.reduceToNat] at hgt
    omega

theorem nextCursor_ephemeral {c : UInt16} (h : Ephemeral c) : Ephemeral (nextCursor c) := by
  rw [Ephemeral, nextCursor_toNat h]
  omega

theorem iterate_nextCursor_toNat {c : UInt16} (h : Ephemeral c) (n : Nat) :
    (nextCursor^[n] c).toNat = (c.toNat - 10000 + n) % 50001 + 10000 := by
  induction n with
  | zero =>
    obtain ⟨hlo, hhi⟩ := h
    rw [Function.iterate_zero_apply]
    omega
  | succ n ih =>
    have hn : Ephemeral (nextCursor^[n] c) := by
      rw [Ephemeral, ih]
      omega
    rw [Function.iterate_succ_apply', nextCursor_toNat hn, ih]
    omega

theorem even_add_two {s : UInt32} (h : s &&& 1 = 0) : (s + 1 + 1) &&& 1 = 0 := by
  have h := congrArg UInt32.toNat h
  apply UInt32.toNat_inj.mp
  simp only [UInt32.toNat_and, UInt32.toNat_one, UInt32.toNat_zero, Nat.and_one_is_mod,
    UInt32.toNat_add] at h ⊢
  omega

/-! ## Either table -/

namespace SessionTable
variable {n : ℕ} {κ : Type} {T : SessionTable n κ} {e : NatEngine} {eff : Effect} {i : Fin n}
  {x : UInt16}

def Holds (T : SessionTable n κ) (e : NatEngine) (i : Fin n) (x : UInt16) : Prop :=
  (T.entry e i).active = true ∧ ntohs (T.entry e i).external = x

structure Ok (T : SessionTable n κ) (e : NatEngine) : Prop where
  cursor : Ephemeral (T.cursor e)
  external : ∀ i, (T.entry e i).active = true → Ephemeral (ntohs (T.entry e i).external)
  seq : ∀ i, (T.entry e i).seq &&& 1 = 0
  index : Sound (T.index e) (T.Holds e)

theorem entry_of_kept (ha : e.Allowed eff) (h : T.opens eff = none) (i : Fin n) :
    T.entry (e.apply eff) i = (T.entry e i).stamp (T.entry (e.apply eff) i).lastActiveTick := by
  by_cases hi : T.target eff = some i
  · have hwritten := T.written ha hi
    rw [h] at hwritten
    generalize T.entry (e.apply eff) i = s at hwritten ⊢
    cases hwritten
    rfl
  · rw [T.frame hi]
    rfl

theorem holds_of_kept (ha : e.Allowed eff) (h : T.opens eff = none) :
    T.Holds (e.apply eff) i x ↔ T.Holds e i x := by
  rw [Holds, entry_of_kept ha h]
  rfl

theorem Ok.seq_apply (h : T.Ok e) (ha : e.Allowed eff) (i : Fin n) :
    (T.entry (e.apply eff) i).seq &&& 1 = 0 := by
  by_cases hi : T.target eff = some i
  · have hwritten := T.written ha hi
    generalize T.opens eff = opened, T.entry (e.apply eff) i = s at hwritten ⊢
    cases hwritten with
    | refreshed _ => exact h.seq i
    | opened _ key ext => exact even_add_two (h.seq i)
    | failed _ key _ hseq =>
      rw [hseq]
      exact even_add_two (h.seq i)
  · rw [T.frame hi]
    exact h.seq i

theorem Ok.of_kept (h : T.Ok e) (ha : e.Allowed eff) (hopen : T.opens eff = none) :
    T.Ok (e.apply eff) := by
  obtain ⟨hindex, hcursor⟩ := T.kept (e := e) hopen
  refine ⟨?_, fun i hi => ?_, h.seq_apply ha, ?_⟩
  · rw [hcursor]
    exact h.cursor
  · rw [entry_of_kept ha hopen] at hi ⊢
    exact h.external i hi
  · rw [hindex]
    exact h.index.mono fun j x hown => (holds_of_kept ha hopen).mpr hown

theorem Ok.of_opened (h : T.Ok e) (ha : e.Allowed eff)
    (hcursor : Ephemeral (T.cursor (e.apply eff)))
    (hexternal : ∀ i, T.target eff = some i → (T.entry (e.apply eff) i).active = true →
      Ephemeral (ntohs (T.entry (e.apply eff) i).external))
    (hindex : Sound (T.index (e.apply eff)) (T.Holds (e.apply eff))) : T.Ok (e.apply eff) := by
  refine ⟨hcursor, fun i hi => ?_, h.seq_apply ha, hindex⟩
  by_cases htarget : T.target eff = some i
  · exact hexternal i htarget hi
  · rw [T.frame htarget] at hi ⊢
    exact h.external i hi

end SessionTable

namespace NatEngine

/-! ## TCP and UDP -/

def HoldsPort (e : NatEngine) (i : Fin maxSessions) (port : UInt16) : Prop :=
  (e.sessions i).active = true ∧ ntohs (e.sessions i).externalPort = port

structure FlowsOk (e : NatEngine) : Prop where
  table : flowTable.Ok e
  chain : ∀ i, (e.sessions i).active = true → ∃ a, probeSlot (e.sessions i).internalKey a = i

section
variable {e : NatEngine} (h : e.FlowsOk)
include h

theorem FlowsOk.cursor : Ephemeral e.portCursor := h.table.cursor

theorem FlowsOk.ports (i : Fin maxSessions) (hact : (e.sessions i).active = true) :
    Ephemeral (ntohs (e.sessions i).externalPort) := h.table.external i hact

theorem FlowsOk.seq (i : Fin maxSessions) : (e.sessions i).seq &&& 1 = 0 := h.table.seq i

theorem FlowsOk.index : Sound e.portToIndex e.HoldsPort := h.table.index

end

theorem holdsPort_openSession {e : NatEngine} {key : FlowKey} {tick : UInt32}
    {idx j : Fin maxSessions} {port : UInt16} :
    (e.openSession key tick idx).HoldsPort j port ↔
      j = idx ∧ port = e.portCursor ∨ j ≠ idx ∧ e.HoldsPort j port := by
  by_cases h : j = idx
  · subst h
    simp only [HoldsPort, openSession_self, ntohs_htons, true_and, not_true_eq_false, false_and,
      or_false, ne_eq]
    exact eq_comm
  · simp [HoldsPort, openSession_of_ne e key tick h, h]

theorem FlowsOk.openSession {e : NatEngine} (h : e.FlowsOk) {key : FlowKey} {tick : UInt32}
    {idx : Fin maxSessions} (ha : e.Allowed (.openSession key tick idx)) :
    (e.openSession key tick idx).FlowsOk := by
  have hchain : ∃ a, probeSlot key a = idx := ha.2.2
  refine ⟨h.table.of_opened ha (nextCursor_ephemeral h.cursor) ?_ ?_, ?_⟩
  · rintro i hi -
    obtain rfl : idx = i := Option.some.inj hi
    change Ephemeral (ntohs ((e.openSession key tick idx).sessions idx).externalPort)
    rw [openSession_self, ntohs_htons]
    exact h.cursor
  · change Sound (e.openSession key tick idx).portToIndex (e.openSession key tick idx).HoldsPort
    rw [openSession_portToIndex]
    -- the slot gives up its entry when it has one, then takes the entry of its new port
    have hreleased : Sound
        (if (e.sessions idx).active then
          casIndex e.portToIndex (ntohs (e.sessions idx).externalPort) (idx : Nat) (-1)
        else e.portToIndex) fun j port => j ≠ idx ∧ e.HoldsPort j port := by
      split_ifs with hact
      · exact h.index.release (fun port hport => hport.2.symm) fun j hj port hown => ⟨hj, hown⟩
      · refine h.index.mono fun j port hown => ⟨?_, hown⟩
        rintro rfl
        exact hact hown.1
    exact hreleased.assign (fun port hport => hport.1 rfl)
      (holdsPort_openSession.mpr (.inl ⟨rfl, rfl⟩))
      fun j hj port hown => holdsPort_openSession.mpr (.inr hown)
  · intro i hi
    by_cases hidx : i = idx
    · subst hidx
      rw [openSession_self]
      exact hchain
    · rw [openSession_of_ne e key tick hidx] at hi ⊢
      exact h.chain i hi

theorem FlowsOk.of_kept {e : NatEngine} (h : e.FlowsOk) {eff : Effect} (ha : e.Allowed eff)
    (hopen : eff.flowOpened = none) : (e.apply eff).FlowsOk := by
  refine ⟨h.table.of_kept ha hopen, fun i hi => ?_⟩
  have hsame := flowTable.entry_of_kept ha hopen i
  have hkey : ((e.apply eff).sessions i).internalKey = (e.sessions i).internalKey :=
    congrArg TableEntry.key hsame
  have hact : ((e.apply eff).sessions i).active = (e.sessions i).active :=
    congrArg TableEntry.active hsame
  rw [hkey]
  exact h.chain i (hact ▸ hi)

theorem FlowsOk.apply {e : NatEngine} (h : e.FlowsOk) {eff : Effect} (ha : e.Allowed eff) :
    (e.apply eff).FlowsOk := by
  cases eff with
  | openSession key tick idx => exact h.openSession ha
  | _ => exact h.of_kept ha rfl

theorem flowsOk_new : new.FlowsOk where
  table :=
    { cursor := ⟨by decide, by decide⟩
      external := fun i hi => absurd hi Bool.false_ne_true
      seq := fun i => UInt32.zero_and
      index := fun k => .inl rfl }
  chain := fun i hi => absurd hi (by simp [new])

theorem FlowsOk.step {e : NatEngine} (h : e.FlowsOk) (op : Op) : (e.step op).FlowsOk := by
  rw [step_eq]
  exact h.apply (effect_allowed e op)

theorem FlowsOk.run {e : NatEngine} (h : e.FlowsOk) (ops : List Op) : (e.run ops).FlowsOk :=
  LabelledRun.invariant (I := FlowsOk) (fun _ op h => h.step op) ops h

structure PortsNonzero (e : NatEngine) : Prop where
  cursor : e.portCursor ≠ 0
  ports : ∀ i, (e.sessions i).active = true → (e.sessions i).externalPort ≠ 0

theorem FlowsOk.portsNonzero {e : NatEngine} (h : e.FlowsOk) : e.PortsNonzero where
  cursor := htons_eq_zero.not.mp h.cursor.ne_zero
  ports := by
    intro i hact
    have hport := (h.ports i hact).ne_zero
    rwa [htons_ntohs] at hport

theorem PortsNonzero.external {e : NatEngine} (h : e.PortsNonzero) {key : FlowKey} {tick : UInt32}
    {eff : Effect} (heff : e.flowEffect key tick = some eff) : e.external eff ≠ 0 := by
  obtain ⟨a, ha, -⟩ := flowEffect_eq_some.mp heff
  obtain ⟨-, rfl⟩ | ⟨hr, -, rfl⟩ := slotEffect_eq_some ha
  · exact htons_eq_zero.not.mpr h.cursor
  · exact h.ports _ (NatSession.active_of_live hr)

/-! ## ICMP echo -/

def HoldsId (e : NatEngine) (i : Fin maxIcmpSessions) (id : UInt16) : Prop :=
  (e.icmpSessions i).active = true ∧ ntohs (e.icmpSessions i).extIdNbo = id

structure EchoesOk (e : NatEngine) : Prop where
  table : echoTable.Ok e
  complete : Complete e.icmpIdToIndex e.HoldsId

section
variable {e : NatEngine} (h : e.EchoesOk)
include h

theorem EchoesOk.cursor : Ephemeral e.icmpIdCursor := h.table.cursor

theorem EchoesOk.ids (i : Fin maxIcmpSessions) (hact : (e.icmpSessions i).active = true) :
    Ephemeral (ntohs (e.icmpSessions i).extIdNbo) := h.table.external i hact

theorem EchoesOk.seq (i : Fin maxIcmpSessions) : (e.icmpSessions i).seq &&& 1 = 0 := h.table.seq i

theorem EchoesOk.index : Sound e.icmpIdToIndex e.HoldsId := h.table.index

end

/-- While the index names only active sessions, no id is ever reclaimed: the loop skips the
ids in use and takes the first that has no entry. -/
theorem allocLoop_spec (n : Nat) {e : NatEngine} (hcur : Ephemeral e.icmpIdCursor)
    (hidx : Sound e.icmpIdToIndex e.HoldsId) :
    (allocLoop n e).2.icmpIdToIndex = e.icmpIdToIndex ∧
      Ephemeral (allocLoop n e).2.icmpIdCursor ∧
      ((allocLoop n e).1 = 0 ∨ ∃ host, Ephemeral host ∧ (allocLoop n e).1 = htons host ∧
        e.icmpIdToIndex host = -1) := by
  induction n generalizing e with
  | zero => exact ⟨rfl, hcur, .inl rfl⟩
  | succ n ih =>
    have hrec := ih (e := { e with icmpIdCursor := nextCursor e.icmpIdCursor })
      (nextCursor_ephemeral hcur) hidx
    rcases hidx e.icmpIdCursor with hfree | ⟨i, hi, hact, -⟩
    · simp only [allocLoop, hfree]
      exact ⟨rfl, nextCursor_ephemeral hcur, .inr ⟨e.icmpIdCursor, hcur, rfl, hfree⟩⟩
    · simp only [allocLoop, slotOf_eq_some.mpr hi, hact, Bool.not_true, Bool.false_eq_true,
        if_false, if_neg (show ¬e.icmpIdToIndex e.icmpIdCursor < 0 by omega)]
      exact hrec

/-! A slot that is overwritten first gives up its id. -/

theorem holdsId_releaseIcmpSlot {e : NatEngine} {idx j : Fin maxIcmpSessions} {id : UInt16} :
    (e.releaseIcmpSlot idx).HoldsId j id ↔ j ≠ idx ∧ e.HoldsId j id := by
  by_cases h : j = idx
  · subst h
    simp [HoldsId, releaseIcmpSlot_self]
  · simp [HoldsId, releaseIcmpSlot_of_ne e h, h]

theorem EchoesOk.release {e : NatEngine} (h : e.EchoesOk) (idx : Fin maxIcmpSessions) :
    Sound (e.releaseIcmpSlot idx).icmpIdToIndex (e.releaseIcmpSlot idx).HoldsId ∧
      Complete (e.releaseIcmpSlot idx).icmpIdToIndex (e.releaseIcmpSlot idx).HoldsId := by
  by_cases hact : (e.icmpSessions idx).active = true
  · have hidx : (e.releaseIcmpSlot idx).icmpIdToIndex =
        casIndex e.icmpIdToIndex (ntohs (e.icmpSessions idx).extIdNbo) (idx : Nat) (-1) := by
      simp only [releaseIcmpSlot, if_pos hact, setIcmpSession]
    rw [hidx]
    exact ⟨h.index.release (fun id hid => hid.2.symm)
        fun j hj id hown => holdsId_releaseIcmpSlot.mpr ⟨hj, hown⟩,
      h.complete.release fun j id hown => holdsId_releaseIcmpSlot.mp hown⟩
  · have hidx : (e.releaseIcmpSlot idx).icmpIdToIndex = e.icmpIdToIndex := by
      simp only [releaseIcmpSlot, if_neg hact, setIcmpSession]
    rw [hidx]
    refine ⟨h.index.mono fun j id hown => holdsId_releaseIcmpSlot.mpr ⟨?_, hown⟩,
      h.complete.mono fun j id hown => (holdsId_releaseIcmpSlot.mp hown).2⟩
    rintro rfl
    exact hact hown.1

theorem fillIcmpSlot_icmpIdToIndex (e : NatEngine) (key : EchoKey) (tick : UInt32)
    (idx : Fin maxIcmpSessions) (ext : UInt16) :
    (e.fillIcmpSlot key tick idx ext).1.icmpIdToIndex =
      if ext = 0 then e.icmpIdToIndex
      else Function.update e.icmpIdToIndex (ntohs ext) (idx : Nat) := by
  simp only [fillIcmpSlot]
  split_ifs <;> rfl

theorem holdsId_openIcmpSession {e : NatEngine} {key : EchoKey} {tick : UInt32}
    {idx j : Fin maxIcmpSessions} {id : UInt16} :
    (e.openIcmpSession key tick idx).1.HoldsId j id ↔
      (j = idx ∧ (e.openIcmpSession key tick idx).2 ≠ 0 ∧
        id = ntohs (e.openIcmpSession key tick idx).2) ∨
      j ≠ idx ∧ e.HoldsId j id := by
  by_cases h : j = idx
  · subst h
    by_cases hext : (e.openIcmpSession key tick j).2 = 0
    · simp [HoldsId, (openIcmpSession_failed e key tick j hext).1, hext]
    · simp only [HoldsId, openIcmpSession_self e key tick j hext, true_and, not_true_eq_false,
        false_and, or_false, ne_eq, hext, not_false_eq_true]
      exact eq_comm
  · simp [HoldsId, openIcmpSession_of_ne e key tick h, h]

theorem openIcmpSession_icmpIdToIndex {e : NatEngine} (h : e.EchoesOk) (key : EchoKey)
    (tick : UInt32) (idx : Fin maxIcmpSessions) :
    (e.openIcmpSession key tick idx).1.icmpIdToIndex =
      if (e.openIcmpSession key tick idx).2 = 0 then (e.releaseIcmpSlot idx).icmpIdToIndex
      else Function.update (e.releaseIcmpSlot idx).icmpIdToIndex
        (ntohs (e.openIcmpSession key tick idx).2) (idx : Nat) := by
  have hcur : (e.releaseIcmpSlot idx).icmpIdCursor = e.icmpIdCursor := by
    simp only [releaseIcmpSlot]
    split_ifs <;> rfl
  have hspec := (allocLoop_spec 512 (hcur ▸ h.cursor) (h.release idx).1).1
  rw [openIcmpSession_snd, ← hspec]
  exact fillIcmpSlot_icmpIdToIndex ..

theorem openIcmpSession_external {e : NatEngine} (h : e.EchoesOk) (key : EchoKey) (tick : UInt32)
    (idx : Fin maxIcmpSessions) :
    Ephemeral (e.openIcmpSession key tick idx).1.icmpIdCursor ∧
      ((e.openIcmpSession key tick idx).2 = 0 ∨
        Ephemeral (ntohs (e.openIcmpSession key tick idx).2) ∧
          (e.releaseIcmpSlot idx).icmpIdToIndex (ntohs (e.openIcmpSession key tick idx).2) = -1) := by
  have hcur : (e.releaseIcmpSlot idx).icmpIdCursor = e.icmpIdCursor := by
    simp only [releaseIcmpSlot]
    split_ifs <;> rfl
  obtain ⟨-, hcur', hext⟩ := allocLoop_spec 512 (hcur ▸ h.cursor) (h.release idx).1
  have hfill : (e.openIcmpSession key tick idx).1.icmpIdCursor =
      (allocLoop 512 (e.releaseIcmpSlot idx)).2.icmpIdCursor := by
    change (fillIcmpSlot _ key tick idx _).1.icmpIdCursor = _
    simp only [fillIcmpSlot]
    split_ifs <;> rfl
  rw [openIcmpSession_snd, hfill]
  refine ⟨hcur', hext.imp_right ?_⟩
  rintro ⟨host, hhost, hext, hfree⟩
  rw [hext, ntohs_htons]
  exact ⟨hhost, hfree⟩

theorem EchoesOk.openIcmpSession {e : NatEngine} (h : e.EchoesOk) {key : EchoKey} {tick : UInt32}
    {idx : Fin maxIcmpSessions} (ha : e.Allowed (.openIcmpSession key tick idx)) :
    (e.openIcmpSession key tick idx).1.EchoesOk := by
  obtain ⟨hcur, hext⟩ := openIcmpSession_external h key tick idx
  obtain ⟨hsound, hcomplete⟩ := h.release idx
  have hindex := openIcmpSession_icmpIdToIndex h key tick idx
  refine ⟨h.table.of_opened ha hcur (fun i htarget hi => ?_) ?_, ?_⟩
  · obtain rfl : idx = i := Option.some.inj htarget
    rcases holdsId_openIcmpSession.mp ⟨hi, rfl⟩ with ⟨-, hne, hid⟩ | ⟨hne, -⟩
    · change Ephemeral (ntohs ((e.openIcmpSession key tick idx).1.icmpSessions idx).extIdNbo)
      rw [hid]
      exact (hext.resolve_left hne).1
    · exact absurd rfl hne
  · change Sound (e.openIcmpSession key tick idx).1.icmpIdToIndex
      (e.openIcmpSession key tick idx).1.HoldsId
    rw [hindex]
    split_ifs with hzero
    · exact hsound.mono fun j id hown =>
        holdsId_openIcmpSession.mpr (.inr (holdsId_releaseIcmpSlot.mp hown))
    · exact hsound.assign (fun id hid => (holdsId_releaseIcmpSlot.mp hid).1 rfl)
        (holdsId_openIcmpSession.mpr (.inl ⟨rfl, hzero, rfl⟩))
        fun j hj id hown => holdsId_openIcmpSession.mpr (.inr (holdsId_releaseIcmpSlot.mp hown))
  · rw [hindex]
    split_ifs with hzero
    · refine hcomplete.mono fun j id hown => holdsId_releaseIcmpSlot.mpr ?_
      exact (holdsId_openIcmpSession.mp hown).resolve_left fun hc => hc.2.1 hzero
    · refine hcomplete.assign fun j id hown => ?_
      rcases holdsId_openIcmpSession.mp hown with ⟨rfl, -, rfl⟩ | hother
      · exact .inl ⟨rfl, rfl⟩
      · -- the id taken had no entry, so no session that kept its id holds it
        have hown := holdsId_releaseIcmpSlot.mpr hother
        refine .inr ⟨?_, hown⟩
        rintro rfl
        have hentry := hcomplete j _ hown
        rw [(hext.resolve_left hzero).2] at hentry
        omega

theorem EchoesOk.of_kept {e : NatEngine} (h : e.EchoesOk) {eff : Effect} (ha : e.Allowed eff)
    (hopen : eff.echoOpened = none) : (e.apply eff).EchoesOk := by
  refine ⟨h.table.of_kept ha hopen, ?_⟩
  rw [(icmpIdToIndex_apply hopen).1]
  exact h.complete.mono fun j id hown => (echoTable.holds_of_kept ha hopen).mp hown

theorem EchoesOk.apply {e : NatEngine} (h : e.EchoesOk) {eff : Effect} (ha : e.Allowed eff) :
    (e.apply eff).EchoesOk := by
  cases eff with
  | openIcmpSession key tick idx => exact h.openIcmpSession ha
  | _ => exact h.of_kept ha rfl

theorem echoesOk_new : new.EchoesOk where
  table :=
    { cursor := ⟨by decide, by decide⟩
      external := fun i hi => absurd hi Bool.false_ne_true
      seq := fun i => UInt32.zero_and
      index := fun k => .inl rfl }
  complete := fun i k hown => absurd hown.1 (by simp [new])

theorem EchoesOk.step {e : NatEngine} (h : e.EchoesOk) (op : Op) : (e.step op).EchoesOk := by
  rw [step_eq]
  exact h.apply (effect_allowed e op)

theorem EchoesOk.run {e : NatEngine} (h : e.EchoesOk) (ops : List Op) : (e.run ops).EchoesOk :=
  LabelledRun.invariant (I := EchoesOk) (fun _ op h => h.step op) ops h

/-! ## The reverse index -/

theorem port_index_partial_inverse (ops : List Op) :
    let e := new.run ops
    Ephemeral e.portCursor ∧
      (∀ i, (e.sessions i).active = true → Ephemeral (ntohs (e.sessions i).externalPort)) ∧
      (∀ i, (e.sessions i).seq &&& 1 = 0) ∧ (∀ i, (e.icmpSessions i).seq &&& 1 = 0) ∧
      (∀ port, 0 ≤ e.portToIndex port → ∃ i : Fin maxSessions, e.portToIndex port = (i : Nat) ∧
        (e.sessions i).active = true ∧ ntohs (e.sessions i).externalPort = port) ∧
      ∀ port port', 0 ≤ e.portToIndex port → e.portToIndex port = e.portToIndex port' →
        port = port' := by
  intro e
  have hflows : e.FlowsOk := flowsOk_new.run ops
  have hechoes : e.EchoesOk := echoesOk_new.run ops
  have hone (i : Fin maxSessions) (port port' : UInt16) (h : e.HoldsPort i port)
      (h' : e.HoldsPort i port') : port = port' := h.2.symm.trans h'.2
  exact ⟨hflows.cursor, hflows.ports, hflows.seq, hechoes.seq, fun port => hflows.index.slot,
    fun port port' => hflows.index.injOn hone⟩

end NatEngine
end Hpgtp
