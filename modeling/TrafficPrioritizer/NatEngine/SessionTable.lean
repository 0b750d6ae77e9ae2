import TrafficPrioritizer.NatEngine.Effect

/-! What a call can do to the session tables. The table of TCP and UDP and the table of ICMP echo
differ in their keys and in how a session gets its external number. What they have in common is
stated over a `SessionTable`, and the two are its instances. -/

namespace Hpgtp
open ReverseIndex

structure TableEntry (κ : Type) where
  seq : UInt32
  key : κ
  external : UInt16
  lastActiveTick : UInt32
  active : Bool

def NatSession.entry (s : NatSession) : TableEntry FlowKey :=
  ⟨s.seq, s.internalKey, s.externalPort, s.lastActiveTick, s.active⟩

def IcmpEchoSession.entry (s : IcmpEchoSession) : TableEntry EchoKey :=
  ⟨s.seq, s.key, s.extIdNbo, s.lastActiveTick, s.active⟩

namespace TableEntry
variable {κ : Type} {s : TableEntry κ} {tick : UInt32}

def reusable (s : TableEntry κ) (tick : UInt32) : Bool :=
  !s.active || tick - s.lastActiveTick > 300

def stamp (s : TableEntry κ) (tick : UInt32) : TableEntry κ := { s with lastActiveTick := tick }

theorem reusable_eq_false :
    s.reusable tick = false ↔ s.active = true ∧ (tick - s.lastActiveTick).toNat ≤ 300 := by
  simp [reusable, UInt32.le_iff_toNat_le]

/-- What a call at `now` leaves of the entry `s` when it writes the slot: either it opens a session
for `key`, or it refreshes the one that is there. -/
inductive Written (now : UInt32) (s : TableEntry κ) : Option κ → TableEntry κ → Prop
  | refreshed (active : s.active = true) : Written now s none (s.stamp now)
  | opened (reusable : s.reusable now = true) (key : κ) (external : UInt16) :
      Written now s (some key) ⟨s.seq + 1 + 1, key, external, now, true⟩
  -- no external number was left
  | failed {s' : TableEntry κ} (reusable : s.reusable now = true) (key : κ)
      (inactive : s'.active = false) (seq : s'.seq = s.seq + 1 + 1) : Written now s (some key) s'

end TableEntry

theorem NatSession.reusable_eq_false {s : NatSession} {tick : UInt32} :
    s.reusable tick = false ↔ s.active = true ∧ (tick - s.lastActiveTick).toNat ≤ 300 :=
  TableEntry.reusable_eq_false (s := s.entry)

theorem NatSession.active_of_live {s : NatSession} {tick : UInt32} (h : s.reusable tick = false) :
    s.active = true := (NatSession.reusable_eq_false.mp h).1

theorem IcmpEchoSession.reusable_eq_false {s : IcmpEchoSession} {tick : UInt32} :
    s.reusable tick = false ↔ s.active = true ∧ (tick - s.lastActiveTick).toNat ≤ 300 :=
  TableEntry.reusable_eq_false (s := s.entry)

theorem IcmpEchoSession.active_of_live {s : IcmpEchoSession} {tick : UInt32}
    (h : s.reusable tick = false) : s.active = true := (IcmpEchoSession.reusable_eq_false.mp h).1

namespace Effect

def flowSlot : Effect → Option (Fin maxSessions)
  | .openSession _ _ idx | .touchSession _ idx => some idx
  | _ => none

def echoSlot : Effect → Option (Fin maxIcmpSessions)
  | .openIcmpSession _ _ idx | .touchIcmpSession _ idx => some idx
  | _ => none

def flowOpened : Effect → Option FlowKey
  | .openSession key _ _ => some key
  | _ => none

def echoOpened : Effect → Option EchoKey
  | .openIcmpSession key _ _ => some key
  | _ => none

end Effect

namespace NatEngine

/-! ## What a call can do -/

inductive EffectOf (e : NatEngine) : Op → Effect → Prop
  | skip (op : Op) : EffectOf e op .skip
  | openFlow {pkt : ParsedPacket} {key : FlowKey} {a : Fin 32} (wan : e.wanIp.raw ≠ 0)
      (sent : pkt.flowKey = some key)
      (reusable : (e.sessions (probeSlot key a)).reusable e.currentTick = true)
      (first : ∀ b < a, e.slotEffect key e.currentTick (probeSlot key b) = none) :
      EffectOf e (.outbound pkt) (.openSession key e.currentTick (probeSlot key a))
  | touchFlow {pkt : ParsedPacket} {key : FlowKey} {a : Fin 32} (wan : e.wanIp.raw ≠ 0)
      (sent : pkt.flowKey = some key)
      (live : (e.sessions (probeSlot key a)).reusable e.currentTick = false)
      (same : (e.sessions (probeSlot key a)).internalKey = key)
      (first : ∀ b < a, e.slotEffect key e.currentTick (probeSlot key b) = none) :
      EffectOf e (.outbound pkt) (.touchSession e.currentTick (probeSlot key a))
  | openEcho {pkt : ParsedPacket} {key : EchoKey} {a : Fin 32} (wan : e.wanIp.raw ≠ 0)
      (sent : pkt.echoKey 8 = some key)
      (reusable : (e.icmpSessions (probeIcmpSlot key a)).reusable e.currentTick = true)
      (first : ∀ b < a, e.icmpSlotEffect key e.currentTick (probeIcmpSlot key b) = none) :
      EffectOf e (.outbound pkt) (.openIcmpSession key e.currentTick (probeIcmpSlot key a))
  | touchEcho {pkt : ParsedPacket} {key : EchoKey} {a : Fin 32} (wan : e.wanIp.raw ≠ 0)
      (sent : pkt.echoKey 8 = some key)
      (live : (e.icmpSessions (probeIcmpSlot key a)).reusable e.currentTick = false)
      (same : (e.icmpSessions (probeIcmpSlot key a)).key = key)
      (first : ∀ b < a, e.icmpSlotEffect key e.currentTick (probeIcmpSlot key b) = none) :
      EffectOf e (.outbound pkt) (.touchIcmpSession e.currentTick (probeIcmpSlot key a))
  | acceptFlow {pkt : ParsedPacket} {k : FlowKey} {i : Fin maxSessions}
      (received : pkt.flowKey = some k) (accepted : e.acceptSlot k = some i) :
      EffectOf e (.inbound pkt) (.touchSession e.currentTick i)
  | acceptEcho {pkt : ParsedPacket} {k : EchoKey} {i : Fin maxIcmpSessions}
      (received : pkt.echoKey 0 = some k) (accepted : e.acceptIcmpSlot k = some i) :
      EffectOf e (.inbound pkt) (.touchIcmpSession e.currentTick i)
  | advance : EffectOf e .tick .advance
  | setWanIp (ip : IPv4Net) : EffectOf e (.setWanIp ip) (.setWanIp ip)

theorem effectOf_outbound (e : NatEngine) (pkt : ParsedPacket) :
    EffectOf e (.outbound pkt) (e.outboundEffect pkt) := by
  unfold outboundEffect
  split_ifs with hw
  · exact .skip _
  split
  · rename_i key hk
    cases hf : e.flowEffect key e.currentTick with
    | none => exact .skip _
    | some eff =>
      obtain ⟨a, ha, hfirst⟩ := flowEffect_eq_some.mp hf
      obtain ⟨hr, rfl⟩ | ⟨hr, hsame, rfl⟩ := slotEffect_eq_some ha
      · exact .openFlow hw hk hr hfirst
      · exact .touchFlow hw hk hr hsame hfirst
  · rename_i key hk hk8
    cases hf : e.echoEffect key e.currentTick with
    | none => exact .skip _
    | some eff =>
      obtain ⟨a, ha, hfirst⟩ := echoEffect_eq_some.mp hf
      obtain ⟨hr, rfl⟩ | ⟨hr, hsame, rfl⟩ := icmpSlotEffect_eq_some ha
      · exact .openEcho hw hk8 hr hfirst
      · exact .touchEcho hw hk8 hr hsame hfirst
  · exact .skip _

theorem effectOf_inbound (e : NatEngine) (pkt : ParsedPacket) :
    EffectOf e (.inbound pkt) (e.inboundEffect pkt) := by
  unfold inboundEffect
  split
  · rename_i k hk
    cases hs : e.acceptSlot k with
    | none => exact .skip _
    | some i => exact .acceptFlow hk hs
  · rename_i k hk hk0
    cases hs : e.acceptIcmpSlot k with
    | none => exact .skip _
    | some i => exact .acceptEcho hk0 hs
  · exact .skip _

theorem effectOf (e : NatEngine) (op : Op) : EffectOf e op (e.effect op) := by
  cases op with
  | outbound pkt => exact effectOf_outbound e pkt
  | inbound pkt => exact effectOf_inbound e pkt
  | tick => exact .advance
  | setWanIp ip => exact .setWanIp ip

/-- A call stamps with the current tick, opens only reusable slots of the key's chain and
refreshes only active sessions. -/
def Allowed (e : NatEngine) : Effect → Prop
  | .openSession key tick idx => tick = e.currentTick ∧ (e.sessions idx).reusable tick = true ∧
      ∃ a, probeSlot key a = idx
  | .touchSession tick idx => tick = e.currentTick ∧ (e.sessions idx).active = true
  | .openIcmpSession _ tick idx => tick = e.currentTick ∧ (e.icmpSessions idx).reusable tick = true
  | .touchIcmpSession tick idx => tick = e.currentTick ∧ (e.icmpSessions idx).active = true
  | _ => True

theorem EffectOf.allowed {e : NatEngine} {op : Op} {eff : Effect} (h : EffectOf e op eff) :
    e.Allowed eff := by
  cases h with
  | openFlow _ _ hr _ => exact ⟨rfl, hr, _, rfl⟩
  | touchFlow _ _ hlive _ _ => exact ⟨rfl, NatSession.active_of_live hlive⟩
  | openEcho _ _ hr _ => exact ⟨rfl, hr⟩
  | touchEcho _ _ hlive _ _ => exact ⟨rfl, IcmpEchoSession.active_of_live hlive⟩
  | acceptFlow _ hacc => exact ⟨rfl, (acceptSlot_eq_some.mp hacc).2.2.2.1⟩
  | acceptEcho _ hacc => exact ⟨rfl, (acceptIcmpSlot_eq_some.mp hacc).2.2.2.1⟩
  | _ => trivial

theorem effect_allowed (e : NatEngine) (op : Op) : e.Allowed (e.effect op) := (effectOf e op).allowed

theorem slotEffect_allowed {e : NatEngine} {key : FlowKey} {tick : UInt32} {a : Fin 32}
    {eff : Effect} (htick : tick = e.currentTick)
    (h : e.slotEffect key tick (probeSlot key a) = some eff) : e.Allowed eff := by
  obtain ⟨hr, rfl⟩ | ⟨hr, -, rfl⟩ := slotEffect_eq_some h
  · exact ⟨htick, hr, a, rfl⟩
  · exact ⟨htick, NatSession.active_of_live hr⟩

theorem icmpSlotEffect_allowed {e : NatEngine} {key : EchoKey} {tick : UInt32}
    {idx : Fin maxIcmpSessions} {eff : Effect} (htick : tick = e.currentTick)
    (h : e.icmpSlotEffect key tick idx = some eff) : e.Allowed eff := by
  obtain ⟨hr, rfl⟩ | ⟨hr, -, rfl⟩ := icmpSlotEffect_eq_some h
  · exact ⟨htick, hr⟩
  · exact ⟨htick, IcmpEchoSession.active_of_live hr⟩

def OpensSession (e : NatEngine) (pkt : ParsedPacket) : Prop :=
  e.wanIp.raw ≠ 0 ∧ ∃ key, pkt.flowKey = some key ∧
    ∃ a, (e.sessions (probeSlot key a)).reusable e.currentTick = true ∧
      ∀ b < a, (e.sessions (probeSlot key b)).reusable e.currentTick = false ∧
        (e.sessions (probeSlot key b)).internalKey ≠ key

theorem OpensSession.effect {e : NatEngine} {pkt : ParsedPacket} (h : e.OpensSession pkt) :
    ∃ key idx, pkt.flowKey = some key ∧
      e.outboundEffect pkt = .openSession key e.currentTick idx := by
  obtain ⟨hw, key, hkey, a, hr, hfirst⟩ := h
  have hf : e.flowEffect key e.currentTick = some (.openSession key e.currentTick (probeSlot key a)) :=
    flowEffect_eq_some.mpr
      ⟨a, slotEffect_of_reusable hr, fun b hb => slotEffect_eq_none.mpr (hfirst b hb)⟩
  refine ⟨key, probeSlot key a, hkey, ?_⟩
  simp only [outboundEffect, if_neg hw, hkey, hf, Option.getD_some]

theorem effect_eq_advance {e : NatEngine} {op : Op} : e.effect op = .advance ↔ op = .tick := by
  refine ⟨fun h => ?_, fun h => h ▸ rfl⟩
  have heff := effectOf e op
  rw [h] at heff
  cases heff
  rfl

theorem effect_eq_setWanIp {e : NatEngine} {op : Op} {ip : IPv4Net} :
    e.effect op = .setWanIp ip ↔ op = .setWanIp ip := by
  refine ⟨fun h => ?_, fun h => h ▸ rfl⟩
  have heff := effectOf e op
  rw [h] at heff
  cases heff
  rfl

/-! ## What each operation leaves alone -/

section
variable (e : NatEngine) (key : FlowKey) (tick : UInt32) (idx : Fin maxSessions)
  (eidx : Fin maxIcmpSessions)

theorem openSession_sessions : (e.openSession key tick idx).sessions =
    Function.update e.sessions idx
      { seq := (e.sessions idx).seq + 1 + 1, internalKey := key,
        externalPort := htons e.portCursor, lastActiveTick := tick, active := true } := rfl

theorem touchSession_sessions : (e.touchSession tick idx).sessions =
    Function.update e.sessions idx ((e.sessions idx).stamp tick) := rfl

theorem touchIcmpSession_icmpSessions : (e.touchIcmpSession tick eidx).icmpSessions =
    Function.update e.icmpSessions eidx ((e.icmpSessions eidx).stamp tick) := rfl

theorem openSession_portToIndex : (e.openSession key tick idx).portToIndex =
    Function.update
      (if (e.sessions idx).active then
        casIndex e.portToIndex (ntohs (e.sessions idx).externalPort) (idx : Nat) (-1)
      else e.portToIndex) e.portCursor (idx : Nat) := by
  unfold openSession
  simp only [ntohs_htons]

end

structure EchoOnly (e e' : NatEngine) : Prop where
  sessions : e'.sessions = e.sessions
  portToIndex : e'.portToIndex = e.portToIndex
  portCursor : e'.portCursor = e.portCursor
  wanIp : e'.wanIp = e.wanIp
  currentTick : e'.currentTick = e.currentTick

theorem EchoOnly.trans {e e' e'' : NatEngine} (h : EchoOnly e e') (h' : EchoOnly e' e'') :
    EchoOnly e e'' where
  sessions := h'.sessions.trans h.sessions
  portToIndex := h'.portToIndex.trans h.portToIndex
  portCursor := h'.portCursor.trans h.portCursor
  wanIp := h'.wanIp.trans h.wanIp
  currentTick := h'.currentTick.trans h.currentTick

theorem allocLoop_frame (n : Nat) (e : NatEngine) :
    EchoOnly e (allocLoop n e).2 ∧ (allocLoop n e).2.icmpSessions = e.icmpSessions := by
  induction n generalizing e with
  | zero => exact ⟨⟨rfl, rfl, rfl, rfl, rfl⟩, rfl⟩
  | succ n ih =>
    have hrec := ih { e with icmpIdCursor := nextCursor e.icmpIdCursor }
    have hrec' : EchoOnly e (allocLoop n { e with icmpIdCursor := nextCursor e.icmpIdCursor }).2 :=
      ⟨hrec.1.1, hrec.1.2, hrec.1.3, hrec.1.4, hrec.1.5⟩
    simp only [allocLoop]
    split_ifs
    · exact ⟨⟨rfl, rfl, rfl, rfl, rfl⟩, rfl⟩
    · split
      · split_ifs
        · exact ⟨⟨rfl, rfl, rfl, rfl, rfl⟩, rfl⟩
        · exact ⟨hrec', hrec.2⟩
      · exact ⟨hrec', hrec.2⟩

theorem releaseIcmpSlot_echoOnly (e : NatEngine) (idx : Fin maxIcmpSessions) :
    EchoOnly e (e.releaseIcmpSlot idx) := by
  simp only [releaseIcmpSlot]
  split_ifs <;> exact ⟨rfl, rfl, rfl, rfl, rfl⟩

theorem fillIcmpSlot_echoOnly (e : NatEngine) (key : EchoKey) (tick : UInt32)
    (idx : Fin maxIcmpSessions) (ext : UInt16) : EchoOnly e (e.fillIcmpSlot key tick idx ext).1 := by
  simp only [fillIcmpSlot]
  split_ifs <;> exact ⟨rfl, rfl, rfl, rfl, rfl⟩

theorem openIcmpSession_echoOnly (e : NatEngine) (key : EchoKey) (tick : UInt32)
    (idx : Fin maxIcmpSessions) : EchoOnly e (e.openIcmpSession key tick idx).1 :=
  ((releaseIcmpSlot_echoOnly e idx).trans (allocLoop_frame 512 (e.releaseIcmpSlot idx)).1).trans
    (fillIcmpSlot_echoOnly ..)

def SameFlows (e e' : NatEngine) : Prop :=
  e'.sessions = e.sessions ∧ e'.portToIndex = e.portToIndex ∧ e'.portCursor = e.portCursor

def SameEchoes (e e' : NatEngine) : Prop :=
  e'.icmpSessions = e.icmpSessions ∧ e'.icmpIdToIndex = e.icmpIdToIndex ∧
    e'.icmpIdCursor = e.icmpIdCursor

theorem sameFlows_apply (e : NatEngine) {eff : Effect} (h : eff.flowSlot = none) :
    SameFlows e (e.apply eff) := by
  cases eff with
  | openSession key tick idx => exact absurd h (Option.some_ne_none idx)
  | touchSession tick idx => exact absurd h (Option.some_ne_none idx)
  | openIcmpSession key tick idx =>
    have h := openIcmpSession_echoOnly e key tick idx
    exact ⟨h.sessions, h.portToIndex, h.portCursor⟩
  | _ => exact ⟨rfl, rfl, rfl⟩

theorem apply_wanIp (e : NatEngine) {eff : Effect} (h : ∀ ip, eff ≠ .setWanIp ip) :
    (e.apply eff).wanIp = e.wanIp := by
  cases eff with
  | setWanIp ip => exact absurd rfl (h ip)
  | openIcmpSession key tick idx => exact (openIcmpSession_echoOnly e key tick idx).wanIp
  | _ => rfl

theorem apply_currentTick (e : NatEngine) {eff : Effect} (h : eff ≠ .advance) :
    (e.apply eff).currentTick = e.currentTick := by
  cases eff with
  | advance => exact absurd rfl h
  | openIcmpSession key tick idx => exact (openIcmpSession_echoOnly e key tick idx).currentTick
  | _ => rfl

theorem step_wanIp (e : NatEngine) (op : Op) (h : ∀ ip, op ≠ .setWanIp ip) :
    (e.step op).wanIp = e.wanIp := by
  rw [step_eq]
  exact apply_wanIp e fun ip hip => h ip (effect_eq_setWanIp.mp hip)

theorem run_wanIp (e : NatEngine) {ops : List Op} (h : ∀ ip, Op.setWanIp ip ∉ ops) :
    (e.run ops).wanIp = e.wanIp := by
  induction ops generalizing e with
  | nil => rfl
  | cons op ops ih =>
    have hop : ∀ ip, op ≠ .setWanIp ip := fun ip hip => h ip (hip ▸ List.mem_cons_self ..)
    exact (ih (e.step op) fun ip hip => h ip (List.mem_cons_of_mem _ hip)).trans (step_wanIp e op hop)

theorem openSession_self (e : NatEngine) (key : FlowKey) (tick : UInt32) (idx : Fin maxSessions) :
    (e.openSession key tick idx).sessions idx =
      { seq := (e.sessions idx).seq + 1 + 1, internalKey := key,
        externalPort := htons e.portCursor, lastActiveTick := tick, active := true } := by
  rw [openSession_sessions, Function.update_self]

theorem openSession_of_ne (e : NatEngine) (key : FlowKey) (tick : UInt32)
    {idx j : Fin maxSessions} (h : j ≠ idx) :
    (e.openSession key tick idx).sessions j = e.sessions j := by
  rw [openSession_sessions, Function.update_of_ne h]

theorem touchSession_self (e : NatEngine) (tick : UInt32) (idx : Fin maxSessions) :
    (e.touchSession tick idx).sessions idx = (e.sessions idx).stamp tick := by
  rw [touchSession_sessions, Function.update_self]

theorem touchSession_of_ne (e : NatEngine) (tick : UInt32) {idx j : Fin maxSessions}
    (h : j ≠ idx) : (e.touchSession tick idx).sessions j = e.sessions j := by
  rw [touchSession_sessions, Function.update_of_ne h]

theorem touchSession_eq (e : NatEngine) (tick : UInt32) (idx j : Fin maxSessions) :
    (e.touchSession tick idx).sessions j =
      (e.sessions j).stamp ((e.touchSession tick idx).sessions j).lastActiveTick := by
  by_cases h : j = idx
  · subst h
    rw [touchSession_self]
    rfl
  · rw [touchSession_of_ne e tick h]
    rfl

theorem releaseIcmpSlot_of_ne (e : NatEngine) {idx j : Fin maxIcmpSessions} (h : j ≠ idx) :
    (e.releaseIcmpSlot idx).icmpSessions j = e.icmpSessions j := by
  simp only [releaseIcmpSlot]
  split_ifs <;> simp only [setIcmpSession, Function.update_of_ne h]

theorem releaseIcmpSlot_self (e : NatEngine) (idx : Fin maxIcmpSessions) :
    ((e.releaseIcmpSlot idx).icmpSessions idx).active = false ∧
      ((e.releaseIcmpSlot idx).icmpSessions idx).seq = (e.icmpSessions idx).seq + 1 := by
  simp only [releaseIcmpSlot]
  split_ifs with hact
  · simp only [setIcmpSession, Function.update_self, and_self]
  · simp only [setIcmpSession, Function.update_self, and_true]
    simpa using hact

theorem fillIcmpSlot_of_ne (e : NatEngine) (key : EchoKey) (tick : UInt32)
    {idx j : Fin maxIcmpSessions} (ext : UInt16) (h : j ≠ idx) :
    (e.fillIcmpSlot key tick idx ext).1.icmpSessions j = e.icmpSessions j := by
  simp only [fillIcmpSlot]
  split_ifs <;> simp only [setIcmpSession, Function.update_of_ne h]

theorem openIcmpSession_of_ne (e : NatEngine) (key : EchoKey) (tick : UInt32)
    {idx j : Fin maxIcmpSessions} (h : j ≠ idx) :
    (e.openIcmpSession key tick idx).1.icmpSessions j = e.icmpSessions j :=
  calc (e.openIcmpSession key tick idx).1.icmpSessions j
      = (allocLoop 512 (e.releaseIcmpSlot idx)).2.icmpSessions j := fillIcmpSlot_of_ne _ _ _ _ h
    _ = (e.releaseIcmpSlot idx).icmpSessions j := by rw [(allocLoop_frame ..).2]
    _ = e.icmpSessions j := releaseIcmpSlot_of_ne e h

theorem fillIcmpSlot_snd (e : NatEngine) (key : EchoKey) (tick : UInt32)
    (idx : Fin maxIcmpSessions) (ext : UInt16) : (e.fillIcmpSlot key tick idx ext).2 = ext := by
  simp only [fillIcmpSlot]
  split_ifs with h
  · exact h.symm
  · rfl

theorem openIcmpSession_snd (e : NatEngine) (key : EchoKey) (tick : UInt32)
    (idx : Fin maxIcmpSessions) :
    (e.openIcmpSession key tick idx).2 = (allocLoop 512 (e.releaseIcmpSlot idx)).1 :=
  fillIcmpSlot_snd ..

theorem openIcmpSession_self (e : NatEngine) (key : EchoKey) (tick : UInt32)
    (idx : Fin maxIcmpSessions) (h : (e.openIcmpSession key tick idx).2 ≠ 0) :
    (e.openIcmpSession key tick idx).1.icmpSessions idx =
      { seq := (e.icmpSessions idx).seq + 1 + 1, intSaddr := key.saddr, remoteDaddr := key.daddr,
        intIdNbo := key.idNbo, extIdNbo := (e.openIcmpSession key tick idx).2,
        lastActiveTick := tick, active := true } := by
  rw [openIcmpSession_snd] at h ⊢
  simp only [openIcmpSession, allocExternalIcmpId, fillIcmpSlot, if_neg h, setIcmpSession,
    Function.update_self, (allocLoop_frame 512 (e.releaseIcmpSlot idx)).2, releaseIcmpSlot_self]

theorem openIcmpSession_failed (e : NatEngine) (key : EchoKey) (tick : UInt32)
    (idx : Fin maxIcmpSessions) (h : (e.openIcmpSession key tick idx).2 = 0) :
    ((e.openIcmpSession key tick idx).1.icmpSessions idx).active = false ∧
      ((e.openIcmpSession key tick idx).1.icmpSessions idx).seq =
        (e.icmpSessions idx).seq + 1 + 1 := by
  rw [openIcmpSession_snd] at h
  simp only [openIcmpSession, allocExternalIcmpId, fillIcmpSlot, if_pos h, setIcmpSession,
    Function.update_self, (allocLoop_frame 512 (e.releaseIcmpSlot idx)).2, releaseIcmpSlot_self,
    and_self]

theorem touchIcmpSession_self (e : NatEngine) (tick : UInt32) (idx : Fin maxIcmpSessions) :
    (e.touchIcmpSession tick idx).icmpSessions idx = (e.icmpSessions idx).stamp tick := by
  rw [touchIcmpSession_icmpSessions, Function.update_self]

theorem touchIcmpSession_of_ne (e : NatEngine) (tick : UInt32) {idx j : Fin maxIcmpSessions}
    (h : j ≠ idx) : (e.touchIcmpSession tick idx).icmpSessions j = e.icmpSessions j := by
  rw [touchIcmpSession_icmpSessions, Function.update_of_ne h]

/-! ## Either table -/

theorem sessions_apply_of_ne {e : NatEngine} {eff : Effect} {i : Fin maxSessions}
    (h : eff.flowSlot ≠ some i) : (e.apply eff).sessions i = e.sessions i := by
  cases eff with
  | openSession key tick idx => exact openSession_of_ne e key tick fun hi => h (hi ▸ rfl)
  | touchSession tick idx => exact touchSession_of_ne e tick fun hi => h (hi ▸ rfl)
  | _ => exact congrFun (sameFlows_apply e rfl).1 i

theorem icmpSessions_apply_of_ne {e : NatEngine} {eff : Effect} {i : Fin maxIcmpSessions}
    (h : eff.echoSlot ≠ some i) : (e.apply eff).icmpSessions i = e.icmpSessions i := by
  cases eff with
  | openIcmpSession key tick idx => exact openIcmpSession_of_ne e key tick fun hi => h (hi ▸ rfl)
  | touchIcmpSession tick idx => exact touchIcmpSession_of_ne e tick fun hi => h (hi ▸ rfl)
  | _ => rfl

theorem portToIndex_apply {e : NatEngine} {eff : Effect} (h : eff.flowOpened = none) :
    (e.apply eff).portToIndex = e.portToIndex ∧ (e.apply eff).portCursor = e.portCursor := by
  cases eff with
  | openSession key tick idx => exact absurd h (Option.some_ne_none key)
  | touchSession tick idx => exact ⟨rfl, rfl⟩
  | _ => exact (sameFlows_apply e rfl).2

theorem icmpIdToIndex_apply {e : NatEngine} {eff : Effect} (h : eff.echoOpened = none) :
    (e.apply eff).icmpIdToIndex = e.icmpIdToIndex ∧
      (e.apply eff).icmpIdCursor = e.icmpIdCursor := by
  cases eff with
  | openIcmpSession key tick idx => exact absurd h (Option.some_ne_none key)
  | _ => exact ⟨rfl, rfl⟩

theorem Allowed.writes_session {e : NatEngine} {eff : Effect} {i : Fin maxSessions}
    (ha : e.Allowed eff) (h : eff.flowSlot = some i) :
    (e.sessions i).entry.Written e.currentTick eff.flowOpened
      ((e.apply eff).sessions i).entry := by
  cases eff with
  | openSession key tick idx =>
    obtain rfl : idx = i := Option.some.inj h
    obtain ⟨rfl, hr, -⟩ := ha
    replace hr : (e.sessions idx).entry.reusable e.currentTick = true := hr
    rw [apply, openSession_self]
    exact .opened hr key _
  | touchSession tick idx =>
    obtain rfl : idx = i := Option.some.inj h
    obtain ⟨rfl, hact⟩ := ha
    rw [apply, touchSession_self]
    exact .refreshed hact
  | _ => exact absurd h (Option.some_ne_none i).symm

theorem Allowed.writes_icmpSession {e : NatEngine} {eff : Effect} {i : Fin maxIcmpSessions}
    (ha : e.Allowed eff) (h : eff.echoSlot = some i) :
    (e.icmpSessions i).entry.Written e.currentTick eff.echoOpened
      ((e.apply eff).icmpSessions i).entry := by
  cases eff with
  | openIcmpSession key tick idx =>
    obtain rfl : idx = i := Option.some.inj h
    obtain ⟨rfl, hr⟩ := ha
    replace hr : (e.icmpSessions idx).entry.reusable e.currentTick = true := hr
    rw [apply]
    by_cases hext : (e.openIcmpSession key e.currentTick idx).2 = 0
    · obtain ⟨hoff, hseq⟩ := openIcmpSession_failed e key e.currentTick idx hext
      exact .failed hr key hoff hseq
    · rw [openIcmpSession_self e key e.currentTick idx hext]
      exact .opened hr key _
  | touchIcmpSession tick idx =>
    obtain rfl : idx = i := Option.some.inj h
    obtain ⟨rfl, hact⟩ := ha
    rw [apply, touchIcmpSession_self]
    exact .refreshed hact
  | _ => exact absurd h (Option.some_ne_none i).symm

theorem entry_of_slotEffect {e : NatEngine} {key : FlowKey} {idx : Fin maxSessions} {eff : Effect}
    (h : e.slotEffect key e.currentTick idx = some eff) :
    ∃ seq, ((e.apply eff).sessions idx).entry =
      ⟨seq, key, e.external eff, e.currentTick, true⟩ := by
  obtain ⟨-, rfl⟩ | ⟨hr, rfl, rfl⟩ := slotEffect_eq_some h
  · exact ⟨_, congrArg NatSession.entry (openSession_self ..)⟩
  · refine ⟨(e.sessions idx).seq, ?_⟩
    rw [apply, touchSession_self, ← NatSession.active_of_live hr]
    rfl

theorem entry_of_icmpSlotEffect {e : NatEngine} {key : EchoKey} {idx : Fin maxIcmpSessions}
    {eff : Effect} (h : e.icmpSlotEffect key e.currentTick idx = some eff)
    (hext : e.external eff ≠ 0) :
    ∃ seq, ((e.apply eff).icmpSessions idx).entry =
      ⟨seq, key, e.external eff, e.currentTick, true⟩ := by
  obtain ⟨-, rfl⟩ | ⟨hr, rfl, rfl⟩ := icmpSlotEffect_eq_some h
  · exact ⟨_, congrArg IcmpEchoSession.entry (openIcmpSession_self e _ _ _ hext)⟩
  · refine ⟨(e.icmpSessions idx).seq, ?_⟩
    rw [apply, touchIcmpSession_self, ← IcmpEchoSession.active_of_live hr]
    rfl

theorem session_of_translated {e : NatEngine} {pkt : ParsedPacket} {key : FlowKey}
    (hkey : pkt.flowKey = some key) (h : (e.processOutbound pkt).translated = true) :
    ∃ i seq port, ((e.processOutbound pkt).engine.sessions i).entry =
        ⟨seq, key, port, e.currentTick, true⟩ ∧
      (e.processOutbound pkt).packet.sourcePort = some port := by
  obtain ⟨ip, v, hports, rfl⟩ := ParsedPacket.flowKey_eq_some.mp hkey
  have hw : e.wanIp.raw ≠ 0 := fun hw => by simp [processOutbound_of_wan hw] at h
  rw [processOutbound_of_ports hw hports] at h ⊢
  cases heff : e.flowEffect (pkt.keyAt ip v) e.currentTick with
  | none => simp [heff, finishOutbound] at h
  | some eff =>
    have hext : e.external eff ≠ 0 := fun hext => by simp [heff, finishOutbound, hext] at h
    simp only [finishOutbound, if_neg hext]
    obtain ⟨a, ha, -⟩ := flowEffect_eq_some.mp heff
    obtain ⟨seq, hentry⟩ := entry_of_slotEffect ha
    exact ⟨_, seq, _, hentry, ParsedPacket.sourcePort_rewriteSource hports _ _⟩

theorem icmpSession_of_translated {e : NatEngine} {pkt : ParsedPacket} {key : EchoKey}
    (hkey : pkt.echoKey 8 = some key) (h : (e.processOutbound pkt).translated = true) :
    ∃ i seq id, ((e.processOutbound pkt).engine.icmpSessions i).entry =
        ⟨seq, key, id, e.currentTick, true⟩ ∧
      (e.processOutbound pkt).packet.echoId = some id := by
  obtain ⟨ip, icmp, hecho, rfl⟩ := ParsedPacket.echoKey_eq_some.mp hkey
  have hicmp := ParsedPacket.icmpEcho_of_echoView (ParsedPacket.echo_eq_some.mp hecho).2.2
  have hw : e.wanIp.raw ≠ 0 := fun hw => by simp [processOutbound_of_wan hw] at h
  rw [processOutbound_of_echo hw hecho] at h ⊢
  cases heff : e.echoEffect (pkt.echoKeyAt ip icmp) e.currentTick with
  | none => simp [heff, finishOutbound] at h
  | some eff =>
    have hext : e.external eff ≠ 0 := fun hext => by simp [heff, finishOutbound, hext] at h
    simp only [finishOutbound, if_neg hext]
    obtain ⟨a, ha, -⟩ := echoEffect_eq_some.mp heff
    obtain ⟨seq, hentry⟩ := entry_of_icmpSlotEffect ha hext
    exact ⟨_, seq, _, hentry, ParsedPacket.echoId_rewriteEchoSource hicmp _ _⟩

theorem EffectOf.sent_flow {e : NatEngine} {op : Op} {eff : Effect} {key : FlowKey}
    {i : Fin maxSessions} (h : EffectOf e op eff) (hopen : eff.flowOpened = some key)
    (hslot : eff.flowSlot = some i) (hext : ((e.apply eff).sessions i).externalPort ≠ 0) :
    ∃ pkt, op = .outbound pkt ∧ pkt.flowKey = some key ∧
      (e.processOutbound pkt).translated = true ∧
      (e.processOutbound pkt).packet.sourcePort = some ((e.apply eff).sessions i).externalPort := by
  cases h with
  | @openFlow pkt key' a hw hkey hr hfirst =>
    obtain rfl : key' = key := Option.some.inj hopen
    obtain rfl : probeSlot key' a = i := Option.some.inj hslot
    have hself : ((e.apply (.openSession key' e.currentTick (probeSlot key' a))).sessions
        (probeSlot key' a)).externalPort = htons e.portCursor :=
      congrArg NatSession.externalPort (openSession_self ..)
    rw [hself] at hext ⊢
    exact ⟨pkt, rfl, hkey, processOutbound_of_flowEffect hw hkey
      (flowEffect_eq_some.mpr ⟨a, slotEffect_of_reusable hr, hfirst⟩) hext⟩
  | _ => exact absurd hopen (Option.some_ne_none key).symm

theorem EffectOf.sent_echo {e : NatEngine} {op : Op} {eff : Effect} {key : EchoKey}
    {i : Fin maxIcmpSessions} (h : EffectOf e op eff) (hopen : eff.echoOpened = some key)
    (hslot : eff.echoSlot = some i) (hact : ((e.apply eff).icmpSessions i).active = true) :
    ∃ pkt, op = .outbound pkt ∧ pkt.echoKey 8 = some key ∧
      (e.processOutbound pkt).translated = true ∧
      (e.processOutbound pkt).packet.echoId = some ((e.apply eff).icmpSessions i).extIdNbo := by
  cases h with
  | @openEcho pkt key' a hw hkey hr hfirst =>
    obtain rfl : key' = key := Option.some.inj hopen
    obtain rfl : probeIcmpSlot key' a = i := Option.some.inj hslot
    have hext : (e.openIcmpSession key' e.currentTick (probeIcmpSlot key' a)).2 ≠ 0 := by
      intro hzero
      have hoff := (openIcmpSession_failed e key' e.currentTick _ hzero).1
      exact absurd (hact.symm.trans hoff) (by decide)
    have hself :
        ((e.apply (.openIcmpSession key' e.currentTick (probeIcmpSlot key' a))).icmpSessions
          (probeIcmpSlot key' a)).extIdNbo = _ :=
      congrArg IcmpEchoSession.extIdNbo (openIcmpSession_self e key' _ _ hext)
    rw [hself]
    exact ⟨pkt, rfl, hkey, processOutbound_of_echoEffect hw hkey
      (echoEffect_eq_some.mpr ⟨a, if_pos hr, hfirst⟩) hext⟩
  | _ => exact absurd hopen (Option.some_ne_none key).symm

end NatEngine

structure SessionTable (n : ℕ) (κ : Type) where
  entry : NatEngine → Fin n → TableEntry κ
  index : NatEngine → UInt16 → Int
  cursor : NatEngine → UInt16
  target : Effect → Option (Fin n)
  /-- The key that an effect opens a session for. -/
  opens : Effect → Option κ
  keyOf : ParsedPacket → Option κ
  /-- The external number in a packet that was translated. -/
  given : ParsedPacket → Option UInt16
  clock : target .advance = none
  frame : ∀ {e : NatEngine} {eff i}, target eff ≠ some i → entry (e.apply eff) i = entry e i
  kept : ∀ {e : NatEngine} {eff}, opens eff = none →
    index (e.apply eff) = index e ∧ cursor (e.apply eff) = cursor e
  written : ∀ {e : NatEngine} {eff i}, e.Allowed eff → target eff = some i →
    (entry e i).Written e.currentTick (opens eff) (entry (e.apply eff) i)
  found : ∀ {e : NatEngine} {pkt key}, keyOf pkt = some key →
    (e.processOutbound pkt).translated = true →
    ∃ i seq ext, entry (e.processOutbound pkt).engine i = ⟨seq, key, ext, e.currentTick, true⟩ ∧
      given (e.processOutbound pkt).packet = some ext
  sent : ∀ {e : NatEngine} {op eff key i}, NatEngine.EffectOf e op eff → opens eff = some key →
    target eff = some i → (entry (e.apply eff) i).active = true →
    (entry (e.apply eff) i).external ≠ 0 →
    ∃ pkt, op = .outbound pkt ∧ keyOf pkt = some key ∧
      (e.processOutbound pkt).translated = true ∧
      given (e.processOutbound pkt).packet = some (entry (e.apply eff) i).external

open NatEngine

def flowTable : SessionTable maxSessions FlowKey where
  entry e i := (e.sessions i).entry
  index := NatEngine.portToIndex
  cursor := NatEngine.portCursor
  target := Effect.flowSlot
  opens := Effect.flowOpened
  keyOf := ParsedPacket.flowKey
  given := ParsedPacket.sourcePort
  clock := rfl
  frame h := congrArg NatSession.entry (sessions_apply_of_ne h)
  kept := portToIndex_apply
  written := Allowed.writes_session
  found := session_of_translated
  sent h hopen hslot _ hext := h.sent_flow hopen hslot hext

def echoTable : SessionTable maxIcmpSessions EchoKey where
  entry e i := (e.icmpSessions i).entry
  index := NatEngine.icmpIdToIndex
  cursor := NatEngine.icmpIdCursor
  target := Effect.echoSlot
  opens := Effect.echoOpened
  keyOf pkt := pkt.echoKey 8
  given := ParsedPacket.echoId
  clock := rfl
  frame h := congrArg IcmpEchoSession.entry (icmpSessions_apply_of_ne h)
  kept := icmpIdToIndex_apply
  written := Allowed.writes_icmpSession
  found := icmpSession_of_translated
  sent h hopen hslot hact _ := h.sent_echo hopen hslot hact

end Hpgtp
