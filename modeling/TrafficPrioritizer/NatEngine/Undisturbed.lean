import TrafficPrioritizer.NatEngine.Accesses
import TrafficPrioritizer.NatEngine.Effect
import Mathlib.Data.List.FinRange

/-! A call whose accesses no other thread comes between does to the memory what it does to the
engine as one whole step. So the runs of the engine, call after call, are among the
interleavings. -/

namespace Hpgtp
open ByteBuffer ReverseIndex SharedMemory Seqlock

namespace NatThread

/-! ## Single accesses to the memory of an engine -/

section
variable (e : NatEngine)

def pokeFlow {i : Fin maxSessions} (sess : NatSession) :
    (f : SlotField FlowDatum) → NatVal (.slot (.flow i) f) → NatSession
  | .seq, v => { sess with seq := v }
  | .datum .saddr, v => { sess with internalKey := { sess.internalKey with saddr := v } }
  | .datum .daddr, v => { sess with internalKey := { sess.internalKey with daddr := v } }
  | .datum .sport, v => { sess with internalKey := { sess.internalKey with sport := v } }
  | .datum .dport, v => { sess with internalKey := { sess.internalKey with dport := v } }
  | .datum .externalPort, v => { sess with externalPort := v }
  | .active, v => { sess with active := v }
  | .stamp, v => sess.stamp v

def pokeEcho {i : Fin maxIcmpSessions} (sess : IcmpEchoSession) :
    (f : SlotField EchoDatum) → NatVal (.slot (.echo i) f) → IcmpEchoSession
  | .seq, v => { sess with seq := v }
  | .datum .intSaddr, v => { sess with intSaddr := v }
  | .datum .remoteDaddr, v => { sess with remoteDaddr := v }
  | .datum .intIdNbo, v => { sess with intIdNbo := v }
  | .datum .extIdNbo, v => { sess with extIdNbo := v }
  | .active, v => { sess with active := v }
  | .stamp, v => sess.stamp v

def pokeVar : (o : NatVar) → o.Val → NatEngine
  | .index .port n, v => { e with portToIndex := Function.update e.portToIndex n v }
  | .index .icmpId n, v => { e with icmpIdToIndex := Function.update e.icmpIdToIndex n v }
  | .cursor .port, v => { e with portCursor := v }
  | .cursor .icmpId, v => { e with icmpIdCursor := v }
  | .wanIp, v => e.setWanIp v
  | .currentTick, v => { e with currentTick := v }

def setSession (idx : Fin maxSessions) (sess : NatSession) : NatEngine :=
  { e with sessions := Function.update e.sessions idx sess }

def poke : (c : Cell Session.Datum NatVar) → NatVal c → NatEngine
  | .slot (.flow i) f, v => setSession e i (pokeFlow (i := i) (e.sessions i) f v)
  | .slot (.echo i) f, v => e.setIcmpSession i (pokeEcho (i := i) (e.icmpSessions i) f v)
  | .other o, v => pokeVar e o v

theorem flowMem_pokeFlow {i : Fin maxSessions} (sess : NatSession) (f : SlotField FlowDatum)
    (v : NatVal (.slot (.flow i) f)) :
    flowMem (i := i) (pokeFlow (i := i) sess f v) =
      Function.update (flowMem (i := i) sess) f v := by
  funext g
  rcases f with _ | ⟨_ | _ | _ | _ | _⟩ | _ | _ <;>
    rcases g with _ | ⟨_ | _ | _ | _ | _⟩ | _ | _ <;> rfl

theorem echoMem_pokeEcho {i : Fin maxIcmpSessions} (sess : IcmpEchoSession)
    (f : SlotField EchoDatum) (v : NatVal (.slot (.echo i) f)) :
    echoMem (i := i) (pokeEcho (i := i) sess f v) =
      Function.update (echoMem (i := i) sess) f v := by
  funext g
  rcases f with _ | ⟨_ | _ | _ | _⟩ | _ | _ <;> rcases g with _ | ⟨_ | _ | _ | _⟩ | _ | _ <;> rfl

theorem varMem_pokeVar (o : NatVar) (v : o.Val) :
    varMem (pokeVar e o v) = Function.update (varMem e) o v := by
  funext p
  by_cases hp : p = o
  · subst hp
    rw [Function.update_self]
    rcases p with ⟨_ | _, n⟩ | ⟨_ | _⟩ | _ | _
    · exact Function.update_self ..
    · exact Function.update_self ..
    all_goals rfl
  · rw [Function.update_of_ne hp]
    rcases o with ⟨_ | _, n⟩ | ⟨_ | _⟩ | _ | _ <;>
      rcases p with ⟨_ | _, k⟩ | ⟨_ | _⟩ | _ | _ <;>
      first
      | rfl
      | exact absurd rfl hp
      | exact Function.update_of_ne (fun hk => hp (congrArg _ hk)) ..

theorem memOf_poke (c : Cell Session.Datum NatVar) (v : NatVal c) :
    memOf (poke e c v) = Function.update (memOf e) c v := by
  funext d
  by_cases hd : d = c
  · subst hd
    rw [Function.update_self]
    rcases d with ⟨i | i, f⟩ | o
    · show flowMem (Function.update e.sessions i _ i) f = v
      rw [Function.update_self]
      exact (congrFun (flowMem_pokeFlow (i := i) ..) f).trans (Function.update_self ..)
    · show echoMem (Function.update e.icmpSessions i _ i) f = v
      rw [Function.update_self]
      exact (congrFun (echoMem_pokeEcho (i := i) ..) f).trans (Function.update_self ..)
    · exact (congrFun (varMem_pokeVar e o v) o).trans (Function.update_self ..)
  · rw [Function.update_of_ne hd]
    rcases c with ⟨i | i, f⟩ | o <;> rcases d with ⟨j | j, g⟩ | p
    · show flowMem (Function.update e.sessions i _ j) g = flowMem (e.sessions j) g
      by_cases hj : j = i
      · subst hj
        rw [Function.update_self]
        exact (congrFun (flowMem_pokeFlow (i := j) ..) g).trans
          (Function.update_of_ne (fun hg => hd (congrArg _ hg)) ..)
      · rw [Function.update_of_ne hj]
    · rfl
    · rcases p with ⟨_ | _, _⟩ | ⟨_ | _⟩ | _ | _ <;> rfl
    · rfl
    · show echoMem (Function.update e.icmpSessions i _ j) g = echoMem (e.icmpSessions j) g
      by_cases hj : j = i
      · subst hj
        rw [Function.update_self]
        exact (congrFun (echoMem_pokeEcho (i := j) ..) g).trans
          (Function.update_of_ne (fun hg => hd (congrArg _ hg)) ..)
      · rw [Function.update_of_ne hj]
    · rcases p with ⟨_ | _, _⟩ | ⟨_ | _⟩ | _ | _ <;> rfl
    · rcases o with ⟨_ | _, _⟩ | ⟨_ | _⟩ | _ | _ <;> rfl
    · rcases o with ⟨_ | _, _⟩ | ⟨_ | _⟩ | _ | _ <;> rfl
    · exact (congrFun (varMem_pokeVar e o v) p).trans
        (Function.update_of_ne (fun hp => hd (congrArg _ hp)) ..)

end

theorem poke_setSession {e : NatEngine} {idx : Fin maxSessions} {x : NatSession}
    (f : SlotField FlowDatum) (v : NatVal (.slot (.flow idx) f)) :
    poke (setSession e idx x) (.slot (.flow idx) f) v =
      setSession e idx (pokeFlow (i := idx) x f v) := by
  have hsess : Function.update (Function.update e.sessions idx x) idx
      (pokeFlow (i := idx) (Function.update e.sessions idx x idx) f v) =
      Function.update e.sessions idx (pokeFlow (i := idx) x f v) := by
    rw [Function.update_self, Function.update_idem]
  exact congrArg (fun sessions => { e with sessions := sessions }) hsess

theorem poke_setIcmpSession {e : NatEngine} {idx : Fin maxIcmpSessions} {x : IcmpEchoSession}
    (f : SlotField EchoDatum) (v : NatVal (.slot (.echo idx) f)) :
    poke (e.setIcmpSession idx x) (.slot (.echo idx) f) v =
      e.setIcmpSession idx (pokeEcho (i := idx) x f v) := by
  have hsess : Function.update (Function.update e.icmpSessions idx x) idx
      (pokeEcho (i := idx) (Function.update e.icmpSessions idx x idx) f v) =
      Function.update e.icmpSessions idx (pokeEcho (i := idx) x f v) := by
    rw [Function.update_self, Function.update_idem]
  exact congrArg (fun icmpSessions => { e with icmpSessions := icmpSessions }) hsess

section
variable (e : NatEngine)

def cursor : Table → UInt16
  | .port => e.portCursor
  | .icmpId => e.icmpIdCursor

def setCursor : Table → UInt16 → NatEngine
  | .port, n => { e with portCursor := n }
  | .icmpId, n => { e with icmpIdCursor := n }

def index : Table → UInt16 → Int
  | .port => e.portToIndex
  | .icmpId => e.icmpIdToIndex

def setIndex : Table → (UInt16 → Int) → NatEngine
  | .port, entries => { e with portToIndex := entries }
  | .icmpId, entries => { e with icmpIdToIndex := entries }

theorem cursor_setCursor (t : Table) (n : UInt16) : cursor (setCursor e t n) t = n := by
  cases t <;> rfl

theorem setCursor_setCursor (t : Table) (m n : UInt16) :
    setCursor (setCursor e t m) t n = setCursor e t n := by
  cases t <;> rfl

end

def Runs {α : Type} (p : NatProg α) (e : NatEngine) (a : α) (e' : NatEngine) : Prop :=
  p.run (memOf e) = (a, memOf e')

namespace Runs
variable {α β : Type} {e e' e'' : NatEngine} {a : α} {b : β}

theorem ret (h : e = e') : Runs (pure a) e a e' := by rw [h]; rfl

theorem bind {p : NatProg α} {f : α → NatProg β} (hp : Runs p e a e') (hf : Runs (f a) e' b e'') :
    Runs (p >>= f) e b e'' := by
  rw [Runs, Prog.run_bind, hp]
  exact hf

theorem load (c : Cell Session.Datum NatVar) {k : NatVal c → NatProg α}
    (h : Runs (k (memOf e c)) e a e') : Runs (Prog.load c >>= k) e a e' := h

theorem store {c : Cell Session.Datum NatVar} {v : NatVal c}
    {k : Unit → NatProg α} (h : Runs (k ()) (poke e c v) a e') : Runs (Prog.store c v >>= k) e a e' := by
  rw [Runs, memOf_poke] at h
  exact h

theorem modify {c : Cell Session.Datum NatVar}
    {f : NatVal c → NatVal c}
    {k : NatVal c → NatProg α}
    (h : Runs (k (memOf e c)) (poke e c (f (memOf e c))) a e') :
    Runs (Prog.modify c f >>= k) e a e' := by
  rw [Runs, memOf_poke] at h
  exact h

/-! In a stretch of accesses to one slot, which stands at `x`. -/

theorem loadPort {n : UInt16} {k : Int → NatProg α} (h : Runs (k (e.portToIndex n)) e a e') :
    Runs (loadVar (.index .port n) >>= k) e a e' := load (.other (.index .port n)) h

theorem loadId {n : UInt16} {k : Int → NatProg α} (h : Runs (k (e.icmpIdToIndex n)) e a e') :
    Runs (loadVar (.index .icmpId n) >>= k) e a e' := load (.other (.index .icmpId n)) h

section
variable {t : Table}

theorem loadCursor {k : UInt16 → NatProg α} (h : Runs (k (cursor e t)) e a e') :
    Runs (loadVar (.cursor t) >>= k) e a e' := by
  cases t with
  | port => exact load (.other (.cursor .port)) h
  | icmpId => exact load (.other (.cursor .icmpId)) h

theorem storeCursor {n : UInt16} {k : Unit → NatProg α} (h : Runs (k ()) (setCursor e t n) a e') :
    Runs (storeVar (.cursor t) n >>= k) e a e' := by
  cases t with
  | port => exact store (c := .other (.cursor .port)) h
  | icmpId => exact store (c := .other (.cursor .icmpId)) h

end

section
variable {idx : Fin maxSessions} {x : NatSession}

theorem loadFlow {f : FlowDatum} {k : f.Val → NatProg α}
    (h : Runs (k (flowData x.internalKey x.externalPort f)) (setSession e idx x) a e') :
    Runs (loadFlow idx f >>= k) (setSession e idx x) a e' := by
  refine load (.slot (.flow idx) (.datum f)) ?_
  have hx : Function.update e.sessions idx x idx = x := Function.update_self ..
  exact Eq.mpr (congrArg (fun y : NatSession =>
    Runs (k (flowData y.internalKey y.externalPort f)) (setSession e idx x) a e') hx) h

theorem storeFlow {f : SlotField FlowDatum} {v : NatVal (.slot (.flow idx) f)}
    {k : Unit → NatProg α} (h : Runs (k ()) (setSession e idx (pokeFlow (i := idx) x f v)) a e') :
    Runs (Prog.store (.slot (.flow idx) f) v >>= k) (setSession e idx x) a e' := by
  refine store ?_
  rwa [poke_setSession]

theorem bumpFlow {k : UInt32 → NatProg α}
    (h : ∀ v, Runs (k v) (setSession e idx { x with seq := x.seq + 1 }) a e') :
    Runs (bumpSeq (.flow idx) >>= k) (setSession e idx x) a e' := by
  have hx : Function.update e.sessions idx x idx = x := Function.update_self ..
  have hpoke : poke (setSession e idx x) (.slot (.flow idx) .seq)
      ((Function.update e.sessions idx x idx).seq + 1 : UInt32) =
        setSession e idx { x with seq := x.seq + 1 } := by
    refine (poke_setSession .seq _).trans ?_
    show setSession e idx { x with seq := (Function.update e.sessions idx x idx).seq + 1 } = _
    rw [hx]
  exact modify (c := .slot (.flow idx) .seq) (hpoke ▸ h _)

end

section
variable {idx : Fin maxIcmpSessions} {x : IcmpEchoSession}

theorem loadEcho {f : EchoDatum} {k : f.Val → NatProg α}
    (h : Runs (k (echoData x.key x.extIdNbo f)) (e.setIcmpSession idx x) a e') :
    Runs (loadEcho idx f >>= k) (e.setIcmpSession idx x) a e' := by
  refine load (.slot (.echo idx) (.datum f)) ?_
  have hx : Function.update e.icmpSessions idx x idx = x := Function.update_self ..
  exact Eq.mpr (congrArg (fun y : IcmpEchoSession =>
    Runs (k (echoData y.key y.extIdNbo f)) (e.setIcmpSession idx x) a e') hx) h

theorem storeEcho {f : SlotField EchoDatum} {v : NatVal (.slot (.echo idx) f)}
    {k : Unit → NatProg α} (h : Runs (k ()) (e.setIcmpSession idx (pokeEcho (i := idx) x f v)) a e') :
    Runs (Prog.store (.slot (.echo idx) f) v >>= k) (e.setIcmpSession idx x) a e' := by
  refine store ?_
  rwa [poke_setIcmpSession]

theorem bumpEcho {k : UInt32 → NatProg α}
    (h : ∀ v, Runs (k v) (e.setIcmpSession idx { x with seq := x.seq + 1 }) a e') :
    Runs (bumpSeq (.echo idx) >>= k) (e.setIcmpSession idx x) a e' := by
  have hx : Function.update e.icmpSessions idx x idx = x := Function.update_self ..
  have hpoke : poke (e.setIcmpSession idx x) (.slot (.echo idx) .seq)
      ((Function.update e.icmpSessions idx x idx).seq + 1 : UInt32) =
        e.setIcmpSession idx { x with seq := x.seq + 1 } := by
    refine (poke_setIcmpSession .seq _).trans ?_
    show e.setIcmpSession idx
      { x with seq := (Function.update e.icmpSessions idx x idx).seq + 1 } = _
    rw [hx]
  exact modify (c := .slot (.echo idx) .seq) (hpoke ▸ h _)

end

end Runs

/-! ## The functions -/

section
variable {e : NatEngine}

theorem releaseIndex_runs (t : Table) (n : UInt16) (idx : Int) :
    Runs (releaseIndex t n idx) e () (setIndex e t (casIndex (index e t) n idx (-1))) := by
  rw [casIndex_eq_update]
  cases t with
  | port => exact .modify (c := .other (.index .port n)) (.ret rfl)
  | icmpId => exact .modify (c := .other (.index .icmpId n)) (.ret rfl)

theorem takeCursor_runs (t : Table) :
    Runs (takeCursor t) e (cursor e t) (setCursor e t (nextCursor (cursor e t))) := by
  refine .loadCursor <| .storeCursor <| .loadCursor ?_
  rw [cursor_setCursor]
  split_ifs with h
  · refine .storeCursor <| .ret ?_
    rw [setCursor_setCursor, nextCursor, if_pos h]
  · refine .ret ?_
    rw [nextCursor, if_neg h]

section
variable {idx : Fin maxSessions} {x : NatSession}

theorem releasePort_runs (isActive : Bool) :
    Runs (releasePort idx isActive) (setSession e idx x) ()
      (setSession (setIndex e .port (if isActive then
        casIndex e.portToIndex (ntohs x.externalPort) idx (-1) else e.portToIndex)) idx x) := by
  unfold releasePort
  split_ifs
  · exact .loadFlow (f := .externalPort) (releaseIndex_runs .port _ _)
  · exact .ret rfl

theorem takePort_runs : Runs (takeCursor .port) (setSession e idx x) e.portCursor
    (setSession { e with portCursor := nextCursor e.portCursor } idx x) :=
  takeCursor_runs .port

end

theorem writeFlow_runs (idx : Fin maxSessions) (key : FlowKey) (tick : UInt32) :
    Runs (writeFlow idx key tick (e.sessions idx).active) e (htons e.portCursor)
      (e.openSession key tick idx) := by
  have hstart : Runs (writeFlow idx key tick (e.sessions idx).active)
      (setSession e idx (e.sessions idx)) (htons e.portCursor) (e.openSession key tick idx) :=
    .bumpFlow fun _ => .bind (releasePort_runs _) <| .storeFlow (f := .datum .saddr) <|
      .storeFlow (f := .datum .daddr) <| .storeFlow (f := .datum .sport) <|
      .storeFlow (f := .datum .dport) <| .bind takePort_runs <|
      .storeFlow (f := .datum .externalPort) <| .storeFlow (f := .stamp) <| .bumpFlow fun _ =>
      .storeFlow (f := .active) <| .store (c := .other (.index .port _)) <| .ret rfl
  rwa [setSession, Function.update_eq_self] at hstart

theorem reusableFlow_runs (idx : Fin maxSessions) (tick : UInt32) :
    Runs (reusable (.flow idx) tick (e.sessions idx).active) e
      ((e.sessions idx).reusable tick) e := by
  unfold reusable NatSession.reusable
  cases (e.sessions idx).active with
  | false => exact .ret rfl
  | true => exact .load (.slot (.flow idx) .stamp) (.ret rfl)

theorem flowKey_eq_iff {k l : FlowKey} : k = l ↔
    k.saddr = l.saddr ∧ k.daddr = l.daddr ∧ k.sport = l.sport ∧ k.dport = l.dport := by
  cases k
  cases l
  rw [FlowKey.mk.injEq]

theorem sameFlow_runs (idx : Fin maxSessions) (key : FlowKey) :
    Runs (sameFlow idx key) e (decide ((e.sessions idx).internalKey = key)) e := by
  refine .load (.slot (.flow idx) (.datum .saddr)) ?_
  change Runs (if (e.sessions idx).internalKey.saddr ≠ key.saddr then _ else _) _ _ _
  split_ifs with h₁
  · rw [decide_eq_false fun h => h₁ (congrArg FlowKey.saddr h)]
    exact .ret rfl
  refine .load (.slot (.flow idx) (.datum .daddr)) ?_
  change Runs (if (e.sessions idx).internalKey.daddr ≠ key.daddr then _ else _) _ _ _
  split_ifs with h₂
  · rw [decide_eq_false fun h => h₂ (congrArg FlowKey.daddr h)]
    exact .ret rfl
  refine .load (.slot (.flow idx) (.datum .sport)) ?_
  change Runs (if (e.sessions idx).internalKey.sport ≠ key.sport then _ else _) _ _ _
  split_ifs with h₃
  · rw [decide_eq_false fun h => h₃ (congrArg FlowKey.sport h)]
    exact .ret rfl
  refine .load (.slot (.flow idx) (.datum .dport)) ?_
  have hkey : (e.sessions idx).internalKey = key ↔
      (e.sessions idx).internalKey.dport = key.dport := by
    rw [flowKey_eq_iff]
    exact ⟨fun h => h.2.2.2, fun h => ⟨not_not.mp h₁, not_not.mp h₂, not_not.mp h₃, h⟩⟩
  rw [decide_eq_decide.mpr hkey]
  exact .ret rfl

theorem touchFlow_runs (idx : Fin maxSessions) (tick : UInt32) :
    Runs (touchFlow idx tick) e (e.sessions idx).externalPort (e.touchSession tick idx) := by
  have hstart : Runs (touchFlow idx tick) (setSession e idx (e.sessions idx))
      (e.sessions idx).externalPort (e.touchSession tick idx) :=
    .storeFlow (f := .stamp) <| .loadFlow (f := .externalPort) (k := pure) (.ret rfl)
  rwa [setSession, Function.update_eq_self] at hstart

theorem probe_runs (key : FlowKey) (tick : UInt32) (slots : List (Fin maxSessions)) :
    Runs (probe key tick slots) e ((slots.findSome? (e.examineSlot key tick)).elim 0 Prod.snd)
      ((slots.findSome? (e.examineSlot key tick)).elim e Prod.fst) := by
  induction slots with
  | nil => exact .ret rfl
  | cons idx rest ih =>
    refine .load (.slot (.flow idx) .active) <| .bind (reusableFlow_runs idx tick) ?_
    rw [List.findSome?_cons, NatEngine.examineSlot]
    split_ifs with hreuse
    · exact writeFlow_runs idx key tick
    · refine .bind (sameFlow_runs idx key) ?_
      rw [if_pos (decide_eq_true ‹_›)]
      exact touchFlow_runs idx tick
    · refine .bind (sameFlow_runs idx key) ?_
      rw [if_neg (by simpa using ‹_›)]
      exact ih

theorem allocExternalIcmpId_runs (n : Nat) :
    Runs (allocExternalIcmpId n) e (NatEngine.allocLoop n e).1 (NatEngine.allocLoop n e).2 := by
  induction n generalizing e with
  | zero => exact .ret rfl
  | succ n ih =>
    refine .bind (takeCursor_runs .icmpId) <| .loadId ?_
    dsimp only [cursor, setCursor]
    rw [NatEngine.allocLoop]
    split_ifs with hentry
    · exact .ret rfl
    · cases slotOf maxIcmpSessions (e.icmpIdToIndex e.icmpIdCursor) with
      | none => exact ih
      | some i =>
        refine .load (.slot (.echo i) .active) ?_
        change Runs (if !(e.icmpSessions i).active then _ else _) _ _ _
        dsimp only
        split_ifs
        · exact .bind (releaseIndex_runs .icmpId _ _) (.ret rfl)
        · exact ih

theorem releaseId_runs {idx : Fin maxIcmpSessions} {x : IcmpEchoSession} {n : UInt16} {i : Int} :
    Runs (releaseIndex .icmpId n i) (e.setIcmpSession idx x) ()
      ((setIndex e .icmpId (casIndex e.icmpIdToIndex n i (-1))).setIcmpSession idx x) :=
  releaseIndex_runs .icmpId n i

theorem storeId_runs {idx : Fin maxIcmpSessions} {x : IcmpEchoSession} {n : UInt16} {i : Int} :
    Runs (storeVar (.index .icmpId n) i) (e.setIcmpSession idx x) ()
      ((setIndex e .icmpId (Function.update e.icmpIdToIndex n i)).setIcmpSession idx x) :=
  .store (c := .other (.index .icmpId n)) (k := pure) (.ret rfl)

theorem releaseIcmpSlot_runs (idx : Fin maxIcmpSessions) :
    Runs (releaseIcmpSlot idx (e.icmpSessions idx).active)
      (e.setIcmpSession idx { e.icmpSessions idx with seq := (e.icmpSessions idx).seq + 1 }) ()
      (e.releaseIcmpSlot idx) := by
  unfold releaseIcmpSlot NatEngine.releaseIcmpSlot
  dsimp only
  split_ifs
  · exact .loadEcho (f := .extIdNbo) <| .bind releaseId_runs <|
      .storeEcho (f := .active) (k := pure) <| .ret rfl
  · exact .ret rfl

theorem fillIcmpSlot_runs (idx : Fin maxIcmpSessions) (key : EchoKey) (tick : UInt32)
    (newExt : UInt16) :
    Runs (fillIcmpSlot idx key tick newExt) e (e.fillIcmpSlot key tick idx newExt).2
      (e.fillIcmpSlot key tick idx newExt).1 := by
  have hstart : Runs (fillIcmpSlot idx key tick newExt) (e.setIcmpSession idx (e.icmpSessions idx))
      (e.fillIcmpSlot key tick idx newExt).2 (e.fillIcmpSlot key tick idx newExt).1 := by
    unfold fillIcmpSlot NatEngine.fillIcmpSlot
    split_ifs
    · exact .bumpEcho fun _ => .ret rfl
    · exact .storeEcho (f := .datum .intSaddr) <| .storeEcho (f := .datum .remoteDaddr) <|
        .storeEcho (f := .datum .intIdNbo) <| .storeEcho (f := .datum .extIdNbo) <|
        .storeEcho (f := .stamp) <| .bind storeId_runs <| .bumpEcho fun _ =>
        .storeEcho (f := .active) <| .ret rfl
  rwa [NatEngine.setIcmpSession, Function.update_eq_self] at hstart

theorem writeEcho_runs (idx : Fin maxIcmpSessions) (key : EchoKey) (tick : UInt32) :
    Runs (writeEcho idx key tick (e.icmpSessions idx).active) e
      (e.openIcmpSession key tick idx).2 (e.openIcmpSession key tick idx).1 := by
  have hstart : Runs (writeEcho idx key tick (e.icmpSessions idx).active)
      (e.setIcmpSession idx (e.icmpSessions idx)) (e.openIcmpSession key tick idx).2
      (e.openIcmpSession key tick idx).1 :=
    .bumpEcho fun _ => .bind (releaseIcmpSlot_runs idx) <| .bind (allocExternalIcmpId_runs 512) <|
      fillIcmpSlot_runs idx key tick _
  rwa [NatEngine.setIcmpSession, Function.update_eq_self] at hstart

theorem reusableEcho_runs (idx : Fin maxIcmpSessions) (tick : UInt32) :
    Runs (reusable (.echo idx) tick (e.icmpSessions idx).active) e
      ((e.icmpSessions idx).reusable tick) e := by
  unfold reusable IcmpEchoSession.reusable
  cases (e.icmpSessions idx).active with
  | false => exact .ret rfl
  | true => exact .load (.slot (.echo idx) .stamp) (.ret rfl)

theorem echoKey_eq_iff {k l : EchoKey} :
    k = l ↔ k.saddr = l.saddr ∧ k.daddr = l.daddr ∧ k.idNbo = l.idNbo := by
  cases k
  cases l
  rw [EchoKey.mk.injEq]

theorem sameEcho_runs (idx : Fin maxIcmpSessions) (key : EchoKey) :
    Runs (sameEcho idx key) e (decide ((e.icmpSessions idx).key = key)) e := by
  refine .load (.slot (.echo idx) (.datum .intSaddr)) ?_
  change Runs (if (e.icmpSessions idx).key.saddr ≠ key.saddr then _ else _) _ _ _
  split_ifs with h₁
  · rw [decide_eq_false fun h => h₁ (congrArg EchoKey.saddr h)]
    exact .ret rfl
  refine .load (.slot (.echo idx) (.datum .remoteDaddr)) ?_
  change Runs (if (e.icmpSessions idx).key.daddr ≠ key.daddr then _ else _) _ _ _
  split_ifs with h₂
  · rw [decide_eq_false fun h => h₂ (congrArg EchoKey.daddr h)]
    exact .ret rfl
  refine .load (.slot (.echo idx) (.datum .intIdNbo)) ?_
  have hkey : (e.icmpSessions idx).key = key ↔ (e.icmpSessions idx).key.idNbo = key.idNbo := by
    rw [echoKey_eq_iff]
    exact ⟨fun h => h.2.2, fun h => ⟨not_not.mp h₁, not_not.mp h₂, h⟩⟩
  rw [decide_eq_decide.mpr hkey]
  exact .ret rfl

theorem touchEcho_runs (idx : Fin maxIcmpSessions) (tick : UInt32) :
    Runs (touchEcho idx tick) e (e.icmpSessions idx).extIdNbo (e.touchIcmpSession tick idx) := by
  have hstart : Runs (touchEcho idx tick) (e.setIcmpSession idx (e.icmpSessions idx))
      (e.icmpSessions idx).extIdNbo (e.touchIcmpSession tick idx) :=
    .storeEcho (f := .stamp) <| .loadEcho (f := .extIdNbo) (k := pure) (.ret rfl)
  rwa [NatEngine.setIcmpSession, Function.update_eq_self] at hstart

theorem probeIcmp_runs (key : EchoKey) (tick : UInt32) (slots : List (Fin maxIcmpSessions)) :
    Runs (probeIcmp key tick slots) e
      ((slots.findSome? (e.examineIcmpSlot key tick)).elim 0 Prod.snd)
      ((slots.findSome? (e.examineIcmpSlot key tick)).elim e Prod.fst) := by
  induction slots with
  | nil => exact .ret rfl
  | cons idx rest ih =>
    refine .load (.slot (.echo idx) .active) <| .bind (reusableEcho_runs idx tick) ?_
    rw [List.findSome?_cons, NatEngine.examineIcmpSlot]
    split_ifs with hreuse hkey
    · exact writeEcho_runs idx key tick
    · refine .bind (sameEcho_runs idx key) ?_
      rw [if_pos (decide_eq_true hkey)]
      exact touchEcho_runs idx tick
    · refine .bind (sameEcho_runs idx key) ?_
      rw [if_neg (by simpa using hkey)]
      exact ih

theorem findSome_ofFn {α β : Type} {n : ℕ} (slot : Fin n → α) (f : α → Option β) :
    (List.ofFn slot).findSome? f = Fin.findSome? fun i => f (slot i) := by
  rw [List.ofFn_eq_map, List.findSome?_map, Fin.findSome?_eq_findSome?_finRange]
  rfl

theorem probeSlots_runs (key : FlowKey) :
    Runs (probe key e.currentTick (List.ofFn (NatEngine.probeSlot key))) e
      ((e.probe key e.currentTick).elim 0 Prod.snd)
      ((e.probe key e.currentTick).elim e Prod.fst) := by
  rw [NatEngine.probe, ← findSome_ofFn (NatEngine.probeSlot key)]
  exact probe_runs key e.currentTick _

theorem probeIcmpSlots_runs (key : EchoKey) :
    Runs (probeIcmp key e.currentTick (List.ofFn (NatEngine.probeIcmpSlot key))) e
      ((e.probeIcmp key e.currentTick).elim 0 Prod.snd)
      ((e.probeIcmp key e.currentTick).elim e Prod.fst) := by
  rw [NatEngine.probeIcmp, ← findSome_ofFn (NatEngine.probeIcmpSlot key)]
  exact probeIcmp_runs key e.currentTick _

theorem processOutboundIcmp_runs (pkt : ParsedPacket) (ip : Nat) :
    Runs (processOutboundIcmp pkt ip) e
      ⟨(e.processOutboundIcmp pkt ip).translated, (e.processOutboundIcmp pkt ip).packet⟩
      (e.processOutboundIcmp pkt ip).engine := by
  refine .load (.other .wanIp) ?_
  change Runs (if e.wanIp.raw = 0 then _ else _) _ _ _
  unfold NatEngine.processOutboundIcmp
  split_ifs
  · exact .ret rfl
  · cases NatEngine.echoView pkt ip 8 with
    | none => exact .ret rfl
    | some icmp =>
      dsimp only
      generalize (⟨IPv4Header.saddr pkt.rawSpan ip, IPv4Header.daddr pkt.rawSpan ip,
        load16 pkt.rawSpan (icmp + 4)⟩ : EchoKey) = key
      have hprobe := probeIcmpSlots_runs (e := e) key
      refine .load (.other .currentTick) ?_
      generalize e.probeIcmp key e.currentTick = found at hprobe ⊢
      rcases found with _ | ⟨e', ext⟩
      · exact .bind hprobe (.ret rfl)
      · refine .bind hprobe ?_
        dsimp only [Option.elim]
        split_ifs <;> exact .ret rfl

theorem processOutbound_runs (pkt : ParsedPacket) :
    Runs (processOutbound pkt) e
      ⟨(e.processOutbound pkt).translated, (e.processOutbound pkt).packet⟩
      (e.processOutbound pkt).engine := by
  unfold processOutbound NatEngine.processOutbound
  cases pkt.ipv4 with
  | none => exact .ret rfl
  | some ip =>
    refine .load (.other .wanIp) ?_
    change Runs (if e.wanIp.raw = 0 then _ else _) _ _ _
    dsimp only
    split_ifs
    · exact .ret rfl
    · exact processOutboundIcmp_runs pkt ip
    · exact .ret rfl
    · cases pkt.portView (IPv4Header.protocol pkt.rawSpan ip) with
      | none => exact .ret rfl
      | some v =>
        dsimp only
        generalize (⟨IPv4Header.saddr pkt.rawSpan ip, IPv4Header.daddr pkt.rawSpan ip,
          load16 pkt.rawSpan v.source, load16 pkt.rawSpan v.dest⟩ : FlowKey) = key
        have hprobe := probeSlots_runs (e := e) key
        refine .load (.other .currentTick) ?_
        generalize e.probe key e.currentTick = found at hprobe ⊢
        rcases found with _ | ⟨e', ext⟩
        · exact .bind hprobe (.ret rfl)
        · refine .bind hprobe ?_
          dsimp only [Option.elim]
          split_ifs <;> exact .ret rfl

/-! The readers: the copy holds all the fields, and the model keeps those the rewrite uses. -/

def copyFlow (sess : NatSession) (saddr : IPv4Net) (sport dport : UInt16) :
    Attempt (FlowKey × UInt16) :=
  if sess.seq &&& 1 ≠ 0 then .retry
  else if !sess.active then .refuse
  else if sess.internalKey.daddr ≠ saddr ∨ sess.internalKey.dport ≠ sport ∨
      sess.externalPort ≠ dport then .refuse
  else .resolved (sess.internalKey, sess.externalPort)

def copyEcho (sess : IcmpEchoSession) (saddr : IPv4Net) (id : UInt16) :
    Attempt (EchoKey × UInt16) :=
  if sess.seq &&& 1 ≠ 0 then .retry
  else if !sess.active then .refuse
  else if sess.remoteDaddr ≠ saddr ∨ sess.extIdNbo ≠ id then .refuse
  else .resolved (sess.key, sess.extIdNbo)

theorem attempt_runs (idx : Fin maxSessions) (saddr : IPv4Net) (sport dport : UInt16) :
    Runs (attempt idx saddr sport dport) e (copyFlow (e.sessions idx) saddr sport dport) e := by
  refine .load (.slot (.flow idx) .seq) ?_
  change Runs (if (e.sessions idx).seq &&& 1 ≠ 0 then _ else _) _ _ _
  unfold copyFlow
  by_cases hodd : (e.sessions idx).seq &&& 1 ≠ 0
  · rw [if_pos hodd, if_pos hodd]
    exact .ret rfl
  rw [if_neg hodd, if_neg hodd]
  refine .load (.slot (.flow idx) .active) <| .load (.slot (.flow idx) (.datum .saddr)) <|
    .load (.slot (.flow idx) (.datum .daddr)) <| .load (.slot (.flow idx) (.datum .sport)) <|
    .load (.slot (.flow idx) (.datum .dport)) <|
    .load (.slot (.flow idx) (.datum .externalPort)) <| .load (.slot (.flow idx) .seq) ?_
  change Runs (if (e.sessions idx).seq ≠ (e.sessions idx).seq ∨
      (e.sessions idx).seq &&& 1 ≠ 0 then _
    else if !(e.sessions idx).active then _
    else if (e.sessions idx).internalKey.daddr ≠ saddr ∨
      (e.sessions idx).internalKey.dport ≠ sport ∨ (e.sessions idx).externalPort ≠ dport then _
    else _) _ _ _
  rw [if_neg (not_or.mpr ⟨not_not.mpr rfl, hodd⟩)]
  split_ifs <;> exact .ret rfl

theorem attemptIcmp_runs (idx : Fin maxIcmpSessions) (saddr : IPv4Net) (id : UInt16) :
    Runs (attemptIcmp idx saddr id) e (copyEcho (e.icmpSessions idx) saddr id) e := by
  refine .load (.slot (.echo idx) .seq) ?_
  change Runs (if (e.icmpSessions idx).seq &&& 1 ≠ 0 then _ else _) _ _ _
  unfold copyEcho
  by_cases hodd : (e.icmpSessions idx).seq &&& 1 ≠ 0
  · rw [if_pos hodd, if_pos hodd]
    exact .ret rfl
  rw [if_neg hodd, if_neg hodd]
  refine .load (.slot (.echo idx) .active) <| .load (.slot (.echo idx) (.datum .remoteDaddr)) <|
    .load (.slot (.echo idx) (.datum .intSaddr)) <| .load (.slot (.echo idx) (.datum .intIdNbo)) <|
    .load (.slot (.echo idx) (.datum .extIdNbo)) <| .load (.slot (.echo idx) .seq) ?_
  change Runs (if (e.icmpSessions idx).seq ≠ (e.icmpSessions idx).seq ∨
      (e.icmpSessions idx).seq &&& 1 ≠ 0 then _
    else if !(e.icmpSessions idx).active then _
    else if (e.icmpSessions idx).remoteDaddr ≠ saddr ∨ (e.icmpSessions idx).extIdNbo ≠ id then _
    else _) _ _ _
  rw [if_neg (not_or.mpr ⟨not_not.mpr rfl, hodd⟩)]
  split_ifs <;> exact .ret rfl

section
variable {α β : Type}

def mapAttempt (g : α → β) : Attempt α → Attempt β
  | .retry => .retry
  | .refuse => .refuse
  | .resolved a => .resolved (g a)

theorem retryLoop_runs {p : NatProg (Attempt α)} {a : Attempt α} (h : Runs p e a e) (n : Nat) :
    Runs (retryLoop p n) e (Hpgtp.retryLoop a n) e := by
  induction n with
  | zero => exact .ret rfl
  | succ n ih =>
    refine .bind h ?_
    cases a with
    | retry => exact ih
    | refuse => exact .ret rfl
    | resolved a => exact .ret rfl

theorem retryLoop_mapAttempt (g : α → β) (a : Attempt α) (n : Nat) :
    Hpgtp.retryLoop (mapAttempt g a) n = (Hpgtp.retryLoop a n).map g := by
  induction n with
  | zero => rfl
  | succ n ih =>
    cases a with
    | retry => exact ih
    | refuse => rfl
    | resolved a => rfl

end

theorem resolveAttempt_eq (sess : NatSession) (saddr : IPv4Net) (sport dport : UInt16) :
    NatEngine.resolveAttempt sess saddr sport dport =
      mapAttempt (fun c => (c.1.saddr, c.1.sport)) (copyFlow sess saddr sport dport) := by
  simp only [NatEngine.resolveAttempt, copyFlow, ne_eq, not_true_eq_false, false_or]
  split_ifs <;> rfl

theorem resolveIcmpAttempt_eq (sess : IcmpEchoSession) (saddr : IPv4Net) (id : UInt16) :
    NatEngine.resolveIcmpAttempt sess saddr id =
      mapAttempt (fun c => (c.1.saddr, c.1.idNbo)) (copyEcho sess saddr id) := by
  simp only [NatEngine.resolveIcmpAttempt, copyEcho, ne_eq, not_true_eq_false, false_or]
  split_ifs <;> rfl

theorem processInboundIcmp_runs (pkt : ParsedPacket) (ip : Nat) :
    ∃ copied, Runs (processInboundIcmp pkt ip) e
      ⟨(e.processInboundIcmp pkt ip).translated, (e.processInboundIcmp pkt ip).packet, copied⟩
      (e.processInboundIcmp pkt ip).engine := by
  refine Exists.imp (fun _ => .load (.other .wanIp)) ?_
  change ∃ copied, Runs (if IPv4Header.daddr pkt.rawSpan ip ≠ e.wanIp then _ else _) _ _ _
  unfold NatEngine.processInboundIcmp
  split_ifs
  · exact ⟨none, .ret rfl⟩
  cases NatEngine.echoView pkt ip 0 with
  | none => exact ⟨none, .ret rfl⟩
  | some icmp =>
    refine Exists.imp (fun _ => .loadId) ?_
    dsimp only
    cases slotOf maxIcmpSessions (e.icmpIdToIndex (ntohs (load16 pkt.rawSpan (icmp + 4)))) with
    | none => exact ⟨none, .ret rfl⟩
    | some idx =>
      refine Exists.imp (fun _ => .bind (retryLoop_runs (attemptIcmp_runs idx _ _) 8)) ?_
      dsimp only
      rw [resolveIcmpAttempt_eq, retryLoop_mapAttempt]
      generalize Hpgtp.retryLoop (copyEcho _ _ _) 8 = resolved
      rcases resolved with _ | ⟨key, ext⟩
      · exact ⟨none, .ret rfl⟩
      · exact ⟨_, .load (.other .currentTick) <|
          .store (c := .slot (.echo idx) .stamp) <| .ret rfl⟩

theorem processInbound_runs (pkt : ParsedPacket) :
    ∃ copied, Runs (processInbound pkt) e
      ⟨(e.processInbound pkt).translated, (e.processInbound pkt).packet, copied⟩
      (e.processInbound pkt).engine := by
  unfold processInbound NatEngine.processInbound
  cases pkt.ipv4 with
  | none => exact ⟨none, .ret rfl⟩
  | some ip =>
    refine Exists.imp (fun _ => .load (.other .wanIp)) ?_
    change ∃ copied, Runs (if IPv4Header.protocol pkt.rawSpan ip = 1 then _
      else if IPv4Header.protocol pkt.rawSpan ip ≠ 6 ∧
        IPv4Header.protocol pkt.rawSpan ip ≠ 17 then _
      else if IPv4Header.daddr pkt.rawSpan ip ≠ e.wanIp then _ else _) _ _ _
    dsimp only
    split_ifs
    · exact processInboundIcmp_runs pkt ip
    · exact ⟨none, .ret rfl⟩
    · exact ⟨none, .ret rfl⟩
    cases pkt.portView (IPv4Header.protocol pkt.rawSpan ip) with
    | none => exact ⟨none, .ret rfl⟩
    | some v =>
      refine Exists.imp (fun _ => .loadPort) ?_
      dsimp only
      cases slotOf maxSessions (e.portToIndex (ntohs (load16 pkt.rawSpan v.dest))) with
      | none => exact ⟨none, .ret rfl⟩
      | some idx =>
        refine Exists.imp (fun _ => .bind (retryLoop_runs (attempt_runs idx _ _ _) 8)) ?_
        dsimp only
        rw [resolveAttempt_eq, retryLoop_mapAttempt]
        generalize Hpgtp.retryLoop (copyFlow _ _ _ _) 8 = resolved
        rcases resolved with _ | ⟨ik, ep⟩
        · exact ⟨none, .ret rfl⟩
        · exact ⟨_, .load (.other .currentTick) <|
            .store (c := .slot (.flow idx) .stamp) <| .ret rfl⟩

theorem tick_runs : Runs tick e () e.tick := .modify (c := .other .currentTick) (.ret rfl)

theorem setWanIp_runs (ip : IPv4Net) : Runs (setWanIp ip) e () (e.setWanIp ip) :=
  .store (c := .other .wanIp) (.ret rfl)

end

/-! ## Call after call -/

def caller : Op → NatThread Unit
  | .outbound _ => .outbound
  | .inbound _ => .inbound ()
  | .tick => .timer
  | .setWanIp _ => .control

def argument : (op : Op) → (caller op).Call
  | .outbound pkt => pkt
  | .inbound pkt => pkt
  | .tick => ()
  | .setWanIp ip => ip

theorem body_run (e : NatEngine) (op : Op) :
    ((body (caller op) (argument op)).run (memOf e)).2 = memOf (e.step op) := by
  cases op with
  | outbound pkt =>
    have hbody : Runs (body (caller (.outbound pkt)) pkt) e _ _ :=
      .bind (processOutbound_runs pkt) (.ret rfl)
    exact congrArg Prod.snd hbody
  | inbound pkt =>
    obtain ⟨copied, hrun⟩ := processInbound_runs (e := e) pkt
    have hbody : Runs (body (caller (.inbound pkt)) pkt) e _ _ := .bind hrun (.ret rfl)
    exact congrArg Prod.snd hbody
  | tick => exact congrArg Prod.snd (tick_runs (e := e))
  | setWanIp ip => exact congrArg Prod.snd (setWanIp_runs (e := e) ip)

theorem exists_turns_of_ops (ops : List Op) {e : NatEngine} {m : Machine (system Unit)}
    (hidle : m.Idle) (hmem : m.shared.mem = memOf e) :
    ∃ turns, (LabelledRun.exec Machine.step m turns).Idle ∧
      (LabelledRun.exec Machine.step m turns).shared.mem = memOf (e.run ops) := by
  induction ops generalizing e m with
  | nil => exact ⟨[], hidle, hmem⟩
  | cons op ops ih =>
    obtain ⟨first, hfirst, hmem₁⟩ := hidle.exists_call (caller op) (argument op)
    have hstep : (LabelledRun.exec Machine.step m first).shared.mem = memOf (e.step op) := by
      rw [hmem₁, hmem]
      exact body_run e op
    obtain ⟨rest, hrest, hmem₂⟩ := ih hfirst hstep
    refine ⟨first ++ rest, ?_⟩
    rw [LabelledRun.exec_append]
    exact ⟨hrest, hmem₂⟩

/-- Every run of the engine as one whole step per call is an interleaving of the threads, the one
in which no call is interrupted. -/
theorem exists_turns_of_run (ops : List Op) :
    ∃ turns, (LabelledRun.exec Machine.step (start Unit) turns).shared.mem =
      memOf (NatEngine.new.run ops) := by
  have hidle : (start Unit).Idle := by
    intro t
    cases t <;> exact ⟨_, rfl⟩
  obtain ⟨turns, -, hmem⟩ := exists_turns_of_ops ops hidle rfl
  exact ⟨turns, hmem⟩

end NatThread
end Hpgtp
