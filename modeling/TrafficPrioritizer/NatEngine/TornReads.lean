import TrafficPrioritizer.NatEngine.Accesses
import TrafficPrioritizer.NatEngine.Frames
import Mathlib.Algebra.Group.Nat.Even

/-! The session tables under one outbound thread and any number of inbound ones, access by access:
what a retry loop resolves to is what one session creation stored. -/

namespace Hpgtp
open ByteBuffer ReverseIndex SharedMemory Seqlock

namespace NatThread

/-! ## The outbound thread keeps to the protocol -/

section
variable {τ α : Type} {w : τ} {S : ∀ l : Session, Slot l.Datum l.Val}

def Quiet (S : ∀ l : Session, Slot l.Datum l.Val) : Prop := ∀ l, (S l).Ok ∧ (S l).bumps % 2 = 0

theorem Quiet.update (h : Quiet S) {l : Session} {x : Slot l.Datum l.Val} (hx : x.Ok)
    (heven : x.bumps % 2 = 0) : Quiet (Function.update S l x) := by
  intro m
  by_cases hm : m = l
  · subst hm
    rw [Function.update_self]
    exact ⟨hx, heven⟩
  · rw [Function.update_of_ne hm]
    exact h m

section
variable {Q : α → (∀ l : Session, Slot l.Datum l.Val) → Prop}

theorem safe_loadFlow {idx : Fin maxSessions} {f : FlowDatum} {k : f.Val → NatProg α}
    (h : ∀ v, Safe w Q (k v) S) : Safe w Q (loadFlow idx f >>= k) S :=
  Safe.load (V := Session.Val) (W := NatVar.Val) (c := .slot (.flow idx) (.datum f)) h

theorem safe_loadEcho {idx : Fin maxIcmpSessions} {f : EchoDatum} {k : f.Val → NatProg α}
    (h : ∀ v, Safe w Q (k v) S) : Safe w Q (loadEcho idx f >>= k) S :=
  Safe.load (V := Session.Val) (W := NatVar.Val) (c := .slot (.echo idx) (.datum f)) h

end

/-! Most of it does not touch the guarded fields. -/

theorem reusable_safe (l : Session) (tick : UInt32) (isActive : Bool) :
    Safe w (fun _ S' => S' = S) (reusable l tick isActive) S := by
  unfold reusable
  split_ifs
  · exact .ret rfl
  · exact .loadStamp fun _ => .ret rfl

theorem releaseIndex_safe (t : Table) (n : UInt16) (idx : Int) :
    Safe w (fun _ S' => S' = S) (releaseIndex t n idx) S :=
  .modifyOther fun _ => .ret rfl

theorem takeCursor_safe (t : Table) : Safe w (fun _ S' => S' = S) (takeCursor t) S := by
  refine .loadOther fun value => .storeOther <| .loadOther fun next => ?_
  split_ifs
  · exact .storeOther (.ret rfl)
  · exact .ret rfl

theorem releasePort_safe (idx : Fin maxSessions) (isActive : Bool) :
    Safe w (fun _ S' => S' = S) (releasePort idx isActive) S := by
  unfold releasePort
  split_ifs
  · exact safe_loadFlow fun _ => releaseIndex_safe _ _ _
  · exact .ret rfl

theorem sameFlow_safe (idx : Fin maxSessions) (key : FlowKey) :
    Safe w (fun _ S' => S' = S) (sameFlow idx key) S := by
  refine safe_loadFlow fun _ => ?_
  split_ifs
  · exact .ret rfl
  refine safe_loadFlow fun _ => ?_
  split_ifs
  · exact .ret rfl
  refine safe_loadFlow fun _ => ?_
  split_ifs
  · exact .ret rfl
  exact safe_loadFlow fun _ => .ret rfl

theorem sameEcho_safe (idx : Fin maxIcmpSessions) (key : EchoKey) :
    Safe w (fun _ S' => S' = S) (sameEcho idx key) S := by
  refine safe_loadEcho fun _ => ?_
  split_ifs
  · exact .ret rfl
  refine safe_loadEcho fun _ => ?_
  split_ifs
  · exact .ret rfl
  exact safe_loadEcho fun _ => .ret rfl

theorem allocExternalIcmpId_safe (n : Nat) :
    Safe w (fun _ S' => S' = S) (allocExternalIcmpId n) S := by
  induction n with
  | zero => exact .ret rfl
  | succ n ih =>
    refine .bind (takeCursor_safe .icmpId) ?_
    rintro host _ rfl
    refine .loadOther fun entry => ?_
    split_ifs
    · exact .ret rfl
    · cases slotOf maxIcmpSessions entry with
      | none => exact ih
      | some i =>
        refine .loadActive ?_
        split_ifs
        · refine .bind (releaseIndex_safe _ _ _) ?_
          rintro _ _ rfl
          exact .ret rfl
        · exact ih

/-! A session creation, over an active session or not. -/

section
variable {idx : Fin maxSessions} {x : Slot (Session.flow idx).Datum (Session.flow idx).Val}

def fillFlow (x : Slot (Session.flow idx).Datum (Session.flow idx).Val) (key : FlowKey)
    (port : UInt16) : Slot (Session.flow idx).Datum (Session.flow idx).Val :=
  ((((x.store FlowDatum.saddr key.saddr).store FlowDatum.daddr key.daddr).store FlowDatum.sport
    key.sport).store FlowDatum.dport key.dport).store FlowDatum.externalPort port

theorem fillFlow_ok (h : x.Ok) (hodd : x.bumps % 2 = 1) (key : FlowKey) (port : UInt16) :
    (fillFlow x key port).Ok :=
  ((((h.store hodd _ _).store hodd _ _).store hodd _ _).store hodd _ _).store hodd _ _

theorem fillFlow_stored (x : Slot (Session.flow idx).Datum (Session.flow idx).Val) (key : FlowKey)
    (port : UInt16) (f : (Session.flow idx).Datum) : ((fillFlow x key port).stored f).isSome := by
  rcases f with _ | _ | _ | _ | _ <;> rfl

end

theorem writeFlow_safe (h : Quiet S) (idx : Fin maxSessions) (key : FlowKey) (tick : UInt32)
    (isActive : Bool) : Safe w (fun _ S' => Quiet S') (writeFlow idx key tick isActive) S := by
  obtain ⟨hok, heven⟩ := h (.flow idx)
  set x := S (.flow idx) with hx
  have hodd : x.bump.bumps % 2 = 1 := Nat.succ_mod_two_eq_one_iff.mpr heven
  have hstart : Safe w (fun _ S' => Quiet S') (writeFlow idx key tick isActive)
      (Function.update S (.flow idx) x) := by
    refine .bumpSeq (hok.open heven) fun _ => .bind (releasePort_safe idx isActive) ?_
    rintro _ _ rfl
    refine .storeDatum hodd <| .storeDatum hodd <| .storeDatum hodd <| .storeDatum hodd ?_
    refine .bind (takeCursor_safe .port) ?_
    rintro port _ rfl
    refine .storeDatum hodd <| .storeStamp ?_
    have hfilled := fillFlow_ok (hok.open heven) hodd key (htons port)
    have hall := fillFlow_stored x.bump key (htons port)
    refine .publish hfilled hodd hall <| .storeOther <| .ret ?_
    exact h.update (hfilled.publish hodd hall) (Nat.succ_mod_two_eq_zero_iff.mpr hodd)
  rwa [hx, Function.update_eq_self] at hstart

section
variable {idx : Fin maxIcmpSessions} {x : Slot (Session.echo idx).Datum (Session.echo idx).Val}

def fillEcho (x : Slot (Session.echo idx).Datum (Session.echo idx).Val) (key : EchoKey)
    (id : UInt16) : Slot (Session.echo idx).Datum (Session.echo idx).Val :=
  (((x.store EchoDatum.intSaddr key.saddr).store EchoDatum.remoteDaddr key.daddr).store
    EchoDatum.intIdNbo key.idNbo).store EchoDatum.extIdNbo id

theorem fillEcho_ok (h : x.Ok) (hodd : x.bumps % 2 = 1) (key : EchoKey) (id : UInt16) :
    (fillEcho x key id).Ok :=
  (((h.store hodd _ _).store hodd _ _).store hodd _ _).store hodd _ _

theorem fillEcho_stored (x : Slot (Session.echo idx).Datum (Session.echo idx).Val) (key : EchoKey)
    (id : UInt16) (f : (Session.echo idx).Datum) : ((fillEcho x key id).stored f).isSome := by
  rcases f with _ | _ | _ | _ <;> rfl

theorem releaseIcmpSlot_safe :
    Safe w (fun _ S' => S' = Function.update S (.echo idx) (x.setLive false))
      (releaseIcmpSlot idx x.live) (Function.update S (.echo idx) x) := by
  unfold releaseIcmpSlot
  split_ifs with hlive
  · refine safe_loadEcho fun _ => .bind (releaseIndex_safe _ _ _) ?_
    rintro _ _ rfl
    exact .storeActive (fun hx => hx.lower) (.ret rfl)
  · have hx : x.setLive false = x := by
      rw [Slot.setLive, ← Bool.eq_false_iff.mpr hlive]
    rw [hx]
    exact .ret rfl

end

theorem writeEcho_safe (h : Quiet S) (idx : Fin maxIcmpSessions) (key : EchoKey) (tick : UInt32) :
    Safe w (fun _ S' => Quiet S') (writeEcho idx key tick (S (.echo idx)).live) S := by
  obtain ⟨hok, heven⟩ := h (.echo idx)
  set x := S (.echo idx) with hx
  have hodd : x.bump.bumps % 2 = 1 := Nat.succ_mod_two_eq_one_iff.mpr heven
  have hlower := (hok.open heven).lower
  have hstart : Safe w (fun _ S' => Quiet S') (writeEcho idx key tick x.live)
      (Function.update S (.echo idx) x) := by
    refine .bumpSeq (hok.open heven) fun _ => .bind (releaseIcmpSlot_safe (x := x.bump)) ?_
    rintro _ _ rfl
    refine .bind (allocExternalIcmpId_safe 512) ?_
    rintro newExt _ rfl
    unfold fillIcmpSlot
    split_ifs
    · -- no id: nothing has been stored, and the slot is not live
      have hclose := hlower.close hodd fun hlive => nomatch hlive
      refine .bumpSeq hclose fun _ => .ret ?_
      exact h.update hclose (Nat.succ_mod_two_eq_zero_iff.mpr hodd)
    · refine .storeDatum hodd <| .storeDatum hodd <| .storeDatum hodd <| .storeDatum hodd <|
        .storeStamp <| .storeOther ?_
      have hfilled := fillEcho_ok hlower hodd key newExt
      have hall := fillEcho_stored (x.bump.setLive false) key newExt
      refine .publish hfilled hodd hall <| .ret ?_
      exact h.update (hfilled.publish hodd hall) (Nat.succ_mod_two_eq_zero_iff.mpr hodd)
  rwa [hx, Function.update_eq_self] at hstart

theorem touchFlow_safe (h : Quiet S) (idx : Fin maxSessions) (tick : UInt32) :
    Safe w (fun _ S' => Quiet S') (touchFlow idx tick) S :=
  .storeStamp <| safe_loadFlow (k := pure) fun _ => .ret h

theorem probe_safe (h : Quiet S) (key : FlowKey) (tick : UInt32) (slots : List (Fin maxSessions)) :
    Safe w (fun _ S' => Quiet S') (probe key tick slots) S := by
  induction slots with
  | nil => exact .ret h
  | cons idx rest ih =>
    refine .loadActive <| .bind (reusable_safe _ tick _) ?_
    rintro taken _ rfl
    split_ifs
    · exact writeFlow_safe h idx key tick _
    · refine .bind (sameFlow_safe idx key) ?_
      rintro same _ rfl
      split_ifs
      · exact touchFlow_safe h idx tick
      · exact ih

theorem touchEcho_safe (h : Quiet S) (idx : Fin maxIcmpSessions) (tick : UInt32) :
    Safe w (fun _ S' => Quiet S') (touchEcho idx tick) S :=
  .storeStamp <| safe_loadEcho (k := pure) fun _ => .ret h

theorem probeIcmp_safe (h : Quiet S) (key : EchoKey) (tick : UInt32)
    (slots : List (Fin maxIcmpSessions)) :
    Safe w (fun _ S' => Quiet S') (probeIcmp key tick slots) S := by
  induction slots with
  | nil => exact .ret h
  | cons idx rest ih =>
    refine .loadActive <| .bind (reusable_safe _ tick _) ?_
    rintro taken _ rfl
    split_ifs
    · exact writeEcho_safe h idx key tick
    · refine .bind (sameEcho_safe idx key) ?_
      rintro same _ rfl
      split_ifs
      · exact touchEcho_safe h idx tick
      · exact ih

theorem processOutboundIcmp_safe (h : Quiet S) (pkt : ParsedPacket) (ip : Nat) :
    Safe w (fun _ S' => Quiet S') (processOutboundIcmp pkt ip) S := by
  refine .loadOther fun wanIp => ?_
  split_ifs
  · exact .ret h
  · cases NatEngine.echoView pkt ip 8 with
    | none => exact .ret h
    | some icmp =>
      refine .loadOther fun tick => .bind (probeIcmp_safe h _ tick _) fun ext S' hS' => ?_
      split_ifs <;> exact .ret hS'

theorem processOutbound_safe (h : Quiet S) (pkt : ParsedPacket) :
    Safe w (fun _ S' => Quiet S') (processOutbound pkt) S := by
  unfold processOutbound
  cases pkt.ipv4 with
  | none => exact .ret h
  | some ip =>
    refine .loadOther fun wanIp => ?_
    split_ifs
    · exact .ret h
    · exact processOutboundIcmp_safe h pkt ip
    · exact .ret h
    · cases pkt.portView (IPv4Header.protocol pkt.rawSpan ip) with
      | none => exact .ret h
      | some v =>
        refine .loadOther fun tick => .bind (probe_safe h _ tick _) fun ext S' hS' => ?_
        split_ifs <;> exact .ret hS'

end

/-! ## The inbound threads -/

section
variable {τ α : Type} [DecidableEq τ] {r : τ}

def Resolved {β : Type} (T : α → Shared τ NatVal → Prop)
    (found : β → Option α) (b : β) (s : Shared τ NatVal) : Prop :=
  Fine s ∧ ∀ a, found b = some a → T a s

def Attempt.value : Attempt α → Option α
  | .retry => none
  | .refuse => none
  | .resolved a => some a

theorem resolved_of_none {β : Type} {T : α → Shared τ NatVal → Prop}
    {found : β → Option α} {b : β} (hb : found b = none) :
    Reads r Fine (Resolved T found) (pure b : NatProg β) :=
  .ret stable_fine fun s hs => ⟨hs, fun a ha => by rw [hb] at ha; cases ha⟩

theorem stable_resolved {β : Type} {T : α → Shared τ NatVal → Prop}
    (hT : ∀ a, Stable r (T a)) (found : β → Option α) (b : β) :
    Stable r (Resolved T found b) :=
  fun s s' hs h => ⟨stable_fine s s' hs h.1, fun a ha => hT a s s' hs (h.2 a ha)⟩

theorem settle_reads {l : Session} {F : (∀ f, l.Val f) → Prop} {data : α → ∀ f, l.Val f} {a : α}
    (hF : ∀ d, F d → d = data a) (act : Bool) {c : Prop} {_ : Decidable c} :
    Reads r (fun s => Fine s ∧ (act = true → ∀ copy, (∀ d, F d → d = copy) → Untorn r l copy s))
      (Resolved (fun a => Untorn r l (data a)) Attempt.value)
      (if !act then pure .refuse else if c then pure .refuse else pure (.resolved a) :
        NatProg (Attempt α)) := by
  cases act with
  | false => exact (resolved_of_none rfl).mono fun s hs => hs.1
  | true =>
    rw [if_neg (by decide)]
    split_ifs
    · exact (resolved_of_none rfl).mono fun s hs => hs.1
    · refine Reads.mono (T := fun s => Fine s ∧ Untorn r l (data a) s) ?_ fun s hs =>
        ⟨hs.1, hs.2 rfl _ hF⟩
      refine .ret (stable_fine.and stable_untorn) fun s hs => ⟨hs.1, fun a' ha' => ?_⟩
      cases ha'
      exact hs.2

theorem attempt_reads (idx : Fin maxSessions) (saddr : IPv4Net) (sport dport : UInt16) :
    Reads r Fine
      (Resolved (fun c : FlowKey × UInt16 => Untorn r (.flow idx) (flowData c.1 c.2)) Attempt.value)
      (attempt idx saddr sport dport) := by
  refine .loadSeq (fun v hv => ?_) fun b rest hb => ?_
  · rw [if_pos hv]
    exact resolved_of_none rfl
  rw [if_neg (not_not.mpr hb)]
  refine .loadActive fun act => .loadDatum fun v₁ => .loadDatum fun v₂ => .loadDatum fun v₃ =>
    .loadDatum fun v₄ => .loadDatum fun v₅ => .loadSeq_again (fun v hv => ?_) ?_
  · rw [if_pos (.inl (Ne.symm hv))]
    exact resolved_of_none rfl
  rw [if_neg fun h => h.elim (· rfl) (· hb)]
  refine settle_reads (fun d hd => ?_) act
  obtain ⟨⟨⟨⟨⟨-, h₁⟩, h₂⟩, h₃⟩, h₄⟩, h₅⟩ := hd
  funext f
  rcases f with _ | _ | _ | _ | _
  · exact h₁
  · exact h₂
  · exact h₃
  · exact h₄
  · exact h₅

theorem attemptIcmp_reads (idx : Fin maxIcmpSessions) (saddr : IPv4Net) (id : UInt16) :
    Reads r Fine
      (Resolved (fun c : EchoKey × UInt16 => Untorn r (.echo idx) (echoData c.1 c.2)) Attempt.value)
      (attemptIcmp idx saddr id) := by
  refine .loadSeq (fun v hv => ?_) fun b rest hb => ?_
  · rw [if_pos hv]
    exact resolved_of_none rfl
  rw [if_neg (not_not.mpr hb)]
  refine .loadActive fun act => .loadDatum fun v₁ => .loadDatum fun v₂ => .loadDatum fun v₃ =>
    .loadDatum fun v₄ => .loadSeq_again (fun v hv => ?_) ?_
  · rw [if_pos (.inl (Ne.symm hv))]
    exact resolved_of_none rfl
  rw [if_neg fun h => h.elim (· rfl) (· hb)]
  refine settle_reads (fun d hd => ?_) act
  obtain ⟨⟨⟨⟨-, h₁⟩, h₂⟩, h₃⟩, h₄⟩ := hd
  funext f
  rcases f with _ | _ | _ | _
  · exact h₂
  · exact h₁
  · exact h₃
  · exact h₄

theorem retryLoop_reads {T : α → Shared τ NatVal → Prop}
    (hT : ∀ a, Stable r (T a)) {p : NatProg (Attempt α)}
    (hp : Reads r Fine (Resolved T Attempt.value) p) (n : Nat) :
    Reads r Fine (Resolved T id) (retryLoop p n) := by
  induction n with
  | zero => exact resolved_of_none rfl
  | succ n ih =>
    refine .bind hp fun a => ?_
    cases a with
    | retry => exact ih.mono fun s hs => hs.1
    | refuse => exact (resolved_of_none rfl).mono fun s hs => hs.1
    | resolved a =>
      refine .ret (stable_resolved hT _ _) fun s hs => ⟨hs.1, fun a' ha' => ?_⟩
      exact hs.2 a' ha'

def Delivered (r : τ) (out : Inbound) (s : Shared τ NatVal) : Prop :=
  Resolved (fun c => Untorn r c.1 c.2) Inbound.copied out s

theorem processInboundIcmp_reads (pkt : ParsedPacket) (ip : Nat) :
    Reads r Fine (Delivered r) (processInboundIcmp pkt ip) := by
  refine .loadOther stable_fine fun wanIp => ?_
  split_ifs
  · exact resolved_of_none rfl
  cases NatEngine.echoView pkt ip 0 with
  | none => exact resolved_of_none rfl
  | some icmp =>
    refine .loadOther stable_fine fun entry => ?_
    cases slotOf maxIcmpSessions entry with
    | none => exact resolved_of_none rfl
    | some idx =>
      have hstable : ∀ c : EchoKey × UInt16, Stable r (Untorn (V := Session.Val) (W := NatVar.Val) r
          (.echo idx) (echoData c.1 c.2)) := fun _ => stable_untorn
      refine .bind (retryLoop_reads hstable (attemptIcmp_reads idx _ _) 8) fun resolved => ?_
      rcases resolved with _ | ⟨key, ext⟩
      · exact (resolved_of_none rfl).mono fun s hs => hs.1
      · have hcopy := stable_resolved hstable id (some (key, ext))
        refine .loadOther hcopy fun tick => .storeStamp hcopy <| .ret hcopy fun s hs =>
          ⟨hs.1, fun c hc => ?_⟩
        cases hc
        exact hs.2 _ rfl

theorem processInbound_reads (pkt : ParsedPacket) :
    Reads r Fine (Delivered r) (processInbound pkt) := by
  unfold processInbound
  cases pkt.ipv4 with
  | none => exact resolved_of_none rfl
  | some ip =>
    refine .loadOther stable_fine fun wanIp => ?_
    split_ifs
    · exact processInboundIcmp_reads pkt ip
    · exact resolved_of_none rfl
    · exact resolved_of_none rfl
    cases pkt.portView (IPv4Header.protocol pkt.rawSpan ip) with
    | none => exact resolved_of_none rfl
    | some v =>
      refine .loadOther stable_fine fun entry => ?_
      cases slotOf maxSessions entry with
      | none => exact resolved_of_none rfl
      | some idx =>
        have hstable : ∀ c : FlowKey × UInt16, Stable r (Untorn (V := Session.Val) (W := NatVar.Val)
            r (.flow idx) (flowData c.1 c.2)) := fun _ => stable_untorn
        refine .bind (retryLoop_reads hstable (attempt_reads idx _ _ _) 8) fun resolved => ?_
        rcases resolved with _ | ⟨ik, ep⟩
        · exact (resolved_of_none rfl).mono fun s hs => hs.1
        · have hcopy := stable_resolved hstable id (some (ik, ep))
          refine .loadOther hcopy fun tick => .storeStamp hcopy <| .ret hcopy fun s hs =>
            ⟨hs.1, fun c hc => ?_⟩
          cases hc
          exact hs.2 _ rfl

end

/-! ## All the threads -/

section
variable {ρ : Type}

def rely [DecidableEq ρ] : NatThread ρ → Shared (NatThread ρ) NatVal →
    Shared (NatThread ρ) NatVal → Prop
  | .outbound, s, s' => Steady s s'
  | .inbound r, s, s' => Watched (.inbound r) s s'
  | .timer, _, _ => True
  | .control, _, _ => True

def guarantee : NatThread ρ → Shared (NatThread ρ) NatVal →
    Shared (NatThread ρ) NatVal → Prop
  | .outbound, s, s' => Guarded s s'
  | _, s, s' => Steady s s'

def post [DecidableEq ρ] : (t : NatThread ρ) → t.Out →
    Shared (NatThread ρ) NatVal → Prop
  | .outbound, _, s => Quiet (view s)
  | .inbound r, out, s => Fine s ∧ ∀ res, out = some res → Delivered (.inbound r) res s
  | .timer, _, _ => True
  | .control, _, _ => True

theorem guarded_of_guarantee {t : NatThread ρ}
    {s s' : Shared (NatThread ρ) NatVal} (h : guarantee t s s') :
    Guarded s s' := by
  have hsteady : Steady s s' → Guarded s s' := fun hs l => by
    rw [show view s' = view s from hs]
    exact .refl _
  cases t with
  | outbound => exact h
  | inbound r => exact hsteady h
  | timer => exact hsteady h
  | control => exact hsteady h

section
variable [DecidableEq ρ] {s s' s'' : Shared (NatThread ρ) NatVal}

theorem rely_refl (t : NatThread ρ) (s : Shared (NatThread ρ) NatVal) :
    rely t s s := by
  cases t with
  | outbound => rfl
  | inbound r => exact .refl _ s
  | timer => trivial
  | control => trivial

theorem rely_trans (t : NatThread ρ) (h : rely t s s') (h' : rely t s' s'') : rely t s s'' := by
  cases t with
  | outbound => exact Eq.trans h' h
  | inbound r => exact Watched.trans h h'
  | timer => trivial
  | control => trivial

theorem rely_of_guarantee {t u : NatThread ρ} (htu : t ≠ u)
    (s : Shared (NatThread ρ) NatVal)
    (a : Access NatVal) (h : guarantee t s (s.act t a).2) :
    rely u s (s.act t a).2 := by
  cases u with
  | outbound =>
    cases t with
    | outbound => exact absurd rfl htu
    | inbound r => exact h
    | timer => exact h
    | control => exact h
  | inbound r => exact ⟨guarded_of_guarantee h, readings_act_of_ne htu s a⟩
  | timer => trivial
  | control => trivial

theorem body_holds (t : NatThread ρ) (c : t.Call) (out : t.Out) (h : post t out s) :
    Holds t (rely t) (guarantee t) (post t) (body t c) s := by
  cases t with
  | outbound =>
    have hsafe : Safe (outbound : NatThread ρ) (fun (_ : Option Outbound) S' => Quiet S')
        (body (outbound : NatThread ρ) c) (view s) :=
      .bind (processOutbound_safe h c) fun _ _ hS => .ret hS
    exact hsafe s rfl
  | inbound r =>
    have hdelivered : ∀ res, Stable (inbound r) (Delivered (inbound r) res) :=
      stable_resolved (fun _ => stable_untorn) Inbound.copied
    have hreads : Reads (inbound r) Fine (post (inbound r)) (body (inbound r) c) :=
      .bind (processInbound_reads c) fun res => .ret (hdelivered res) fun s hs =>
        ⟨hs.1, fun res' hres => Option.some.inj hres ▸ hs⟩
    exact hreads s h.1
  | timer => exact fun s' _ => ⟨view_modify_other .., fun _ _ => trivial⟩
  | control => exact fun s' _ => ⟨view_store_other .., fun _ _ => trivial⟩

variable (ρ) in
def contract : Contract (system ρ) where
  rely := rely
  guarantee := guarantee
  post := post
  rely_refl := rely_refl
  rely_trans := fun t {_ _ _} h h' => rely_trans t h h'
  compatible := rely_of_guarantee
  calls := fun t c out _ h => body_holds t c out h

end

theorem quiet_start : Quiet (view (start ρ).shared) := by
  intro l
  have hfinished : (view (start ρ).shared l).sections.length = 0 / 2 := rfl
  cases l with
  | flow i => exact ⟨⟨rfl, hfinished, fun _ _ h => (nomatch h), fun _ h => nomatch h⟩, rfl⟩
  | echo i => exact ⟨⟨rfl, hfinished, fun _ _ h => (nomatch h), fun _ h => nomatch h⟩, rfl⟩

theorem holdsFor_start [DecidableEq ρ] : (contract ρ).HoldsFor (start ρ) := by
  intro t
  cases t with
  | outbound =>
    intro s hs
    show Quiet (view s)
    rw [show view s = view (start ρ).shared from hs]
    exact quiet_start
  | inbound r =>
    intro s hs
    exact ⟨stable_fine _ s hs fun l => (quiet_start l).1, fun _ h => nomatch h⟩
  | timer => exact fun _ _ => trivial
  | control => exact fun _ _ => trivial

/-- However the threads are interleaved, what an inbound call copied out of a session is what one
creation of a session in that slot stored. -/
theorem seqlock_reads_never_torn [DecidableEq ρ] (turns : List (SharedMemory.Turn (system ρ)))
    {r : ρ} {res : Inbound} {l : Session} {copy : (f : l.Datum) → l.Val f}
    (hret : (LabelledRun.exec Machine.step (start ρ) turns).prog (.inbound r) =
      .ret (some res : Option Inbound))
    (hcopied : res.copied = some ⟨l, copy⟩) :
    Untorn (.inbound r) l copy (LabelledRun.exec Machine.step (start ρ) turns).shared := by
  have hpost := holdsFor_start.post_of_run turns hret
  exact (hpost.2 res rfl).2 _ hcopied

def echoRequest : ParsedPacket :=
  .parse (makeIcmpPkt 8 (octets 192 168 1 100) (octets 8 8 8 8) 4242)

def echoReply : ParsedPacket := .parse (makeIcmpPkt 0 (octets 8 8 8 8) (octets 203 0 113 1) 25000)

def accesses (t : NatThread Unit) (n : ℕ) : List (SharedMemory.Turn (system Unit)) :=
  List.replicate n (.access t)

def earlyReply : List (SharedMemory.Turn (system Unit)) :=
  [.call control (octets 203 0 113 1), .access control, .call outbound echoRequest] ++
    accesses outbound 15 ++ [.call (inbound ()) echoReply] ++ accesses (inbound ()) 4 ++
    accesses outbound 2 ++ accesses (inbound ()) 9

theorem early_reply_not_torn :
    ∃ res l copy, (LabelledRun.exec Machine.step (start Unit) earlyReply).prog (.inbound ()) =
        .ret (some res : Option Inbound) ∧ res.copied = some ⟨l, copy⟩ ∧
      Untorn (.inbound ()) l copy
        (LabelledRun.exec Machine.step (start Unit) earlyReply).shared := by
  have hresolved : ((((LabelledRun.exec Machine.step (start Unit) earlyReply).prog
      (.inbound ())).result : Option (Option Inbound)).join.bind Inbound.copied).isSome = true := by
    decide +kernel
  obtain ⟨⟨l, copy⟩, hcopy⟩ := Option.isSome_iff_exists.mp hresolved
  obtain ⟨res, hres, hcopied⟩ := Option.bind_eq_some_iff.mp hcopy
  have hret := Prog.eq_ret_of_result (Option.join_eq_some_iff.mp hres)
  exact ⟨res, l, copy, hret, hcopied, seqlock_reads_never_torn earlyReply hret hcopied⟩

end

end NatThread
end Hpgtp
