import TrafficPrioritizer.Lib.Run
import TrafficPrioritizer.Scheduler.TokenBucket

/-! The way of a bandwidth cap from the GUI to the token buckets: pending values
and a dirty flag, taken over by the 1 Hz tick, then the pending limit of each
bucket, taken over by its next refill. Each atomic access is a step. -/

namespace Hpgtp
open LabelledRun Function

inductive Side where
  | dl
  | ul
  deriving DecidableEq

structure Bandwidth where
  caps : Side → ℚ
  accepted : ∀ side, 0 < caps side ∧ 1 / 10 ≤ caps side ∧ caps side ≤ 1000000

def Bandwidth.ofInput (dl ul : ℚ) : Option Bandwidth :=
  if h : dl ≤ 0 ∨ ul ≤ 0 ∨ dl < 1 / 10 ∨ ul < 1 / 10 ∨ 1000000 < dl ∨ 1000000 < ul then none
  else some {
    caps := fun | .dl => dl | .ul => ul
    accepted := by
      simp only [not_or, not_le, not_lt] at h
      obtain ⟨hdl, hul, hdl', hul', hdl'', hul''⟩ := h
      rintro (_ | _)
      · exact ⟨hdl, hdl', hdl''⟩
      · exact ⟨hul, hul', hul''⟩ }

theorem Bandwidth.ofInput_caps (bw : Bandwidth) :
    Bandwidth.ofInput (bw.caps .dl) (bw.caps .ul) = some bw := by
  obtain ⟨caps, accepted⟩ := bw
  obtain ⟨hdl, hdl', hdl''⟩ := accepted .dl
  obtain ⟨hul, hul', hul''⟩ := accepted .ul
  have hok : ¬ (caps .dl ≤ 0 ∨ caps .ul ≤ 0 ∨ caps .dl < 1 / 10 ∨ caps .ul < 1 / 10 ∨
      1000000 < caps .dl ∨ 1000000 < caps .ul) := by
    simp only [not_or, not_le, not_lt]
    exact ⟨hdl, hul, hdl', hul', hdl'', hul''⟩
  rw [ofInput, dif_neg hok, Option.some.injEq, Bandwidth.mk.injEq]
  funext side
  cases side <;> rfl

theorem Bandwidth.pos (bw : Bandwidth) (side : Side) : 0 < bw.caps side := (bw.accepted side).1

inductive GuiRequest where
  | apply (dl ul : ℚ)
  | toggle (accel : Bool)

inductive GuiPc where
  | idle
  | dlStored (bw : Bandwidth)
  | ulStored (bw : Bandwidth)
  | accelStored

def GuiPc.Free : GuiPc → Prop
  | .idle => True
  | .accelStored => True
  | _ => False

inductive TickPc where
  | idle
  | modeTaken
  | modeLoaded (accel : Bool)
  | configStored (accel : Bool)
  | accelPublished (accel : Bool)
  | modeDone
  | taken
  | dlLoaded
  | ulLoaded
  | dlPublished
  | ulPublished
  | dlSet
  deriving DecidableEq

def TickPc.BeforeExchange : TickPc → Prop
  | .modeTaken => True
  | .modeLoaded _ => True
  | .configStored _ => True
  | .accelPublished _ => True
  | .modeDone => True
  | _ => False

inductive RefillPc where
  | idle
  | exchanged (request : ℚ)

structure Limited where
  bucket : TokenBucket
  refill : RefillPc

structure Qos where
  pending : Side → ℚ
  dirty : Bool
  accelerationPending : Bool
  modeDirty : Bool
  base : Side → ℚ
  effective : Side → ℚ
  enableAcceleration : Bool
  effectiveAcceleration : Bool
  effectiveBridgeMode : Bool
  shaper : Side → Limited
  gui : GuiPc
  tick : TickPc

/-- A GUI thread at work does not look at the request it is given. -/
inductive QosTurn where
  | gui (request : GuiRequest)
  | tick
  | refill (side : Side) (clock : Readings)

inductive QosEvent where
  | other
  | applyStarted
  | applied (bw : Bandwidth)
  | tickStarted
  | tickDone
  | refillStarted (side : Side)
  | refillDone (side : Side)

namespace Limited

def refillStep (l : Limited) (clock : Readings) : Limited :=
  match l.refill with
  | .idle => ⟨{ l.bucket with requestedLimit := -1 }, .exchanged l.bucket.requestedLimit⟩
  | .exchanged request => ⟨l.bucket.refillWith request clock, .idle⟩

def setRate (l : Limited) (limit : ℚ) : Limited := { l with bucket := l.bucket.setRate limit }

def OnWay (l : Limited) (limit : ℚ) : Prop :=
  l.bucket.requestedLimit = limit ∨ l.bucket.requestedLimit = -1 ∧
    match l.refill with
    | .idle => l.bucket.rateBytesPerSec = TokenBucket.bytesPerSec limit
    | .exchanged request => request = limit ∨
        request = -1 ∧ l.bucket.rateBytesPerSec = TokenBucket.bytesPerSec limit

def Taken (l : Limited) (limit : ℚ) : Prop := l.OnWay limit ∧ l.bucket.requestedLimit = -1

def Reached (l : Limited) (limit : ℚ) : Prop :=
  l.Taken limit ∧ l.bucket.rateBytesPerSec = TokenBucket.bytesPerSec limit

variable {l : Limited} {limit : ℚ}

theorem refillWith_reaches {b : TokenBucket} {request : ℚ} (hlimit : 0 < limit)
    (h : request = limit ∨ request = -1 ∧ b.rateBytesPerSec = TokenBucket.bytesPerSec limit)
    (clock : Readings) :
    (b.refillWith request clock).rateBytesPerSec = TokenBucket.bytesPerSec limit := by
  rw [TokenBucket.refillWith_rate]
  rcases h with rfl | ⟨rfl, hrate⟩
  · rw [if_pos hlimit.le]
  · rw [if_neg (by norm_num), hrate]

theorem OnWay.refillStep (h : l.OnWay limit) (hlimit : 0 < limit) (clock : Readings) :
    (l.refillStep clock).OnWay limit := by
  obtain ⟨bucket, refill⟩ := l
  cases refill with
  | idle =>
    refine .inr ⟨rfl, ?_⟩
    rcases h with hreq | ⟨hreq, hrate⟩
    · exact .inl hreq
    · exact .inr ⟨hreq, hrate⟩
  | exchanged request =>
    show (Limited.mk (bucket.refillWith request clock) .idle).OnWay limit
    unfold OnWay
    rw [TokenBucket.refillWith_requestedLimit]
    rcases h with hreq | ⟨hreq, hrate⟩
    · exact .inl hreq
    · exact .inr ⟨hreq, refillWith_reaches hlimit hrate clock⟩

theorem Taken.refillStep (h : l.Taken limit) (hlimit : 0 < limit) (clock : Readings) :
    (l.refillStep clock).Taken limit := by
  refine ⟨h.1.refillStep hlimit clock, ?_⟩
  obtain ⟨bucket, refill⟩ := l
  cases refill with
  | idle => rfl
  | exchanged request => exact (TokenBucket.refillWith_requestedLimit ..).trans h.2

theorem OnWay.taken_of_start (h : l.OnWay limit) (hlimit : 0 < limit) (clock : Readings)
    (hidle : l.refill = .idle) : (l.refillStep clock).Taken limit := by
  refine ⟨h.refillStep hlimit clock, ?_⟩
  rw [Limited.refillStep, hidle]

theorem Taken.reached_of_done (h : l.Taken limit) (hlimit : 0 < limit) (clock : Readings)
    {request : ℚ} (hpc : l.refill = .exchanged request) : (l.refillStep clock).Reached limit := by
  refine ⟨h.refillStep hlimit clock, ?_⟩
  obtain ⟨bucket, refill⟩ := l
  obtain rfl : refill = .exchanged request := hpc
  refine refillWith_reaches hlimit ?_ clock
  -- a limit still pending would be the `-1` that the exchange left
  rcases h.1 with hreq | ⟨-, hrate⟩
  · have hneg : (-1 : ℚ) = limit := h.2.symm.trans hreq
    rw [← hneg] at hlimit
    exact absurd hlimit (by norm_num)
  · exact hrate

theorem Reached.refillStep (h : l.Reached limit) (hlimit : 0 < limit) (clock : Readings) :
    (l.refillStep clock).Reached limit := by
  rcases hpc : l.refill with _ | request
  · refine ⟨h.1.refillStep hlimit clock, ?_⟩
    rw [Limited.refillStep, hpc]
    exact h.2
  · exact h.1.reached_of_done hlimit clock hpc

end Limited

namespace Qos

def init (pending : Side → ℚ) (dirty accel modeDirty : Bool) (now : Side → ℚ) : Qos where
  pending := pending
  dirty := dirty
  accelerationPending := accel
  modeDirty := modeDirty
  base := pending
  effective := pending
  enableAcceleration := accel
  effectiveAcceleration := accel
  effectiveBridgeMode := !accel
  shaper := fun side => ⟨.new (pending side) (now side), .idle⟩
  gui := .idle
  tick := .idle

def guiStep (s : Qos) (request : GuiRequest) : Qos :=
  match s.gui with
  | .idle =>
    match request with
    | .apply dl ul =>
      match Bandwidth.ofInput dl ul with
      | none => s
      | some bw => { s with pending := update s.pending .dl (bw.caps .dl), gui := .dlStored bw }
    | .toggle accel => { s with accelerationPending := accel, gui := .accelStored }
  | .dlStored bw => { s with pending := update s.pending .ul (bw.caps .ul), gui := .ulStored bw }
  | .ulStored _ => { s with dirty := true, gui := .idle }
  | .accelStored => { s with modeDirty := true, gui := .idle }

def tickStep (s : Qos) : Qos :=
  match s.tick with
  | .idle => { s with modeDirty := false, tick := if s.modeDirty then .modeTaken else .modeDone }
  | .modeTaken => { s with tick := .modeLoaded s.accelerationPending }
  | .modeLoaded accel => { s with enableAcceleration := accel, tick := .configStored accel }
  | .configStored accel => { s with effectiveAcceleration := accel, tick := .accelPublished accel }
  | .accelPublished accel => { s with effectiveBridgeMode := !accel, tick := .modeDone }
  | .modeDone => { s with dirty := false, tick := if s.dirty then .taken else .idle }
  | .taken => { s with base := update s.base .dl (s.pending .dl), tick := .dlLoaded }
  | .dlLoaded => { s with base := update s.base .ul (s.pending .ul), tick := .ulLoaded }
  | .ulLoaded => { s with effective := update s.effective .dl (s.base .dl), tick := .dlPublished }
  | .dlPublished => { s with effective := update s.effective .ul (s.base .ul), tick := .ulPublished }
  | .ulPublished =>
    { s with shaper := update s.shaper .dl ((s.shaper .dl).setRate (s.base .dl)), tick := .dlSet }
  | .dlSet =>
    { s with shaper := update s.shaper .ul ((s.shaper .ul).setRate (s.base .ul)), tick := .idle }

def step (s : Qos) : QosTurn → Qos
  | .gui request => s.guiStep request
  | .tick => s.tickStep
  | .refill side clock =>
    { s with shaper := update s.shaper side ((s.shaper side).refillStep clock) }

def event (s : Qos) : QosTurn → QosEvent
  | .gui request =>
    match s.gui, request with
    | .idle, .apply dl ul => if (Bandwidth.ofInput dl ul).isSome then .applyStarted else .other
    | .ulStored bw, _ => .applied bw
    | _, _ => .other
  | .tick =>
    match s.tick with
    | .idle => .tickStarted
    | .modeDone => if s.dirty then .other else .tickDone
    | .dlSet => .tickDone
    | _ => .other
  | .refill side _ =>
    match (s.shaper side).refill with
    | .idle => .refillStarted side
    | .exchanged _ => .refillDone side

/-! ## From the apply to the buckets -/

theorem guiStep_of_free {s : Qos} {request : GuiRequest} (hfree : s.gui.Free)
    (hev : s.event (.gui request) ≠ .applyStarted) : ∃ accel modeDirty, ∃ gui : GuiPc, gui.Free ∧
      s.guiStep request =
        { s with accelerationPending := accel, modeDirty := modeDirty, gui := gui } := by
  obtain ⟨pending, dirty, accel, modeDirty, base, effective, _, _, _, shaper, gui, tick⟩ := s
  cases gui with
  | idle =>
    cases request with
    | toggle accel' => exact ⟨accel', modeDirty, .accelStored, trivial, rfl⟩
    | apply dl ul =>
      cases hin : Bandwidth.ofInput dl ul with
      | some bw => exact absurd (by simp [event, hin]) hev
      | none => exact ⟨accel, modeDirty, .idle, trivial, by simp only [guiStep, hin]⟩
  | accelStored => exact ⟨accel, true, .idle, trivial, rfl⟩
  | dlStored bw => exact hfree.elim
  | ulStored bw => exact hfree.elim

@[simp] theorem tickStep_pending (s : Qos) : s.tickStep.pending = s.pending := by
  unfold tickStep
  cases s.tick <;> rfl

@[simp] theorem tickStep_gui (s : Qos) : s.tickStep.gui = s.gui := by
  unfold tickStep
  cases s.tick <;> rfl

def GuiOk (s : Qos) : Prop :=
  match s.gui with
  | .dlStored bw => s.pending .dl = bw.caps .dl
  | .ulStored bw => s.pending = bw.caps
  | _ => True

theorem GuiOk.step {s : Qos} (h : GuiOk s) (turn : QosTurn) : GuiOk (s.step turn) := by
  cases turn with
  | tick =>
    show GuiOk s.tickStep
    unfold GuiOk at *
    rwa [tickStep_pending, tickStep_gui]
  | refill side clock => exact h
  | gui request =>
    obtain ⟨pending, dirty, accel, modeDirty, base, effective, _, _, _, shaper, gui, tick⟩ := s
    cases gui with
    | idle =>
      cases request with
      | toggle _ => trivial
      | apply dl ul =>
        cases hin : Bandwidth.ofInput dl ul with
        | none => simp [GuiOk, Qos.step, guiStep, hin]
        | some bw => simp [GuiOk, Qos.step, guiStep, hin]
    | accelStored => trivial
    | ulStored bw => trivial
    | dlStored bw =>
      funext side
      cases side with
      | dl => exact h
      | ul => rfl

def Underway (s : Qos) (caps : Side → ℚ) : Prop :=
  match s.tick with
  | .taken => True
  | .dlLoaded => s.base .dl = caps .dl
  | .ulLoaded => s.base = caps
  | .dlPublished => s.base = caps ∧ s.effective .dl = caps .dl
  | .ulPublished => s.base = caps ∧ s.effective = caps
  | .dlSet => s.base = caps ∧ s.effective = caps ∧ (s.shaper .dl).OnWay (caps .dl)
  | _ => s.effective = caps ∧ ∀ side, (s.shaper side).OnWay (caps side)

structure Applied (bw : Bandwidth) (s : Qos) : Prop where
  pending : s.pending = bw.caps
  gui : s.gui.Free
  way : s.dirty = true ∨ s.Underway bw.caps

structure Noticed (bw : Bandwidth) (s : Qos) : Prop extends Applied bw s where
  before : s.dirty = true → s.tick.BeforeExchange

structure Published (bw : Bandwidth) (s : Qos) : Prop where
  gui : s.gui.Free
  dirty : s.dirty = false
  tick : s.tick = .idle ∨ s.tick.BeforeExchange
  effective : s.effective = bw.caps
  shaper : ∀ side, (s.shaper side).OnWay (bw.caps side)

section Stages
variable {bw : Bandwidth} {s : Qos}

theorem refill_shaper {P : Limited → Prop} (hP : ∀ l clock, P l → P (l.refillStep clock))
    (side : Side) (clock : Readings) {side' : Side} (h : P (s.shaper side')) :
    P ((s.step (.refill side clock)).shaper side') := by
  show P (update s.shaper side _ side')
  rcases eq_or_ne side' side with rfl | hne
  · rw [update_self]
    exact hP _ clock h
  · rwa [update_of_ne hne]

theorem Underway.refill {caps : Side → ℚ} (h : s.Underway caps) (hcaps : ∀ side, 0 < caps side)
    (side : Side) (clock : Readings) : (s.step (.refill side clock)).Underway caps := by
  have hway : ∀ side', (s.shaper side').OnWay (caps side') →
      ((s.step (.refill side clock)).shaper side').OnWay (caps side') := fun side' =>
    refill_shaper (P := fun l => l.OnWay (caps side'))
      (fun _ clock h => h.refillStep (hcaps side') clock) side clock
  obtain ⟨pending, dirty, accel, modeDirty, base, effective, _, _, _, shaper, gui, tick⟩ := s
  cases tick with
  | dlSet => exact ⟨h.1, h.2.1, hway _ h.2.2⟩
  | idle | modeTaken | modeLoaded | configStored | accelPublished | modeDone =>
    exact ⟨h.1, fun side' => hway _ (h.2 side')⟩
  | taken | dlLoaded | ulLoaded | dlPublished | ulPublished => exact h

theorem tick_underway (hpending : s.pending = bw.caps)
    (h : s.dirty = true ∨ s.Underway bw.caps) :
    s.tickStep.dirty = true ∨ s.tickStep.Underway bw.caps := by
  obtain ⟨pending, dirty, accel, modeDirty, base, effective, _, _, _, shaper, gui, tick⟩ := s
  obtain rfl : pending = bw.caps := hpending
  cases tick with
  | modeDone =>
    refine .inr ?_
    cases dirty with
    -- the flag is taken: the caps are the tick's business from now on
    | true => trivial
    | false => exact h.resolve_left Bool.false_ne_true
  | idle =>
    refine h.imp_right fun hway => ?_
    cases modeDirty <;> exact hway
  | modeTaken | modeLoaded | configStored | accelPublished => exact h
  -- from here on each step moves one cap along
  | taken => exact h.imp_right fun _ => rfl
  | dlLoaded =>
    refine h.imp_right fun hbase => funext fun side => ?_
    cases side with
    | dl => exact hbase
    | ul => rfl
  | ulLoaded => exact h.imp_right fun hbase => ⟨hbase, congrFun hbase .dl⟩
  | dlPublished =>
    refine h.imp_right fun ⟨hbase, heff⟩ => ⟨hbase, funext fun side => ?_⟩
    cases side with
    | dl => exact heff
    | ul => exact congrFun hbase .ul
  | ulPublished =>
    refine h.imp_right fun ⟨hbase, heff⟩ => ⟨hbase, heff, .inl ?_⟩
    exact congrFun hbase .dl
  | dlSet =>
    refine h.imp_right fun ⟨hbase, heff, hdl⟩ => ⟨heff, fun side => ?_⟩
    cases side with
    | dl => exact hdl
    | ul => exact .inl (congrFun hbase .ul)

theorem Applied.step (h : Applied bw s) {turn : QosTurn} (hev : s.event turn ≠ .applyStarted) :
    Applied bw (s.step turn) := by
  cases turn with
  | gui request =>
    obtain ⟨accel, modeDirty, gui, hgui, heq⟩ := guiStep_of_free h.gui hev
    show Applied bw (s.guiStep request)
    rw [heq]
    exact ⟨h.pending, hgui, h.way⟩
  | tick =>
    refine ⟨s.tickStep_pending.trans h.pending, ?_, tick_underway h.pending h.way⟩
    show s.tickStep.gui.Free
    rw [tickStep_gui]
    exact h.gui
  | refill side clock =>
    exact ⟨h.pending, h.gui, h.way.imp_right fun hway => hway.refill bw.pos side clock⟩

theorem tick_before (h : s.dirty = true → s.tick.BeforeExchange)
    (hd : s.tickStep.dirty = true) : s.tickStep.tick.BeforeExchange := by
  obtain ⟨pending, dirty, accel, modeDirty, base, effective, _, _, _, shaper, gui, tick⟩ := s
  cases tick with
  | idle => cases modeDirty <;> trivial
  | modeDone => cases hd
  | modeTaken | modeLoaded | configStored | accelPublished => trivial
  -- past the exchange the flag was down, and only an apply raises it
  | taken | dlLoaded | ulLoaded | dlPublished | ulPublished | dlSet => exact (h hd).elim

theorem Noticed.step (h : Noticed bw s) {turn : QosTurn} (hev : s.event turn ≠ .applyStarted) :
    Noticed bw (s.step turn) := by
  refine ⟨h.toApplied.step hev, ?_⟩
  cases turn with
  | gui request =>
    obtain ⟨accel, modeDirty, gui, hgui, heq⟩ := guiStep_of_free h.gui hev
    show (s.guiStep request).dirty = true → (s.guiStep request).tick.BeforeExchange
    rw [heq]
    exact h.before
  | tick => exact tick_before h.before
  | refill side clock => exact h.before

def Means (s : Qos) (turn : QosTurn) : QosEvent → Prop
  | .applied bw => ∃ request, turn = .gui request ∧ s.gui = .ulStored bw
  | .tickStarted => turn = .tick ∧ s.tick = .idle
  | .tickDone => turn = .tick ∧ (s.tick = .modeDone ∧ s.dirty = false ∨ s.tick = .dlSet)
  | .refillStarted side => ∃ clock, turn = .refill side clock ∧ (s.shaper side).refill = .idle
  | .refillDone side => ∃ clock request, turn = .refill side clock ∧
      (s.shaper side).refill = .exchanged request
  | _ => True

theorem event_means (s : Qos) (turn : QosTurn) : s.Means turn (s.event turn) := by
  obtain ⟨pending, dirty, accel, modeDirty, base, effective, _, _, _, shaper, gui, tick⟩ := s
  cases turn with
  | gui request =>
    cases gui with
    | idle =>
      cases request with
      | toggle _ => trivial
      | apply dl ul =>
        unfold event
        dsimp only
        split_ifs <;> trivial
    | ulStored bw => exact ⟨request, rfl, rfl⟩
    | dlStored bw => trivial
    | accelStored => trivial
  | tick =>
    cases tick with
    | idle => exact ⟨rfl, rfl⟩
    | dlSet => exact ⟨rfl, .inr rfl⟩
    | modeDone =>
      cases dirty with
      | true => trivial
      | false => exact ⟨rfl, .inl ⟨rfl, rfl⟩⟩
    | _ => trivial
  | refill side clock =>
    unfold event
    dsimp only
    split
    · exact ⟨clock, rfl, ‹_›⟩
    · exact ⟨clock, _, rfl, ‹_›⟩

theorem means_of_event {turn : QosTurn} {e : QosEvent} (h : s.event turn = e) : s.Means turn e :=
  h ▸ s.event_means turn

theorem GuiOk.applied (h : GuiOk s) {turn : QosTurn} (hev : s.event turn = .applied bw) :
    Applied bw (s.step turn) := by
  obtain ⟨request, rfl, hgui⟩ := means_of_event hev
  have hstep : s.step (.gui request) = { s with dirty := true, gui := .idle } := by
    simp only [Qos.step, guiStep, hgui]
  rw [GuiOk, hgui] at h
  rw [hstep]
  exact ⟨h, trivial, .inl rfl⟩

theorem Applied.noticed (h : Applied bw s) {turn : QosTurn} (hev : s.event turn = .tickStarted) :
    Noticed bw (s.step turn) := by
  refine ⟨h.step (by rw [hev]; nofun), fun _ => ?_⟩
  obtain ⟨rfl, htick⟩ := means_of_event hev
  show s.tickStep.tick.BeforeExchange
  rw [tickStep, htick]
  cases s.modeDirty <;> trivial

theorem Noticed.published (h : Noticed bw s) {turn : QosTurn} (hev : s.event turn = .tickDone) :
    Published bw (s.step turn) := by
  have happlied : Applied bw (s.step turn) := h.toApplied.step (by rw [hev]; nofun)
  obtain ⟨rfl, htick⟩ := means_of_event hev
  -- the tick that is done has cleared the flag, and nothing raised it again
  have hdirty : (s.step .tick).dirty = false ∧ (s.step .tick).tick = .idle := by
    show s.tickStep.dirty = false ∧ s.tickStep.tick = .idle
    rcases htick with ⟨htick, hdirty⟩ | htick
    · rw [tickStep, htick, hdirty]
      exact ⟨rfl, rfl⟩
    · have hbefore := mt h.before (by rw [htick]; exact id)
      rw [tickStep, htick]
      exact ⟨Bool.not_eq_true _ ▸ hbefore, rfl⟩
  have hdone := happlied.way.resolve_left (by rw [hdirty.1]; exact Bool.false_ne_true)
  rw [Underway, hdirty.2] at hdone
  exact ⟨happlied.gui, hdirty.1, .inl hdirty.2, hdone.1, hdone.2⟩

theorem Published.tickStep (h : Published bw s) : s.tickStep.dirty = false ∧
    (s.tickStep.tick = .idle ∨ s.tickStep.tick.BeforeExchange) ∧
      s.tickStep.effective = s.effective ∧ s.tickStep.shaper = s.shaper := by
  obtain ⟨-, hdirty, htick, -, -⟩ := h
  obtain ⟨pending, dirty, accel, modeDirty, base, effective, _, _, _, shaper, gui, tick⟩ := s
  obtain rfl : dirty = false := hdirty
  cases tick with
  | idle => exact ⟨rfl, .inr (by cases modeDirty <;> trivial), rfl, rfl⟩
  | modeDone => exact ⟨rfl, .inl rfl, rfl, rfl⟩
  | modeTaken | modeLoaded | configStored | accelPublished =>
    exact ⟨rfl, .inr trivial, rfl, rfl⟩
  | taken | dlLoaded | ulLoaded | dlPublished | ulPublished | dlSet =>
    exact (htick.resolve_left nofun).elim

theorem Published.keeps (h : Published bw s) {turn : QosTurn}
    (hev : s.event turn ≠ .applyStarted) {P : Limited → Prop}
    (hP : ∀ l clock, P l → P (l.refillStep clock)) {side : Side} (hside : P (s.shaper side)) :
    P ((s.step turn).shaper side) := by
  cases turn with
  | gui request =>
    obtain ⟨accel, modeDirty, gui, -, heq⟩ := guiStep_of_free h.gui hev
    show P ((s.guiStep request).shaper side)
    rwa [heq]
  | tick =>
    show P (s.tickStep.shaper side)
    rwa [h.tickStep.2.2.2]
  | refill side' clock => exact refill_shaper hP side' clock hside

theorem Published.step (h : Published bw s) {turn : QosTurn}
    (hev : s.event turn ≠ .applyStarted) : Published bw (s.step turn) := by
  have hshaper : ∀ side, ((s.step turn).shaper side).OnWay (bw.caps side) := fun side =>
    h.keeps (P := fun l => l.OnWay (bw.caps side)) hev
      (fun _ clock hl => hl.refillStep (bw.pos side) clock) (h.shaper side)
  cases turn with
  | gui request =>
    obtain ⟨accel, modeDirty, gui, hgui, heq⟩ := guiStep_of_free h.gui hev
    rw [show s.step (.gui request) = _ from heq] at hshaper ⊢
    exact ⟨hgui, h.dirty, h.tick, h.effective, hshaper⟩
  | tick =>
    obtain ⟨hdirty, htick, heff, -⟩ := h.tickStep
    refine ⟨?_, hdirty, htick, heff.trans h.effective, hshaper⟩
    show s.tickStep.gui.Free
    rw [tickStep_gui]
    exact h.gui
  | refill side clock => exact ⟨h.gui, h.dirty, h.tick, h.effective, hshaper⟩

end Stages

def NoApply (s : Qos) (run : List QosTurn) : Prop :=
  Every step (fun s turn => s.event turn ≠ .applyStarted) s run

section Runs
variable {bw : Bandwidth} {s : Qos} {run : List QosTurn}

theorem next_stage {I J : Qos → Prop} {e : QosEvent} {es : List QosEvent}
    (hstep : ∀ s turn, I s → s.event turn ≠ .applyStarted → I (s.step turn))
    (hnext : ∀ s turn, I s → s.event turn = e → J (s.step turn)) (hs : I s)
    (hrun : NoApply s run) (hes : (e :: es).Sublist (trace step event s run)) :
    ∃ s' run', J s' ∧ NoApply s' run' ∧ es.Sublist (trace step event s' run') ∧
      exec step s run = exec step s' run' := by
  obtain ⟨before, turn, after, rfl, hev, hrest⟩ := exists_of_cons_sublist_trace hes
  obtain ⟨hbefore, -, hafter⟩ := every_append.mp hrun
  exact ⟨_, after, hnext _ turn (hbefore.invariant hstep hs) hev, hafter, hrest,
    by rw [exec_append, exec_cons]⟩

theorem published_of_ticked {es : List QosEvent} (h : Applied bw s) (hrun : NoApply s run)
    (hes : (.tickStarted :: .tickDone :: es).Sublist (trace step event s run)) :
    ∃ s' run', Published bw s' ∧ NoApply s' run' ∧ es.Sublist (trace step event s' run') ∧
      exec step s run = exec step s' run' := by
  obtain ⟨s₁, run₁, h₁, hrun₁, hes₁, heq₁⟩ := next_stage (fun _ _ h hev => h.step hev)
    (fun _ _ h hev => h.noticed hev) h hrun hes
  obtain ⟨s₂, run₂, h₂, hrun₂, hes₂, heq₂⟩ := next_stage (fun _ _ h hev => h.step hev)
    (fun _ _ h hev => h.published hev) h₁ hrun₁ hes₁
  exact ⟨s₂, run₂, h₂, hrun₂, hes₂, heq₁.trans heq₂⟩

theorem Published.step_and {side : Side} {turn : QosTurn} {P : Limited → Prop}
    (hP : ∀ l clock, P l → P (l.refillStep clock)) (h : Published bw s ∧ P (s.shaper side))
    (hev : s.event turn ≠ .applyStarted) :
    Published bw (s.step turn) ∧ P ((s.step turn).shaper side) :=
  ⟨h.1.step hev, h.1.keeps hev hP h.2⟩

theorem taken_of_start {side : Side} {turn : QosTurn} (h : Published bw s)
    (hev : s.event turn = .refillStarted side) :
    Published bw (s.step turn) ∧ ((s.step turn).shaper side).Taken (bw.caps side) := by
  refine ⟨h.step (by rw [hev]; nofun), ?_⟩
  obtain ⟨clock, rfl, hpc⟩ := means_of_event hev
  show (update s.shaper side _ side).Taken _
  rw [update_self]
  exact (h.shaper side).taken_of_start (bw.pos side) clock hpc

theorem reached_of_done {side : Side} {turn : QosTurn} (h : Published bw s)
    (htaken : (s.shaper side).Taken (bw.caps side)) (hev : s.event turn = .refillDone side) :
    Published bw (s.step turn) ∧ ((s.step turn).shaper side).Reached (bw.caps side) := by
  refine ⟨h.step (by rw [hev]; nofun), ?_⟩
  obtain ⟨clock, request, rfl, hpc⟩ := means_of_event hev
  show (update s.shaper side _ side).Reached _
  rw [update_self]
  exact htaken.reached_of_done (bw.pos side) clock hpc

theorem reached_of_refilled {side : Side} (h : Published bw s) (hrun : NoApply s run)
    (hes : [.refillStarted side, .refillDone side].Sublist (trace step event s run)) :
    ((exec step s run).shaper side).Reached (bw.caps side) := by
  obtain ⟨s₁, run₁, h₁, hrun₁, hes₁, heq₁⟩ := next_stage
    (J := fun s => Published bw s ∧ (s.shaper side).Taken (bw.caps side))
    (fun _ _ h hev => h.step hev) (fun _ _ h hev => taken_of_start h hev) h hrun hes
  obtain ⟨s₂, run₂, h₂, hrun₂, -, heq₂⟩ := next_stage
    (J := fun s => Published bw s ∧ (s.shaper side).Reached (bw.caps side))
    (fun _ _ => Published.step_and (P := fun l => l.Taken (bw.caps side))
      fun _ clock hl => hl.refillStep (bw.pos side) clock)
    (fun _ _ h hev => reached_of_done h.1 h.2 hev) h₁ hrun₁ hes₁
  rw [heq₁, heq₂]
  exact (Every.invariant (fun _ _ => Published.step_and (P := fun l => l.Reached (bw.caps side))
    fun _ clock hl => hl.refillStep (bw.pos side) clock) hrun₂ h₂).2

/-- After the last apply, once a tick has started and one is done, the effective caps are those
of the apply; and once a bucket has then been refilled, it is at its cap's rate. -/
theorem no_lost_bandwidth_update (pending now : Side → ℚ) (dirty accel modeDirty : Bool)
    (before after : List QosTurn) (turn : QosTurn) (bw : Bandwidth) :
    let s := exec step (init pending dirty accel modeDirty now) before
    let events := trace step event (s.step turn) after
    let final := exec step (s.step turn) after
    s.event turn = .applied bw → NoApply (s.step turn) after →
      ([.tickStarted, .tickDone].Sublist events → final.effective = bw.caps) ∧
      ∀ side, [.tickStarted, .tickDone, .refillStarted side, .refillDone side].Sublist events →
        (final.shaper side).bucket.rateBytesPerSec = TokenBucket.bytesPerSec (bw.caps side) := by
  intro s events final happlied hlast
  have hgui : GuiOk s := invariant (fun _ turn h => h.step turn) before trivial
  have hstart : Applied bw (s.step turn) := hgui.applied happlied
  -- the stages are `Applied`, `Noticed` and `Published`, each kept by every step but an apply
  refine ⟨fun hevents => ?_, fun side hevents => ?_⟩
  · obtain ⟨s', run', hpub, hrun, -, heq⟩ := published_of_ticked hstart hlast hevents
    show (exec step (s.step turn) after).effective = _
    rw [heq]
    exact (Every.invariant (fun _ _ h hev => h.step hev) hrun hpub).effective
  · obtain ⟨s', run', hpub, hrun, hes, heq⟩ := published_of_ticked hstart hlast hevents
    show ((exec step (s.step turn) after).shaper side).bucket.rateBytesPerSec = _
    rw [heq]
    exact (reached_of_refilled hpub hrun hes).2

theorem exec_apply (hgui : s.gui = .idle) (bw : Bandwidth) :
    exec step s (List.replicate 2 (.gui (.apply (bw.caps .dl) (bw.caps .ul)))) =
      { s with pending := bw.caps, gui := .ulStored bw } := by
  have hpending : update (update s.pending .dl (bw.caps .dl)) .ul (bw.caps .ul) = bw.caps := by
    funext side
    cases side <;> rfl
  have hfirst : s.step (.gui (.apply (bw.caps .dl) (bw.caps .ul))) =
      { s with pending := update s.pending .dl (bw.caps .dl), gui := .dlStored bw } := by
    simp only [Qos.step, guiStep, hgui, bw.ofInput_caps]
  rw [List.replicate_succ, exec_cons, hfirst, ← hpending]
  rfl

theorem accepted_twenty (_ : Side) : (0 : ℚ) < 20 ∧ 1 / 10 ≤ (20 : ℚ) ∧ (20 : ℚ) ≤ 1000000 := by
  norm_num

theorem bandwidth_update_reaches_download :
    let bw : Bandwidth := ⟨fun _ => 20, accepted_twenty⟩
    let apply : QosTurn := .gui (.apply (bw.caps .dl) (bw.caps .ul))
    let s := exec step (init (fun _ => 500) false true false fun _ => 0)
      (List.replicate 2 apply)
    let after := List.replicate 8 .tick ++ List.replicate 2 (.refill .dl ⟨1, 1⟩)
    let final := exec step (s.step apply) after
    final.effective = bw.caps ∧
      (final.shaper .dl).bucket.rateBytesPerSec = TokenBucket.bytesPerSec 20 := by
  intro bw apply s after final
  have hs : s = { init (fun _ => 500) false true false (fun _ => 0) with
      pending := bw.caps, gui := .ulStored bw } := exec_apply rfl bw
  have happlied : s.event apply = .applied bw := by
    rw [hs]
    rfl
  have hevents : trace step event (s.step apply) after =
      .tickStarted :: List.replicate 6 .other ++
        [.tickDone, .refillStarted .dl, .refillDone .dl] := by
    rw [hs]
    rfl
  have hlast : NoApply (s.step apply) after := by
    refine every_emit_iff (P := (· ≠ QosEvent.applyStarted)).mpr ?_
    rw [hevents]
    simp
  have hsub : [.tickStarted, .tickDone, .refillStarted .dl, .refillDone .dl].Sublist
      (trace step event (s.step apply) after) := by
    rw [hevents]
    exact (List.sublist_append_right (List.replicate 6 QosEvent.other) _).cons_cons _
  obtain ⟨heff, hrate⟩ := no_lost_bandwidth_update (fun _ => 500) (fun _ => 0) false true false
    (List.replicate 2 apply) after apply bw happlied hlast
  exact ⟨heff ((List.take_sublist 2 _).trans hsub), hrate .dl hsub⟩

end Runs
end Qos
end Hpgtp
