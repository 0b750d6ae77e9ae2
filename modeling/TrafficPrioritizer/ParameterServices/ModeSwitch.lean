import TrafficPrioritizer.ParameterServices.QosController

/-! The acceleration switch. The GUI stores the mode and sets a flag; the tick takes the flag,
loads the mode and publishes it in three places, one after the other. A toggle that comes while an
earlier one is being published sets the flag again. -/

namespace Hpgtp
open LabelledRun

inductive ModeStage where
  | off
  | taken
  | loaded (accel : Bool)
  | configStored (accel : Bool)
  | accelPublished (accel : Bool)

@[ext] structure ModeSwitch where
  pending : Bool
  dirty : Bool
  stored : Bool
  config : Bool
  acceleration : Bool
  bridge : Bool
  stage : ModeStage

def TickPc.modeStage : TickPc → ModeStage
  | .modeTaken => .taken
  | .modeLoaded accel => .loaded accel
  | .configStored accel => .configStored accel
  | .accelPublished accel => .accelPublished accel
  | _ => .off

theorem TickPc.eq_accelPublished {pc : TickPc} {accel : Bool}
    (h : pc.modeStage = .accelPublished accel) : pc = .accelPublished accel := by
  cases pc with
  | accelPublished a => rw [ModeStage.accelPublished.inj h]
  | _ => cases h

def GuiPc.accelIsStored : GuiPc → Bool
  | .accelStored => true
  | _ => false

@[simps] def Qos.modeSwitch (s : Qos) : ModeSwitch where
  pending := s.accelerationPending
  dirty := s.modeDirty
  stored := s.gui.accelIsStored
  config := s.enableAcceleration
  acceleration := s.effectiveAcceleration
  bridge := s.effectiveBridgeMode
  stage := s.tick.modeStage

namespace ModeSwitch

inductive Step : ModeSwitch → ModeSwitch → Prop
  | none (m) : Step m m
  | choose (m) (accel : Bool) (h : m.stored = false) :
    Step m { m with pending := accel, stored := true }
  | flag (m) (h : m.stored = true) : Step m { m with dirty := true, stored := false }
  | take (m) (hstage : m.stage = .off) (h : m.dirty = true) :
    Step m { m with dirty := false, stage := .taken }
  | load (m) (hstage : m.stage = .taken) : Step m { m with stage := .loaded m.pending }
  | storeConfig (m) {accel : Bool} (hstage : m.stage = .loaded accel) :
    Step m { m with config := accel, stage := .configStored accel }
  | publishAcceleration (m) {accel : Bool} (hstage : m.stage = .configStored accel) :
    Step m { m with acceleration := accel, stage := .accelPublished accel }
  | publishBridge (m) {accel : Bool} (hstage : m.stage = .accelPublished accel) :
    Step m { m with bridge := !accel, stage := .off }

structure Shows (m : ModeSwitch) (accel : Bool) : Prop where
  config : m.config = accel
  acceleration : m.acceleration = accel
  bridge : m.bridge = !accel

def Underway (m : ModeSwitch) (accel : Bool) : Prop :=
  match m.stage with
  | .off => m.Shows accel
  | .taken => True
  | .loaded a => a = accel
  | .configStored a => a = accel ∧ m.config = accel
  | .accelPublished a => a = accel ∧ m.config = accel ∧ m.acceleration = accel

structure Inv (m : ModeSwitch) : Prop where
  way : m.stored = true ∨ m.dirty = true ∨ m.Underway m.pending
  opposite : (∀ accel, m.stage = .accelPublished accel → m.acceleration = accel) ∧
    ((∀ accel, m.stage ≠ .accelPublished accel) → m.bridge = !m.acceleration)

theorem Inv.step {m m' : ModeSwitch} (h : Inv m) (hstep : Step m m') : Inv m' := by
  obtain ⟨hway, hbetween, hopposite⟩ := h
  cases hstep with
  | none => exact ⟨hway, hbetween, hopposite⟩
  | choose accel hstored => exact ⟨.inl rfl, hbetween, hopposite⟩
  | flag hstored => exact ⟨.inr (.inl rfl), hbetween, hopposite⟩
  | take hstage hdirty =>
    have hold := hopposite fun a ha => by rw [hstage] at ha; cases ha
    exact ⟨.inr (.inr trivial), (fun a ha => by cases ha), fun _ => hold⟩
  | load hstage =>
    have hold := hopposite fun a ha => by rw [hstage] at ha; cases ha
    exact ⟨hway.imp id (Or.imp id fun _ => rfl), (fun a ha => by cases ha), fun _ => hold⟩
  | storeConfig hstage =>
    rw [Underway, hstage] at hway
    have hold := hopposite fun a ha => by rw [hstage] at ha; cases ha
    exact ⟨hway.imp id (Or.imp id fun ha => ⟨ha, ha⟩), (fun a ha => by cases ha), fun _ => hold⟩
  | publishAcceleration hstage =>
    rw [Underway, hstage] at hway
    refine ⟨hway.imp id (Or.imp id fun ha => ⟨ha.1, ha.2, ha.1⟩), fun a ha => ?_, fun hne => ?_⟩
    · exact ModeStage.accelPublished.inj ha
    · exact absurd rfl (hne _)
  | publishBridge hstage =>
    rw [Underway, hstage] at hway
    refine ⟨hway.imp id (Or.imp id fun ha => ⟨ha.2.1, ha.2.2, congrArg (!·) ha.1⟩),
      (fun a ha => by cases ha), fun _ => ?_⟩
    exact congrArg (!·) (hbetween _ hstage).symm

theorem Inv.shows {m : ModeSwitch} (h : Inv m) (hstored : m.stored = false)
    (hdirty : m.dirty = false) (hstage : m.stage = .off) : m.Shows m.pending := by
  rcases h.way with hs | hd | hway
  · exact absurd (hs.symm.trans hstored) Bool.true_eq_false.mp
  · exact absurd (hd.symm.trans hdirty) Bool.true_eq_false.mp
  · rwa [Underway, hstage] at hway

end ModeSwitch

theorem Qos.modeSwitch_step (s : Qos) (turn : QosTurn) :
    ModeSwitch.Step s.modeSwitch (s.step turn).modeSwitch := by
  obtain ⟨pending, dirty, accel, modeDirty, base, effective, config, eff, bridge, shaper, gui,
    tick⟩ := s
  cases turn with
  | refill side clock => exact .none _
  | gui request =>
    cases gui with
    | idle =>
      cases request with
      | toggle accel' => exact .choose _ accel' rfl
      | apply dl ul =>
        cases hin : Bandwidth.ofInput dl ul with
        | none =>
          simp only [Qos.step, Qos.guiStep, hin]
          exact .none _
        | some bw =>
          simp only [Qos.step, Qos.guiStep, hin]
          exact .none _
    | dlStored bw => exact .none _
    | ulStored bw => exact .none _
    | accelStored => exact .flag _ rfl
  | tick =>
    cases tick with
    | idle =>
      cases modeDirty with
      | true => exact .take _ rfl rfl
      | false => exact .none _
    | modeTaken => exact .load _ rfl
    | modeLoaded a => exact .storeConfig _ rfl
    | configStored a => exact .publishAcceleration _ rfl
    | accelPublished a => exact .publishBridge _ rfl
    | modeDone => cases dirty <;> exact .none _
    | taken | dlLoaded | ulLoaded | dlPublished | ulPublished | dlSet => exact .none _

theorem Qos.modeInv_init (pending : Side → ℚ) (dirty accel modeDirty : Bool) (now : Side → ℚ) :
    (init pending dirty accel modeDirty now).modeSwitch.Inv :=
  ⟨.inr (.inr ⟨rfl, rfl, rfl⟩), (fun _ h => by cases h), fun _ => rfl⟩

/-! ## How long a toggle takes -/

def ModeStage.left : ModeStage → ℕ
  | .off => 0
  | .taken => 4
  | .loaded _ => 3
  | .configStored _ => 2
  | .accelPublished _ => 1

def TickPc.toIdle : TickPc → ℕ
  | .idle => 0
  | .modeTaken => 11
  | .modeLoaded _ => 10
  | .configStored _ => 9
  | .accelPublished _ => 8
  | .modeDone => 7
  | .taken => 6
  | .dlLoaded => 5
  | .ulLoaded => 4
  | .dlPublished => 3
  | .ulPublished => 2
  | .dlSet => 1

def QosTurn.isTick : QosTurn → Bool
  | .tick => true
  | _ => false

def QosTurn.isToggle : QosTurn → Bool
  | .gui (.toggle _) => true
  | _ => false

namespace Qos

def modeDistance (s : Qos) : ℕ :=
  if s.modeDirty then s.tick.toIdle + 5 else s.tick.modeStage.left

theorem modeDistance_le (s : Qos) : s.modeDistance ≤ 16 := by
  unfold modeDistance
  cases s.modeDirty <;> cases s.tick <;> simp [TickPc.toIdle, TickPc.modeStage, ModeStage.left]

theorem modeDistance_tick (s : Qos) : s.tickStep.modeDistance ≤ s.modeDistance - 1 := by
  obtain ⟨pending, dirty, accel, modeDirty, base, effective, config, eff, bridge, shaper, gui,
    tick⟩ := s
  cases modeDirty <;> cases tick <;> cases dirty <;>
    simp [tickStep, modeDistance, TickPc.toIdle, TickPc.modeStage, ModeStage.left]

theorem off_of_modeDistance {s : Qos} (h : s.modeDistance = 0) :
    s.modeDirty = false ∧ s.tick.modeStage = .off := by
  unfold modeDistance at h
  split_ifs at h with hdirty
  refine ⟨Bool.eq_false_iff.mpr hdirty, ?_⟩
  cases hstage : s.tick.modeStage with
  | off => rfl
  | taken | loaded | configStored | accelPublished => rw [hstage] at h; cases h

theorem modeSwitch_other {s : Qos} (hstored : s.gui.accelIsStored = false) {turn : QosTurn}
    (htick : turn.isTick = false) (htoggle : turn.isToggle = false) :
    (s.step turn).modeSwitch = s.modeSwitch ∧ (s.step turn).tick = s.tick := by
  obtain ⟨pending, dirty, accel, modeDirty, base, effective, config, eff, bridge, shaper, gui,
    tick⟩ := s
  cases turn with
  | tick => cases htick
  | refill side clock => exact ⟨rfl, rfl⟩
  | gui request =>
    cases request with
    | toggle => cases htoggle
    | apply dl ul =>
      cases gui with
      | idle =>
        cases hin : Bandwidth.ofInput dl ul with
        | none => simp only [Qos.step, guiStep, hin, and_self]
        | some bw => simp [Qos.step, guiStep, hin, modeSwitch, GuiPc.accelIsStored]
      | dlStored bw => exact ⟨rfl, rfl⟩
      | ulStored bw => exact ⟨rfl, rfl⟩
      | accelStored => cases hstored

theorem modeDistance_other {s s' : Qos} (hswitch : s'.modeSwitch = s.modeSwitch)
    (htick : s'.tick = s.tick) : s'.modeDistance = s.modeDistance := by
  have hdirty : s'.modeDirty = s.modeDirty := congrArg ModeSwitch.dirty hswitch
  rw [modeDistance, modeDistance, hdirty, htick]

theorem modeSwitch_tick (s : Qos) : s.tickStep.gui = s.gui ∧
    s.tickStep.accelerationPending = s.accelerationPending := by
  refine ⟨tickStep_gui s, ?_⟩
  unfold tickStep
  cases s.tick <;> rfl

theorem modeDistance_run {s : Qos} (hstored : s.gui.accelIsStored = false) {turns : List QosTurn}
    (hturns : ∀ turn ∈ turns, turn.isToggle = false) :
    let s' := exec step s turns
    s'.gui.accelIsStored = false ∧ s'.accelerationPending = s.accelerationPending ∧
      s'.modeDistance ≤ s.modeDistance - turns.countP QosTurn.isTick := by
  induction turns generalizing s with
  | nil => exact ⟨hstored, rfl, Nat.le_refl _⟩
  | cons turn turns ih =>
    obtain ⟨htoggle, hrest⟩ := List.forall_mem_cons.mp hturns
    rw [exec_cons, List.countP_cons]
    cases hturn : turn.isTick with
    | true =>
      obtain rfl : turn = .tick := by
        cases turn with
        | tick => rfl
        | gui | refill => cases hturn
      obtain ⟨hgui, hpending⟩ := modeSwitch_tick s
      obtain ⟨hstored', hpending', hdistance⟩ := ih (s := s.tickStep) (by rw [hgui, hstored]) hrest
      refine ⟨hstored', hpending'.trans hpending, hdistance.trans ?_⟩
      have hone := modeDistance_tick s
      rw [if_pos rfl]
      omega
    | false =>
      obtain ⟨hswitch, htick⟩ := modeSwitch_other hstored hturn htoggle
      have hgui : (s.step turn).gui.accelIsStored = false :=
        (congrArg ModeSwitch.stored hswitch).trans hstored
      obtain ⟨hstored', hpending', hdistance⟩ := ih hgui hrest
      refine ⟨hstored', hpending'.trans (congrArg ModeSwitch.pending hswitch), ?_⟩
      rw [modeDistance_other hswitch htick] at hdistance
      simpa using hdistance

/-- The two flags of the data path are opposite in every state but between their two stores. And
however toggles, ticks and caps interleave, the mode chosen last is not lost: when the GUI has set
the flag for it, 16 steps of the tick later all three places show it. -/
theorem last_toggle_is_published (pending : Side → ℚ) (dirty accel modeDirty : Bool)
    (now : Side → ℚ) (turns rest : List QosTurn) :
    let s := exec step (init pending dirty accel modeDirty now) turns
    let s' := exec step s rest
    ((∀ a, s.tick ≠ .accelPublished a) → s.effectiveBridgeMode = !s.effectiveAcceleration) ∧
    (s.gui ≠ .accelStored → (∀ turn ∈ rest, turn.isToggle = false) →
      16 ≤ rest.countP QosTurn.isTick → s'.modeSwitch.Shows s.accelerationPending) := by
  intro s s'
  have hinv : ∀ turns', (exec step (init pending dirty accel modeDirty now) turns').modeSwitch.Inv :=
    fun turns' => invariant (I := fun s : Qos => s.modeSwitch.Inv)
      (fun s turn h => h.step (s.modeSwitch_step turn)) turns' (modeInv_init ..)
  constructor
  · intro hne
    exact (hinv turns).opposite.2 fun a ha => hne a (TickPc.eq_accelPublished ha)
  · intro hgui hrest hticks
    have hstored : s.gui.accelIsStored = false := by
      cases h : s.gui with
      | accelStored => exact absurd h hgui
      | idle | dlStored | ulStored => rfl
    obtain ⟨hstored', hpending, hdistance⟩ := modeDistance_run hstored hrest
    have hzero : s'.modeDistance = 0 :=
      Nat.le_zero.mp (hdistance.trans (by have := modeDistance_le s; omega))
    obtain ⟨hdirty, hstage⟩ := off_of_modeDistance hzero
    rw [← hpending]
    have hinv' : s'.modeSwitch.Inv := by
      have := hinv (turns ++ rest)
      rwa [exec_append] at this
    exact hinv'.shows hstored' hdirty hstage

theorem toggle_published_by_ticks :
    (exec step (exec step (init (fun _ => 100) false true false fun _ => 0)
      (List.replicate 2 (.gui (.toggle false)))) (List.replicate 16 .tick)).modeSwitch.Shows false :=
  (last_toggle_is_published (fun _ => 100) false true false (fun _ => 0)
    (List.replicate 2 (.gui (.toggle false))) (List.replicate 16 .tick)).2 GuiPc.noConfusion
    (fun _ h => (congrArg QosTurn.isToggle (List.eq_of_mem_replicate h)).trans rfl) (by decide)

end Qos
end Hpgtp
