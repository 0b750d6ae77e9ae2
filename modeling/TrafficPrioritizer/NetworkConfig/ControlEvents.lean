import TrafficPrioritizer.Lib.Doorbell
import TrafficPrioritizer.NetworkConfig.ApplyDhcp

/-! The dialog and the control thread. `on_apply` stores the three settings of the pool one after
the other and adds one to the event counter; `control_event_loop` clears the counter and then
applies the settings, which it loads anew for the engine, for the interface and for the file. A
setting that is a string is stored or loaded in one access, though nothing in the source makes it
one. -/

namespace Hpgtp
open LabelledRun NetworkConfig

inductive DhcpSetting where
  | poolStart
  | poolEnd
  | lease
  deriving DecidableEq

namespace DhcpSetting

abbrev Val : DhcpSetting → Type
  | poolStart => List UInt8
  | poolEnd => List UInt8
  | lease => ℕ

def all : List DhcpSetting := [poolStart, poolEnd, lease]

theorem mem_all (f : DhcpSetting) : f ∈ all := by
  cases f <;> decide

end DhcpSetting

def Config.DhcpEdit.settings (e : Config.DhcpEdit) : ∀ f, DhcpSetting.Val f
  | .poolStart => e.poolStart
  | .poolEnd => e.poolEnd
  | .lease => e.seconds

namespace Config

def dhcpSettings (c : Config) : ∀ f, DhcpSetting.Val f
  | .poolStart => c.dhcpPoolStart
  | .poolEnd => c.dhcpPoolEnd
  | .lease => c.dhcpLeaseDuration

def withDhcp (c : Config) (r : ∀ f, DhcpSetting.Val f) : Config :=
  { c with dhcpPoolStart := r .poolStart, dhcpPoolEnd := r .poolEnd, dhcpLeaseDuration := r .lease }

end Config

namespace ControlPlane

structure ApplyState where
  loaded : ∀ f, DhcpSetting.Val f
  service : DhcpService
  accepted : Bool
  saved : Option (Except String (List UInt8))

structure ControlInput where
  calls : SyncCalls
  enableAcceleration : Bool
  enableNat : Bool
  refused : Option String

inductive ApplyAction where
  | load (f : DhcpSetting)
  | reconfigure
  | sync
  | save

def savedConfig (base : Config) (input : ControlInput) (r : ∀ f, DhcpSetting.Val f) : Config :=
  { base.withDhcp r with
    enableAcceleration := input.enableAcceleration, enableNat := input.enableNat }

def ApplyState.reconfigure (a : ApplyState) : ApplyState :=
  match parseIpStr (a.loaded .poolStart), parseIpStr (a.loaded .poolEnd) with
  | .ok poolS, .ok poolE =>
    let r := a.service.reconfigure ⟨poolS, poolE, a.loaded .lease⟩
    { a with service := r.2, accepted := r.1.isOk }
  | _, _ => { a with accepted := false }

section
variable (base : Config)

def act (action : ApplyAction) (input : ControlInput) (cells : ∀ f, DhcpSetting.Val f)
    (a : ApplyState) : ApplyState :=
  match action with
  | .load f => { a with loaded := Function.update a.loaded f (cells f) }
  | .reconfigure => a.reconfigure
  | .sync =>
    if a.accepted then
      { a with service := (a.service.sync (base.withDhcp a.loaded) input.calls).2 }
    else a
  | .save =>
    if a.accepted then
      let saved := (savedConfig base input a.loaded).saveConfig configPath input.refused
      { a with saved := some saved }
    else a

def applyActions : List ApplyAction :=
  [.load .poolStart, .load .poolEnd, .load .lease, .reconfigure,
    .load .poolStart, .load .poolEnd, .sync,
    .load .poolStart, .load .poolEnd, .load .lease, .save]

@[simps act actions] def dhcpParties :
    Doorbell.Parties DhcpSetting.Val ApplyState ApplyAction ControlInput where
  order := DhcpSetting.all
  actions := applyActions
  act := act base
  complete := DhcpSetting.mem_all

abbrev ControlState := Doorbell.State DhcpSetting.Val ApplyState ApplyAction

inductive ControlTurn where
  | apply (e : Config.DhcpEdit)
  | gui
  | control (input : ControlInput)

/-- A dialog that is refused stores nothing. -/
def controlStep (s : ControlState) : ControlTurn → ControlState
  | .apply e =>
    if (base.onApply e).isSome then Doorbell.step (dhcpParties base) s (.edit e.settings) else s
  | .gui => Doorbell.step (dhcpParties base) s .write
  | .control input => Doorbell.step (dhcpParties base) s (.read input)

def controlStart (service : DhcpService) : ControlState :=
  Doorbell.init base.dhcpSettings ⟨base.dhcpSettings, service, false, none⟩

/-! ## A pass over one record -/

variable {base}

theorem update_settings (r l : ∀ f, DhcpSetting.Val f) :
    Function.update (Function.update (Function.update l .poolStart (r .poolStart)) .poolEnd
      (r .poolEnd)) .lease (r .lease) = r := by
  funext f
  cases f <;> rfl

theorem leaseDuration_sync (c : Config) (k : SyncCalls) (d : DhcpEngine) :
    (NetworkConfig.sync c k d).dhcp.leaseDuration = d.leaseDuration := by
  rcases sync_cases c k d with ⟨-, -, kern, hdhcp, -⟩ | ⟨-, -, hdhcp⟩ <;> rw [hdhcp]
  rfl

theorem leaseDuration_reconfigure (d : DhcpEngine) {cfg : DhcpPoolConfig}
    (h : cfg.poolStart.toHost.raw ≤ cfg.poolEnd.toHost.raw) :
    (d.reconfigure cfg).2.leaseDuration = cfg.lease := by
  rw [DhcpEngine.reconfigure_eq, DhcpEngine.initPool_of_ordered _ h]
  simp only [DhcpEngine.withPool]

theorem engine_adopt {s : DhcpService} {cfg : DhcpPoolConfig}
    {r : Except String Unit × DhcpEngine} {hnew} {hold} :
    (s.adopt cfg r hnew hold).2.engine = r.2 := by
  rw [DhcpService.adopt]
  split_ifs <;> rfl

theorem engine_reconfigure (s : DhcpService) (cfg : DhcpPoolConfig) :
    (s.reconfigure cfg).2.engine = (s.engine.reconfigure cfg).2 := engine_adopt

structure Follows (s : DhcpService) (r : ∀ f, DhcpSetting.Val f) : Prop where
  start : parseIpStr (r .poolStart) = .ok s.start
  stop : parseIpStr (r .poolEnd) = .ok s.stop
  lease : s.engine.leaseDuration = r .lease

theorem Follows.sync {s : DhcpService} {r : ∀ f, DhcpSetting.Val f} (h : Follows s r) (c : Config)
    (k : SyncCalls) : Follows (s.sync c k).2 r :=
  ⟨h.start, h.stop, (leaseDuration_sync c k s.engine).trans h.lease⟩

theorem reconfigure_of_edit {e : Config.DhcpEdit} (hsubmit : (base.onApply e).isSome)
    {a : ApplyState} (hloaded : a.loaded = e.settings) :
    ∃ s, Follows s e.settings ∧ a.reconfigure = { a with service := s, accepted := true } := by
  obtain ⟨c', hc'⟩ := Option.isSome_iff_exists.mp hsubmit
  obtain ⟨start, stop, -, -, hstart, hstop, hlt, -⟩ := Config.onApply_eq_some hc'
  have hstart' : parseIpStr (a.loaded .poolStart) = .ok start := by rw [hloaded]; exact hstart
  have hstop' : parseIpStr (a.loaded .poolEnd) = .ok stop := by rw [hloaded]; exact hstop
  have hordered : (DhcpPoolConfig.mk start stop (a.loaded .lease)).poolStart.toHost.raw ≤
      (DhcpPoolConfig.mk start stop (a.loaded .lease)).poolEnd.toHost.raw := UInt32.le_of_lt hlt
  obtain ⟨s, hok, hs, ht, -⟩ := a.service.reconfigure_of_ordered hordered
  refine ⟨s, ⟨hs ▸ hstart, ht ▸ hstop, ?_⟩, ?_⟩
  · have hengine := engine_reconfigure a.service ⟨start, stop, a.loaded .lease⟩
    rw [hok] at hengine
    rw [hengine, leaseDuration_reconfigure _ hordered, hloaded]
  · rw [ApplyState.reconfigure, hstart', hstop']
    dsimp only
    rw [hok]
    rfl

section
variable {r : ∀ f, DhcpSetting.Val f} {rest : List ApplyAction} {a a' : ApplyState}

theorem pass_of_load {f : DhcpSetting} (h : (dhcpParties base).Pass r (.load f :: rest) a a')
    (hloaded : a.loaded = r) :
    (dhcpParties base).Pass r rest a a' := by
  obtain ⟨_, h⟩ := h
  have hsame : Function.update a.loaded f (r f) = a.loaded := by
    rw [hloaded]
    exact Function.update_eq_self ..
  simpa only [dhcpParties_act, act, hsame] using h

theorem pass_of_loads
    (h : (dhcpParties base).Pass r (.load .poolStart :: .load .poolEnd :: .load .lease :: rest) a
      a') : (dhcpParties base).Pass r rest { a with loaded := r } a' := by
  obtain ⟨_, _, _, h⟩ := h
  simpa only [dhcpParties_act, act, update_settings] using h

end

theorem pass_of_edit {e : Config.DhcpEdit} (hsubmit : (base.onApply e).isSome)
    {a a' : ApplyState} (h : (dhcpParties base).Pass e.settings applyActions a a') :
    Follows a'.service e.settings ∧ ∃ input, a'.saved =
      some ((savedConfig base input e.settings).saveConfig configPath input.refused) := by
  obtain ⟨_, h⟩ := pass_of_loads h
  obtain ⟨s, hfollows, hs⟩ := reconfigure_of_edit hsubmit (a := { a with loaded := e.settings }) rfl
  simp only [dhcpParties_act, act, hs] at h
  obtain ⟨synced, h⟩ := pass_of_load (pass_of_load h rfl) rfl
  simp only [dhcpParties_act, act, if_true] at h
  obtain ⟨input, rfl⟩ := pass_of_load (pass_of_load (pass_of_load h rfl) rfl) rfl
  exact ⟨hfollows.sync _ _, input, rfl⟩

/-! ## Runs -/

def Accepted (base : Config) (r : ∀ f, DhcpSetting.Val f) : Prop :=
  ∃ e : Config.DhcpEdit, (base.onApply e).isSome ∧ r = e.settings

structure ControlInv (base : Config) (s : ControlState) : Prop where
  handover : Doorbell.Inv (dhcpParties base) s
  accepted : Doorbell.Records (Accepted base) s

theorem ControlInv.start (base : Config) (service : DhcpService) :
    ControlInv base (controlStart base service) :=
  ⟨.init .., (fun _ h => by cases h), (fun _ h => by cases h)⟩

theorem controlStep_cases (base : Config) (s : ControlState) (turn : ControlTurn) :
    controlStep base s turn = s ∨ ∃ t, controlStep base s turn = Doorbell.step (dhcpParties base) s t
      ∧ ∀ r, t = .edit r → Accepted base r := by
  cases turn with
  | apply e =>
    rw [controlStep]
    split
    · next hsubmit =>
      exact .inr ⟨_, rfl, fun r hr => ⟨e, hsubmit, (Doorbell.Turn.edit.inj hr).symm⟩⟩
    · exact .inl rfl
  | gui => exact .inr ⟨.write, rfl, fun r hr => by cases hr⟩
  | control input => exact .inr ⟨.read input, rfl, fun r hr => by cases hr⟩

theorem ControlInv.step {s : ControlState} (h : ControlInv base s) (turn : ControlTurn) :
    ControlInv base (controlStep base s turn) := by
  rcases controlStep_cases base s turn with hsame | ⟨t, hstep, haccepted⟩
  · rwa [hsame]
  · rw [hstep]
    exact ⟨h.handover.step t, h.accepted.step haccepted⟩

theorem exec_controls (s : ControlState) (inputs : List ControlInput) :
    exec (controlStep base) s (inputs.map .control) =
      exec (Doorbell.step (dhcpParties base)) s (inputs.map .read) := by
  induction inputs generalizing s with
  | nil => rfl
  | cons input inputs ih => exact ih _

end

/-- No dialog is lost, whatever the two threads interleave and whatever mixture of settings a pass
has seen: when the last dialog has called back, the control thread needs at most two passes until
the service has its pool and lease time, and has then saved them if the file can be written. -/
theorem last_dhcp_dialog_takes_over (base : Config) (service : DhcpService)
    (turns : List ControlTurn) (inputs : List ControlInput) :
    let s := exec (controlStep base) (controlStart base service) turns
    let s' := exec (controlStep base) s (inputs.map .control)
    s.edit = none → 25 ≤ inputs.length → ∀ r, s.submitted = some r →
      Follows s'.own.service r ∧ ∃ input,
        s'.own.saved = some ((savedConfig base input r).saveConfig configPath input.refused) := by
  intro s s' hedit hlen r hr
  have hinv : ControlInv base s := invariant (fun _ turn h => h.step turn) turns (.start ..)
  obtain ⟨e, hsubmit, rfl⟩ := hinv.accepted.last r hr
  obtain ⟨a, hpass⟩ := hinv.handover.takes_last hedit hlen hr
  have hs' : s' = exec (Doorbell.step (dhcpParties base)) s (inputs.map .read) := exec_controls ..
  rw [hs']
  exact pass_of_edit hsubmit hpass

def smallerPool : Config.DhcpEdit :=
  ⟨ipToStr (octets 192 168 12 100), ipToStr (octets 192 168 12 200), 1, 0, 0⟩

theorem dialog_alone (base : Config) (service : DhcpService) {e : Config.DhcpEdit}
    (hsubmit : (base.onApply e).isSome) :
    let s := exec (controlStep base) (controlStart base service) (.apply e :: List.replicate 4 .gui)
    s.edit = none ∧ s.submitted = some e.settings := by
  rw [exec_cons, controlStep, if_pos hsubmit]
  exact ⟨rfl, rfl⟩

def workingInput : ControlInput := ⟨workingIface (octets 192 168 12 1), true, true, none⟩

theorem smaller_pool_takes_over :
    Follows (exec (controlStep Config.defaults)
      (exec (controlStep Config.defaults) (controlStart Config.defaults defaultService)
        (.apply smallerPool :: List.replicate 4 .gui))
      ((List.replicate 25 workingInput).map .control)).own.service smallerPool.settings := by
  have hsubmit : (Config.defaults.onApply smallerPool).isSome := by decide +kernel
  obtain ⟨hedit, hlast⟩ := dialog_alone Config.defaults defaultService hsubmit
  have hlen : 25 ≤ (List.replicate 25 workingInput).length := by rw [List.length_replicate]
  exact (last_dhcp_dialog_takes_over Config.defaults defaultService
    (.apply smallerPool :: List.replicate 4 .gui) (List.replicate 25 workingInput) hedit hlen
    smallerPool.settings hlast).1

end ControlPlane
end Hpgtp
