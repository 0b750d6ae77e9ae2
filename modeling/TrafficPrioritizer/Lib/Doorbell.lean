import TrafficPrioritizer.Lib.Run
import Mathlib.Logic.Function.Basic

/-! A record that one thread stores field by field and another takes over. The writer rings when it
has stored the last field; the reader first silences the bell and only then makes a pass over the
cells, in several actions. A pass may see fields of different records, but then the bell rings
again: once the reader is at rest and the bell silent, its last pass went as though the cells had
held the last record throughout. -/

namespace Doorbell
open LabelledRun Function

variable {F : Type} {V : F → Type} {σ A E : Type}

structure Edit (V : F → Type) where
  record : ∀ f, V f
  done : List F
  todo : List F

structure State (V : F → Type) (σ A : Type) where
  cells : ∀ f, V f
  rung : Bool
  edit : Option (Edit V)
  pass : Option (List A)
  own : σ
  submitted : Option (∀ f, V f)

inductive Turn (V : F → Type) (E : Type)
  | edit (record : ∀ f, V f)
  | write
  | read (input : E)

/-- The writer by the order of its stores, the reader by the actions of a pass: each sees the cells
at one moment, and an input from outside. -/
structure Parties (V : F → Type) (σ A E : Type) where
  order : List F
  actions : List A
  act : A → E → (∀ f, V f) → σ → σ
  complete : ∀ f, f ∈ order

def init (cells : ∀ f, V f) (own : σ) : State V σ A := ⟨cells, false, none, none, own, none⟩

def step [DecidableEq F] (p : Parties V σ A E) (s : State V σ A) : Turn V E → State V σ A
  | .edit record =>
    match s.edit with
    | none => { s with edit := some ⟨record, [], p.order⟩ }
    | some _ => s
  | .write =>
    match s.edit with
    | none => s
    | some ⟨record, done, f :: todo⟩ =>
      { s with cells := update s.cells f (record f), edit := some ⟨record, f :: done, todo⟩ }
    | some ⟨record, _, []⟩ => { s with rung := true, edit := none, submitted := some record }
  | .read input =>
    match s.pass with
    | none => if s.rung then { s with rung := false, pass := some p.actions } else s
    | some (a :: rest) => { s with own := p.act a input s.cells s.own, pass := some rest }
    | some [] => { s with pass := none }

namespace Parties

def Pass (p : Parties V σ A E) (record : ∀ f, V f) : List A → σ → σ → Prop
  | [], own, own' => own' = own
  | a :: as, own, own' => ∃ input, p.Pass record as (p.act a input record own) own'

def after (p : Parties V σ A E) (seen : List (A × E × ∀ f, V f)) (own : σ) : σ :=
  seen.foldl (fun own a => p.act a.1 a.2.1 a.2.2 own) own

theorem pass_after (p : Parties V σ A E) {record : ∀ f, V f} (seen : List (A × E × ∀ f, V f))
    (hseen : ∀ a ∈ seen, a.2.2 = record) (own : σ) :
    p.Pass record (seen.map (·.1)) own (p.after seen own) := by
  induction seen generalizing own with
  | nil => rfl
  | cons a seen ih =>
    obtain ⟨hfirst, hrest⟩ := List.forall_mem_cons.mp hseen
    refine ⟨a.2.1, ?_⟩
    rw [after, List.foldl_cons, hfirst]
    exact ih hrest _

end Parties

def Untouched (s : State V σ A) (f : F) : Prop := ∀ e, s.edit = some e → f ∉ e.done

def Current (p : Parties V σ A E) (s : State V σ A) : Prop :=
  ∃ own seen, seen.map (·.1) ++ s.pass.getD [] = p.actions ∧ s.own = p.after seen own ∧
    ∀ a ∈ seen, ∀ f, Untouched s f → a.2.2 f = s.cells f

structure Inv (p : Parties V σ A E) (s : State V σ A) : Prop where
  pass_le : ∀ rest, s.pass = some rest → rest.length ≤ p.actions.length
  stored : ∀ e, s.edit = some e → (∀ f, f ∈ e.done → s.cells f = e.record f) ∧
    ∀ f, f ∈ e.done ∨ f ∈ e.todo
  settled : s.edit = none → ∀ r, s.submitted = some r → s.cells = r
  current : s.submitted = none ∨ s.rung = true ∨ Current p s

variable {p : Parties V σ A E} {s s' : State V σ A}

theorem untouched_of_no_edit (h : s.edit = none) (f : F) : Untouched s f := by
  intro e he
  rw [h] at he
  cases he

theorem Inv.init (p : Parties V σ A E) (cells : ∀ f, V f) (own : σ) :
    Inv p (init cells own) where
  pass_le _ h := by cases h
  stored _ h := by cases h
  settled _ _ h := by cases h
  current := .inl rfl

theorem Current.of_writer (h : Current p s) (hpass : s'.pass = s.pass) (hown : s'.own = s.own)
    (hcells : ∀ f, Untouched s' f → Untouched s f ∧ s'.cells f = s.cells f) : Current p s' := by
  obtain ⟨own, seen, hactions, hafter, hseen⟩ := h
  refine ⟨own, seen, by rw [hpass, hactions], hown.trans hafter, fun a ha f hf => ?_⟩
  obtain ⟨hold, hsame⟩ := hcells f hf
  rw [hsame, hseen a ha f hold]

theorem Inv.pass_of_last (h : Inv p s) (hrung : s.rung = false) (hedit : s.edit = none)
    (hpass : s.pass = none) {r : ∀ f, V f} (hr : s.submitted = some r) :
    ∃ own, p.Pass r p.actions own s.own := by
  rcases h.current with hnone | htrue | ⟨own, seen, hactions, hafter, hseen⟩
  · rw [hr] at hnone
    cases hnone
  · rw [hrung] at htrue
    cases htrue
  · rw [hpass, Option.getD_none, List.append_nil] at hactions
    rw [hafter, ← hactions, ← h.settled hedit r hr]
    refine ⟨own, p.pass_after seen (fun a ha => ?_) own⟩
    exact funext fun f => hseen a ha f (untouched_of_no_edit hedit f)

def distance (p : Parties V σ A E) (s : State V σ A) : ℕ :=
  (match s.pass with
    | none => 0
    | some rest => rest.length + 1) + if s.rung then p.actions.length + 2 else 0

theorem Inv.distance_le (h : Inv p s) : distance p s ≤ 2 * p.actions.length + 3 := by
  unfold distance
  cases hpass : s.pass with
  | none => dsimp only; split_ifs <;> omega
  | some rest =>
    have hle := h.pass_le rest hpass
    dsimp only
    split_ifs <;> omega

theorem rest_of_distance (h : distance p s = 0) : s.rung = false ∧ s.pass = none := by
  unfold distance at h
  cases hpass : s.pass with
  | none =>
    refine ⟨Bool.eq_false_iff.mpr fun hrung => ?_, rfl⟩
    rw [hrung, if_pos rfl] at h
    omega
  | some rest =>
    rw [hpass] at h
    dsimp only at h
    omega

section
variable [DecidableEq F]

theorem Inv.edit (h : Inv p s) (record : ∀ f, V f) : Inv p (step p s (.edit record)) := by
  rw [step]
  cases he : s.edit with
  | some e => exact h
  | none =>
    refine ⟨h.pass_le, fun e heq => ?_, (fun hnone => by cases hnone),
      h.current.imp id (Or.imp id fun hc => ?_)⟩
    · obtain rfl := Option.some.inj heq
      exact ⟨fun f hf => absurd hf List.not_mem_nil, fun f => .inr (p.complete f)⟩
    · exact hc.of_writer rfl rfl fun f _ => ⟨untouched_of_no_edit he f, rfl⟩

theorem Inv.write (h : Inv p s) : Inv p (step p s .write) := by
  rw [step]
  cases he : s.edit with
  | none => exact h
  | some e =>
    obtain ⟨record, done, todo⟩ := e
    obtain ⟨hstored, hcover⟩ := h.stored _ he
    cases todo with
    | nil =>
      have hcells : s.cells = record :=
        funext fun f => hstored f ((hcover f).resolve_right List.not_mem_nil)
      exact ⟨h.pass_le, (fun e heq => by cases heq), fun _ r hr => hcells.trans (Option.some.inj hr),
        .inr (.inl rfl)⟩
    | cons f todo =>
      refine ⟨h.pass_le, fun e heq => ?_, (fun hnone => by cases hnone),
        h.current.imp id (Or.imp id fun hc => ?_)⟩
      · obtain rfl := Option.some.inj heq
        refine ⟨fun g hg => ?_, fun g => ?_⟩
        · show update s.cells f (record f) g = record g
          by_cases hgf : g = f
          · subst hgf
            exact update_self ..
          · rw [update_of_ne hgf]
            exact hstored g ((List.mem_cons.mp hg).resolve_left hgf)
        · rcases hcover g with hg | hg
          · exact .inl (List.mem_cons_of_mem f hg)
          · rcases List.mem_cons.mp hg with rfl | hg
            · exact .inl List.mem_cons_self
            · exact .inr hg
      · refine hc.of_writer rfl rfl fun g hg => ?_
        have hnot := hg _ rfl
        rw [List.mem_cons, not_or] at hnot
        refine ⟨fun e hedit => ?_, update_of_ne hnot.1 ..⟩
        rw [he] at hedit
        obtain rfl := Option.some.inj hedit
        exact hnot.2

theorem Inv.read (h : Inv p s) (input : E) : Inv p (step p s (.read input)) := by
  rw [step]
  cases hpass : s.pass with
  | none =>
    cases hrung : s.rung with
    | false => exact h
    | true =>
      -- Silencing the bell starts a pass that has not seen anything yet.
      have hnothing : Current p { s with rung := false, pass := some p.actions } :=
        ⟨s.own, [], rfl, rfl, fun a ha => absurd ha List.not_mem_nil⟩
      exact ⟨fun rest hrest => Option.some.inj hrest ▸ Nat.le_refl _, h.stored, h.settled,
        .inr (.inr hnothing)⟩
  | some rest =>
    cases rest with
    | nil =>
      refine ⟨(fun _ hnone => by cases hnone), h.stored, h.settled, h.current.imp id (Or.imp id ?_)⟩
      rintro ⟨own, seen, hactions, hrest⟩
      rw [hpass] at hactions
      exact ⟨own, seen, hactions, hrest⟩
    | cons a rest =>
      have hle : rest.length ≤ p.actions.length := Nat.le_of_succ_le (h.pass_le _ hpass)
      refine ⟨fun _ heq => Option.some.inj heq ▸ hle, h.stored, h.settled,
        h.current.imp id (Or.imp id ?_)⟩
      rintro ⟨own, seen, hactions, hafter, hseen⟩
      rw [hpass] at hactions
      refine ⟨own, seen ++ [(a, input, s.cells)], ?_, ?_, ?_⟩
      · rw [← hactions, List.map_append, List.append_assoc]
        rfl
      · show p.act a input s.cells s.own = _
        rw [hafter, Parties.after, Parties.after, List.foldl_append]
        rfl
      · intro b hb f hf
        rcases List.mem_append.mp hb with hb | hb
        · exact hseen b hb f hf
        · rw [List.mem_singleton.mp hb]

theorem Inv.step (h : Inv p s) (turn : Turn V E) : Inv p (step p s turn) := by
  cases turn with
  | edit record => exact h.edit record
  | write => exact h.write
  | read input => exact h.read input

theorem distance_read (p : Parties V σ A E) (s : State V σ A) (input : E) :
    distance p (Doorbell.step p s (.read input)) = distance p s - 1 := by
  rw [Doorbell.step]
  unfold distance
  cases hpass : s.pass with
  | none => cases hrung : s.rung <;> simp [hpass, hrung]
  | some rest =>
    cases rest with
    | nil => cases hrung : s.rung <;> simp
    | cons a rest =>
      cases hrung : s.rung <;> simp
      omega

theorem read_keeps_writer (p : Parties V σ A E) (s : State V σ A) (input : E) :
    (Doorbell.step p s (.read input)).edit = s.edit ∧
      (Doorbell.step p s (.read input)).submitted = s.submitted := by
  rw [Doorbell.step]
  split
  · split <;> exact ⟨rfl, rfl⟩
  · exact ⟨rfl, rfl⟩
  · exact ⟨rfl, rfl⟩

theorem Inv.reads (h : Inv p s) (inputs : List E) :
    let s' := exec (Doorbell.step p) s (inputs.map .read)
    Inv p s' ∧ s'.edit = s.edit ∧ s'.submitted = s.submitted ∧
      distance p s' = distance p s - inputs.length := by
  induction inputs generalizing s with
  | nil => exact ⟨h, rfl, rfl, rfl⟩
  | cons input inputs ih =>
    obtain ⟨hinv, hedit, hsubmitted, hdistance⟩ := ih (h.read input)
    obtain ⟨hedit', hsubmitted'⟩ := read_keeps_writer p s input
    refine ⟨hinv, hedit.trans hedit', hsubmitted.trans hsubmitted', ?_⟩
    rw [List.map_cons, exec_cons, hdistance, distance_read, List.length_cons]
    omega

/-- Left alone by the writer, the reader is at rest within two passes and has taken the last record
over. -/
theorem Inv.takes_last (h : Inv p s) (hedit : s.edit = none) {inputs : List E}
    (hlen : 2 * p.actions.length + 3 ≤ inputs.length) {r : ∀ f, V f} (hr : s.submitted = some r) :
    ∃ own, p.Pass r p.actions own (exec (Doorbell.step p) s (inputs.map .read)).own := by
  obtain ⟨hinv, hedit', hsubmitted, hdistance⟩ := h.reads inputs
  have hzero : distance p (exec (Doorbell.step p) s (inputs.map .read)) = 0 := by
    have hle := h.distance_le
    omega
  obtain ⟨hrung, hpass⟩ := rest_of_distance hzero
  exact hinv.pass_of_last hrung (hedit'.trans hedit) hpass (hsubmitted.trans hr)

structure Records (P : (∀ f, V f) → Prop) (s : State V σ A) : Prop where
  edited : ∀ e, s.edit = some e → P e.record
  last : ∀ r, s.submitted = some r → P r

theorem Records.step {P : (∀ f, V f) → Prop} (h : Records P s) {turn : Turn V E}
    (hturn : ∀ r, turn = .edit r → P r) : Records P (step p s turn) := by
  cases turn with
  | edit record =>
    rw [Doorbell.step]
    split
    · refine ⟨fun e he => ?_, h.last⟩
      obtain rfl := Option.some.inj he
      exact hturn record rfl
    · exact h
  | write =>
    rw [Doorbell.step]
    split
    · exact h
    · next record done f todo he =>
      refine ⟨fun e heq => ?_, h.last⟩
      obtain rfl := Option.some.inj heq
      exact h.edited ⟨record, done, f :: todo⟩ he
    · next record done he =>
      exact ⟨(fun e heq => by cases heq), fun r hr => Option.some.inj hr ▸ h.edited _ he⟩
  | read input =>
    obtain ⟨hedit, hsubmitted⟩ := read_keeps_writer p s input
    exact ⟨fun e he => h.edited e (hedit ▸ he), fun r hr => h.last r (hsubmitted ▸ hr)⟩

end
end Doorbell
