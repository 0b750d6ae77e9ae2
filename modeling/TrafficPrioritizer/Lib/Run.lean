import Mathlib.Data.List.Basic

/-! Runs of a deterministic labelled machine. A run is the list of its labels;
`Every` says what each step of it meets in the state before that step, so that a
claim about whole runs is an initial fact and a step lemma. -/

namespace LabelledRun
variable {σ τ ι : Type*}

def exec (step : σ → ι → σ) (s : σ) (ops : List ι) : σ := ops.foldl step s

/-- Every step of the run from `s` meets `P`, read in the state before the step. -/
def Every (step : σ → ι → σ) (P : σ → ι → Prop) : σ → List ι → Prop
  | _, [] => True
  | s, a :: as => P s a ∧ Every step P (step s a) as

instance decidableEvery (step : σ → ι → σ) (P : σ → ι → Prop) [∀ s a, Decidable (P s a)] :
    (s : σ) → (ops : List ι) → Decidable (Every step P s ops)
  | _, [] => .isTrue trivial
  | s, a :: as => @instDecidableAnd _ _ _ (decidableEvery step P (step s a) as)

@[simp] theorem exec_nil (step : σ → ι → σ) (s : σ) : exec step s [] = s := rfl

@[simp] theorem exec_cons (step : σ → ι → σ) (s : σ) (a : ι) (as : List ι) :
    exec step s (a :: as) = exec step (step s a) as := rfl

@[simp] theorem exec_append (step : σ → ι → σ) (s : σ) (as bs : List ι) :
    exec step s (as ++ bs) = exec step (exec step s as) bs := List.foldl_append

theorem every_append {step : σ → ι → σ} {P : σ → ι → Prop} {s : σ} {as bs : List ι} :
    Every step P s (as ++ bs) ↔ Every step P s as ∧ Every step P (exec step s as) bs := by
  induction as generalizing s with
  | nil => simp [Every]
  | cons a as ih => simp only [List.cons_append, Every, ih, exec_cons, and_assoc]

theorem every_of_split {step : σ → ι → σ} {P : σ → ι → Prop} {s : σ} {ops : List ι}
    (h : ∀ as a bs, ops = as ++ a :: bs → P (exec step s as) a) : Every step P s ops := by
  induction ops generalizing s with
  | nil => exact trivial
  | cons a as ih =>
    refine ⟨h [] a as rfl, ih fun bs b cs hsplit => ?_⟩
    exact h (a :: bs) b cs (by rw [hsplit, List.cons_append])

theorem Every.invariant {step : σ → ι → σ} {P : σ → ι → Prop} {I : σ → Prop}
    (hstep : ∀ s a, I s → P s a → I (step s a)) {s : σ} {ops : List ι}
    (h : Every step P s ops) (hs : I s) : I (exec step s ops) := by
  induction ops generalizing s with
  | nil => exact hs
  | cons a as ih => exact ih h.2 (hstep s a hs h.1)

theorem Every.imp_of_invariant {step : σ → ι → σ} {P Q : σ → ι → Prop} {I : σ → Prop}
    (hstep : ∀ s a, I s → P s a → I (step s a)) (himp : ∀ s a, I s → P s a → Q s a) {s : σ}
    {ops : List ι} (h : Every step P s ops) (hs : I s) : Every step Q s ops := by
  induction ops generalizing s with
  | nil => exact trivial
  | cons a as ih => exact ⟨himp s a hs h.1, ih h.2 (hstep s a hs h.1)⟩

theorem invariant {step : σ → ι → σ} {I : σ → Prop} (hstep : ∀ s a, I s → I (step s a))
    {s : σ} (ops : List ι) (hs : I s) : I (exec step s ops) := by
  induction ops generalizing s with
  | nil => exact hs
  | cons a as ih => exact ih (hstep s a hs)

theorem exec_map {step : σ → ι → σ} {step' : τ → ι → τ} (f : τ → σ)
    (h : ∀ t a, f (step' t a) = step (f t) a) (t : τ) (ops : List ι) :
    f (exec step' t ops) = exec step (f t) ops := by
  induction ops generalizing t with
  | nil => rfl
  | cons a as ih => rw [exec_cons, exec_cons, ih, h]

def trace {β : Type*} (step : σ → ι → σ) (emit : σ → ι → β) : σ → List ι → List β
  | _, [] => []
  | s, a :: as => emit s a :: trace step emit (step s a) as

theorem trace_concat {β : Type*} (step : σ → ι → σ) (emit : σ → ι → β) (s : σ) (as : List ι)
    (a : ι) : trace step emit s (as ++ [a]) =
      trace step emit s as ++ [emit (exec step s as) a] := by
  induction as generalizing s with
  | nil => rfl
  | cons b as ih => rw [List.cons_append, trace, ih, trace, exec_cons, List.cons_append]

theorem every_emit_iff {β : Type*} {step : σ → ι → σ} {emit : σ → ι → β} {P : β → Prop} {s : σ}
    {ops : List ι} :
    Every step (fun s a => P (emit s a)) s ops ↔ ∀ e ∈ trace step emit s ops, P e := by
  induction ops generalizing s with
  | nil => simp [Every, trace]
  | cons a as ih => rw [Every, ih, trace, List.forall_mem_cons]

theorem exists_of_cons_sublist_trace {β : Type*} {step : σ → ι → σ} {emit : σ → ι → β} {e : β}
    {es : List β} {s : σ} {ops : List ι} (h : (e :: es).Sublist (trace step emit s ops)) :
    ∃ as a bs, ops = as ++ a :: bs ∧ emit (exec step s as) a = e ∧
      es.Sublist (trace step emit (step (exec step s as) a) bs) := by
  induction ops generalizing s with
  | nil => cases h
  | cons a ops ih =>
    cases h with
    | cons_cons _ hrest => exact ⟨[], a, ops, rfl, rfl, hrest⟩
    | cons _ hskip =>
      obtain ⟨as, b, bs, rfl, hemit, hrest⟩ := ih hskip
      exact ⟨a :: as, b, bs, rfl, hemit, hrest⟩

def outputs {β : Type*} (step : σ → ι → σ) (emit : σ → ι → Option β) : σ → List ι → List β
  | _, [] => []
  | s, a :: as => (emit s a).toList ++ outputs step emit (step s a) as

theorem filterMap_cons_toList {α β : Type*} (f : α → Option β) (a : α) (as : List α) :
    (a :: as).filterMap f = (f a).toList ++ as.filterMap f := by
  rw [List.filterMap_cons]
  cases f a <;> rfl

theorem filterMap_trace {α β : Type*} (step : σ → ι → σ) (emit : σ → ι → α) (f : α → Option β)
    (s : σ) (ops : List ι) :
    (trace step emit s ops).filterMap f = outputs step (fun s a => f (emit s a)) s ops := by
  induction ops generalizing s with
  | nil => rfl
  | cons a as ih => rw [trace, filterMap_cons_toList, ih, outputs]

theorem filterMap_outputs {α β : Type*} (step : σ → ι → σ) (emit : σ → ι → Option α)
    (f : α → Option β) (s : σ) (ops : List ι) :
    (outputs step emit s ops).filterMap f = outputs step (fun s a => (emit s a).bind f) s ops := by
  induction ops generalizing s with
  | nil => rfl
  | cons a as ih =>
    rw [outputs, List.filterMap_append, ih, outputs]
    cases emit s a with
    | none => rfl
    | some x => cases hx : f x <;> simp [hx]

theorem map_outputs {α β : Type*} (step : σ → ι → σ) (emit : σ → ι → Option α) (f : α → β) (s : σ)
    (ops : List ι) :
    (outputs step emit s ops).map f = outputs step (fun s a => (emit s a).map f) s ops := by
  induction ops generalizing s with
  | nil => rfl
  | cons a as ih =>
    rw [outputs, List.map_append, ih, outputs]
    cases emit s a <;> rfl

theorem every_outputs_iff {β : Type*} {step : σ → ι → σ} {emit : σ → ι → Option β} {P : β → Prop}
    {s : σ} {ops : List ι} :
    Every step (fun s a => ∀ e ∈ emit s a, P e) s ops ↔ ∀ e ∈ outputs step emit s ops, P e := by
  induction ops generalizing s with
  | nil => simp [Every, outputs]
  | cons a as ih =>
    rw [Every, ih, outputs, List.forall_mem_append]
    simp only [Option.mem_toList, Option.mem_def]

/-- When each step puts out what it takes in, but for what the state carries, so does a run. -/
theorem outputs_carried {β : Type*} {step : σ → ι → σ} {taken given : σ → ι → Option β}
    {I : σ → Prop} (carried : σ → List β) (hI : ∀ s a, I s → I (step s a))
    (hstep : ∀ s a, I s →
      carried s ++ (taken s a).toList = (given s a).toList ++ carried (step s a)) {s : σ}
    (hs : I s) (ops : List ι) :
    carried s ++ outputs step taken s ops =
      outputs step given s ops ++ carried (exec step s ops) := by
  induction ops generalizing s with
  | nil => simp [outputs]
  | cons a as ih =>
    rw [outputs, outputs, exec_cons, ← List.append_assoc, hstep s a hs, List.append_assoc,
      ih (hI s a hs), List.append_assoc]

theorem countP_outputs_carried {β γ : Type*} {step : σ → ι → σ} {taken : σ → ι → Option β}
    {given : σ → ι → Option γ} {I : σ → Prop} (p : β → Bool) (q : γ → Bool) (stock : σ → ℕ)
    (hI : ∀ s a, I s → I (step s a))
    (hstep : ∀ s a, I s → stock s + (taken s a).toList.countP p =
      (given s a).toList.countP q + stock (step s a)) {s : σ} (hs : I s) (ops : List ι) :
    stock s + (outputs step taken s ops).countP p =
      (outputs step given s ops).countP q + stock (exec step s ops) := by
  induction ops generalizing s with
  | nil => simp [outputs]
  | cons a as ih =>
    have hrest := ih (hI s a hs)
    have hfirst := hstep s a hs
    rw [outputs, outputs, exec_cons, List.countP_append, List.countP_append]
    omega

theorem counter_outputs {γ : Type*} {step : σ → ι → σ} {given : σ → ι → Option γ} (p : γ → Bool)
    (counter : σ → UInt64)
    (hstep : ∀ s a, counter (step s a) = counter s + .ofNat ((given s a).toList.countP p)) (s : σ)
    (ops : List ι) :
    counter (exec step s ops) = counter s + .ofNat ((outputs step given s ops).countP p) := by
  induction ops generalizing s with
  | nil => exact (UInt64.add_zero _).symm
  | cons a as ih =>
    rw [outputs, exec_cons, ih, hstep, List.countP_append, UInt64.ofNat_add, UInt64.add_assoc]

theorem outputs_sublist {β : Type*} {step : σ → ι → σ} {emit emit' : σ → ι → Option β}
    (h : ∀ s a x, emit s a = some x → emit' s a = some x) (s : σ) (ops : List ι) :
    (outputs step emit s ops).Sublist (outputs step emit' s ops) := by
  induction ops generalizing s with
  | nil => exact List.Sublist.refl _
  | cons a as ih =>
    rw [outputs, outputs]
    refine List.Sublist.append ?_ (ih (step s a))
    cases hemit : emit s a with
    | none => exact List.nil_sublist _
    | some x => rw [h s a x hemit]

/-- Forward simulation: when each step, read through `abs`, is an allowed action of the abstract
machine, a run is a run of the abstract machine over the actions it emits. -/
theorem simulation {β : Type*} {step : σ → ι → σ} {emit : σ → ι → β} {next : τ → β → τ}
    {allowed : τ → β → Prop} {I : σ → Prop} (abs : σ → τ)
    (hstep : ∀ s a, I s → I (step s a) ∧ allowed (abs s) (emit s a) ∧
      abs (step s a) = next (abs s) (emit s a)) {s : σ} (hs : I s) (ops : List ι) :
    I (exec step s ops) ∧ Every next allowed (abs s) (trace step emit s ops) ∧
      abs (exec step s ops) = exec next (abs s) (trace step emit s ops) := by
  induction ops generalizing s with
  | nil => exact ⟨hs, trivial, rfl⟩
  | cons a as ih =>
    obtain ⟨hI, hallowed, habs⟩ := hstep s a hs
    obtain ⟨hend, hevery, hexec⟩ := ih hI
    rw [habs] at hevery hexec
    exact ⟨hend, ⟨hallowed, hevery⟩, hexec⟩

end LabelledRun
