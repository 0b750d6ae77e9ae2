import TrafficPrioritizer.Lib.Run
import Mathlib.Logic.Function.Basic

/-! Programs over a shared memory, taken apart into their single accesses, and the runs of several
threads in any interleaving. What a thread relies on from the others and what it guarantees them
are relations between states; `Holds` says of a program in the middle of its run that it keeps to
the guarantee as long as the others do. -/

namespace SharedMemory
variable {τ Cell : Type} {Val : Cell → Type} {α β : Type}

inductive Access (Val : Cell → Type)
  | load (c : Cell)
  | store (c : Cell) (v : Val c)
  | modify (c : Cell) (f : Val c → Val c)

def Access.Result : Access Val → Type
  | .load c => Val c
  | .store _ _ => Unit
  | .modify c _ => Val c

inductive Prog (Val : Cell → Type) (α : Type)
  | ret (a : α)
  | next (a : Access Val) (k : a.Result → Prog Val α)

namespace Prog

def bind : Prog Val α → (α → Prog Val β) → Prog Val β
  | .ret a, f => f a
  | .next a k, f => .next a fun v => (k v).bind f

instance : Monad (Prog Val) where
  pure := Prog.ret
  bind := Prog.bind

def load (c : Cell) : Prog Val (Val c) := .next (.load c) .ret

def store (c : Cell) (v : Val c) : Prog Val Unit := .next (.store c v) .ret

def modify (c : Cell) (f : Val c → Val c) : Prog Val (Val c) := .next (.modify c f) .ret

def result : Prog Val α → Option α
  | .ret a => some a
  | .next _ _ => none

theorem eq_ret_of_result {p : Prog Val α} {a : α} (h : p.result = some a) : p = .ret a := by
  cases p with
  | ret b => rw [Option.some.inj h]
  | next b k => cases h

end Prog

structure Shared (τ : Type) (Val : Cell → Type) where
  mem : ∀ c, Val c
  log : List (τ × Access Val)

variable [DecidableEq Cell]

def Access.perform : (a : Access Val) → (∀ c, Val c) → a.Result × (∀ c, Val c)
  | .load c, m => (m c, m)
  | .store c v, m => ((), Function.update m c v)
  | .modify c f, m => (m c, Function.update m c (f (m c)))

def Shared.act (s : Shared τ Val) (t : τ) (a : Access Val) : a.Result × Shared τ Val :=
  ((a.perform s.mem).1, ⟨(a.perform s.mem).2, (t, a) :: s.log⟩)

def Prog.run : Prog Val α → (∀ c, Val c) → α × (∀ c, Val c)
  | .ret a, m => (a, m)
  | .next a k, m => (k (a.perform m).1).run (a.perform m).2

theorem Prog.run_bind (p : Prog Val α) (f : α → Prog Val β) (m : ∀ c, Val c) :
    (p >>= f).run m = (f (p.run m).1).run (p.run m).2 := by
  induction p generalizing m with
  | ret a => rfl
  | next a k ih => exact ih _ _

/-! ## Relying and guaranteeing -/

section
variable {t : τ} {R G : Shared τ Val → Shared τ Val → Prop} {Q : α → Shared τ Val → Prop}
  {Q' : β → Shared τ Val → Prop} {s s' : Shared τ Val}

def Holds (t : τ) (R G : Shared τ Val → Shared τ Val → Prop) (Q : α → Shared τ Val → Prop) :
    Prog Val α → Shared τ Val → Prop
  | .ret a, s => ∀ s', R s s' → Q a s'
  | .next a k, s => ∀ s', R s s' →
      G s' (s'.act t a).2 ∧ Holds t R G Q (k (s'.act t a).1) (s'.act t a).2

theorem Holds.rely (htrans : ∀ {a b c}, R a b → R b c → R a c) {p : Prog Val α}
    (h : Holds t R G Q p s) (hr : R s s') : Holds t R G Q p s' := by
  cases p with
  | ret a => exact fun s'' hs'' => h s'' (htrans hr hs'')
  | next a k => exact fun s'' hs'' => h s'' (htrans hr hs'')

theorem Holds.bind (hrefl : ∀ s, R s s) {p : Prog Val α} {f : α → Prog Val β}
    (h : Holds t R G Q p s) (hf : ∀ a s, Q a s → Holds t R G Q' (f a) s) :
    Holds t R G Q' (p >>= f) s := by
  induction p generalizing s with
  | ret a => exact hf a s (h s (hrefl s))
  | next a k ih => exact fun s' hs' => ⟨(h s' hs').1, ih _ (h s' hs').2⟩

end

/-! ## Threads -/

structure System (τ : Type) (Val : Cell → Type) where
  Call : τ → Type
  Out : τ → Type
  body : ∀ t, Call t → Prog Val (Out t)

structure Machine (S : System τ Val) where
  shared : Shared τ Val
  prog : ∀ t, Prog Val (S.Out t)

inductive Turn (S : System τ Val)
  | call (t : τ) (c : S.Call t)
  | access (t : τ)

section
variable [DecidableEq τ] {S : System τ Val}

def Machine.step (m : Machine S) : Turn S → Machine S
  | .call t c =>
    match m.prog t with
    | .ret _ => { m with prog := Function.update m.prog t (S.body t c) }
    | .next _ _ => m
  | .access t =>
    match m.prog t with
    | .ret _ => m
    | .next a k =>
      ⟨(m.shared.act t a).2, Function.update m.prog t (k (m.shared.act t a).1)⟩

namespace Machine

def Idle (m : Machine S) : Prop := ∀ t, ∃ out, m.prog t = .ret out

theorem exists_accesses (m : Machine S) {t : τ} {p : Prog Val (S.Out t)} (hp : m.prog t = p) :
    ∃ turns, (LabelledRun.exec step m turns).shared.mem = (p.run m.shared.mem).2 ∧
      (LabelledRun.exec step m turns).prog =
        Function.update m.prog t (.ret (p.run m.shared.mem).1) := by
  induction p generalizing m with
  | ret a =>
    refine ⟨[], rfl, ?_⟩
    show m.prog = Function.update m.prog t (.ret a)
    rw [← hp, Function.update_eq_self]
  | next a k ih =>
    have hstep : m.step (.access t) =
        ⟨(m.shared.act t a).2, Function.update m.prog t (k (m.shared.act t a).1)⟩ := by
      rw [step, hp]
    obtain ⟨turns, hmem, hprog⟩ := ih (m.shared.act t a).1
      ⟨(m.shared.act t a).2, Function.update m.prog t _⟩ (Function.update_self ..)
    refine ⟨.access t :: turns, ?_⟩
    rw [LabelledRun.exec_cons, hstep]
    exact ⟨hmem, hprog.trans (Function.update_idem ..)⟩

theorem Idle.exists_call {m : Machine S} (h : m.Idle) (t : τ) (c : S.Call t) :
    ∃ turns, (LabelledRun.exec step m turns).Idle ∧
      (LabelledRun.exec step m turns).shared.mem = ((S.body t c).run m.shared.mem).2 := by
  obtain ⟨out, hout⟩ := h t
  have hcall : m.step (.call t c) = { m with prog := Function.update m.prog t (S.body t c) } := by
    rw [step, hout]
  obtain ⟨turns, hmem, hprog⟩ := exists_accesses
    { m with prog := Function.update m.prog t (S.body t c) } (t := t) (Function.update_self ..)
  refine ⟨.call t c :: turns, ?_⟩
  rw [LabelledRun.exec_cons, hcall]
  refine ⟨fun u => ?_, hmem⟩
  rw [hprog.trans (Function.update_idem ..)]
  by_cases hu : u = t
  · subst hu
    exact ⟨_, Function.update_self ..⟩
  · rw [Function.update_of_ne hu]
    exact h u

end Machine

structure Contract (S : System τ Val) where
  rely : τ → Shared τ Val → Shared τ Val → Prop
  guarantee : τ → Shared τ Val → Shared τ Val → Prop
  post : ∀ t, S.Out t → Shared τ Val → Prop
  rely_refl : ∀ t s, rely t s s
  rely_trans : ∀ t {a b c}, rely t a b → rely t b c → rely t a c
  compatible : ∀ {t u}, t ≠ u → ∀ s a,
    guarantee t s (s.act t a).2 → rely u s (s.act t a).2
  calls : ∀ t c out s, post t out s → Holds t (rely t) (guarantee t) (post t) (S.body t c) s

namespace Contract

def HoldsFor (C : Contract S) (m : Machine S) : Prop :=
  ∀ t, Holds t (C.rely t) (C.guarantee t) (C.post t) (m.prog t) m.shared

theorem HoldsFor.step {C : Contract S} {m : Machine S} (h : C.HoldsFor m) (turn : Turn S) :
    C.HoldsFor (m.step turn) := by
  cases turn with
  | call t c =>
    have ht := h t
    rw [Machine.step]
    cases hp : m.prog t with
    | next a k => exact h
    | ret out =>
      rw [hp] at ht
      intro u
      by_cases hu : u = t
      · subst hu
        show Holds u _ _ _ (Function.update m.prog u (S.body u c) u) m.shared
        rw [Function.update_self]
        exact C.calls u c out m.shared (ht m.shared (C.rely_refl u m.shared))
      · show Holds u _ _ _ (Function.update m.prog t (S.body t c) u) m.shared
        rw [Function.update_of_ne hu]
        exact h u
  | access t =>
    have ht := h t
    rw [Machine.step]
    cases hp : m.prog t with
    | ret out => exact h
    | next a k =>
      rw [hp] at ht
      obtain ⟨hguarantee, hnext⟩ := ht m.shared (C.rely_refl t m.shared)
      intro u
      by_cases hu : u = t
      · subst hu
        show Holds u _ _ _ (Function.update m.prog u _ u) _
        rw [Function.update_self]
        exact hnext
      · have hrely := C.compatible (Ne.symm hu) m.shared a hguarantee
        show Holds u _ _ _ (Function.update m.prog t _ u) (m.shared.act t a).2
        rw [Function.update_of_ne hu]
        exact Holds.rely (R := C.rely u) (C.rely_trans u) (h u) hrely

/-- Threads that keep to their contract from the start keep to it in every interleaving; so what
a thread returns meets its postcondition. -/
theorem HoldsFor.post_of_run {C : Contract S} {m : Machine S} (h : C.HoldsFor m)
    (turns : List (Turn S)) {t : τ} {out : S.Out t}
    (hret : (LabelledRun.exec Machine.step m turns).prog t = .ret out) :
    C.post t out (LabelledRun.exec Machine.step m turns).shared := by
  have hend : C.HoldsFor (LabelledRun.exec Machine.step m turns) :=
    LabelledRun.invariant (fun m turn hm => hm.step turn) turns h
  have ht := hend t
  rw [hret] at ht
  exact ht _ (C.rely_refl t _)

end Contract
end
end SharedMemory
