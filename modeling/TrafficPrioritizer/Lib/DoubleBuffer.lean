import TrafficPrioritizer.Lib.SharedMemory
import Mathlib.Data.Fin.Basic
import Mathlib.Data.List.TakeDrop
import Mathlib.Tactic.Common

/-! Two copies of a record. Readers use the one that an index names; the writer fills the other and
then turns the index. A reader takes no lock: it loads the index and then the fields one by one. It
has read one whole record if at most one refresh overlaps its work. -/

namespace DoubleBuffer
open SharedMemory LabelledRun

variable {F : Type} {V : F → Type} {ι α β : Type}

def other (b : Fin 2) : Fin 2 := ⟨1 - b.val, Nat.lt_succ_of_le (Nat.sub_le 1 b.val)⟩

theorem other_ne (b : Fin 2) : other b ≠ b := by
  decide +revert

theorem other_other (b : Fin 2) : other (other b) = b := by
  decide +revert

/-! ## The refreshes in sequence -/

structure Buffers (V : F → Type) where
  buf : Fin 2 → ∀ f, V f
  active : Fin 2

namespace Buffers

def current (p : Buffers V) : ∀ f, V f := p.buf p.active

variable [DecidableEq F]

def fill (r : ∀ f, V f) (stores : List (Σ f, V f)) : ∀ f, V f :=
  stores.foldl (fun r w => Function.update r w.1 w.2) r

def refresh (p : Buffers V) (stores : List (Σ f, V f)) : Buffers V :=
  ⟨Function.update p.buf (other p.active) (fill (p.buf (other p.active)) stores), other p.active⟩

theorem fill_concat (r : ∀ f, V f) (stores : List (Σ f, V f)) (s : Σ f, V f) :
    fill r (stores ++ [s]) = Function.update (fill r stores) s.1 s.2 := List.foldl_concat ..

theorem fill_of_notMem {r : ∀ f, V f} {stores : List (Σ f, V f)} {f : F}
    (h : f ∉ stores.map Sigma.fst) : fill r stores f = r f := by
  induction stores generalizing r with
  | nil => rfl
  | cons s stores ih =>
    rw [List.map_cons, List.mem_cons, not_or] at h
    exact (ih h.2).trans (Function.update_of_ne h.1 ..)

theorem fill_append (r : ∀ f, V f) (a b : List (Σ f, V f)) :
    fill r (a ++ b) = fill (fill r a) b := List.foldl_append

theorem fill_append_left {r : ∀ f, V f} {a b : List (Σ f, V f)} {f : F}
    (h : f ∉ b.map Sigma.fst) : fill r (a ++ b) f = fill r a f := by
  rw [fill_append, fill_of_notMem h]

theorem fill_congr {r r' : ∀ f, V f} {f : F} (h : r f = r' f) (stores : List (Σ f, V f)) :
    fill r stores f = fill r' stores f := by
  induction stores generalizing r r' with
  | nil => exact h
  | cons s stores ih =>
    refine ih ?_
    show Function.update r s.1 s.2 f = Function.update r' s.1 s.2 f
    by_cases hs : f = s.1
    · subst hs
      rw [Function.update_self, Function.update_self]
    · rw [Function.update_of_ne hs, Function.update_of_ne hs, h]

theorem fill_append_right {r : ∀ f, V f} {a b : List (Σ f, V f)} {f : F}
    (h : f ∉ a.map Sigma.fst) : fill r (a ++ b) f = fill r b f := by
  rw [fill_append]
  exact fill_congr (fill_of_notMem h) b

theorem fill_cons_self {r : ∀ f, V f} {stores : List (Σ f, V f)} {f : F} {v : V f}
    (h : f ∉ stores.map Sigma.fst) : fill r (⟨f, v⟩ :: stores) f = v :=
  (fill_of_notMem h).trans (Function.update_self ..)

theorem fill_map {κ : Type} {g : κ → F} (hg : Function.Injective g) (v : ∀ j, V (g j))
    (r : ∀ f, V f) {l : List κ} {j : κ} (hj : j ∈ l) :
    fill r (l.map fun j => ⟨g j, v j⟩) (g j) = v j := by
  classical
  induction l generalizing r with
  | nil => cases hj
  | cons i l ih =>
    by_cases hl : j ∈ l
    · exact ih _ hl
    · obtain rfl : j = i := (List.mem_cons.mp hj).resolve_right hl
      refine fill_cons_self fun hmem => hl ?_
      rw [List.map_map] at hmem
      exact (List.mem_map_of_injective hg).mp hmem

theorem fill_flatMap {κ : Type} {g : κ → List (Σ f, V f)} {f : F} {i : κ}
    (h : ∀ j, j ≠ i → f ∉ (g j).map Sigma.fst) (r : ∀ f, V f) {l : List κ} (hi : i ∈ l)
    (hnodup : l.Nodup) : fill r (l.flatMap g) f = fill r (g i) f := by
  classical
  induction l with
  | nil => cases hi
  | cons j l ih =>
    obtain ⟨hj, hl⟩ := List.nodup_cons.mp hnodup
    rw [List.flatMap_cons]
    by_cases heq : j = i
    · subst heq
      refine fill_append_left fun hmem => ?_
      rw [List.map_flatMap] at hmem
      obtain ⟨i, hi, hmem⟩ := List.mem_flatMap.mp hmem
      exact h i (fun heq => hj (heq ▸ hi)) hmem
    · rw [fill_append_right (h j heq)]
      exact ih ((List.mem_cons.mp hi).resolve_left (Ne.symm heq)) hl

theorem current_refresh (p : Buffers V) (stores : List (Σ f, V f)) :
    (p.refresh stores).current = fill (p.buf (other p.active)) stores := Function.update_self ..

def after (p : Buffers V) (refreshes : List (List (Σ f, V f))) (n : ℕ) : Buffers V :=
  exec refresh p (refreshes.take n)

theorem after_succ (p : Buffers V) {refreshes rest : List (List (Σ f, V f))}
    {stores : List (Σ f, V f)} {n : ℕ} (h : refreshes.drop n = stores :: rest) :
    p.after refreshes (n + 1) = (p.after refreshes n).refresh stores := by
  have hget : refreshes[n]? = some stores := by
    rw [← List.head?_drop, h]
    rfl
  rw [after, List.take_add_one, hget]
  exact exec_append ..

end Buffers

/-! ## Field by field -/

inductive Cell (F : Type)
  | active
  | field (b : Fin 2) (f : F)
  deriving DecidableEq

theorem field_ne {b c : Fin 2} (h : b ≠ c) (f g : F) : Cell.field b f ≠ .field c g := by
  rintro ⟨⟩
  exact h rfl

def Val (V : F → Type) : Cell F → Type
  | .active => Fin 2
  | .field _ f => V f

inductive Query (V : F → Type) (α : Type)
  | ret (a : α)
  | load (f : F) (k : V f → Query V α)

namespace Query

def bind : Query V α → (α → Query V β) → Query V β
  | .ret a, f => f a
  | .load g k, f => .load g fun v => (k v).bind f

instance : Monad (Query V) where
  pure := Query.ret
  bind := Query.bind

def field (f : F) : Query V (V f) := .load f .ret

def eval (r : ∀ f, V f) : Query V α → α
  | .ret a => a
  | .load f k => (k (r f)).eval r

@[simp] theorem eval_pure (r : ∀ f, V f) (a : α) : (pure a : Query V α).eval r = a := rfl

@[simp] theorem eval_field (r : ∀ f, V f) (f : F) : (field f).eval r = r f := rfl

@[simp] theorem eval_bind (r : ∀ f, V f) (q : Query V α) (k : α → Query V β) :
    (q >>= k).eval r = (k (q.eval r)).eval r := by
  induction q with
  | ret a => rfl
  | load f k ih => exact ih (r f)

def prog (b : Fin 2) : Query V α → Prog (Val V) α
  | .ret a => .ret a
  | .load f k => .next (.load (.field b f)) fun v => (k v).prog b

theorem eval_of_prog_eq_ret {b : Fin 2} {q : Query V α} {a : α} (h : q.prog b = .ret a)
    (r : ∀ f, V f) : q.eval r = a := by
  cases q with
  | ret a' => exact Prog.ret.inj h
  | load f k => cases h

end Query

def read (q : Query V α) : Prog (Val V) α := .next (.load .active) fun b => q.prog b

def write (w : Fin 2) (k : Prog (Val V) Unit) : List (Σ f, V f) → Prog (Val V) Unit
  | [] => .next (.store .active w) fun _ => k
  | s :: stores => .next (.store (.field w s.1) s.2) fun _ => write w k stores

def writeAll : List (List (Σ f, V f)) → Prog (Val V) Unit
  | [] => .ret ()
  | stores :: rest => .next (.load .active) fun (a : Fin 2) => write (other a) (writeAll rest) stores

def system (V : F → Type) (ι α : Type) : System (Option ι) (Val V) where
  Call _ := Empty
  Out
    | none => Unit
    | some _ => α
  body _ c := c.elim

section
variable [DecidableEq F]

def start (p : Buffers V) (refreshes : List (List (Σ f, V f))) (query : ι → Query V α) :
    Machine (system V ι α) where
  shared :=
    { mem := fun c =>
        match c with
        | .active => p.active
        | .field b f => p.buf b f
      log := [] }
  prog
    | none => writeAll refreshes
    | some i => read (query i)

/-! ## Which refreshes have begun, and which are published -/

def isBegin : Option ι × Access (Val V) → Bool
  | (none, .load .active) => true
  | _ => false

def isPublish : Option ι × Access (Val V) → Bool
  | (none, .store .active _) => true
  | _ => false

def begun (m : Machine (system V ι α)) : ℕ := m.shared.log.countP isBegin

def published (m : Machine (system V ι α)) : ℕ := m.shared.log.countP isPublish

structure Holds (m : Machine (system V ι α)) (p : Buffers V) (done : List (Σ f, V f)) : Prop where
  active : m.shared.mem .active = p.active
  inUse : ∀ f, m.shared.mem (.field p.active f) = p.current f
  other : ∀ f, m.shared.mem (.field (other p.active) f) = Buffers.fill (p.buf (other p.active)) done f

section
variable (p : Buffers V) (refreshes : List (List (Σ f, V f))) (query : ι → Query V α)

inductive Writing (m : Machine (system V ι α)) : Prop
  | idle (hprog : m.prog none = writeAll (refreshes.drop (published m)))
      (hle : published m ≤ refreshes.length) (hbegun : begun m = published m)
      (hmem : Holds m (p.after refreshes (published m)) [])
  | busy (done todo : List (Σ f, V f)) (rest : List (List (Σ f, V f)))
      (hprog : m.prog none =
        write (other (p.after refreshes (published m)).active) (writeAll rest) todo)
      (hrefresh : refreshes.drop (published m) = (done ++ todo) :: rest)
      (hbegun : begun m = published m + 1)
      (hmem : Holds m (p.after refreshes (published m)) done)

/-- A reader that has loaded the index after the refresh `n` is on its way to the answer of the
record published then, if only one refresh has begun since. -/
def Reading (m : Machine (system V ι α)) (n : ℕ) (i : ι) : Prop :=
  ∃ q : Query V α, m.prog (some i) = q.prog (p.after refreshes n).active ∧ n ≤ published m ∧
    (begun m ≤ n + 1 →
      q.eval (p.after refreshes n).current = (query i).eval (p.after refreshes n).current)

structure Inv (since : ι → ℕ) (m : Machine (system V ι α)) : Prop where
  writing : Writing p refreshes m
  since_le : ∀ i, since i ≤ published m
  reading : ∀ i, m.prog (some i) = read (query i) ∨
    ∃ n, since i ≤ n ∧ Reading p refreshes query m n i

end

section
variable {p : Buffers V} {refreshes : List (List (Σ f, V f))} {query : ι → Query V α}
  {m m' : Machine (system V ι α)}

theorem Buffers.other_refresh (p : Buffers V) (stores : List (Σ f, V f)) :
    (p.refresh stores).buf (other (p.refresh stores).active) = p.current ∧
      other (p.refresh stores).active = p.active := by
  have hback := other_other p.active
  refine ⟨?_, hback⟩
  show Function.update p.buf (other p.active) _ (other (other p.active)) = p.current
  rw [hback, Function.update_of_ne (other_ne p.active).symm]
  rfl

theorem Writing.record_kept (h : Writing p refreshes m) {n : ℕ} (hn : n ≤ published m)
    (hone : begun m ≤ n + 1) (f : F) :
    m.shared.mem (.field (p.after refreshes n).active f) = (p.after refreshes n).current f := by
  cases h with
  | busy done todo rest _ _ hbegun hmem =>
    have heq : n = published m := by omega
    rw [heq]
    exact hmem.inUse f
  | idle _ hle hbegun hmem =>
    rcases hn.eq_or_lt with rfl | hlt
    · exact hmem.inUse f
    · have heq : published m = n + 1 := by omega
      have hnext := p.after_succ (List.drop_eq_getElem_cons (show n < refreshes.length by omega))
      have hother := hmem.other f
      obtain ⟨hbuf, hactive⟩ := (p.after refreshes n).other_refresh refreshes[n]
      rw [heq, hnext, hbuf, hactive] at hother
      exact hother

/-! ## One access -/

structure Accessed (m m' : Machine (system V ι α)) (t : Option ι) (a : Access (Val V))
    (k : a.Result → Prog (Val V) ((system V ι α).Out t)) : Prop where
  mem : m'.shared.mem = (a.perform m.shared.mem).2
  prog : m'.prog t = k (a.perform m.shared.mem).1
  others : ∀ u, u ≠ t → m'.prog u = m.prog u
  begun : begun m' = begun m + (isBegin (t, a)).toNat
  published : published m' = published m + (isPublish (t, a)).toNat

theorem accessed [DecidableEq ι] {t : Option ι} {a : Access (Val V)}
    {k : a.Result → Prog (Val V) ((system V ι α).Out t)} (hprog : m.prog t = .next a k) :
    Accessed m (m.step (.access t)) t a k := by
  rw [Machine.step, hprog]
  refine ⟨rfl, Function.update_self .., fun u hu => Function.update_of_ne hu .., ?_, ?_⟩
  · refine List.countP_cons.trans ?_
    cases isBegin (t, a) <;> rfl
  · refine List.countP_cons.trans ?_
    cases isPublish (t, a) <;> rfl

theorem Writing.begins [DecidableEq ι] {stores : List (Σ f, V f)}
    {rest : List (List (Σ f, V f))} (hprog : m.prog none = writeAll (stores :: rest))
    (hdrop : refreshes.drop (published m) = stores :: rest) (hbegun : begun m = published m)
    (hmem : Holds m (p.after refreshes (published m)) []) :
    Writing p refreshes (m.step (.access none)) := by
  have h := accessed hprog
  have hpublished : published (m.step (.access none)) = published m := h.published
  have hsame : (m.step (.access none)).shared.mem = m.shared.mem := h.mem
  refine .busy [] stores rest ?_ ?_ ?_ ⟨?_, ?_, ?_⟩
  · rw [h.prog, hpublished]
    exact congrArg (fun a : Fin 2 => write (other a) (writeAll rest) stores) hmem.active
  · rw [hpublished, hdrop, List.nil_append]
  · rw [h.begun, hpublished, hbegun]
    rfl
  · rw [hsame, hpublished, hmem.active]
  · rw [hsame, hpublished]
    exact hmem.inUse
  · rw [hsame, hpublished]
    exact hmem.other

theorem Writing.stores [DecidableEq ι] {done todo : List (Σ f, V f)} {s : Σ f, V f}
    {rest : List (List (Σ f, V f))} (hprog : m.prog none =
      write (other (p.after refreshes (published m)).active) (writeAll rest) (s :: todo))
    (hrefresh : refreshes.drop (published m) = (done ++ s :: todo) :: rest)
    (hbegun : begun m = published m + 1)
    (hmem : Holds m (p.after refreshes (published m)) done) :
    Writing p refreshes (m.step (.access none)) := by
  have h := accessed hprog
  have hpublished : published (m.step (.access none)) = published m := h.published
  refine .busy (done ++ [s]) todo rest ?_ ?_ ?_ ⟨?_, ?_, ?_⟩
  · rw [h.prog, hpublished]
  · rw [hpublished, List.append_assoc]
    exact hrefresh
  · rw [hpublished]
    exact h.begun.trans hbegun
  · rw [h.mem, hpublished]
    exact hmem.active
  · intro f
    rw [h.mem, hpublished]
    exact (Function.update_of_ne (field_ne (other_ne _).symm f s.1) ..).trans (hmem.inUse f)
  · intro f
    rw [h.mem, hpublished, Buffers.fill_concat]
    obtain ⟨g, v⟩ := s
    by_cases hf : f = g
    · subst hf
      rw [Function.update_self]
      exact Function.update_self ..
    · rw [Function.update_of_ne hf, ← hmem.other f]
      exact Function.update_of_ne (fun hcell => hf (Cell.field.inj hcell).2) ..

theorem Writing.publishes [DecidableEq ι] {done : List (Σ f, V f)}
    {rest : List (List (Σ f, V f))} (hprog : m.prog none =
      write (other (p.after refreshes (published m)).active) (writeAll rest) [])
    (hrefresh : refreshes.drop (published m) = done :: rest)
    (hbegun : begun m = published m + 1)
    (hmem : Holds m (p.after refreshes (published m)) done) :
    Writing p refreshes (m.step (.access none)) := by
  have h := accessed hprog
  have hpublished : published (m.step (.access none)) = published m + 1 := h.published
  have hnext := p.after_succ hrefresh
  have hlen := congrArg List.length hrefresh
  rw [List.length_drop, List.length_cons] at hlen
  obtain ⟨hbuf, hactive⟩ := (p.after refreshes (published m)).other_refresh done
  refine .idle ?_ (by omega) ?_ ⟨?_, ?_, ?_⟩
  · rw [h.prog, hpublished, ← List.drop_drop, hrefresh]
    rfl
  · rw [hpublished]
    exact h.begun.trans hbegun
  · rw [h.mem, hpublished, hnext]
    exact Function.update_self Cell.active _ m.shared.mem
  · intro f
    rw [h.mem, hpublished, hnext, Buffers.current_refresh]
    exact hmem.other f
  · intro f
    rw [h.mem, hpublished, hnext, hactive]
    refine (hmem.inUse f).trans ?_
    rw [← hactive, hbuf]
    rfl

theorem Writing.step [DecidableEq ι] (h : Writing p refreshes m) :
    Writing p refreshes (m.step (.access none)) := by
  cases h with
  | idle hprog hle hbegun hmem =>
    rcases hdrop : refreshes.drop (published m) with _ | ⟨stores, rest⟩
    · have hstay : m.step (.access none) = m := by
        rw [Machine.step, hprog, hdrop]
        rfl
      rw [hstay]
      exact .idle hprog hle hbegun hmem
    · rw [hdrop] at hprog
      exact Writing.begins hprog hdrop hbegun hmem
  | busy done todo rest hprog hrefresh hbegun hmem =>
    cases todo with
    | cons s todo => exact Writing.stores hprog hrefresh hbegun hmem
    | nil =>
      rw [List.append_nil] at hrefresh
      exact Writing.publishes hprog hrefresh hbegun hmem

theorem Writing.of_load [DecidableEq ι] (h : Writing p refreshes m) {i : ι} {c : Cell F}
    {k : Val V c → Prog (Val V) α} (ha : Accessed m m' (some i) (.load c) k) :
    Writing p refreshes m' := by
  have hmem : m'.shared.mem = m.shared.mem := ha.mem
  have hprog : m'.prog none = m.prog none := ha.others none (by simp)
  have hpublished : published m' = published m := ha.published
  have hbegun : begun m' = begun m := ha.begun
  have hholds {q : Buffers V} {done : List (Σ f, V f)} (h : Holds m q done) : Holds m' q done :=
    ⟨by rw [hmem, h.active], by rw [hmem]; exact h.inUse, by rw [hmem]; exact h.other⟩
  cases h with
  | idle hwriter hle hidle hcopies =>
    rw [← hprog, ← hpublished] at hwriter
    rw [← hpublished] at hle hcopies
    exact .idle hwriter hle (by rw [hbegun, hpublished, hidle]) (hholds hcopies)
  | busy done todo rest hwriter hrefresh hbusy hcopies =>
    rw [← hprog, ← hpublished] at hwriter
    rw [← hpublished] at hrefresh hcopies
    exact .busy done todo rest hwriter hrefresh (by rw [hbegun, hpublished, hbusy])
      (hholds hcopies)

theorem Writing.active (h : Writing p refreshes m) :
    m.shared.mem .active = (p.after refreshes (published m)).active := by
  cases h with
  | idle _ _ _ hmem => exact hmem.active
  | busy _ _ _ _ _ _ hmem => exact hmem.active

theorem step_other [DecidableEq ι] (m : Machine (system V ι α)) (t : Option ι) :
    published m ≤ published (m.step (.access t)) ∧ begun m ≤ begun (m.step (.access t)) ∧
      ∀ u, u ≠ t → (m.step (.access t)).prog u = m.prog u := by
  cases hprog : m.prog t with
  | ret out =>
    have hstay : m.step (.access t) = m := by rw [Machine.step, hprog]
    rw [hstay]
    exact ⟨le_rfl, le_rfl, fun _ _ => rfl⟩
  | next a k =>
    have h := accessed hprog
    exact ⟨h.published ▸ Nat.le_add_right .., h.begun ▸ Nat.le_add_right .., h.others⟩

theorem Reading.frame {n : ℕ} {i : ι} (h : Reading p refreshes query m n i)
    (hpublished : published m ≤ published m') (hbegun : begun m ≤ begun m')
    (hprog : m'.prog (some i) = m.prog (some i)) : Reading p refreshes query m' n i := by
  obtain ⟨q, hq, hn, heval⟩ := h
  exact ⟨q, hprog.trans hq, hn.trans hpublished, fun hone => heval (hbegun.trans hone)⟩

theorem Reading.begins [DecidableEq ι] (hw : Writing p refreshes m) {i : ι}
    (hprog : m.prog (some i) = read (query i)) :
    Writing p refreshes (m.step (.access (some i))) ∧
      Reading p refreshes query (m.step (.access (some i))) (published m) i := by
  have h := accessed hprog
  have hpublished : published (m.step (.access (some i))) = published m := h.published
  refine ⟨hw.of_load h, query i, ?_, hpublished.ge, fun _ => rfl⟩
  rw [← hw.active]
  exact h.prog

theorem Reading.step [DecidableEq ι] (hw : Writing p refreshes m) {n : ℕ} {i : ι}
    (h : Reading p refreshes query m n i) :
    Writing p refreshes (m.step (.access (some i))) ∧
      Reading p refreshes query (m.step (.access (some i))) n i := by
  obtain ⟨q, hprog, hn, heval⟩ := h
  cases q with
  | ret a =>
    have hstay : m.step (.access (some i)) = m := by
      rw [Machine.step, hprog]
      rfl
    rw [hstay]
    exact ⟨hw, .ret a, hprog, hn, heval⟩
  | load f k =>
    have h := accessed hprog
    have hpublished : published (m.step (.access (some i))) = published m := h.published
    have hbegun : begun (m.step (.access (some i))) = begun m := h.begun
    refine ⟨hw.of_load h, k (m.shared.mem (.field _ f)), h.prog, hpublished ▸ hn, fun hone => ?_⟩
    rw [hbegun] at hone
    rw [← heval hone, hw.record_kept hn hone f]
    rfl

theorem Inv.step [DecidableEq ι] {since : ι → ℕ} (h : Inv p refreshes query since m)
    (turn : Turn (system V ι α)) : Inv p refreshes query since (m.step turn) := by
  cases turn with
  | call t c => exact c.elim
  | access t =>
    obtain ⟨hpublished, hbegun, hothers⟩ := step_other m t
    have hframe (i : ι) (hi : some i ≠ t) : (m.step (.access t)).prog (some i) = read (query i) ∨
        ∃ n, since i ≤ n ∧ Reading p refreshes query (m.step (.access t)) n i := by
      rcases h.reading i with hread | ⟨n, hn, hread⟩
      · exact .inl ((hothers _ hi).trans hread)
      · exact .inr ⟨n, hn, hread.frame hpublished hbegun (hothers _ hi)⟩
    have hsince (i : ι) := (h.since_le i).trans hpublished
    cases t with
    | none => exact ⟨h.writing.step, hsince, fun i => hframe i (by simp)⟩
    | some j =>
      obtain ⟨hwriting, n, hn, hread⟩ : Writing p refreshes (m.step (.access (some j))) ∧
          ∃ n, since j ≤ n ∧ Reading p refreshes query (m.step (.access (some j))) n j := by
        rcases h.reading j with hread | ⟨n, hn, hread⟩
        · obtain ⟨hw, hr⟩ := Reading.begins h.writing hread
          exact ⟨hw, published m, h.since_le j, hr⟩
        · obtain ⟨hw, hr⟩ := hread.step h.writing
          exact ⟨hw, n, hn, hr⟩
      refine ⟨hwriting, hsince, fun i => ?_⟩
      by_cases hi : i = j
      · subst hi
        exact .inr ⟨n, hn, hread⟩
      · exact hframe i (fun heq => hi (Option.some.inj heq))

/-! ## Whole runs -/

theorem Inv.start (p : Buffers V) (refreshes : List (List (Σ f, V f))) (query : ι → Query V α) :
    Inv p refreshes query (fun _ => 0) (start p refreshes query) :=
  ⟨.idle rfl (Nat.zero_le _) rfl ⟨rfl, fun _ => rfl, fun _ => rfl⟩, fun _ => Nat.zero_le _,
    fun _ => .inl rfl⟩

theorem prog_of_notMem [DecidableEq ι] {t : Option ι} {turns : List (Turn (system V ι α))}
    (h : .access t ∉ turns) : (exec Machine.step m turns).prog t = m.prog t := by
  induction turns generalizing m with
  | nil => rfl
  | cons turn turns ih =>
    obtain ⟨hturn, hturns⟩ := not_or.mp (fun hmem => h (List.mem_cons.mpr hmem))
    rw [exec_cons, ih hturns]
    cases turn with
    | call u c => exact c.elim
    | access u => exact (step_other m u).2.2 t fun heq => hturn (heq ▸ rfl)

/-- A reader that starts after the first part of a run and has its answer at the end of the second
has it from one record, which was the newest at some moment between: provided that no more than one
refresh overlaps its work, that is, that at the end at most one has begun which was not published
when it started. -/
theorem answer_of_one_record [DecidableEq ι] (p : Buffers V)
    (refreshes : List (List (Σ f, V f))) (query : ι → Query V α)
    (before during : List (Turn (system V ι α))) {i : ι} (hstart : .access (some i) ∉ before)
    {answer : α}
    (hanswer : (exec Machine.step (DoubleBuffer.start p refreshes query) (before ++ during)).prog
      (some i) = .ret answer)
    (hone : begun (exec Machine.step (DoubleBuffer.start p refreshes query) (before ++ during)) ≤
      published (exec Machine.step (DoubleBuffer.start p refreshes query) before) + 1) :
    ∃ n, published (exec Machine.step (DoubleBuffer.start p refreshes query) before) ≤ n ∧
      n ≤ published (exec Machine.step (DoubleBuffer.start p refreshes query) (before ++ during)) ∧
      answer = (query i).eval (p.after refreshes n).current := by
  rw [exec_append] at *
  set m := exec Machine.step (DoubleBuffer.start p refreshes query) before with hm
  have hmid : Inv p refreshes query (fun _ => 0) m :=
    invariant (fun _ turn h => h.step turn) before (Inv.start p refreshes query)
  have hi : m.prog (some i) = read (query i) := prog_of_notMem hstart
  obtain ⟨since, hsince, hinv⟩ : ∃ since : ι → ℕ, since i = published m ∧
      Inv p refreshes query since m := by
    refine ⟨Function.update (fun _ => 0) i (published m), Function.update_self ..,
      hmid.writing, fun j => ?_, fun j => ?_⟩
    · by_cases hj : j = i
      · subst hj
        rw [Function.update_self]
      · rw [Function.update_of_ne hj]
        exact Nat.zero_le _
    · by_cases hj : j = i
      · subst hj
        exact .inl hi
      · rw [Function.update_of_ne hj]
        exact hmid.reading j
  have hend : Inv p refreshes query since (exec Machine.step m during) :=
    invariant (fun _ turn h => h.step turn) during hinv
  rcases hend.reading i with hread | ⟨n, hn, q, hq, hle, heval⟩
  · rw [hanswer] at hread
    cases hread
  · refine ⟨n, hsince.ge.trans hn, hle, ?_⟩
    rw [← heval (by omega)]
    exact (Query.eval_of_prog_eq_ret (hq.symm.trans hanswer) _).symm

end
end
end DoubleBuffer
