import TrafficPrioritizer.Lib.Run

/-! A first-in first-out queue of at most `cap` items, as a machine over the
actions its callers see. What has been pushed is what has been popped, in order,
followed by what is still queued. -/

namespace BoundedFifo
open LabelledRun
variable {α : Type*} {cap : ℕ}

/-- One action on the queue; `stay` is an internal step of an implementation. -/
inductive Act (α : Type*) where
  | stay
  | push (x : α)
  | refuse
  | pop (x : α)
  | empty
  deriving DecidableEq

def next (q : List α) : Act α → List α
  | .push x => q ++ [x]
  | .pop _ => q.tail
  | _ => q

def Allowed (cap : ℕ) (q : List α) : Act α → Prop
  | .stay => True
  | .push _ => q.length < cap
  | .refuse => q.length = cap
  | .pop x => q.head? = some x
  | .empty => q = []

def Act.pushed? : Act α → Option α
  | .push x => some x
  | _ => none

def Act.popped? : Act α → Option α
  | .pop x => some x
  | _ => none

def pushed (as : List (Act α)) : List α := as.filterMap Act.pushed?

def popped (as : List (Act α)) : List α := as.filterMap Act.popped?

theorem next_conserves {q : List α} {a : Act α} (h : Allowed cap q a) :
    q ++ a.pushed?.toList = a.popped?.toList ++ next q a := by
  cases a with
  | stay => simp [next, Act.pushed?, Act.popped?]
  | push x => simp [next, Act.pushed?, Act.popped?]
  | refuse => simp [next, Act.pushed?, Act.popped?]
  | pop x =>
    cases q with
    | nil => cases h
    | cons y q =>
      obtain rfl : y = x := Option.some.inj h
      simp [next, Act.pushed?, Act.popped?]
  | empty => simp [next, Act.pushed?, Act.popped?]

theorem conservation {q : List α} {as : List (Act α)} (h : Every next (Allowed cap) q as) :
    q ++ pushed as = popped as ++ exec next q as := by
  induction as generalizing q with
  | nil => simp [pushed, popped]
  | cons a as ih =>
    have hrest : next q a ++ pushed as = popped as ++ exec next (next q a) as := ih h.2
    have hhead := next_conserves h.1
    unfold pushed popped at *
    rw [filterMap_cons_toList, filterMap_cons_toList, ← List.append_assoc, hhead,
      List.append_assoc, hrest, exec_cons, List.append_assoc]

theorem queue_eq_drop {as : List (Act α)} (h : Every next (Allowed cap) [] as) :
    exec next [] as = (pushed as).drop (popped as).length := by
  have hcons := conservation h
  rw [List.nil_append] at hcons
  rw [hcons, List.drop_left]

theorem popped_isPrefix {as : List (Act α)} (h : Every next (Allowed cap) [] as) :
    popped as <+: pushed as := by
  have hcons := conservation h
  rw [List.nil_append] at hcons
  exact ⟨_, hcons.symm⟩

end BoundedFifo
