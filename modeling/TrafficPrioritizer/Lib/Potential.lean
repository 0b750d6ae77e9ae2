import TrafficPrioritizer.Lib.Run
import Mathlib.Algebra.BigOperators.Group.List.Basic
import Mathlib.Algebra.Order.Group.Defs

/-! The potential method. What a run costs is bounded by what it takes from a potential of the
state, when this holds of each step. -/

namespace LabelledRun
variable {σ ι α : Type*} [AddCommGroup α] [PartialOrder α] [IsOrderedAddMonoid α]

/-- Of the steps that meet `P` each one costs at most what it takes from the potential. -/
theorem Every.sum_trace_le {step : σ → ι → σ} {cost : σ → ι → α} {P : σ → ι → Prop}
    {I : σ → Prop} (potential : σ → α) (hI : ∀ s a, I s → P s a → I (step s a))
    (hstep : ∀ s a, I s → P s a → cost s a ≤ potential s - potential (step s a)) {s : σ}
    {ops : List ι} (h : Every step P s ops) (hs : I s) :
    (trace step cost s ops).sum ≤ potential s - potential (exec step s ops) := by
  induction ops generalizing s with
  | nil => exact (sub_self (potential s)).ge
  | cons a as ih =>
    have hrest := ih h.2 (hI s a hs h.1)
    rw [trace, List.sum_cons, exec_cons]
    calc cost s a + (trace step cost (step s a) as).sum
        ≤ (potential s - potential (step s a)) +
          (potential (step s a) - potential (exec step (step s a) as)) :=
          add_le_add (hstep s a hs h.1) hrest
      _ = potential s - potential (exec step (step s a) as) := sub_add_sub_cancel ..

end LabelledRun
