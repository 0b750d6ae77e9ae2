import Mathlib.Algebra.Order.Ring.Nat

/-! A table that one thread changes in passes and another copies. The writer counts the revision up
at the end of a pass that changed something; the reader takes the revision first and reads the
table afterwards. A copy may be mixed from several passes, but then the revision moves on: while it
does not, and no pass has changed anything, the copy is that of the table. The revision is a word,
and it comes round to the same value after `2 ^ 64` passes. -/

namespace Revision
variable {γ : Type*}

structure Table (γ : Type*) where
  content : γ
  revision : UInt64
  changed : Bool

inductive Step (t : Table γ) : Table γ → Prop
  | idle : Step t t
  | change (content : γ) : Step t ⟨content, t.revision, true⟩
  | publish : Step t ⟨t.content, t.revision + 1, false⟩

/-- Since the revision `seen` was taken it was counted up `behind` times; if it was not, what was
read agrees with the table, or that can be told at the end of the pass. -/
structure Current (t : Table γ) (seen : UInt64) (agrees : γ → Prop) (behind : ℕ) : Prop where
  revision : t.revision = seen + .ofNat behind
  agrees : behind = 0 → t.changed = false → agrees t.content

variable {t t' : Table γ} {seen : UInt64} {agrees agrees' : γ → Prop} {behind : ℕ}

theorem Current.step (h : Current t seen agrees behind) (hstep : Step t t') :
    Current t' seen agrees behind ∨
      t'.revision ≠ t.revision ∧ Current t' seen agrees (behind + 1) := by
  cases hstep with
  | idle => exact .inl h
  | change content => exact .inl ⟨h.revision, fun _ hchanged => by cases hchanged⟩
  | publish =>
    refine .inr ⟨fun hsame => ?_, ?_, fun hzero => absurd hzero (Nat.succ_ne_zero behind)⟩
    · exact absurd ((UInt64.add_right_inj t.revision).mp (hsame.trans (UInt64.add_zero _).symm))
        (by decide)
    · show t.revision + 1 = seen + .ofNat (behind + 1)
      rw [h.revision, UInt64.ofNat_add, UInt64.add_assoc]
      rfl

theorem Current.read (h : Current t seen agrees behind)
    (hread : agrees t.content → agrees' t.content) : Current t seen agrees' behind :=
  ⟨h.revision, fun hzero hchanged => hread (h.agrees hzero hchanged)⟩

theorem Current.start (t : Table γ) (h : agrees t.content) : Current t t.revision agrees 0 :=
  ⟨(UInt64.add_zero _).symm, fun _ _ => h⟩

theorem Current.agrees_of_revision (h : Current t seen agrees behind) (hbehind : behind < 2 ^ 64)
    (hseen : seen = t.revision) (hchanged : t.changed = false) : agrees t.content := by
  refine h.agrees ?_ hchanged
  have hrevision := h.revision
  rw [← hseen] at hrevision
  have hzero : UInt64.ofNat behind = 0 := by
    refine (UInt64.add_right_inj seen).mp ?_
    rw [← hrevision, UInt64.add_zero]
  have htoNat := congrArg UInt64.toNat hzero
  rw [UInt64.toNat_ofNat_of_lt' hbehind] at htoNat
  exact htoNat

end Revision
