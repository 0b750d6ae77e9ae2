import TrafficPrioritizer.Lib.SharedMemory
import Mathlib.Order.Nat
import Mathlib.Tactic.SplitIfs

/-! Slots that one thread writes and others read without waiting. The writer makes the slot's
sequence number odd before it stores and even again after; a reader takes what it has loaded when
the number was even and has not changed. -/

namespace Seqlock
open SharedMemory

/-! ## One slot -/

section
variable {D : Type} {V : D → Type}

structure History (D : Type) (V : D → Type) where
  bumps : ℕ
  stored : ∀ f, Option (V f)
  sections : List (∀ f, Option (V f))

def History.bump (h : History D V) : History D V where
  bumps := h.bumps + 1
  stored := fun _ => none
  sections := if h.bumps % 2 = 1 then h.stored :: h.sections else h.sections

def History.store [DecidableEq D] (h : History D V) (f : D) (v : V f) : History D V :=
  { h with stored := Function.update h.stored f (some v) }

structure Slot (D : Type) (V : D → Type) extends History D V where
  seq : UInt32
  live : Bool
  data : ∀ f, V f

namespace Slot

def bump (x : Slot D V) : Slot D V := { x with toHistory := x.toHistory.bump, seq := x.seq + 1 }

def store [DecidableEq D] (x : Slot D V) (f : D) (v : V f) : Slot D V :=
  { x with toHistory := x.toHistory.store f v, data := Function.update x.data f v }

def setLive (x : Slot D V) (b : Bool) : Slot D V := { x with live := b }

structure Ok (x : Slot D V) : Prop where
  seq : x.seq = UInt32.ofNat x.bumps
  finished : x.sections.length = x.bumps / 2
  stored : ∀ f v, x.stored f = some v → x.data f = v
  live : x.bumps % 2 = 0 → x.live = true → (fun f => some (x.data f)) ∈ x.sections

variable {x y z : Slot D V}

theorem Ok.bump_seq (h : x.Ok) : x.bump.seq = UInt32.ofNat x.bump.bumps := by
  show x.seq + 1 = UInt32.ofNat (x.bumps + 1)
  rw [h.seq, UInt32.ofNat_add]
  rfl

theorem Ok.open (h : x.Ok) (heven : x.bumps % 2 = 0) : x.bump.Ok where
  seq := h.bump_seq
  finished := by
    show (if x.bumps % 2 = 1 then x.stored :: x.sections else x.sections).length = (x.bumps + 1) / 2
    rw [if_neg (by omega), h.finished]
    omega
  stored := fun f v hv => nomatch hv
  live := fun hodd => by
    have : (x.bumps + 1) % 2 = 0 := hodd
    omega

theorem sections_bump (hodd : x.bumps % 2 = 1) : x.bump.sections = x.stored :: x.sections :=
  if_pos hodd

theorem Ok.mem_sections (h : x.Ok) (hodd : x.bumps % 2 = 1) (hall : ∀ f, (x.stored f).isSome) :
    (fun f => some (x.data f)) ∈ x.bump.sections := by
  have hsection : (fun f => some (x.data f)) = x.stored := by
    funext f
    obtain ⟨v, hv⟩ := Option.isSome_iff_exists.mp (hall f)
    rw [hv, h.stored f v hv]
  rw [sections_bump hodd, hsection]
  exact List.mem_cons_self

theorem Ok.close (h : x.Ok) (hodd : x.bumps % 2 = 1)
    (hall : x.live = true → ∀ f, (x.stored f).isSome) : x.bump.Ok where
  seq := h.bump_seq
  finished := by
    rw [sections_bump hodd, List.length_cons, h.finished]
    show x.bumps / 2 + 1 = (x.bumps + 1) / 2
    omega
  stored := fun f v hv => nomatch hv
  live := fun _ hlive => h.mem_sections hodd (hall hlive)

theorem Ok.store [DecidableEq D] (h : x.Ok) (hodd : x.bumps % 2 = 1) (f : D) (v : V f) :
    (x.store f v).Ok where
  seq := h.seq
  finished := h.finished
  stored := by
    intro g w hw
    show Function.update x.data f v g = w
    have hstored : Function.update x.stored f (some v) g = some w := hw
    by_cases hg : g = f
    · subst hg
      rw [Function.update_self] at hstored ⊢
      exact Option.some.inj hstored
    · rw [Function.update_of_ne hg] at hstored ⊢
      exact h.stored g w hstored
  live := fun heven => by
    have : x.bumps % 2 = 0 := heven
    omega

theorem Ok.lower (h : x.Ok) : (x.setLive false).Ok :=
  ⟨h.seq, h.finished, h.stored, fun _ hlive => nomatch hlive⟩

theorem Ok.raise (h : x.Ok) (hdata : (fun f => some (x.data f)) ∈ x.sections) :
    (x.setLive true).Ok :=
  ⟨h.seq, h.finished, h.stored, fun _ _ => hdata⟩

theorem Ok.publish (h : x.Ok) (hodd : x.bumps % 2 = 1) (hall : ∀ f, (x.stored f).isSome) :
    (x.bump.setLive true).Ok :=
  (h.close hodd fun _ => hall).raise (h.mem_sections hodd hall)

structure Rely (x y : Slot D V) : Prop where
  ok : x.Ok → y.Ok
  bumps : x.bumps ≤ y.bumps
  sections : x.sections <:+ y.sections
  data : y.bumps = x.bumps → x.bumps % 2 = 0 → y.data = x.data

theorem Rely.refl (x : Slot D V) : x.Rely x :=
  ⟨id, le_rfl, List.suffix_rfl, fun _ _ => rfl⟩

theorem Rely.trans (hxy : x.Rely y) (hyz : y.Rely z) : x.Rely z where
  ok := hyz.ok ∘ hxy.ok
  bumps := hxy.bumps.trans hyz.bumps
  sections := hxy.sections.trans hyz.sections
  data := by
    intro heq heven
    have hxy' : y.bumps = x.bumps := le_antisymm (heq ▸ hyz.bumps) hxy.bumps
    have hyz' : z.bumps = y.bumps := heq.trans hxy'.symm
    rw [hyz.data hyz' (hxy'.symm ▸ heven), hxy.data hxy' heven]

theorem rely_bump (h : x.bump.Ok) : x.Rely x.bump where
  ok := fun _ => h
  bumps := Nat.le_succ _
  sections := by
    show x.sections <:+ if x.bumps % 2 = 1 then x.stored :: x.sections else x.sections
    split_ifs
    · exact List.suffix_cons ..
    · exact List.suffix_rfl
  data := fun heq => absurd heq (Nat.succ_ne_self _)

theorem rely_store [DecidableEq D] (hodd : x.bumps % 2 = 1) (f : D) (v : V f) :
    x.Rely (x.store f v) where
  ok := fun h => h.store hodd f v
  bumps := le_rfl
  sections := List.suffix_rfl
  data := fun _ heven => by omega

theorem rely_setLive {b : Bool} (h : x.Ok → (x.setLive b).Ok) : x.Rely (x.setLive b) :=
  ⟨h, le_rfl, List.suffix_rfl, fun _ _ => rfl⟩

end Slot
end

/-! ## Slots in memory -/

inductive SlotField (D : Type)
  | seq
  | datum (f : D)
  | active
  | stamp
  deriving DecidableEq

section
variable {L O : Type} {D : L → Type}

inductive Cell (D : L → Type) (O : Type)
  | slot (l : L) (f : SlotField (D l))
  | other (o : O)

instance [DecidableEq L] [∀ l, DecidableEq (D l)] [DecidableEq O] : DecidableEq (Cell D O)
  | .slot l f, .slot m g =>
    if h : l = m then
      match m, h, g with
      | _, rfl, g => decidable_of_iff (f = g) ⟨congrArg _, fun h => by injection h⟩
    else .isFalse fun hc => h (by injection hc)
  | .slot _ _, .other _ => .isFalse fun h => nomatch h
  | .other _, .slot _ _ => .isFalse fun h => nomatch h
  | .other o, .other p => decidable_of_iff (o = p) ⟨congrArg _, fun h => by injection h⟩

def Cell.Val (V : ∀ l, D l → Type) (W : O → Type) : Cell D O → Type
  | .slot _ .seq => UInt32
  | .slot l (.datum f) => V l f
  | .slot _ .active => Bool
  | .slot _ .stamp => UInt32
  | .other o => W o

end

section
variable {τ L O : Type} {D : L → Type} {V : ∀ l, D l → Type} {W : O → Type} {α β : Type}
  [DecidableEq L] [∀ l, DecidableEq (D l)]

def histories : List (τ × Access (Cell.Val V W)) → ∀ l, History (D l) (V l)
  | [] => fun _ => ⟨0, fun _ => none, []⟩
  | (_, .modify (.slot l .seq) _) :: log =>
    Function.update (histories log) l (histories log l).bump
  | (_, .store (.slot l (.datum f)) v) :: log =>
    Function.update (histories log) l ((histories log l).store f v)
  | _ :: log => histories log

def readings [DecidableEq τ] (t : τ) (l : L) : List (τ × Access (Cell.Val V W)) → List ℕ
  | [] => []
  | (u, .load (.slot m .seq)) :: log =>
    if u = t ∧ m = l then ((histories log l).bumps + 1) / 2 :: readings t l log
    else readings t l log
  | _ :: log => readings t l log

def view (s : Shared τ (Cell.Val V W)) (l : L) : Slot (D l) (V l) where
  toHistory := histories s.log l
  seq := s.mem (.slot l .seq)
  live := s.mem (.slot l .active)
  data := fun f => s.mem (.slot l (.datum f))

theorem view_eq {s : Shared τ (Cell.Val V W)} {l : L} {x : Slot (D l) (V l)}
    (hlog : histories s.log l = x.toHistory) (hseq : (s.mem (.slot l .seq) : UInt32) = x.seq)
    (hlive : (s.mem (.slot l .active) : Bool) = x.live)
    (hdata : ∀ f, (s.mem (.slot l (.datum f)) : V l f) = x.data f) : view s l = x := by
  obtain ⟨h, seq, live, data⟩ := x
  obtain rfl : (fun f => s.mem (.slot l (.datum f))) = data := funext hdata
  subst hlog hseq hlive
  rfl

section
variable [DecidableEq O] (s : Shared τ (Cell.Val V W)) (t : τ) (l : L)

theorem view_update (c : Cell D O) (v : c.Val V W) {log : List (τ × Access (Cell.Val V W))}
    (hlog : histories log l = histories s.log l) (hseq : .slot l .seq ≠ c)
    (hlive : .slot l .active ≠ c) (hdata : ∀ f, .slot l (.datum f) ≠ c) :
    view ⟨Function.update s.mem c v, log⟩ l = view s l :=
  view_eq hlog (Function.update_of_ne hseq v s.mem) (Function.update_of_ne hlive v s.mem)
    fun f => Function.update_of_ne (hdata f) v s.mem

theorem view_load (c : Cell D O) : view (s.act t (.load c)).2 = view s := by
  rcases c with ⟨m, _ | _ | _ | _⟩ | o <;> rfl

theorem view_store_datum (f : D l) (v : V l f) :
    view (s.act t (.store (.slot l (.datum f)) v)).2 =
      Function.update (view s) l ((view s l).store f v) := by
  funext m
  by_cases hm : m = l
  · subst hm
    rw [Function.update_self]
    refine view_eq (Function.update_self ..) (Function.update_of_ne (by simp) ..)
      (Function.update_of_ne (by simp) ..) fun g => ?_
    by_cases hg : g = f
    · subst hg
      exact (Function.update_self ..).trans (Function.update_self ..).symm
    · exact (Function.update_of_ne (by simpa using hg) ..).trans
        (Function.update_of_ne hg v (view s m).data).symm
  · rw [Function.update_of_ne hm]
    exact view_update s m (.slot l (.datum f)) v (Function.update_of_ne hm ..) (by simp [hm])
      (by simp [hm]) fun g => by simp [hm]

theorem view_store_active (b : Bool) :
    view (s.act t (.store (.slot l .active) b)).2 =
      Function.update (view s) l ((view s l).setLive b) := by
  funext m
  by_cases hm : m = l
  · subst hm
    rw [Function.update_self]
    exact view_eq rfl (Function.update_of_ne (by simp) ..) (Function.update_self ..)
      fun g => Function.update_of_ne (by simp) ..
  · rw [Function.update_of_ne hm]
    exact view_update s m (.slot l .active) b rfl (by simp [hm]) (by simp [hm])
      fun g => by simp [hm]

theorem view_modify_seq :
    view (s.act t (.modify (.slot l .seq) fun n : UInt32 => n + 1)).2 =
      Function.update (view s) l (view s l).bump := by
  funext m
  by_cases hm : m = l
  · subst hm
    rw [Function.update_self]
    exact view_eq (Function.update_self ..) (Function.update_self ..)
      (Function.update_of_ne (by simp) ..) fun g => Function.update_of_ne (by simp) ..
  · rw [Function.update_of_ne hm]
    exact view_update s m (.slot l .seq) _ (Function.update_of_ne hm ..) (by simp [hm])
      (by simp [hm]) fun g => by simp [hm]

theorem view_store_stamp (n : UInt32) : view (s.act t (.store (.slot l .stamp) n)).2 = view s := by
  funext m
  exact view_update s m (.slot l .stamp) n rfl (by rintro ⟨⟩) (by rintro ⟨⟩) fun g => by rintro ⟨⟩

theorem view_store_other (o : O) (v : W o) : view (s.act t (.store (.other o) v)).2 = view s := by
  funext m
  exact view_update s m (.other o) v rfl (by simp) (by simp) fun g => by simp

theorem view_modify_other (o : O) (f : W o → W o) :
    view (s.act t (.modify (.other o) f)).2 = view s := by
  funext m
  exact view_update s m (.other o) _ rfl (by simp) (by simp) fun g => by simp

end

/-! ## Accesses -/

section
variable {V : ∀ l, D l → Type} {W : O → Type}

def loadSeq (l : L) : Prog (Cell.Val V W) UInt32 := .load (Cell.slot l .seq)

def bumpSeq (l : L) : Prog (Cell.Val V W) UInt32 :=
  .modify (Cell.slot l .seq) fun n : UInt32 => n + 1

def loadActive (l : L) : Prog (Cell.Val V W) Bool := .load (Cell.slot l .active)

def storeActive (l : L) (b : Bool) : Prog (Cell.Val V W) Unit := .store (Cell.slot l .active) b

def loadDatum (l : L) (f : D l) : Prog (Cell.Val V W) (V l f) := .load (Cell.slot l (.datum f))

def storeDatum (l : L) (f : D l) (v : V l f) : Prog (Cell.Val V W) Unit :=
  .store (Cell.slot l (.datum f)) v

def loadStamp (l : L) : Prog (Cell.Val V W) UInt32 := .load (Cell.slot l .stamp)

def storeStamp (l : L) (n : UInt32) : Prog (Cell.Val V W) Unit := .store (Cell.slot l .stamp) n

def loadOther (o : O) : Prog (Cell.Val V W) (W o) := .load (Cell.other o)

def storeOther (o : O) (v : W o) : Prog (Cell.Val V W) Unit := .store (Cell.other o) v

def modifyOther (o : O) (f : W o → W o) : Prog (Cell.Val V W) (W o) := .modify (Cell.other o) f

end

/-! ## The writer -/

section
variable {S S' : ∀ l, Slot (D l) (V l)} {l : L} {x y : Slot (D l) (V l)}

omit [∀ l, DecidableEq (D l)] in
theorem rely_update (h : x.Rely y) (m : L) :
    (Function.update S l x m).Rely (Function.update S l y m) := by
  by_cases hm : m = l
  · subst hm
    rwa [Function.update_self, Function.update_self]
  · rw [Function.update_of_ne hm, Function.update_of_ne hm]
    exact .refl _

theorem view_updated {s s' : Shared τ (Cell.Val V W)} {g : Slot (D l) (V l) → Slot (D l) (V l)}
    (hs : view s = Function.update S l x)
    (hs' : view s' = Function.update (view s) l (g (view s l))) :
    view s' = Function.update S l (g x) := by
  rw [hs', hs, Function.update_self, Function.update_idem]

variable [DecidableEq O]

def Steady (s s' : Shared τ (Cell.Val V W)) : Prop := view s' = view s

def Guarded (s s' : Shared τ (Cell.Val V W)) : Prop := ∀ l, (view s l).Rely (view s' l)

def Safe (w : τ) (Q : α → (∀ l, Slot (D l) (V l)) → Prop) (p : Prog (Cell.Val V W) α)
    (S : ∀ l, Slot (D l) (V l)) : Prop :=
  ∀ s, view s = S → Holds w Steady Guarded (fun a s => Q a (view s)) p s

namespace Safe
variable {w : τ} {Q : α → (∀ l, Slot (D l) (V l)) → Prop}
  {Q' : β → (∀ l, Slot (D l) (V l)) → Prop}

theorem next {a : Access (Cell.Val V W)} {k : a.Result → Prog (Cell.Val V W) α}
    (hview : ∀ s, view s = S → view (s.act w a).2 = S') (hrely : ∀ l, (S l).Rely (S' l))
    (hk : ∀ s, view s = S → Safe w Q (k (s.act w a).1) S') : Safe w Q (.next a k) S := by
  intro s hs s' hs'
  have hS : view s' = S := Eq.trans hs' hs
  refine ⟨fun l => ?_, hk s' hS _ (hview s' hS)⟩
  rw [hS, hview s' hS]
  exact hrely l

theorem ret {a : α} (h : Q a S) : Safe w Q (pure a : Prog (Cell.Val V W) α) S := by
  intro s hs s' hs'
  have hS : view s' = S := Eq.trans hs' hs
  rwa [hS]

theorem bind {p : Prog (Cell.Val V W) α} {f : α → Prog (Cell.Val V W) β} (h : Safe w Q p S)
    (hf : ∀ a S, Q a S → Safe w Q' (f a) S) : Safe w Q' (p >>= f) S :=
  fun s hs => Holds.bind (R := Steady) (fun _ => rfl) (h s hs)
    fun a s hQ => hf a (view s) hQ s rfl

theorem load {c : Cell D O} {k : c.Val V W → Prog (Cell.Val V W) α}
    (h : ∀ v, Safe w Q (k v) S) : Safe w Q (.next (.load c) k) S :=
  next (fun s hs => (view_load s w c).trans hs) (fun l => .refl (S l)) fun _ _ => h _

theorem loadDatum {f : D l} {k : V l f → Prog (Cell.Val V W) α} (h : ∀ v, Safe w Q (k v) S) :
    Safe w Q (loadDatum l f >>= k) S := load (c := .slot l (.datum f)) h

theorem loadStamp {k : UInt32 → Prog (Cell.Val V W) α} (h : ∀ v, Safe w Q (k v) S) :
    Safe w Q (loadStamp l >>= k) S := load (c := .slot l .stamp) h

theorem loadOther {o : O} {k : W o → Prog (Cell.Val V W) α} (h : ∀ v, Safe w Q (k v) S) :
    Safe w Q (loadOther o >>= k) S := load (c := .other o) h

theorem loadActive {k : Bool → Prog (Cell.Val V W) α} (h : Safe w Q (k (S l).live) S) :
    Safe w Q (loadActive l >>= k) S := by
  refine next (a := .load (.slot l .active))
    (fun s hs => (view_load s w (.slot l .active)).trans hs) (fun l => .refl (S l)) fun s hs => ?_
  have hlive : (s.mem (.slot l .active) : Bool) = (S l).live := by
    rw [← hs]
    rfl
  show Safe w Q (k (s.mem (.slot l .active))) S
  rw [hlive]
  exact h

theorem storeStamp {n : UInt32} {k : Unit → Prog (Cell.Val V W) α} (h : Safe w Q (k ()) S) :
    Safe w Q (storeStamp l n >>= k) S :=
  next (a := .store (.slot l .stamp) n) (fun s hs => (view_store_stamp s w l n).trans hs)
    (fun l => .refl (S l)) fun _ _ => h

theorem storeOther {o : O} {v : W o} {k : Unit → Prog (Cell.Val V W) α} (h : Safe w Q (k ()) S) :
    Safe w Q (storeOther o v >>= k) S :=
  next (a := .store (.other o) v) (fun s hs => (view_store_other s w o v).trans hs)
    (fun l => .refl (S l)) fun _ _ => h

theorem modifyOther {o : O} {f : W o → W o} {k : W o → Prog (Cell.Val V W) α}
    (h : ∀ v, Safe w Q (k v) S) : Safe w Q (modifyOther o f >>= k) S :=
  next (a := .modify (.other o) f) (fun s hs => (view_modify_other s w o f).trans hs)
    (fun l => .refl (S l)) fun _ _ => h _

/-! Within a section of the slot `l`, which stands at `x`. -/

theorem bumpSeq {k : UInt32 → Prog (Cell.Val V W) α} (hok : x.bump.Ok)
    (h : ∀ v, Safe w Q (k v) (Function.update S l x.bump)) :
    Safe w Q (bumpSeq l >>= k) (Function.update S l x) :=
  next (a := .modify (.slot l .seq) fun n : UInt32 => n + 1)
    (fun s hs => view_updated (g := Slot.bump) hs (view_modify_seq s w l))
    (rely_update (Slot.rely_bump hok)) fun _ _ => h _

theorem storeDatum {f : D l} {v : V l f} {k : Unit → Prog (Cell.Val V W) α}
    (hodd : x.bumps % 2 = 1) (h : Safe w Q (k ()) (Function.update S l (x.store f v))) :
    Safe w Q (storeDatum l f v >>= k) (Function.update S l x) :=
  next (a := .store (.slot l (.datum f)) v)
    (fun s hs => view_updated (g := fun y => y.store f v) hs (view_store_datum s w l f v))
    (rely_update (Slot.rely_store hodd f v)) fun _ _ => h

theorem storeActive {b : Bool} {k : Unit → Prog (Cell.Val V W) α} (hok : x.Ok → (x.setLive b).Ok)
    (h : Safe w Q (k ()) (Function.update S l (x.setLive b))) :
    Safe w Q (storeActive l b >>= k) (Function.update S l x) :=
  next (a := .store (.slot l .active) b)
    (fun s hs => view_updated (g := fun y => y.setLive b) hs (view_store_active s w l b))
    (rely_update (Slot.rely_setLive hok)) fun _ _ => h

theorem publish {k : Unit → Prog (Cell.Val V W) α} (hx : x.Ok) (hodd : x.bumps % 2 = 1)
    (hall : ∀ f, (x.stored f).isSome)
    (h : Safe w Q (k ()) (Function.update S l (x.bump.setLive true))) :
    Safe w Q (Seqlock.bumpSeq l >>= fun _ => Seqlock.storeActive l true >>= k)
      (Function.update S l x) :=
  bumpSeq (hx.close hodd fun _ => hall) fun _ => storeActive (fun _ => hx.publish hodd hall) h

end Safe
end

/-! ## The readers -/

theorem ofNat_and_one (n : ℕ) : UInt32.ofNat n &&& 1 = 0 ↔ n % 2 = 0 := by
  have hand : (UInt32.ofNat n &&& 1).toNat = n % 2 := by
    rw [UInt32.toNat_and, UInt32.toNat_one, Nat.and_one_is_mod, UInt32.toNat_ofNat']
    omega
  rw [← UInt32.toNat_inj, hand]
  rfl

section
variable [DecidableEq τ] {r : τ} {l : L} {s s' s'' : Shared τ (Cell.Val V W)}

def Watched (r : τ) (s s' : Shared τ (Cell.Val V W)) : Prop :=
  (∀ l, (view s l).Rely (view s' l)) ∧ ∀ l, readings r l s'.log = readings r l s.log

theorem Watched.refl (r : τ) (s : Shared τ (Cell.Val V W)) : Watched r s s :=
  ⟨fun _ => .refl _, fun _ => rfl⟩

theorem Watched.trans (h : Watched r s s') (h' : Watched r s' s'') : Watched r s s'' :=
  ⟨fun l => (h.1 l).trans (h'.1 l), fun l => (h'.2 l).trans (h.2 l)⟩

def Stable (r : τ) (P : Shared τ (Cell.Val V W) → Prop) : Prop :=
  ∀ s s', Watched r s s' → P s → P s'

theorem Stable.and {P P' : Shared τ (Cell.Val V W) → Prop} (h : Stable r P) (h' : Stable r P') :
    Stable r fun s => P s ∧ P' s :=
  fun s s' hs hP => ⟨h s s' hs hP.1, h' s s' hs hP.2⟩

def Fine (s : Shared τ (Cell.Val V W)) : Prop := ∀ l, (view s l).Ok

theorem stable_fine : Stable r (Fine (V := V) (W := W)) :=
  fun _ _ hs h l => (hs.1 l).ok (h l)

structure Seen (r : τ) (l : L) (b : ℕ) (rest : List ℕ) (act : Bool) (P : (∀ f, V l f) → Prop)
    (s : Shared τ (Cell.Val V W)) : Prop where
  fine : Fine s
  even : b % 2 = 0
  reading : readings r l s.log = (b + 1) / 2 :: rest
  bumps : b ≤ (view s l).bumps
  live : (view s l).bumps = b → act = true →
    (fun f => some ((view s l).data f)) ∈ (view s l).sections
  data : (view s l).bumps = b → P (view s l).data

theorem stable_seen {b : ℕ} {rest : List ℕ} {act : Bool} {P : (∀ f, V l f) → Prop} :
    Stable r (Seen (W := W) r l b rest act P) := by
  intro s s' hs h
  have hl := hs.1 l
  have hbefore : (view s' l).bumps = b → (view s l).bumps = b := fun hb =>
    le_antisymm (hb ▸ hl.bumps) h.bumps
  have hdata : (view s' l).bumps = b → (view s' l).data = (view s l).data := by
    intro hb
    have hb' := hbefore hb
    exact hl.data (hb.trans hb'.symm) (hb'.symm ▸ h.even)
  refine ⟨stable_fine s s' hs h.fine, h.even, (hs.2 l).trans h.reading, h.bumps.trans hl.bumps,
    fun hb hact => ?_, fun hb => ?_⟩
  · rw [hdata hb]
    exact hl.sections.subset (h.live (hbefore hb) hact)
  · rw [hdata hb]
    exact h.data (hbefore hb)

/-- The copy is what one section stored, one of those that had ended when the reader made the first
of its last two loads of the number; unless as many began until the second as make it come
round. -/
def Untorn (r : τ) (l : L) (copy : ∀ f, V l f) (s : Shared τ (Cell.Val V W)) : Prop :=
  ∃ b₁ b₀ rest, readings r l s.log = b₁ :: b₀ :: rest ∧
    (b₁ - b₀ < 2147483648 → ∃ ended, ended <:+ (view s l).sections ∧ ended.length = b₀ ∧
      (fun f => some (copy f)) ∈ ended)

theorem stable_untorn {copy : ∀ f, V l f} : Stable r (Untorn (W := W) r l copy) := by
  rintro s s' hs ⟨b₁, b₀, rest, hreading, hcopy⟩
  refine ⟨b₁, b₀, rest, (hs.2 l).trans hreading, fun hb => ?_⟩
  obtain ⟨ended, hended, hcount, hmem⟩ := hcopy hb
  exact ⟨ended, hended.trans (hs.1 l).sections, hcount, hmem⟩

variable [DecidableEq O]

theorem readings_act_of_ne {t : τ} (ht : t ≠ r) (s : Shared τ (Cell.Val V W))
    (a : Access (Cell.Val V W)) (l : L) :
    readings r l (s.act t a).2.log = readings r l s.log := by
  rcases a with (⟨m, _ | _ | _ | _⟩ | o) | ⟨_, _⟩ | ⟨_, _⟩
  · exact if_neg fun h => ht h.1
  all_goals rfl

def Reads (r : τ) (P : Shared τ (Cell.Val V W) → Prop) (Q : α → Shared τ (Cell.Val V W) → Prop)
    (p : Prog (Cell.Val V W) α) : Prop :=
  ∀ s, P s → Holds r (Watched r) Steady Q p s

namespace Reads
variable {P : Shared τ (Cell.Val V W) → Prop} {Q : α → Shared τ (Cell.Val V W) → Prop}
  {Q' : β → Shared τ (Cell.Val V W) → Prop}

theorem next {a : Access (Cell.Val V W)} {k : a.Result → Prog (Cell.Val V W) α}
    {T : a.Result → Shared τ (Cell.Val V W) → Prop} (hP : Stable r P)
    (hview : ∀ s : Shared τ (Cell.Val V W), view (s.act r a).2 = view s)
    (hact : ∀ s, P s → T (s.act r a).1 (s.act r a).2) (h : ∀ v, Reads r (T v) Q (k v)) :
    Reads r P Q (.next a k) := by
  intro s hs s' hs'
  exact ⟨hview s', h _ _ (hact s' (hP s s' hs' hs))⟩

theorem ret {a : α} (hP : Stable r P) (h : ∀ s, P s → Q a s) :
    Reads r P Q (pure a : Prog (Cell.Val V W) α) :=
  fun s hs s' hs' => h s' (hP s s' hs' hs)

theorem bind {p : Prog (Cell.Val V W) α} {f : α → Prog (Cell.Val V W) β} (h : Reads r P Q p)
    (hf : ∀ a, Reads r (Q a) Q' (f a)) : Reads r P Q' (p >>= f) :=
  fun s hs => Holds.bind (R := Watched r) (Watched.refl r) (h s hs) fun a s hQ => hf a s hQ

theorem mono {T : Shared τ (Cell.Val V W) → Prop} {p : Prog (Cell.Val V W) α}
    (h : Reads r T Q p) (hP : ∀ s, P s → T s) : Reads r P Q p := fun s hs => h s (hP s hs)

theorem aside {a : Access (Cell.Val V W)} {k : a.Result → Prog (Cell.Val V W) α}
    (hP : Stable r P) (hview : ∀ s : Shared τ (Cell.Val V W), view (s.act r a).2 = view s)
    (hread : ∀ (s : Shared τ (Cell.Val V W)) l, readings r l (s.act r a).2.log = readings r l s.log)
    (h : ∀ v, Reads r P Q (k v)) : Reads r P Q (.next a k) := by
  refine next hP hview (T := fun _ => P) (fun s hs => hP s _ ⟨fun l => ?_, hread s⟩ hs) h
  rw [hview]
  exact .refl _

theorem loadOther {o : O} {k : W o → Prog (Cell.Val V W) α} (hP : Stable r P)
    (h : ∀ v, Reads r P Q (k v)) : Reads r P Q (loadOther o >>= k) :=
  aside (a := .load (.other o)) hP (fun s => view_load s r (.other o)) (fun _ _ => rfl) h

theorem storeStamp {m : L} {n : UInt32} {k : Unit → Prog (Cell.Val V W) α} (hP : Stable r P)
    (h : Reads r P Q (k ())) : Reads r P Q (storeStamp m n >>= k) :=
  aside (a := .store (.slot m .stamp) n) hP (fun s => view_store_stamp s r m n) (fun _ _ => rfl)
    fun _ => h

theorem loadSeq {k : UInt32 → Prog (Cell.Val V W) α}
    (hodd : ∀ v, v &&& 1 ≠ 0 → Reads r Fine Q (k v))
    (heven : ∀ b rest, UInt32.ofNat b &&& 1 = 0 →
      Reads r (Seen r l b rest false fun _ => True) Q (k (UInt32.ofNat b))) :
    Reads r Fine Q (loadSeq l >>= k) := by
  intro s hs s' hs'
  have hfine : Fine s' := stable_fine s s' hs' hs
  have hview : view (s'.act r (.load (.slot l .seq))).2 = view s' := view_load s' r (.slot l .seq)
  have hseq : (s'.mem (.slot l .seq) : UInt32) = UInt32.ofNat (view s' l).bumps := (hfine l).seq
  have hfine' : Fine (s'.act r (.load (.slot l .seq))).2 := by
    rw [Fine, hview]
    exact hfine
  refine ⟨hview, ?_⟩
  show Holds r (Watched r) Steady Q (k (s'.mem (.slot l .seq))) _
  by_cases hv : UInt32.ofNat (view s' l).bumps &&& 1 = 0
  · rw [hseq]
    refine heven (view s' l).bumps (readings r l s'.log) hv _ ⟨hfine', (ofNat_and_one _).mp hv,
      ?_, ?_, (fun _ hact => nomatch hact), fun _ => trivial⟩
    · exact if_pos ⟨rfl, rfl⟩
    · rw [hview]
  · exact hodd _ (hseq ▸ hv) _ hfine'

section
variable {b : ℕ} {rest : List ℕ} {act : Bool} {F : (∀ f, V l f) → Prop}

theorem loadActive {k : Bool → Prog (Cell.Val V W) α}
    (h : ∀ v, Reads r (Seen r l b rest v F) Q (k v)) :
    Reads r (Seen r l b rest false F) Q (loadActive l >>= k) := by
  have hview := fun s : Shared τ (Cell.Val V W) => view_load s r (.slot l .active)
  refine next (a := .load (.slot l .active)) stable_seen hview
    (T := fun v => Seen r l b rest v F) (fun s hs => ?_) h
  refine ⟨?_, hs.even, hs.reading, ?_, ?_, ?_⟩
  · rw [Fine, hview]
    exact hs.fine
  · rw [hview]
    exact hs.bumps
  · rw [hview]
    exact fun hb hlive => (hs.fine l).live (hb ▸ hs.even) hlive
  · rw [hview]
    exact hs.data

theorem loadDatum {f : D l} {k : V l f → Prog (Cell.Val V W) α}
    (h : ∀ v, Reads r (Seen r l b rest act fun d => F d ∧ d f = v) Q (k v)) :
    Reads r (Seen r l b rest act F) Q (loadDatum l f >>= k) := by
  have hview := fun s : Shared τ (Cell.Val V W) => view_load s r (.slot l (.datum f))
  refine next (a := .load (.slot l (.datum f))) stable_seen hview
    (T := fun v => Seen r l b rest act fun d => F d ∧ d f = v) (fun s hs => ?_) h
  refine ⟨?_, hs.even, hs.reading, ?_, ?_, ?_⟩
  · rw [Fine, hview]
    exact hs.fine
  · rw [hview]
    exact hs.bumps
  · rw [hview]
    exact hs.live
  · rw [hview]
    exact fun hb => ⟨hs.data hb, rfl⟩

/-- The second load of the number. When it gives the number of the first one again, there has been
no section in between, unless there were as many as make it come round. -/
theorem loadSeq_again {k : UInt32 → Prog (Cell.Val V W) α}
    (hother : ∀ v, v ≠ UInt32.ofNat b → Reads r Fine Q (k v))
    (hsame : Reads r (fun s => Fine s ∧
      (act = true → ∀ copy, (∀ d, F d → d = copy) → Untorn r l copy s)) Q (k (UInt32.ofNat b))) :
    Reads r (Seen r l b rest act F) Q (Seqlock.loadSeq l >>= k) := by
  intro s hs s' hs'
  have hseen : Seen r l b rest act F s' := stable_seen s s' hs' hs
  have hview : view (s'.act r (.load (.slot l .seq))).2 = view s' := view_load s' r (.slot l .seq)
  have hseq : (s'.mem (.slot l .seq) : UInt32) = UInt32.ofNat (view s' l).bumps :=
    (hseen.fine l).seq
  have hfine : Fine (s'.act r (.load (.slot l .seq))).2 := by
    rw [Fine, hview]
    exact hseen.fine
  refine ⟨hview, ?_⟩
  show Holds r (Watched r) Steady Q (k (s'.mem (.slot l .seq))) _
  by_cases hv : (s'.mem (.slot l .seq) : UInt32) = UInt32.ofNat b
  · rw [hv]
    refine hsame _ ⟨hfine, fun hact copy hcopy => ?_⟩
    refine ⟨((view s' l).bumps + 1) / 2, (b + 1) / 2, rest, ?_, fun hspan => ?_⟩
    · exact (if_pos ⟨rfl, rfl⟩).trans (congrArg _ hseen.reading)
    · have hround : (view s' l).bumps % 4294967296 = b % 4294967296 := by
        have htoNat := congrArg UInt32.toNat (hseq.symm.trans hv)
        rwa [UInt32.toNat_ofNat', UInt32.toNat_ofNat'] at htoNat
      have hbumps : (view s' l).bumps = b := by
        have := hseen.bumps
        have := hseen.even
        omega
      have hdata := hcopy _ (hseen.data hbumps)
      refine ⟨(view s' l).sections, ?_, ?_, ?_⟩
      · exact (congrFun hview l).symm ▸ List.suffix_rfl
      · rw [(hseen.fine l).finished, hbumps]
        have := hseen.even
        omega
      · rw [← hdata]
        exact hseen.live hbumps hact
  · exact hother _ hv _ hfine

end
end Reads
end

end
end Seqlock
