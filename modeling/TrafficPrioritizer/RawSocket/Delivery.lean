import TrafficPrioritizer.RawSocket.RxRing

/-! The ring as a queue. In every state the slots of the RX thread are one run of
cells from its index to the kernel's, so that filling and giving back are the two
ends of a bounded queue; a frame is held from the step that hands it out to the one
that gives its slot back. -/

namespace Hpgtp
open LabelledRun BoundedFifo Function

def PushPc.item? {T : Type*} {N : ℕ} : PushPc T N → Option T
  | .idle => none
  | .tailLoaded item _ | .hasRoom item _ | .slotWritten item _ => some item

section
variable {T : Type*} {N : ℕ} {q : Spsc T N} {x y : T}

theorem Spsc.item?_step (h : (q.step (.producer x)).push.item? = some y) :
    y = x ∨ q.push.item? = some y := by
  obtain ⟨r, push, pop⟩ := q
  cases push with
  | idle => exact .inl (Option.some.inj h).symm
  | tailLoaded item t =>
    simp only [Spsc.step] at h
    split_ifs at h
    · cases h
    · exact .inr h
  | hasRoom item t => exact .inr h
  | slotWritten item t => cases h

theorem Spsc.item?_of_push {c : Fin N × T} (h : q.act (.producer x) = .push c) :
    q.push.item? = some c.2 ∧ (q.step (.producer x)).push.item? = none := by
  obtain ⟨r, push, pop⟩ := q
  cases push with
  | tailLoaded item t =>
    simp only [Spsc.act] at h
    split_ifs at h
  | slotWritten item t =>
    cases h
    exact ⟨rfl, rfl⟩
  | idle | hasRoom => cases h

theorem Spsc.item?_of_refuse (h : q.act (.producer x) = .refuse) :
    (q.step (.producer x)).push.item? = none := by
  obtain ⟨r, push, pop⟩ := q
  cases push with
  | tailLoaded item t =>
    simp only [Spsc.act] at h
    split_ifs at h with hfull
    simp only [Spsc.step, if_pos hfull]
    rfl
  | idle | hasRoom | slotWritten => cases h

theorem Spsc.push_step_consumer : (q.step .consumer).push = q.push := by
  obtain ⟨r, push, pop⟩ := q
  cases pop with
  | headLoaded i =>
    simp only [Spsc.step]
    split_ifs <;> rfl
  | idle | nonEmpty | itemRead => rfl

end

/-! ## The index -/

theorem toNat_nextIdx {idx : UInt32} (h : idx.toNat < frameNr) :
    (nextIdx idx).toNat = (idx.toNat + 1) % frameNr := by
  have hnr : frameNr = 32768 := by decide
  rw [nextIdx, UInt32.toNat_mod, UInt32.toNat_add, UInt32.toNat_ofNat', UInt32.toNat_one, hnr]
  rw [hnr] at h
  rw [Nat.mod_eq_of_lt (show idx.toNat + 1 < 2 ^ 32 by omega)]

theorem hdrAddr_eq {idx : UInt32} (h : idx.toNat < frameNr) :
    hdrAddr idx = idx.toNat * frameSize := by
  have hnr : frameNr = 32768 := by decide
  rw [hdrAddr, UInt32.toNat_mul, UInt32.toNat_ofNat', frameSize]
  omega

namespace RxThread

/-- The status is stored, and `rx_idx` has still to follow. -/
def Unstepped : RxThreadPc → Prop
  | .released | .finished => True
  | _ => False

def Quiet : RxThreadPc → Prop
  | .released | .finished | .pushing _ => False
  | _ => True

theorem Quiet.unstepped {pc : RxThreadPc} (h : Quiet pc) : ¬Unstepped pc := by
  cases pc with
  | released | finished => exact h.elim
  | _ => exact id

theorem Quiet.not_pushing {pc : RxThreadPc} (h : Quiet pc) (copy : List UInt8) :
    pc ≠ .pushing copy := by
  rintro rfl
  exact h

instance (pc : RxThreadPc) : Decidable (Unstepped pc) := by
  unfold Unstepped
  split <;> infer_instance

def consumer (s : RxThread) : Fin frameNr :=
  if Unstepped s.pc then Ring.advance s.slot 1 else s.slot

def owners (s : RxThread) : OwnershipRing.State RingFrame frameNr :=
  ⟨slotFrame s.mem, s.kernelIdx, s.consumer⟩

def queue (s : RxThread) : List (Fin frameNr × RingFrame) := s.owners.queue RingFrame.user

def CopyOf (c : RingFrame) (copy : List UInt8) : Prop :=
  ∃ m a, frameAt m a = c ∧ copy = rxFrameCopy (spanBytes m (a + c.tpMac.toNat) c.tpLen.toNat)

def PcOk (idx : UInt32) (c : RingFrame) : RxThreadPc → Prop
  | .releasing => c.user = true ∧ c.outgoing = true
  | .copying addr len => c.HandedOut ∧ addr = hdrAddr idx + c.tpMac.toNat ∧ len = c.tpLen.toNat
  | .pushing copy => c.HandedOut ∧ CopyOf c copy
  | .signalling | .counting | .finishing => c.HandedOut
  | _ => True

structure Ok (s : RxThread) : Prop where
  idx : s.rxIdx.toNat < frameNr
  ring : s.owners.Ok RingFrame.user
  status : ∀ i, (slotFrame s.mem i).user = false →
    (slotFrame s.mem i).tpStatus = RingFrame.statusKernel
  frameQ : s.frameQ.Ok
  pc : PcOk s.rxIdx s.hdr s.pc
  push : ∀ x, s.frameQ.push.item? = some x → s.pc = .pushing x

variable {s : RxThread}

theorem hdrAddr_slot (h : s.rxIdx.toNat < frameNr) : hdrAddr s.rxIdx = s.slot * frameSize := by
  rw [hdrAddr_eq h, show (s.slot : ℕ) = s.rxIdx.toNat from Nat.mod_eq_of_lt h]

theorem hdr_eq (h : s.rxIdx.toNat < frameNr) : s.hdr = slotFrame s.mem s.slot := by
  rw [hdr, slotFrame, hdrAddr_slot h]

theorem PcOk.congr {idx : UInt32} {c c' : RingFrame} {pc : RxThreadPc} (h : PcOk idx c pc)
    (hc : c.user = true → c' = c) : PcOk idx c' pc := by
  cases pc with
  | releasing => rwa [hc h.1]
  | copying addr len => rwa [hc h.1.1]
  | pushing copy => rwa [hc h.1.1]
  | signalling => rwa [hc h.1]
  | counting => rwa [hc h.1]
  | finishing => rwa [hc h.1]
  | _ => trivial

theorem owners_stepIdx {pc : RxThreadPc} (h : s.rxIdx.toNat < frameNr) (hpc : Unstepped s.pc)
    (hpc' : ¬Unstepped pc) : owners { s.stepIdx with pc } = s.owners := by
  have hslot : slot { s.stepIdx with pc } = Ring.advance s.slot 1 := by
    apply Fin.ext
    show (nextIdx s.rxIdx).toNat % frameNr = (s.rxIdx.toNat % frameNr + 1) % frameNr
    rw [toNat_nextIdx h, Nat.mod_mod, Nat.mod_add_mod]
  simp only [owners, consumer, if_neg hpc', if_pos hpc, hslot]
  rfl

theorem owners_storeKernel {pc : RxThreadPc} (h : s.rxIdx.toNat < frameNr) (hpc : ¬Unstepped s.pc)
    (hpc' : Unstepped pc) :
    owners { s.storeKernel with pc } = s.owners.release s.hdr.handedBack := by
  have hslots : slotFrame s.storeKernel.mem = update (slotFrame s.mem) s.slot s.hdr.handedBack := by
    rw [hdr_eq h, ← slotFrame_storeKernel, ← hdrAddr_slot h]
    rfl
  simp only [owners, OwnershipRing.State.release, consumer, if_pos hpc', if_neg hpc, hslots]
  rfl

theorem owners_withPc {pc : RxThreadPc} (h : Unstepped pc ↔ Unstepped s.pc) :
    owners { s with pc } = s.owners := by
  simp only [owners, consumer, h]
  rfl

/-! ## Steps -/

theorem Ok.quiet (h : s.Ok) (hquiet : Quiet s.pc) {pc : RxThreadPc} {dropped : UInt64}
    (hunstepped : ¬Unstepped pc) (hpc : PcOk s.rxIdx s.hdr pc) :
    Ok { s with pc, dropped } ∧ Allowed frameNr s.queue .stay ∧
      queue { s with pc, dropped } = next s.queue .stay := by
  have howners : owners { s with pc, dropped } = s.owners :=
    owners_withPc (s := s) ⟨hunstepped.elim, hquiet.unstepped.elim⟩
  refine ⟨⟨h.idx, howners ▸ h.ring, h.status, h.frameQ, hpc, fun x hx => ?_⟩, trivial, ?_⟩
  · exact absurd (h.push x hx) (hquiet.not_pushing x)
  · exact congrArg (OwnershipRing.State.queue RingFrame.user) howners

theorem Ok.release (h : s.Ok) (hunstepped : ¬Unstepped s.pc) (huser : s.hdr.user = true) :
    (s.owners.release s.hdr.handedBack).Ok RingFrame.user ∧ s.queue =
      s.current :: (s.owners.release s.hdr.handedBack).queue RingFrame.user := by
  have hcons : s.owners.cons = s.slot := if_neg hunstepped
  have hown : s.owners.slots s.owners.cons = s.hdr := by
    rw [hcons, hdr_eq h.idx]
    rfl
  obtain ⟨hring, hqueue⟩ := h.ring.release (by rwa [hown])
    (RingFrame.user_of_kernel (RingFrame.tpStatus_handedBack s.hdr))
  refine ⟨hring, ?_⟩
  rw [queue, hqueue, hown, hcons, current]

theorem Ok.storeKernel (h : s.Ok) (hquiet : Quiet s.pc) (huser : s.hdr.user = true)
    {pc : RxThreadPc} (hunstepped : Unstepped pc) :
    Ok { s.storeKernel with pc } ∧ Allowed frameNr s.queue (.pop s.current) ∧
      queue { s.storeKernel with pc } = next s.queue (.pop s.current) := by
  have howners := owners_storeKernel (s := s) h.idx hquiet.unstepped hunstepped
  obtain ⟨hring, hqueue⟩ := h.release hquiet.unstepped huser
  have hhead : s.queue = s.current :: queue { s.storeKernel with pc } := by
    rw [hqueue, queue, howners]
  refine ⟨⟨h.idx, howners ▸ hring, fun i hi => ?_, h.frameQ, ?_, fun x hx => ?_⟩, ?_, ?_⟩
  · have hslots :
        slotFrame s.storeKernel.mem i = update (slotFrame s.mem) s.slot s.hdr.handedBack i := by
      have hrelease := congrFun (congrArg OwnershipRing.State.slots howners) i
      rwa [OwnershipRing.State.release,
        show s.owners.cons = s.slot from if_neg hquiet.unstepped] at hrelease
    change (slotFrame s.storeKernel.mem i).user = false at hi
    show (slotFrame s.storeKernel.mem i).tpStatus = _
    rw [hslots] at hi ⊢
    by_cases hslot : i = s.slot
    · rw [hslot, update_self]
      exact RingFrame.tpStatus_handedBack s.hdr
    · rw [update_of_ne hslot] at hi ⊢
      exact h.status i hi
  · cases pc with
    | released | finished => trivial
    | _ => exact absurd hunstepped id
  · exact absurd (h.push x hx) (hquiet.not_pushing x)
  · rw [Allowed, hhead, List.head?_cons]
  · rw [hhead]
    rfl

theorem Ok.stepIdx (h : s.Ok) (hunstepped : Unstepped s.pc) {pc : RxThreadPc}
    (hpc : ¬Unstepped pc) (hany : ∀ idx c, PcOk idx c pc) :
    Ok { s.stepIdx with pc } ∧ Allowed frameNr s.queue .stay ∧
      queue { s.stepIdx with pc } = next s.queue .stay := by
  have howners := owners_stepIdx h.idx hunstepped hpc
  refine ⟨⟨?_, howners ▸ h.ring, h.status, h.frameQ, hany _ _, fun x hx => ?_⟩, trivial, ?_⟩
  · show (nextIdx s.rxIdx).toNat < frameNr
    rw [toNat_nextIdx h.idx]
    exact Nat.mod_lt _ (by decide)
  · rw [h.push x hx] at hunstepped
    exact hunstepped.elim
  · exact congrArg (OwnershipRing.State.queue RingFrame.user) howners

theorem Ok.pushStep (h : s.Ok) {copy : List UInt8} (hpc : s.pc = .pushing copy) (input : RxInput) :
    Ok (s.rxStep input) ∧ Allowed frameNr s.queue .stay ∧
      queue (s.rxStep input) = next s.queue .stay := by
  have hhand := h.pc
  rw [hpc] at hhand
  have hqueue := (Spsc.simulates s.frameQ (.producer copy) h.frameQ).1
  have howners {pc : RxThreadPc} (hunstepped : ¬Unstepped pc) :
      owners { s with frameQ := s.frameQ.step (.producer copy), pc } = s.owners :=
    owners_withPc (s := s) (by rw [hpc]; exact ⟨hunstepped.elim, False.elim⟩)
  have hbuild {pc : RxThreadPc} (hunstepped : ¬Unstepped pc) (hok : PcOk s.rxIdx s.hdr pc)
      (hitem : ∀ x, (s.frameQ.step (.producer copy)).push.item? = some x → pc = .pushing x) :
      Ok { s with frameQ := s.frameQ.step (.producer copy), pc } ∧ Allowed frameNr s.queue .stay ∧
        queue { s with frameQ := s.frameQ.step (.producer copy), pc } = next s.queue .stay := by
    refine ⟨⟨h.idx, howners hunstepped ▸ h.ring, h.status, hqueue, hok, hitem⟩, trivial, ?_⟩
    exact congrArg (OwnershipRing.State.queue RingFrame.user) (howners hunstepped)
  simp only [rxStep, hpc]
  cases hact : s.frameQ.act (.producer copy) with
  | push c =>
    refine hbuild id hhand.1 fun x hx => ?_
    rw [(Spsc.item?_of_push hact).2] at hx
    cases hx
  | refuse =>
    refine hbuild id hhand.1 fun x hx => ?_
    rw [Spsc.item?_of_refuse hact] at hx
    cases hx
  | stay | pop | empty =>
    refine hbuild id hhand fun x hx => ?_
    rcases Spsc.item?_step hx with rfl | hx
    · rfl
    · rw [← h.push x hx, hpc]

theorem peekFrame_cases (s : RxThread) :
    (s.hdr.user = false ∧ s.peekFrame = .looping) ∨
      (s.hdr.user = true ∧ s.hdr.outgoing = true ∧ s.peekFrame = .releasing) ∨
      (s.hdr.HandedOut ∧ s.peekFrame =
        .copying (hdrAddr s.rxIdx + s.hdr.tpMac.toNat) s.hdr.tpLen.toNat) := by
  unfold peekFrame RingFrame.HandedOut
  cases s.hdr.user <;> cases s.hdr.outgoing <;> simp

theorem rx_simulates (s : RxThread) (input : RxInput) (h : s.Ok) :
    Ok (s.rxStep input) ∧ Allowed frameNr s.queue (s.ringAct (.rx input)) ∧
      queue (s.rxStep input) = next s.queue (s.ringAct (.rx input)) := by
  have hpcOk := h.pc
  cases hpc : s.pc with
  | pushing copy =>
    have hact : s.ringAct (.rx input) = .stay := by simp only [ringAct, hpc]
    rw [hact]
    exact h.pushStep hpc input
  | looping =>
    simp only [rxStep, ringAct, hpc]
    split_ifs <;> exact h.quiet (by rw [hpc]; trivial) id trivial
  | polling =>
    simp only [rxStep, ringAct, hpc]
    cases input.wake <;> exact h.quiet (by rw [hpc]; trivial) id trivial
  | testing =>
    simp only [rxStep, ringAct, hpc]
    split_ifs <;> exact h.quiet (by rw [hpc]; trivial) id trivial
  | peeking =>
    simp only [rxStep, ringAct, hpc]
    have hquiet : Quiet s.pc := by rw [hpc]; trivial
    obtain ⟨huser, hpeek⟩ | ⟨huser, hout, hpeek⟩ | ⟨hhand, hpeek⟩ := peekFrame_cases s
    · -- the slot at the index is the kernel's, so the thread has passed every filled slot
      have hempty : s.queue = [] := by
        refine h.ring.empty ?_
        rw [show s.owners.cons = s.slot from if_neg hquiet.unstepped]
        rwa [hdr_eq h.idx] at huser
      have hstay : Ok { s with pc := .looping } ∧ Allowed frameNr s.queue .stay ∧
          queue { s with pc := .looping } = next s.queue .stay := h.quiet hquiet id trivial
      rw [hpeek, huser]
      exact ⟨hstay.1, hempty, hstay.2.2⟩
    · rw [hpeek, huser]
      exact h.quiet hquiet id ⟨huser, hout⟩
    · rw [hpeek, hhand.1]
      exact h.quiet hquiet id ⟨hhand, rfl, rfl⟩
  | releasing =>
    rw [hpc] at hpcOk
    simp only [rxStep, ringAct, hpc]
    exact h.storeKernel (by rw [hpc]; trivial) hpcOk.1 trivial
  | finishing =>
    rw [hpc] at hpcOk
    simp only [rxStep, ringAct, hpc]
    exact h.storeKernel (by rw [hpc]; trivial) hpcOk.1 trivial
  | released =>
    simp only [rxStep, ringAct, hpc]
    exact h.stepIdx (by rw [hpc]; trivial) id fun _ _ => trivial
  | finished =>
    simp only [rxStep, ringAct, hpc]
    exact h.stepIdx (by rw [hpc]; trivial) id fun _ _ => trivial
  | copying addr len =>
    rw [hpc] at hpcOk
    obtain ⟨hhand, rfl, rfl⟩ := hpcOk
    simp only [rxStep, ringAct, hpc]
    exact h.quiet (by rw [hpc]; trivial) id ⟨hhand, s.mem, hdrAddr s.rxIdx, rfl, rfl⟩
  | signalling =>
    rw [hpc] at hpcOk
    simp only [rxStep, ringAct, hpc]
    exact h.quiet (by rw [hpc]; trivial) id hpcOk
  | counting =>
    rw [hpc] at hpcOk
    simp only [rxStep, ringAct, hpc]
    exact h.quiet (by rw [hpc]; trivial) id hpcOk
  | exited =>
    simp only [rxStep, ringAct, hpc]
    exact ⟨h, trivial, rfl⟩

theorem hdr_kernelFill (h : s.Ok) (hfree : s.kernelFree) (c : RingFrame)
    (huser : s.hdr.user = true) : (s.kernelFill c).hdr = s.hdr := by
  have hne : s.slot ≠ s.kernelIdx := by
    intro heq
    rw [hdr_eq h.idx, heq, RingFrame.user_of_kernel hfree] at huser
    cases huser
  have hfilled : (s.kernelFill c).hdr = slotFrame (s.kernelFill c).mem s.slot :=
    hdr_eq (s := s.kernelFill c) h.idx
  rw [hfilled, hdr_eq h.idx, kernelFill, slotFrame_writeFrame, update_of_ne hne]

theorem owners_kernelFill (s : RxThread) (c : RingFrame) :
    (s.kernelFill c).owners = s.owners.fill c := by
  simp only [owners, OwnershipRing.State.fill, kernelFill, slotFrame_writeFrame]
  rfl

theorem kernel_simulates (s : RxThread) (c : RingFrame) (hc : c.user = true) (h : s.Ok) :
    Ok (s.step (.kernel c hc)) ∧ Allowed frameNr s.queue (s.ringAct (.kernel c hc)) ∧
      queue (s.step (.kernel c hc)) = next s.queue (s.ringAct (.kernel c hc)) := by
  simp only [step, ringAct]
  split_ifs with hfree
  · have howners := owners_kernelFill s c
    obtain ⟨hring, hlen, hqueue⟩ := h.ring.fill (RingFrame.user_of_kernel hfree) hc
    refine ⟨⟨h.idx, howners ▸ hring, fun i hi => ?_, h.frameQ,
      PcOk.congr h.pc (hdr_kernelFill h hfree c), h.push⟩, hlen, ?_⟩
    · simp only [kernelFill, slotFrame_writeFrame] at hi ⊢
      by_cases hslot : i = s.kernelIdx
      · rw [hslot, update_self, hc] at hi
        cases hi
      · rw [update_of_ne hslot] at hi ⊢
        exact h.status i hi
    · rw [queue, howners, hqueue]
      rfl
  · refine ⟨h, h.ring.full ?_, rfl⟩
    by_contra huser
    exact hfree (h.status s.kernelIdx (Bool.eq_false_iff.mpr huser))

theorem simulates (s : RxThread) (turn : RxTurn) (h : s.Ok) :
    Ok (s.step turn) ∧ Allowed frameNr s.queue (s.ringAct turn) ∧
      queue (s.step turn) = next s.queue (s.ringAct turn) := by
  cases turn with
  | kernel c hc => exact kernel_simulates s c hc h
  | rx input => exact rx_simulates s input h
  | proc =>
    refine ⟨⟨h.idx, h.ring, h.status, (Spsc.simulates s.frameQ .consumer h.frameQ).1, h.pc,
      fun x hx => h.push x ?_⟩, trivial, rfl⟩
    rwa [← Spsc.push_step_consumer (q := s.frameQ)]

theorem init_kernel (beyond : ℕ → UInt8) (i : Fin frameNr) :
    (slotFrame (init beyond).mem i).tpStatus = RingFrame.statusKernel := by
  have hzero : slotFrame (init beyond).mem i = (slotFrame (init beyond).mem i).handedBack := by
    funext k
    have hbyte : slotFrame (init beyond).mem i k = 0 := if_pos (slots_inBounds i k)
    rw [RingFrame.handedBack, hbyte, ite_self]
  rw [hzero, RingFrame.tpStatus_handedBack]

theorem init_ok (beyond : ℕ → UInt8) : (init beyond).Ok := by
  have hfree (i : Fin frameNr) := RingFrame.user_of_kernel (init_kernel beyond i)
  have hring : (init beyond).owners.Holds RingFrame.user 0 := by
    refine ⟨Nat.zero_le _, (Ring.advance_zero _).symm, fun j _ => ?_⟩
    show (slotFrame (init beyond).mem _).user = true ↔ j < 0
    simp [hfree]
  exact ⟨show (0 : ℕ) < frameNr by decide, ⟨0, hring⟩, fun i _ => init_kernel beyond i,
    Spsc.init_ok _, trivial, nofun⟩

theorem init_queue (beyond : ℕ → UInt8) : (init beyond).queue = [] :=
  (init_ok beyond).ring.empty (RingFrame.user_of_kernel (init_kernel beyond _))

/-! ## Frames in hand -/

def Holding : RxThreadPc → Prop
  | .copying _ _ | .pushing _ | .signalling | .counting | .finishing => True
  | _ => False

def InHand : RxThreadPc → Prop
  | .copying _ _ | .pushing _ | .counting => True
  | _ => False

instance (pc : RxThreadPc) : Decidable (Holding pc) := by
  unfold Holding
  split <;> infer_instance

instance (pc : RxThreadPc) : Decidable (InHand pc) := by
  unfold InHand
  split <;> infer_instance

def held (s : RxThread) : List (Fin frameNr × RingFrame) := if Holding s.pc then [s.current] else []

def inHand (s : RxThread) : List (Fin frameNr × RingFrame) :=
  if InHand s.pc then [s.current] else []

theorem Holding.handedOut (h : s.Ok) (hpc : Holding s.pc) : s.hdr.HandedOut := by
  have hok := h.pc
  cases hat : s.pc with
  | copying | pushing =>
    rw [hat] at hok
    exact hok.1
  | signalling | counting | finishing =>
    rw [hat] at hok
    exact hok
  | _ =>
    rw [hat] at hpc
    exact hpc.elim

theorem InHand.holding {pc : RxThreadPc} (h : InHand pc) : Holding pc := by
  cases pc with
  | copying | pushing | counting => trivial
  | _ => exact h.elim

theorem current_kernelFill (h : s.Ok) (hfree : s.kernelFree) (c : RingFrame)
    (hpc : Holding s.pc) : (s.kernelFill c).current = s.current := by
  rw [current, hdr_kernelFill h hfree c (hpc.handedOut h).1]
  rfl

theorem held_kernel (h : s.Ok) (c : RingFrame) (hc : c.user = true) :
    (s.step (.kernel c hc)).held = s.held ∧ (s.step (.kernel c hc)).inHand = s.inHand := by
  simp only [step]
  split_ifs with hfree
  · have hpc : (s.kernelFill c).pc = s.pc := rfl
    constructor
    · by_cases hheld : Holding s.pc
      · rw [held, held, hpc, if_pos hheld, if_pos hheld, current_kernelFill h hfree c hheld]
      · rw [held, held, hpc, if_neg hheld, if_neg hheld]
    · by_cases hheld : InHand s.pc
      · rw [inHand, inHand, hpc, if_pos hheld, if_pos hheld,
          current_kernelFill h hfree c hheld.holding]
      · rw [inHand, inHand, hpc, if_neg hheld, if_neg hheld]
  · exact ⟨rfl, rfl⟩

def givesBack (s : RxThread) (turn : RxTurn) : Option (Fin frameNr × RingFrame) :=
  (s.ringAct turn).popped?.bind (Option.guard fun f => !f.2.outgoing)

theorem handsOut_of_peek {input : RxInput} (hpc : s.pc = .peeking) :
    (s.handsOut (.rx input)).toList = (s.rxStep input).held ∧
      (s.handsOut (.rx input)).toList = (s.rxStep input).inHand := by
  simp only [handsOut, rxStep, hpc]
  obtain ⟨huser, hpeek⟩ | ⟨huser, hout, hpeek⟩ | ⟨hhand, hpeek⟩ := peekFrame_cases s
  · simp [RingFrame.HandedOut, huser, hpeek, held, inHand, Holding, InHand]
  · simp [RingFrame.HandedOut, hout, hpeek, held, inHand, Holding, InHand]
  · rw [if_pos hhand, hpeek]
    exact ⟨rfl, rfl⟩

theorem held_step (s : RxThread) (turn : RxTurn) (h : s.Ok) :
    s.held ++ (s.handsOut turn).toList = (s.givesBack turn).toList ++ (s.step turn).held := by
  cases turn with
  | kernel c hc =>
    rw [(held_kernel h c hc).1, givesBack, ringAct]
    split_ifs <;> simp [handsOut, Act.popped?]
  | proc =>
    show s.held ++ [] = [] ++ s.held
    simp
  | rx input =>
    have hok := h.pc
    cases hpc : s.pc with
    | peeking =>
      have hnone : s.givesBack (.rx input) = none := by
        simp only [givesBack, ringAct, hpc]
        split_ifs <;> rfl
      rw [hnone, (handsOut_of_peek hpc).1, held, hpc]
      simp [Holding, step]
    | releasing =>
      rw [hpc] at hok
      simp [held, handsOut, givesBack, ringAct, step, rxStep, hpc, Holding, Act.popped?, current,
        hok.2]
    | finishing =>
      rw [hpc] at hok
      simp [held, handsOut, givesBack, ringAct, step, rxStep, hpc, Holding, Act.popped?, current,
        hok.2]
    | pushing copy =>
      simp only [held, handsOut, givesBack, ringAct, step, rxStep, hpc, Act.popped?]
      cases s.frameQ.act (.producer copy) <;> rfl
    | looping | testing =>
      simp only [held, handsOut, givesBack, ringAct, step, rxStep, hpc, Act.popped?]
      cases input.running <;> rfl
    | polling =>
      simp only [held, handsOut, givesBack, ringAct, step, rxStep, hpc, Act.popped?]
      cases input.wake <;> rfl
    | exited =>
      simp [held, handsOut, givesBack, ringAct, step, rxStep, hpc, Act.popped?, Holding]
    | _ =>
      simp only [held, handsOut, givesBack, ringAct, step, rxStep, hpc, Act.popped?]
      rfl

theorem inHand_step (s : RxThread) (turn : RxTurn) (h : s.Ok) :
    s.inHand ++ (s.handsOut turn).toList =
      ((s.fate turn).map Fate.frame).toList ++ (s.step turn).inHand := by
  cases turn with
  | kernel c hc =>
    rw [(held_kernel h c hc).2]
    simp [handsOut, fate]
  | proc =>
    show s.inHand ++ [] = [] ++ s.inHand
    simp
  | rx input =>
    cases hpc : s.pc with
    | peeking =>
      rw [(handsOut_of_peek hpc).2, inHand, hpc]
      simp [fate, hpc, InHand, step]
    | pushing copy =>
      simp only [inHand, handsOut, fate, step, rxStep, hpc]
      cases s.frameQ.act (.producer copy) <;> rfl
    | looping | testing =>
      simp only [inHand, handsOut, fate, step, rxStep, hpc]
      cases input.running <;> rfl
    | polling =>
      simp only [inHand, handsOut, fate, step, rxStep, hpc]
      cases input.wake <;> rfl
    | exited => simp [inHand, handsOut, fate, step, rxStep, hpc, InHand]
    | _ =>
      simp only [inHand, handsOut, fate, step, rxStep, hpc]
      rfl

/-! ## The two ways a frame can go -/

def Fate.isCounted : Fate → Bool
  | .queued _ _ => false
  | .counted _ => true

theorem dropped_step (s : RxThread) (turn : RxTurn) :
    (s.step turn).dropped =
      s.dropped + UInt64.ofNat ((s.fate turn).toList.countP Fate.isCounted) := by
  cases turn with
  | kernel c hc =>
    simp only [step, fate]
    split_ifs <;> simp [kernelFill]
  | proc => simp [step, fate]
  | rx input =>
    cases hpc : s.pc with
    | pushing copy =>
      simp only [fate, step, rxStep, hpc]
      cases s.frameQ.act (.producer copy) <;> simp [Fate.isCounted]
    | counting =>
      simp [fate, step, rxStep, hpc, Fate.isCounted]
    | _ => simp [fate, step, rxStep, hpc, storeKernel, stepIdx]

theorem dropped_run (s : RxThread) (run : List RxTurn) :
    (exec step s run).dropped =
      s.dropped + UInt64.ofNat ((outputs step fate s run).countP Fate.isCounted) :=
  counter_outputs Fate.isCounted dropped dropped_step s run

theorem frameAct_pushed (s : RxThread) (turn : RxTurn) :
    (s.frameAct turn).pushed?.map Prod.snd = (s.fate turn).bind Fate.copy? := by
  cases turn with
  | kernel c hc => rfl
  | proc =>
    simp only [frameAct, fate, Spsc.act]
    split
    · split_ifs <;> rfl
    · rfl
    · rfl
  | rx input =>
    cases hpc : s.pc with
    | pushing copy =>
      simp only [frameAct, fate, hpc]
      cases s.frameQ.act (.producer copy) <;> rfl
    | _ => simp [frameAct, fate, hpc, Act.pushed?, Fate.copy?]

theorem frameQ_simulates (s : RxThread) (turn : RxTurn) (h : s.Ok) :
    Ok (s.step turn) ∧ Allowed 1023 s.frameQ.ring.queue (s.frameAct turn) ∧
      (s.step turn).frameQ.ring.queue = next s.frameQ.ring.queue (s.frameAct turn) := by
  refine ⟨(simulates s turn h).1, ?_⟩
  cases turn with
  | kernel c hc =>
    refine ⟨trivial, ?_⟩
    simp only [step]
    split_ifs <;> rfl
  | proc => exact (Spsc.simulates s.frameQ .consumer h.frameQ).2
  | rx input =>
    cases hpc : s.pc with
    | pushing copy =>
      simp only [frameAct, step, rxStep, hpc]
      exact (Spsc.simulates s.frameQ (.producer copy) h.frameQ).2
    | _ =>
      simp only [frameAct, step, rxStep, hpc]
      exact ⟨trivial, rfl⟩

/-! ## Runs -/

theorem queue_of_held (h : s.Ok) : s.queue.take s.held.length = s.held := by
  by_cases hpc : Holding s.pc
  · have hunstepped : ¬Unstepped s.pc := by
      intro hpc'
      cases hat : s.pc <;> simp_all [Unstepped, Holding]
    rw [held, if_pos hpc, (h.release hunstepped (hpc.handedOut h).1).2]
    rfl
  · rw [held, if_neg hpc]
    rfl

theorem held_filter (h : s.Ok) : s.held.filter (fun f => !f.2.outgoing) = s.held := by
  by_cases hpc : Holding s.pc
  · rw [held, if_pos hpc]
    simp [current, (hpc.handedOut h).2]
  · rw [held, if_neg hpc]
    rfl

def unpassed (s : RxThread) : List (Fin frameNr) := if Unstepped s.pc then [s.slot] else []

theorem unpassed_step (s : RxThread) (turn : RxTurn) (_ : s.Ok) :
    s.unpassed ++ ((s.ringAct turn).popped?.map Prod.fst).toList =
      (s.passes turn).toList ++ (s.step turn).unpassed := by
  cases turn with
  | kernel c hc =>
    simp only [unpassed, ringAct, passes, step]
    split_ifs <;> simp_all [Act.popped?, kernelFill, slot]
  | proc =>
    show s.unpassed ++ [] = [] ++ s.unpassed
    simp
  | rx input =>
    cases hpc : s.pc with
    | peeking =>
      simp only [unpassed, ringAct, passes, step, rxStep, hpc]
      unfold peekFrame
      cases s.hdr.user <;> cases s.hdr.outgoing <;> rfl
    | pushing copy =>
      simp only [unpassed, ringAct, passes, step, rxStep, hpc]
      cases s.frameQ.act (.producer copy) <;> rfl
    | looping | testing =>
      simp only [unpassed, ringAct, passes, step, rxStep, hpc]
      cases input.running <;> rfl
    | polling =>
      simp only [unpassed, ringAct, passes, step, rxStep, hpc]
      cases input.wake <;> rfl
    | exited => simp [unpassed, ringAct, passes, step, rxStep, hpc, Unstepped, Act.popped?]
    | _ =>
      simp only [unpassed, ringAct, passes, step, rxStep, hpc]
      rfl

/-- Whatever the kernel delivers and however the three sides interleave: `rx_idx` stays in range;
slots are given back in the order in which they were filled, each once, before the index passes
them; what has been handed out are the frames of the slots given back, and of the one held, that
are not outgoing; each of them has been queued or counted, but for one in hand. `peek` finds
nothing only when every filled slot has been given back. -/
theorem rx_ring_delivers_once (beyond : ℕ → UInt8) (run : List RxTurn) :
    let s := exec step (init beyond) run
    let ring := trace step ringAct (init beyond) run
    let queue := trace step frameAct (init beyond) run
    let handed := outputs step handsOut (init beyond) run
    let fates := outputs step fate (init beyond) run
    s.rxIdx.toNat < frameNr ∧
      Every next (Allowed frameNr) [] ring ∧ popped ring <+: pushed ring ∧
      (popped ring).map Prod.fst = outputs step passes (init beyond) run ++ s.unpassed ∧
      (∀ input, s.ringAct (.rx input) = .empty → popped ring = pushed ring) ∧
      handed = ((pushed ring).take ((popped ring).length + s.held.length)).filter
        (fun f => !f.2.outgoing) ∧
      handed = fates.map Fate.frame ++ s.inHand ∧
      Every next (Allowed 1023) [] queue ∧
      (pushed queue).map Prod.snd = fates.filterMap Fate.copy? ∧
      s.dropped = UInt64.ofNat (fates.countP Fate.isCounted) := by
  intro s ring queue handed fates
  have hkeep (t : RxThread) (turn : RxTurn) (ht : t.Ok) : (t.step turn).Ok :=
    (simulates t turn ht).1
  obtain ⟨hok, hring, hqueue⟩ := simulation RxThread.queue simulates (init_ok beyond) run
  rw [init_queue] at hring hqueue
  have hpre : popped ring <+: pushed ring := popped_isPrefix hring
  have hrest : s.queue = (pushed ring).drop (popped ring).length := by
    rw [hqueue, queue_eq_drop hring]
  have hframes := (simulation (fun t : RxThread => t.frameQ.ring.queue) frameQ_simulates
    (init_ok beyond) run).2.1
  rw [show (init beyond).frameQ.ring.queue = [] from Spsc.init_queue _] at hframes
  refine ⟨hok.idx, hring, hpre, ?_, fun input hempty => ?_, ?_, ?_, hframes, ?_, ?_⟩
  · have hcarried := outputs_carried unpassed hkeep unpassed_step (init_ok beyond) run
    rw [popped, List.map_filterMap, filterMap_trace]
    exact hcarried
  · have hallowed := (simulates s (.rx input) hok).2.1
    rw [hempty] at hallowed
    rw [show s.queue = [] from hallowed] at hrest
    obtain ⟨rest, hsplit⟩ := hpre
    rw [← hsplit, List.drop_left] at hrest
    rw [← hsplit, ← hrest, List.append_nil]
  · have hcarried := outputs_carried held hkeep held_step (init_ok beyond) run
    have hback : outputs step givesBack (init beyond) run =
        (popped ring).filter fun f => !f.2.outgoing := by
      rw [← List.filterMap_eq_filter, popped, filterMap_trace, filterMap_outputs]
      rfl
    rw [show (init beyond).held = [] from rfl, List.nil_append, hback] at hcarried
    rw [List.take_add, ← hrest, List.filter_append, queue_of_held hok, held_filter hok,
      ← List.prefix_iff_eq_take.mp hpre]
    exact hcarried
  · have hcarried := outputs_carried inHand hkeep inHand_step (init_ok beyond) run
    rw [show (init beyond).inHand = [] from rfl, List.nil_append] at hcarried
    rw [map_outputs]
    exact hcarried
  · rw [pushed, List.map_filterMap, filterMap_trace, filterMap_outputs]
    have hemit : (fun t turn => (frameAct t turn).pushed?.map Prod.snd) =
        fun t turn => (fate t turn).bind Fate.copy? := by
      funext t turn
      exact frameAct_pushed t turn
    exact congrArg (outputs step · (init beyond) run) hemit
  · rw [dropped_run]
    exact UInt64.zero_add _

end RxThread
end Hpgtp
