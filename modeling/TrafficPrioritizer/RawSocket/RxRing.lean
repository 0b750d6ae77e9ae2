import TrafficPrioritizer.ForwardEngine.Worker
import TrafficPrioritizer.Lib.OwnershipRing

/-! The receive ring that the kernel shares with the RX thread. Both sides go round
the ring by themselves, and a slot's status word says whose it is. The thread's loop
over `peek_rx_frame` and `finish_rx_frame` is cut where the kernel or the processing
thread can come in between. -/

namespace Hpgtp
open LabelledRun BoundedFifo ByteBuffer Function

def blockSize : ℕ := 4096 * 16
def frameSize : ℕ := 2048
def blockNr : ℕ := 1024
def frameNr : ℕ := blockSize * blockNr / frameSize

theorem frameNr_pos : 0 < frameNr := by decide

abbrev RingFrame := Fin frameSize → UInt8

namespace RingFrame

def byte (c : RingFrame) (k : ℕ) : UInt8 := if h : k < frameSize then c ⟨k, h⟩ else 0

def header (c : RingFrame) : List UInt8 := (List.range 48).map c.byte

def tpStatus (c : RingFrame) : UInt64 := load64 c.header 0
def tpLen (c : RingFrame) : UInt32 := load32 c.header 8
def tpSnaplen (c : RingFrame) : UInt32 := load32 c.header 12
def tpMac (c : RingFrame) : UInt16 := load16 c.header 16

def sllPkttype (c : RingFrame) : UInt8 := load8 c.header (32 + 10)

def statusKernel : UInt64 := 0
def statusUser : UInt64 := 1
def packetOutgoing : UInt8 := 4

def user (c : RingFrame) : Bool := c.tpStatus &&& statusUser ≠ 0

def outgoing (c : RingFrame) : Bool := c.sllPkttype = packetOutgoing

def HandedOut (c : RingFrame) : Prop := c.user = true ∧ c.outgoing = false

instance (c : RingFrame) : Decidable c.HandedOut := inferInstanceAs (Decidable (_ ∧ _))

def handedBack (c : RingFrame) : RingFrame := fun k => if k.val < 8 then 0 else c k

theorem header_handedBack (c : RingFrame) {k : ℕ} (hk : k < 8) :
    load8 c.handedBack.header k = 0 := by
  have hlt : k < frameSize := Nat.lt_trans hk (by decide)
  rw [load8, header, List.getD_eq_getElem?_getD, List.getElem?_map,
    List.getElem?_range (Nat.lt_trans hk (by decide))]
  simp [byte, hlt, handedBack, hk]

theorem tpStatus_handedBack (c : RingFrame) : c.handedBack.tpStatus = statusKernel := by
  have hbyte := fun {k : ℕ} => c.header_handedBack (k := k)
  simp [tpStatus, load64, load32, load16, hbyte, statusKernel]

theorem user_of_kernel {c : RingFrame} (h : c.tpStatus = statusKernel) : c.user = false := by
  simp [user, h, statusKernel]

end RingFrame

/-! ## Memory -/

def frameAt (m : ℕ → UInt8) (a : ℕ) : RingFrame := fun k => m (a + k)

def writeFrame (m : ℕ → UInt8) (a : ℕ) (c : RingFrame) : ℕ → UInt8 :=
  fun b => if a ≤ b then if h : b - a < frameSize then c ⟨b - a, h⟩ else m b else m b

def storeKernel (m : ℕ → UInt8) (a : ℕ) : ℕ → UInt8 := fun b => if a ≤ b ∧ b < a + 8 then 0 else m b

def slotFrame (m : ℕ → UInt8) (i : Fin frameNr) : RingFrame := frameAt m (i * frameSize)

theorem slots_apart {i j k : ℕ} (h : j ≠ i) (hk : k < frameSize) :
    j * frameSize + k < i * frameSize ∨ i * frameSize + frameSize ≤ j * frameSize + k := by
  simp only [frameSize] at *
  omega

theorem slots_inBounds (i : Fin frameNr) (k : Fin frameSize) :
    (i : ℕ) * frameSize + k < frameNr * frameSize := by
  have hi : (i : ℕ) + 1 ≤ frameNr := i.isLt
  have hmul := Nat.mul_le_mul_right frameSize hi
  have hk := k.isLt
  rw [Nat.add_mul, Nat.one_mul] at hmul
  omega

theorem slotFrame_writeFrame (m : ℕ → UInt8) (i : Fin frameNr) (c : RingFrame) :
    slotFrame (writeFrame m (i * frameSize) c) = update (slotFrame m) i c := by
  funext j
  by_cases hj : j = i
  · subst hj
    rw [update_self]
    funext k
    simp [slotFrame, frameAt, writeFrame]
  · rw [update_of_ne hj]
    funext k
    have hapart := slots_apart (fun h => hj (Fin.ext h)) k.isLt
    simp only [slotFrame, frameAt, writeFrame]
    split_ifs with hle hlt
    · omega
    · rfl
    · rfl

theorem slotFrame_storeKernel (m : ℕ → UInt8) (i : Fin frameNr) :
    slotFrame (storeKernel m (i * frameSize)) =
      update (slotFrame m) i (slotFrame m i).handedBack := by
  funext j
  by_cases hj : j = i
  · subst hj
    rw [update_self]
    funext k
    simp [slotFrame, frameAt, storeKernel, RingFrame.handedBack]
  · rw [update_of_ne hj]
    funext k
    have hapart := slots_apart (fun h => hj (Fin.ext h)) k.isLt
    have hsize : 8 ≤ frameSize := by decide
    simp only [slotFrame, frameAt, storeKernel]
    rw [if_neg (by omega)]

/-! ## The RX thread -/

/-- Where the RX thread stands. `released` and `finished` lie between the store of the status and
the step of `rx_idx`, in `peek_frame` and in `advance_frame`. -/
inductive RxThreadPc where
  | looping
  | polling
  | testing
  | peeking
  | releasing
  | released
  | copying (addr len : ℕ)
  | pushing (copy : List UInt8)
  | signalling
  | counting
  | finishing
  | finished
  | exited
  deriving DecidableEq

structure RxInput where
  running : Bool
  wake : Wake

structure RxThread where
  mem : ℕ → UInt8
  kernelIdx : Fin frameNr
  rxIdx : UInt32
  pc : RxThreadPc
  frameQ : Spsc (List UInt8) 1024
  dropped : UInt64

inductive RxTurn where
  | kernel (c : RingFrame) (user : c.user = true)
  | rx (input : RxInput)
  | proc

def hdrAddr (idx : UInt32) : ℕ := (idx * UInt32.ofNat frameSize).toNat

def nextIdx (idx : UInt32) : UInt32 := (idx + 1) % UInt32.ofNat frameNr

def spanBytes (m : ℕ → UInt8) (addr len : ℕ) : List UInt8 :=
  (List.range len).map fun k => m (addr + k)

namespace RxThread

/-- The mapping starts zeroed; behind it lies whatever the process has there. -/
def init (beyond : ℕ → UInt8) : RxThread where
  mem := fun a => if a < frameNr * frameSize then 0 else beyond a
  kernelIdx := ⟨0, frameNr_pos⟩
  rxIdx := 0
  pc := .looping
  frameQ := emptyFrameQ
  dropped := 0

def hdr (s : RxThread) : RingFrame := frameAt s.mem (hdrAddr s.rxIdx)

def storeKernel (s : RxThread) : RxThread :=
  { s with mem := Hpgtp.storeKernel s.mem (hdrAddr s.rxIdx) }

def stepIdx (s : RxThread) : RxThread := { s with rxIdx := nextIdx s.rxIdx }

def peekFrame (s : RxThread) : RxThreadPc :=
  if s.hdr.user then
    if s.hdr.outgoing then .releasing
    else .copying (hdrAddr s.rxIdx + s.hdr.tpMac.toNat) s.hdr.tpLen.toNat
  else .looping

def rxStep (s : RxThread) (input : RxInput) : RxThread :=
  match s.pc with
  | .looping => { s with pc := if input.running then .polling else .exited }
  | .polling =>
    { s with
      pc := match input.wake with
        | .frame => .testing
        | .interrupted => .looping
        | .stop | .failed => .exited }
  | .testing => { s with pc := if input.running then .peeking else .looping }
  | .peeking => { s with pc := s.peekFrame }
  | .releasing => { s.storeKernel with pc := .released }
  | .released => { s.stepIdx with pc := .peeking }
  | .copying addr len => { s with pc := .pushing (rxFrameCopy (spanBytes s.mem addr len)) }
  | .pushing copy =>
    { s with
      frameQ := s.frameQ.step (.producer copy)
      pc := match s.frameQ.act (.producer copy) with
        | .push _ => .signalling
        | .refuse => .counting
        | _ => .pushing copy }
  | .signalling => { s with pc := .finishing }
  | .counting => { s with dropped := s.dropped + 1, pc := .finishing }
  | .finishing => { s.storeKernel with pc := .finished }
  | .finished => { s.stepIdx with pc := .testing }
  | .exited => s

def kernelFree (s : RxThread) : Prop :=
  (slotFrame s.mem s.kernelIdx).tpStatus = RingFrame.statusKernel

instance (s : RxThread) : Decidable s.kernelFree := inferInstanceAs (Decidable (_ = _))

def kernelFill (s : RxThread) (c : RingFrame) : RxThread :=
  { s with
    mem := writeFrame s.mem (s.kernelIdx * frameSize) c
    kernelIdx := Ring.advance s.kernelIdx 1 }

def step (s : RxThread) : RxTurn → RxThread
  | .kernel c _ => if s.kernelFree then s.kernelFill c else s
  | .rx input => s.rxStep input
  | .proc => { s with frameQ := s.frameQ.step .consumer }

/-! ## What a run does -/

def slot (s : RxThread) : Fin frameNr := ⟨s.rxIdx.toNat % frameNr, Nat.mod_lt _ (by decide)⟩

def current (s : RxThread) : Fin frameNr × RingFrame := (s.slot, s.hdr)

/-- The ring as a queue: the kernel fills a slot or finds none free, the RX thread gives the slot
back or finds none filled. -/
def ringAct (s : RxThread) : RxTurn → Act (Fin frameNr × RingFrame)
  | .kernel c _ => if s.kernelFree then .push (s.kernelIdx, c) else .refuse
  | .rx _ =>
    match s.pc with
    | .peeking => if s.hdr.user then .stay else .empty
    | .releasing | .finishing => .pop s.current
    | _ => .stay
  | .proc => .stay

def handsOut (s : RxThread) : RxTurn → Option (Fin frameNr × RingFrame)
  | .rx _ =>
    match s.pc with
    | .peeking => if s.hdr.HandedOut then some s.current else none
    | _ => none
  | _ => none

def passes (s : RxThread) : RxTurn → Option (Fin frameNr)
  | .rx _ =>
    match s.pc with
    | .released | .finished => some s.slot
    | _ => none
  | _ => none

def frameAct (s : RxThread) : RxTurn → Act (Fin 1024 × List UInt8)
  | .kernel _ _ => .stay
  | .rx _ =>
    match s.pc with
    | .pushing copy => s.frameQ.act (.producer copy)
    | _ => .stay
  | .proc => s.frameQ.act .consumer

inductive Fate where
  | queued (frame : Fin frameNr × RingFrame) (copy : List UInt8)
  | counted (frame : Fin frameNr × RingFrame)

def Fate.frame : Fate → Fin frameNr × RingFrame
  | .queued f _ | .counted f => f

def Fate.copy? : Fate → Option (List UInt8)
  | .queued _ copy => some copy
  | .counted _ => none

def fate (s : RxThread) : RxTurn → Option Fate
  | .rx _ =>
    match s.pc with
    | .pushing copy =>
      match s.frameQ.act (.producer copy) with
      | .push (_, item) => some (.queued s.current item)
      | _ => none
    | .counting => some (.counted s.current)
    | _ => none
  | _ => none

end RxThread
end Hpgtp
