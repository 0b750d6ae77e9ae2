import TrafficPrioritizer.RawSocket.Delivery

/-! What the RX thread pushes for a slot. The span is as long as the frame was on the
wire, not as what the kernel captured of it, so that the copy of a longer frame goes
on into the next slot. -/

namespace Hpgtp
open LabelledRun BoundedFifo ByteBuffer Function

namespace RingFrame

/-- What the kernel may be trusted with: it captures no more than the frame, inside the slot. -/
def Captured (c : RingFrame) : Prop :=
  c.tpSnaplen ≤ c.tpLen ∧ c.tpMac.toNat + c.tpSnaplen.toNat ≤ frameSize

def captured (c : RingFrame) : List UInt8 :=
  (List.range c.tpSnaplen.toNat).map fun k => c.byte (c.tpMac.toNat + k)

def Complete (c : RingFrame) (copy : List UInt8) : Prop :=
  copy = c.captured ∧ copy.length = c.tpLen.toNat

instance (c : RingFrame) : Decidable c.Captured := inferInstanceAs (Decidable (_ ∧ _))

instance (c : RingFrame) (copy : List UInt8) : Decidable (c.Complete copy) :=
  inferInstanceAs (Decidable (_ ∧ _))

end RingFrame

namespace RxThread

theorem byte_frameAt (m : ℕ → UInt8) (a : ℕ) {k : ℕ} (hk : k < frameSize) :
    (frameAt m a).byte k = m (a + k) := by
  rw [RingFrame.byte, dif_pos hk, frameAt]

theorem snaplen_of_complete {c : RingFrame} {copy : List UInt8} (h : c.Complete copy) :
    c.tpSnaplen = c.tpLen := by
  obtain ⟨rfl, hlen⟩ := h
  rw [RingFrame.captured, List.length_map, List.length_range] at hlen
  exact UInt32.toNat_inj.mp hlen

theorem complete_iff {c : RingFrame} {copy : List UInt8} (h : c.Captured) (hcopy : CopyOf c copy) :
    c.Complete copy ↔ c.tpSnaplen = c.tpLen := by
  refine ⟨snaplen_of_complete, fun heq => ?_⟩
  obtain ⟨-, hfits⟩ := h
  obtain ⟨m, a, hat, rfl⟩ := hcopy
  rw [heq] at hfits
  have hlen : (spanBytes m (a + c.tpMac.toNat) c.tpLen.toNat).length = c.tpLen.toNat := by
    rw [spanBytes, List.length_map, List.length_range]
  -- the frame fits behind its offset, so the copy is not cut and stays in the slot
  have hshort : (spanBytes m (a + c.tpMac.toNat) c.tpLen.toNat).length ≤ 2048 := by
    rw [hlen]
    exact Nat.le_trans (Nat.le_add_left ..) hfits
  rw [rxFrameCopy, List.take_of_length_le hshort]
  refine ⟨?_, hlen⟩
  rw [RingFrame.captured, heq, spanBytes]
  refine List.map_congr_left fun k hk => ?_
  have hin : c.tpMac.toNat + k < frameSize :=
    Nat.lt_of_lt_of_le (Nat.add_lt_add_left (List.mem_range.mp hk) _) hfits
  have hbyte := byte_frameAt m a hin
  rw [hat] at hbyte
  rw [hbyte, Nat.add_assoc]

/-! ## Runs -/

variable {s : RxThread}

theorem rxStep_mem (s : RxThread) (input : RxInput) :
    (s.rxStep input).mem = s.mem ∨ (s.rxStep input).mem = s.storeKernel.mem := by
  cases hpc : s.pc with
  | releasing | finishing => exact .inr (by simp only [rxStep, hpc])
  | released | finished =>
    left
    simp only [rxStep, hpc]
    rfl
  | _ => exact .inl (by simp only [rxStep, hpc])

theorem slotFrame_step (h : s.Ok) {turn : RxTurn} {i : Fin frameNr}
    (huser : (slotFrame (s.step turn).mem i).user = true) :
    slotFrame (s.step turn).mem i = slotFrame s.mem i ∨
      ∃ c hc, turn = .kernel c hc ∧ slotFrame (s.step turn).mem i = c := by
  cases turn with
  | proc => exact .inl rfl
  | kernel c hc =>
    simp only [step]
    split_ifs with hfree
    · rw [kernelFill, slotFrame_writeFrame]
      by_cases hi : i = s.kernelIdx
      · exact .inr ⟨c, hc, rfl, by rw [hi, update_self]⟩
      · exact .inl (update_of_ne hi _ _)
    · exact .inl rfl
  | rx input =>
    left
    change (slotFrame (s.rxStep input).mem i).user = true at huser
    show slotFrame (s.rxStep input).mem i = _
    rcases rxStep_mem s input with hmem | hmem
    · rw [hmem]
    · have hslots : slotFrame (s.rxStep input).mem =
          update (slotFrame s.mem) s.slot (slotFrame s.mem s.slot).handedBack := by
        rw [hmem, ← slotFrame_storeKernel, ← hdrAddr_slot h.idx]
        rfl
      rw [hslots] at huser ⊢
      have hi : i ≠ s.slot := by
        rintro rfl
        rw [update_self, RingFrame.user_of_kernel (RingFrame.tpStatus_handedBack _)] at huser
        cases huser
      rw [update_of_ne hi]

structure CapturedOk (s : RxThread) : Prop extends Ok s where
  captured : ∀ i, (slotFrame s.mem i).user = true → (slotFrame s.mem i).Captured

def Delivers (turn : RxTurn) : Prop := ∀ c hc, turn = .kernel c hc → c.Captured

theorem CapturedOk.step (h : s.CapturedOk) {turn : RxTurn} (hturn : Delivers turn) :
    (s.step turn).CapturedOk := by
  refine ⟨(simulates s turn h.toOk).1, fun i huser => ?_⟩
  rcases slotFrame_step h.toOk huser with hsame | ⟨c, hc, rfl, hfill⟩
  · rw [hsame] at huser ⊢
    exact h.captured i huser
  · rw [hfill]
    exact hturn c hc rfl

theorem copyOf_queued (h : s.Ok) {turn : RxTurn} {f : Fin frameNr × RingFrame} {copy : List UInt8}
    (hfate : s.fate turn = some (.queued f copy)) :
    f.2 = slotFrame s.mem s.slot ∧ f.2.user = true ∧ CopyOf f.2 copy := by
  cases turn with
  | kernel | proc => cases hfate
  | rx input =>
    have hok := h.pc
    cases hpc : s.pc with
    | pushing copy' =>
      rw [hpc] at hok
      simp only [fate, hpc] at hfate
      cases hact : s.frameQ.act (.producer copy') with
      | push p =>
        rw [hact] at hfate
        obtain ⟨rfl, rfl⟩ : s.current = f ∧ p.2 = copy := by simpa using hfate
        have hitem := h.push _ (Spsc.item?_of_push hact).1
        rw [hpc] at hitem
        cases hitem
        exact ⟨hdr_eq h.idx, hok.1.1, hok.2⟩
      | stay | refuse | pop | empty =>
        rw [hact] at hfate
        cases hfate
    | _ =>
      simp only [fate, hpc] at hfate
      cases hfate

/-- Of the kernel assumed only that it captures no more than the frame and stays in its slot, a
pushed copy is the complete frame exactly when the frame was captured in full. -/
theorem rx_copy_complete_iff (beyond : ℕ → UInt8) (run : List RxTurn)
    (hkernel : ∀ c hc, RxTurn.kernel c hc ∈ run → c.Captured) :
    ∀ f copy, Fate.queued f copy ∈ outputs step fate (init beyond) run →
      (f.2.Complete copy ↔ f.2.tpSnaplen = f.2.tpLen) := by
  have hturns : Every step (fun _ turn => Delivers turn) (init beyond) run := by
    refine every_of_split fun as turn bs hsplit => ?_
    rintro c hc rfl
    exact hkernel c hc (hsplit ▸ List.mem_append_right as (List.mem_cons_self ..))
  have hinit : (init beyond).CapturedOk := by
    refine ⟨init_ok beyond, fun i huser => ?_⟩
    rw [RingFrame.user_of_kernel (init_kernel beyond i)] at huser
    cases huser
  have hevery := hturns.imp_of_invariant (fun s turn hs => hs.step)
    (Q := fun s turn => ∀ o ∈ s.fate turn, ∀ f copy, o = .queued f copy →
      (f.2.Complete copy ↔ f.2.tpSnaplen = f.2.tpLen))
    (fun s turn hs _ o ho f copy hqueued => by
      obtain ⟨hslot, huser, hcopy⟩ := copyOf_queued hs.toOk (hqueued ▸ ho)
      exact complete_iff (hslot ▸ hs.captured s.slot (hslot ▸ huser)) hcopy) hinit
  intro f copy hmem
  exact every_outputs_iff.mp hevery _ hmem f copy rfl

def kernelFrame (len snaplen : UInt32) (mac : UInt16) : RingFrame := fun k =>
  ([1, 0, 0, 0, 0, 0, 0, 0] ++ bytes32 len ++ bytes32 snaplen ++ bytes16 mac).getD k 0

def firstPush (c : RingFrame) (hc : c.user = true) : List RxTurn :=
  [.kernel c hc, .kernel (kernelFrame 60 60 66) (by decide +kernel)] ++
    List.replicate 9 (.rx ⟨true, .frame⟩)

theorem rx_copy_complete_short_frame :
    let fates := outputs step fate (init fun _ => 0)
      (firstPush (kernelFrame 60 60 66) (by decide +kernel))
    fates.length = 1 ∧ ∀ f copy, Fate.queued f copy ∈ fates → f.2.Complete copy := by
  intro fates
  have hwhole : ∀ o ∈ fates, o.frame.2.tpSnaplen = o.frame.2.tpLen := by decide +kernel
  have hkernel : ∀ c hc, RxTurn.kernel c hc ∈ firstPush (kernelFrame 60 60 66) (by decide +kernel) →
      c.Captured := by
    intro c hc hturn
    have hframe : c = kernelFrame 60 60 66 := by simpa [firstPush] using hturn
    rw [hframe]
    decide +kernel
  refine ⟨by decide +kernel, fun f copy hmem => ?_⟩
  have hqueued := hwhole _ hmem
  exact (rx_copy_complete_iff (fun _ => 0) _ hkernel f copy hmem).mpr hqueued

/-- Of a frame of 2000 bytes the slot holds 1982. The copy that is pushed has all 2000, the last
18 from the header of the next slot. -/
theorem oversized_frame_pushed :
    let fates := outputs step fate (init fun _ => 0)
      (firstPush (kernelFrame 2000 1982 66) (by decide +kernel))
    (kernelFrame 2000 1982 66).Captured ∧ (kernelFrame 60 60 66).Captured ∧
      fates.map (fun o => o.copy?.map fun copy => (copy.length, copy.drop 1982)) =
        [some (2000, [1, 0, 0, 0, 0, 0, 0, 0, 60, 0, 0, 0, 60, 0, 0, 0, 66, 0])] ∧
      ∀ o ∈ fates, ∀ copy ∈ o.copy?, ¬o.frame.2.Complete copy := by
  intro fates
  have hpart : ∀ o ∈ fates, o.frame.2.tpSnaplen ≠ o.frame.2.tpLen := by decide +kernel
  exact ⟨by decide +kernel, by decide +kernel, by decide +kernel,
    fun o ho copy _ hcomplete => hpart o ho (snaplen_of_complete hcomplete)⟩

end RxThread
end Hpgtp
