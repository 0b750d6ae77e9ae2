import TrafficPrioritizer.DhcpEngine.Messages

/-! Which bytes of a message the option loop reads. The byte after a code is taken for a
length before it is asked whether the message has that byte; the answer of the loop does
not depend on it, but the read is made. -/

namespace Hpgtp
open ByteBuffer OptionArea

structure OptionReads where
  found : DhcpOptions := {}
  reads : List ℕ := []
  deriving DecidableEq

namespace OptionReads

def read (s : OptionReads) (o : ℕ) : OptionReads := { s with reads := s.reads ++ [o] }

def readMsgType (s : OptionReads) (mem : ℕ → UInt8) (o : ℕ) : OptionReads :=
  { found := { s.found with msgType := mem o }, reads := s.reads ++ [o] }

def readRequestedIp (s : OptionReads) (mem : ℕ → UInt8) (o : ℕ) : OptionReads :=
  { found := { s.found with
      rawRequestedIp := load32 [mem o, mem (o + 1), mem (o + 2), mem (o + 3)] 0 }
    reads := s.reads ++ [o, o + 1, o + 2, o + 3] }

end OptionReads

def optionLoop (mem : ℕ → UInt8) (stop : ℕ) : ℕ → ℕ → OptionReads → Option OptionReads
  | 0, _, _ => none
  | passes + 1, opt, s =>
    if opt < stop then
      let s := s.read opt
      if mem opt = 255 then some s
      else if mem opt = 0 then optionLoop mem stop passes (opt + 1) s
      else
        let len := mem (opt + 1)
        let s := s.read (opt + 1)
        if opt + 2 + len.toNat > stop then some s
        else
          let s := if mem opt = 53 ∧ len = 1 then s.readMsgType mem (opt + 2) else s
          let s := if mem opt = 50 ∧ len = 4 then s.readRequestedIp mem (opt + 2) else s
          optionLoop mem stop passes (opt + 2 + len.toNat) s
    else some s

/-- The buffer of a message: its bytes, and behind them whatever was there before. -/
def DhcpMessage.memory (msg : DhcpMessage) (beyond : ℕ → UInt8) (o : ℕ) : UInt8 :=
  if o < msg.data.length then load8 msg.data o else beyond o

theorem DhcpMessage.memory_of_lt (msg : DhcpMessage) (beyond : ℕ → UInt8) {o : ℕ}
    (h : o < msg.data.length) : msg.memory beyond o = load8 msg.data o := if_pos h

def OptionReads.Inside (s : OptionReads) (stop : ℕ) : Prop := ∀ o ∈ s.reads, o < stop

section
variable {s : OptionReads} {stop o : ℕ}

theorem OptionReads.inside_read : (s.read o).Inside stop ↔ s.Inside stop ∧ o < stop := by
  simp [Inside, read, or_imp, forall_and]

end

section
variable {b : List UInt8} {mem : ℕ → UInt8} {opt : ℕ} (passes : ℕ) (s : OptionReads)

theorem optionLoop_done (hmem : ∀ o < b.length, mem o = load8 b o)
    (h : head 0 255 (b.drop opt) = .done) :
    ∃ s', optionLoop mem b.length (passes + 1) opt s = some s' ∧ s'.found = s.found ∧
      (s'.Inside b.length ↔ s.Inside b.length) := by
  rw [optionLoop]
  by_cases hopt : opt < b.length
  · rw [head_drop hopt] at h
    split_ifs at h with hfin
    rw [if_pos hopt, hmem opt hopt]
    dsimp only
    rw [if_pos hfin]
    exact ⟨_, rfl, rfl, OptionReads.inside_read.trans (and_iff_left hopt)⟩
  · rw [if_neg hopt]
    exact ⟨s, rfl, rfl, Iff.rfl⟩

theorem lt_of_head_ne_done (h : head 0 255 (b.drop opt) ≠ .done) : opt < b.length :=
  Nat.lt_of_not_le fun hle => h (head_drop_of_le hle)

theorem optionLoop_padding (hmem : ∀ o < b.length, mem o = load8 b o) {rest : List UInt8}
    (h : head 0 255 (b.drop opt) = .padding rest) :
    opt < b.length ∧ rest = b.drop (opt + 1) ∧
      optionLoop mem b.length (passes + 1) opt s =
        optionLoop mem b.length passes (opt + 1) (s.read opt) := by
  have hopt := lt_of_head_ne_done (by rw [h]; exact nofun)
  rw [head_drop hopt] at h
  split_ifs at h with hfin hpad
  refine ⟨hopt, (Head.padding.inj h).symm, ?_⟩
  rw [optionLoop, if_pos hopt, hmem opt hopt]
  dsimp only
  rw [if_neg hfin, if_pos hpad]

theorem optionLoop_cut (hmem : ∀ o < b.length, mem o = load8 b o)
    (h : head 0 255 (b.drop opt) = .cut) :
    b.length ≤ opt + 1 ∧
      optionLoop mem b.length (passes + 1) opt s = some ((s.read opt).read (opt + 1)) := by
  have hopt := lt_of_head_ne_done (by rw [h]; exact nofun)
  rw [head_drop hopt] at h
  split_ifs at h with hfin hpad hcut
  refine ⟨hcut, ?_⟩
  rw [optionLoop, if_pos hopt, hmem opt hopt]
  dsimp only
  -- whatever length byte is found behind the message, the option does not fit
  rw [if_neg hfin, if_neg hpad, if_pos (by omega)]

theorem optionLoop_overrun (hmem : ∀ o < b.length, mem o = load8 b o)
    (h : head 0 255 (b.drop opt) = .overrun) :
    opt + 1 < b.length ∧
      optionLoop mem b.length (passes + 1) opt s = some ((s.read opt).read (opt + 1)) := by
  have hopt := lt_of_head_ne_done (by rw [h]; exact nofun)
  rw [head_drop hopt] at h
  split_ifs at h with hfin hpad hcut hover
  have hlen := Nat.not_le.mp hcut
  refine ⟨hlen, ?_⟩
  rw [optionLoop, if_pos hopt, hmem opt hopt, hmem (opt + 1) hlen]
  dsimp only
  rw [if_neg hfin, if_neg hpad, if_pos hover]

theorem noted_reads (hmem : ∀ o < b.length, mem o = load8 b o) (code len : UInt8) {o : ℕ}
    (hfits : o + len.toNat ≤ b.length) :
    let s₁ := if code = 53 ∧ len = 1 then s.readMsgType mem o else s
    let s₂ := if code = 50 ∧ len = 4 then s₁.readRequestedIp mem o else s₁
    s₂.found = s.found.note (code, slice b o len.toNat) ∧
      (s₂.Inside b.length ↔ s.Inside b.length) := by
  rw [note_slice b s.found code len hfits]
  by_cases h53 : code = 53 ∧ len = 1
  · obtain ⟨rfl, rfl⟩ := h53
    have ho : o < b.length := by
      rw [UInt8.toNat_one] at hfits
      omega
    simp [OptionReads.Inside, OptionReads.readMsgType, or_imp, forall_and, ho, hmem o ho]
  · by_cases h50 : code = 50 ∧ len = 4
    · obtain ⟨rfl, rfl⟩ := h50
      have ho : o + 4 ≤ b.length := hfits
      have hall : o < b.length ∧ o + 1 < b.length ∧ o + 2 < b.length ∧ o + 3 < b.length := by omega
      have hload : load32 [mem o, mem (o + 1), mem (o + 2), mem (o + 3)] 0 = load32 b o := by
        rw [hmem o hall.1, hmem (o + 1) hall.2.1, hmem (o + 2) hall.2.2.1, hmem (o + 3) hall.2.2.2]
        rfl
      simp [OptionReads.Inside, OptionReads.readRequestedIp, or_imp, forall_and, hall, hload]
    · simp [h53, h50]

theorem optionLoop_entry (hmem : ∀ o < b.length, mem o = load8 b o) {code : UInt8}
    {data rest : List UInt8} (h : head 0 255 (b.drop opt) = .entry code data rest) :
    opt < b.length ∧ ∃ opt' s', opt < opt' ∧ rest = b.drop opt' ∧
      s'.found = s.found.note (code, data) ∧ (s'.Inside b.length ↔ s.Inside b.length) ∧
      optionLoop mem b.length (passes + 1) opt s = optionLoop mem b.length passes opt' s' := by
  have hopt := lt_of_head_ne_done (by rw [h]; exact nofun)
  rw [head_drop hopt] at h
  split_ifs at h with hfin hpad hcut hover
  obtain ⟨rfl, rfl, rfl⟩ := Head.entry.inj h
  have hlen := Nat.not_le.mp hcut
  obtain ⟨hfound, hinside⟩ := noted_reads ((s.read opt).read (opt + 1)) hmem (load8 b opt)
    (load8 b (opt + 1)) (Nat.not_lt.mp hover)
  refine ⟨hopt, _, _, ?_, rfl, hfound, hinside.trans ?_, ?_⟩
  · omega
  · rw [OptionReads.inside_read, OptionReads.inside_read]
    simp only [hopt, hlen, and_true]
  · rw [optionLoop, if_pos hopt, hmem opt hopt, hmem (opt + 1) hlen]
    dsimp only
    rw [if_neg hfin, if_neg hpad, if_neg hover]

theorem optionLoop_reads (hmem : ∀ o < b.length, mem o = load8 b o)
    (hpasses : b.length - opt < passes) :
    ∃ s', optionLoop mem b.length passes opt s = some s' ∧
      s'.found = scanOptions b passes opt s.found ∧
      (s'.Inside b.length ↔ s.Inside b.length ∧ ¬ CutOff 0 255 (b.drop opt)) := by
  induction passes generalizing opt s with
  | zero => exact absurd hpasses (Nat.not_lt_zero _)
  | succ passes ih =>
    rw [cutOff_iff (by decide), scanOptions_eq_walk, walk]
    cases hhead : head 0 255 (b.drop opt) with
    | done =>
      obtain ⟨s', hrun, hfound, hinside⟩ := optionLoop_done passes s hmem hhead
      exact ⟨s', hrun, hfound, by simp [hinside]⟩
    | padding rest =>
      obtain ⟨hopt, rfl, hrun⟩ := optionLoop_padding passes s hmem hhead
      obtain ⟨s', hrun', hfound, hinside⟩ :=
        ih (s.read opt) (show b.length - (opt + 1) < passes by omega)
      rw [scanOptions_eq_walk] at hfound
      refine ⟨s', hrun.trans hrun', hfound, hinside.trans ?_⟩
      simp [OptionReads.inside_read, hopt]
    | cut =>
      obtain ⟨hlen, hrun⟩ := optionLoop_cut passes s hmem hhead
      refine ⟨_, hrun, rfl, ?_⟩
      simp [OptionReads.inside_read, Nat.not_lt.mpr hlen]
    | overrun =>
      obtain ⟨hlen, hrun⟩ := optionLoop_overrun passes s hmem hhead
      refine ⟨_, hrun, rfl, ?_⟩
      simp [OptionReads.inside_read, hlen, Nat.lt_of_succ_lt hlen]
    | entry code data rest =>
      obtain ⟨hopt, opt', s₁, hlt, rfl, hnoted, hkept, hrun⟩ :=
        optionLoop_entry passes s hmem hhead
      obtain ⟨s', hrun', hfound, hinside⟩ := ih s₁ (show b.length - opt' < passes by omega)
      rw [scanOptions_eq_walk, hnoted] at hfound
      refine ⟨s', hrun.trans hrun', hfound, hinside.trans ?_⟩
      simp [hkept]

end

/-- The option loop terminates with what the scan finds, and stays inside of the message exactly
when the area of the options is not cut off behind a code. -/
theorem option_reads_inside_iff (msg : DhcpMessage) (beyond : ℕ → UInt8) (opt : ℕ) :
    ∃ s, optionLoop (msg.memory beyond) msg.data.length (msg.data.length - opt + 1) opt {} =
        some s ∧
      s.found = scanOptions msg.data (msg.data.length - opt) opt {} ∧
      ((∀ o ∈ s.reads, o < msg.data.length) ↔ ¬ CutOff 0 255 (msg.data.drop opt)) := by
  obtain ⟨s, hrun, hfound, hinside⟩ := optionLoop_reads (msg.data.length - opt + 1) {}
    (fun o => msg.memory_of_lt beyond) (Nat.lt_succ_self (msg.data.length - opt))
  refine ⟨s, hrun, hfound.trans ?_, hinside.trans (and_iff_right nofun)⟩
  rw [scanOptions_eq_walk, scanOptions_eq_walk, walk_succ (by rw [List.length_drop])]

/-- A message of the full 512 bytes, with a host name and then a code in its last byte: the loop
reads behind the buffer. -/
theorem option_read_behind_buffer :
    let msg := makeDhcp selfTestMac (12 :: 227 :: List.replicate 227 97 ++ [53])
    msg.data.length = 512 ∧ msg.decode.isSome = true ∧
      (optionLoop (msg.memory fun _ => 0) msg.data.length (msg.data.length - 282 + 1) 282 {}).map
        OptionReads.reads = some [282, 283, 511, 512] := by
  decide +kernel

end Hpgtp
