import TrafficPrioritizer.DeviceTable.Model

/-! What the device page makes of the table: the text of an address ends in its array whatever is
being stored there, and a refresh comes to its end. -/

namespace Hpgtp
open Text

namespace DeviceSlots

def card (t : DeviceSlots) (i : ℕ) : Card := ⟨t.ip i, cString (t.macBytes i)⟩

def cards (t : DeviceSlots) (n : ℕ) : List Card := (List.range n).map t.card

def Terminated (t : DeviceSlots) : Prop := ∀ k, t.mac k 17 = 0

theorem Terminated.byte {t : DeviceSlots} (h : t.Terminated) (k j : ℕ) (buf : MacBuf) :
    (t.perform (.byte k j buf)).Terminated := by
  intro i
  change Function.update t.mac k _ i 17 = 0
  by_cases hi : i = k
  · subst hi
    rw [Function.update_self]
    by_cases hj : 17 = j
    · subst hj
      rw [Function.update_self, buf.nul]
    · rw [Function.update_of_ne hj, h]
  · rw [Function.update_of_ne hi, h]

theorem cString_macBytes {t : DeviceSlots} {k n : ℕ} (hn : n < 18)
    (hnonzero : 0 ∉ (List.range n).map (t.mac k)) (hnul : t.mac k n = 0) :
    cString (t.macBytes k) = (List.range n).map (t.mac k) := by
  obtain ⟨m, hm⟩ : ∃ m, 18 = n + (m + 1) := ⟨17 - n, by omega⟩
  rw [macBytes, hm, List.range_add, List.range_succ_eq_map, List.map_append, cString,
    List.takeWhile_append_of_pos, List.map_cons, List.map_cons, Nat.add_zero, hnul,
    List.takeWhile_cons_of_neg (by decide), List.append_nil]
  exact fun b hb => decide_eq_true (ne_of_mem_of_not_mem hb hnonzero)

theorem cards_of_shows {t : DeviceSlots} {rows : List DeviceEntry} (h : t.Shows rows) :
    t.cards t.count = rows.map fun d => ⟨d.ip, cString d.mac.bytes⟩ := by
  rw [h.count]
  refine List.ext_getElem? fun i => ?_
  rw [cards, List.getElem?_map, List.getElem?_map]
  cases hd : rows[i]? with
  | none =>
    have hi := List.getElem?_eq_none_iff.mp hd
    rw [List.getElem?_eq_none (by rwa [List.length_range])]
    rfl
  | some d =>
    obtain ⟨hi, -⟩ := List.getElem?_eq_some_iff.mp hd
    obtain ⟨hip, hmac⟩ := h.slot i d hd
    rw [List.getElem?_range hi, Option.map_some, Option.map_some, card, hip, hmac]

end DeviceSlots

/-! ## What the page has read -/

namespace DevicePage

def Agrees (p : DevicePage) (t : DeviceSlots) : Prop :=
  match p.phase with
  | .idle => p.shown = t.cards p.lastDeviceCount
  | .counted _ => p.shown = t.cards p.lastDeviceCount
  | .drawing cards part => cards = t.cards cards.length ∧ ∀ card ∈ part,
      card.ip = t.ip cards.length ∧
        card.mac = (List.range card.mac.length).map (t.mac cards.length) ∧ 0 ∉ card.mac

def InBounds (p : DevicePage) : Prop :=
  match p.phase with
  | .idle => True
  | .counted cnt => cnt ≤ maxTrackedDevices
  | .drawing cards part => p.lastDeviceCount ≤ maxTrackedDevices ∧
      cards.length ≤ p.lastDeviceCount ∧
      ∀ card ∈ part, cards.length < p.lastDeviceCount ∧ card.mac.length < 18

variable {p : DevicePage} {t : DeviceSlots} {revision : UInt64}

theorem InBounds.step (h : p.InBounds) (hcount : t.count ≤ maxTrackedDevices)
    (ht : t.Terminated) : (p.step t revision).InBounds := by
  obtain ⟨last, rev, shown, phase⟩ := p
  cases phase with
  | idle => exact hcount
  | counted cnt =>
    rw [step]
    dsimp only
    split_ifs
    · trivial
    · exact ⟨h, Nat.zero_le _, fun _ hpart => by cases hpart⟩
  | drawing cards part =>
    obtain ⟨hlast, hcards, hpart⟩ := h
    cases part with
    | none =>
      rw [step]
      dsimp only
      split_ifs with hmore
      · refine ⟨hlast, hcards, fun card hcard => ?_⟩
        obtain rfl := Option.some.inj hcard
        exact ⟨hmore, Nat.zero_lt_succ 17⟩
      · trivial
    | some card =>
      obtain ⟨hmore, hlen⟩ := hpart card rfl
      rw [step]
      dsimp only
      split_ifs with hnul
      · refine ⟨hlast, ?_, fun _ hpart => by cases hpart⟩
        rw [List.length_append]
        exact hmore
      · refine ⟨hlast, hcards, fun card' hcard => ?_⟩
        obtain rfl := Option.some.inj hcard
        refine ⟨hmore, ?_⟩
        have hne : card.mac.length ≠ 17 := by
          intro heq
          rw [heq] at hnul
          exact hnul (ht _)
        rw [List.length_append, List.length_singleton]
        omega

theorem step_idle (t : DeviceSlots) (revision : UInt64) (h : p.phase = .idle) :
    p.step t revision = { p with phase := .counted t.count } := by
  rw [step, h]

theorem step_counted {cnt : ℕ} (t : DeviceSlots) (revision : UInt64) (h : p.phase = .counted cnt) :
    p.step t revision =
      if cnt = p.lastDeviceCount ∧ revision = p.lastDeviceTableRevision then
        { p with phase := .idle }
      else
        { p with
          lastDeviceCount := cnt
          lastDeviceTableRevision := revision
          phase := .drawing [] none } := by
  rw [step, h]

theorem agrees_of_phase {phase : PagePhase} (h : p.Agrees t)
    (hphase : p.phase = .idle ∨ ∃ cnt, p.phase = .counted cnt)
    (hphase' : phase = .idle ∨ ∃ cnt, phase = .counted cnt) : ({ p with phase }).Agrees t := by
  have hshown : p.shown = t.cards p.lastDeviceCount := by
    rcases hphase with hphase | ⟨cnt, hphase⟩
    · rwa [Agrees, hphase] at h
    · rwa [Agrees, hphase] at h
  rcases hphase' with rfl | ⟨cnt, rfl⟩
  · exact hshown
  · exact hshown

theorem step_last (t : DeviceSlots) (revision : UInt64) (hphase : ∀ cnt, p.phase ≠ .counted cnt) :
    (p.step t revision).lastDeviceCount = p.lastDeviceCount ∧
      (p.step t revision).lastDeviceTableRevision = p.lastDeviceTableRevision := by
  obtain ⟨last, rev, shown, phase⟩ := p
  cases phase with
  | idle => exact ⟨rfl, rfl⟩
  | counted cnt => exact absurd rfl (hphase cnt)
  | drawing cards part =>
    cases part with
    | none =>
      rw [step]
      dsimp only
      split_ifs <;> exact ⟨rfl, rfl⟩
    | some card =>
      rw [step]
      dsimp only
      split_ifs <;> exact ⟨rfl, rfl⟩

theorem Agrees.step (revision : UInt64) (hb : p.InBounds) (hphase : ∀ cnt, p.phase ≠ .counted cnt)
    (h : p.Agrees t) : (p.step t revision).Agrees t := by
  obtain ⟨last, rev, shown, phase⟩ := p
  cases phase with
  | idle => exact h
  | counted cnt => exact absurd rfl (hphase cnt)
  | drawing cards part =>
    obtain ⟨hcards, hpart⟩ := h
    obtain ⟨-, hle, hbounds⟩ := hb
    cases part with
    | none =>
      rw [DevicePage.step]
      dsimp only
      split_ifs with hmore
      · refine ⟨hcards, fun card hcard => ?_⟩
        obtain rfl := Option.some.inj hcard
        exact ⟨rfl, rfl, List.not_mem_nil⟩
      · change cards = t.cards last
        rwa [show last = cards.length from le_antisymm (Nat.not_lt.mp hmore) hle]
    | some card =>
      obtain ⟨hip, hmac, hnonzero⟩ := hpart card rfl
      obtain ⟨-, hlen⟩ := hbounds card rfl
      rw [DevicePage.step]
      dsimp only
      split_ifs with hnul
      · refine ⟨?_, fun _ hpart => by cases hpart⟩
        have hcard : card = t.card cards.length := by
          rw [DeviceSlots.card, DeviceSlots.cString_macBytes hlen (hmac ▸ hnonzero) hnul, ← hmac,
            ← hip]
        rw [List.length_append, List.length_singleton, DeviceSlots.cards, List.range_succ,
          List.map_append, List.map_singleton, ← hcard]
        exact congrArg (· ++ [card]) hcards
      · refine ⟨hcards, fun card' hcard => ?_⟩
        obtain rfl := Option.some.inj hcard
        refine ⟨hip, ?_, ?_⟩
        · dsimp only
          rw [List.length_append, List.length_singleton, List.range_succ, List.map_append, ← hmac]
          rfl
        · intro hzero
          rcases List.mem_append.mp hzero with hzero | hzero
          · exact hnonzero hzero
          · exact hnul (List.mem_singleton.mp hzero).symm

def Drawing (p : DevicePage) : Prop := ∃ cards part, p.phase = .drawing cards part

/-- How long a refresh that is drawing goes on: at most 19 accesses for a card. -/
def remaining (p : DevicePage) : ℕ :=
  match p.phase with
  | .idle => 0
  | .counted _ => 0
  | .drawing cards none => (p.lastDeviceCount - cards.length) * 19 + 1
  | .drawing cards (some card) => (p.lastDeviceCount - cards.length) * 19 - card.mac.length

theorem Drawing.step (h : p.Drawing) (hb : p.InBounds) (t : DeviceSlots) (revision : UInt64) :
    (p.step t revision).phase = .idle ∨
      (p.step t revision).Drawing ∧ (p.step t revision).remaining < p.remaining := by
  obtain ⟨last, rev, shown, phase⟩ := p
  obtain ⟨cards, part, rfl⟩ := h
  obtain ⟨-, -, hpart⟩ := hb
  cases part with
  | none =>
    rw [DevicePage.step]
    dsimp only
    split_ifs with hmore
    · exact .inr ⟨⟨_, _, rfl⟩, Nat.lt_succ_self _⟩
    · exact .inl rfl
  | some card =>
    obtain ⟨hmore, hlen⟩ := hpart card rfl
    dsimp only at hmore
    rw [DevicePage.step]
    dsimp only
    right
    split_ifs
    · refine ⟨⟨_, _, rfl⟩, ?_⟩
      simp only [remaining, List.length_append, List.length_singleton]
      omega
    · refine ⟨⟨_, _, rfl⟩, ?_⟩
      simp only [remaining, List.length_append, List.length_singleton]
      omega

theorem Drawing.remaining_pos (h : p.Drawing) (hb : p.InBounds) : 0 < p.remaining := by
  obtain ⟨last, rev, shown, phase⟩ := p
  obtain ⟨cards, part, rfl⟩ := h
  obtain ⟨-, -, hpart⟩ := hb
  cases part with
  | none => exact Nat.succ_pos _
  | some card =>
    obtain ⟨hmore, hlen⟩ := hpart card rfl
    dsimp only at hmore
    simp only [remaining]
    omega

theorem Drawing.finishes {n : ℕ} (h : p.Drawing) (hb : p.InBounds) (hn : p.remaining ≤ n)
    (hcount : t.count ≤ maxTrackedDevices) (ht : t.Terminated) (revision : UInt64) :
    ∃ m ≤ n, let q := (DevicePage.step t revision)^[m] p
      q.phase = .idle ∧ q.lastDeviceCount = p.lastDeviceCount ∧
        q.lastDeviceTableRevision = p.lastDeviceTableRevision := by
  induction n generalizing p with
  | zero => exact absurd hn (Nat.not_le.mpr (h.remaining_pos hb))
  | succ n ih =>
    have hcounted (cnt : ℕ) : p.phase ≠ .counted cnt := by
      obtain ⟨cards, part, hphase⟩ := h
      rw [hphase]
      exact fun heq => by cases heq
    obtain ⟨hlast, hrevision⟩ := step_last t revision hcounted
    rcases h.step hb t revision with hidle | ⟨hdrawing, hless⟩
    · exact ⟨1, Nat.succ_le_succ (Nat.zero_le n), hidle, hlast, hrevision⟩
    · obtain ⟨m, hm, hidle, hlast', hrevision'⟩ :=
        ih hdrawing (hb.step hcount ht) (by omega)
      exact ⟨m + 1, Nat.succ_le_succ hm, hidle, hlast'.trans hlast, hrevision'.trans hrevision⟩

end DevicePage
end Hpgtp
