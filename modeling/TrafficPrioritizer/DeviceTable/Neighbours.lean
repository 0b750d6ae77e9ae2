import TrafficPrioritizer.DeviceTable.Page
import TrafficPrioritizer.Lib.Revision
import TrafficPrioritizer.Lib.Run

/-! Runs of the collector and the page. The collector counts the revision up behind the stores of a
pass that changed something, so a refresh that finds the count and the revision as they were has
nothing to draw. -/

namespace Hpgtp
open LabelledRun Text Scanf Network

namespace DeviceState

def table (s : DeviceState) : Revision.Table DeviceSlots :=
  ⟨s.slots, s.revision, s.pass.any CollectorPass.changed⟩

/-- A pass under way over `rows`: the count is stored last and is until then the one that was read
at the start; bytes are stored in a pass that changes something. -/
structure PassOk (t : DeviceSlots) (rows : List DeviceEntry) (p : CollectorPass) : Prop where
  result : (t.finish p.todo).Shows rows
  counted : p.todo = [] ∨ p.prevCnt = t.count ∧
    ∃ works, p.todo = works ++ [.count rows.length] ∧ ∀ n, Work.count n ∉ works
  marked : ∀ k j buf, Work.byte k j buf ∈ p.todo → p.changed = true

structure Inv (scans : ℕ) (s : DeviceState) : Prop where
  count_le : s.slots.count ≤ maxTrackedDevices
  terminated : s.slots.Terminated
  inBounds : s.page.InBounds
  pass : ∀ p, s.pass = some p → PassOk s.slots (deviceRows s.scanned) p
  settled : s.pass = none → s.slots.Shows (deviceRows s.scanned)
  begun : s.pass.toList.length ≤ scans
  current : s.page.lastDeviceCount = 255 ∧ (∀ cards part, s.page.phase ≠ .drawing cards part) ∨
    ∃ behind, behind + s.pass.toList.length ≤ scans ∧
      Revision.Current s.table s.page.lastDeviceTableRevision s.page.Agrees behind

theorem length_deviceRows (text : List UInt8) :
    (deviceRows text).length ≤ maxTrackedDevices := by
  rw [deviceRows, readRows_eq_take]
  exact List.length_take_le _ _

structure Collected (s s' : DeviceState) : Prop where
  page : s'.page = s.page
  scanned : s'.scanned = s.scanned
  writes : Revision.Step s.table s'.table
  ended : s'.revision = s.revision ∨ s'.pass = none
  count_le : s'.slots.count ≤ maxTrackedDevices
  terminated : s'.slots.Terminated
  pass : ∀ p, s'.pass = some p → PassOk s'.slots (deviceRows s'.scanned) p
  settled : s'.pass = none → s'.slots.Shows (deviceRows s'.scanned)

variable {s : DeviceState} {p : CollectorPass} {scans : ℕ}

theorem table_of_pass (h : s.pass = some p) : s.table = ⟨s.slots, s.revision, p.changed⟩ := by
  rw [table, h, Option.any_some]

theorem PassOk.counted_tail {t t' : DeviceSlots} {rows : List DeviceEntry} {w : Work}
    {todo : List Work} (h : PassOk t rows p) (htodo : p.todo = w :: todo)
    (hw : ∀ n, w ≠ .count n) (hcount : t'.count = t.count) :
    p.prevCnt = t'.count ∧ ∃ works, todo = works ++ [.count rows.length] ∧
      ∀ n, Work.count n ∉ works := by
  obtain hnil | ⟨hprev, works, hworks, hno⟩ := h.counted
  · rw [htodo] at hnil
    cases hnil
  · rw [htodo] at hworks
    cases works with
    | nil => exact absurd (List.cons.inj hworks).1 (hw _)
    | cons w' works =>
      refine ⟨hprev.trans hcount.symm, works, (List.cons.inj hworks).2, fun n hn => ?_⟩
      exact hno n (List.mem_cons_of_mem _ hn)

theorem collected_on {slots : DeviceSlots} {p' : CollectorPass} (hpass : s.pass = some p)
    (hwrites : Revision.Step ⟨s.slots, s.revision, p.changed⟩ ⟨slots, s.revision, p'.changed⟩)
    (hcount : slots.count ≤ maxTrackedDevices) (hterminated : slots.Terminated)
    (hok : PassOk slots (deviceRows s.scanned) p') :
    Collected s { s with slots, pass := some p' } where
  page := rfl
  scanned := rfl
  writes := by
    rw [table_of_pass hpass]
    exact hwrites
  ended := .inl rfl
  count_le := hcount
  terminated := hterminated
  pass q hq := by
    obtain rfl := Option.some.inj hq
    exact hok
  settled hnone := by cases hnone

section
variable (h : s.Inv scans) (hpass : s.pass = some p) {todo : List Work}
include h hpass

theorem collected_end (htodo : p.todo = []) : Collected s (s.collect p) := by
  have hresult := (h.pass p hpass).result
  rw [htodo] at hresult
  rw [collect, htodo]
  refine ⟨rfl, rfl, ?_, .inr rfl, h.count_le, h.terminated, fun _ hnone => ?_, fun _ => hresult⟩
  · rw [table_of_pass hpass]
    cases hchanged : p.changed with
    | true => exact .publish
    | false => exact .idle
  · cases hnone

theorem collected_ip {k : ℕ} {ip : IPv4Net} (htodo : p.todo = .ip k ip :: todo) :
    Collected s (s.collect p) := by
  have hok := h.pass p hpass
  have htail (t' : DeviceSlots) (ht' : t'.count = s.slots.count) :=
    hok.counted_tail htodo (fun n hn => by cases hn) ht'
  have hresult := hok.result
  have hmarked := hok.marked
  rw [htodo] at hmarked
  rw [htodo, DeviceSlots.finish_cons] at hresult
  rw [collect, htodo]
  dsimp only
  split_ifs with hdiffers
  · refine collected_on hpass (.change _) h.count_le h.terminated ?_
    exact ⟨hresult, .inr (htail _ rfl), fun _ _ _ _ => rfl⟩
  · refine collected_on hpass .idle h.count_le h.terminated ⟨?_, .inr (htail _ rfl), ?_⟩
    · rw [DeviceSlots.perform, ← not_ne_iff.mp hdiffers, Function.update_eq_self] at hresult
      exact hresult
    · exact fun k j buf hmem => hmarked k j buf (List.mem_cons_of_mem _ hmem)

theorem collected_mac {k : ℕ} {buf : MacBuf} (htodo : p.todo = .mac k buf :: todo) :
    Collected s (s.collect p) := by
  have hok := h.pass p hpass
  have htail := hok.counted_tail htodo (fun n hn => by cases hn) (rfl : s.slots.count = _)
  have hresult := hok.result
  have hmarked := hok.marked
  rw [htodo] at hmarked
  rw [htodo, DeviceSlots.finish_cons] at hresult
  rw [collect, htodo]
  dsimp only
  split_ifs with hdiffers
  · refine collected_on hpass (.change _) h.count_le h.terminated ?_
    obtain ⟨hprev, works, hworks, hno⟩ := htail
    refine ⟨?_, .inr ⟨hprev, macWorks k buf ++ works, ?_, fun n hn => ?_⟩, fun _ _ _ _ => rfl⟩
    · rwa [DeviceSlots.finish_append, macWorks, DeviceSlots.finish_bytes]
    · rw [hworks, List.append_assoc]
    · rcases List.mem_append.mp hn with hn | hn
      · obtain ⟨j, -, hj⟩ := List.mem_map.mp hn
        cases hj
      · exact hno n hn
  · refine collected_on hpass .idle h.count_le h.terminated ⟨?_, .inr htail, ?_⟩
    · rwa [DeviceSlots.perform_mac_of_eq (not_ne_iff.mp hdiffers)] at hresult
    · exact fun k j buf hmem => hmarked k j buf (List.mem_cons_of_mem _ hmem)

theorem collected_byte {k j : ℕ} {buf : MacBuf} (htodo : p.todo = .byte k j buf :: todo) :
    Collected s (s.collect p) := by
  have hok := h.pass p hpass
  have hchanged := hok.marked k j buf (htodo ▸ List.mem_cons_self)
  have hresult := hok.result
  rw [htodo, DeviceSlots.finish_cons] at hresult
  rw [collect, htodo]
  refine collected_on hpass ?_ h.count_le (h.terminated.byte k j buf) ?_
  · have hwrites := Revision.Step.change (t := ⟨s.slots, s.revision, p.changed⟩)
      (s.slots.perform (.byte k j buf))
    rwa [← hchanged] at hwrites
  · exact ⟨hresult, .inr (hok.counted_tail htodo (fun n hn => by cases hn) rfl),
      fun _ _ _ _ => hchanged⟩

theorem collected_count {n : ℕ} (htodo : p.todo = .count n :: todo) :
    Collected s (s.collect p) := by
  have hok := h.pass p hpass
  obtain hnil | ⟨hprev, works, hworks, hno⟩ := hok.counted
  · rw [htodo] at hnil
    cases hnil
  -- the count is the last piece of work
  obtain ⟨rfl, rfl⟩ : n = (deviceRows s.scanned).length ∧ todo = [] := by
    rw [htodo] at hworks
    cases works with
    | nil =>
      obtain ⟨hn, htodo⟩ := List.cons.inj hworks
      exact ⟨Work.count.inj hn, htodo⟩
    | cons w works =>
      obtain ⟨rfl, -⟩ := List.cons.inj hworks
      exact absurd List.mem_cons_self (hno n)
  have hresult := hok.result
  rw [htodo] at hresult
  rw [collect, htodo]
  refine collected_on hpass ?_ (length_deviceRows _) h.terminated ?_
  · dsimp only
    cases hchanged : p.changed || decide ((deviceRows s.scanned).length ≠ p.prevCnt) with
    | true => exact .change _
    | false =>
      obtain ⟨hfalse, hsame⟩ := Bool.or_eq_false_iff.mp hchanged
      rw [hfalse, not_ne_iff.mp (of_decide_eq_false hsame), hprev]
      exact .idle
  · exact ⟨hresult, .inl rfl, fun _ _ _ hmem => by cases hmem⟩

theorem Inv.collected : Collected s (s.collect p) := by
  cases htodo : p.todo with
  | nil => exact collected_end h hpass htodo
  | cons w todo =>
    cases w with
    | ip k ip => exact collected_ip h hpass htodo
    | mac k buf => exact collected_mac h hpass htodo
    | byte k j buf => exact collected_byte h hpass htodo
    | count n => exact collected_count h hpass htodo

end

theorem mem_worksFrom {k : ℕ} {rows : List DeviceEntry} {w : Work} (h : w ∈ worksFrom k rows) :
    (∃ i ip, w = .ip i ip) ∨ ∃ i buf, w = .mac i buf := by
  induction rows generalizing k with
  | nil => cases h
  | cons d rows ih =>
    rw [worksFrom, List.mem_cons, List.mem_cons] at h
    rcases h with rfl | rfl | h
    · exact .inl ⟨k, d.ip, rfl⟩
    · exact .inr ⟨k, d.mac, rfl⟩
    · exact ih h

theorem Inv.scan (h : s.Inv scans) (hpass : s.pass = none) (text : List UInt8) :
    Inv (scans + 1) { s with
      pass := some ⟨worksFrom 0 (deviceRows text) ++ [.count (deviceRows text).length], false,
        s.slots.count⟩
      scanned := text } where
  count_le := h.count_le
  terminated := h.terminated
  inBounds := h.inBounds
  pass p hp := by
    obtain rfl := Option.some.inj hp
    refine ⟨s.slots.shows_of_works _, .inr ⟨rfl, _, rfl, fun n hn => ?_⟩, fun k j buf hmem => ?_⟩
    · obtain ⟨_, _, hw⟩ | ⟨_, _, hw⟩ := mem_worksFrom hn <;> cases hw
    · rcases List.mem_append.mp hmem with hmem | hmem
      · obtain ⟨_, _, hw⟩ | ⟨_, _, hw⟩ := mem_worksFrom hmem <;> cases hw
      · cases List.mem_singleton.mp hmem
  settled hnone := by cases hnone
  begun := Nat.le_add_left ..
  current := by
    refine h.current.imp id fun ⟨behind, hbehind, hcurrent⟩ => ⟨behind, ?_, ?_⟩
    · rw [hpass] at hbehind
      exact Nat.succ_le_succ hbehind
    · rw [table, hpass] at hcurrent
      exact hcurrent

theorem Inv.page (h : s.Inv scans) :
    Inv scans { s with page := s.page.step s.slots s.revision } where
  count_le := h.count_le
  terminated := h.terminated
  inBounds := h.inBounds.step h.count_le h.terminated
  pass := h.pass
  settled := h.settled
  begun := h.begun
  current := by
    cases hphase : s.page.phase with
    | idle =>
      rw [DevicePage.step_idle _ _ hphase]
      refine h.current.imp (fun hnever => ⟨hnever.1, fun _ _ hdraws => by cases hdraws⟩) ?_
      exact fun ⟨behind, hbehind, hcurrent⟩ => ⟨behind, hbehind, hcurrent.read fun hagrees =>
        DevicePage.agrees_of_phase hagrees (.inl hphase) (.inr ⟨_, rfl⟩)⟩
    | counted cnt =>
      rw [DevicePage.step_counted _ _ hphase]
      split_ifs
      · refine h.current.imp (fun hnever => ⟨hnever.1, fun _ _ hdraws => by cases hdraws⟩) ?_
        exact fun ⟨behind, hbehind, hcurrent⟩ => ⟨behind, hbehind, hcurrent.read fun hagrees =>
          DevicePage.agrees_of_phase hagrees (.inr ⟨cnt, hphase⟩) (.inl rfl)⟩
      · refine .inr ⟨0, ?_, .start s.table ⟨rfl, fun _ hpart => by cases hpart⟩⟩
        rw [Nat.zero_add]
        exact h.begun
    | drawing cards part =>
      obtain ⟨behind, hbehind, hcurrent⟩ :=
        h.current.resolve_left fun hnever => hnever.2 cards part hphase
      have hcounted (cnt : ℕ) : s.page.phase ≠ .counted cnt := by
        rw [hphase]
        exact fun heq => by cases heq
      refine .inr ⟨behind, hbehind, ?_⟩
      rw [(DevicePage.step_last s.slots s.revision hcounted).2]
      exact hcurrent.read (DevicePage.Agrees.step s.revision h.inBounds hcounted)

theorem inv_init : Inv 0 {} where
  count_le := Nat.zero_le _
  terminated _ := rfl
  inBounds := trivial
  pass _ hp := by cases hp
  settled _ := by
    have hnone : deviceRows [] = [] := rfl
    exact ⟨by rw [hnone]; rfl, fun i d hd => by rw [hnone] at hd; cases hd⟩
  begun := Nat.le_refl 0
  current := .inl ⟨rfl, fun _ _ hdraws => by cases hdraws⟩

theorem Inv.collect (h : s.Inv scans) (hpass : s.pass = some p) : (s.collect p).Inv scans := by
  have hcollected := h.collected hpass
  have hpage := hcollected.page
  have hbegun := h.begun
  have hlength : (s.collect p).pass.toList.length ≤ 1 := by
    cases (s.collect p).pass <;> simp
  rw [hpass] at hbegun
  refine ⟨hcollected.count_le, hcollected.terminated, ?_, hcollected.pass, hcollected.settled,
    hlength.trans hbegun, ?_⟩
  · rw [hpage]
    exact h.inBounds
  · rw [hpage]
    refine h.current.imp id fun ⟨behind, hbehind, hcurrent⟩ => ?_
    rw [hpass] at hbehind
    rcases hcurrent.step hcollected.writes with hsame | ⟨hmoved, hnext⟩
    · exact ⟨behind, (Nat.add_le_add_left hlength behind).trans hbehind, hsame⟩
    · -- the revision moves with the end of the pass
      refine ⟨behind + 1, ?_, hnext⟩
      rw [hcollected.ended.resolve_left hmoved]
      exact hbehind

theorem Inv.mono (h : s.Inv scans) {scans' : ℕ} (hle : scans ≤ scans') : s.Inv scans' where
  count_le := h.count_le
  terminated := h.terminated
  inBounds := h.inBounds
  pass := h.pass
  settled := h.settled
  begun := h.begun.trans hle
  current := h.current.imp id fun ⟨behind, hbehind, hcurrent⟩ =>
    ⟨behind, hbehind.trans hle, hcurrent⟩

def isScan : DeviceTurn → Bool
  | .scan _ => true
  | _ => false

theorem Inv.step (h : s.Inv scans) (turn : DeviceTurn) :
    (s.step turn).Inv (scans + (isScan turn).toNat) := by
  cases turn with
  | scan file =>
    rw [DeviceState.step]
    split
    · exact h.mono (Nat.le_succ scans)
    · next hpass =>
      dsimp only
      split_ifs
      · exact h.mono (Nat.le_succ scans)
      · exact h.scan hpass _
  | collect =>
    rw [DeviceState.step]
    split
    · exact h
    · next p hpass => exact h.collect hpass
  | page => exact h.page

theorem Inv.run (h : s.Inv scans) (turns : List DeviceTurn) :
    (exec DeviceState.step s turns).Inv (scans + turns.countP isScan) := by
  induction turns generalizing s scans with
  | nil => exact h
  | cons turn turns ih =>
    have hrest := ih (h.step turn)
    have hcount : scans + (isScan turn).toNat + turns.countP isScan =
        scans + (turn :: turns).countP isScan := by
      rw [List.countP_cons]
      cases isScan turn with
      | false => simp
      | true => simp only [Bool.toNat_true, if_true]; omega
    rwa [hcount] at hrest

theorem Inv.shown (h : s.Inv scans) (hfew : scans < 2 ^ 64) (hpass : s.pass = none)
    (hphase : s.page.phase = .idle)
    (hcount : s.page.lastDeviceCount = s.slots.count)
    (hrevision : s.page.lastDeviceTableRevision = s.revision) :
    s.page.shown = (deviceRows s.scanned).map fun d => ⟨d.ip, cString d.mac.bytes⟩ := by
  have hle := h.count_le
  obtain ⟨behind, hbehind, hcurrent⟩ := h.current.resolve_left fun hnever => by
    rw [← hcount, hnever.1] at hle
    exact absurd hle (by decide)
  have hagrees := hcurrent.agrees_of_revision (by omega) hrevision (by rw [table, hpass]; rfl)
  rw [DevicePage.Agrees, hphase] at hagrees
  rw [← DeviceSlots.cards_of_shows (h.settled hpass), ← hcount]
  exact hagrees

theorem exec_page (s : DeviceState) (n : ℕ) :
    exec step s (.replicate n .page) =
      { s with page := (DevicePage.step s.slots s.revision)^[n] s.page } := by
  induction n generalizing s with
  | zero => rfl
  | succ n ih => exact ih (s.step .page)

theorem Inv.refreshes (h : s.Inv scans) (hphase : s.page.phase = .idle) :
    ∃ n ≤ 1219, let q := (DevicePage.step s.slots s.revision)^[n] s.page
      q.phase = .idle ∧ q.lastDeviceCount = s.slots.count ∧
        q.lastDeviceTableRevision = s.revision := by
  set p₁ := s.page.step s.slots s.revision with hp₁
  set p₂ := p₁.step s.slots s.revision with hp₂
  rw [DevicePage.step_idle _ _ hphase] at hp₁
  rw [DevicePage.step_counted _ _ (by rw [hp₁]), hp₁] at hp₂
  split_ifs at hp₂ with hsame
  · refine ⟨2, by decide, ?_⟩
    change p₂.phase = _ ∧ p₂.lastDeviceCount = _ ∧ p₂.lastDeviceTableRevision = _
    rw [hp₂]
    exact ⟨rfl, hsame.1.symm, hsame.2.symm⟩
  · have hle := h.count_le
    have hbounds : p₂.InBounds := by
      rw [hp₂]
      exact ⟨hle, Nat.zero_le _, fun _ hpart => by cases hpart⟩
    have hremaining : p₂.remaining ≤ 1217 := by
      rw [hp₂]
      change (s.slots.count - 0) * 19 + 1 ≤ 1217
      unfold maxTrackedDevices at hle
      omega
    obtain ⟨m, hm, hidle, hcount, hrevision⟩ :=
      DevicePage.Drawing.finishes ⟨[], none, by rw [hp₂]⟩ hbounds hremaining hle h.terminated
        s.revision
    refine ⟨m + 2, by omega, hidle, hcount.trans ?_, hrevision.trans ?_⟩
    · rw [hp₂]
    · rw [hp₂]

end DeviceState

/-! ## The neighbours on the page -/

def cardsOf (text : List UInt8) : List Card :=
  (deviceRows text).map fun d => ⟨d.ip, cString d.mac.bytes⟩

namespace Network.ArpLine

def device? (l : ArpLine) : Option DeviceEntry :=
  l.row?.map fun r => ⟨⟨r.ipNbo⟩, .ofText (macText r.mac)⟩

theorem device_followed (l : ArpLine) (rest : List UInt8) :
    deviceRow (l.text ++ rest) = l.device? := by
  have hnul : cString (l.text ++ rest) = l.text ++ cString rest :=
    List.takeWhile_append_of_pos fun b hb => decide_eq_true (text_plain hb).2
  have hwords : words [19, 7, 7, 19] (l.text ++ cString rest) =
      [ipToStr l.ip, l.hwType.bytes, l.flags.bytes, macText l.mac] := by
    rw [text, List.append_assoc]
    exact words_columns (l.ipCell :: l.cells.tail) (l.tail ++ cString rest)
  rw [deviceRow, hnul, hwords]
  dsimp only
  rw [dottedQuad_ipToStr, Option.bind_some, device?, row?]
  split_ifs <;> rfl

theorem device_readable : Readable deviceRow text device? where
  oneLine _ h := (text_plain h).1 rfl
  followed l rest := l.device_followed (10 :: rest)
  last l := by
    have h := l.device_followed []
    rwa [List.append_nil] at h

end Network.ArpLine

theorem cString_ofText_macText (mac : Mac) :
    cString (MacBuf.ofText (macText mac)).bytes = macText mac := by
  have hlen := length_macText mac
  have hbytes : (MacBuf.ofText (macText mac)).bytes = macText mac ++ [0] := by
    change (macText mac).take 17 ++ List.replicate (18 - ((macText mac).take 17).length) 0 = _
    rw [List.take_of_length_le hlen.le, hlen]
    rfl
  rw [hbytes, cString, List.takeWhile_append_of_pos]
  · exact List.append_nil _
  · exact fun b hb => decide_eq_true (macText_plain hb).2

theorem cardsOf_text (t : ProcTable ArpLine) :
    cardsOf (t.text ArpLine.text) =
      ((t.lines.filterMap ArpLine.row?).take maxTrackedDevices).map fun r =>
        ⟨⟨r.ipNbo⟩, macText r.mac⟩ := by
  have hnil : deviceRow [] = none := rfl
  have hrows : (lineStarts (unlines (t.lines.map ArpLine.text) ++ [])).filterMap deviceRow =
      t.lines.filterMap ArpLine.device? ++ (deviceRow []).toList :=
    filterMap_lineStarts_unlines ArpLine.device_readable hnil t.lines List.not_mem_nil
  rw [hnil, Option.toList_none, List.append_nil, List.append_nil] at hrows
  have hdevices : t.lines.filterMap ArpLine.device? =
      (t.lines.filterMap ArpLine.row?).map fun r => ⟨⟨r.ipNbo⟩, .ofText (macText r.mac)⟩ :=
    List.map_filterMap.symm
  rw [cardsOf, deviceRows, ProcTable.text, afterLine_append t.heading_oneLine, readRows_eq_take,
    hrows, hdevices, ← List.map_take, List.map_map]
  refine List.map_congr_left fun r _ => ?_
  exact congrArg (Card.mk _) (cString_ofText_macText r.mac)

namespace DeviceState

/-- However the collector and the page interleave, in a run of fewer than `2 ^ 64` passes: the page
reads no slot and no byte outside the table; and when no pass is under way, a refresh, which ends
after at most 1219 accesses, leaves the page with the devices of the last text that was read. For
a table of the kernel that was read as a whole those are its resolved entries, at most 64. -/
theorem device_page_shows_neighbours (turns : List DeviceTurn)
    (hfew : turns.countP isScan < 2 ^ 64) :
    let s := exec step {} turns
    s.page.InBounds ∧
      (s.pass = none → s.page.phase = .idle →
        ∃ n ≤ 1219, let s' := exec step s (.replicate n .page)
          s'.page.phase = .idle ∧ s'.page.shown = cardsOf s.scanned) ∧
      ∀ t : ProcTable ArpLine, s.scanned = t.text ArpLine.text → cardsOf s.scanned =
        ((t.lines.filterMap ArpLine.row?).take maxTrackedDevices).map fun r =>
          ⟨⟨r.ipNbo⟩, macText r.mac⟩ := by
  intro s
  have hinv : s.Inv (turns.countP isScan) := by
    have hrun := inv_init.run turns
    rwa [Nat.zero_add] at hrun
  refine ⟨hinv.inBounds, fun hpass hphase => ?_, fun t ht => ?_⟩
  · obtain ⟨n, hn, hidle, hcount, hrevision⟩ := hinv.refreshes hphase
    have hinv' := hinv.run (.replicate n .page)
    rw [List.countP_replicate, if_neg (by decide), Nat.add_zero] at hinv'
    refine ⟨n, hn, ?_⟩
    rw [exec_page] at hinv' ⊢
    exact ⟨hidle, hinv'.shown hfew hpass hidle hcount hrevision⟩
  · rw [ht]
    exact cardsOf_text t

def oneNeighbour (mac : String) : List UInt8 :=
  ascii "IP address HW type Flags HW address Mask Device\n192.168.1.20 0x1 0x2 " ++ ascii mac ++
    ascii " * br0\n"

/-- The neighbour changes while the page draws it: the page shows a mixture of both addresses, and
the next refresh the new one. -/
theorem device_page_shows_neighbours_after_mixture :
    let turns : List DeviceTurn :=
      .scan (some (oneNeighbour "aa:bb:cc:dd:ee:01")) :: .replicate 22 .collect ++
        .replicate 10 .page ++
        .scan (some (oneNeighbour "ba:bb:cc:dd:ee:02")) :: .replicate 22 .collect ++
        .replicate 12 .page
    let s := exec step {} turns
    s.page.shown.map Card.mac = [ascii "aa:bb:cc:dd:ee:02"] ∧
      ∃ n ≤ 1219, (exec step s (.replicate n .page)).page.shown.map Card.mac =
        [ascii "ba:bb:cc:dd:ee:02"] := by
  intro turns s
  refine ⟨by decide +kernel, ?_⟩
  obtain ⟨-, hrefresh, -⟩ := device_page_shows_neighbours turns (by decide +kernel)
  have hpass : s.pass = none := Option.isNone_iff_eq_none.mp (by decide +kernel)
  have hphase : s.page.phase = .idle := by
    have hidle : (match s.page.phase with | .idle => true | _ => false) = true := by
      decide +kernel
    cases hp : s.page.phase with
    | idle => rfl
    | _ =>
      rw [hp] at hidle
      cases hidle
  obtain ⟨n, hn, -, hshown⟩ := hrefresh hpass hphase
  refine ⟨n, hn, (congrArg (List.map Card.mac) hshown).trans ?_⟩
  decide +kernel

end DeviceState
end Hpgtp
