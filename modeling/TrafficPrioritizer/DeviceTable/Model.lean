import TrafficPrioritizer.Network.ProcFiles

/-! The device table. The telemetry collector fills it from the neighbours in `/proc/net/arp`, slot
by slot and byte by byte, while the device page of the dashboard reads it in another thread without
a lock; the page is drawn again when the count or the revision has moved. -/

namespace Hpgtp
open Text Scanf Network

def maxTrackedDevices : ℕ := 64

structure MacBuf where
  bytes : List UInt8
  length_eq : bytes.length = 18
  nul : bytes.getD 17 0 = 0

theorem length_padded (s : List UInt8) :
    (s.take 17 ++ List.replicate (18 - (s.take 17).length) 0).length = 18 := by
  have hlen : (s.take 17).length ≤ 17 := List.length_take_le 17 s
  rw [List.length_append, List.length_replicate]
  omega

theorem padded_nul (s : List UInt8) :
    (s.take 17 ++ List.replicate (18 - (s.take 17).length) 0).getD 17 0 = 0 := by
  rw [List.getD_eq_getElem?_getD, List.getElem?_append_right (List.length_take_le 17 s),
    List.getElem?_replicate]
  split <;> rfl

def MacBuf.ofText (s : List UInt8) : MacBuf :=
  ⟨s.take 17 ++ List.replicate (18 - (s.take 17).length) 0, length_padded s, padded_nul s⟩

structure DeviceEntry where
  ip : IPv4Net
  mac : MacBuf

structure DeviceSlots where
  count : ℕ := 0
  ip : ℕ → IPv4Net := fun _ => {}
  mac : ℕ → ℕ → UInt8 := fun _ _ => 0

def DeviceSlots.macBytes (t : DeviceSlots) (k : ℕ) : List UInt8 := (List.range 18).map (t.mac k)

/-! ## The collector -/

def deviceRow (line : List UInt8) : Option DeviceEntry :=
  match words [19, 7, 7, 19] (cString line) with
  | [ip, _, flags, mac] =>
    (dottedQuad ip).bind fun addr =>
      if flags = ascii "0x0" then none else some ⟨addr, .ofText mac⟩
  | _ => none

def deviceRows (text : List UInt8) : List DeviceEntry :=
  readRows deviceRow maxTrackedDevices (lineStarts (afterLine text))

inductive Work where
  | ip (k : ℕ) (ip : IPv4Net)
  | mac (k : ℕ) (buf : MacBuf)
  | byte (k j : ℕ) (buf : MacBuf)
  | count (n : ℕ)

def worksFrom : ℕ → List DeviceEntry → List Work
  | _, [] => []
  | k, d :: rows => .ip k d.ip :: .mac k d.mac :: worksFrom (k + 1) rows

def macWorks (k : ℕ) (buf : MacBuf) : List Work := (List.range 18).map fun j => .byte k j buf

structure CollectorPass where
  todo : List Work
  changed : Bool
  prevCnt : ℕ

/-! ## The page -/

structure Card where
  ip : IPv4Net
  mac : List UInt8

inductive PagePhase where
  | idle
  | counted (cnt : ℕ)
  | drawing (cards : List Card) (part : Option Card)

/-- `DevicePage`; the cards are painted when `refresh` has returned. -/
structure DevicePage where
  lastDeviceCount : ℕ := 255
  lastDeviceTableRevision : UInt64 := 0
  shown : List Card := []
  phase : PagePhase := .idle

/-- One access of `DevicePage::refresh` to the table. The text of an address is read up to its NUL:
`QString::arg` gets a pointer into the table, and it is assumed to read the bytes behind it once
each and in order. -/
def DevicePage.step (t : DeviceSlots) (revision : UInt64) (p : DevicePage) : DevicePage :=
  match p.phase with
  | .idle => { p with phase := .counted t.count }
  | .counted cnt =>
    if cnt = p.lastDeviceCount ∧ revision = p.lastDeviceTableRevision then
      { p with phase := .idle }
    else
      { p with
        lastDeviceCount := cnt
        lastDeviceTableRevision := revision
        phase := .drawing [] none }
  | .drawing cards none =>
    if cards.length < p.lastDeviceCount then
      { p with phase := .drawing cards (some ⟨t.ip cards.length, []⟩) }
    else { p with shown := cards, phase := .idle }
  | .drawing cards (some card) =>
    let b := t.mac cards.length card.mac.length
    if b = 0 then { p with phase := .drawing (cards ++ [card]) none }
    else { p with phase := .drawing cards (some { card with mac := card.mac ++ [b] }) }

/-! ## Both threads -/

structure DeviceState where
  slots : DeviceSlots := {}
  revision : UInt64 := 0
  pass : Option CollectorPass := none
  page : DevicePage := {}
  scanned : List UInt8 := []

inductive DeviceTurn where
  | scan (file : Option (List UInt8))
  | collect
  | page

namespace DeviceState

def collect (s : DeviceState) (p : CollectorPass) : DeviceState :=
  match p.todo with
  | [] => { s with revision := if p.changed then s.revision + 1 else s.revision, pass := none }
  | .ip k ip :: todo =>
    if s.slots.ip k ≠ ip then
      { s with
        slots := { s.slots with ip := Function.update s.slots.ip k ip }
        pass := some { p with todo, changed := true } }
    else { s with pass := some { p with todo } }
  | .mac k buf :: todo =>
    if s.slots.macBytes k ≠ buf.bytes then
      { s with pass := some { p with todo := macWorks k buf ++ todo, changed := true } }
    else { s with pass := some { p with todo } }
  | .byte k j buf :: todo =>
    { s with
      slots := { s.slots with
        mac := Function.update s.slots.mac k
          (Function.update (s.slots.mac k) j (buf.bytes.getD j 0)) }
      pass := some { p with todo } }
  | .count n :: todo =>
    { s with
      slots := { s.slots with count := n }
      pass := some { p with todo, changed := p.changed || n ≠ p.prevCnt } }

def step (s : DeviceState) : DeviceTurn → DeviceState
  | .scan file =>
    match s.pass with
    | some _ => s
    | none =>
      let text := procText 4095 file
      if text = [] then s
      else
        let rows := deviceRows text
        { s with
          pass := some ⟨worksFrom 0 rows ++ [.count rows.length], false, s.slots.count⟩
          scanned := text }
  | .collect =>
    match s.pass with
    | none => s
    | some p => s.collect p
  | .page => { s with page := s.page.step s.slots s.revision }

end DeviceState

/-! ## What a pass leaves -/

namespace DeviceSlots

def perform (t : DeviceSlots) : Work → DeviceSlots
  | .ip k ip => { t with ip := Function.update t.ip k ip }
  | .mac k buf =>
    { t with
      mac := Function.update t.mac k fun j => if j < 18 then buf.bytes.getD j 0 else t.mac k j }
  | .byte k j buf =>
    { t with mac := Function.update t.mac k (Function.update (t.mac k) j (buf.bytes.getD j 0)) }
  | .count n => { t with count := n }

def finish (t : DeviceSlots) (todo : List Work) : DeviceSlots := todo.foldl perform t

structure Shows (t : DeviceSlots) (rows : List DeviceEntry) : Prop where
  count : t.count = rows.length
  slot : ∀ i d, rows[i]? = some d → t.ip i = d.ip ∧ t.macBytes i = d.mac.bytes

theorem finish_cons (t : DeviceSlots) (w : Work) (todo : List Work) :
    t.finish (w :: todo) = (t.perform w).finish todo := rfl

theorem finish_append (t : DeviceSlots) (ws ws' : List Work) :
    t.finish (ws ++ ws') = (t.finish ws).finish ws' := List.foldl_append

theorem finish_bytes (t : DeviceSlots) (k : ℕ) (buf : MacBuf) (n : ℕ) :
    t.finish ((List.range n).map fun j => .byte k j buf) =
      { t with
        mac := Function.update t.mac k fun j =>
          if j < n then buf.bytes.getD j 0 else t.mac k j } := by
  induction n with
  | zero =>
    have hsame : (fun j => if j < 0 then buf.bytes.getD j 0 else t.mac k j) = t.mac k := rfl
    rw [hsame, Function.update_eq_self]
    rfl
  | succ n ih =>
    rw [List.range_succ, List.map_append, finish_append, ih]
    simp only [List.map_cons, List.map_nil, finish, List.foldl_cons, List.foldl_nil, perform,
      Function.update_self, Function.update_idem]
    congr 2
    funext j
    rcases lt_trichotomy j n with hj | rfl | hj
    · rw [Function.update_of_ne hj.ne, if_pos hj, if_pos (Nat.lt_succ_of_lt hj)]
    · rw [Function.update_self, if_pos (Nat.lt_succ_self j)]
    · rw [Function.update_of_ne hj.ne', if_neg (by omega), if_neg (by omega)]

theorem getD_of_macBytes {t : DeviceSlots} {k : ℕ} {buf : MacBuf} (h : t.macBytes k = buf.bytes)
    {j : ℕ} (hj : j < 18) : buf.bytes.getD j 0 = t.mac k j := by
  rw [← h, macBytes, List.getD_eq_getElem?_getD, List.getElem?_map, List.getElem?_range hj]
  rfl

theorem perform_mac_of_eq {t : DeviceSlots} {k : ℕ} {buf : MacBuf}
    (h : t.macBytes k = buf.bytes) : t.perform (.mac k buf) = t := by
  have hsame : (fun j => if j < 18 then buf.bytes.getD j 0 else t.mac k j) = t.mac k := by
    funext j
    split_ifs with hj
    · exact getD_of_macBytes h hj
    · rfl
  rw [perform, hsame, Function.update_eq_self]

theorem macBytes_perform (t : DeviceSlots) (k : ℕ) (buf : MacBuf) :
    (t.perform (.mac k buf)).macBytes k = buf.bytes := by
  refine List.ext_getElem? fun j => ?_
  rw [macBytes, List.getElem?_map]
  by_cases hj : j < 18
  · rw [List.getElem?_range hj, Option.map_some, perform]
    dsimp only
    rw [Function.update_self, if_pos hj, List.getD_eq_getElem?_getD,
      List.getElem?_eq_getElem (by rw [buf.length_eq]; exact hj), Option.getD_some]
  · rw [List.getElem?_eq_none (by rw [List.length_range]; omega), Option.map_none,
      List.getElem?_eq_none (by rw [buf.length_eq]; omega)]

theorem finish_worksFrom (t : DeviceSlots) (k : ℕ) (rows : List DeviceEntry) :
    (∀ i < k, (t.finish (worksFrom k rows)).ip i = t.ip i ∧
      (t.finish (worksFrom k rows)).mac i = t.mac i) ∧
    ∀ i d, rows[i]? = some d → (t.finish (worksFrom k rows)).ip (k + i) = d.ip ∧
      (t.finish (worksFrom k rows)).macBytes (k + i) = d.mac.bytes := by
  induction rows generalizing t k with
  | nil => exact ⟨fun _ _ => ⟨rfl, rfl⟩, fun _ _ h => by cases h⟩
  | cons e rows ih =>
    rw [worksFrom, finish_cons, finish_cons]
    obtain ⟨hkept, hrows⟩ := ih ((t.perform (.ip k e.ip)).perform (.mac k e.mac)) (k + 1)
    refine ⟨fun i hi => ?_, fun i d hd => ?_⟩
    · obtain ⟨hip, hmac⟩ := hkept i (by omega)
      rw [hip, hmac]
      exact ⟨Function.update_of_ne hi.ne _ _, Function.update_of_ne hi.ne _ _⟩
    · cases i with
      | zero =>
        obtain rfl : e = d := Option.some.inj hd
        obtain ⟨hip, hmac⟩ := hkept k (Nat.lt_succ_self k)
        have hbytes := congrArg (List.map · (List.range 18)) hmac
        exact ⟨hip.trans (Function.update_self ..), hbytes.trans (macBytes_perform _ k e.mac)⟩
      | succ i =>
        have hrow := hrows i d hd
        rwa [Nat.add_right_comm] at hrow

theorem shows_of_works (t : DeviceSlots) (rows : List DeviceEntry) :
    (t.finish (worksFrom 0 rows ++ [.count rows.length])).Shows rows := by
  rw [finish_append]
  refine ⟨rfl, fun i d hd => ?_⟩
  have hrow := (t.finish_worksFrom 0 rows).2 i d hd
  rw [Nat.zero_add] at hrow
  exact hrow

end DeviceSlots
end Hpgtp
