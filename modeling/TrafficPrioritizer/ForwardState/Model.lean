import Mathlib.Tactic.Simps.Basic
import TrafficPrioritizer.ForwardEngine.Pipeline
import TrafficPrioritizer.Lib.DoubleBuffer
import TrafficPrioritizer.Network.ProcFiles
import TrafficPrioritizer.NetworkConfig.PrefixLength

/-! The forwarding state: two snapshots of what the kernel knows about the link layer, of which the
workers use one while the other is refreshed. What the kernel answers is an input. -/

namespace Hpgtp
open Text Network

def isInvalidNatWan (a : IPv4Net) : Bool := a.raw = 0 ∨ ntohl a.raw >>> 24 = 127

def resolveNatWanIp (ifaceWan : List UInt8) (addr : Option IPv4Net) :
    Except (List UInt8) IPv4Net :=
  let s := getLocalIp addr
  if s = [] then
    .error (ascii "No IPv4 on WAN interface " ++ ifaceWan ++
      ascii " (assign the WAN address with NetworkManager so the kernel owns it)")
  else match parseIpStr s with
    | .error e => .error (ascii "WAN address parse failed: " ++ ascii e)
    | .ok ip =>
      if isInvalidNatWan ip then .error (ascii "WAN interface has unusable address: " ++ s)
      else .ok ip

/-- What the kernel answers during one `refresh_l2`. The routes are read a second time when none of
them is a default route of the WAN interface. -/
structure L2Calls where
  lanHw : Option Mac
  wanHw : Option Mac
  wanNetmask : NetmaskCalls
  wanAddr : Option IPv4Net
  route : Option (List UInt8)
  routeAgain : Option (List UInt8)
  arp : Option (List UInt8)

namespace L2Calls

def wanPrefixLen (k : L2Calls) : Int := (getIfaceIpv4PrefixLen 33 k.wanNetmask).getD (-1)

def wanIpNbo (ifaceWan : List UInt8) (k : L2Calls) : UInt32 :=
  match resolveNatWanIp ifaceWan k.wanAddr with
  | .ok ip => ip.raw
  | .error _ => 0

def wanCfgValid (ifaceWan : List UInt8) (k : L2Calls) : Bool :=
  k.wanIpNbo ifaceWan ≠ 0 && !isInvalidNatWan ⟨k.wanIpNbo ifaceWan⟩ &&
    0 ≤ k.wanPrefixLen && k.wanPrefixLen ≤ 32

def gwIp (ifaceWan : List UInt8) (k : L2Calls) : List UInt8 :=
  let gw := getDefaultGatewayForIface ifaceWan k.route
  if gw = [] then getGatewayIp k.routeAgain else gw

def rows (k : L2Calls) : List ArpTableRow := readArpTable k.arp maxArp

theorem length_rows_le (k : L2Calls) : k.rows.length ≤ maxArp := by
  rw [rows, readArpTable, Scanf.readRows_eq_take]
  exact List.length_take_le _ _

def gwRow (ifaceWan : List UInt8) (k : L2Calls) : Option ArpTableRow :=
  if k.gwIp ifaceWan = [] then none
  else (dottedQuad (k.gwIp ifaceWan)).bind fun gw => k.rows.find? (·.ipNbo = gw.raw)

def ready (ifaceWan : List UInt8) (k : L2Calls) : Bool :=
  k.lanHw.isSome && k.wanHw.isSome && ((k.gwRow ifaceWan).isSome || k.wanCfgValid ifaceWan)

end L2Calls

namespace L2Snapshot

def blank : L2Snapshot where
  lanHw := Vector.replicate 6 0
  wanHw := Vector.replicate 6 0
  gwHw := Vector.replicate 6 0
  wanIpNbo := 0
  wanPrefixLen := -1
  arp _ := {}
  arpCount := 0
  gwHwValid := false
  wanCfgValid := false
  defaultGwIpConfigured := false
  ready := false
  arpCount_le := Nat.zero_le _

/-- What `refresh_l2` makes of the snapshot it writes to. An address that the kernel does not give
and the entries behind the last row stay what they were. -/
@[simps]
def refresh (ifaceWan : List UInt8) (s : L2Snapshot) (k : L2Calls) : L2Snapshot where
  lanHw := k.lanHw.getD s.lanHw
  wanHw := k.wanHw.getD s.wanHw
  gwHw := ((k.gwRow ifaceWan).map ArpTableRow.mac).getD s.gwHw
  wanIpNbo := k.wanIpNbo ifaceWan
  wanPrefixLen := k.wanPrefixLen
  arp i := (k.rows[i.val]?.map fun r => ⟨r.ipNbo, r.mac⟩).getD (s.arp i)
  arpCount := k.rows.length
  gwHwValid := (k.gwRow ifaceWan).isSome
  wanCfgValid := k.wanCfgValid ifaceWan
  defaultGwIpConfigured := k.gwIp ifaceWan ≠ []
  ready := k.ready ifaceWan
  arpCount_le := k.length_rows_le

end L2Snapshot

structure ForwardingState where
  snap : Fin 2 → L2Snapshot
  active : Fin 2

namespace ForwardingState

def init : ForwardingState := ⟨fun _ => .blank, ⟨0, Nat.two_pos⟩⟩

def snapshot (p : ForwardingState) : L2Snapshot := p.snap p.active

def refreshL2 (ifaceWan : List UInt8) (p : ForwardingState) (k : L2Calls) : ForwardingState :=
  let w := DoubleBuffer.other p.active
  ⟨Function.update p.snap w ((p.snap w).refresh ifaceWan k), w⟩

theorem snapshot_refreshL2 (ifaceWan : List UInt8) (p : ForwardingState) (k : L2Calls) :
    (p.refreshL2 ifaceWan k).snapshot = (p.snap (DoubleBuffer.other p.active)).refresh ifaceWan k :=
  Function.update_self ..

end ForwardingState

/-! ## What a refreshed snapshot says -/

theorem findSome?_getElem? {α β : Type*} (f : α → Option β) {n : ℕ} {rows : List α}
    (hn : rows.length ≤ n) :
    (Fin.findSome? fun i : Fin n => rows[i.val]?.bind f) = rows.findSome? f := by
  induction rows generalizing n with
  | nil =>
    rw [List.findSome?_nil, Fin.findSome?_eq_none_iff]
    exact fun i => rfl
  | cons r rows ih =>
    cases n with
    | zero => exact absurd hn (Nat.not_succ_le_zero _)
    | succ n =>
      rw [Fin.findSome?_succ, List.findSome?_cons, ← ih (Nat.le_of_succ_le_succ hn)]
      show (f r).or _ = _
      cases f r <;> rfl

namespace L2Calls

def neighbour (k : L2Calls) (ip : UInt32) : Option Mac :=
  (k.rows.find? (·.ipNbo = ip)).map ArpTableRow.mac

end L2Calls

namespace L2Snapshot
variable (ifaceWan : List UInt8) (s : L2Snapshot) (k : L2Calls)

theorem resolveMac_refresh (ip : UInt32) :
    (s.refresh ifaceWan k).resolveMac ip = k.neighbour ip := by
  have hrows (rows : List ArpTableRow) :
      rows.findSome? (fun r => if r.ipNbo = ip then some r.mac else none) =
        (rows.find? (·.ipNbo = ip)).map ArpTableRow.mac := by
    induction rows with
    | nil => rfl
    | cons r rows ih =>
      rw [List.findSome?_cons, List.find?_cons]
      by_cases hr : r.ipNbo = ip <;> simp [hr, ih]
  rw [L2Calls.neighbour, ← hrows, ← findSome?_getElem? _ k.length_rows_le, resolveMac]
  congr 1
  funext i
  -- the entries that are looked at are the rows of this refresh
  rcases Nat.lt_or_ge i.val k.rows.length with hi | hi
  · simp only [refresh_arpCount, refresh_arp, List.getElem?_eq_getElem hi, hi, true_and,
      Option.map_some, Option.getD_some, Option.bind_some]
  · simp only [refresh_arpCount, List.getElem?_eq_none hi, Nat.not_lt.mpr hi, false_and, if_false,
      Option.bind_none]

end L2Snapshot
end Hpgtp
