import TrafficPrioritizer.ForwardState.Model

/-! Where a frame is sent after a refresh. The rewrite depends on the last answers of the kernel
alone, though the snapshot still holds parts of an older one; and when the answers are the kernel's
tables in print, it is the next hop that the tables name. -/

namespace Hpgtp
open LabelledRun Text Network

/-! ## The last answers decide -/

namespace L2Calls

def onLink (ifaceWan : List UInt8) (k : L2Calls) (dst : IPv4Net) : Bool :=
  k.wanCfgValid ifaceWan && ipv4InSubnet dst k.wanPrefixLen ⟨k.wanIpNbo ifaceWan⟩

def nextHop (ifaceWan : List UInt8) (k : L2Calls) (dst : IPv4Net) : Option Mac :=
  if k.onLink ifaceWan dst then k.neighbour dst.raw else (k.gwRow ifaceWan).map ArpTableRow.mac

end L2Calls

def addressed (pkt : ParsedPacket) (eth : ℕ) (src dest : Option Mac) : Option ParsedPacket :=
  src.bind fun src => dest.map fun dest => (pkt.storeMac (eth + 6) src).storeMac eth dest

theorem L2Calls.gwIp_ne_nil {ifaceWan : List UInt8} {k : L2Calls}
    (h : (k.gwRow ifaceWan).isSome = true) : k.gwIp ifaceWan ≠ [] := by
  intro hnil
  rw [gwRow, if_pos hnil] at h
  cases h

theorem lanToWan_refresh (ifaceWan : List UInt8) (s : L2Snapshot) (k : L2Calls)
    {pkt : ParsedPacket} {eth ip : ℕ} (heth : pkt.eth = some eth) (hip : pkt.ipv4 = some ip) :
    let dst := IPv4Header.daddr pkt.rawSpan ip
    ethRewriteLanToWan true (s.refresh ifaceWan k) pkt =
      if k.ready ifaceWan && ipv4NeedsEthRewriteForForward dst then
        addressed pkt eth k.wanHw (k.nextHop ifaceWan dst)
      else some pkt := by
  intro dst
  have hgw : (k.gwRow ifaceWan).isSome = true → k.gwIp ifaceWan ≠ [] := L2Calls.gwIp_ne_nil
  have hwan : k.ready ifaceWan = true → ∃ m, k.wanHw = some m := by
    intro hready
    rw [L2Calls.ready, Bool.and_eq_true, Bool.and_eq_true] at hready
    exact Option.isSome_iff_exists.mp hready.1.2
  unfold ethRewriteLanToWan
  rw [heth, hip]
  simp only [L2Snapshot.refresh_ready, L2Snapshot.refresh_wanCfgValid,
    L2Snapshot.refresh_wanPrefixLen, L2Snapshot.refresh_wanIpNbo, L2Snapshot.refresh_wanHw,
    L2Snapshot.refresh_defaultGwIpConfigured, L2Snapshot.refresh_gwHwValid,
    L2Snapshot.refresh_gwHw, L2Snapshot.resolveMac_refresh]
  rw [show IPv4Header.daddr pkt.rawSpan ip = dst from rfl, ← L2Calls.onLink, L2Calls.nextHop]
  generalize k.ready ifaceWan = ready at *
  generalize ipv4NeedsEthRewriteForForward dst = needs
  cases ready with
  | false => rfl
  | true =>
    obtain ⟨m, hm⟩ := hwan rfl
    rw [hm]
    cases needs with
    | false => rfl
    | true =>
      cases k.onLink ifaceWan dst with
      | true => rfl
      | false =>
        cases hrow : k.gwRow ifaceWan with
        | none => simp [addressed]
        | some row =>
          rw [hrow] at hgw
          simp [addressed, hgw rfl]

theorem wanToLan_refresh (ifaceWan : List UInt8) (s : L2Snapshot) (k : L2Calls)
    {pkt : ParsedPacket} {eth ip : ℕ} (heth : pkt.eth = some eth) (hip : pkt.ipv4 = some ip) :
    let dst := IPv4Header.daddr pkt.rawSpan ip
    ethRewriteWanToLan true (s.refresh ifaceWan k) pkt =
      if k.ready ifaceWan && ipv4NeedsEthRewriteForForward dst then
        (addressed pkt eth k.lanHw (k.neighbour dst.raw)).getD pkt
      else pkt := by
  intro dst
  have hlan : k.ready ifaceWan = true → ∃ m, k.lanHw = some m := by
    intro hready
    rw [L2Calls.ready, Bool.and_eq_true, Bool.and_eq_true] at hready
    exact Option.isSome_iff_exists.mp hready.1.1
  unfold ethRewriteWanToLan
  rw [heth, hip]
  dsimp only
  rw [L2Snapshot.resolveMac_refresh, L2Snapshot.refresh_ready, L2Snapshot.refresh_lanHw,
    show IPv4Header.daddr pkt.rawSpan ip = dst from rfl]
  generalize k.ready ifaceWan = ready at *
  generalize ipv4NeedsEthRewriteForForward dst = needs
  cases ready with
  | false => rfl
  | true =>
    obtain ⟨m, hm⟩ := hlan rfl
    rw [hm]
    cases needs with
    | false => rfl
    | true => cases k.neighbour dst.raw <;> rfl

theorem lanToWan_of_refresh (ifaceWan : List UInt8) (s s' : L2Snapshot) (k : L2Calls)
    (enableNat : Bool) (pkt : ParsedPacket) :
    ethRewriteLanToWan enableNat (s.refresh ifaceWan k) pkt =
      ethRewriteLanToWan enableNat (s'.refresh ifaceWan k) pkt := by
  cases enableNat with
  | false => simp only [ethRewriteLanToWan, Bool.not_false, if_true]
  | true =>
    rcases heth : pkt.eth with _ | eth
    · simp only [ethRewriteLanToWan, heth]
    · rcases hip : pkt.ipv4 with _ | ip
      · simp only [ethRewriteLanToWan, heth, hip]
      · rw [lanToWan_refresh ifaceWan s k heth hip, lanToWan_refresh ifaceWan s' k heth hip]

theorem wanToLan_of_refresh (ifaceWan : List UInt8) (s s' : L2Snapshot) (k : L2Calls)
    (enableNat : Bool) (pkt : ParsedPacket) :
    ethRewriteWanToLan enableNat (s.refresh ifaceWan k) pkt =
      ethRewriteWanToLan enableNat (s'.refresh ifaceWan k) pkt := by
  cases enableNat with
  | false => simp only [ethRewriteWanToLan, Bool.not_false, if_true]
  | true =>
    rcases heth : pkt.eth with _ | eth
    · simp only [ethRewriteWanToLan, heth]
    · rcases hip : pkt.ipv4 with _ | ip
      · simp only [ethRewriteWanToLan, heth, hip]
      · rw [wanToLan_refresh ifaceWan s k heth hip, wanToLan_refresh ifaceWan s' k heth hip]

/-- After any refreshes, whatever the kernel answered to them, both workers rewrite as if the last
one had been made on an empty snapshot: nothing that an earlier refresh left reaches a frame. -/
theorem rewrites_use_last_answers (ifaceWan : List UInt8) (ks : List L2Calls) (k : L2Calls)
    (enableNat : Bool) (pkt : ParsedPacket) :
    let s := (exec (ForwardingState.refreshL2 ifaceWan) .init (ks ++ [k])).snapshot
    let fresh := L2Snapshot.blank.refresh ifaceWan k
    ethRewriteLanToWan enableNat s pkt = ethRewriteLanToWan enableNat fresh pkt ∧
      ethRewriteWanToLan enableNat s pkt = ethRewriteWanToLan enableNat fresh pkt := by
  intro s fresh
  set p := exec (ForwardingState.refreshL2 ifaceWan) .init ks
  have hs : s = (p.snap (DoubleBuffer.other p.active)).refresh ifaceWan k := by
    rw [← ForwardingState.snapshot_refreshL2]
    exact congrArg ForwardingState.snapshot (exec_append ..)
  rw [hs]
  exact ⟨lanToWan_of_refresh ifaceWan _ _ k enableNat pkt,
    wanToLan_of_refresh ifaceWan _ _ k enableNat pkt⟩

/-! ## The kernel's tables -/

/-- What the kernel knows: the hardware addresses of the two interfaces, the address of the WAN
interface with its prefix length, the routes, and the neighbours in one buffer. -/
structure KernelTables where
  lanHw : Option Mac
  wanHw : Option Mac
  wan : Option (IPv4Net × Fin 33)
  routes : RouteTable
  neighbours : ProcTable ArpLine
  neighbours_fit : (neighbours.text ArpLine.text).length ≤ 65535

namespace KernelTables

@[simps wanNetmask wanAddr]
def calls (t : KernelTables) : L2Calls where
  lanHw := t.lanHw
  wanHw := t.wanHw
  wanNetmask := ⟨true, t.wan.map fun w => htonl (netmask w.2)⟩
  wanAddr := t.wan.map Prod.fst
  route := some (t.routes.text RouteLine.text)
  routeAgain := some (t.routes.text RouteLine.text)
  arp := some (t.neighbours.text ArpLine.text)

def usableWan (t : KernelTables) : Option (IPv4Net × Fin 33) :=
  t.wan.filter fun w => !isInvalidNatWan w.1 && w.2 ≠ 0

def onLink (t : KernelTables) (dst : IPv4Net) : Bool :=
  t.usableWan.any fun w => ipv4InSubnet dst w.2.val w.1

def defaultRoutes (t : KernelTables) : List RouteLine :=
  (t.routes.lines.take 15).filter fun l => l.dest = 0

def gateway (t : KernelTables) (ifaceWan : List UInt8) : Option UInt32 :=
  ((t.defaultRoutes.find? fun l => l.iface.bytes = ifaceWan ∧ l.gw ≠ 0).or
    t.defaultRoutes.head?).map RouteLine.gw

def neighbour (t : KernelTables) (ip : UInt32) : Option Mac :=
  (((t.neighbours.lines.filterMap ArpLine.row?).take maxArp).find? (·.ipNbo = ip)).map
    ArpTableRow.mac

def nextHop (t : KernelTables) (ifaceWan : List UInt8) (dst : IPv4Net) : Option UInt32 :=
  if t.onLink dst then some dst.raw else t.gateway ifaceWan

def ready (t : KernelTables) (ifaceWan : List UInt8) : Bool :=
  t.lanHw.isSome && t.wanHw.isSome &&
    (((t.gateway ifaceWan).bind t.neighbour).isSome || t.usableWan.isSome)

def forwardToWan (t : KernelTables) (ifaceWan : List UInt8) (pkt : ParsedPacket) :
    Option ParsedPacket :=
  match pkt.eth, pkt.ipv4 with
  | some eth, some ip =>
    let dst := IPv4Header.daddr pkt.rawSpan ip
    if t.ready ifaceWan && ipv4NeedsEthRewriteForForward dst then
      addressed pkt eth t.wanHw ((t.nextHop ifaceWan dst).bind t.neighbour)
    else some pkt
  | _, _ => some pkt

def forwardToLan (t : KernelTables) (ifaceWan : List UInt8) (pkt : ParsedPacket) : ParsedPacket :=
  match pkt.eth, pkt.ipv4 with
  | some eth, some ip =>
    let dst := IPv4Header.daddr pkt.rawSpan ip
    if t.ready ifaceWan && ipv4NeedsEthRewriteForForward dst then
      (addressed pkt eth t.lanHw (t.neighbour dst.raw)).getD pkt
    else pkt
  | _, _ => pkt

theorem neighbour_calls (t : KernelTables) : t.calls.neighbour = t.neighbour := by
  funext ip
  have hrows : t.calls.rows = _ := readArpTable_whole t.neighbours maxArp t.neighbours_fit
  rw [L2Calls.neighbour, hrows]
  rfl

theorem ipToStr_ne_nil (ip : IPv4Net) : ipToStr ip ≠ [] := (ipWord ip).ne_nil

theorem findSome?_gateway? (accepts : List UInt8 → UInt32 → Bool) (lines : List RouteLine) :
    lines.findSome? (RouteLine.gateway? accepts) =
      ((lines.filter fun l => l.dest = 0).find? fun l => accepts l.iface.bytes l.gw).map fun l =>
        ipToStr ⟨l.gw⟩ := by
  induction lines with
  | nil => rfl
  | cons l lines ih =>
    rw [List.findSome?_cons, ih, RouteLine.gateway?]
    by_cases hdest : l.dest = 0
    · cases haccepts : accepts l.iface.bytes l.gw <;> simp [hdest, haccepts]
    · simp [hdest]

theorem gwIp_calls (t : KernelTables) (ifaceWan : List UInt8) :
    t.calls.gwIp ifaceWan = ((t.gateway ifaceWan).map fun gw => ipToStr ⟨gw⟩).getD [] := by
  have hiface : getDefaultGatewayForIface ifaceWan t.calls.route = ((t.defaultRoutes.find? fun l =>
      decide (l.iface.bytes = ifaceWan ∧ l.gw ≠ 0)).map fun l => ipToStr ⟨l.gw⟩).getD [] := by
    rw [getDefaultGatewayForIface, calls, firstGateway_text, findSome?_gateway?]
    rfl
  have hany : getGatewayIp t.calls.routeAgain =
      (t.defaultRoutes.head?.map fun l => ipToStr ⟨l.gw⟩).getD [] := by
    rw [getGatewayIp, calls, firstGateway_text, findSome?_gateway?]
    show ((List.find? (fun _ => true) t.defaultRoutes).map _).getD [] = _
    cases t.defaultRoutes <;> rfl
  rw [L2Calls.gwIp, hiface, hany, gateway]
  cases t.defaultRoutes.find? fun l => decide (l.iface.bytes = ifaceWan ∧ l.gw ≠ 0) with
  | none =>
    rw [Option.map_none, Option.getD_none, if_pos rfl, Option.none_or]
    cases t.defaultRoutes.head? <;> rfl
  | some l => exact if_neg (ipToStr_ne_nil _)

theorem gwRow_calls (t : KernelTables) (ifaceWan : List UInt8) :
    (t.calls.gwRow ifaceWan).map ArpTableRow.mac = (t.gateway ifaceWan).bind t.neighbour := by
  rw [L2Calls.gwRow, gwIp_calls, ← neighbour_calls]
  cases t.gateway ifaceWan with
  | none => rfl
  | some gw =>
    rw [Option.map_some, Option.getD_some, if_neg (ipToStr_ne_nil _), dottedQuad_ipToStr]
    rfl

theorem wanPrefixLen_calls (t : KernelTables) : t.calls.wanPrefixLen =
    (t.wan.map fun w => if w.2 = 0 then -1 else (w.2.val : Int)).getD (-1) := by
  rw [L2Calls.wanPrefixLen, calls_wanNetmask]
  rcases t.wan with _ | ⟨ip, q⟩
  · rfl
  · by_cases hq : q = 0
    · rw [hq, Option.map_some, show netmask (0 : Fin 33) = 0 by decide]
      rfl
    · have hpos : 1 ≤ q.val := Nat.pos_of_ne_zero fun h => hq (Fin.ext h)
      rw [Option.map_some, prefixLen_of_netmask hpos (Nat.le_of_lt_succ q.isLt) rfl (by decide)]
      simp [hq]

theorem wanIpNbo_calls (t : KernelTables) (ifaceWan : List UInt8) : t.calls.wanIpNbo ifaceWan =
    ((t.wan.filter fun w => !isInvalidNatWan w.1).map fun w => w.1.raw).getD 0 := by
  rw [L2Calls.wanIpNbo, calls_wanAddr]
  rcases t.wan with _ | ⟨ip, q⟩
  · rfl
  · have hlocal : getLocalIp (some ip) = ipToStr ip := rfl
    rw [Option.map_some, resolveNatWanIp, hlocal]
    rw [if_neg (ipToStr_ne_nil ip), parseIpStr_ipToStr, Option.filter_some]
    cases hbad : isInvalidNatWan ip <;> simp [hbad]

theorem isInvalidNatWan_zero : isInvalidNatWan ⟨0⟩ = true := by decide

theorem wanCfgValid_calls (t : KernelTables) (ifaceWan : List UInt8) :
    t.calls.wanCfgValid ifaceWan = t.usableWan.isSome := by
  rw [L2Calls.wanCfgValid, wanIpNbo_calls, wanPrefixLen_calls, usableWan]
  rcases t.wan with _ | ⟨ip, q⟩
  · rfl
  · have hq := q.isLt
    rw [Option.filter_some, Option.filter_some]
    cases hbad : isInvalidNatWan ip with
    | true => simp
    | false =>
      have hne : ip.raw ≠ 0 := by
        intro h
        rw [show ip = ⟨0⟩ from congrArg IPv4Net.mk h, isInvalidNatWan_zero] at hbad
        cases hbad
      by_cases hzero : q = 0
      · simp [hbad, hzero]
      · simp [hbad, hzero, hne]
        omega

theorem onLink_calls (t : KernelTables) (ifaceWan : List UInt8) (dst : IPv4Net) :
    t.calls.onLink ifaceWan dst = t.onLink dst := by
  rw [L2Calls.onLink, wanCfgValid_calls, onLink]
  rcases husable : t.usableWan with _ | ⟨ip, q⟩
  · rfl
  · have hwan : t.wan = some (ip, q) ∧ (!isInvalidNatWan ip && decide (q ≠ 0)) = true :=
      Option.filter_eq_some_iff.mp husable
    obtain ⟨hwan, husable⟩ := hwan
    rw [Bool.and_eq_true, decide_eq_true_eq, Bool.not_eq_true'] at husable
    rw [wanIpNbo_calls, wanPrefixLen_calls, hwan, Option.filter_some]
    simp [husable.1, husable.2]

theorem ready_calls (t : KernelTables) (ifaceWan : List UInt8) :
    t.calls.ready ifaceWan = t.ready ifaceWan := by
  rw [L2Calls.ready, ready, ← gwRow_calls, wanCfgValid_calls, Option.isSome_map]
  rfl

theorem nextHop_calls (t : KernelTables) (ifaceWan : List UInt8) (dst : IPv4Net) :
    t.calls.nextHop ifaceWan dst = (t.nextHop ifaceWan dst).bind t.neighbour := by
  rw [L2Calls.nextHop, onLink_calls, gwRow_calls, neighbour_calls, nextHop]
  cases t.onLink dst <;> rfl

end KernelTables

/-- From the kernel's tables to the frame: after a refresh with the printed tables, upstream a
frame is sent to the next hop that they name and is dropped if its neighbour is not resolved, and
downstream it is sent to the neighbour it is for, or on as it is. While the tables do not make the
snapshot ready, and for an address that needs no rewrite, a frame passes unchanged. -/
theorem forwarding_follows_kernel_tables (ifaceWan : List UInt8) (p : ForwardingState)
    (t : KernelTables) (pkt : ParsedPacket) :
    let s := (p.refreshL2 ifaceWan t.calls).snapshot
    ethRewriteLanToWan true s pkt = t.forwardToWan ifaceWan pkt ∧
      ethRewriteWanToLan true s pkt = t.forwardToLan ifaceWan pkt := by
  intro s
  have hs : s = _ := ForwardingState.snapshot_refreshL2 ifaceWan p t.calls
  rw [hs, KernelTables.forwardToWan, KernelTables.forwardToLan]
  rcases heth : pkt.eth with _ | eth
  · simp only [ethRewriteLanToWan, ethRewriteWanToLan, heth]
    exact ⟨rfl, rfl⟩
  · rcases hip : pkt.ipv4 with _ | ip
    · simp only [ethRewriteLanToWan, ethRewriteWanToLan, heth, hip]
      exact ⟨rfl, rfl⟩
    · rw [lanToWan_refresh ifaceWan _ _ heth hip, wanToLan_refresh ifaceWan _ _ heth hip,
        KernelTables.ready_calls, KernelTables.nextHop_calls, KernelTables.neighbour_calls]
      exact ⟨rfl, rfl⟩

end Hpgtp
