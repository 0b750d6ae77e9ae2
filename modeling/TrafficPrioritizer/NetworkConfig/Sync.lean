import TrafficPrioritizer.Config.Model
import TrafficPrioritizer.DhcpEngine.ServedPool

/-! How the LAN interface and the DHCP gateway are brought in line with the pool,
and how a new pool is applied. What the interface calls return is an input. -/

namespace Hpgtp
open Text

/-- The calls of one `set_iface_ipv4_and_prefix`, with the text for a failure. Its last two calls,
which raise the interface, are not looked at. -/
structure IfaceCalls where
  socket : Bool
  setAddr : Bool
  setNetmask : Bool
  reason : String

def setIfaceIpv4AndPrefix (iface ipv4 : List UInt8) (prefixLen : ℕ) (k : IfaceCalls) :
    Bool × Option UInt32 :=
  if prefixLen = 0 ∨ 32 < prefixLen then (false, none)
  else if 16 ≤ iface.length then (false, none)
  else if !k.socket then (false, none)
  else if (dottedQuad (cString ipv4)).isNone then (false, none)
  else if !k.setAddr then (false, none)
  else if !k.setNetmask then (false, none)
  else (true, some (htonl (netmask prefixLen)))

def getLocalIp (addr : Option IPv4Net) : List UInt8 := (addr.map ipToStr).getD []

def parseKern (s : List UInt8) : Option IPv4Net :=
  if s = [] then none else (parseIpStr s).toOption

theorem parseKern_getLocalIp (addr : Option IPv4Net) : parseKern (getLocalIp addr) = addr := by
  cases addr with
  | none => rfl
  | some ip =>
    have hparse := parseIpStr_ipToStr ip
    have hne : ipToStr ip ≠ [] := by
      intro hnil
      rw [hnil] at hparse
      cases hparse
    show parseKern (ipToStr ip) = some ip
    rw [parseKern, if_neg hne, hparse]
    rfl

/-- What the interface does in one call of `sync`: the first set, which is made only when the
settings ask for it, the address read then, and the same once more. -/
structure SyncCalls where
  first : IfaceCalls
  firstAddr : Option IPv4Net
  second : IfaceCalls
  secondAddr : Option IPv4Net

structure Synced where
  result : Except String Unit
  dhcp : DhcpEngine
  installed : Option UInt32

namespace NetworkConfig

def inPoolSubnet (start : IPv4Net) (prefixLen : ℕ) (addr : Option IPv4Net) : Bool :=
  addr.any fun ip => ipv4InSubnet ip prefixLen start

def firstInstalled (c : Config) (k : SyncCalls) (prefixLen : ℕ) : Option UInt32 :=
  if c.applyRouterIpToLan then (setIfaceIpv4AndPrefix c.ifaceLan c.routerIp prefixLen k.first).2
  else none

def syncIface (c : Config) (k : SyncCalls) (dhcp : DhcpEngine) (start : IPv4Net) (prefixLen : ℕ)
    (router : IPv4Net) : Synced :=
  let installed := firstInstalled c k prefixLen
  match parseKern (getLocalIp k.firstAddr) with
  | some kern =>
    if ipv4InSubnet kern prefixLen start then ⟨.ok (), dhcp.setRouterIp kern, installed⟩
    else again installed
  | none => again installed
where
  again (installed : Option UInt32) : Synced :=
    if ipv4InSubnet router prefixLen start then
      let set := setIfaceIpv4AndPrefix c.ifaceLan c.routerIp prefixLen k.second
      let installed := set.2.or installed
      if !set.1 then ⟨.error ("set_iface ROUTER_IP: " ++ k.second.reason), dhcp, installed⟩
      else match parseKern (getLocalIp k.secondAddr) with
        | some kern =>
          if ipv4InSubnet kern prefixLen start then ⟨.ok (), dhcp.setRouterIp kern, installed⟩
          else noAddress installed
        | none => noAddress installed
    else
      ⟨.error ("ROUTER_IP is not in the DHCP pool subnet (derived /" ++ toString prefixLen ++
        "); fix ROUTER_IP or DHCP_POOL_*"), dhcp, installed⟩
  noAddress (installed : Option UInt32) : Synced :=
    ⟨.error ("IFACE_LAN has no IPv4 in the DHCP pool subnet; set APPLY_ROUTER_IP_TO_LAN=true " ++
      "with ROUTER_IP inside the pool subnet, or assign manually."), dhcp, installed⟩

def sync (c : Config) (k : SyncCalls) (dhcp : DhcpEngine) : Synced :=
  match parseIpStr c.dhcpPoolStart, parseIpStr c.dhcpPoolEnd with
  | .error e, _ => ⟨.error ("DHCP_POOL_START: " ++ e), dhcp, none⟩
  | .ok _, .error e => ⟨.error ("DHCP_POOL_END: " ++ e), dhcp, none⟩
  | .ok start, .ok stop =>
    if stop.toHost.raw < start.toHost.raw then
      ⟨.error "DHCP pool start is after pool end", dhcp, none⟩
    else
      let prefixLen := inferPrefixCoveringPool start stop
      if 32 < prefixLen then ⟨.error "invalid DHCP pool prefix derivation", dhcp, none⟩
      else match parseIpStr c.routerIp with
        | .error e => ⟨.error ("ROUTER_IP: " ++ e), dhcp, none⟩
        | .ok router => syncIface c k dhcp start prefixLen router

def allSucceed : IfaceCalls := ⟨true, true, true, ""⟩

def workingIface (addr : IPv4Net) : SyncCalls := ⟨allSucceed, some addr, allSucceed, some addr⟩

/-! ## What makes `sync` accept -/

def IfaceAccepts (c : Config) (k : SyncCalls) (start : IPv4Net) (prefixLen : ℕ)
    (router : IPv4Net) : Prop :=
  inPoolSubnet start prefixLen k.firstAddr = true ∨
    ipv4InSubnet router prefixLen start = true ∧
      (setIfaceIpv4AndPrefix c.ifaceLan c.routerIp prefixLen k.second).1 = true ∧
      inPoolSubnet start prefixLen k.secondAddr = true

def Accepts (c : Config) (k : SyncCalls) : Prop :=
  ∃ start stop router, parseIpStr c.dhcpPoolStart = .ok start ∧
    parseIpStr c.dhcpPoolEnd = .ok stop ∧ start.toHost.raw ≤ stop.toHost.raw ∧
    parseIpStr c.routerIp = .ok router ∧
    IfaceAccepts c k start (inferPrefixCoveringPool start stop) router

section
variable {c : Config} {k : SyncCalls} {dhcp : DhcpEngine} {start router : IPv4Net} {prefixLen : ℕ}

structure Outcome (accepts : Prop) (start : IPv4Net) (prefixLen : ℕ) (dhcp : DhcpEngine)
    (s : Synced) : Prop where
  ok : accepts → s.result = .ok () ∧
    ∃ kern, ipv4InSubnet kern prefixLen start = true ∧ s.dhcp = dhcp.setRouterIp kern
  error : ¬ accepts → (∃ e, s.result = .error e) ∧ s.dhcp = dhcp

theorem Outcome.of_ok {accepts : Prop} {kern : IPv4Net} (installed : Option UInt32)
    (h : accepts) (hkern : ipv4InSubnet kern prefixLen start = true) :
    Outcome accepts start prefixLen dhcp ⟨.ok (), dhcp.setRouterIp kern, installed⟩ where
  ok := fun _ => ⟨rfl, kern, hkern, rfl⟩
  error := fun hnot => absurd h hnot

theorem Outcome.of_error {accepts : Prop} (e : String) (installed : Option UInt32)
    (h : ¬ accepts) : Outcome accepts start prefixLen dhcp ⟨.error e, dhcp, installed⟩ where
  ok := fun haccepts => absurd haccepts h
  error := fun _ => ⟨⟨e, rfl⟩, rfl⟩

inductive IfaceEnd (c : Config) (k : SyncCalls) (dhcp : DhcpEngine) (start : IPv4Net)
    (prefixLen : ℕ) (router : IPv4Net) : Synced → Prop
  | first {kern : IPv4Net} (addr : k.firstAddr = some kern)
      (inside : ipv4InSubnet kern prefixLen start = true) :
      IfaceEnd c k dhcp start prefixLen router
        ⟨.ok (), dhcp.setRouterIp kern, firstInstalled c k prefixLen⟩
  | second {kern : IPv4Net} (foreign : ¬ inPoolSubnet start prefixLen k.firstAddr = true)
      (own : ipv4InSubnet router prefixLen start = true)
      (set : (setIfaceIpv4AndPrefix c.ifaceLan c.routerIp prefixLen k.second).1 = true)
      (addr : k.secondAddr = some kern) (inside : ipv4InSubnet kern prefixLen start = true) :
      IfaceEnd c k dhcp start prefixLen router
        ⟨.ok (), dhcp.setRouterIp kern, (setIfaceIpv4AndPrefix c.ifaceLan c.routerIp prefixLen
          k.second).2.or (firstInstalled c k prefixLen)⟩
  | refused (e : String) {installed : Option UInt32}
      (refuses : ¬ IfaceAccepts c k start prefixLen router)
      (written : installed = firstInstalled c k prefixLen ∨
        installed = (setIfaceIpv4AndPrefix c.ifaceLan c.routerIp prefixLen k.second).2.or
          (firstInstalled c k prefixLen)) :
      IfaceEnd c k dhcp start prefixLen router ⟨.error e, dhcp, installed⟩

theorem again_end (hfirst : ¬ inPoolSubnet start prefixLen k.firstAddr = true) :
    IfaceEnd c k dhcp start prefixLen router
      (syncIface.again c k dhcp start prefixLen router (firstInstalled c k prefixLen)) := by
  unfold syncIface.again
  split_ifs with hrouter
  · dsimp only
    by_cases hset : (setIfaceIpv4AndPrefix c.ifaceLan c.routerIp prefixLen k.second).1 = true
    · rw [hset, parseKern_getLocalIp]
      simp only [Bool.not_true, Bool.false_eq_true, if_false]
      rcases hsecond : k.secondAddr with _ | kern
      · refine .refused _ (fun h => ?_) (.inr rfl)
        obtain ⟨-, -, hin⟩ := h.resolve_left hfirst
        rw [hsecond] at hin
        cases hin
      · dsimp only
        split_ifs with hkern
        · exact .second hfirst hrouter hset hsecond hkern
        · refine .refused _ (fun h => hkern ?_) (.inr rfl)
          obtain ⟨-, -, hin⟩ := h.resolve_left hfirst
          rwa [hsecond] at hin
    · rw [Bool.not_eq_true] at hset
      rw [hset]
      refine .refused _ (fun h => ?_) (.inr rfl)
      obtain ⟨-, hset', -⟩ := h.resolve_left hfirst
      rw [hset] at hset'
      cases hset'
  · exact .refused _ (fun h => hrouter (h.resolve_left hfirst).1) (.inl rfl)

theorem syncIface_end (c : Config) (k : SyncCalls) (dhcp : DhcpEngine) (start : IPv4Net)
    (prefixLen : ℕ) (router : IPv4Net) :
    IfaceEnd c k dhcp start prefixLen router (syncIface c k dhcp start prefixLen router) := by
  unfold syncIface
  dsimp only
  rw [parseKern_getLocalIp]
  rcases hfirst : k.firstAddr with _ | kern
  · exact again_end (by rw [hfirst]; exact Bool.false_ne_true)
  · dsimp only
    split_ifs with hkern
    · exact .first hfirst hkern
    · exact again_end (by rw [hfirst]; exact hkern)

theorem inPoolSubnet_some {addr : Option IPv4Net} {kern : IPv4Net} (haddr : addr = some kern)
    (h : ipv4InSubnet kern prefixLen start = true) : inPoolSubnet start prefixLen addr = true := by
  rw [haddr]
  exact h

theorem IfaceEnd.outcome {s : Synced} (h : IfaceEnd c k dhcp start prefixLen router s) :
    Outcome (IfaceAccepts c k start prefixLen router) start prefixLen dhcp s := by
  cases h with
  | first haddr hin => exact .of_ok _ (.inl (inPoolSubnet_some haddr hin)) hin
  | second _ hrouter hset haddr hin =>
    exact .of_ok _ (.inr ⟨hrouter, hset, inPoolSubnet_some haddr hin⟩) hin
  | refused e hrefuses => exact .of_error e _ hrefuses

theorem setIface_installed {iface ipv4 : List UInt8} {calls : IfaceCalls} {m : UInt32}
    (h : m ∈ (setIfaceIpv4AndPrefix iface ipv4 prefixLen calls).2) :
    m = htonl (netmask prefixLen) := by
  unfold setIfaceIpv4AndPrefix at h
  split_ifs at h
  all_goals cases h
  rfl

theorem IfaceEnd.installed {s : Synced} (h : IfaceEnd c k dhcp start prefixLen router s)
    {m : UInt32} (hm : m ∈ s.installed) : m = htonl (netmask prefixLen) := by
  have hfirst : m ∈ firstInstalled c k prefixLen → m = htonl (netmask prefixLen) := by
    unfold firstInstalled
    split_ifs
    · exact setIface_installed
    · exact nofun
  have hor : m ∈ (setIfaceIpv4AndPrefix c.ifaceLan c.routerIp prefixLen k.second).2.or
      (firstInstalled c k prefixLen) → m = htonl (netmask prefixLen) := by
    intro hm
    rcases Option.or_eq_some_iff.mp hm with hm | ⟨-, hm⟩
    · exact setIface_installed hm
    · exact hfirst hm
  cases h with
  | first => exact hfirst hm
  | second => exact hor hm
  | refused e _ hwritten =>
    rcases hwritten with rfl | rfl
    · exact hfirst hm
    · exact hor hm

end

/-! ## The whole of `sync` -/

section
variable {c : Config} {k : SyncCalls} {start stop : IPv4Net}

theorem sync_of_pool (dhcp : DhcpEngine) {router : IPv4Net}
    (hstart : parseIpStr c.dhcpPoolStart = .ok start)
    (hstop : parseIpStr c.dhcpPoolEnd = .ok stop) (hle : start.toHost.raw ≤ stop.toHost.raw)
    (hrouter : parseIpStr c.routerIp = .ok router) :
    sync c k dhcp = syncIface c k dhcp start (inferPrefixCoveringPool start stop) router := by
  have hlen := (inferPrefixCoveringPool_common start stop).1
  unfold sync
  rw [hstart, hstop]
  dsimp only
  rw [if_neg (UInt32.not_lt.mpr hle), if_neg (Nat.not_lt.mpr hlen), hrouter]

theorem Accepts.parsed (h : Accepts c k) (hstart : parseIpStr c.dhcpPoolStart = .ok start)
    (hstop : parseIpStr c.dhcpPoolEnd = .ok stop) : start.toHost.raw ≤ stop.toHost.raw ∧
      ∃ router, parseIpStr c.routerIp = .ok router ∧
        IfaceAccepts c k start (inferPrefixCoveringPool start stop) router := by
  obtain ⟨start', stop', router, hstart', hstop', hle, hrouter, hiface⟩ := h
  obtain rfl := Except.ok.inj (hstart.symm.trans hstart')
  obtain rfl := Except.ok.inj (hstop.symm.trans hstop')
  exact ⟨hle, router, hrouter, hiface⟩

theorem sync_cases (c : Config) (k : SyncCalls) (dhcp : DhcpEngine) :
    (Accepts c k ∧ (sync c k dhcp).result = .ok () ∧
      ∃ kern, (sync c k dhcp).dhcp = dhcp.setRouterIp kern ∧
        ∀ start stop, parseIpStr c.dhcpPoolStart = .ok start → parseIpStr c.dhcpPoolEnd = .ok stop →
          ipv4InSubnet kern (inferPrefixCoveringPool start stop) start = true) ∨
    (¬ Accepts c k ∧ (∃ e, (sync c k dhcp).result = .error e) ∧ (sync c k dhcp).dhcp = dhcp) := by
  have hfail : ∀ e installed, ¬ Accepts c k → sync c k dhcp = ⟨.error e, dhcp, installed⟩ →
      ¬ Accepts c k ∧ (∃ e, (sync c k dhcp).result = .error e) ∧ (sync c k dhcp).dhcp = dhcp := by
    intro e installed hnot hsync
    rw [hsync]
    exact ⟨hnot, ⟨e, rfl⟩, rfl⟩
  rcases hstart : parseIpStr c.dhcpPoolStart with e | start
  · refine .inr (hfail _ _ ?_ (by rw [sync, hstart]))
    rintro ⟨_, _, _, h, -⟩
    rw [hstart] at h
    cases h
  rcases hstop : parseIpStr c.dhcpPoolEnd with e | stop
  · refine .inr (hfail _ _ ?_ (by rw [sync, hstart, hstop]))
    rintro ⟨_, _, _, -, h, -⟩
    rw [hstop] at h
    cases h
  rcases UInt32.le_or_lt start.toHost.raw stop.toHost.raw with hle | hlt
  · rcases hrouter : parseIpStr c.routerIp with e | router
    · refine .inr (hfail ("ROUTER_IP: " ++ e) none ?_ ?_)
      · intro h
        obtain ⟨-, router, hrouter', -⟩ := h.parsed hstart hstop
        rw [hrouter] at hrouter'
        cases hrouter'
      · have hlen := (inferPrefixCoveringPool_common start stop).1
        simp only [sync, hstart, hstop, hrouter, if_neg (UInt32.not_lt.mpr hle),
          if_neg (Nat.not_lt.mpr hlen)]
    · have hout :=
        (syncIface_end c k dhcp start (inferPrefixCoveringPool start stop) router).outcome
      rw [← sync_of_pool dhcp hstart hstop hle hrouter] at hout
      by_cases hiface : IfaceAccepts c k start (inferPrefixCoveringPool start stop) router
      · obtain ⟨hok, kern, hkern, hdhcp⟩ := hout.ok hiface
        refine .inl ⟨⟨start, stop, router, hstart, hstop, hle, hrouter, hiface⟩, hok, kern, hdhcp,
          fun start' stop' h h' => ?_⟩
        obtain rfl := Except.ok.inj h
        obtain rfl := Except.ok.inj h'
        exact hkern
      · refine .inr ⟨fun h => hiface ?_, hout.error hiface⟩
        obtain ⟨-, router', hrouter', hiface'⟩ := h.parsed hstart hstop
        obtain rfl := Except.ok.inj (hrouter.symm.trans hrouter')
        exact hiface'
  · refine .inr (hfail "DHCP pool start is after pool end" none ?_ ?_)
    · exact fun h => absurd (h.parsed hstart hstop).1 (UInt32.not_le.mpr hlt)
    · simp only [sync, hstart, hstop, if_pos hlt]

theorem sync_ok_iff (c : Config) (k : SyncCalls) (dhcp : DhcpEngine) :
    (sync c k dhcp).result = .ok () ↔ Accepts c k := by
  rcases sync_cases c k dhcp with ⟨h, hok, -⟩ | ⟨h, ⟨e, herror⟩, -⟩
  · exact iff_of_true hok h
  · refine iff_of_false (fun hok => ?_) h
    rw [herror] at hok
    cases hok

theorem sync_of_ok {dhcp : DhcpEngine} (hsync : (sync c k dhcp).result = .ok ()) :
    Accepts c k ∧ ∃ kern, (sync c k dhcp).dhcp = dhcp.setRouterIp kern ∧
      ∀ start stop, parseIpStr c.dhcpPoolStart = .ok start → parseIpStr c.dhcpPoolEnd = .ok stop →
        ipv4InSubnet kern (inferPrefixCoveringPool start stop) start = true := by
  rcases sync_cases c k dhcp with ⟨haccepts, -, hkern⟩ | ⟨-, ⟨e, herror⟩, -⟩
  · exact ⟨haccepts, hkern⟩
  · rw [hsync] at herror
    cases herror

theorem sync_serves (c : Config) (k : SyncCalls) {dhcp : DhcpEngine}
    (h : dhcp.Serves start stop) : (sync c k dhcp).dhcp.Serves start stop := by
  rcases sync_cases c k dhcp with ⟨-, -, kern, hdhcp, -⟩ | ⟨-, -, hdhcp⟩ <;> rw [hdhcp]
  · exact h.congr rfl fun _ => rfl
  · exact h

end
end NetworkConfig
end Hpgtp
