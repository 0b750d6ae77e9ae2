import TrafficPrioritizer.ForwardState.Model
import TrafficPrioritizer.Lib.DoubleBuffer
import TrafficPrioritizer.NatEngine.Frames
import Mathlib.Data.List.Sort

/-! The workers rewrite frames while `refresh_l2` runs on another core. Here both are taken apart
into their accesses to the snapshots, a hardware address byte by byte, and run in any order. The
refreshes are taken one at a time. No lock sees to that: the call in `App::start` is assumed to be
over when the watchdog, whose thread has then been started, makes its first one after five
seconds. -/

namespace Hpgtp
open LabelledRun SharedMemory DoubleBuffer Network Text

/-! ## The fields of a snapshot -/

inductive MacField
  | lanHw
  | wanHw
  | gwHw
  | arp (i : Fin maxArp)
  deriving DecidableEq

inductive L2Field
  | mac (m : MacField) (j : Fin 6)
  | wanIpNbo
  | wanPrefixLen
  | arpIp (i : Fin maxArp)
  | arpCount
  | gwHwValid
  | wanCfgValid
  | defaultGwIpConfigured
  | ready
  deriving DecidableEq

abbrev L2Field.Val : L2Field → Type
  | .mac _ _ => UInt8
  | .wanIpNbo | .arpIp _ => UInt32
  | .wanPrefixLen => Int
  | .arpCount => ℕ
  | .gwHwValid | .wanCfgValid | .defaultGwIpConfigured | .ready => Bool

namespace L2Snapshot

def mac (s : L2Snapshot) : MacField → Mac
  | .lanHw => s.lanHw
  | .wanHw => s.wanHw
  | .gwHw => s.gwHw
  | .arp i => (s.arp i).mac

def fields (s : L2Snapshot) : ∀ f : L2Field, f.Val
  | .mac m j => (s.mac m).get j
  | .wanIpNbo => s.wanIpNbo
  | .wanPrefixLen => s.wanPrefixLen
  | .arpIp i => (s.arp i).ipNbo
  | .arpCount => s.arpCount
  | .gwHwValid => s.gwHwValid
  | .wanCfgValid => s.wanCfgValid
  | .defaultGwIpConfigured => s.defaultGwIpConfigured
  | .ready => s.ready

end L2Snapshot

def ForwardingState.buffers (p : ForwardingState) : Buffers L2Field.Val :=
  ⟨fun b => (p.snap b).fields, p.active⟩

/-! ## The writer -/

abbrev L2Store := Σ f : L2Field, f.Val

def storeMac (m : MacField) (mac : Mac) : List L2Store :=
  (List.finRange 6).map fun j => ⟨.mac m j, mac.get j⟩

namespace L2Calls
variable (ifaceWan : List UInt8) (k : L2Calls)

def hwStores : List L2Store :=
  k.lanHw.toList.flatMap (storeMac .lanHw) ++ k.wanHw.toList.flatMap (storeMac .wanHw)

def wanStores : List L2Store :=
  [⟨.wanPrefixLen, k.wanPrefixLen⟩, ⟨.wanIpNbo, k.wanIpNbo ifaceWan⟩,
    ⟨.wanCfgValid, k.wanCfgValid ifaceWan⟩,
    ⟨.defaultGwIpConfigured, decide (k.gwIp ifaceWan ≠ [])⟩]

def gwStores : List L2Store :=
  ⟨.gwHwValid, false⟩ ::
    (k.gwRow ifaceWan).toList.flatMap fun row => storeMac .gwHw row.mac ++ [⟨.gwHwValid, true⟩]

def arpStores : List L2Store :=
  ⟨.arpCount, k.rows.length⟩ :: (List.finRange maxArp).flatMap fun i =>
    k.rows[i.val]?.toList.flatMap fun row => ⟨.arpIp i, row.ipNbo⟩ :: storeMac (.arp i) row.mac

def stores : List L2Store :=
  k.hwStores ++ k.wanStores ifaceWan ++ k.gwStores ifaceWan ++ k.arpStores ++
    [⟨.ready, k.ready ifaceWan⟩]

end L2Calls

theorem mem_storeMac {m : MacField} {mac : Mac} {f : L2Field} :
    f ∈ (storeMac m mac).map Sigma.fst ↔ ∃ j, .mac m j = f := by
  simp [storeMac]

theorem fill_storeMac (r : ∀ f : L2Field, f.Val) (m : MacField) (mac : Mac) (j : Fin 6) :
    Buffers.fill r (storeMac m mac) (.mac m j) = mac.get j :=
  Buffers.fill_map (fun _ _ h => (L2Field.mac.inj h).2) _ r (List.mem_finRange j)

section
variable {ifaceWan : List UInt8} {k : L2Calls} (r : ∀ f : L2Field, f.Val) (j : Fin 6)

theorem fill_lanHw : Buffers.fill r k.hwStores (.mac .lanHw j) =
    (k.lanHw.map fun mac => mac.get j).getD (r (.mac .lanHw j)) := by
  rw [L2Calls.hwStores, Buffers.fill_append_left]
  · cases k.lanHw with
    | none => rfl
    | some mac =>
      rw [Option.toList_some, List.flatMap_singleton]
      exact fill_storeMac r .lanHw mac j
  · simp [mem_storeMac, List.map_flatMap]

theorem fill_wanHw : Buffers.fill r k.hwStores (.mac .wanHw j) =
    (k.wanHw.map fun mac => mac.get j).getD (r (.mac .wanHw j)) := by
  rw [L2Calls.hwStores, Buffers.fill_append_right]
  · cases k.wanHw with
    | none => rfl
    | some mac =>
      rw [Option.toList_some, List.flatMap_singleton]
      exact fill_storeMac r .wanHw mac j
  · simp [mem_storeMac, List.map_flatMap]

theorem fill_gwHw : Buffers.fill r (k.gwStores ifaceWan) (.mac .gwHw j) =
    (((k.gwRow ifaceWan).map ArpTableRow.mac).map fun mac => mac.get j).getD (r (.mac .gwHw j)) := by
  rw [L2Calls.gwStores, ← List.singleton_append, Buffers.fill_append_right (by simp)]
  cases k.gwRow ifaceWan with
  | none => rfl
  | some row =>
    rw [Option.toList_some, List.flatMap_singleton, Buffers.fill_append_left (by simp)]
    exact fill_storeMac r .gwHw row.mac j

theorem fill_gwHwValid :
    Buffers.fill r (k.gwStores ifaceWan) .gwHwValid = (k.gwRow ifaceWan).isSome := by
  rw [L2Calls.gwStores]
  cases k.gwRow ifaceWan with
  | none => exact Buffers.fill_cons_self (by simp)
  | some row =>
    -- found, so the last store counts
    rw [Option.toList_some, List.flatMap_singleton, ← List.cons_append, Buffers.fill_append]
    exact Buffers.fill_cons_self (by simp)

theorem fill_arp {f : L2Field} {i : Fin maxArp} (hcount : f ≠ .arpCount)
    (h : ∀ i', i' ≠ i → .arpIp i' ≠ f ∧ ∀ j, .mac (.arp i') j ≠ f) :
    Buffers.fill r k.arpStores f = Buffers.fill r (k.rows[i.val]?.toList.flatMap fun row =>
      ⟨.arpIp i, row.ipNbo⟩ :: storeMac (.arp i) row.mac) f := by
  rw [L2Calls.arpStores, ← List.singleton_append, Buffers.fill_append_right (by simpa using hcount)]
  refine Buffers.fill_flatMap (fun i' hi' => ?_) r (List.mem_finRange i) (List.nodup_finRange _)
  obtain ⟨hip, hmac⟩ := h i' hi'
  simp [List.map_flatMap, mem_storeMac, hip.symm, hmac]

theorem fill_arpIp (i : Fin maxArp) : Buffers.fill r k.arpStores (.arpIp i) =
    (k.rows[i.val]?.map ArpTableRow.ipNbo).getD (r (.arpIp i)) := by
  rw [fill_arp r (by simp) (i := i) fun i' hi' => ⟨by simpa using hi', by simp⟩]
  cases k.rows[i.val]? with
  | none => rfl
  | some row =>
    rw [Option.toList_some, List.flatMap_singleton]
    exact Buffers.fill_cons_self (by simp [mem_storeMac])

theorem fill_arpMac (i : Fin maxArp) : Buffers.fill r k.arpStores (.mac (.arp i) j) =
    (k.rows[i.val]?.map fun row => row.mac.get j).getD (r (.mac (.arp i) j)) := by
  rw [fill_arp r (by simp) (i := i) fun i' hi' => ⟨by simp, by simp [hi']⟩]
  cases k.rows[i.val]? with
  | none => rfl
  | some row =>
    rw [Option.toList_some, List.flatMap_singleton, ← List.singleton_append,
      Buffers.fill_append_right (by simp)]
    exact fill_storeMac r (.arp i) row.mac j

theorem fill_arpCount : Buffers.fill r k.arpStores .arpCount = k.rows.length :=
  Buffers.fill_cons_self (by simp [List.map_flatMap, mem_storeMac])

end

section
variable {ifaceWan : List UInt8} {k : L2Calls} {f : L2Field}

theorem notMem_hwStores (h : ∀ j, .mac .lanHw j ≠ f ∧ .mac .wanHw j ≠ f) :
    f ∉ k.hwStores.map Sigma.fst := by
  simp [L2Calls.hwStores, List.map_flatMap, mem_storeMac, h]

theorem notMem_gwStores (hvalid : f ≠ .gwHwValid) (h : ∀ j, .mac .gwHw j ≠ f) :
    f ∉ (k.gwStores ifaceWan).map Sigma.fst := by
  simp [L2Calls.gwStores, List.map_flatMap, mem_storeMac, hvalid, h]

theorem notMem_arpStores (hcount : f ≠ .arpCount) (hip : ∀ i, .arpIp i ≠ f)
    (hmac : ∀ i j, .mac (.arp i) j ≠ f) : f ∉ k.arpStores.map Sigma.fst := by
  simp [L2Calls.arpStores, List.map_flatMap, mem_storeMac, hcount, hmac, fun i => (hip i).symm]

end

theorem L2Snapshot.fields_refresh (ifaceWan : List UInt8) (s : L2Snapshot) (k : L2Calls) :
    (s.refresh ifaceWan k).fields = Buffers.fill s.fields (k.stores ifaceWan) := by
  funext f
  rw [L2Calls.stores]
  -- each field is stored by one of the five groups, if at all
  cases f with
  | ready =>
    rw [Buffers.fill_append]
    exact (Buffers.fill_cons_self (by simp)).symm
  | arpCount =>
    rw [Buffers.fill_append_left (by simp), Buffers.fill_append, fill_arpCount]
    rfl
  | arpIp i =>
    rw [Buffers.fill_append_left (by simp), Buffers.fill_append_right (by
      simp [notMem_hwStores, L2Calls.wanStores, notMem_gwStores]), fill_arpIp]
    show ((s.refresh ifaceWan k).arp i).ipNbo = _
    rw [refresh_arp]
    cases k.rows[i.val]? <;> rfl
  | gwHwValid =>
    rw [Buffers.fill_append_left (by simp), Buffers.fill_append_left (by simp [notMem_arpStores]),
      Buffers.fill_append, fill_gwHwValid]
    rfl
  | mac m j =>
    rw [Buffers.fill_append_left (by simp)]
    cases m with
    | arp i =>
      rw [Buffers.fill_append_right (by
        simp [notMem_hwStores, L2Calls.wanStores, notMem_gwStores]), fill_arpMac]
      show ((s.refresh ifaceWan k).arp i).mac.get j = _
      rw [refresh_arp]
      cases k.rows[i.val]? <;> rfl
    | gwHw =>
      rw [Buffers.fill_append_left (by simp [notMem_arpStores]), Buffers.fill_append_right (by
        simp [notMem_hwStores, L2Calls.wanStores]), fill_gwHw]
      show (s.refresh ifaceWan k).gwHw.get j = _
      rw [refresh_gwHw]
      cases k.gwRow ifaceWan <;> rfl
    | lanHw =>
      rw [Buffers.fill_append_left (by simp [notMem_arpStores]),
        Buffers.fill_append_left (by simp [notMem_gwStores]),
        Buffers.fill_append_left (by simp [L2Calls.wanStores]), fill_lanHw]
      show (s.refresh ifaceWan k).lanHw.get j = _
      rw [refresh_lanHw]
      cases k.lanHw <;> rfl
    | wanHw =>
      rw [Buffers.fill_append_left (by simp [notMem_arpStores]),
        Buffers.fill_append_left (by simp [notMem_gwStores]),
        Buffers.fill_append_left (by simp [L2Calls.wanStores]), fill_wanHw]
      show (s.refresh ifaceWan k).wanHw.get j = _
      rw [refresh_wanHw]
      cases k.wanHw <;> rfl
  | wanIpNbo | wanPrefixLen | wanCfgValid | defaultGwIpConfigured =>
    rw [Buffers.fill_append_left (by simp), Buffers.fill_append_left (by simp [notMem_arpStores]),
      Buffers.fill_append_left (by simp [notMem_gwStores]), Buffers.fill_append]
    rfl

theorem ForwardingState.buffers_refreshL2 (ifaceWan : List UInt8) (p : ForwardingState)
    (k : L2Calls) : (p.refreshL2 ifaceWan k).buffers = p.buffers.refresh (k.stores ifaceWan) := by
  have hbuf (b : Fin 2) : ((p.refreshL2 ifaceWan k).snap b).fields =
      Function.update (fun b => (p.snap b).fields) (other p.active)
        (Buffers.fill (p.snap (other p.active)).fields (k.stores ifaceWan)) b := by
    rw [← L2Snapshot.fields_refresh]
    exact Function.apply_update (fun _ => L2Snapshot.fields) p.snap _ _ b
  rw [buffers, Buffers.refresh, funext hbuf]
  rfl

theorem ForwardingState.buffers_after (ifaceWan : List UInt8) (p : ForwardingState)
    (ks : List L2Calls) (n : ℕ) : p.buffers.after (ks.map (L2Calls.stores ifaceWan)) n =
      (exec (refreshL2 ifaceWan) p (ks.take n)).buffers := by
  rw [Buffers.after, ← List.map_take]
  generalize ks.take n = ks
  induction ks generalizing p with
  | nil => rfl
  | cons k ks ih => rw [List.map_cons, exec_cons, exec_cons, ← buffers_refreshL2, ih]

/-! ## The readers -/

def loadField (f : L2Field) : Query L2Field.Val f.Val := .field f

def loadMac (m : MacField) : Query L2Field.Val Mac := do
  let a : UInt8 ← loadField (.mac m 0)
  let b : UInt8 ← loadField (.mac m 1)
  let c : UInt8 ← loadField (.mac m 2)
  let d : UInt8 ← loadField (.mac m 3)
  let e : UInt8 ← loadField (.mac m 4)
  let f : UInt8 ← loadField (.mac m 5)
  return #v[a, b, c, d, e, f]

def findArp (dst : UInt32) : List (Fin maxArp) → Query L2Field.Val (Option (Fin maxArp))
  | [] => return none
  | i :: is => do
    let arpCount : ℕ ← loadField .arpCount
    if i.val < arpCount then
      let ip : UInt32 ← loadField (.arpIp i)
      if ip = dst then return some i else findArp dst is
    else return none

def onLinkQuery (dst : IPv4Net) : Query L2Field.Val Bool := do
  let valid : Bool ← loadField .wanCfgValid
  if valid then
    let prefixLen : Int ← loadField .wanPrefixLen
    let ip : UInt32 ← loadField .wanIpNbo
    return ipv4InSubnet dst prefixLen ⟨ip⟩
  else return false

def lanToWanQuery (pkt : ParsedPacket) : Query L2Field.Val (Option ParsedPacket) := do
  let ready : Bool ← loadField .ready
  if !ready then return some pkt
  else
    match pkt.eth, pkt.ipv4 with
    | some eth, some ip =>
      let dst := IPv4Header.daddr pkt.rawSpan ip
      if !ipv4NeedsEthRewriteForForward dst then return some pkt
      else
        let onLink ← onLinkQuery dst
        let wanHw ← loadMac .wanHw
        let pkt := pkt.storeMac (eth + 6) wanHw
        if onLink then
          let entry ← findArp dst.raw (List.finRange maxArp)
          match entry with
          | none => return none
          | some i =>
            let nh ← loadMac (.arp i)
            return some (pkt.storeMac eth nh)
        else
          let configured : Bool ← loadField .defaultGwIpConfigured
          if !configured then return none
          else
            let valid : Bool ← loadField .gwHwValid
            if !valid then return none
            else
              let gwHw ← loadMac .gwHw
              return some (pkt.storeMac eth gwHw)
    | _, _ => return some pkt

def wanToLanQuery (pkt : ParsedPacket) : Query L2Field.Val ParsedPacket := do
  let ready : Bool ← loadField .ready
  if !ready then return pkt
  else
    match pkt.eth, pkt.ipv4 with
    | some eth, some ip =>
      let dst := IPv4Header.daddr pkt.rawSpan ip
      if !ipv4NeedsEthRewriteForForward dst then return pkt
      else
        let entry ← findArp dst.raw (List.finRange maxArp)
        match entry with
        | none => return pkt
        | some i =>
          let lanHw ← loadMac .lanHw
          let mac ← loadMac (.arp i)
          return (pkt.storeMac (eth + 6) lanHw).storeMac eth mac
    | _, _ => return pkt

inductive Rewrite
  | lanToWan (pkt : ParsedPacket)
  | wanToLan (pkt : ParsedPacket)

namespace Rewrite

def apply (s : L2Snapshot) : Rewrite → Option ParsedPacket
  | .lanToWan pkt => ethRewriteLanToWan true s pkt
  | .wanToLan pkt => some (ethRewriteWanToLan true s pkt)

def query : Rewrite → Query L2Field.Val (Option ParsedPacket)
  | .lanToWan pkt => lanToWanQuery pkt
  | .wanToLan pkt => do
    let pkt ← wanToLanQuery pkt
    return some pkt

end Rewrite

/-! ## What the readers would see of a snapshot that stays as it is -/

section
variable (s : L2Snapshot)

@[simp] theorem eval_loadField (f : L2Field) : (loadField f).eval s.fields = s.fields f := rfl

@[simp] theorem eval_loadMac (m : MacField) : (loadMac m).eval s.fields = s.mac m := by
  have hbyte (j : Fin 6) : Query.eval (α := UInt8) s.fields (loadField (.mac m j)) =
      (s.mac m).get j := rfl
  obtain ⟨a, b, c, d, e, f, hmac⟩ := exists_bytes (s.mac m)
  simp only [loadMac, Query.eval_bind, Query.eval_pure, hbyte, hmac]
  rfl

theorem eval_findArp (dst : UInt32) {is : List (Fin maxArp)} (hsorted : is.Pairwise (· < ·)) :
    (findArp dst is).eval s.fields =
      is.find? fun i => decide (i.val < s.arpCount ∧ (s.arp i).ipNbo = dst) := by
  induction is with
  | nil => rfl
  | cons i is ih =>
    obtain ⟨hi, his⟩ := List.pairwise_cons.mp hsorted
    have hcount : s.fields .arpCount = s.arpCount := rfl
    have hip : s.fields (.arpIp i) = (s.arp i).ipNbo := rfl
    rw [findArp, Query.eval_bind, eval_loadField, hcount, List.find?_cons]
    by_cases hlt : i.val < s.arpCount
    · rw [if_pos hlt, Query.eval_bind, eval_loadField, hip]
      by_cases heq : (s.arp i).ipNbo = dst <;> simp [hlt, heq, ih his]
    · -- no later entry is in use either
      rw [if_neg hlt, Query.eval_pure, eq_comm]
      simp only [hlt, false_and, decide_false, List.find?_eq_none]
      intro j hj
      have hij : i.val < j.val := hi j hj
      simp
      omega

theorem resolveMac_eq_find? (dst : UInt32) : s.resolveMac dst =
    ((findArp dst (List.finRange maxArp)).eval s.fields).map fun i => s.mac (.arp i) := by
  rw [eval_findArp s dst (List.sortedLT_finRange maxArp).pairwise, L2Snapshot.resolveMac,
    Fin.findSome?_eq_findSome?_finRange]
  induction List.finRange maxArp with
  | nil => rfl
  | cons i is ih =>
    rw [List.findSome?_cons, List.find?_cons, ih]
    by_cases hi : i.val < s.arpCount ∧ (s.arp i).ipNbo = dst
    · simp [hi]
      rfl
    · simp [hi]

theorem eval_onLinkQuery (dst : IPv4Net) : (onLinkQuery dst).eval s.fields =
    (s.wanCfgValid && ipv4InSubnet dst s.wanPrefixLen ⟨s.wanIpNbo⟩) := by
  have hvalid : s.fields .wanCfgValid = s.wanCfgValid := rfl
  rw [onLinkQuery, Query.eval_bind, eval_loadField, hvalid]
  cases s.wanCfgValid <;> rfl

theorem eval_lanToWanQuery (pkt : ParsedPacket) :
    (lanToWanQuery pkt).eval s.fields = ethRewriteLanToWan true s pkt := by
  have hready : s.fields .ready = s.ready := rfl
  have hconfigured : Query.eval (α := Bool) s.fields (loadField .defaultGwIpConfigured) =
      s.defaultGwIpConfigured := rfl
  have hvalid : Query.eval (α := Bool) s.fields (loadField .gwHwValid) = s.gwHwValid := rfl
  rw [lanToWanQuery, ethRewriteLanToWan, Query.eval_bind, eval_loadField, hready]
  rcases pkt.eth with _ | eth
  · cases s.ready <;> rfl
  rcases pkt.ipv4 with _ | ip
  · cases s.ready <;> rfl
  cases s.ready with
  | false => rfl
  | true =>
    dsimp only
    cases ipv4NeedsEthRewriteForForward (IPv4Header.daddr pkt.rawSpan ip) with
    | false => rfl
    | true =>
      rw [resolveMac_eq_find?]
      simp only [Bool.not_true, Bool.false_eq_true, if_false, Query.eval_bind, eval_onLinkQuery,
        eval_loadMac]
      cases s.wanCfgValid && ipv4InSubnet (IPv4Header.daddr pkt.rawSpan ip) s.wanPrefixLen
          ⟨s.wanIpNbo⟩ with
      | true =>
        simp only [if_true, Query.eval_bind]
        cases (findArp (IPv4Header.daddr pkt.rawSpan ip).raw (List.finRange maxArp)).eval
            s.fields with
        | none => rfl
        | some i =>
          simp only [Query.eval_bind, eval_loadMac, Query.eval_pure]
          rfl
      | false =>
        simp only [Bool.false_eq_true, if_false, Query.eval_bind, hconfigured]
        cases s.defaultGwIpConfigured with
        | false => rfl
        | true =>
          simp only [Bool.not_true, Bool.false_eq_true, if_false, Query.eval_bind, hvalid]
          cases s.gwHwValid with
          | false => rfl
          | true =>
            simp only [Bool.not_true, Bool.false_eq_true, if_false, Query.eval_bind, eval_loadMac]
            rfl

theorem eval_wanToLanQuery (pkt : ParsedPacket) :
    (wanToLanQuery pkt).eval s.fields = ethRewriteWanToLan true s pkt := by
  have hready : s.fields .ready = s.ready := rfl
  rw [wanToLanQuery, ethRewriteWanToLan, Query.eval_bind, eval_loadField, hready]
  rcases pkt.eth with _ | eth
  · cases s.ready <;> rfl
  rcases pkt.ipv4 with _ | ip
  · cases s.ready <;> rfl
  cases s.ready with
  | false => rfl
  | true =>
    dsimp only
    cases ipv4NeedsEthRewriteForForward (IPv4Header.daddr pkt.rawSpan ip) with
    | false => rfl
    | true =>
      rw [resolveMac_eq_find?]
      simp only [Bool.not_true, Bool.false_eq_true, if_false, Query.eval_bind]
      cases (findArp (IPv4Header.daddr pkt.rawSpan ip).raw (List.finRange maxArp)).eval
          s.fields with
      | none => rfl
      | some i =>
        simp only [Query.eval_bind, eval_loadMac, Query.eval_pure]
        rfl

theorem Rewrite.eval_query (r : Rewrite) : r.query.eval s.fields = r.apply s := by
  cases r with
  | lanToWan pkt => exact eval_lanToWanQuery s pkt
  | wanToLan pkt =>
    rw [query, Query.eval_bind, eval_wanToLanQuery]
    rfl

end

/-! ## Any order -/

def l2Machine {ι : Type} (ifaceWan : List UInt8) (ks : List L2Calls) (rewrite : ι → Rewrite) :
    Machine (system L2Field.Val ι (Option ParsedPacket)) :=
  start ForwardingState.init.buffers (ks.map (L2Calls.stores ifaceWan)) fun i => (rewrite i).query

/-- A worker takes no lock and loads the snapshot field by field while other refreshes go on. If no
more than one of them overlaps its work, it does to the frame what it would do with one of the
snapshots alone, and with one that was current at some moment of its work. -/
theorem rewrite_uses_one_snapshot {ι : Type} [DecidableEq ι] (ifaceWan : List UInt8)
    (ks : List L2Calls) (rewrite : ι → Rewrite)
    (before during : List (SharedMemory.Turn (system L2Field.Val ι (Option ParsedPacket)))) (i : ι)
    (hstart : .access (some i) ∉ before) (out : Option ParsedPacket) :
    let m := exec Machine.step (l2Machine ifaceWan ks rewrite) before
    let m' := exec Machine.step m during
    m'.prog (some i) = .ret out → begun m' ≤ published m + 1 →
      ∃ n, published m ≤ n ∧ n ≤ published m' ∧ out = (rewrite i).apply
        (exec (ForwardingState.refreshL2 ifaceWan) .init (ks.take n)).snapshot := by
  intro m m' hout hone
  have hrun : m' = exec Machine.step (l2Machine ifaceWan ks rewrite) (before ++ during) :=
    (exec_append ..).symm
  rw [hrun] at hout hone ⊢
  obtain ⟨n, hlow, hhigh, heval⟩ := answer_of_one_record _ _ _ before during hstart hout hone
  refine ⟨n, hlow, hhigh, ?_⟩
  rw [heval, ForwardingState.buffers_after, ← Rewrite.eval_query]
  rfl

def gatewayCalls (lanHw wanHw : Mac) (gwHw : String) : L2Calls where
  lanHw := some lanHw
  wanHw := some wanHw
  wanNetmask := ⟨false, none⟩
  wanAddr := none
  route := some (ascii "Iface Destination Gateway\neth0 00000000 017100CB\n")
  routeAgain := none
  arp := some (ascii "IP address\n203.0.113.1 0x1 0x2 " ++ ascii gwHw ++ ascii " * eth0\n")

/-- Both addresses change in a refresh that falls between the loads of `wan_hw` and of `gw_hw`; the
datagram leaves with the two addresses of the snapshot before. -/
theorem rewrite_uses_one_snapshot_between_loads :
    let eth0 := ascii "eth0"
    let ks := [gatewayCalls #v[2, 0, 0, 0, 1, 0] #v[2, 0, 0, 0, 1, 1] "02:00:00:00:01:02",
      gatewayCalls #v[2, 0, 0, 0, 2, 0] #v[2, 0, 0, 0, 2, 1] "02:00:00:00:02:02"]
    let pkt := ParsedPacket.parse (makeUdpPkt (octets 192 168 1 10) (octets 8 8 8 8) 5000 53)
    let m := exec Machine.step (l2Machine eth0 ks fun _ : Unit => .lanToWan pkt)
      (.replicate 35 (.access none))
    let m' := exec Machine.step m (.replicate 9 (.access (some ())) ++
      .replicate 35 (.access none) ++ .replicate 8 (.access (some ())))
    published m = 1 ∧ published m' = 2 ∧ ∃ out, m'.prog (some ()) = .ret out ∧
      out.map (fun p => p.rawSpan.take 12) = some [2, 0, 0, 0, 1, 2, 2, 0, 0, 0, 1, 1] ∧
      ∃ n, published m ≤ n ∧ n ≤ published m' ∧ out = (Rewrite.lanToWan pkt).apply
        (exec (ForwardingState.refreshL2 eth0) .init (ks.take n)).snapshot := by
  intro eth0 ks pkt m m'
  have hm : m = exec Machine.step (l2Machine eth0 ks fun _ : Unit => .lanToWan pkt)
      (.replicate 35 (.access none)) := rfl
  have hm' : m' = exec Machine.step m (.replicate 9 (.access (some ())) ++
      .replicate 35 (.access none) ++ .replicate 8 (.access (some ()))) := rfl
  have hcounts : published m = 1 ∧ published m' = 2 ∧ begun m' = 2 := by decide +kernel
  have hsent : (m'.prog (some ())).result.map (Option.map fun p => p.rawSpan.take 12) =
      some (some [2, 0, 0, 0, 1, 2, 2, 0, 0, 0, 1, 1]) := by decide +kernel
  have hrewrite (out : Option ParsedPacket) := rewrite_uses_one_snapshot eth0 ks
    (fun _ : Unit => .lanToWan pkt) (.replicate 35 (.access none))
    (.replicate 9 (.access (some ())) ++ .replicate 35 (.access none) ++
      .replicate 8 (.access (some ()))) () (by simp) out
  dsimp only at hrewrite
  rw [← hm, ← hm'] at hrewrite
  -- keep the two states from being evaluated again
  clear_value m' m
  obtain ⟨hfirst, hsecond, hbegun⟩ := hcounts
  obtain ⟨out, hresult, hbytes⟩ := Option.map_eq_some_iff.mp hsent
  have hout := Prog.eq_ret_of_result hresult
  exact ⟨hfirst, hsecond, out, hout, hbytes, hrewrite out hout (by rw [hbegun, hfirst])⟩

end Hpgtp
