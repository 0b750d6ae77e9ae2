import TrafficPrioritizer.Config.Model

/-! What loading a saved configuration gives back. A line loses one carriage
return at its end, and a number is read as unsigned, so a setting that ends in a
carriage return or is negative does not survive. -/

namespace Hpgtp
open LabelledRun Text

/-! ## Values and lines -/

theorem parseFlag_printFlag (b : Bool) : parseFlag (printFlag b) = b := by
  cases b <;> decide

theorem trimCr_of_notMem {v : List UInt8} (h : 13 ∉ v) : trimCr v = v :=
  if_neg fun hlast => h (List.mem_of_getLast? hlast)

theorem trimCr_eq_self {v : List UInt8} : trimCr v = v ↔ v.getLast? ≠ some 13 := by
  unfold trimCr
  split_ifs with hlast
  · refine iff_of_false (fun heq => ?_) (not_not_intro hlast)
    have hlen := congrArg List.length heq
    have hne : v ≠ [] := by
      rintro rfl
      cases hlast
    rw [List.length_dropLast] at hlen
    have := List.length_pos_iff.mpr hne
    omega
  · exact iff_of_true rfl hlast

theorem trimCr_append {v : List UInt8} (k : List UInt8) {b : UInt8} (hb : b ≠ 13) :
    trimCr (k ++ b :: v) = k ++ b :: trimCr v := by
  rcases List.eq_nil_or_concat' v with rfl | ⟨v', x, rfl⟩
  · simp [trimCr, hb]
  · have hassoc : k ++ b :: (v' ++ [x]) = (k ++ b :: v') ++ [x] := by simp
    unfold trimCr
    rw [hassoc, List.getLast?_concat, List.getLast?_concat, List.dropLast_concat,
      List.dropLast_concat]
    split_ifs <;> simp

theorem trimCr_isPrefix (v : List UInt8) : trimCr v <+: v := by
  unfold trimCr
  split_ifs
  · exact List.dropLast_prefix v
  · exact List.prefix_refl v

namespace Key

theorem ofName_name (k : Key) : ofName k.name = some k := by
  cases k <;> decide

theorem name_plain (k : Key) : k.name ≠ [] ∧ k.name.head? ≠ some 35 ∧ k.name.length < 64 ∧
    61 ∉ k.name ∧ 0 ∉ k.name ∧ 10 ∉ k.name := by
  cases k <;> decide +kernel

end Key

theorem parseKv_append {k v : List UInt8} (hne : k ≠ []) (hlen : k.length < 64) (heq : 61 ∉ k)
    (hv : v.length ≤ 255) : parseKv (k ++ 61 :: v) = some (cString k, cString v) := by
  have hall : ∀ b ∈ k, decide (b ≠ 61) = true := fun b hb =>
    decide_eq_true (ne_of_mem_of_not_mem hb heq)
  have htake : (k ++ 61 :: v).takeWhile (· ≠ 61) = k := by
    rw [List.takeWhile_append_of_pos hall, List.takeWhile_cons_of_neg (by decide),
      List.append_nil]
  have hdrop : (k ++ 61 :: v).dropWhile (· ≠ 61) = 61 :: v := by
    rw [List.dropWhile_append_of_pos hall, List.dropWhile_cons_of_neg (by decide)]
  have hpos := List.length_pos_iff.mpr hne
  simp only [parseKv, htake, hdrop]
  rw [if_neg (by omega)]

namespace Config

theorem loadLine_entry (c : Config) (k : Key) {v : List UInt8} (hv : v.length ≤ 255)
    (hnul : 0 ∉ v) : c.loadLine (k.name ++ 61 :: v) = c.set k (trimCr v) := by
  obtain ⟨hne, hhash, hlen, heq, hnul', -⟩ := k.name_plain
  have hpre := trimCr_isPrefix v
  have hhead : (k.name ++ 61 :: trimCr v).head? ≠ some 35 := by
    rwa [List.head?_append_of_ne_nil _ hne]
  have hnonempty : k.name ++ 61 :: trimCr v ≠ [] := List.append_ne_nil_of_left_ne_nil hne _
  unfold loadLine
  -- the line is cut before it is split, so it is the value that loses a carriage return
  rw [trimCr_append _ (by decide)]
  dsimp only
  rw [if_pos ⟨hnonempty, hhead⟩, parseKv_append hne hlen heq (hpre.length_le.trans hv),
    cString_of_notMem hnul', cString_of_notMem fun h => hnul (hpre.subset h)]
  dsimp only
  rw [k.ofName_name]

/-! ## What a configuration can hold -/

structure PlainString (v : List UInt8) : Prop where
  length_le : v.length ≤ 255
  no_nul : 0 ∉ v
  no_newline : 10 ∉ v

structure Ok (c : Config) : Prop where
  strings : ∀ v ∈ c.strings, PlainString v
  lease : c.dhcpLeaseDuration < 2 ^ 32

theorem defaults_ok : Ok defaults where
  strings := by
    intro v hv
    have hplain : ∀ v ∈ defaults.strings, v.length ≤ 255 ∧ 0 ∉ v ∧ 10 ∉ v := by decide
    obtain ⟨hlen, hnul, hnl⟩ := hplain v hv
    exact ⟨hlen, hnul, hnl⟩
  lease := by decide

theorem parseKv_plain {line key val : List UInt8} (hline : 10 ∉ line)
    (h : parseKv line = some (key, val)) : PlainString val := by
  unfold parseKv at h
  dsimp only at h
  rcases hdrop : line.dropWhile (· ≠ 61) with _ | ⟨b, rest⟩
  · rw [hdrop] at h
    cases h
  · rw [hdrop] at h
    dsimp only at h
    split_ifs at h with hbad
    obtain ⟨-, rfl⟩ := Prod.mk.inj (Option.some.inj h)
    have hsub : ∀ x ∈ rest, x ∈ line := fun x hx =>
      (List.dropWhile_suffix _).subset (hdrop ▸ List.mem_cons_of_mem _ hx)
    refine ⟨(length_cString_le _).trans (by omega), notMem_cString _, fun hnl => ?_⟩
    exact hline (hsub _ (mem_of_mem_cString hnl))

theorem Ok.set {c : Config} (h : Ok c) (k : Key) {v : List UInt8} (hv : PlainString v) :
    Ok (c.set k v) := by
  obtain ⟨hstrings, hlease⟩ := h
  simp only [Config.strings, List.forall_mem_cons] at hstrings
  obtain ⟨h₁, h₂, h₃, h₄, h₅, -⟩ := hstrings
  have hparse := (parseU32 v).toNat_lt
  cases k <;> refine ⟨?_, by first | exact hlease | exact hparse⟩ <;>
    simp [Config.strings, Config.set, *]

theorem Ok.loadLine {c : Config} (h : Ok c) {raw : List UInt8} (hraw : 10 ∉ raw) :
    Ok (c.loadLine raw) := by
  unfold Config.loadLine
  dsimp only
  split_ifs
  · rcases hkv : parseKv (trimCr raw) with _ | ⟨key, val⟩
    · exact h
    · have hval := parseKv_plain (fun hnl => hraw ((trimCr_isPrefix raw).subset hnl)) hkv
      dsimp only
      rcases Key.ofName key with _ | k
      · exact h
      · exact h.set k hval
  · exact h

theorem Ok.loadBytes {c : Config} (h : Ok c) (file : List UInt8) : Ok (c.loadBytes file) := by
  have hall : ∀ l ∈ lines (file.take 8191), 10 ∉ l := fun l => notMem_of_mem_lines
  unfold Config.loadBytes
  generalize lines (file.take 8191) = ls at hall
  induction ls generalizing c with
  | nil => exact h
  | cons l ls ih =>
    obtain ⟨hl, hls⟩ := List.forall_mem_cons.mp hall
    exact ih (h.loadLine hl) hls

theorem plain_of_accepted {s : List UInt8} {ip : IPv4Net} (hquad : (dottedQuad s).isSome)
    (hparse : parseIpStr s = .ok ip) : PlainString s := by
  obtain ⟨ip', hip'⟩ := Option.isSome_iff_exists.mp hquad
  refine ⟨(length_le_of_parseIpStr hparse).trans (by decide), fun h0 => ?_, fun h10 => ?_⟩
  · exact absurd (dottedQuad_bytes hip' h0) (by decide)
  · exact absurd (dottedQuad_bytes hip' h10) (by decide)

theorem onApply_eq_some {c c' : Config} {e : DhcpEdit} (h : c.onApply e = some c') :
    ∃ start stop, (dottedQuad e.poolStart).isSome ∧ (dottedQuad e.poolEnd).isSome ∧
      parseIpStr e.poolStart = .ok start ∧ parseIpStr e.poolEnd = .ok stop ∧
      start.toHost.raw < stop.toHost.raw ∧
      c' = { c with
        dhcpPoolStart := e.poolStart, dhcpPoolEnd := e.poolEnd, dhcpLeaseDuration := e.seconds } := by
  unfold onApply at h
  split_ifs at h with hquad
  simp only [not_or, Option.isNone_iff_eq_none] at hquad
  rcases hstart : parseIpStr e.poolStart with _ | start <;>
    rcases hstop : parseIpStr e.poolEnd with _ | stop <;> rw [hstart, hstop] at h
  all_goals try cases h
  dsimp only at h
  split_ifs at h with horder
  refine ⟨start, stop, Option.isSome_iff_ne_none.mpr hquad.1,
    Option.isSome_iff_ne_none.mpr hquad.2, rfl, rfl, UInt32.not_le.mp horder, ?_⟩
  exact (Option.some.inj h).symm

theorem DhcpEdit.seconds_lt (e : DhcpEdit) : e.seconds < 2 ^ 32 := by
  have hdays := e.days.isLt
  have hhours := e.hours.isLt
  have hminutes := e.minutes.isLt
  unfold DhcpEdit.seconds
  dsimp only
  split_ifs
  · decide
  · omega

theorem Ok.step {c : Config} (h : Ok c) (op : Op) : Ok (c.step op) := by
  cases op with
  | load path file =>
    cases file with
    | absent => exact h
    | refused reason => exact h
    | contents bytes => exact h.loadBytes bytes
  | edit e =>
    show Ok ((c.onApply e).getD c)
    rcases hedit : c.onApply e with _ | c'
    · exact h
    · obtain ⟨start, stop, hs, hs', hstart, hstop, -, rfl⟩ := onApply_eq_some hedit
      have hstrings := h.strings
      simp only [Config.strings, List.forall_mem_cons] at hstrings
      obtain ⟨h₁, h₂, h₃, -, -, -⟩ := hstrings
      refine ⟨?_, e.seconds_lt⟩
      simp [Config.strings, h₁, h₂, h₃, plain_of_accepted hs hstart, plain_of_accepted hs' hstop]

/-! ## The round trip -/

theorem plain_decimal {n : ℕ} (h : n < 2 ^ 32) : PlainString (decimal n) := by
  have hlen : (decimal n).length ≤ 9 + 1 := length_decimal_le (h.trans (by decide))
  refine ⟨hlen.trans (by decide), fun h0 => ?_, fun h10 => ?_⟩
  · exact absurd (isDigit_of_mem_decimal h0) (by decide)
  · exact absurd (isDigit_of_mem_decimal h10) (by decide)

theorem plain_printFlag (b : Bool) : PlainString (printFlag b) := by
  cases b <;> exact ⟨by decide, by decide, by decide⟩

theorem natAbs_toInt_lt (p : Int32) : p.toInt.natAbs < 2 ^ 32 := by
  have hlt := p.toInt_lt
  have hle := p.le_toInt
  omega

theorem plain_printInt (p : Int32) : PlainString (printInt p.toInt) := by
  have hlt := natAbs_toInt_lt p
  obtain ⟨-, hnul, hnl⟩ := plain_decimal hlt
  have hlen : (decimal p.toInt.natAbs).length ≤ 9 + 1 := length_decimal_le (hlt.trans (by decide))
  unfold printInt
  split_ifs
  · refine ⟨by rw [List.length_cons]; omega, ?_, ?_⟩
    · simpa using hnul
    · simpa using hnl
  · exact ⟨by omega, hnul, hnl⟩

theorem Ok.value {c : Config} (h : Ok c) (k : Key) : PlainString (c.value k) := by
  obtain ⟨hstrings, hlease⟩ := h
  simp only [Config.strings, List.forall_mem_cons] at hstrings
  obtain ⟨h₁, h₂, h₃, h₄, h₅, -⟩ := hstrings
  have hc : ∀ {v : List UInt8}, PlainString v → PlainString (cString v) := fun hv => by
    rwa [cString_of_notMem hv.no_nul]
  cases k with
  | ifaceWan => exact hc h₁
  | ifaceLan => exact hc h₂
  | routerIp => exact hc h₃
  | applyRouterIpToLan => exact plain_printFlag _
  | lanPrefixLen => exact plain_printInt _
  | enableAcceleration => exact plain_printFlag _
  | largePacketThreshold => exact plain_decimal c.largePacketThreshold.toNat_lt
  | enableNat => exact plain_printFlag _
  | dhcpPoolStart => exact hc h₄
  | dhcpPoolEnd => exact hc h₅
  | dhcpLeaseSeconds => exact plain_decimal (Nat.mod_lt _ (by decide))

theorem length_saveBytes_le {c : Config} (h : Ok c) : c.saveBytes.length ≤ 8191 := by
  have hlines : ∀ l ∈ ascii "# Auto-saved on shutdown" :: Key.all.map c.savedLine,
      l.length ≤ 319 := by
    refine List.forall_mem_cons.mpr ⟨by decide, fun l hl => ?_⟩
    obtain ⟨k, -, rfl⟩ := List.mem_map.mp hl
    have hname := k.name_plain.2.2.1
    have hvalue := (h.value k).length_le
    rw [savedLine, List.length_append, List.length_cons]
    omega
  refine (length_unlines_le hlines).trans ?_
  rw [List.length_cons, List.length_map]
  decide

theorem lines_saveBytes {c : Config} (h : Ok c) :
    lines (c.saveBytes.take 8191) =
      ascii "# Auto-saved on shutdown" :: Key.all.map c.savedLine := by
  rw [List.take_of_length_le (length_saveBytes_le h)]
  refine lines_unlines (List.forall_mem_cons.mpr ⟨by decide, fun l hl => ?_⟩)
  obtain ⟨k, -, rfl⟩ := List.mem_map.mp hl
  have hname := k.name_plain.2.2.2.2.2
  have hvalue := (h.value k).no_newline
  simp [savedLine, hname, hvalue]

theorem foldl_savedLine {c : Config} (h : Ok c) (ks : List Key) (base : Config) :
    (ks.map c.savedLine).foldl loadLine base =
      ks.foldl (fun base k => base.set k (trimCr (c.value k))) base := by
  induction ks generalizing base with
  | nil => rfl
  | cons k ks ih =>
    rw [List.map_cons, List.foldl_cons, List.foldl_cons, savedLine,
      loadLine_entry base k (h.value k).length_le (h.value k).no_nul, ih]

theorem loadLine_comment (c : Config) : c.loadLine (ascii "# Auto-saved on shutdown") = c := by
  unfold loadLine
  exact if_neg (by decide)

theorem trimCr_decimal (n : ℕ) : trimCr (decimal n) = decimal n :=
  trimCr_of_notMem fun h => absurd (isDigit_of_mem_decimal h) (by decide)

theorem trimCr_printFlag (b : Bool) : trimCr (printFlag b) = printFlag b := by
  cases b <;> decide

theorem trimCr_printInt (v : ℤ) : trimCr (printInt v) = printInt v := by
  unfold printInt
  split_ifs
  · refine trimCr_of_notMem fun h => ?_
    rcases List.mem_cons.mp h with h | h
    · exact absurd h (by decide)
    · exact absurd (isDigit_of_mem_decimal h) (by decide)
  · exact trimCr_decimal _

theorem reread_prefix_iff (p : Int32) :
    (parseU32 (printInt p.toInt)).toInt32 = p ↔ 0 ≤ p.toInt := by
  unfold printInt
  split_ifs with hneg
  · refine iff_of_false (fun heq => ?_) (not_le_of_gt hneg)
    rw [parseU32_of_head _ (by decide)] at heq
    rw [← heq] at hneg
    exact absurd hneg (by decide)
  · refine iff_of_true ?_ (le_of_not_gt hneg)
    have hlt := p.toInt_lt
    rw [parseU32_decimal (natAbs_toInt_lt p), UInt32.toInt32_ofNat', ← Int32.toInt_inj,
      Int32.toInt_ofNat_of_lt (by omega)]
    omega

theorem loadBytes_saveBytes {c : Config} (h : Ok c) (base : Config) :
    base.loadBytes c.saveBytes =
      { c with
        ifaceWan := trimCr c.ifaceWan
        ifaceLan := trimCr c.ifaceLan
        routerIp := trimCr c.routerIp
        lanPrefixLen := (parseU32 (printInt c.lanPrefixLen.toInt)).toInt32
        dhcpPoolStart := trimCr c.dhcpPoolStart
        dhcpPoolEnd := trimCr c.dhcpPoolEnd } := by
  have hstrings := h.strings
  simp only [Config.strings, List.forall_mem_cons] at hstrings
  obtain ⟨h₁, h₂, h₃, h₄, h₅, -⟩ := hstrings
  rw [loadBytes, lines_saveBytes h, List.foldl_cons, loadLine_comment, foldl_savedLine h]
  -- every key is set once, so nothing of `base` is left
  simp only [Key.all, List.foldl_cons, List.foldl_nil, set, value, trimCr_decimal,
    trimCr_printFlag, trimCr_printInt, parseFlag_printFlag, cString_of_notMem h₁.no_nul,
    cString_of_notMem h₂.no_nul, cString_of_notMem h₃.no_nul, cString_of_notMem h₄.no_nul,
    cString_of_notMem h₅.no_nul, Nat.mod_eq_of_lt h.lease, parseU32_decimal h.lease,
    parseU32_decimal c.largePacketThreshold.toNat_lt, UInt32.ofNat_toNat,
    UInt32.toNat_ofNat_of_lt' h.lease]

/-- A configuration reached from the defaults by loads and edits comes back from its own file
exactly when its prefix length is not negative and none of its strings ends in a carriage
return. -/
theorem save_load_iff (path : String) (ops : List Op) :
    let c := exec step defaults ops
    (∀ base : Config, base.loadConfig path (.contents c.saveBytes) = (c, .ok ())) ↔
      0 ≤ c.lanPrefixLen.toInt ∧ ∀ v ∈ c.strings, v.getLast? ≠ some 13 := by
  intro c
  have hok : Ok c := invariant (fun _ op h => h.step op) ops defaults_ok
  simp only [Config.strings, List.forall_mem_cons, ← trimCr_eq_self, ← reread_prefix_iff]
  constructor
  · intro h
    have heq : c.loadBytes c.saveBytes = c := congrArg Prod.fst (h c)
    rw [loadBytes_saveBytes hok, Config.ext_iff] at heq
    obtain ⟨h₁, h₂, h₃, -, hlen, -, -, -, h₄, h₅, -⟩ := heq
    exact ⟨hlen, h₁, h₂, h₃, h₄, h₅, nofun⟩
  · intro ⟨hlen, h₁, h₂, h₃, h₄, h₅, _⟩ base
    rw [loadConfig, loadBytes_saveBytes hok, hlen, h₁, h₂, h₃, h₄, h₅]

/-- A prefix length of 2^32 - 1 is kept as -1, written as such and read back as 0. -/
theorem negative_prefix_lost :
    let c := exec step defaults
      [.load "config/config.txt" (.contents (ascii "LAN_PREFIX_LEN=4294967295"))]
    c.lanPrefixLen = -1 ∧
      (defaults.loadConfig "config/config.txt" (.contents c.saveBytes)).1.lanPrefixLen = 0 := by
  decide +kernel

end Config
end Hpgtp
