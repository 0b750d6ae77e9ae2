import Mathlib.Data.List.Infix
import TrafficPrioritizer.Config.Address
import TrafficPrioritizer.DhcpEngine.Model
import TrafficPrioritizer.Lib.Scanf

/-! The neighbours and the default route, read from the tables under `/proc/net`. One `read` fills
a buffer with as much of the text as it gives; the lines are then taken apart by `sscanf`. -/

namespace Hpgtp
open ByteBuffer Text Scanf

structure ArpTableRow where
  ipNbo : UInt32
  mac : Mac
  deriving DecidableEq

namespace Network

def procText (cap : ℕ) (file : Option (List UInt8)) : List UInt8 := (file.getD []).take cap

def parseMacColon (s : List UInt8) : Option Mac :=
  if s.length < 17 then none
  else
    match hexes 58 6 (cString (s.take 23)) with
    | [a, b, c, d, e, f] =>
      some #v[a.toUInt8, b.toUInt8, c.toUInt8, d.toUInt8, e.toUInt8, f.toUInt8]
    | _ => none

def arpRow (line : List UInt8) : Option ArpTableRow :=
  match words [31, 7, 7, 19] (cString line) with
  | [ip, _, flags, macStr] =>
    -- an entry without a flag is not resolved
    if flags = ascii "0x0" then none
    else (dottedQuad ip).bind fun addr => (parseMacColon macStr).map fun mac => ⟨addr.raw, mac⟩
  | _ => none

def readArpTable (file : Option (List UInt8)) (maxOut : ℕ) : List ArpTableRow :=
  readRows arpRow maxOut (lineStarts (afterLine (procText 65535 file)))

def defaultGateway (accepts : List UInt8 → UInt32 → Bool) (line : List UInt8) :
    Option (List UInt8) :=
  match words [31, 15, 15] (cString line) with
  | [iface, dest, gw] =>
    if dest = ascii "00000000" then
      (hex gw).bind fun (addr, _) => if accepts iface addr then some (ipToStr ⟨addr⟩) else none
    else none
  | _ => none

def firstGateway (accepts : List UInt8 → UInt32 → Bool) (file : Option (List UInt8)) :
    List UInt8 :=
  ((lineStarts (afterLine (procText 2047 file))).findSome? (defaultGateway accepts)).getD []

def getGatewayIp (file : Option (List UInt8)) : List UInt8 := firstGateway (fun _ _ => true) file

def getDefaultGatewayForIface (iface : List UInt8) (file : Option (List UInt8)) : List UInt8 :=
  firstGateway (fun ifn addr => ifn = iface ∧ addr ≠ 0) file

/-! ## The tables as they are printed -/

def macText (mac : Mac) : List UInt8 :=
  [58].intercalate (mac.toList.map fun b => hexDigits 97 2 b.toNat)

theorem exists_six {α : Type*} {l : List α} (h : l.length = 6) :
    ∃ a b c d e f, l = [a, b, c, d, e, f] := by
  match l, h with
  | [a, b, c, d, e, f], _ => exact ⟨a, b, c, d, e, f, rfl⟩

theorem exists_bytes (mac : Mac) : ∃ a b c d e f, mac = #v[a, b, c, d, e, f] := by
  obtain ⟨a, b, c, d, e, f, hlist⟩ := exists_six (l := mac.toList) (by simp)
  exact ⟨a, b, c, d, e, f, Vector.toList_inj.mp hlist⟩

theorem length_macText (mac : Mac) : (macText mac).length = 17 := by
  obtain ⟨a, b, c, d, e, f, rfl⟩ := exists_bytes mac
  simp [macText, List.intercalate, length_hexDigits]

theorem mem_macText {mac : Mac} {b : UInt8} (h : b ∈ macText mac) :
    (hexDigit b).isSome = true ∨ b = 58 := by
  rcases mem_intercalate h with rfl | ⟨l, hl, hb⟩
  · exact .inr rfl
  · obtain ⟨x, -, rfl⟩ := List.mem_map.mp hl
    exact .inl (hexDigit_of_mem (.inl rfl) hb)

theorem macText_plain {mac : Mac} {b : UInt8} (h : b ∈ macText mac) :
    isSpace b = false ∧ b ≠ 0 := by
  rcases mem_macText h with h | rfl
  · exact ⟨(plain_of_hexDigit h).1, (plain_of_hexDigit h).2.1⟩
  · decide

theorem parseMacColon_macText (mac : Mac) : parseMacColon (macText mac) = some mac := by
  have hlen := length_macText mac
  have hshort : (macText mac).take 23 = macText mac := List.take_of_length_le (by omega)
  have hnul : 0 ∉ macText mac := fun h => (macText_plain h).2 rfl
  have hhexes : hexes 58 6 (macText mac) = mac.toList.map fun b => UInt32.ofNat b.toNat := by
    have hbytes : ∀ n ∈ mac.toList.map UInt8.toNat, n < 16 ^ 2 := by
      intro n hn
      obtain ⟨b, -, rfl⟩ := List.mem_map.mp hn
      exact b.toNat_lt
    have h := hexes_intercalate (.inl rfl : IsLetter 97) (by decide : hexDigit 58 = none)
      (le_refl 2) (by decide) hbytes
    rw [List.length_map, Vector.length_toList, List.map_map, List.map_map] at h
    exact h
  rw [parseMacColon, if_neg (by omega), hshort, cString_of_notMem hnul, hhexes]
  obtain ⟨a, b, c, d, e, f, rfl⟩ := exists_bytes mac
  simp

def ipWord (ip : IPv4Net) : Word 31 where
  bytes := ipToStr ip
  ne_nil := by
    intro hnil
    have hquad := dottedQuad_ipToStr ip
    rw [hnil] at hquad
    cases hquad
  length_le := (length_ipToStr_le ip).trans (by decide)
  plain b hb := by
    rcases dottedQuad_bytes (dottedQuad_ipToStr ip) hb with hb | rfl
    · have hhex : (hexDigit b).isSome = true := by
        rw [hexDigit, if_pos (of_decide_eq_true hb)]
        rfl
      exact ⟨(plain_of_hexDigit hhex).1, (plain_of_hexDigit hhex).2.1⟩
    · decide

def macWord (mac : Mac) : Word 19 where
  bytes := macText mac
  ne_nil := fun hnil => by
    have hlen := length_macText mac
    rw [hnil] at hlen
    cases hlen
  length_le := (length_macText mac).trans_le (by decide)
  plain _ hb := macText_plain hb

structure ArpLine where
  ip : IPv4Net
  hwType : Word 7
  flags : Word 7
  mac : Mac
  gap : Fin 4 → Gap
  tail : List UInt8
  tail_plain : ∀ b ∈ tail, b ≠ 10 ∧ b ≠ 0

namespace ArpLine

def cells (l : ArpLine) : List Cell :=
  [⟨31, ipWord l.ip, l.gap 0⟩, ⟨7, l.hwType, l.gap 1⟩, ⟨7, l.flags, l.gap 2⟩,
    ⟨19, macWord l.mac, l.gap 3⟩]

def ipCell (l : ArpLine) : Cell where
  width := 19
  word := { ipWord l.ip with length_le := (length_ipToStr_le l.ip).trans (Nat.le_add_right 15 4) }
  gap := l.gap 0

def text (l : ArpLine) : List UInt8 := columns l.cells ++ l.tail

def row? (l : ArpLine) : Option ArpTableRow :=
  if l.flags.bytes = ascii "0x0" then none else some ⟨l.ip.raw, l.mac⟩

theorem text_plain {l : ArpLine} {b : UInt8} (hb : b ∈ l.text) : b ≠ 10 ∧ b ≠ 0 := by
  rcases List.mem_append.mp hb with hb | hb
  · exact columns_plain hb
  · exact l.tail_plain b hb

theorem words_text (l : ArpLine) (rest : List UInt8) :
    words [31, 7, 7, 19] (l.text ++ rest) =
      [ipToStr l.ip, l.hwType.bytes, l.flags.bytes] ++ [macText l.mac] := by
  rw [text, List.append_assoc]
  exact words_columns l.cells (l.tail ++ rest)

theorem row_of_words {l : ArpLine} {s : List UInt8} (h : words [31, 7, 7, 19] (cString s) =
    [ipToStr l.ip, l.hwType.bytes, l.flags.bytes] ++ [macText l.mac]) : arpRow s = l.row? := by
  rw [arpRow, h]
  dsimp only [List.cons_append, List.nil_append]
  rw [dottedQuad_ipToStr, parseMacColon_macText]
  rfl

theorem row_followed (l : ArpLine) (rest : List UInt8) : arpRow (l.text ++ rest) = l.row? := by
  have hnul : cString (l.text ++ rest) = l.text ++ cString rest :=
    List.takeWhile_append_of_pos fun b hb => decide_eq_true (text_plain hb).2
  exact row_of_words (by rw [hnul, words_text])

theorem row_cut (l : ArpLine) (k : ℕ) :
    arpRow (l.text.take k) = none ∨ arpRow (l.text.take k) = l.row? := by
  have hnul : cString (l.text.take k) = l.text.take k :=
    cString_of_notMem fun h => (text_plain (List.mem_of_mem_take h)).2 rfl
  have hcut := words_cutOff [31, 7, 7, 19] (l.text.take k) (l.text.drop k)
  rw [List.take_append_drop, ← List.append_nil l.text, words_text, List.append_nil] at hcut
  by_cases hlen : (words [31, 7, 7, 19] (l.text.take k)).length = 4
  · obtain ⟨v, hwords, hpre⟩ := hcut.eq_of_length hlen
    by_cases hv : v.length < 17
    · left
      rw [arpRow, hnul, hwords]
      dsimp only [List.cons_append, List.nil_append]
      rw [parseMacColon, if_pos hv]
      split_ifs
      · rfl
      · cases dottedQuad (ipToStr l.ip) <;> rfl
    · right
      have hmac : v = macText l.mac := by
        refine hpre.eq_of_length (le_antisymm hpre.length_le ?_)
        rw [length_macText]
        omega
      exact row_of_words (by rw [hnul, hwords, hmac])
  · left
    rw [arpRow, hnul]
    split
    · next heq =>
      rw [heq] at hlen
      exact absurd rfl hlen
    · rfl

theorem readable : Readable arpRow text row? where
  oneLine _ h := (text_plain h).1 rfl
  followed l rest := l.row_followed (10 :: rest)
  last l := by
    have h := l.row_followed []
    rwa [List.append_nil] at h

end ArpLine

structure ProcTable (β : Type) where
  heading : List UInt8
  heading_oneLine : 10 ∉ heading
  lines : List β

def ProcTable.text {β : Type} (t : ProcTable β) (text : β → List UInt8) : List UInt8 :=
  t.heading ++ 10 :: unlines (t.lines.map text)

theorem ProcTable.afterLine_take {β : Type} (t : ProcTable β) (text : β → List UInt8) (k : ℕ) :
    afterLine ((t.text text).take k) =
      (unlines (t.lines.map text)).take (k - (t.heading.length + 1)) := by
  rcases Nat.lt_or_ge t.heading.length k with hk | hk
  · obtain ⟨j, rfl⟩ : ∃ j, k = t.heading.length + (j + 1) :=
      ⟨k - t.heading.length - 1, by omega⟩
    rw [ProcTable.text, List.take_length_add_append, List.take_succ_cons,
      afterLine_append t.heading_oneLine]
    congr 1
    omega
  · rw [ProcTable.text, List.take_append_of_le_length hk, Nat.sub_eq_zero_of_le (by omega),
      List.take_zero]
    exact afterLine_of_notMem fun h => t.heading_oneLine (List.mem_of_mem_take h)

/-! ## Neighbours -/

theorem arpRow_nil : arpRow [] = none := rfl

theorem rows_of_cut (lines : List ArpLine) (k : ℕ) :
    (lineStarts ((unlines (lines.map ArpLine.text)).take k)).filterMap arpRow <+:
      lines.filterMap ArpLine.row? := by
  obtain ⟨m, j, hcut⟩ := take_unlines (lines.map ArpLine.text) k
  rcases Nat.lt_or_ge m lines.length with hm | hm
  · obtain ⟨l, hl⟩ : ∃ l, lines[m] = l := ⟨_, rfl⟩
    have hget : (lines.map ArpLine.text).getD m [] = l.text := by
      rw [List.getD_eq_getElem?_getD, List.getElem?_map, List.getElem?_eq_getElem hm, hl]
      rfl
    have hnot : 10 ∉ l.text.take j := fun h =>
      (ArpLine.text_plain (List.mem_of_mem_take h)).1 rfl
    have hsplit : lines.filterMap ArpLine.row? =
        (lines.take m).filterMap ArpLine.row? ++ (l.row?).toList ++
          (lines.drop (m + 1)).filterMap ArpLine.row? := by
      conv_lhs => rw [← List.take_append_drop m lines, List.drop_eq_getElem_cons hm, hl]
      rw [List.filterMap_append, List.filterMap_cons, List.append_assoc]
      cases l.row? <;> rfl
    rw [hcut, hget, ← List.map_take, filterMap_lineStarts_unlines ArpLine.readable arpRow_nil _ hnot,
      hsplit, List.append_assoc, List.prefix_append_right_inj]
    rcases l.row_cut j with hrow | hrow
    · rw [hrow]
      exact List.nil_prefix
    · rw [hrow]
      exact List.prefix_append _ _
  · have hget : (lines.map ArpLine.text).getD m [] = [] := by
      rw [List.getD_eq_getElem?_getD, List.getElem?_map, List.getElem?_eq_none hm]
      rfl
    rw [hcut, hget, List.take_nil, ← List.map_take,
      filterMap_lineStarts_unlines ArpLine.readable arpRow_nil _ List.not_mem_nil, arpRow_nil,
      List.take_of_length_le hm]
    rw [Option.toList_none, List.append_nil]

theorem readArpTable_take (t : ProcTable ArpLine) (maxOut k : ℕ) :
    readArpTable (some ((t.text ArpLine.text).take k)) maxOut =
      ((lineStarts ((unlines (t.lines.map ArpLine.text)).take
        (min 65535 k - (t.heading.length + 1)))).filterMap arpRow).take maxOut := by
  rw [readArpTable, readRows_eq_take, procText, Option.getD_some, List.take_take,
    t.afterLine_take]

theorem readArpTable_whole (t : ProcTable ArpLine) (maxOut : ℕ)
    (hfits : (t.text ArpLine.text).length ≤ 65535) :
    readArpTable (some (t.text ArpLine.text)) maxOut =
      (t.lines.filterMap ArpLine.row?).take maxOut := by
  have hcut := readArpTable_take t maxOut 65535
  have hall : (unlines (t.lines.map ArpLine.text)).take
      (min 65535 65535 - (t.heading.length + 1)) = unlines (t.lines.map ArpLine.text) ++ [] := by
    rw [List.append_nil]
    refine List.take_of_length_le ?_
    rw [ProcTable.text, List.length_append, List.length_cons] at hfits
    omega
  rw [List.take_of_length_le hfits, hall, filterMap_lineStarts_unlines ArpLine.readable arpRow_nil
    _ List.not_mem_nil, arpRow_nil, Option.toList_none, List.append_nil] at hcut
  exact hcut

/-- However much of the table `read` gives, the rows are those of resolved entries, in order and
from the first one on; when it gives the whole of it, they are all the rows there is room for. -/
theorem arp_table_reads_back (t : ProcTable ArpLine) (maxOut k : ℕ) :
    let rows := (t.lines.filterMap ArpLine.row?).take maxOut
    let read := readArpTable (some ((t.text ArpLine.text).take k)) maxOut
    read <+: rows ∧ ((t.text ArpLine.text).length ≤ min k 65535 → read = rows) := by
  intro rows read
  refine ⟨?_, fun hfits => ?_⟩
  · rw [show read = _ from readArpTable_take t maxOut k]
    exact (rows_of_cut t.lines _).take maxOut
  · rw [show read = _ from congrArg (fun b => readArpTable (some b) maxOut)
      (List.take_of_length_le (hfits.trans (Nat.min_le_left _ _)))]
    exact readArpTable_whole t maxOut (hfits.trans (Nat.min_le_right _ _))

/-! ## Default routes -/

structure RouteLine where
  iface : Word 31
  dest : UInt32
  gw : UInt32
  gap : Fin 3 → Gap
  tail : List UInt8
  tail_plain : ∀ b ∈ tail, b ≠ 10 ∧ b ≠ 0

def addrWord (addr : UInt32) : Word 15 where
  bytes := hexDigits 65 8 addr.toNat
  ne_nil := fun hnil => by
    have hlen := length_hexDigits 65 8 addr.toNat
    rw [hnil] at hlen
    cases hlen
  length_le := (length_hexDigits 65 8 addr.toNat).trans_le (by decide)
  plain _ hb := ⟨(plain_of_hexDigit (hexDigit_of_mem (.inr rfl) hb)).1,
    (plain_of_hexDigit (hexDigit_of_mem (.inr rfl) hb)).2.1⟩

theorem hexValue_addr (addr : UInt32) : hexValue (hexDigits 65 8 addr.toNat) = addr.toNat :=
  hexValue_hexDigits (.inr rfl) (addr.toNat_lt.trans_le (by decide))

theorem hex_addr (addr : UInt32) : hex (hexDigits 65 8 addr.toNat) = some (addr, []) := by
  have hvalue := hexValue_addr addr
  have hdigits : ∀ b ∈ hexDigits 65 8 addr.toNat, (hexDigit b).isSome = true :=
    fun b hb => hexDigit_of_mem (.inr rfl) hb
  have hlen : 2 ≤ (hexDigits 65 8 addr.toNat).length := by rw [length_hexDigits]; decide
  have hlt : hexValue (hexDigits 65 8 addr.toNat) < 2 ^ 64 := by
    rw [hvalue]
    exact addr.toNat_lt.trans (by decide)
  have hend : ∀ b ∈ ([] : List UInt8).head?, hexDigit b = none := fun b hb => by cases hb
  have h := hex_append hdigits hlen hlt hend
  rwa [List.append_nil, hvalue, UInt32.ofNat_toNat] at h

theorem addr_zero_iff (addr : UInt32) : hexDigits 65 8 addr.toNat = ascii "00000000" ↔ addr = 0 := by
  constructor
  · intro h
    have hvalue := hexValue_addr addr
    rw [h] at hvalue
    exact UInt32.toNat_inj.mp hvalue.symm
  · rintro rfl
    decide

namespace RouteLine

def cells (l : RouteLine) : List Cell :=
  [⟨31, l.iface, l.gap 0⟩, ⟨15, addrWord l.dest, l.gap 1⟩, ⟨15, addrWord l.gw, l.gap 2⟩]

def text (l : RouteLine) : List UInt8 := columns l.cells ++ l.tail

def gateway? (accepts : List UInt8 → UInt32 → Bool) (l : RouteLine) : Option (List UInt8) :=
  if l.dest = 0 ∧ accepts l.iface.bytes l.gw then some (ipToStr ⟨l.gw⟩) else none

theorem text_plain {l : RouteLine} {b : UInt8} (hb : b ∈ l.text) : b ≠ 10 ∧ b ≠ 0 := by
  rcases List.mem_append.mp hb with hb | hb
  · exact columns_plain hb
  · exact l.tail_plain b hb

theorem gateway_followed (accepts : List UInt8 → UInt32 → Bool) (l : RouteLine)
    (rest : List UInt8) : defaultGateway accepts (l.text ++ rest) = l.gateway? accepts := by
  have hnul : cString (l.text ++ rest) = l.text ++ cString rest :=
    List.takeWhile_append_of_pos fun b hb => decide_eq_true (text_plain hb).2
  have hwords : words [31, 15, 15] (l.text ++ cString rest) =
      [l.iface.bytes, hexDigits 65 8 l.dest.toNat, hexDigits 65 8 l.gw.toNat] := by
    rw [text, List.append_assoc]
    exact words_columns l.cells (l.tail ++ cString rest)
  rw [defaultGateway, hnul, hwords]
  dsimp only
  rw [hex_addr, Option.bind_some, gateway?, ite_and]
  exact if_congr (addr_zero_iff l.dest) rfl rfl

theorem readable (accepts : List UInt8 → UInt32 → Bool) :
    Readable (defaultGateway accepts) text (gateway? accepts) where
  oneLine _ h := (text_plain h).1 rfl
  followed l rest := gateway_followed accepts l (10 :: rest)
  last l := by
    have h := gateway_followed accepts l []
    rwa [List.append_nil] at h

end RouteLine

structure RouteTable extends ProcTable RouteLine where
  heading_length : heading.length = 127
  lines_length : ∀ l ∈ lines, l.text.length = 127

theorem defaultGateway_nil (accepts : List UInt8 → UInt32 → Bool) :
    defaultGateway accepts [] = none := rfl

/-- The buffer holds the first fifteen lines; of the last of them the newline is missing. -/
theorem firstGateway_text (accepts : List UInt8 → UInt32 → Bool) (t : RouteTable) :
    firstGateway accepts (some (t.text RouteLine.text)) =
      ((t.lines.take 15).findSome? (RouteLine.gateway? accepts)).getD [] := by
  have hlength : ∀ l ∈ t.lines.map RouteLine.text, l.length = 127 := by
    intro l hl
    obtain ⟨line, hline, rfl⟩ := List.mem_map.mp hl
    exact t.lines_length line hline
  have hcut : (unlines (t.lines.map RouteLine.text)).take (2047 - (t.heading.length + 1)) =
      unlines ((t.lines.take 14).map RouteLine.text) ++ (t.lines.map RouteLine.text).getD 14 [] := by
    rw [t.heading_length, List.map_take]
    exact take_unlines_of_length hlength 14
  rw [firstGateway, procText, Option.getD_some, t.afterLine_take, hcut, ← List.head?_filterMap,
    ← List.head?_filterMap]
  rcases Nat.lt_or_ge 14 t.lines.length with hm | hm
  · have hget : (t.lines.map RouteLine.text).getD 14 [] = t.lines[14].text := by
      rw [List.getD_eq_getElem?_getD, List.getElem?_map, List.getElem?_eq_getElem hm]
      rfl
    have hnot : 10 ∉ t.lines[14].text := fun h => (RouteLine.text_plain h).1 rfl
    rw [hget, filterMap_lineStarts_unlines (RouteLine.readable accepts)
      (defaultGateway_nil accepts) _ hnot, (RouteLine.readable accepts).last,
      List.take_succ_eq_append_getElem hm, List.filterMap_append, List.filterMap_cons]
    cases t.lines[14].gateway? accepts <;> rfl
  · have hget : (t.lines.map RouteLine.text).getD 14 [] = [] := by
      rw [List.getD_eq_getElem?_getD, List.getElem?_map, List.getElem?_eq_none hm]
      rfl
    rw [hget, filterMap_lineStarts_unlines (RouteLine.readable accepts)
      (defaultGateway_nil accepts) _ List.not_mem_nil, defaultGateway_nil, Option.toList_none,
      List.append_nil, List.take_of_length_le hm, List.take_of_length_le (by omega)]

end Network
end Hpgtp
