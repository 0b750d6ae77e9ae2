import TrafficPrioritizer.NatEngine.Model

/-! How the two translation paths read a packet, as one classification for each
path, and what can be read back from a packet they have rewritten. -/

namespace Hpgtp
open ByteBuffer

namespace ParsedPacket

def ports (p : ParsedPacket) : Option (Nat × PortView) :=
  match p.ipv4 with
  | none => none
  | some ip =>
    let protocol := IPv4Header.protocol p.rawSpan ip
    if protocol = 6 ∨ protocol = 17 then (p.portView protocol).map (ip, ·) else none

def echo (p : ParsedPacket) (type : UInt8) : Option (Nat × Nat) :=
  match p.ipv4 with
  | none => none
  | some ip =>
    if IPv4Header.protocol p.rawSpan ip = 1 then (NatEngine.echoView p ip type).map (ip, ·)
    else none

def keyAt (p : ParsedPacket) (ip : Nat) (v : PortView) : FlowKey :=
  ⟨IPv4Header.saddr p.rawSpan ip, IPv4Header.daddr p.rawSpan ip,
    load16 p.rawSpan v.source, load16 p.rawSpan v.dest⟩

def echoKeyAt (p : ParsedPacket) (ip icmp : Nat) : EchoKey :=
  ⟨IPv4Header.saddr p.rawSpan ip, IPv4Header.daddr p.rawSpan ip, load16 p.rawSpan (icmp + 4)⟩

@[simp] theorem keyAt_saddr (p : ParsedPacket) (ip : Nat) (v : PortView) :
    (p.keyAt ip v).saddr = IPv4Header.saddr p.rawSpan ip := rfl

@[simp] theorem keyAt_daddr (p : ParsedPacket) (ip : Nat) (v : PortView) :
    (p.keyAt ip v).daddr = IPv4Header.daddr p.rawSpan ip := rfl

@[simp] theorem keyAt_sport (p : ParsedPacket) (ip : Nat) (v : PortView) :
    (p.keyAt ip v).sport = load16 p.rawSpan v.source := rfl

@[simp] theorem keyAt_dport (p : ParsedPacket) (ip : Nat) (v : PortView) :
    (p.keyAt ip v).dport = load16 p.rawSpan v.dest := rfl

@[simp] theorem echoKeyAt_saddr (p : ParsedPacket) (ip icmp : Nat) :
    (p.echoKeyAt ip icmp).saddr = IPv4Header.saddr p.rawSpan ip := rfl

@[simp] theorem echoKeyAt_daddr (p : ParsedPacket) (ip icmp : Nat) :
    (p.echoKeyAt ip icmp).daddr = IPv4Header.daddr p.rawSpan ip := rfl

@[simp] theorem echoKeyAt_idNbo (p : ParsedPacket) (ip icmp : Nat) :
    (p.echoKeyAt ip icmp).idNbo = load16 p.rawSpan (icmp + 4) := rfl

def flowKey (p : ParsedPacket) : Option FlowKey := p.ports.map fun (ip, v) => p.keyAt ip v

def echoKey (p : ParsedPacket) (type : UInt8) : Option EchoKey :=
  (p.echo type).map fun (ip, icmp) => p.echoKeyAt ip icmp

def l4Ports (p : ParsedPacket) : Option PortView :=
  if p.l4Protocol = 17 then p.l4Header.map fun o => ⟨o, o + 2, o + 6⟩
  else if p.l4Protocol = 6 then p.l4Header.map fun o => ⟨o, o + 2, o + 16⟩
  else none

def sourcePort (p : ParsedPacket) : Option UInt16 := p.l4Ports.map fun v => load16 p.rawSpan v.source

def destPort (p : ParsedPacket) : Option UInt16 := p.l4Ports.map fun v => load16 p.rawSpan v.dest

def echoId (p : ParsedPacket) : Option UInt16 := p.icmpEcho.map fun o => load16 p.rawSpan (o + 4)

def destAddr (p : ParsedPacket) : Option IPv4Net := p.ipv4.map fun ip => IPv4Header.daddr p.rawSpan ip

def sourceAddr (p : ParsedPacket) : Option IPv4Net := p.ipv4.map fun ip => IPv4Header.saddr p.rawSpan ip

theorem guarded_eq_some {β : Type} {o : Option ℕ} {P : ℕ → Prop} [DecidablePred P]
    {view : ℕ → Option β} {ip : ℕ} {v : β} :
    (match o with
      | none => none
      | some i => if P i then (view i).map (i, ·) else none) = some (ip, v) ↔
      o = some ip ∧ P ip ∧ view ip = some v := by
  cases o with
  | none => simp
  | some i =>
    simp only [Option.some.injEq]
    split_ifs with hguard
    · simp only [Option.map_eq_some_iff, Prod.mk.injEq]
      constructor
      · rintro ⟨w, hw, rfl, rfl⟩
        exact ⟨rfl, hguard, hw⟩
      · rintro ⟨rfl, -, hv⟩
        exact ⟨v, hv, rfl, rfl⟩
    · constructor
      · simp
      · rintro ⟨rfl, h, -⟩
        exact absurd h hguard

theorem ports_eq_some {p : ParsedPacket} {ip : Nat} {v : PortView} :
    p.ports = some (ip, v) ↔ p.ipv4 = some ip ∧
      (IPv4Header.protocol p.rawSpan ip = 6 ∨ IPv4Header.protocol p.rawSpan ip = 17) ∧
      p.portView (IPv4Header.protocol p.rawSpan ip) = some v := guarded_eq_some

theorem echo_eq_some {p : ParsedPacket} {ip icmp : Nat} {type : UInt8} :
    p.echo type = some (ip, icmp) ↔ p.ipv4 = some ip ∧ IPv4Header.protocol p.rawSpan ip = 1 ∧
      NatEngine.echoView p ip type = some icmp := guarded_eq_some

theorem protocol_of_ports {p : ParsedPacket} {ip : Nat} {v : PortView}
    (h : p.ports = some (ip, v)) : IPv4Header.protocol p.rawSpan ip ≠ 1 ∧
      ¬(IPv4Header.protocol p.rawSpan ip ≠ 6 ∧ IPv4Header.protocol p.rawSpan ip ≠ 17) := by
  rcases (ports_eq_some.mp h).2.1 with h | h <;> rw [h] <;> decide

theorem flowKey_eq_some {p : ParsedPacket} {k : FlowKey} :
    p.flowKey = some k ↔ ∃ ip v, p.ports = some (ip, v) ∧ p.keyAt ip v = k := by
  simp [flowKey, Option.map_eq_some_iff]

theorem echoKey_eq_some {p : ParsedPacket} {type : UInt8} {k : EchoKey} :
    p.echoKey type = some k ↔ ∃ ip icmp, p.echo type = some (ip, icmp) ∧ p.echoKeyAt ip icmp = k := by
  simp [echoKey, Option.map_eq_some_iff]

/-! ## Views of a classified packet -/

theorem l4Ports_bounds {p : ParsedPacket} {v : PortView} (h : p.l4Ports = some v) :
    v.source + 2 ≤ p.rawSpan.length ∧ v.dest + 2 ≤ p.rawSpan.length := by
  unfold l4Ports at h
  split_ifs at h with hudp htcp
  · obtain ⟨o, ho, rfl⟩ := Option.map_eq_some_iff.mp h
    have hb := (p.l4_inBounds o ho).2
    simp only [l4HeaderSize, hudp, sizeofUDPHeader, if_true] at hb
    simp only
    omega
  · obtain ⟨o, ho, rfl⟩ := Option.map_eq_some_iff.mp h
    have hb := (p.l4_inBounds o ho).2
    simp only [l4HeaderSize, htcp, sizeofTCPHeader, if_neg (show ¬(6 : UInt8) = 17 by decide),
      if_true] at hb
    simp only
    omega

theorem l4Ports_of_portView {p : ParsedPacket} {protocol : UInt8} {v : PortView}
    (hproto : protocol = 6 ∨ protocol = 17) (h : p.portView protocol = some v) :
    p.l4Ports = some v := by
  rcases hproto with rfl | rfl
  · rw [portView, if_neg (by decide)] at h
    obtain ⟨o, ho, rfl⟩ := Option.map_eq_some_iff.mp h
    unfold tcp at ho
    split_ifs at ho with htcp
    rw [l4Ports, if_neg (by rw [htcp]; decide), if_pos htcp, ho]
    rfl
  · rw [portView, if_pos rfl] at h
    obtain ⟨o, ho, rfl⟩ := Option.map_eq_some_iff.mp h
    unfold udp at ho
    split_ifs at ho with hudp
    rw [l4Ports, if_pos hudp, ho]
    rfl

theorem l4Ports_of_ports {p : ParsedPacket} {ip : Nat} {v : PortView}
    (h : p.ports = some (ip, v)) : p.l4Ports = some v :=
  have h := ports_eq_some.mp h
  l4Ports_of_portView h.2.1 h.2.2

theorem l4Protocol_of_ports {p : ParsedPacket} {ip : Nat} {v : PortView}
    (h : p.ports = some (ip, v)) : p.l4Protocol ≠ 1 := by
  have hv := l4Ports_of_ports h
  intro hp
  simp [l4Ports, hp] at hv

theorem l4Protocol_of_icmpEcho {p : ParsedPacket} {icmp : Nat} (h : p.icmpEcho = some icmp) :
    p.l4Protocol = 1 := by
  unfold icmpEcho at h
  split_ifs at h with hp
  exact hp

theorem ipv4_bounds {p : ParsedPacket} {ip : Nat} (h : p.ipv4 = some ip) :
    ip + 20 ≤ p.rawSpan.length := (p.ipv4_inBounds ip h).2

theorem icmpEcho_of_echoView {p : ParsedPacket} {ip icmp : Nat} {type : UInt8}
    (h : NatEngine.echoView p ip type = some icmp) : p.icmpEcho = some icmp := by
  unfold NatEngine.echoView at h
  split at h
  · exact absurd h (by simp)
  · rename_i o ho
    split_ifs at h
    rw [ho, ← Option.some.inj h]

theorem icmpEcho_bounds {p : ParsedPacket} {icmp : Nat} (h : p.icmpEcho = some icmp) :
    icmp + 8 ≤ p.rawSpan.length := by
  unfold icmpEcho at h
  split_ifs at h with hicmp
  have hb := (p.l4_inBounds icmp h).2
  rwa [hicmp] at hb

theorem l4Ports_offsets {p : ParsedPacket} {v : PortView} (h : p.l4Ports = some v) :
    v.source = p.ihl + 14 ∧ v.dest = p.ihl + 16 ∧
      (v.check = p.ihl + 20 ∨ v.check = p.ihl + 30) := by
  have hl4 (o) (ho : p.l4Header = some o) : o = 14 + p.ihl := (p.l4_inBounds o ho).1
  unfold l4Ports at h
  split_ifs at h
  all_goals
    obtain ⟨o, ho, rfl⟩ := Option.map_eq_some_iff.mp h
    have := hl4 o ho
    simp only
    omega

theorem l4Ports_dest {p : ParsedPacket} {v : PortView} (h : p.l4Ports = some v) :
    v.dest = p.ihl + 16 := (l4Ports_offsets h).2.1

theorem icmpEcho_offset {p : ParsedPacket} {icmp : Nat} (h : p.icmpEcho = some icmp) :
    icmp = p.ihl + 14 := by
  unfold icmpEcho at h
  split_ifs at h
  have := (p.l4_inBounds icmp h).1
  simp only [sizeofEthernetHeader] at this
  omega

/-! ## Reading back a rewritten packet -/

@[simp] theorem withBytes_rawSpan (p : ParsedPacket) (b : List UInt8)
    (h : b.length = p.rawSpan.length) : (p.withBytes b h).rawSpan = b := rfl

@[simp] theorem withBytes_ipv4 (p : ParsedPacket) (b : List UInt8)
    (h : b.length = p.rawSpan.length) : (p.withBytes b h).ipv4 = p.ipv4 := rfl

@[simp] theorem withBytes_l4Ports (p : ParsedPacket) (b : List UInt8)
    (h : b.length = p.rawSpan.length) : (p.withBytes b h).l4Ports = p.l4Ports := rfl

@[simp] theorem withBytes_icmpEcho (p : ParsedPacket) (b : List UInt8)
    (h : b.length = p.rawSpan.length) : (p.withBytes b h).icmpEcho = p.icmpEcho := rfl

theorem rewritePorts_eq (b : List UInt8) (ip a f c : Nat) (addr : IPv4Net) (port : UInt16) :
    ∃ b' : List UInt8, b'.length = b.length ∧
      rewritePorts b ip a f c addr port = store16 (store32 b' a addr.raw) f port := by
  simp only [rewritePorts]
  exact ⟨_, by split_ifs <;> simp, rfl⟩

theorem rewriteEcho_eq (b : List UInt8) (ip a icmp : Nat) (addr : IPv4Net) (id : UInt16) :
    ∃ b' : List UInt8, b'.length = b.length ∧
      rewriteEcho b ip a icmp addr id = store16 (store32 b' a addr.raw) (icmp + 4) id := by
  simp only [rewriteEcho]
  exact ⟨_, by split_ifs <;> simp, rfl⟩

theorem load8_rewritePorts_of_disjoint {b : List UInt8} {ip a p c j : Nat} {addr : IPv4Net}
    {port : UInt16} (hip : j < ip + 10 ∨ ip + 10 + 2 ≤ j) (ha : j < a ∨ a + 4 ≤ j)
    (hp : j < p ∨ p + 2 ≤ j) (hc : j < c ∨ c + 2 ≤ j) :
    load8 (rewritePorts b ip a p c addr port) j = load8 b j := by
  rw [rewritePorts]
  dsimp only
  rw [load8_store16_of_disjoint hp, load8_store32_of_disjoint ha]
  split_ifs
  · rw [load8_store16_of_disjoint hc, load8_store16_of_disjoint hc, load8_store16_of_disjoint hip]
  · rw [load8_store16_of_disjoint hip]

theorem load8_rewriteEcho_of_disjoint {b : List UInt8} {ip a icmp j : Nat} {addr : IPv4Net}
    {id : UInt16} (hip : j < ip + 10 ∨ ip + 10 + 2 ≤ j) (ha : j < a ∨ a + 4 ≤ j)
    (hid : j < icmp + 4 ∨ icmp + 4 + 2 ≤ j) (hc : j < icmp + 2 ∨ icmp + 2 + 2 ≤ j) :
    load8 (rewriteEcho b ip a icmp addr id) j = load8 b j := by
  rw [rewriteEcho]
  rw [load8_store16_of_disjoint hid, load8_store32_of_disjoint ha]
  split_ifs
  · rw [load8_store16_of_disjoint hc, load8_store16_of_disjoint hip]
  · rw [load8_store16_of_disjoint hip]

variable {p : ParsedPacket} {ip : Nat}

theorem sourcePort_rewriteSource {v : PortView} (h : p.ports = some (ip, v)) (addr : IPv4Net)
    (port : UInt16) : (p.rewriteSource ip v addr port).sourcePort = some port := by
  have hv := l4Ports_of_ports h
  obtain ⟨b, hlen, hb⟩ := rewritePorts_eq p.rawSpan ip (ip + 12) v.source v.check addr port
  simp only [sourcePort, rewriteSource, withBytes_l4Ports, withBytes_rawSpan, hv, hb,
    Option.map_some, Option.some.injEq]
  apply load16_store16_self
  rw [length_store32, hlen]
  exact (l4Ports_bounds hv).1

theorem destPort_rewriteDestination {v : PortView} (h : p.ports = some (ip, v)) (addr : IPv4Net)
    (port : UInt16) : (p.rewriteDestination ip v addr port).destPort = some port := by
  have hv := l4Ports_of_ports h
  obtain ⟨b, hlen, hb⟩ := rewritePorts_eq p.rawSpan ip (ip + 16) v.dest v.check addr port
  simp only [destPort, rewriteDestination, withBytes_l4Ports, withBytes_rawSpan, hv, hb,
    Option.map_some, Option.some.injEq]
  apply load16_store16_self
  rw [length_store32, hlen]
  exact (l4Ports_bounds hv).2

/-- The port is stored after the address. With an IHL of four words, which `parse` accepts,
its field is the second half of the address. -/
theorem destAddr_rewriteDestination {v : PortView} (h : p.ports = some (ip, v)) (addr : IPv4Net)
    (port : UInt16) : (p.rewriteDestination ip v addr port).destAddr = some addr ↔
      p.ihl ≠ 16 ∨ high16 addr.raw = port := by
  have hip := (ports_eq_some.mp h).1
  obtain ⟨b, hlen, hb⟩ := rewritePorts_eq p.rawSpan ip (ip + 16) v.dest v.check addr port
  have hdest := l4Ports_dest (l4Ports_of_ports h)
  have hwords := p.ihl_words
  have hlen' := ipv4_bounds hip
  obtain rfl : ip = 14 := (p.ipv4_inBounds ip hip).1
  simp only [destAddr, rewriteDestination, withBytes_ipv4, withBytes_rawSpan, hip, hb,
    Option.map_some, IPv4Header.daddr, Option.some.injEq]
  obtain ⟨raw⟩ := addr
  rw [IPv4Net.mk.injEq]
  by_cases hihl : p.ihl = 16
  · simp only [hdest, hihl, ne_eq, not_true_eq_false, false_or]
    exact load32_store16_store32_high (by omega)
  · rw [load32_store16_of_disjoint (by omega), load32_store32_self _ (by omega)]
    simp [hihl]

theorem sourceAddr_rewriteSource {v : PortView} (h : p.ports = some (ip, v)) (addr : IPv4Net)
    (port : UInt16) : (p.rewriteSource ip v addr port).sourceAddr = some addr ↔
      p.ihl ≠ 12 ∨ low16 addr.raw = port := by
  have hip := (ports_eq_some.mp h).1
  obtain ⟨b, hlen, hb⟩ := rewritePorts_eq p.rawSpan ip (ip + 12) v.source v.check addr port
  have hsource := (l4Ports_offsets (l4Ports_of_ports h)).1
  have hwords := p.ihl_words
  have hlen' := ipv4_bounds hip
  obtain rfl : ip = 14 := (p.ipv4_inBounds ip hip).1
  simp only [sourceAddr, rewriteSource, withBytes_ipv4, withBytes_rawSpan, hip, hb,
    Option.map_some, IPv4Header.saddr, Option.some.injEq]
  obtain ⟨raw⟩ := addr
  rw [IPv4Net.mk.injEq]
  by_cases hihl : p.ihl = 12
  · simp only [hsource, hihl, ne_eq, not_true_eq_false, false_or]
    exact load32_store16_store32 (by omega)
  · rw [load32_store16_of_disjoint (by omega), load32_store32_self _ (by omega)]
    simp [hihl]

theorem protocol_rewriteDestination {v : PortView} (h : p.ports = some (ip, v)) (addr : IPv4Net)
    (port : UInt16) : IPv4Header.protocol (p.rewriteDestination ip v addr port).rawSpan ip =
      IPv4Header.protocol p.rawSpan ip := by
  have hip := (ports_eq_some.mp h).1
  obtain ⟨-, hdest, hcheck⟩ := l4Ports_offsets (l4Ports_of_ports h)
  have hwords := p.ihl_words
  obtain rfl : ip = 14 := (p.ipv4_inBounds ip hip).1
  rw [IPv4Header.protocol, IPv4Header.protocol, rewriteDestination, withBytes_rawSpan]
  exact load8_rewritePorts_of_disjoint (by omega) (by omega) (by omega) (by omega)

theorem echoId_rewriteEchoSource {icmp : Nat} (h : p.icmpEcho = some icmp) (addr : IPv4Net)
    (id : UInt16) : (p.rewriteEchoSource ip icmp addr id).echoId = some id := by
  obtain ⟨b, hlen, hb⟩ := rewriteEcho_eq p.rawSpan ip (ip + 12) icmp addr id
  have hlen' := icmpEcho_bounds h
  simp only [echoId, rewriteEchoSource, withBytes_icmpEcho, withBytes_rawSpan, h, hb,
    Option.map_some, Option.some.injEq]
  exact load16_store16_self _ (by rw [length_store32]; omega)

theorem echoId_rewriteEchoDestination {icmp : Nat} (h : p.icmpEcho = some icmp) (addr : IPv4Net)
    (id : UInt16) : (p.rewriteEchoDestination ip icmp addr id).echoId = some id := by
  obtain ⟨b, hlen, hb⟩ := rewriteEcho_eq p.rawSpan ip (ip + 16) icmp addr id
  have hlen' := icmpEcho_bounds h
  simp only [echoId, rewriteEchoDestination, withBytes_icmpEcho, withBytes_rawSpan, h, hb,
    Option.map_some, Option.some.injEq]
  exact load16_store16_self _ (by rw [length_store32]; omega)

theorem destAddr_rewriteEchoDestination {icmp : Nat} (hip : p.ipv4 = some ip)
    (h : p.icmpEcho = some icmp) (addr : IPv4Net) (id : UInt16) :
    (p.rewriteEchoDestination ip icmp addr id).destAddr = some addr ↔
      p.ihl ≠ 12 ∨ low16 addr.raw = id := by
  obtain ⟨b, hlen, hb⟩ := rewriteEcho_eq p.rawSpan ip (ip + 16) icmp addr id
  have hicmp := icmpEcho_offset h
  have hwords := p.ihl_words
  have hlen' := ipv4_bounds hip
  obtain rfl : ip = 14 := (p.ipv4_inBounds ip hip).1
  simp only [destAddr, rewriteEchoDestination, withBytes_ipv4, withBytes_rawSpan, hip, hb,
    Option.map_some, IPv4Header.daddr, Option.some.injEq]
  obtain ⟨raw⟩ := addr
  rw [IPv4Net.mk.injEq]
  by_cases hihl : p.ihl = 12
  · obtain rfl : icmp = 26 := by omega
    simp only [hihl, ne_eq, not_true_eq_false, false_or]
    exact load32_store16_store32 (by omega)
  · rw [load32_store16_of_disjoint (by omega), load32_store32_self _ (by omega)]
    simp [hihl]

end ParsedPacket
end Hpgtp
