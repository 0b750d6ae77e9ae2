import TrafficPrioritizer.Net.ParsedPacket
import TrafficPrioritizer.Lib.ReverseIndex
import Mathlib.Logic.Function.Basic
import Mathlib.Data.Fin.Tuple.Basic

/-! The NAT engine: session tables, reverse indices, and the outbound and inbound
translation of TCP, UDP and ICMP echo packets, each call as one whole step. -/

namespace Hpgtp
open ByteBuffer ReverseIndex

/-! ## Checksums and hashes -/

/-- Incremental checksum update (RFC 1624). -/
def updateChecksum16 (check oldVal newVal : UInt16) : UInt16 :=
  let sum := (~~~(ntohs check)).toNat + (~~~(ntohs oldVal)).toNat + (ntohs newVal).toNat
  let sum := sum % 65536 + sum / 65536
  htons (~~~(UInt16.ofNat (sum + sum / 65536)))

def updateChecksum32 (check : UInt16) (oldVal newVal : IPv4Net) : UInt16 :=
  updateChecksum16 (updateChecksum16 check (low16 oldVal.raw) (low16 newVal.raw))
    (high16 oldVal.raw) (high16 newVal.raw)

structure FlowKey where
  saddr : IPv4Net := {}
  daddr : IPv4Net := {}
  sport : UInt16 := 0
  dport : UInt16 := 0
  deriving DecidableEq, Repr

def fnvByte (h : UInt32) (byte : UInt8) : UInt32 := (h ^^^ byte.toUInt32) * 16777619

def hashFlow (k : FlowKey) : UInt32 :=
  (bytes32 k.saddr.raw ++ bytes32 k.daddr.raw ++ bytes16 k.sport ++ bytes16 k.dport).foldl
    fnvByte 2166136261

structure EchoKey where
  saddr : IPv4Net := {}
  daddr : IPv4Net := {}
  idNbo : UInt16 := 0
  deriving DecidableEq, Repr

def hashIcmpFlow (k : EchoKey) : UInt32 :=
  (bytes32 k.saddr.raw ++ bytes32 k.daddr.raw ++ bytes16 k.idNbo).foldl fnvByte 2166136261

/-! ## State -/

def maxSessions : Nat := 65536

def maxIcmpSessions : Nat := 4096

structure NatSession where
  seq : UInt32 := 0
  internalKey : FlowKey := {}
  externalPort : UInt16 := 0
  lastActiveTick : UInt32 := 0
  active : Bool := false
  deriving DecidableEq, Repr

structure IcmpEchoSession where
  seq : UInt32 := 0
  intSaddr : IPv4Net := {}
  remoteDaddr : IPv4Net := {}
  intIdNbo : UInt16 := 0
  extIdNbo : UInt16 := 0
  lastActiveTick : UInt32 := 0
  active : Bool := false
  deriving DecidableEq, Repr

structure NatEngine where
  sessions : Fin maxSessions → NatSession
  portToIndex : UInt16 → Int
  icmpSessions : Fin maxIcmpSessions → IcmpEchoSession
  icmpIdToIndex : UInt16 → Int
  portCursor : UInt16
  icmpIdCursor : UInt16
  wanIp : IPv4Net
  currentTick : UInt32

structure Outcome where
  translated : Bool
  engine : NatEngine
  packet : ParsedPacket

def nextCursor (c : UInt16) : UInt16 := if c + 1 > 60000 then 10000 else c + 1

/-! ## L4 views and the rewrite of a packet -/

structure PortView where
  source : Nat
  dest : Nat
  check : Nat

def ParsedPacket.portView (p : ParsedPacket) (protocol : UInt8) : Option PortView :=
  if protocol = 17 then p.udp.map fun o => ⟨o, o + 2, o + 6⟩
  else p.tcp.map fun o => ⟨o, o + 2, o + 16⟩

/-- The stores of a TCP/UDP translation, in program order: IPv4 checksum, L4 checksum
unless it is zero, address field, port field. -/
def rewritePorts (b : List UInt8) (ip addrField portField checkField : Nat)
    (newAddr : IPv4Net) (newPort : UInt16) : List UInt8 :=
  let b := store16 b (ip + 10)
    (updateChecksum32 (load16 b (ip + 10)) ⟨load32 b addrField⟩ newAddr)
  let b :=
    if load16 b checkField ≠ 0 then
      let b := store16 b checkField
        (updateChecksum32 (load16 b checkField) ⟨load32 b addrField⟩ newAddr)
      store16 b checkField
        (updateChecksum16 (load16 b checkField) (load16 b portField) newPort)
    else b
  store16 (store32 b addrField newAddr.raw) portField newPort

def rewriteEcho (b : List UInt8) (ip addrField icmp : Nat) (newAddr : IPv4Net)
    (newId : UInt16) : List UInt8 :=
  let oldId := load16 b (icmp + 4)
  let b := store16 b (ip + 10)
    (updateChecksum32 (load16 b (ip + 10)) ⟨load32 b addrField⟩ newAddr)
  let b :=
    if load16 b (icmp + 2) ≠ 0 then
      store16 b (icmp + 2) (updateChecksum16 (load16 b (icmp + 2)) oldId newId)
    else b
  store16 (store32 b addrField newAddr.raw) (icmp + 4) newId

@[simp] theorem length_rewritePorts (b : List UInt8) (ip a p c : Nat) (addr : IPv4Net)
    (port : UInt16) : (rewritePorts b ip a p c addr port).length = b.length := by
  simp only [rewritePorts]
  split_ifs <;> simp

@[simp] theorem length_rewriteEcho (b : List UInt8) (ip a icmp : Nat) (addr : IPv4Net)
    (id : UInt16) : (rewriteEcho b ip a icmp addr id).length = b.length := by
  simp only [rewriteEcho]
  split_ifs <;> simp

namespace ParsedPacket

def rewriteSource (p : ParsedPacket) (ip : Nat) (v : PortView) (addr : IPv4Net)
    (port : UInt16) : ParsedPacket :=
  p.withBytes (rewritePorts p.rawSpan ip (ip + 12) v.source v.check addr port)
    (length_rewritePorts ..)

def rewriteDestination (p : ParsedPacket) (ip : Nat) (v : PortView) (addr : IPv4Net)
    (port : UInt16) : ParsedPacket :=
  p.withBytes (rewritePorts p.rawSpan ip (ip + 16) v.dest v.check addr port)
    (length_rewritePorts ..)

def rewriteEchoSource (p : ParsedPacket) (ip icmp : Nat) (addr : IPv4Net) (id : UInt16) :
    ParsedPacket :=
  p.withBytes (rewriteEcho p.rawSpan ip (ip + 12) icmp addr id) (length_rewriteEcho ..)

def rewriteEchoDestination (p : ParsedPacket) (ip icmp : Nat) (addr : IPv4Net) (id : UInt16) :
    ParsedPacket :=
  p.withBytes (rewriteEcho p.rawSpan ip (ip + 16) icmp addr id) (length_rewriteEcho ..)

end ParsedPacket

def NatSession.reusable (s : NatSession) (tick : UInt32) : Bool :=
  !s.active || tick - s.lastActiveTick > 300

def IcmpEchoSession.reusable (s : IcmpEchoSession) (tick : UInt32) : Bool :=
  !s.active || tick - s.lastActiveTick > 300

def IcmpEchoSession.key (s : IcmpEchoSession) : EchoKey := ⟨s.intSaddr, s.remoteDaddr, s.intIdNbo⟩

def NatSession.stamp (s : NatSession) (tick : UInt32) : NatSession := { s with lastActiveTick := tick }

def IcmpEchoSession.stamp (s : IcmpEchoSession) (tick : UInt32) : IcmpEchoSession :=
  { s with lastActiveTick := tick }

/-- One pass of an inbound retry loop: `continue`, `return false`, or the fields copied. -/
inductive Attempt (α : Type)
  | retry
  | refuse
  | resolved (a : α)

/-- The retry loop, run by one thread: every pass sees the same session. -/
def retryLoop {α : Type} (attempt : Attempt α) : Nat → Option α
  | 0 => none
  | n + 1 =>
    match attempt with
    | .retry => retryLoop attempt n
    | .refuse => none
    | .resolved a => some a

namespace NatEngine

def new : NatEngine where
  sessions := fun _ => {}
  portToIndex := fun _ => -1
  icmpSessions := fun _ => {}
  icmpIdToIndex := fun _ => -1
  portCursor := 10000
  icmpIdCursor := 25000
  wanIp := {}
  currentTick := 0

def setWanIp (e : NatEngine) (ip : IPv4Net) : NatEngine := { e with wanIp := ip }

def tick (e : NatEngine) : NatEngine := { e with currentTick := e.currentTick + 1 }

/-! ## TCP and UDP -/

def probeSlot (key : FlowKey) (i : Fin 32) : Fin maxSessions :=
  ⟨((hashFlow key).toNat % maxSessions + i) % maxSessions, Nat.mod_lt _ (by decide)⟩

def touchSession (e : NatEngine) (tick : UInt32) (idx : Fin maxSessions) : NatEngine :=
  { e with sessions := Function.update e.sessions idx ((e.sessions idx).stamp tick) }

/-- Overwrite a slot with a new session on the next external port. The port is not
looked up before it is taken. -/
def openSession (e : NatEngine) (key : FlowKey) (tick : UInt32) (idx : Fin maxSessions) :
    NatEngine :=
  let sess := e.sessions idx
  let portToIndex :=
    if sess.active then casIndex e.portToIndex (ntohs sess.externalPort) idx (-1)
    else e.portToIndex
  let extNbo := htons e.portCursor
  { e with
    sessions := Function.update e.sessions idx
      { seq := sess.seq + 1 + 1, internalKey := key, externalPort := extNbo,
        lastActiveTick := tick, active := true }
    portToIndex := Function.update portToIndex (ntohs extNbo) idx
    portCursor := nextCursor e.portCursor }

def examineSlot (e : NatEngine) (key : FlowKey) (tick : UInt32) (idx : Fin maxSessions) :
    Option (NatEngine × UInt16) :=
  if (e.sessions idx).reusable tick then
    some (e.openSession key tick idx, htons e.portCursor)
  else if (e.sessions idx).internalKey = key then
    some (e.touchSession tick idx, (e.sessions idx).externalPort)
  else none

def probe (e : NatEngine) (key : FlowKey) (tick : UInt32) : Option (NatEngine × UInt16) :=
  Fin.findSome? fun i : Fin 32 => e.examineSlot key tick (probeSlot key i)

def resolveAttempt (sess : NatSession) (saddr : IPv4Net) (sport dport : UInt16) :
    Attempt (IPv4Net × UInt16) :=
  let s0 := sess.seq
  if s0 &&& 1 ≠ 0 then .retry
  else
    let act := sess.active
    let ik := sess.internalKey
    let ep := sess.externalPort
    let s1 := sess.seq
    if s0 ≠ s1 ∨ s1 &&& 1 ≠ 0 then .retry
    else if !act then .refuse
    else if ik.daddr ≠ saddr ∨ ik.dport ≠ sport ∨ ep ≠ dport then .refuse
    else .resolved (ik.saddr, ik.sport)

/-! ## ICMP echo -/

def probeIcmpSlot (key : EchoKey) (i : Fin 32) : Fin maxIcmpSessions :=
  ⟨((hashIcmpFlow key).toNat % maxIcmpSessions + i) % maxIcmpSessions, Nat.mod_lt _ (by decide)⟩

def allocLoop : Nat → NatEngine → UInt16 × NatEngine
  | 0, e => (0, e)
  | n + 1, e =>
    let host := e.icmpIdCursor
    let idx := e.icmpIdToIndex host
    let e := { e with icmpIdCursor := nextCursor host }
    if idx < 0 then (htons host, e)
    else
      match slotOf maxIcmpSessions idx with
      | some i =>
        if !(e.icmpSessions i).active then
          -- the id of a session that has been deactivated is reclaimed
          (htons host, { e with icmpIdToIndex := casIndex e.icmpIdToIndex host idx (-1) })
        else allocLoop n e
      | none => allocLoop n e

def allocExternalIcmpId (e : NatEngine) : UInt16 × NatEngine := allocLoop 512 e

def setIcmpSession (e : NatEngine) (idx : Fin maxIcmpSessions) (s : IcmpEchoSession) :
    NatEngine :=
  { e with icmpSessions := Function.update e.icmpSessions idx s }

def touchIcmpSession (e : NatEngine) (tick : UInt32) (idx : Fin maxIcmpSessions) : NatEngine :=
  e.setIcmpSession idx ((e.icmpSessions idx).stamp tick)

def releaseIcmpSlot (e : NatEngine) (idx : Fin maxIcmpSessions) : NatEngine :=
  let sess := e.icmpSessions idx
  if sess.active then
    let e := { e with
      icmpIdToIndex := casIndex e.icmpIdToIndex (ntohs sess.extIdNbo) idx (-1) }
    e.setIcmpSession idx { sess with seq := sess.seq + 1, active := false }
  else e.setIcmpSession idx { sess with seq := sess.seq + 1 }

def fillIcmpSlot (e : NatEngine) (key : EchoKey) (tick : UInt32) (idx : Fin maxIcmpSessions)
    (newExt : UInt16) : NatEngine × UInt16 :=
  let sess := e.icmpSessions idx
  if newExt = 0 then (e.setIcmpSession idx { sess with seq := sess.seq + 1 }, 0)
  else
    let e := { e with icmpIdToIndex := Function.update e.icmpIdToIndex (ntohs newExt) idx }
    (e.setIcmpSession idx
      { seq := sess.seq + 1, intSaddr := key.saddr, remoteDaddr := key.daddr,
        intIdNbo := key.idNbo, extIdNbo := newExt, lastActiveTick := tick, active := true },
      newExt)

def openIcmpSession (e : NatEngine) (key : EchoKey) (tick : UInt32)
    (idx : Fin maxIcmpSessions) : NatEngine × UInt16 :=
  let (newExt, e) := (e.releaseIcmpSlot idx).allocExternalIcmpId
  e.fillIcmpSlot key tick idx newExt

/-- The body of the echo probe loop at one slot. An external id of zero is a `return false`. -/
def examineIcmpSlot (e : NatEngine) (key : EchoKey) (tick : UInt32)
    (idx : Fin maxIcmpSessions) : Option (NatEngine × UInt16) :=
  if (e.icmpSessions idx).reusable tick then some (e.openIcmpSession key tick idx)
  else if (e.icmpSessions idx).key = key then
    some (e.touchIcmpSession tick idx, (e.icmpSessions idx).extIdNbo)
  else none

def probeIcmp (e : NatEngine) (key : EchoKey) (tick : UInt32) : Option (NatEngine × UInt16) :=
  Fin.findSome? fun i : Fin 32 => e.examineIcmpSlot key tick (probeIcmpSlot key i)

def resolveIcmpAttempt (sess : IcmpEchoSession) (saddr : IPv4Net) (id : UInt16) :
    Attempt (IPv4Net × UInt16) :=
  let s0 := sess.seq
  if s0 &&& 1 ≠ 0 then .retry
  else
    let act := sess.active
    let rem := sess.remoteDaddr
    let intSa := sess.intSaddr
    let intId := sess.intIdNbo
    let extId := sess.extIdNbo
    let s1 := sess.seq
    if s0 ≠ s1 ∨ s1 &&& 1 ≠ 0 then .retry
    else if !act then .refuse
    else if rem ≠ saddr ∨ extId ≠ id then .refuse
    else .resolved (intSa, intId)

def echoView (pkt : ParsedPacket) (ip : Nat) (type : UInt8) : Option Nat :=
  match pkt.icmpEcho with
  | none => none
  | some icmp =>
    if (ntohs (IPv4Header.fragOff pkt.rawSpan ip)) &&& 0x3FFF ≠ 0 then none
    else if load8 pkt.rawSpan icmp ≠ type ∨ load8 pkt.rawSpan (icmp + 1) ≠ 0 then none
    else some icmp

def processOutboundIcmp (e : NatEngine) (pkt : ParsedPacket) (ip : Nat) : Outcome :=
  if e.wanIp.raw = 0 then ⟨false, e, pkt⟩
  else
    match echoView pkt ip 8 with
    | none => ⟨false, e, pkt⟩
    | some icmp =>
      let key : EchoKey := ⟨IPv4Header.saddr pkt.rawSpan ip, IPv4Header.daddr pkt.rawSpan ip,
        load16 pkt.rawSpan (icmp + 4)⟩
      match e.probeIcmp key e.currentTick with
      | none => ⟨false, e, pkt⟩
      | some (e', ext) =>
        if ext = 0 then ⟨false, e', pkt⟩
        else ⟨true, e', pkt.rewriteEchoSource ip icmp e.wanIp ext⟩

def processInboundIcmp (e : NatEngine) (pkt : ParsedPacket) (ip : Nat) : Outcome :=
  if IPv4Header.daddr pkt.rawSpan ip ≠ e.wanIp then ⟨false, e, pkt⟩
  else
    match echoView pkt ip 0 with
    | none => ⟨false, e, pkt⟩
    | some icmp =>
      let id := load16 pkt.rawSpan (icmp + 4)
      match slotOf maxIcmpSessions (e.icmpIdToIndex (ntohs id)) with
      | none => ⟨false, e, pkt⟩
      | some idx =>
        match retryLoop (resolveIcmpAttempt (e.icmpSessions idx)
            (IPv4Header.saddr pkt.rawSpan ip) id) 8 with
        | none => ⟨false, e, pkt⟩
        | some (intSa, intId) =>
          ⟨true, e.touchIcmpSession e.currentTick idx,
            pkt.rewriteEchoDestination ip icmp intSa intId⟩

/-! ## The two entry points -/

def processOutbound (e : NatEngine) (pkt : ParsedPacket) : Outcome :=
  match pkt.ipv4 with
  | none => ⟨false, e, pkt⟩
  | some ip =>
    if e.wanIp.raw = 0 then ⟨false, e, pkt⟩
    else
      let protocol := IPv4Header.protocol pkt.rawSpan ip
      if protocol = 1 then e.processOutboundIcmp pkt ip
      else if protocol ≠ 6 ∧ protocol ≠ 17 then ⟨false, e, pkt⟩
      else
        match pkt.portView protocol with
        | none => ⟨false, e, pkt⟩
        | some v =>
          let key : FlowKey := ⟨IPv4Header.saddr pkt.rawSpan ip, IPv4Header.daddr pkt.rawSpan ip,
            load16 pkt.rawSpan v.source, load16 pkt.rawSpan v.dest⟩
          match e.probe key e.currentTick with
          | none => ⟨false, e, pkt⟩
          | some (e', ext) =>
            if ext = 0 then ⟨false, e', pkt⟩
            else ⟨true, e', pkt.rewriteSource ip v e.wanIp ext⟩

def processInbound (e : NatEngine) (pkt : ParsedPacket) : Outcome :=
  match pkt.ipv4 with
  | none => ⟨false, e, pkt⟩
  | some ip =>
    let protocol := IPv4Header.protocol pkt.rawSpan ip
    if protocol = 1 then e.processInboundIcmp pkt ip
    else if protocol ≠ 6 ∧ protocol ≠ 17 then ⟨false, e, pkt⟩
    else if IPv4Header.daddr pkt.rawSpan ip ≠ e.wanIp then ⟨false, e, pkt⟩
    else
      match pkt.portView protocol with
      | none => ⟨false, e, pkt⟩
      | some v =>
        let dport := load16 pkt.rawSpan v.dest
        match slotOf maxSessions (e.portToIndex (ntohs dport)) with
        | none => ⟨false, e, pkt⟩
        | some idx =>
          match retryLoop (resolveAttempt (e.sessions idx) (IPv4Header.saddr pkt.rawSpan ip)
              (load16 pkt.rawSpan v.source) dport) 8 with
          | none => ⟨false, e, pkt⟩
          | some (internalIp, internalPort) =>
            ⟨true, e.touchSession e.currentTick idx,
              pkt.rewriteDestination ip v internalIp internalPort⟩

end NatEngine
end Hpgtp
