import TrafficPrioritizer.Lib.Run
import TrafficPrioritizer.Net.ParsedPacket
import Mathlib.Algebra.Order.Ring.Int
import Mathlib.Logic.Function.Basic
import Mathlib.Data.Fin.Tuple.Basic

/-! The DHCP engine: the lease pool, the decoding of a request, and the response frame.
Times are readings of the steady clock in nanoseconds; a call takes the readings it
makes as arguments. -/

namespace Hpgtp
open ByteBuffer

abbrev Mac := Vector UInt8 6

structure DhcpMessage where
  data : List UInt8
  fits : data.length ≤ 512

structure DhcpLease where
  mac : Mac := Vector.replicate 6 0
  ip : IPv4Net := {}
  active : Bool := false
  leaseExpiry : Int := 0
  deriving DecidableEq

structure DhcpPoolConfig where
  poolStart : IPv4Net := {}
  poolEnd : IPv4Net := {}
  lease : Int := 86400

def maxPoolSize : Nat := 253

structure DhcpEngine where
  leases : Fin maxPoolSize → DhcpLease
  poolCount : Nat
  routerIp : IPv4Net
  leaseDuration : Int
  lanIfMac : Mac
  poolCount_le : poolCount ≤ maxPoolSize

/-! ## Wire format -/

def sizeofDhcpHeader : Nat := 240

namespace DhcpHeader

def op (b : List UInt8) (o : Nat) : UInt8 := load8 b o
def xid (b : List UInt8) (o : Nat) : UInt32 := load32 b (o + 4)
def ciaddr (b : List UInt8) (o : Nat) : UInt32 := load32 b (o + 12)
def chaddr (b : List UInt8) (o : Nat) : Vector UInt8 16 := Vector.ofFn fun i => load8 b (o + 28 + i)
def magicCookie (b : List UInt8) (o : Nat) : UInt32 := load32 b (o + 236)

end DhcpHeader

structure DhcpOptions where
  msgType : UInt8 := 0
  rawRequestedIp : UInt32 := 0
  deriving DecidableEq, Repr

/-- The option loop from position `opt`; each pass moves on by at least one byte, so as many
passes as there are bytes left are enough. -/
def scanOptions (b : List UInt8) : Nat → Nat → DhcpOptions → DhcpOptions
  | 0, _, found => found
  | fuel + 1, opt, found =>
    if opt < b.length ∧ load8 b opt ≠ 255 then
      if load8 b opt = 0 then scanOptions b fuel (opt + 1) found
      else
        let len := load8 b (opt + 1)
        if opt + 2 + len.toNat > b.length then found
        else
          let found :=
            if load8 b opt = 53 ∧ len = 1 then { found with msgType := load8 b (opt + 2) } else found
          let found :=
            if load8 b opt = 50 ∧ len = 4 then { found with rawRequestedIp := load32 b (opt + 2) }
            else found
          scanOptions b fuel (opt + 2 + len.toNat) found
    else found

structure DhcpRequest where
  msgType : UInt8
  requestedIp : IPv4Net
  ciaddr : IPv4Net
  xid : UInt32
  chaddr : Vector UInt8 16
  deriving DecidableEq

def DhcpRequest.mac (r : DhcpRequest) : Mac :=
  Vector.ofFn fun i => r.chaddr.get (i.castLE (by decide))

def DhcpRequest.requested (r : DhcpRequest) : IPv4Net :=
  if r.requestedIp.raw = 0 then r.ciaddr else r.requestedIp

def DhcpMessage.decode (msg : DhcpMessage) : Option DhcpRequest :=
  let b := msg.data
  let parsed := ParsedPacket.parse b
  if !parsed.isValidIpv4 then none
  else if parsed.l4Protocol ≠ 17 then none
  else
    match parsed.udp with
    | none => none
    | some udp =>
      if ntohs (load16 b (udp + 2)) ≠ 67 then none
      else
        let dhcp := parsed.l4Offset + sizeofUDPHeader
        if b.length < dhcp + sizeofDhcpHeader then none
        else if DhcpHeader.op b dhcp ≠ 1 then none
        else if ntohl (DhcpHeader.magicCookie b dhcp) ≠ 0x63825363 then none
        else
          let opt := dhcp + sizeofDhcpHeader
          let options := scanOptions b (b.length - opt) opt {}
          some {
            msgType := options.msgType
            requestedIp := ⟨options.rawRequestedIp⟩
            ciaddr := ⟨DhcpHeader.ciaddr b dhcp⟩
            xid := DhcpHeader.xid b dhcp
            chaddr := DhcpHeader.chaddr b dhcp }

def DhcpMessage.ofFrame (span : List UInt8) : DhcpMessage :=
  ⟨span.take 512, by simp⟩

structure DhcpResponse where
  type : UInt8
  yiaddr : IPv4Net
  mac : Mac
  frame : List UInt8

def ipHeaderChecksum (header : List UInt8) : UInt16 :=
  let sum := ((List.range (sizeofIPv4Header / 2)).map fun i => (ntohs (load16 header (2 * i))).toNat).sum
  let sum := sum / 65536 + sum % 65536
  htons (~~~(UInt16.ofNat (sum + sum / 65536)))

namespace DhcpEngine

/-! ## The lease pool -/

def firstLease (d : DhcpEngine) (p : DhcpLease → Bool) : Option (Fin maxPoolSize) :=
  Fin.find? fun i => decide (i.val < d.poolCount) && p (d.leases i)

def setLease (d : DhcpEngine) (i : Fin maxPoolSize) (l : DhcpLease) : DhcpEngine :=
  { d with leases := Function.update d.leases i l }

def duration (d : DhcpEngine) : Int := d.leaseDuration * 1000000000

def initPool (d : DhcpEngine) (startIp endIp : IPv4Net) : Except String Unit × DhcpEngine :=
  let startH := startIp.toHost.raw
  let endH := endIp.toHost.raw
  if endH < startH then (.error "DHCP pool_end is before pool_start", d)
  else
    let span := endH.toNat - startH.toNat + 1
    if span = 0 then (.error "DHCP pool range overflow", d)
    else
      let d := { d with poolCount := min span maxPoolSize, poolCount_le := Nat.min_le_right .. }
      if d.poolCount = 0 then (.error "DHCP pool is empty", d)
      else
        (.ok (), { d with
          leases := fun i =>
            if i.val < d.poolCount then
              { d.leases i with ip := poolAdvance startIp (UInt32.ofNat i), active := false }
            else d.leases i })

def assignLease (d : DhcpEngine) (i : Fin maxPoolSize) (mac : Mac) (now : Int) : DhcpEngine :=
  d.setLease i { d.leases i with mac, active := true, leaseExpiry := now + d.duration }

def renewLease (d : DhcpEngine) (i : Fin maxPoolSize) (now : Int) : DhcpEngine :=
  d.setLease i { d.leases i with active := true, leaseExpiry := now + d.duration }

def findOrAssignLease (d : DhcpEngine) (mac : Mac) (now : Int) : DhcpEngine × IPv4Net :=
  match d.firstLease fun l => l.active && l.mac == mac with
  | some i => (d, (d.leases i).ip)
  | none =>
    match d.firstLease fun l => !l.active || now > l.leaseExpiry with
    | some i => (d.assignLease i mac now, (d.leases i).ip)
    | none => (d, {})

def commitLease (d : DhcpEngine) (ip : IPv4Net) (now : Int) : DhcpEngine :=
  match d.firstLease fun l => l.ip == ip with
  | some i => d.renewLease i now
  | none => d

/-! ## Responses -/

def responseOptions (d : DhcpEngine) (type : UInt8) : List UInt8 :=
  [53, 1, type] ++
  [1, 4, 255, 255, 255, 0] ++
  ([3, 4] ++ bytes32 d.routerIp.raw) ++
  ([6, 8] ++ bytes32 (htonl 0x08080808) ++ bytes32 (htonl 0x08040404)) ++
  ([51, 4] ++ bytes32 (htonl (UInt32.ofNat (d.leaseDuration % 2 ^ 32).toNat))) ++
  ([54, 4] ++ bytes32 d.routerIp.raw) ++
  [255]

def responseHeader (d : DhcpEngine) (r : DhcpRequest) (yiaddr : IPv4Net) : List UInt8 :=
  [2, 1, 6, 0] ++ bytes32 r.xid ++ bytes16 0 ++ bytes16 (htons 0x8000) ++
  bytes32 0 ++ bytes32 yiaddr.raw ++ bytes32 d.routerIp.raw ++ bytes32 0 ++
  r.chaddr.toList ++ List.replicate 64 0 ++ List.replicate 128 0 ++ bytes32 (htonl 0x63825363)

def responseIpHeader (d : DhcpEngine) (ipLen : Nat) (check : UInt16) : List UInt8 :=
  [0x45, 0] ++ bytes16 (htons (UInt16.ofNat ipLen)) ++ bytes16 0 ++ bytes16 0 ++ [64, 17] ++
  bytes16 check ++ bytes32 d.routerIp.raw ++ bytes32 0xFFFFFFFF

def responseFrame (d : DhcpEngine) (r : DhcpRequest) (type : UInt8) (yiaddr : IPv4Net) :
    List UInt8 :=
  let dhcp := d.responseHeader r yiaddr ++ d.responseOptions type
  let udpLen := sizeofUDPHeader + dhcp.length
  let ipLen := sizeofIPv4Header + udpLen
  let check := ipHeaderChecksum (d.responseIpHeader ipLen 0)
  r.mac.toList ++ d.lanIfMac.toList ++ bytes16 (htons 0x0800) ++
  d.responseIpHeader ipLen check ++
  (bytes16 (htons 67) ++ bytes16 (htons 68) ++ bytes16 (htons (UInt16.ofNat udpLen)) ++ bytes16 0) ++
  dhcp

def sendResponse (d : DhcpEngine) (r : DhcpRequest) (type : UInt8) (yiaddr : IPv4Net) :
    DhcpResponse :=
  { type, yiaddr, mac := r.mac, frame := d.responseFrame r type yiaddr }

/-! ## Requests -/

def handleDiscover (d : DhcpEngine) (r : DhcpRequest) (now : Int) :
    DhcpEngine × Option DhcpResponse :=
  let (d, offeredIp) := d.findOrAssignLease r.mac now
  if offeredIp.raw ≠ 0 then (d, some (d.sendResponse r 2 offeredIp)) else (d, none)

def handleRequest (d : DhcpEngine) (r : DhcpRequest) (now commitNow : Int) :
    DhcpEngine × Option DhcpResponse :=
  let (d, leasedIp) := d.findOrAssignLease r.mac now
  if leasedIp = r.requested then
    let d := d.commitLease leasedIp commitNow
    (d, some (d.sendResponse r 5 leasedIp))
  else (d, some (d.sendResponse r 6 r.requested))

/-- The lookup reads the clock at `now`, the commit of an acknowledged lease at `commitNow`. -/
def handleDhcpRequest (d : DhcpEngine) (msg : DhcpMessage) (now commitNow : Int) :
    DhcpEngine × Option DhcpResponse :=
  match msg.decode with
  | none => (d, none)
  | some r =>
    if r.msgType = 1 then d.handleDiscover r now
    else if r.msgType = 3 then d.handleRequest r now commitNow
    else (d, none)

/-! ## Construction and configuration -/

/-- The engine as constructed on a LAN address and an interface address; a pool that cannot be
set up is reported and left empty. -/
def new (routerIp : IPv4Net) (cfg : DhcpPoolConfig) (lanIfMac : Mac) : DhcpEngine :=
  let d : DhcpEngine :=
    { leases := fun _ => {}, poolCount := 0, routerIp, leaseDuration := cfg.lease, lanIfMac,
      poolCount_le := Nat.zero_le _ }
  (d.initPool cfg.poolStart cfg.poolEnd).2

def reconfigure (d : DhcpEngine) (cfg : DhcpPoolConfig) : Except String Unit × DhcpEngine :=
  let d := { d with leaseDuration := cfg.lease }
  d.initPool cfg.poolStart cfg.poolEnd

def setRouterIp (d : DhcpEngine) (ip : IPv4Net) : DhcpEngine := { d with routerIp := ip }

end DhcpEngine

inductive DhcpOp where
  | handleDhcpRequest (msg : DhcpMessage) (now commitNow : Int)
  | reconfigure (cfg : DhcpPoolConfig)
  | setRouterIp (ip : IPv4Net)

namespace DhcpEngine

def step (d : DhcpEngine) : DhcpOp → DhcpEngine
  | .handleDhcpRequest msg now commitNow => (d.handleDhcpRequest msg now commitNow).1
  | .reconfigure cfg => (d.reconfigure cfg).2
  | .setRouterIp ip => d.setRouterIp ip

theorem step_cases (d : DhcpEngine) (op : DhcpOp) :
    (∃ msg now commitNow, op = .handleDhcpRequest msg now commitNow ∧
      d.step op = (d.handleDhcpRequest msg now commitNow).1) ∨
    (∃ cfg, op = .reconfigure cfg ∧ d.step op = (d.reconfigure cfg).2) ∨
    ∃ ip, op = .setRouterIp ip ∧ d.step op = d.setRouterIp ip := by
  -- with a variable in place of `d.reconfigure` there is no comparison of addresses to evaluate
  have hstep (f : DhcpPoolConfig → Except String Unit × DhcpEngine) (after : DhcpEngine)
      (hafter : after = match op with
        | .handleDhcpRequest msg now commitNow => (d.handleDhcpRequest msg now commitNow).1
        | .reconfigure cfg => (f cfg).2
        | .setRouterIp ip => d.setRouterIp ip) :
      (∃ msg now commitNow, op = .handleDhcpRequest msg now commitNow ∧
        after = (d.handleDhcpRequest msg now commitNow).1) ∨
      (∃ cfg, op = .reconfigure cfg ∧ after = (f cfg).2) ∨
      ∃ ip, op = .setRouterIp ip ∧ after = d.setRouterIp ip := by
    cases op with
    | handleDhcpRequest msg now commitNow => exact .inl ⟨msg, now, commitNow, rfl, hafter⟩
    | reconfigure cfg => exact .inr (.inl ⟨cfg, rfl, hafter⟩)
    | setRouterIp ip => exact .inr (.inr ⟨ip, rfl, hafter⟩)
  exact hstep d.reconfigure _ rfl

theorem step_induction {P : DhcpEngine → Prop} {d : DhcpEngine} (op : DhcpOp)
    (request : ∀ msg now commitNow, P (d.handleDhcpRequest msg now commitNow).1)
    (config : ∀ cfg, P (d.reconfigure cfg).2) (router : ∀ ip, P (d.setRouterIp ip)) :
    P (d.step op) := by
  rcases d.step_cases op with ⟨msg, now, commitNow, -, heq⟩ | ⟨cfg, -, heq⟩ | ⟨ip, -, heq⟩ <;>
    rw [heq]
  · exact request msg now commitNow
  · exact config cfg
  · exact router ip

def Reachable (d : DhcpEngine) : Prop :=
  ∃ routerIp cfg lanIfMac ops, d = LabelledRun.exec step (new routerIp cfg lanIfMac) ops

end DhcpEngine
end Hpgtp
