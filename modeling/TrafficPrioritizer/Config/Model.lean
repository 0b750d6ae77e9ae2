import TrafficPrioritizer.Config.Address
import TrafficPrioritizer.Lib.Run

/-! The persisted settings: the configuration file that is read at the start and
written at the end, and the edits of the DHCP dialog. Strings are bytes. -/

namespace Hpgtp
open Text

@[ext] structure Config where
  ifaceWan : List UInt8
  ifaceLan : List UInt8
  routerIp : List UInt8
  applyRouterIpToLan : Bool
  lanPrefixLen : Int32
  enableAcceleration : Bool
  largePacketThreshold : UInt32
  enableNat : Bool
  dhcpPoolStart : List UInt8
  dhcpPoolEnd : List UInt8
  dhcpLeaseDuration : ℕ
  deriving DecidableEq

/-! ## The file -/

inductive Key where
  | ifaceWan
  | ifaceLan
  | routerIp
  | applyRouterIpToLan
  | lanPrefixLen
  | enableAcceleration
  | largePacketThreshold
  | enableNat
  | dhcpPoolStart
  | dhcpPoolEnd
  | dhcpLeaseSeconds
  deriving DecidableEq

namespace Key

def name : Key → List UInt8
  | .ifaceWan => ascii "IFACE_WAN"
  | .ifaceLan => ascii "IFACE_LAN"
  | .routerIp => ascii "ROUTER_IP"
  | .applyRouterIpToLan => ascii "APPLY_ROUTER_IP_TO_LAN"
  | .lanPrefixLen => ascii "LAN_PREFIX_LEN"
  | .enableAcceleration => ascii "ENABLE_ACCELERATION"
  | .largePacketThreshold => ascii "LARGE_PACKET_THRESHOLD"
  | .enableNat => ascii "enable_nat"
  | .dhcpPoolStart => ascii "DHCP_POOL_START"
  | .dhcpPoolEnd => ascii "DHCP_POOL_END"
  | .dhcpLeaseSeconds => ascii "DHCP_LEASE_SECONDS"

def all : List Key :=
  [.ifaceWan, .ifaceLan, .routerIp, .applyRouterIpToLan, .lanPrefixLen, .enableAcceleration,
    .largePacketThreshold, .enableNat, .dhcpPoolStart, .dhcpPoolEnd, .dhcpLeaseSeconds]

def ofName (s : List UInt8) : Option Key := all.find? fun k => k.name = s

end Key

def parseFlag (v : List UInt8) : Bool := v = ascii "true" ∨ v = ascii "1"

def printFlag (b : Bool) : List UInt8 := if b then ascii "true" else ascii "false"

def printInt (v : ℤ) : List UInt8 :=
  if v < 0 then 45 :: decimal v.natAbs else decimal v.natAbs

def parseKv (line : List UInt8) : Option (List UInt8 × List UInt8) :=
  let key := line.takeWhile (· ≠ 61)
  match line.dropWhile (· ≠ 61) with
  | [] => none
  | _ :: val =>
    if key.length = 0 ∨ 64 ≤ key.length ∨ 256 ≤ val.length then none
    else some (cString key, cString val)

def trimCr (line : List UInt8) : List UInt8 :=
  if line.getLast? = some 13 then line.dropLast else line

inductive Opened where
  | absent
  | refused (reason : String)
  | contents (bytes : List UInt8)

namespace Config

def defaults : Config where
  ifaceWan := ascii "eth0"
  ifaceLan := ascii "eth1"
  routerIp := ascii "192.168.12.1"
  applyRouterIpToLan := true
  lanPrefixLen := 24
  enableAcceleration := true
  largePacketThreshold := 1000
  enableNat := true
  dhcpPoolStart := ascii "192.168.12.50"
  dhcpPoolEnd := ascii "192.168.12.255"
  dhcpLeaseDuration := 86400

def set (c : Config) : Key → List UInt8 → Config
  | .ifaceWan, v => { c with ifaceWan := v }
  | .ifaceLan, v => { c with ifaceLan := v }
  | .routerIp, v => { c with routerIp := v }
  | .applyRouterIpToLan, v => { c with applyRouterIpToLan := parseFlag v }
  | .lanPrefixLen, v => { c with lanPrefixLen := (parseU32 v).toInt32 }
  | .enableAcceleration, v => { c with enableAcceleration := parseFlag v }
  | .largePacketThreshold, v => { c with largePacketThreshold := parseU32 v }
  | .enableNat, v => { c with enableNat := parseFlag v }
  | .dhcpPoolStart, v => { c with dhcpPoolStart := v }
  | .dhcpPoolEnd, v => { c with dhcpPoolEnd := v }
  | .dhcpLeaseSeconds, v => { c with dhcpLeaseDuration := (parseU32 v).toNat }

def value (c : Config) : Key → List UInt8
  | .ifaceWan => cString c.ifaceWan
  | .ifaceLan => cString c.ifaceLan
  | .routerIp => cString c.routerIp
  | .applyRouterIpToLan => printFlag c.applyRouterIpToLan
  | .lanPrefixLen => printInt c.lanPrefixLen.toInt
  | .enableAcceleration => printFlag c.enableAcceleration
  | .largePacketThreshold => decimal c.largePacketThreshold.toNat
  | .enableNat => printFlag c.enableNat
  | .dhcpPoolStart => cString c.dhcpPoolStart
  | .dhcpPoolEnd => cString c.dhcpPoolEnd
  | .dhcpLeaseSeconds => decimal (c.dhcpLeaseDuration % 2 ^ 32)

def loadLine (c : Config) (raw : List UInt8) : Config :=
  let line := trimCr raw
  if line ≠ [] ∧ line.head? ≠ some 35 then
    match parseKv line with
    | none => c
    | some (key, val) =>
      match Key.ofName key with
      | none => c
      | some k => c.set k val
  else c

/-- One `read` fills the buffer but for its last byte; what follows is not looked at. -/
def loadBytes (c : Config) (file : List UInt8) : Config :=
  (lines (file.take 8191)).foldl loadLine c

def loadConfig (path : String) (c : Config) : Opened → Config × Except String Unit
  | .absent => (c, .ok ())
  | .refused reason => (c, .error ("cannot open " ++ path ++ ": " ++ reason))
  | .contents file => (c.loadBytes file, .ok ())

def savedLine (c : Config) (k : Key) : List UInt8 := k.name ++ 61 :: c.value k

def saveBytes (c : Config) : List UInt8 :=
  unlines (ascii "# Auto-saved on shutdown" :: Key.all.map c.savedLine)

def saveConfig (path : String) (c : Config) : Option String → Except String (List UInt8)
  | some reason => .error ("cannot write " ++ path ++ ": " ++ reason)
  | none => .ok c.saveBytes

/-! ## The DHCP dialog -/

/-- What the fields of the dialog hold; the ranges are those of its spin boxes. -/
structure DhcpEdit where
  poolStart : List UInt8
  poolEnd : List UInt8
  days : Fin 366
  hours : Fin 25
  minutes : Fin 61

def DhcpEdit.seconds (e : DhcpEdit) : ℕ :=
  let secs := e.days.val * 86400 + e.hours.val * 3600 + e.minutes.val * 60
  if secs = 0 then 60 else secs

/-- `on_apply` up to its callback; `none` when a field is marked as wrong. -/
def onApply (c : Config) (e : DhcpEdit) : Option Config :=
  if (dottedQuad e.poolStart).isNone ∨ (dottedQuad e.poolEnd).isNone then none
  else match parseIpStr e.poolStart, parseIpStr e.poolEnd with
    | .ok start, .ok stop =>
      if stop.toHost.raw ≤ start.toHost.raw then none
      else some { c with
        dhcpPoolStart := e.poolStart, dhcpPoolEnd := e.poolEnd, dhcpLeaseDuration := e.seconds }
    | _, _ => none

inductive Op where
  | load (path : String) (file : Opened)
  | edit (e : DhcpEdit)

def step (c : Config) : Op → Config
  | .load path file => (loadConfig path c file).1
  | .edit e => (c.onApply e).getD c

def strings (c : Config) : List (List UInt8) :=
  [c.ifaceWan, c.ifaceLan, c.routerIp, c.dhcpPoolStart, c.dhcpPoolEnd]

end Config
end Hpgtp
