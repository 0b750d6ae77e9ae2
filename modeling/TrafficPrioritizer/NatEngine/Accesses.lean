import TrafficPrioritizer.NatEngine.Model
import TrafficPrioritizer.Lib.Seqlock

/-! The functions of the NAT engine by their single accesses to what the threads share, in program
order. A packet and the locals of a call belong to one thread and are no part of this. -/

namespace Hpgtp
open ByteBuffer ReverseIndex SharedMemory Seqlock

/-! ## What is shared -/

inductive FlowDatum
  | saddr
  | daddr
  | sport
  | dport
  | externalPort
  deriving DecidableEq

def FlowDatum.Val : FlowDatum → Type
  | .saddr => IPv4Net
  | .daddr => IPv4Net
  | .sport => UInt16
  | .dport => UInt16
  | .externalPort => UInt16

inductive EchoDatum
  | intSaddr
  | remoteDaddr
  | intIdNbo
  | extIdNbo
  deriving DecidableEq

def EchoDatum.Val : EchoDatum → Type
  | .intSaddr => IPv4Net
  | .remoteDaddr => IPv4Net
  | .intIdNbo => UInt16
  | .extIdNbo => UInt16

inductive Session
  | flow (i : Fin maxSessions)
  | echo (i : Fin maxIcmpSessions)
  deriving DecidableEq

def Session.Datum : Session → Type
  | .flow _ => FlowDatum
  | .echo _ => EchoDatum

instance : (l : Session) → DecidableEq l.Datum
  | .flow _ => inferInstanceAs (DecidableEq FlowDatum)
  | .echo _ => inferInstanceAs (DecidableEq EchoDatum)

def Session.Val : (l : Session) → l.Datum → Type
  | .flow _ => FlowDatum.Val
  | .echo _ => EchoDatum.Val

inductive Table
  | port
  | icmpId
  deriving DecidableEq

/-- `index` is `port_to_index` or `icmp_id_to_index`, `cursor` is `port_cursor` or
`icmp_id_cursor`. -/
inductive NatVar
  | index (t : Table) (n : UInt16)
  | cursor (t : Table)
  | wanIp
  | currentTick
  deriving DecidableEq

def NatVar.Val : NatVar → Type
  | .index _ _ => Int
  | .cursor _ => UInt16
  | .wanIp => IPv4Net
  | .currentTick => UInt32

abbrev NatVal : Cell Session.Datum NatVar → Type := Cell.Val Session.Val NatVar.Val

abbrev NatProg : Type → Type := Prog NatVal

namespace NatThread

def loadFlow (idx : Fin maxSessions) (f : FlowDatum) : NatProg f.Val :=
  loadDatum (V := Session.Val) (Session.flow idx) f

def storeFlow (idx : Fin maxSessions) (f : FlowDatum) (v : f.Val) : NatProg Unit :=
  storeDatum (Session.flow idx) f v

def loadEcho (idx : Fin maxIcmpSessions) (f : EchoDatum) : NatProg f.Val :=
  loadDatum (V := Session.Val) (Session.echo idx) f

def storeEcho (idx : Fin maxIcmpSessions) (f : EchoDatum) (v : f.Val) : NatProg Unit :=
  storeDatum (Session.echo idx) f v

def loadVar (o : NatVar) : NatProg o.Val := loadOther o

def storeVar (o : NatVar) (v : o.Val) : NatProg Unit := storeOther o v

/-! ## The writer -/

def reusable (l : Session) (tick : UInt32) (isActive : Bool) : NatProg Bool :=
  if !isActive then pure true
  else do
    let last ← loadStamp l
    pure (tick - last > 300)

def releaseIndex (t : Table) (n : UInt16) (idx : Int) : NatProg Unit := do
  let _ ← modifyOther (NatVar.index t n)
    fun entry : Int => if entry = idx then (-1 : Int) else entry
  pure ()

def takeCursor (t : Table) : NatProg UInt16 := do
  let value : UInt16 ← loadVar (.cursor t)
  storeVar (.cursor t) (value + 1 : UInt16)
  let next : UInt16 ← loadVar (.cursor t)
  if next > 60000 then do
    storeVar (.cursor t) (10000 : UInt16)
    pure value
  else pure value

def releasePort (idx : Fin maxSessions) (isActive : Bool) : NatProg Unit :=
  if isActive then do
    let oldPort : UInt16 ← loadFlow idx .externalPort
    releaseIndex .port (ntohs oldPort) (idx : Nat)
  else pure ()

def writeFlow (idx : Fin maxSessions) (key : FlowKey) (tick : UInt32) (isActive : Bool) :
    NatProg UInt16 := do
  let _ ← bumpSeq (.flow idx)
  releasePort idx isActive
  storeFlow idx .saddr key.saddr
  storeFlow idx .daddr key.daddr
  storeFlow idx .sport key.sport
  storeFlow idx .dport key.dport
  let port ← takeCursor .port
  storeFlow idx .externalPort (htons port)
  storeStamp (.flow idx) tick
  let _ ← bumpSeq (.flow idx)
  storeActive (.flow idx) true
  storeVar (.index .port (ntohs (htons port))) ((idx : Nat) : Int)
  pure (htons port)

def sameFlow (idx : Fin maxSessions) (key : FlowKey) : NatProg Bool := do
  let saddr : IPv4Net ← loadFlow idx .saddr
  if saddr ≠ key.saddr then pure false
  else do
    let daddr : IPv4Net ← loadFlow idx .daddr
    if daddr ≠ key.daddr then pure false
    else do
      let sport : UInt16 ← loadFlow idx .sport
      if sport ≠ key.sport then pure false
      else do
        let dport : UInt16 ← loadFlow idx .dport
        pure (dport = key.dport)

def touchFlow (idx : Fin maxSessions) (tick : UInt32) : NatProg UInt16 := do
  storeStamp (.flow idx) tick
  loadFlow idx .externalPort

def probe (key : FlowKey) (tick : UInt32) : List (Fin maxSessions) → NatProg UInt16
  | [] => pure 0
  | idx :: rest => do
    let isActive ← loadActive (.flow idx)
    let taken ← reusable (.flow idx) tick isActive
    if taken then writeFlow idx key tick isActive
    else do
      let same ← sameFlow idx key
      if same then touchFlow idx tick else probe key tick rest

def allocExternalIcmpId : Nat → NatProg UInt16
  | 0 => pure 0
  | n + 1 => do
    let host ← takeCursor .icmpId
    let entry : Int ← loadVar (.index .icmpId host)
    if entry < 0 then pure (htons host)
    else
      match slotOf maxIcmpSessions entry with
      | none => allocExternalIcmpId n
      | some i => do
        let isActive ← loadActive (.echo i)
        if !isActive then do
          releaseIndex .icmpId host entry
          pure (htons host)
        else allocExternalIcmpId n

def releaseIcmpSlot (idx : Fin maxIcmpSessions) (isActive : Bool) : NatProg Unit :=
  if isActive then do
    let oldId : UInt16 ← loadEcho idx .extIdNbo
    releaseIndex .icmpId (ntohs oldId) (idx : Nat)
    storeActive (.echo idx) false
  else pure ()

def fillIcmpSlot (idx : Fin maxIcmpSessions) (key : EchoKey) (tick : UInt32) (newExt : UInt16) :
    NatProg UInt16 :=
  if newExt = 0 then do
    let _ ← bumpSeq (.echo idx)
    pure 0
  else do
    storeEcho idx .intSaddr key.saddr
    storeEcho idx .remoteDaddr key.daddr
    storeEcho idx .intIdNbo key.idNbo
    storeEcho idx .extIdNbo newExt
    storeStamp (.echo idx) tick
    storeVar (.index .icmpId (ntohs newExt)) ((idx : Nat) : Int)
    let _ ← bumpSeq (.echo idx)
    storeActive (.echo idx) true
    pure newExt

def writeEcho (idx : Fin maxIcmpSessions) (key : EchoKey) (tick : UInt32) (isActive : Bool) :
    NatProg UInt16 := do
  let _ ← bumpSeq (.echo idx)
  releaseIcmpSlot idx isActive
  let newExt ← allocExternalIcmpId 512
  fillIcmpSlot idx key tick newExt

def sameEcho (idx : Fin maxIcmpSessions) (key : EchoKey) : NatProg Bool := do
  let intSaddr : IPv4Net ← loadEcho idx .intSaddr
  if intSaddr ≠ key.saddr then pure false
  else do
    let remoteDaddr : IPv4Net ← loadEcho idx .remoteDaddr
    if remoteDaddr ≠ key.daddr then pure false
    else do
      let intIdNbo : UInt16 ← loadEcho idx .intIdNbo
      pure (intIdNbo = key.idNbo)

def touchEcho (idx : Fin maxIcmpSessions) (tick : UInt32) : NatProg UInt16 := do
  storeStamp (.echo idx) tick
  loadEcho idx .extIdNbo

def probeIcmp (key : EchoKey) (tick : UInt32) : List (Fin maxIcmpSessions) → NatProg UInt16
  | [] => pure 0
  | idx :: rest => do
    let isActive ← loadActive (.echo idx)
    let taken ← reusable (.echo idx) tick isActive
    if taken then writeEcho idx key tick isActive
    else do
      let same ← sameEcho idx key
      if same then touchEcho idx tick else probeIcmp key tick rest

structure Outbound where
  translated : Bool
  packet : ParsedPacket

def processOutboundIcmp (pkt : ParsedPacket) (ip : Nat) : NatProg Outbound := do
  let wanIp : IPv4Net ← loadVar .wanIp
  if wanIp.raw = 0 then pure ⟨false, pkt⟩
  else
    match NatEngine.echoView pkt ip 8 with
    | none => pure ⟨false, pkt⟩
    | some icmp => do
      let key : EchoKey := ⟨IPv4Header.saddr pkt.rawSpan ip, IPv4Header.daddr pkt.rawSpan ip,
        load16 pkt.rawSpan (icmp + 4)⟩
      let tick : UInt32 ← loadVar .currentTick
      let ext ← probeIcmp key tick (List.ofFn (NatEngine.probeIcmpSlot key))
      if ext = 0 then pure ⟨false, pkt⟩
      else pure ⟨true, pkt.rewriteEchoSource ip icmp wanIp ext⟩

def processOutbound (pkt : ParsedPacket) : NatProg Outbound :=
  match pkt.ipv4 with
  | none => pure ⟨false, pkt⟩
  | some ip => do
    let wanIp : IPv4Net ← loadVar .wanIp
    if wanIp.raw = 0 then pure ⟨false, pkt⟩
    else if IPv4Header.protocol pkt.rawSpan ip = 1 then processOutboundIcmp pkt ip
    else if IPv4Header.protocol pkt.rawSpan ip ≠ 6 ∧ IPv4Header.protocol pkt.rawSpan ip ≠ 17 then
      pure ⟨false, pkt⟩
    else
      match pkt.portView (IPv4Header.protocol pkt.rawSpan ip) with
      | none => pure ⟨false, pkt⟩
      | some v => do
        let key : FlowKey := ⟨IPv4Header.saddr pkt.rawSpan ip, IPv4Header.daddr pkt.rawSpan ip,
          load16 pkt.rawSpan v.source, load16 pkt.rawSpan v.dest⟩
        let tick : UInt32 ← loadVar .currentTick
        let ext ← probe key tick (List.ofFn (NatEngine.probeSlot key))
        if ext = 0 then pure ⟨false, pkt⟩
        else pure ⟨true, pkt.rewriteSource ip v wanIp ext⟩

/-! ## The readers -/

def attempt (idx : Fin maxSessions) (saddr : IPv4Net) (sport dport : UInt16) :
    NatProg (Attempt (FlowKey × UInt16)) := do
  let s0 ← loadSeq (.flow idx)
  if s0 &&& 1 ≠ 0 then pure .retry
  else do
    let act ← loadActive (.flow idx)
    let ikSaddr : IPv4Net ← loadFlow idx .saddr
    let ikDaddr : IPv4Net ← loadFlow idx .daddr
    let ikSport : UInt16 ← loadFlow idx .sport
    let ikDport : UInt16 ← loadFlow idx .dport
    let ep : UInt16 ← loadFlow idx .externalPort
    let s1 ← loadSeq (.flow idx)
    if s0 ≠ s1 ∨ s1 &&& 1 ≠ 0 then pure .retry
    else if !act then pure .refuse
    else if ikDaddr ≠ saddr ∨ ikDport ≠ sport ∨ ep ≠ dport then pure .refuse
    else pure (.resolved (⟨ikSaddr, ikDaddr, ikSport, ikDport⟩, ep))

def attemptIcmp (idx : Fin maxIcmpSessions) (saddr : IPv4Net) (id : UInt16) :
    NatProg (Attempt (EchoKey × UInt16)) := do
  let s0 ← loadSeq (.echo idx)
  if s0 &&& 1 ≠ 0 then pure .retry
  else do
    let act ← loadActive (.echo idx)
    let rem : IPv4Net ← loadEcho idx .remoteDaddr
    let intSa : IPv4Net ← loadEcho idx .intSaddr
    let intId : UInt16 ← loadEcho idx .intIdNbo
    let extId : UInt16 ← loadEcho idx .extIdNbo
    let s1 ← loadSeq (.echo idx)
    if s0 ≠ s1 ∨ s1 &&& 1 ≠ 0 then pure .retry
    else if !act then pure .refuse
    else if rem ≠ saddr ∨ extId ≠ id then pure .refuse
    else pure (.resolved (⟨intSa, rem, intId⟩, extId))

def retryLoop {α : Type} (attempt : NatProg (Attempt α)) : Nat → NatProg (Option α)
  | 0 => pure none
  | n + 1 => do
    let a ← attempt
    match a with
    | .retry => retryLoop attempt n
    | .refuse => pure none
    | .resolved a => pure (some a)

def flowData (key : FlowKey) (port : UInt16) : (f : FlowDatum) → f.Val
  | .saddr => key.saddr
  | .daddr => key.daddr
  | .sport => key.sport
  | .dport => key.dport
  | .externalPort => port

def echoData (key : EchoKey) (id : UInt16) : (f : EchoDatum) → f.Val
  | .intSaddr => key.saddr
  | .remoteDaddr => key.daddr
  | .intIdNbo => key.idNbo
  | .extIdNbo => id

structure Inbound where
  translated : Bool
  packet : ParsedPacket
  copied : Option ((l : Session) × ((f : l.Datum) → l.Val f))

def processInboundIcmp (pkt : ParsedPacket) (ip : Nat) : NatProg Inbound := do
  let wanIp : IPv4Net ← loadVar .wanIp
  if IPv4Header.daddr pkt.rawSpan ip ≠ wanIp then pure ⟨false, pkt, none⟩
  else
    match NatEngine.echoView pkt ip 0 with
    | none => pure ⟨false, pkt, none⟩
    | some icmp => do
      let entry : Int ← loadVar (.index .icmpId (ntohs (load16 pkt.rawSpan (icmp + 4))))
      match slotOf maxIcmpSessions entry with
      | none => pure ⟨false, pkt, none⟩
      | some idx => do
        let resolved ← retryLoop (attemptIcmp idx (IPv4Header.saddr pkt.rawSpan ip)
          (load16 pkt.rawSpan (icmp + 4))) 8
        match resolved with
        | none => pure ⟨false, pkt, none⟩
        | some (key, ext) => do
          let tick : UInt32 ← loadVar .currentTick
          storeStamp (.echo idx) tick
          pure ⟨true, pkt.rewriteEchoDestination ip icmp key.saddr key.idNbo,
            some ⟨.echo idx, echoData key ext⟩⟩

def processInbound (pkt : ParsedPacket) : NatProg Inbound :=
  match pkt.ipv4 with
  | none => pure ⟨false, pkt, none⟩
  | some ip => do
    let wanIp : IPv4Net ← loadVar .wanIp
    if IPv4Header.protocol pkt.rawSpan ip = 1 then processInboundIcmp pkt ip
    else if IPv4Header.protocol pkt.rawSpan ip ≠ 6 ∧ IPv4Header.protocol pkt.rawSpan ip ≠ 17 then
      pure ⟨false, pkt, none⟩
    else if IPv4Header.daddr pkt.rawSpan ip ≠ wanIp then pure ⟨false, pkt, none⟩
    else
      match pkt.portView (IPv4Header.protocol pkt.rawSpan ip) with
      | none => pure ⟨false, pkt, none⟩
      | some v => do
        let entry : Int ← loadVar (.index .port (ntohs (load16 pkt.rawSpan v.dest)))
        match slotOf maxSessions entry with
        | none => pure ⟨false, pkt, none⟩
        | some idx => do
          let resolved ← retryLoop (attempt idx (IPv4Header.saddr pkt.rawSpan ip)
            (load16 pkt.rawSpan v.source) (load16 pkt.rawSpan v.dest)) 8
          match resolved with
          | none => pure ⟨false, pkt, none⟩
          | some (ik, ep) => do
            let tick : UInt32 ← loadVar .currentTick
            storeStamp (.flow idx) tick
            pure ⟨true, pkt.rewriteDestination ip v ik.saddr ik.sport,
              some ⟨.flow idx, flowData ik ep⟩⟩

/-! ## Timer and control plane -/

def tick : NatProg Unit := do
  let _ ← modifyOther NatVar.currentTick fun n : UInt32 => (n + 1 : UInt32)
  pure ()

def setWanIp (ip : IPv4Net) : NatProg Unit := do
  storeVar .wanIp ip
  pure ()

/-! ## The threads -/

def flowMem {i : Fin maxSessions} (sess : NatSession) :
    (f : SlotField FlowDatum) → NatVal (.slot (.flow i) f)
  | .seq => sess.seq
  | .datum f => flowData sess.internalKey sess.externalPort f
  | .active => sess.active
  | .stamp => sess.lastActiveTick

def echoMem {i : Fin maxIcmpSessions} (sess : IcmpEchoSession) :
    (f : SlotField EchoDatum) → NatVal (.slot (.echo i) f)
  | .seq => sess.seq
  | .datum f => echoData sess.key sess.extIdNbo f
  | .active => sess.active
  | .stamp => sess.lastActiveTick

def varMem (e : NatEngine) : (o : NatVar) → o.Val
  | .index .port n => e.portToIndex n
  | .index .icmpId n => e.icmpIdToIndex n
  | .cursor .port => e.portCursor
  | .cursor .icmpId => e.icmpIdCursor
  | .wanIp => e.wanIp
  | .currentTick => e.currentTick

def memOf (e : NatEngine) : ∀ c, NatVal c
  | .slot (.flow i) f => flowMem (e.sessions i) f
  | .slot (.echo i) f => echoMem (e.icmpSessions i) f
  | .other o => varMem e o

end NatThread

inductive NatThread (ρ : Type)
  | outbound
  | inbound (r : ρ)
  | timer
  | control
  deriving DecidableEq

namespace NatThread
variable {ρ : Type}

def Call : NatThread ρ → Type
  | .outbound => ParsedPacket
  | .inbound _ => ParsedPacket
  | .timer => Unit
  | .control => IPv4Net

def Out : NatThread ρ → Type
  | .outbound => Option Outbound
  | .inbound _ => Option Inbound
  | .timer => Unit
  | .control => Unit

def body : (t : NatThread ρ) → t.Call → NatProg t.Out
  | .outbound, pkt => do
    let out ← processOutbound pkt
    pure (some out)
  | .inbound _, pkt => do
    let out ← processInbound pkt
    pure (some out)
  | .timer, () => tick
  | .control, ip => setWanIp ip

def system (ρ : Type) : System (NatThread ρ) NatVal := ⟨Call, Out, body⟩

def start (ρ : Type) : Machine (system ρ) where
  shared := ⟨memOf .new, []⟩
  prog
    | .outbound => .ret (none : Option Outbound)
    | .inbound _ => .ret (none : Option Inbound)
    | .timer => .ret ()
    | .control => .ret ()

end NatThread
end Hpgtp
