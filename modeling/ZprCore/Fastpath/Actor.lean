-- SUMMARY: The fastpath between the local actor and its tethers, in both directions.
import ZprCore.Adapter.Tables
import ZprCore.Fastpath.Compress

/-!
# Actor packets

The part of `fastpath.rs` that takes packets from the local actor and hands packets to it. A
packet of a flow with a tether is compressed and gets a check value and a header; a packet from
a tether is expanded and its check value compared. `none` stands for a panic. A packet has some
room behind it in its buffer, which the check value goes into.
-/

namespace ZprCore.Fastpath

open ZprCore.Flow Adapter

/-- Why a packet is dropped, which is how the source counts it. -/
inductive DropReason where
  | inPacksDrop
  | ttlExpired
  | otherError
  | droppedAwaitingBind
  | badStructure
  | unknownStreamId
  | micvFailure
  | unknownZpi
  | decryptionFailure
  | badChecksum
  | unknownPeer
  | queueBackpressure
deriving DecidableEq

structure Packet where
  body : Bytes
  tailroom : Nat
deriving DecidableEq

/-- `BufMut::put`, which panics at the end of the buffer. -/
def Packet.put (p : Packet) (b : Bytes) : Option Packet :=
  if p.tailroom < b.length then none else some ⟨p.body ++ b, p.tailroom - b.length⟩

structure ActorPacket extends Packet where
  fiveTuple : FiveTuple
deriving DecidableEq

/-! ## From the actor -/

/-- Where the TTL or hop limit is. -/
def ttlOffset : L3Type → Option Nat
  | .ipv4 => some 8
  | .ipv6 => some 7
  | .other _ => none

/-- The length of the header that `decrement_ttl` looks at. -/
def ipHeaderLen : L3Type → Nat
  | .ipv4 => ipv4HeaderLen
  | .ipv6 => ipv6HeaderLen
  | .other _ => 0

/-- `decrement_ttl`: the packet, and whether it has to be discarded. -/
def decrementTtl (l3Type : L3Type) (b : Bytes) : Option (Bytes × Bool) :=
  match ttlOffset l3Type with
  | none => some (b, false)
  | some i =>
    if b.length < ipHeaderLen l3Type then none
    else
      let ttl := if 0 < byteAt b i then byteAt b i - 1 else byteAt b i
      some (b.set i ttl, ttl == 0)

inductive ActorOutput where
  | dropped (reason : DropReason)
  /-- A tether is requested for the flow; the packet waits for it. -/
  | requestTetherId (pkt : ActorPacket)
  /-- The compressed packet goes out on the tether. -/
  | forward (tether : StreamId) (p : Packet)
deriving DecidableEq

section

variable (sums : Checksums) (a2a : A2a)

def actorOutputPostClassify (elt : EndpointLookupTable) (allowBindRequest : Bool)
    (pkt : ActorPacket) : Option ActorOutput :=
  match elt.table.lookup pkt.fiveTuple with
  | none =>
    if allowBindRequest then some (.requestTetherId pkt) else some (.dropped .otherError)
  | some (.pending ..) => some (.dropped .droppedAwaitingBind)
  | some (.active pep) => do
    let a2aMac := a2a.micv pep.a2aMicvKey pkt.body
    let compressed ← compress pep.compressionMode pkt.fiveTuple.l3Type pkt.fiveTuple.l4Protocol pkt.body
    -- compression leaves the end of the packet where it is
    let p ← Packet.put { pkt.toPacket with body := compressed } a2aMac
    some (.forward pep.tetherId { p with body := a2a.header ++ p.body })

def actorOutput (elt : EndpointLookupTable) (p : Packet) : Option ActorOutput := do
  let (fiveTuple, classification) ← classify sums p.body
  match classification with
  | .ok .ok | .ok .unclassifiedL4 =>
    let (body, ttlExpired) ← decrementTtl fiveTuple.l3Type p.body
    if ttlExpired then some (.dropped .ttlExpired)
    else actorOutputPostClassify a2a elt true { body, tailroom := p.tailroom, fiveTuple }
  | _ => some (.dropped .inPacksDrop)

/-! ## To the actor -/

inductive ActorInput where
  | dropped (reason : DropReason)
  | queued (body : Bytes)
deriving DecidableEq

def actorInput (dlt : DockLookupTable) (tether : StreamId) (b : Bytes) : Option ActorInput :=
  if b.length < a2a.saidSize then some (.dropped .badStructure)
  -- other security associations are still to be done
  else if b.take a2a.saidSize ≠ a2a.header then none
  else
    let b := b.drop a2a.saidSize
    if b.length < A2a.macSize then some (.dropped .badStructure)
    else
      let a2aMac := b.drop (b.length - A2a.macSize)
      let b := b.take (b.length - A2a.macSize)
      match dlt.lookup tether with
      | none => some (.dropped .unknownStreamId)
      | some pep => do
        let expanded ← expand sums pep.tc.compressionMode pep.tc.fiveTuple b
        if a2a.micv pep.a2aMicvKey expanded ≠ a2aMac then some (.dropped .micvFailure)
        else some (.queued expanded)

end

end ZprCore.Fastpath
