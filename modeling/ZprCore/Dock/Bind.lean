-- SUMMARY: The bind state machine of a node: from a bind request to an installed stream.
import ZprCore.Dock.Visas

/-!
# Binding streams

`mgmt/node.rs` and the handlers that call it. A bind request walks from the visa service
over the next hop to an entry of the forwarding table; its state is kept under the ingress
link and the transaction id that the peer chose, and the next-hop request is kept on the
egress link under a handle.
-/

namespace ZprCore.Dock

open ZprCore.Flow

namespace Node

/-! ## Rejection -/

def lingers (n : Node) (link : LinkId) (txn : TxnId) : Bool :=
  match n.bindState link txn with
  | some (.awaitingNextHopBind _ egress egressTxn) => (n.awaiting egress egressTxn).isSome
  | _ => false

/-- Send the error response that a peer of this kind expects. -/
def sendBindError (n : Node) (link : LinkId) (p : PeerState) (txn : TxnId) (reason : String) :
    Node :=
  match p.peerType link with
  | .adapter => n.send link (.bindActorAddressError txn reason)
  | .node => n.send link (.streamIdError txn reason)
  | .dock | .unknown => n

def bindReject (n : Node) (link : LinkId) (txn : TxnId) (reason : String) : Except Halt Node :=
  match n.peers.lookup link with
  | none => .ok n
  | some p =>
    if n.lingers link txn then .error (.panic .dockConsistency)
    else .ok ((n.eraseBindState link txn).sendBindError link p txn reason)

def requestedVisaDenied (n : Node) (link : LinkId) (txn : TxnId) : Except Halt Node :=
  n.bindReject link txn "policy error"

/-! ## Next-hop bind -/

/-- Open a transaction on the egress link and send the next-hop request in it. -/
def requestNextHop (n : Node) (link : LinkId) (txn : TxnId) (v : VisaId) (egress : LinkId)
    (egressPeer : PeerState) (request : TxnId → Message) : Except Halt Node :=
  let handle : TxnHandle := ⟨egressPeer.serial, egressPeer.nextFree⟩
  if n.isOpen handle then .error (.panic .bindBackpressure)
  else
    let n := n.bumpTxn egress
    match n.peers.lookup link with
    -- the requestor went away, which closes the transaction again
    | none => .ok n
    | some _ =>
      let n := n.setBindState link txn (.awaitingNextHopBind v egress handle)
      let n := n.setAwaiting egress handle (link, txn)
      .ok (n.send egress (request handle.id))

def requestedVisaGranted (n : Node) (link : LinkId) (txn : TxnId) (v : VisaId) :
    Except Halt Node :=
  match n.getEgressLinkForVisa v with
  | .error _ => n.requestedVisaDenied link txn
  | .ok egress =>
    match n.peers.lookup egress with
    | none => n.requestedVisaDenied link txn
    | some egressPeer =>
      match egressPeer.peerType egress with
      | .node =>
        n.requestNextHop link txn v egress egressPeer fun id => .streamIdRequest id v
      | .adapter =>
        match n.visas.table.lookup v with
        | none => n.requestedVisaDenied link txn
        | some visa =>
          match visa.getTc with
          | none => .error (.panic .unknownProtocol)
          | some tc =>
            n.requestNextHop link txn v egress egressPeer fun id =>
              .bindEgressStreamRequest id tc visa.getIngressA2aDhPubkey
      | .dock | .unknown => n.requestedVisaDenied link txn

/-! ## Requests -/

def spawnTask (n : Node) (link : LinkId) (p : PeerState) (txn : TxnId) (query : VisaQuery)
    (st : BindRequestState) : Node :=
  (n.setBindState link txn st).setTasks (n.tasks ++ [⟨link, p.serial, txn, query⟩])

def bindActorAddress (sums : Checksums) (lookup : FiveTupleLookup) (n : Node) (link : LinkId)
    (txn : TxnId) (packetBody : Bytes) : Except Halt Node :=
  match classifyWithOptions sums { ignoreTruncatedPackets := true } packetBody with
  | none => .error (.panic .sliceIndex)
  | some (fiveTuple, .ok .ok) =>
    match n.peers.lookup link with
    | none => .ok n
    | some p =>
      if !p.hasActorAddress fiveTuple.srcAddress then n.requestedVisaDenied link txn
      else
        let request := n.spawnTask link p txn (.visaRequest fiveTuple) .awaitingVisaResponse
        match lookup.findMatch n.visas.lookupTable fiveTuple with
        | none => .ok request
        | some matched =>
          match n.getEgressLinkForVisa matched with
          | .ok _ => n.requestedVisaGranted link txn matched
          | .error (.notFound _) => .ok request
          | .error (.destNotFound _) => n.requestedVisaDenied link txn
  | some _ => n.requestedVisaDenied link txn

def requestStream (n : Node) (link : LinkId) (txn : TxnId) (v : VisaId) : Except Halt Node :=
  match n.peers.lookup link with
  | none => .ok n
  | some p =>
    match n.visas.table.lookup v with
    | some _ => n.requestedVisaGranted link txn v
    | none => .ok (n.spawnTask link p txn (.visaById v) (.awaitingVisaPush v))

/-- The answer of the visa service to a visa request. -/
inductive VisaDecision where
  | allowed (visa : VsVisa)
  | denied
  | failed
deriving DecidableEq

/-- What is left of `visa_request_task` once the visa service has answered. -/
def visaRequestAnswered (n : Node) (task : VisaTask) (decision : VisaDecision) :
    Except Halt Node :=
  match decision with
  | .allowed visa =>
    (n.insertVisa visa).bind fun n => n.requestedVisaGranted task.link task.txn visa.issuerId
  | .denied | .failed => n.requestedVisaDenied task.link task.txn

/-- What is left of `visa_push_request_task`, where `none` is an error of the visa service. -/
def visaByIdAnswered (n : Node) (task : VisaTask) (v : VisaId) (visas : Option (List VsVisa)) :
    Except Halt Node :=
  match visas.bind (·.find? (·.issuerId = v)) with
  | some visa => (n.insertVisa visa).bind fun n => n.requestedVisaGranted task.link task.txn v
  | none => n.requestedVisaDenied task.link task.txn

/-! ## Answers of the next hop -/

/-- `resolve_next_hop_bind_originator`, where `none` is one of its two errors. -/
def resolveNextHopBindOriginator (n : Node) (egress : LinkId) (egressTxn : TxnHandle) :
    Except Halt (Option (Node × LinkId × TxnId)) :=
  match n.awaiting egress egressTxn with
  | none => .ok none
  | some (link, txn) =>
    let n := n.eraseAwaiting egress egressTxn
    match n.peers.lookup link with
    | none => .ok (some (n, link, txn))
    | some _ =>
      match n.bindState link txn with
      | some (.awaitingNextHopBind _ expectedEgress expectedTxn) =>
        if expectedEgress = egress ∧ expectedTxn = egressTxn then .ok (some (n, link, txn))
        else .error (.panic .dockConsistency)
      | _ => .error (.panic .dockConsistency)

def linkSlot (n : Node) (v : VisaId) (entry : ForwardingEntry) : Node :=
  n.modifyVisas (·.modify v (·.linkForwardingEntry entry))

/-- Fill a slot that has been linked into the visa and tell the peer its stream id. -/
def fillSlot (n : Node) (entry : ForwardingEntry) (pep : PftPep) (message : Message) : Node :=
  ((n.linkSlot pep.visaId entry).setRoute entry pep).send entry.link message

/-- The end of `requested_tether_granted`, from linking the slot on. -/
def installRoute (n : Node) (link : LinkId) (p : PeerState) (txn : TxnId) (visa : Visa)
    (pep : PftPep) (key : StreamId) : Except Halt Node :=
  match p.peerType link with
  | .node => .ok (n.fillSlot ⟨link, key⟩ pep (.streamIdSuccess txn key pep.visaId))
  | .adapter =>
    match visa.getTc with
    | none => .error (.panic .unknownProtocol)
    | some tc =>
      .ok (n.fillSlot ⟨link, key⟩ pep
        (.bindActorAddressSuccess txn key tc visa.getEgressA2aDhPubkey pep.visaId))
  | .dock | .unknown => (n.linkSlot pep.visaId ⟨link, key⟩).requestedVisaDenied link txn

/-- `requested_tether_granted`; `key` is the stream id of the vacant slot that the slab
    offers. -/
def requestedTetherGranted (n : Node) (link : LinkId) (txn : TxnId) (egressTether : StreamId)
    (key : StreamId) : Except Halt Node :=
  match n.peers.lookup link with
  | none => .ok n
  | some p =>
    match n.bindState link txn with
    | some (.awaitingNextHopBind v egress egressTxn) =>
      if (n.awaiting egress egressTxn).isSome then .error (.panic .dockConsistency)
      else
        let n := n.eraseBindState link txn
        if p.pft.keys.length = peerForwardingTableSize then n.bindReject link txn "PFT full"
        else if key = 0 ∨ peerForwardingTableSize < key ∨ (n.route link key).isSome then
          .error .notOffered
        else
          match n.visas.table.lookup v with
          | none => n.requestedVisaDenied link txn
          | some visa => n.installRoute link p txn visa ⟨⟨egress, egressTether⟩, v⟩ key
    | _ => .ok n

def installTether (n : Node) (egress : LinkId) (egressTxn : TxnHandle) (egressTether : StreamId)
    (key : StreamId) : Except Halt Node :=
  (n.resolveNextHopBindOriginator egress egressTxn).bind fun
    | none => .ok n
    | some (n, link, txn) => n.requestedTetherGranted link txn egressTether key

def denyTether (n : Node) (egress : LinkId) (egressTxn : TxnHandle) (reason : String) :
    Except Halt Node :=
  (n.resolveNextHopBindOriginator egress egressTxn).bind fun
    | none => .ok n
    | some (n, link, txn) => n.bindReject link txn reason

/-! ## Message handlers -/

def handleBindActorAddressRequest (sums : Checksums) (lookup : FiveTupleLookup) (n : Node)
    (link : LinkId) (txn : TxnId) (endpointPacketLength : Nat) (pkt : Bytes) : Except Halt Node :=
  if pkt.length < endpointPacketLength then .ok n
  else
    match n.peers.lookup link with
    | none => .ok n
    | some p =>
      if p.peerType link ≠ .adapter then .ok n
      else
        (n.log (.requested link p.serial txn)).bindActorAddress sums lookup link txn
          (pkt.take endpointPacketLength)

def handleStreamIdRequest (n : Node) (link : LinkId) (txn : TxnId) (v : VisaId) :
    Except Halt Node :=
  match n.peers.lookup link with
  | none => .ok n
  | some p => if p.peerType link ≠ .node then .ok n else n.requestStream link txn v

/-- The answer of a next hop; a malformed one is dropped. -/
inductive TetherReply where
  | success (stream : StreamId)
  | other (info : String)
  | malformed
deriving DecidableEq

/-- `handle_stream_id_response` and `handle_bind_egress_stream_response` -/
def handleTetherResponse (n : Node) (link : LinkId) (txn : TxnId) (reply : TetherReply)
    (key : StreamId) : Except Halt Node :=
  match n.peers.lookup link with
  | none => .ok n
  | some p =>
    let handle : TxnHandle := ⟨p.serial, txn⟩
    if !n.isOpen handle then .ok n
    else
      match reply with
      | .success stream => n.installTether link handle stream key
      | .other info => n.denyTether link handle info
      | .malformed => .ok n

/-- `handle_unbind_indication`, where this node is the dock of the link. -/
def handleUnbindIndication (n : Node) (link : LinkId) (stream : StreamId) : Node :=
  match n.peers.lookup link with
  | none => n
  | some p =>
    if p.linkType = .nodeToAdapter ∨ (p.linkType = .internal ∧ link = localActorLinkId) then
      (n.log (.unbound link p.serial stream)).unbindStream link stream
    else n

end Node

end ZprCore.Dock
