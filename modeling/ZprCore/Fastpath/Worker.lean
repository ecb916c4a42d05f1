-- SUMMARY: A fastpath worker with its packet buffers, its output queues and its I/O routines.
import ZprCore.Fastpath.Transit
import ZprCore.Lib.Run

/-!
# The fastpath worker

`fastpath.rs`, `fastpath_io.rs` and `fastpath_worker.rs` from the side of the packet buffers. A worker
owns a fixed number of them. A routine takes buffers from the stack, the operating system or a queue
fills them, and every packet that was received is either dropped, queued for output, or handed to
another task through a two-way queue, which hands the buffer back later.

The state a worker shares with other threads may change between any two of its reads, so that each
read of one packet has a table of its own. `none` stands for a panic. Captures of packets, and the
headroom of a packet, are left out.
-/

namespace ZprCore.Fastpath

open ZprCore.Flow Adapter
open Dock (PftPep localActorLinkId dockLinkId)

/-! ## Buffers and packets -/

/-- What is written in front of the body of a packet, into the buffer itself. -/
structure PacketMetadata where
  fiveTuple : FiveTuple
  ingressLaneId : UInt8
  flags : UInt8
  ingressLinkId : LinkId
  egressLinkId : LinkId
  ingressStreamId : StreamId
deriving DecidableEq

def PacketMetadata.isPriority (md : PacketMetadata) : Bool := md.flags &&& 1 ≠ 0

/-- A box, and which one it is. -/
structure PacketBuffer where
  index : Nat
  metadata : PacketMetadata
deriving DecidableEq

/-- A packet with the buffer it is in. -/
structure BufferedPacket extends Packet where
  buf : PacketBuffer
deriving DecidableEq

variable {Codec : Type}

namespace BufferedPacket

/-- `Packet::new`. What an earlier packet has left in the rest of the metadata stays there. -/
def new (tailroom : Nat) (buf : PacketBuffer) : BufferedPacket where
  body := []
  tailroom
  buf := { buf with metadata := { buf.metadata with ingressLinkId := 0, ingressStreamId := 0 } }

/-- The operating system has written into the packet. -/
def fill (pkt : BufferedPacket) (data : Bytes) : BufferedPacket :=
  { pkt with body := pkt.body ++ data, tailroom := pkt.tailroom - data.length }

def destroy (pkt : BufferedPacket) : PacketBuffer := pkt.buf

def setMetadata (pkt : BufferedPacket) (f : PacketMetadata → PacketMetadata) : BufferedPacket :=
  { pkt with buf := { pkt.buf with metadata := f pkt.buf.metadata } }

def metadata (pkt : BufferedPacket) : PacketMetadata := pkt.buf.metadata

def setBody (pkt : BufferedPacket) (body : Bytes) : BufferedPacket := { pkt with body }

def setPacket (pkt : BufferedPacket) (p : Packet) : BufferedPacket := { p with buf := pkt.buf }

end BufferedPacket

structure QueuedEgressPacket where
  pkt : BufferedPacket
  dst : SubstrateAddr
  src : ScopedIpAddr
deriving DecidableEq

/-! ## The worker -/

inductive FastpathCounterType where
  | inPacksRec
  | inPacksDrop
  | inPacksSent
  | outPacksRec
  | outPacksDrop
  | outPacksSent
  | requeuedPacketsReceived
  | mgmtPacketsSent
  | droppedOversize
  | queueBackpressure
  | droppedAwaitingBind
  | dispatchedToMgmt
  | actorSlowpath
  | unknownPeer
  | peerRemoved
  | unknownZpi
  | micvFailure
  | badChecksum
  | decryptionFailure
  | encryptionFailure
  | unknownStreamId
  | badStructure
  | otherError
  | ttlExpired
deriving DecidableEq

/-- The counter of a reason, which has its name. -/
def DropReason.counter : DropReason → FastpathCounterType
  | inPacksDrop => .inPacksDrop
  | ttlExpired => .ttlExpired
  | otherError => .otherError
  | droppedAwaitingBind => .droppedAwaitingBind
  | badStructure => .badStructure
  | unknownStreamId => .unknownStreamId
  | micvFailure => .micvFailure
  | unknownZpi => .unknownZpi
  | decryptionFailure => .decryptionFailure
  | badChecksum => .badChecksum
  | unknownPeer => .unknownPeer
  | queueBackpressure => .queueBackpressure

/-- Packet info of the TUN device, on the platforms that have it. -/
structure TunPi where
  strip : Bool
  proto : UInt16
deriving DecidableEq

structure TunFraming where
  /-- `read_pi`, which panics on a packet that is too short -/
  readPi : Bytes → Option (TunPi × Bytes)
  /-- The body behind its packet info, with the protocol of the IP version. -/
  writePi : Bytes → Option Bytes

structure FastpathWorkerConfig where
  bufferCount : Nat
  batchSize : Nat
  workerIndex : Nat
  phMode : PhMode
  /-- what a fresh packet has behind the headroom -/
  tailroom : Nat
  tunPi : Option TunFraming

/-- The return path of the two-way queues of a worker. -/
structure ReturnQueue where
  incoming : List PacketBuffer
  notified : Bool
  outstanding : Nat

/-- A worker, with what is at the other ends of its two-way queues: the items that were not handed
    back, and how many items were handed back without the notification that follows. The end of a
    list is the end of the vector. -/
structure FastpathWorker where
  config : FastpathWorkerConfig
  buffers : List PacketBuffer
  batchCounters : FastpathCounterType → Nat
  returnQ : ReturnQueue
  actorInputQ : List BufferedPacket
  substrateEgressQ : Array QueuedEgressPacket
  away : List PacketBuffer
  posts : Nat

/-- What `try_send` of a two-way queue answers. Other workers send into the same queue. -/
inductive TrySend where
  | ok
  | full
  | closed
deriving DecidableEq

inductive EncryptionError where
  | parseError
  | messageTooLarge
deriving DecidableEq

/-- What the worker reads of the shared state on the way of one packet, each at its own time. -/
structure Reads (Codec : Type) where
  /-- `lookup_peer` -/
  lookup : PeerTable Codec
  /-- `decrypt` -/
  decrypt : PeerTable Codec
  /-- `forward` -/
  forward : PeerTable Codec
  /-- `substrate_egress` -/
  egress : PeerTable Codec
  elt : EndpointLookupTable
  dlt : DockLookupTable
  mgmtDispatch : TrySend
  adapterManager : TrySend
  /-- `max_overhead` -/
  maxOverhead : Codec → Nat
  /-- `encrypt_transport_stateless`, with the nonce that is next -/
  encryptTransport : Codec → Bytes → Except EncryptionError Bytes

namespace FastpathWorker

def new (config : FastpathWorkerConfig) (metadata : PacketMetadata) : FastpathWorker where
  config
  buffers := (List.range config.bufferCount).map fun i => ⟨i, metadata⟩
  batchCounters _ := 0
  returnQ := ⟨[], false, 0⟩
  actorInputQ := []
  substrateEgressQ := #[]
  away := []
  posts := 0

def increaseBy (w : FastpathWorker) (counter : FastpathCounterType) (n : Nat) : FastpathWorker :=
  { w with batchCounters := fun c => if c = counter then w.batchCounters c + n else w.batchCounters c }

def increment (w : FastpathWorker) (counter : FastpathCounterType) : FastpathWorker :=
  w.increaseBy counter 1

def extendBuffers (w : FastpathWorker) (bufs : List PacketBuffer) : FastpathWorker :=
  { w with buffers := w.buffers ++ bufs }

def dropAndCount (w : FastpathWorker) (pkt : BufferedPacket) (reason : FastpathCounterType) :
    FastpathWorker :=
  (w.extendBuffers [pkt.destroy]).increment reason

/-- The packets that were taken from the stack, the topmost first. -/
def getFreshPackets (w : FastpathWorker) (n : Nat) : List BufferedPacket × FastpathWorker :=
  let nbufs := min w.buffers.length n
  let rest := w.buffers.length - nbufs
  ((w.buffers.drop rest).reverse.map (.new w.config.tailroom), { w with buffers := w.buffers.take rest })

/-- `Sender::try_send`, with what both callers do of its answer. -/
def trySend (w : FastpathWorker) (pkt : BufferedPacket) (sent : FastpathCounterType) :
    TrySend → Option FastpathWorker
  | .ok =>
    let w := { w with
      away := w.away ++ [pkt.destroy]
      returnQ := { w.returnQ with outstanding := w.returnQ.outstanding + 1 } }
    some (w.increment sent)
  | .full => some (w.dropAndCount pkt .queueBackpressure)
  | .closed => none

section

variable (cipher : Cipher Codec) (a2a : A2a)

/-! ## Output -/

/-- `encrypt_full`: into the tailroom of the packet if the ciphertext fits there, and by way of the
    stack otherwise. -/
def encryptFull (r : Reads Codec) (codec : Codec) (p : Packet) : Option (Except EncryptionError Packet) :=
  if p.body.length < 1 then some (.error .parseError)
  else
    let encrLen := p.body.length - 1
    match r.encryptTransport codec (p.body.drop 1) with
    | .error err => some (.error err)
    | .ok ciphertext =>
      if encrLen + r.maxOverhead codec ≤ p.tailroom then
        some (.ok ⟨p.body.take 1 ++ ciphertext, p.tailroom - ciphertext.length⟩)
      else (Packet.put ⟨p.body.take 1, p.tailroom + encrLen⟩ ciphertext).map .ok

/-- The ZPI and the check value or the encryption of a packet of any type. -/
def encrypt (r : Reads Codec) (packetType : ZdpPacketType) (sa : Option (KmTransportSA Codec))
    (p : Packet) : Option (Except EncryptionError Packet) :=
  let transportSa := if packetType = .keyManagement then none else sa
  match transportSa with
  | some sa =>
    if packetType = .transitPacket then (encryptTransit cipher (some sa) p).map .ok
    else
      let zpi := sa.sendZpis.encr
      if zpi = zpi0 then none
      else encryptFull r sa.codec { p with body := zpi :: p.body }
  | none => (encryptTransit cipher none p).map .ok

def substrateEgressCommon (r : Reads Codec) (link : LinkId) (pkt : BufferedPacket) :
    Option (Except EncryptionError (Option (BufferedPacket × SubstrateAddr × ScopedIpAddr))) :=
  match readBaseHeader pkt.body with
  | none => some (.error .parseError)
  | some (packetType, _) =>
    match r.egress.get link with
    | none => some (.ok none)
    | some peer =>
      match encrypt cipher r packetType peer.transportSa pkt.toPacket with
      | none => none
      | some (.error err) => some (.error err)
      | some (.ok p) =>
        let dst := peer.substrateAddr.setFlowinfo (UInt32.ofNat pkt.metadata.ingressStreamId)
        some (.ok (some (pkt.setPacket p, dst, peer.interfaceAddr)))

def substrateEgress (w : FastpathWorker) (r : Reads Codec) (pkt : BufferedPacket) :
    Option FastpathWorker :=
  match substrateEgressCommon cipher r pkt.metadata.egressLinkId pkt with
  | none => none
  | some (.error _) => some (w.dropAndCount pkt .encryptionFailure)
  | some (.ok none) => some (w.dropAndCount pkt .peerRemoved)
  | some (.ok (some (pkt, dst, src))) =>
    if isUnspecified dst.ip ∨ isUnspecified src.ip then none
    else some { w with substrateEgressQ := w.substrateEgressQ.push ⟨pkt, dst, src⟩ }

def actorInput (w : FastpathWorker) (r : Reads Codec) (tether : StreamId) (pkt : BufferedPacket) :
    Option FastpathWorker :=
  match Fastpath.actorInput cipher.sums a2a r.dlt tether pkt.body with
  | none => none
  | some (.dropped reason) => some (w.dropAndCount pkt reason.counter)
  | some (.queued body) => some { w with actorInputQ := w.actorInputQ ++ [pkt.setBody body] }

/-! ## The way of a packet -/

def forward (w : FastpathWorker) (r : Reads Codec) (pkt : BufferedPacket) : Option FastpathWorker :=
  match Fastpath.forward r.forward w.config.phMode pkt.metadata.ingressLinkId
      pkt.metadata.ingressStreamId with
  | .error reason => some (w.dropAndCount pkt reason.counter)
  | .ok (egressLinkId, egressStreamId) =>
    if egressLinkId = localActorLinkId then w.actorInput cipher a2a r egressStreamId pkt
    else
      let pkt := pkt.setBody (transitHeaders egressStreamId ++ pkt.body)
      w.substrateEgress cipher r (pkt.setMetadata ({ · with egressLinkId }))

def substrateIngress (w : FastpathWorker) (r : Reads Codec) (peerSa : SubstrateAddr)
    (interfaceAddr : ScopedIpAddr) (pkt : BufferedPacket) : Option FastpathWorker :=
  let link := r.lookup.lookupPeer peerSa interfaceAddr
  let pkt := pkt.setMetadata ({ · with ingressLinkId := link })
  -- whether the queue to management is full shows when it is tried
  match substrateIngressOn cipher r.decrypt false link pkt.body with
  | .dropped reason => some (w.dropAndCount pkt reason.counter)
  | .dispatchedWithAddr body | .dispatchedWithLink _ body =>
    w.trySend (pkt.setBody body) .dispatchedToMgmt r.mgmtDispatch
  | .forward _ stream body =>
    let tailroom := decryptTailroom cipher r.decrypt link pkt.body pkt.tailroom
    let pkt := pkt.setMetadata ({ · with ingressStreamId := stream })
    w.forward cipher a2a r (pkt.setPacket ⟨body, tailroom⟩)

def actorOutputPostClassify (w : FastpathWorker) (r : Reads Codec) (pkt : BufferedPacket)
    (allowBindRequest : Bool) : Option FastpathWorker :=
  let fiveTuple := pkt.metadata.fiveTuple
  match Fastpath.actorOutputPostClassify a2a r.elt allowBindRequest { pkt.toPacket with fiveTuple } with
  | none => none
  | some (.dropped reason) => some (w.dropAndCount pkt reason.counter)
  | some (.requestTetherId _) => w.trySend pkt .actorSlowpath r.adapterManager
  | some (.forward tether p) =>
    w.forward cipher a2a r ((pkt.setPacket p).setMetadata ({ · with ingressStreamId := tether }))

def actorOutput (w : FastpathWorker) (r : Reads Codec) (pkt : BufferedPacket) : Option FastpathWorker :=
  let pkt := pkt.setMetadata fun md =>
    { md with ingressLinkId := localActorLinkId, ingressLaneId := UInt8.ofNat w.config.workerIndex }
  match classify cipher.sums pkt.body with
  | none => none
  | some (fiveTuple, classification) =>
    let pkt := pkt.setMetadata ({ · with fiveTuple })
    match classification with
    | .ok .ok | .ok .unclassifiedL4 =>
      match decrementTtl fiveTuple.l3Type pkt.body with
      | none => none
      | some (body, ttlExpired) =>
        let pkt := pkt.setBody body
        if ttlExpired then some (w.dropAndCount pkt .ttlExpired)
        else w.actorOutputPostClassify cipher a2a r pkt true
    | _ => some (w.dropAndCount pkt .inPacksDrop)

end

/-! ## One packet and the worker -/

section

variable {cipher : Cipher Codec} {a2a : A2a} {r : Reads Codec} {w : FastpathWorker}
  {pkt : BufferedPacket} {t : PeerTable Codec} {tether : StreamId} {p : Packet}

theorem actorOutputPostClassify_of_forward {allowBindRequest : Bool}
    (h : Fastpath.actorOutputPostClassify a2a r.elt allowBindRequest
      { pkt.toPacket with fiveTuple := pkt.metadata.fiveTuple } = some (.forward tether p)) :
    w.actorOutputPostClassify cipher a2a r pkt allowBindRequest =
      w.forward cipher a2a r ((pkt.setPacket p).setMetadata ({ · with ingressStreamId := tether })) := by
  unfold actorOutputPostClassify
  dsimp only
  rw [h]

/-- What `actor_output` makes of a packet for a tether is what the worker forwards. -/
theorem actorOutput_of_forward
    (h : Fastpath.actorOutput cipher.sums a2a r.elt pkt.toPacket = some (.forward tether p)) :
    ∃ pkt' : BufferedPacket, pkt'.toPacket = p ∧ pkt'.metadata.ingressLinkId = localActorLinkId ∧
      pkt'.metadata.ingressStreamId = tether ∧
      w.actorOutput cipher a2a r pkt = w.forward cipher a2a r pkt' := by
  obtain ⟨⟨ft, classification⟩, hclass, h⟩ := Option.bind_eq_some_iff.mp h
  have hclass : ∀ f, classify cipher.sums (pkt.setMetadata f).body = some (ft, classification) :=
    fun _ => hclass
  unfold actorOutput
  dsimp only at h ⊢
  rw [hclass]
  split at h
  case h_3 => cases h
  all_goals
    obtain ⟨⟨body, expired⟩, httl, h⟩ := Option.bind_eq_some_iff.mp h
    dsimp only at h ⊢
    have httl : ∀ f g,
        decrementTtl ft.l3Type ((pkt.setMetadata f).setMetadata g).body = some (body, expired) :=
      fun _ _ => httl
    rw [httl]
    cases expired with
    | true => cases h
    | false =>
      let pkt' := pkt.setMetadata fun md => { md with
        fiveTuple := ft
        ingressLinkId := localActorLinkId
        ingressLaneId := UInt8.ofNat w.config.workerIndex
        ingressStreamId := tether }
      refine ⟨pkt'.setPacket p, rfl, rfl, rfl, ?_⟩
      exact actorOutputPostClassify_of_forward h

/-- A transit packet aborts the worker at its egress exactly if it aborts there on its own. -/
theorem substrateEgress_isSome {rest : Bytes}
    (hbase : readBaseHeader pkt.body = some (.transitPacket, rest)) :
    (w.substrateEgress cipher r pkt).isSome =
      (Fastpath.substrateEgress cipher r.egress pkt.metadata.egressLinkId pkt.metadata.ingressStreamId
        pkt.toPacket).isSome := by
  unfold substrateEgress substrateEgressCommon Fastpath.substrateEgress
  rw [hbase]
  cases hpeer : r.egress.get pkt.metadata.egressLinkId with
  | none => rfl
  | some peer =>
    have hencrypt : encrypt cipher r .transitPacket peer.transportSa pkt.toPacket =
        (encryptTransit cipher peer.transportSa pkt.toPacket).map .ok := by
      cases hsa : peer.transportSa <;> rfl
    dsimp only
    rw [hencrypt]
    cases encryptTransit cipher peer.transportSa pkt.toPacket with
    | none => rfl
    | some p =>
      dsimp only [Option.map_some, Option.bind_eq_bind, Option.bind_some]
      split <;> rfl

theorem forward_isSome (hone : r.egress = r.forward) :
    (w.forward cipher a2a r pkt).isSome =
      (forwardPacket cipher a2a w.config.phMode r.forward r.dlt pkt.metadata.ingressLinkId
        pkt.metadata.ingressStreamId pkt.toPacket).isSome := by
  unfold forward forwardPacket
  cases Fastpath.forward r.forward w.config.phMode pkt.metadata.ingressLinkId
      pkt.metadata.ingressStreamId with
  | error reason => rfl
  | ok hop =>
    dsimp only
    split
    · unfold actorInput
      cases hin : Fastpath.actorInput cipher.sums a2a r.dlt hop.2 pkt.body with
      | none => rfl
      | some input => cases input <;> rfl
    · rw [Option.isSome_map, ← hone]
      exact substrateEgress_isSome rfl

/-- The worker gets over a received packet exactly if the packet on its own does, as long as the
    peer table does not change meanwhile and management has not gone away. -/
theorem substrateIngress_isSome {peerSa : SubstrateAddr} {interfaceAddr : ScopedIpAddr}
    (hlookup : r.lookup = t) (hdecrypt : r.decrypt = t) (hforward : r.forward = t) (hegress : r.egress = t)
    (hopen : r.mgmtDispatch ≠ .closed) :
    (w.substrateIngress cipher a2a r peerSa interfaceAddr pkt).isSome =
      (receivePacket cipher a2a w.config.phMode t r.dlt false peerSa interfaceAddr pkt.toPacket).isSome := by
  have hsend {pkt' : BufferedPacket} : (w.trySend pkt' .dispatchedToMgmt r.mgmtDispatch).isSome = true := by
    cases hanswer : r.mgmtDispatch with
    | ok | full => rfl
    | closed => exact absurd hanswer hopen
  unfold substrateIngress receivePacket Fastpath.substrateIngress
  have hbody (f : PacketMetadata → PacketMetadata) : (pkt.setMetadata f).body = pkt.body := rfl
  simp only [hlookup, hdecrypt, hbody]
  cases hin : substrateIngressOn cipher t false (t.lookupPeer peerSa interfaceAddr) pkt.body with
  | dropped reason => rfl
  | dispatchedWithAddr | dispatchedWithLink => exact hsend
  | forward link stream body =>
    rw [forward_isSome (hegress.trans hforward.symm), hforward, Option.isSome_map, link_of_forward hin]
    rfl

end

end FastpathWorker

/-! ## Batches -/

inductive ErrorKind where
  | wouldBlock
  | resourceBusy
  | connectionRefused
  | other
deriving DecidableEq

/-- `wouldblock_as_empty_batch`, where any other error of the whole batch is fatal. Every engine
    reports as many items as it has pushed results, so that the results stand for both. -/
def batchResults {α : Type} : Except ErrorKind (List α) → Option (List α)
  | .ok results => some results
  | .error .wouldBlock => some []
  | .error _ => none

/-- A datagram, and what the worker reads while it processes it. -/
structure ReceivedPacket (Codec : Type) where
  data : Bytes
  truncated : Bool
  source : Option SubstrateAddr
  destination : Option ScopedIpAddr
  reads : Reads Codec

structure TunRead (Codec : Type) where
  data : Bytes
  reads : Reads Codec

/-- A packet that management has serialized into a queue. -/
structure Serialized (Codec : Type) where
  metadata : PacketMetadata
  packet : Packet
  reads : Reads Codec

inductive TryRecv (Codec : Type) where
  | packet (msg : Serialized Codec)
  | empty
  | failed

def Serialized.deserializeInto {Codec : Type} (msg : Serialized Codec) (buf : PacketBuffer) :
    BufferedPacket :=
  { msg.packet with buf := { buf with metadata := msg.metadata } }

def ethertypeIp : UInt16 := 0x0800
def ethertypeIpv6 : UInt16 := 0x86dd

def TunPi.isIp (pi : TunPi) : Bool := pi.proto == ethertypeIp || pi.proto == ethertypeIpv6

namespace FastpathWorker

section

variable (cipher : Cipher Codec) (a2a : A2a)

/-! ## Input -/

/-- The packets that a batch of reads has filled are processed one by one, and the others go back. -/
def processFilled {α : Type} (w : FastpathWorker) (io : Except ErrorKind (List α))
    (process : FastpathWorker → BufferedPacket → α → Option FastpathWorker) : Option FastpathWorker :=
  let (packets, w) := w.getFreshPackets w.config.batchSize
  match batchResults io with
  | none => none
  | some results =>
    if packets.length < results.length then none
    else
      let w := w.extendBuffers ((packets.drop results.length).reverse.map (·.destroy))
      ((packets.take results.length).zip results).foldlM (fun w (pkt, result) => process w pkt result) w

/-- The body of the loop of `process_substrate_socket_in` -/
def receiveFrom (w : FastpathWorker) (pkt : BufferedPacket) :
    Except ErrorKind (ReceivedPacket Codec) → Option FastpathWorker
  | .ok res =>
    let pkt := pkt.fill res.data
    if res.truncated then some (w.dropAndCount pkt .droppedOversize)
    else
      match res.source, res.destination with
      | some sender, some dest =>
        (w.increment .inPacksRec).substrateIngress cipher a2a res.reads (sender.setFlowinfo 0) dest pkt
      | _, _ => none
  | .error .wouldBlock | .error .resourceBusy => some (w.extendBuffers [pkt.destroy])
  | .error .connectionRefused => some (w.extendBuffers [pkt.destroy])
  | .error .other => none

def processSubstrateSocketIn (w : FastpathWorker)
    (io : Except ErrorKind (List (Except ErrorKind (ReceivedPacket Codec)))) : Option FastpathWorker :=
  w.processFilled io (receiveFrom cipher a2a)

/-- The body of the loop of `process_actor_tun_in` -/
def readTun (w : FastpathWorker) (pkt : BufferedPacket) :
    Except ErrorKind (TunRead Codec) → Option FastpathWorker
  | .ok res =>
    let pkt := pkt.fill res.data
    match w.config.tunPi with
    | some framing =>
      match framing.readPi pkt.body with
      | none => none
      | some (pi, body) =>
        let pkt := pkt.setBody body
        if pi.strip || !pi.isIp then some (w.dropAndCount pkt .outPacksDrop)
        else (w.increment .outPacksRec).actorOutput cipher a2a res.reads pkt
    | none =>
      match pkt.body with
      | [] => none
      | version :: _ =>
        if version >>> 4 ≠ 4 ∧ version >>> 4 ≠ 6 then some (w.dropAndCount pkt .outPacksDrop)
        else (w.increment .outPacksRec).actorOutput cipher a2a res.reads pkt
  | .error .wouldBlock | .error .resourceBusy => some (w.extendBuffers [pkt.destroy])
  | .error _ => none

def processActorTunIn (w : FastpathWorker)
    (io : Except ErrorKind (List (Except ErrorKind (TunRead Codec)))) : Option FastpathWorker :=
  w.processFilled io (readTun cipher a2a)

/-- `batch_process_packet_queue`, with what the queue answers until the limit is reached. -/
def batchProcessPacketQueue
    (process : FastpathWorker → Reads Codec → BufferedPacket → Option FastpathWorker)
    (w : FastpathWorker) : List (TryRecv Codec) → Option FastpathWorker
  | [] => some w
  | answer :: answers =>
    match w.buffers.getLast? with
    | none => some w
    | some buf =>
      let w := { w with buffers := w.buffers.dropLast }
      match answer with
      | .packet msg =>
        match process w msg.reads (msg.deserializeInto buf) with
        | none => none
        | some w => batchProcessPacketQueue process w answers
      | .empty => some (w.extendBuffers [buf])
      | .failed => none

def processRequeueIn (w : FastpathWorker) (answers : List (TryRecv Codec)) : Option FastpathWorker :=
  let process := fun w r pkt =>
    (increment w .requeuedPacketsReceived).actorOutputPostClassify cipher a2a r pkt false
  batchProcessPacketQueue process w (answers.take w.config.batchSize)

def processMgmtSubstrateIn (w : FastpathWorker) (answers : List (TryRecv Codec)) :
    Option FastpathWorker :=
  let process := fun w r pkt => (increment w .mgmtPacketsSent).substrateEgress cipher r pkt
  batchProcessPacketQueue process w (answers.take w.config.batchSize)

end

/-! ## Output queues -/

/-- The packet info in front of what goes to the actor -/
def writePis (w : FastpathWorker) : Option (List BufferedPacket) :=
  match w.config.tunPi with
  | none => some w.actorInputQ
  | some framing => w.actorInputQ.mapM fun pkt => (framing.writePi pkt.body).map pkt.setBody

/-- How many of the items that were tried have not been sent; errors other than `WouldBlock` are
    fatal. -/
def countBlocked : List (Except ErrorKind Nat) → Option Nat
  | [] => some 0
  | .ok _ :: results => countBlocked results
  | .error .wouldBlock :: results => (countBlocked results).map (· + 1)
  | .error _ :: _ => none

def processActorInputQueue (w : FastpathWorker) (io : Except ErrorKind (List (Except ErrorKind Nat))) :
    Option FastpathWorker :=
  match w.writePis, batchResults io with
  | some actorInputQ, some results =>
    match countBlocked results with
    | none => none
    | some blocked =>
      let dropped := actorInputQ.length - results.length + blocked
      let w := (w.increaseBy .inPacksSent (actorInputQ.length - dropped)).increaseBy .inPacksDrop dropped
      let w := { w with actorInputQ := [] }
      some (w.extendBuffers (actorInputQ.map (·.destroy)))
  | _, _ => none

/-- The queue while it is swept: what was not sent and is kept stands at the front. -/
structure Sweep where
  queue : Array QueuedEgressPacket
  retained : Nat
  dropped : Nat

/-- One round of the loop of `process_substrate_egress_queue` -/
def Sweep.visit (results : List (Except ErrorKind Nat)) (s : Sweep) (i : Nat) : Option Sweep :=
  match results[i]? with
  | some (.ok _) => some s
  | some (.error .wouldBlock) | none =>
    if h : i < s.queue.size ∧ s.retained < s.queue.size then
      if s.queue[i].pkt.metadata.isPriority then
        some { s with queue := s.queue.swap i s.retained, retained := s.retained + 1 }
      else some { s with dropped := s.dropped + 1 }
    else none
  | some (.error _) => none

def processSubstrateEgressQueue (w : FastpathWorker)
    (io : Except ErrorKind (List (Except ErrorKind Nat))) : Option FastpathWorker :=
  match batchResults io with
  | none => none
  | some results =>
    match (List.range w.substrateEgressQ.size).foldlM (Sweep.visit results) ⟨w.substrateEgressQ, 0, 0⟩ with
    | none => none
    | some s =>
      let sent := s.queue.size - s.dropped - s.retained
      let w := (w.increaseBy .outPacksSent sent).increaseBy .outPacksDrop s.dropped
      let w := { w with substrateEgressQ := s.queue.take s.retained }
      some (w.extendBuffers ((s.queue.toList.drop s.retained).map (·.pkt.destroy)))

/-! ## Returned buffers -/

/-- `try_recv_many_returns` into the stack of buffers -/
def tryRecvManyReturns (w : FastpathWorker) (limit : Nat) : FastpathWorker :=
  if !w.returnQ.notified then w
  else
    let avail := w.returnQ.incoming.length
    if avail = 0 then { w with returnQ := { w.returnQ with notified := false } }
    else
      let recvd := min limit avail
      let returnQ :=
        { incoming := w.returnQ.incoming.drop recvd
          notified := decide (recvd < avail)
          outstanding := w.returnQ.outstanding - recvd }
      { w with returnQ }.extendBuffers (w.returnQ.incoming.take recvd)

/-- The drop of an `ItemGuard`: the buffer is sent back, with whatever the task has written into
    it, and then the notification is posted. -/
def giveBack (w : FastpathWorker) (i : Nat) (metadata : PacketMetadata) : Option FastpathWorker :=
  match w.away[i]? with
  | none => none
  | some buf =>
    let incoming := w.returnQ.incoming ++ [{ buf with metadata }]
    some { w with away := w.away.eraseIdx i, returnQ := { w.returnQ with incoming }, posts := w.posts + 1 }

def post (w : FastpathWorker) : Option FastpathWorker :=
  if w.posts = 0 then none
  else some { w with returnQ := { w.returnQ with notified := true }, posts := w.posts - 1 }

def aggregate (w : FastpathWorker) : FastpathWorker := { w with batchCounters := fun _ => 0 }

end FastpathWorker

/-- The routines of a worker, with what the operating system and the queues answer, and the steps of
    the tasks at the other ends of its two-way queues. -/
inductive FastpathAction (Codec : Type) where
  | actorInputQueue (io : Except ErrorKind (List (Except ErrorKind Nat)))
  | substrateEgressQueue (io : Except ErrorKind (List (Except ErrorKind Nat)))
  | returns
  | mgmtSubstrateIn (answers : List (TryRecv Codec))
  | requeueIn (answers : List (TryRecv Codec))
  | actorTunIn (io : Except ErrorKind (List (Except ErrorKind (TunRead Codec))))
  | substrateSocketIn (io : Except ErrorKind (List (Except ErrorKind (ReceivedPacket Codec))))
  | aggregate
  | giveBack (i : Nat) (metadata : PacketMetadata)
  | post

/-- `fastpath_main` calls its routines in a fixed order, those whose source is ready. Here they may be
    called in any order. -/
def FastpathWorker.step {Codec : Type} (cipher : Cipher Codec) (a2a : A2a)
    (w : FastpathWorker) : FastpathAction Codec → Option FastpathWorker
  | .actorInputQueue io => w.processActorInputQueue io
  | .substrateEgressQueue io => w.processSubstrateEgressQueue io
  | .returns => some (w.tryRecvManyReturns w.config.bufferCount)
  | .mgmtSubstrateIn answers => w.processMgmtSubstrateIn cipher answers
  | .requeueIn answers => w.processRequeueIn cipher a2a answers
  | .actorTunIn io => w.processActorTunIn cipher a2a io
  | .substrateSocketIn io => w.processSubstrateSocketIn cipher a2a io
  | .aggregate => some w.aggregate
  | .giveBack i metadata => w.giveBack i metadata
  | .post => w.post

end ZprCore.Fastpath
