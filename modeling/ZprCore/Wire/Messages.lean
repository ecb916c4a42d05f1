-- SUMMARY: The parsing of every management message.
import ZprCore.Fastpath.Ingress
import ZprCore.Link.Peer
import ZprCore.Wire.Tlv

/-!
# Management messages

`handle_packet` of `mgmt_processor_worker.rs` and the handlers of `mgmt/handlers.rs`, up to the
call that a handler makes with what it has parsed. What that call does is left to the models of
links, docks and adapters.
-/

namespace ZprCore.Fastpath.ZdpPacketType

def streamIdRequest : ZdpPacketType := 3
def streamIdResponse : ZdpPacketType := 4
def streamIdWithdrawal : ZdpPacketType := 5
def bindActorAddressRequest : ZdpPacketType := 6
def bindActorAddressResponse : ZdpPacketType := 7
def bindEgressStreamRequest : ZdpPacketType := 8
def bindEgressStreamResponse : ZdpPacketType := 9
def unbindEgressStreamIndication : ZdpPacketType := 13
def discard : ZdpPacketType := 130
def echo : ZdpPacketType := 131
def report : ZdpPacketType := 132
def terminateLinkOrDockingSession : ZdpPacketType := 133
def helloRequest : ZdpPacketType := 134
def helloResponse : ZdpPacketType := 135
def acquireZprAddress : ZdpPacketType := 138
def grantZprAddress : ZdpPacketType := 139
def initAuthenticationRequest : ZdpPacketType := 141
def renewAuthenticationRequest : ZdpPacketType := 142
def renewAuthenticationResponse : ZdpPacketType := 143
def canceled : ZdpPacketType := 252
def cancel : ZdpPacketType := 253
def acknowledgement : ZdpPacketType := 254

def isPerFlow (packetType : ZdpPacketType) : Bool := packetType &&& 0x80 = 0

end ZprCore.Fastpath.ZdpPacketType

namespace ZprCore.Wire

open ZprCore.Flow (byteAt u16At L3Type Ip5TupleTc)
open Fastpath (ZdpPacketType)
open Link (Challenge Incoming IpAddr LinkType OidcIdpInfo PhMode ResponseCode TerminateReason
  ZdpInitAuthenticationPayload)
open Mgmt (LinkId linkIdUnknown)
open Dock (localActorLinkId dockLinkId)
open Scanner

/-! ## Fields -/

def responseCode (code : UInt8) : ResponseCode :=
  if code = 0 then .success
  else if code = 1 then .other
  else if code = 2 then .authFailed
  else if code = 3 then .policyDenied
  else if code = 4 then .authUnavailable
  else .unknown code

def terminateReason (code : UInt8) : TerminateReason :=
  if code = 0 then .other
  else if code = 1 then .unused1
  else if code = 2 then .requestTimedOut
  else if code = 3 then .reset
  else if code = 4 then .shutdown
  else .unknown code

/-- A field of fixed length in a header that has been read. -/
def vectorAt (b : Bytes) (i n : Nat) : Vector UInt8 n := Vector.ofFn fun k => byteAt b (i + k)

def payloadSize : Nat := 48

def initAuthenticationPayload (b : Bytes) : ZdpInitAuthenticationPayload where
  nonce := vectorAt b 0 8
  ctime := .ofNat 64 (beNat ((b.drop 8).take 8))
  hmac := vectorAt b 16 32

def fromUtf8 (b : Bytes) : Option String := String.fromUTF8? ⟨b.toArray⟩

/-! ## What a message is handled with -/

abbrev TxnId := UInt16
abbrev StreamId := Nat

inductive PeerType where
  | node
  | adapter
  | dock
  | unknown
deriving DecidableEq

/-- The process and the link that a message has arrived on. -/
structure Context where
  crates : Crates
  phMode : PhMode
  linkId : LinkId
  /-- the type of the link, unless it has left the peer table -/
  linkType : Option LinkType
  /-- `txn_mgr.get` -/
  knownTxn : TxnId → Bool
  /-- the key management of a packet is not the one that is configured -/
  kmMismatch : UInt16 → Bool
  /-- the level of the log target `REPORTING` lets `info!` through -/
  logsReports : Bool

def Context.peerType (cx : Context) : PeerType :=
  match cx.linkType with
  | none => .unknown
  | some .internal =>
    if cx.linkId = localActorLinkId then .adapter
    else if cx.linkId = dockLinkId then .dock
    else .unknown
  | some .nodeToAdapter => .adapter
  | some .adapterToNode => .dock
  | some .nodeToNode => .node

inductive Handled where
  /-- nothing is left to be done -/
  | done
  | reported (text : String)
  /-- window sizes are applied, then an event is raised -/
  | link (windowSizes : List TlvValue) (msg : Incoming)
  | bindActorAddress (txn : TxnId) (l3Type : L3Type) (body : Bytes)
  | requestStream (txn : TxnId) (visaId : BitVec 64)
  | bindEgressStream (txn : TxnId) (tc : Ip5TupleTc) (peerA2aDhPubkey : Option Bytes)
  | adapterInstallTether (txn : TxnId) (stream : StreamId) (tc : Ip5TupleTc)
      (peerA2aDhPubkey : Option Bytes)
  | adapterDenyTether (txn : TxnId) (msg : String)
  | nodeInstallTether (txn : TxnId) (stream : StreamId)
  | nodeDenyTether (txn : TxnId) (msg : String)
  | nodeUnbindStream (stream : StreamId)
  | adapterUnbindStream (stream : StreamId)
  | removeByTetherId (stream : StreamId)

variable (cx : Context)

/-! ## Messages of a link -/

/-- The size of the header is skipped once more after it was read. The text is looked at only if it
    is logged. -/
def handleReport : Reader Handled := do
  let hdr ← read 2 .badStructure
  let reportDataLength := (u16At hdr 0).toNat
  let _ ← get 2
  let body ← body
  if reportDataLength ≤ body.length ∧ cx.logsReports then
    return .reported (← unwrap (fromUtf8 (body.take reportDataLength)))
  else return .done

/-- The challenge behind a header that states how long it is. -/
def readPayload (dataLen : Nat) : Reader ZdpInitAuthenticationPayload := do
  ensure (payloadSize ≤ dataLen) .badStructure
  ensure (dataLen ≤ (← remaining)) .badStructure
  return initAuthenticationPayload (← read payloadSize .badStructure)

def handleInitAuthenticationRequest : Reader Handled := do
  let hdr ← read 3 .badStructure
  if byteAt hdr 0 &&& 0x01 ≠ 0 then
    ensure (u16At hdr 1 ≠ 0) .badStructure
    let payload ← readPayload (u16At hdr 1).toNat
    return .link [] (.initAuthenticationRequest true (some payload))
  else return .link [] (.initAuthenticationRequest false none)

def handleRenewAuthenticationRequest : Reader Handled := do
  let hdr ← read 2 .badStructure
  return .link [] (.renewAuthenticationRequest (← readPayload (u16At hdr 0).toNat))

def readText (len : Nat) : Reader String := do
  ensure (len ≠ 0) .badStructure
  ensure (len ≤ (← remaining)) .badStructure
  orFail .badStructure (fromUtf8 (← get len))

def handleRenewAuthenticationResponse : Reader Handled := do
  let hdr ← read 51 .badStructure
  let challenge : Challenge := vectorAt hdr 3 48
  if responseCode (byteAt hdr 0) = .success then
    let blob ← readText (u16At hdr 1).toNat
    return .link [] (.renewAuthenticationResponse challenge (.ok blob))
  else
    return .link [] (.renewAuthenticationResponse challenge (.error (responseCode (byteAt hdr 0))))

def handleTerminateLinkOrDockingSession : Reader Handled := do
  let hdr ← read 2 .badStructure
  return .link [] (.terminateLinkOrDockingSession (terminateReason (byteAt hdr 0)))

/-- The key of the last of several TLVs, which are applied one after another. -/
def a2aDhPubkey : List TlvValue → Option Bytes
  | [] => none
  | .x25519PubKey key :: rest => some ((a2aDhPubkey rest).getD key)
  | _ :: rest => a2aDhPubkey rest

/-- All values of a TLV have the type that belongs to it. -/
def ensureAll (isType : TlvValue → Bool) (values : List TlvValue) : Reader Unit :=
  ensure (values.all isType) .badStructure

def TlvValue.isU16 : TlvValue → Bool
  | .u16 _ => true
  | _ => false

def TlvValue.isX25519PubKey : TlvValue → Bool
  | .x25519PubKey _ => true
  | _ => false

def TlvValue.isStr : TlvValue → Bool
  | .str _ => true
  | _ => false

def handleHelloRequest : Reader Handled := do
  ensure (cx.phMode = .node) .messageNotPermitted
  let tlvData ← parseFromBuf cx.crates
  let windowSizes := tlvData.values DataType.windowSize
  let keys := tlvData.values DataType.a2aDhPubkey
  ensureAll TlvValue.isU16 windowSizes
  ensureAll TlvValue.isX25519PubKey keys
  return .link windowSizes (.helloRequest (a2aDhPubkey keys))

/-- There is at most one AAA address. -/
def parseAaa : List TlvValue → Reader (Option IpAddr)
  | [] => return none
  | [.ipv4Addr bits] => return some (.v4 bits)
  | [.ipv6Addr bits] => return some (.v6 bits)
  | _ => fail .badStructure

/-- Identity providers that cannot be decoded are skipped. -/
def oidcIdps (values : List TlvValue) : Option (List OidcIdpInfo) :=
  let idps := values.filterMap fun
    | .str json => cx.crates.oidcIdpInfo json
    | _ => none
  if idps = [] then none else some idps

/-- The first values of VERSION and POLICY_ID are logged. -/
def logFirst (tlvData : TlvData) (tlvType : TlvType) : Reader Unit :=
  let values := tlvData.values tlvType
  if values.isEmpty then return () else do let _ ← unwrap values.head?

def handleHelloResponse : Reader Handled := do
  let hdr ← read 1 .badStructure
  let tlvData ← parseFromBuf cx.crates
  logFirst tlvData DataType.version
  logFirst tlvData DataType.policyId
  let windowSizes := tlvData.values DataType.windowSize
  ensureAll TlvValue.isU16 windowSizes
  let aaaAddress ← parseAaa (tlvData.values DataType.aaa)
  let idps := tlvData.values DataType.oidcIdp
  ensureAll TlvValue.isStr idps
  return .link windowSizes (.helloResponse (responseCode (byteAt hdr 0)) aaaAddress (oidcIdps cx idps))

def addressSize : L3Type → Option Nat
  | .ipv4 => some 4
  | .ipv6 => some 16
  | .other _ => none

def readAddress : L3Type → Reader IpAddr
  | .ipv4 => do return .v4 (.ofNat 32 (beNat (← read 4 .badStructure)))
  | .ipv6 => do return .v6 (.ofNat 128 (beNat (← read 16 .badStructure)))
  | .other _ => abort

def readAddresses (ipVersion : L3Type) (addrCount : Nat) : Reader (List IpAddr) := do
  let size ← orFail .badStructure (addressSize ipVersion)
  ensure (size * addrCount ≤ (← remaining)) .badStructure
  times (readAddress ipVersion) addrCount

def handleAcquireZprAddressRequest : Reader Handled := do
  let l3Size := cx.crates.l3TypeSize
  let hdr ← read (2 + l3Size + 1) .badStructure
  let blob ← readText (u16At hdr 0).toNat
  let addrCount := (byteAt hdr (2 + l3Size)).toNat
  if 0 < addrCount then
    let addrs ← readAddresses (cx.crates.l3Type ((hdr.drop 2).take l3Size)) addrCount
    return .link [] (.acquireZprAddress (some addrs) blob)
  else return .link [] (.acquireZprAddress none blob)

def handleGrantZprAddressRequest : Reader Handled := do
  let l3Size := cx.crates.l3TypeSize
  let hdr ← read (1 + l3Size + 1) .badStructure
  let code := responseCode (byteAt hdr 0)
  if code ≠ .success then return .link [] (.grantZprAddress (.error code))
  else
    let addrs ← readAddresses (cx.crates.l3Type ((hdr.drop 1).take l3Size)) (byteAt hdr (1 + l3Size)).toNat
    ensure (addrs ≠ []) .badStructure
    return .link [] (.grantZprAddress (.ok addrs))

/-! ## Messages of a stream -/

/-- A message that only one type of peer may send. -/
def fromPeer (peerType : PeerType) (handled : Handled) : Reader Handled :=
  if cx.linkId = linkIdUnknown then return .done
  else do
    ensure (cx.peerType = peerType) .messageNotPermitted
    return handled

def handleBindActorAddressRequest (txn : TxnId) : Reader Handled := do
  let l3Size := cx.crates.l3TypeSize
  let hdr ← read (l3Size + 2) .badStructure
  let endpointPacketLength := (u16At hdr l3Size).toNat
  let body ← body
  ensure (endpointPacketLength ≤ body.length) .badStructure
  fromPeer cx .adapter
    (.bindActorAddress txn (cx.crates.l3Type (hdr.take l3Size)) (body.take endpointPacketLength))

def handleStreamIdRequest (txn : TxnId) : Reader Handled := do
  let req ← read 8 .badStructure
  fromPeer cx .node (.requestStream txn (.ofNat 64 (beNat req)))

/-- The public key of the peer, with its length in front of it. -/
def readPeerKey : Reader (Option Bytes) := do
  ensure (2 ≤ (← remaining)) .badStructure
  let keyLen := (u16At (← get 2) 0).toNat
  if keyLen = 0 then return none
  else
    ensure (keyLen ≤ (← remaining)) .badStructure
    ensure (keyLen = x25519KeyLen) .badStructure
    return some ((← body).take keyLen)

/-- The classifier and the public key behind a `Tcst`. -/
def readTether : Reader (Ip5TupleTc × Option Bytes) := do
  let tcst ← read cx.crates.tcstSize .badStructure
  ensure (cx.crates.isIp5Tuple tcst) .badStructure
  let tc ← deserializeTc
  return (tc, ← readPeerKey)

def handleBindEgressStreamRequest (txn : TxnId) : Reader Handled := do
  let (tc, key) ← readTether cx
  fromPeer cx .dock (.bindEgressStream txn tc key)

/-- A response is for an open transaction. -/
def ensureTxn (txn : TxnId) : Reader Unit := do
  ensure cx.linkType.isSome .linkClosed
  ensure (cx.knownTxn txn) .unknownTransaction

/-- The explanation in a response that denies a request. -/
def readInfo (infoLen : Nat) : Reader String := do
  let body ← body
  ensure (infoLen ≤ body.length) .badStructure
  orFail .badStructure (fromUtf8 (body.take infoLen))

/-- A response with a status code and an explanation. -/
def handleResponse (txn : TxnId) (onSuccess : Reader Handled) (onOther : String → Handled) :
    Reader Handled := do
  ensureTxn cx txn
  let hdr ← read 2 .badStructure
  match responseCode (byteAt hdr 0) with
  | .success => onSuccess
  | .other => return onOther (← readInfo (byteAt hdr 1).toNat)
  | _ => fail .badStructure

def handleBindActorAddressResponse (txn : TxnId) (stream : StreamId) : Reader Handled :=
  handleResponse cx txn
    (do
      let (tc, key) ← readTether cx
      return .adapterInstallTether txn stream tc key)
    (.adapterDenyTether txn)

def handleStreamIdResponse (txn : TxnId) (stream : StreamId) : Reader Handled :=
  handleResponse cx txn (return .nodeInstallTether txn stream) (.nodeDenyTether txn)

def handleBindEgressStreamResponse (txn : TxnId) (stream : StreamId) : Reader Handled :=
  handleResponse cx txn (return .nodeInstallTether txn stream) (.nodeDenyTether txn)

def handleUnbindIndication (stream : StreamId) : Reader Handled :=
  if cx.linkId = linkIdUnknown then return .done
  else
    match cx.linkType, cx.peerType with
    | none, _ => fail .linkClosed
    | _, .adapter => return .nodeUnbindStream stream
    | _, .dock => return .adapterUnbindStream stream
    | _, _ => fail .messageNotPermitted

def handleStreamIdWithdrawal (stream : StreamId) : Reader Handled :=
  if cx.linkId = linkIdUnknown then return .done
  else
    match cx.linkType, cx.peerType with
    | none, _ => fail .linkClosed
    | _, .dock => return .removeByTetherId stream
    | _, _ => fail .messageNotPermitted

/-! ## All messages -/

/-- A message of a stream that has a transaction id. -/
def withTxn (handler : TxnId → Reader Handled) : Reader Handled := do
  let hdr ← read 2 .badStructure
  handler (u16At hdr 0)

def handlePerFlow (packetType : ZdpPacketType) : Reader Handled := do
  let hdr ← read 4 .badStructure
  let stream : StreamId := beNat hdr
  if packetType = .transitPacket then abort
  else if packetType = .bindActorAddressRequest then withTxn (handleBindActorAddressRequest cx)
  else if packetType = .bindActorAddressResponse then
    withTxn (handleBindActorAddressResponse cx · stream)
  else if packetType = .streamIdRequest then withTxn (handleStreamIdRequest cx)
  else if packetType = .streamIdResponse then withTxn (handleStreamIdResponse cx · stream)
  else if packetType = .bindEgressStreamRequest then withTxn (handleBindEgressStreamRequest cx)
  else if packetType = .bindEgressStreamResponse then
    withTxn (handleBindEgressStreamResponse cx · stream)
  else if packetType = .unbindEgressStreamIndication then handleUnbindIndication cx stream
  else if packetType = .streamIdWithdrawal then handleStreamIdWithdrawal cx stream
  else fail (.unknownType packetType)

def handleNotPerFlow (packetType : ZdpPacketType) : Reader Handled :=
  if packetType = .report then handleReport cx
  else if packetType = .discard ∨ packetType = .echo then return .done
  else if packetType = .keyManagement then abort
  else if packetType = .terminateLinkOrDockingSession then handleTerminateLinkOrDockingSession
  else if packetType = .helloRequest then handleHelloRequest cx
  else if packetType = .helloResponse then handleHelloResponse cx
  else if packetType = .initAuthenticationRequest then handleInitAuthenticationRequest
  else if packetType = .renewAuthenticationRequest then handleRenewAuthenticationRequest
  else if packetType = .renewAuthenticationResponse then handleRenewAuthenticationResponse
  else if packetType = .acquireZprAddress then handleAcquireZprAddressRequest cx
  else if packetType = .grantZprAddress then handleGrantZprAddressRequest cx
  else fail (.unknownType packetType)

def handlePacket : Reader Handled := do
  let base ← read 2 .badStructure
  let packetType : ZdpPacketType := byteAt base 0
  let _ ← read 8 .badStructure
  if packetType.isPerFlow then handlePerFlow cx packetType else handleNotPerFlow cx packetType

end ZprCore.Wire
