-- SUMMARY: A link with its keys and its sender, and the tasks started for it.
import ZprCore.Km.Association
import ZprCore.Link.State

/-!
# Links and the work done for them

A `PeerState` is an entry of the peer table: what the event handlers and the background tasks
of a link read or write, its `LinkStateWrapper` included. A handler works on a `Handling`, the
peer as it is so far together with the effects the handler had outside of it: tasks it spawned
or aborted, changes to the tables of the process.

A message is enqueued in the link's sender when it is sent. The source sends some messages
from a task it spawns for that purpose; such a task is first polled before the link can be
torn down, so that the model sends where the task is spawned.
-/

namespace ZprCore.Link

open Zdpr

/-! ## Keys and requests -/

abbrev PeerCertificate := Km.PeerCertificate Certificate

/-- A link does not look into the codec. -/
abbrev KmTransportSA := Km.KmTransportSA Bytes Certificate

/-- Blobs as they are sent to the visa service. -/
inductive VsBlob where
  | ss (challenge : Bytes) (cn : String) (timestamp : Nat) (signature : Bytes)
  | oidc (issuer idToken nonce : String)
deriving DecidableEq

inductive Claim where
  | zprAddr (addr : IpAddr)
  | cn (name : String)
deriving DecidableEq

structure ConnectRequest where
  blobs : List VsBlob
  claims : List Claim
  substrateAddr : IpAddr
  a2aDhPublicKey : Bytes
deriving DecidableEq

/-- The bytes of a base64 text that has been decoded before, or none of them. -/
def decodedOrEmpty (prim : Primitives) (text : String) : Bytes :=
  match prim.base64Decode text with
  | .ok bytes => bytes
  | .error _ => []

/-- The challenge in a base64 text, or zeros where it does not have the length of one. -/
def decodedChallenge (prim : Primitives) (text : String) : Challenge :=
  let bytes := decodedOrEmpty prim text
  if h : bytes.length = 48 then Vector.ofFn fun i => bytes.get ⟨i.val, by omega⟩
  else Vector.replicate 48 0

def vsBlob (prim : Primitives) : AuthBlob → VsBlob
  | .selfSigned ss =>
    .ss (decodedOrEmpty prim ss.challenge) ss.cn ss.ts (decodedOrEmpty prim ss.sig)
  | .oidc oidc =>
    .oidc oidc.issuer oidc.idToken
      (prim.oidcNonceForChallenge (decodedChallenge prim oidc.challenge))

def vstBlobsForRenewal (prim : Primitives) (blobs : List AuthBlob) : List VsBlob :=
  blobs.map (vsBlob prim)

def buildConnectRequestFromParts (prim : Primitives) (addr : IpAddr) (blobs : List AuthBlob)
    (a2aDhPublicKey : Option Bytes) (substrateAddr : IpAddr) : ConnectRequest :=
  let addrClaims := if addr ≠ .unspecified then [.zprAddr addr] else []
  let cnClaims := (firstSelfSigned blobs).map (fun ss => Claim.cn ss.cn)
  { blobs := blobs.map (vsBlob prim)
    claims := addrClaims ++ cnClaims.toList
    substrateAddr
    a2aDhPublicKey := a2aDhPublicKey.getD [] }

/-! ## Messages and tasks -/

/-- Management messages that are sent on a link. -/
inductive Outgoing where
  | helloRequest
  | helloSuccessResponse (policyId : Int) (oidcIdps : List OidcIdpInfo)
      (aaaAddress : Option IpAddr)
  | initAuthenticationRequest (flags : UInt8) (payload : ZdpInitAuthenticationPayload)
  | acquireZprAddressRequest (addrs : List IpAddr) (blob : String)
  | grantZprAddressRequest (code : ResponseCode) (addrs : List IpAddr)
  | terminateLinkOrDockingSession (reason : TerminateReason)
  | echoRequest
  | renewAuthenticationRequest (payload : ZdpInitAuthenticationPayload)
  | renewAuthenticationResponse (status : ResponseCode) (challenge : Challenge) (blob : String)
  /-- a message of another part of the process -/
  | other (id : Nat)
deriving DecidableEq

/-- Management messages as the processor of a link handles them after parsing. -/
inductive Incoming where
  | helloRequest (a2aDhPubkey : Option Bytes)
  | helloResponse (code : ResponseCode) (aaaAddr : Option IpAddr)
      (oidcIdps : Option (List OidcIdpInfo))
  | initAuthenticationRequest (bootstrap : Bool) (challenge : Option ZdpInitAuthenticationPayload)
  | renewAuthenticationRequest (challenge : ZdpInitAuthenticationPayload)
  | renewAuthenticationResponse (challenge : Challenge) (result : Except ResponseCode String)
  | acquireZprAddress (addrs : Option (List IpAddr)) (blob : String)
  | grantZprAddress (result : Except ResponseCode (List IpAddr))
  | terminateLinkOrDockingSession (reason : TerminateReason)
  /-- a message whose handler raises no link event -/
  | handled
  /-- a message whose handler fails -/
  | refused

/-- What stands behind a request to the visa service: the blobs it was built from, and the key
    their challenges were checked under. The code does not see it. -/
structure Evidence where
  blob : String
  blobs : List AuthBlob
  key : AuthKey

/-- A task that outlives the handler that started it. A task that waits for a management message
    to be acknowledged knows the ZDP-R session the message was sent in. -/
inductive Work where
  /-- an armed timeout -/
  | timeout (logicalClock : BitVec 64)
  /-- waits for the acknowledgement of an init-authentication request -/
  | initAuth (generation : BitVec 64)
  | echo (handle : BitVec 64) (generation : BitVec 64)
  | terminate (generation : BitVec 64)
  /-- waits for the `AuthAgent`'s answer -/
  | oidc (attemptClock : BitVec 64) (issuer : String) (challenge : Challenge)
      (baseBlobs : List AuthBlob)
  /-- waits for the visa service to answer `authorize_connect` -/
  | authorize (request : ConnectRequest) (evidence : Evidence)
  /-- registers the visa service adapter with the visa service -/
  | deferredVsConnect (assignedAddr : IpAddr) (request : ConnectRequest)
  | stopVsconn (deregister : Bool)
  | restartVsconn
  /-- ends the key manager, then completes the close -/
  | dropLink (dropped : Bool)
  /-- the holddown before a restart -/
  | restart
  | keyManager
  | saEstablished (sa : KmTransportSA)
  /-- the peer held since the top of the loop, and whether a retry was needed then -/
  | zdprWorker (held : Option (Nat × Bool))
  | renewalReply (issuer nonce : String) (attemptTimeout : Nat)
  | renewalTimeout (challenge : Challenge) (attemptTimeout : Nat)
  | reauthorize (blobs : List VsBlob)
  | reauthorizing (addr : IpAddr) (blobs : List VsBlob)
  | adapterRenewal (challenge : Challenge) (issuer : String) (ssBlob : Option AuthBlob)
  | actorDisconnect (addr : IpAddr)
  /-- a message in the queue of the management processor -/
  | message (msg : Incoming)

/-- What a handler does outside of its link. -/
inductive Effect where
  | spawn (work : Work)
  | abortEcho (handle : BitVec 64)
  | abortAdapterRenewal (challenge : Challenge)
  | assignSpecialName
  | dropPeer
  | releaseAddress (addr : IpAddr)
  | clearPeerState
  | clearFlowTables
  | setCarrier (up : Bool)
  | setLocalZprAddrs (addrs : List IpAddr)
  | deferVsConnect (addr : IpAddr) (request : ConnectRequest)
  | signalFatalError (msg : String)

/-! ## Links -/

structure PeerState where
  id : LinkId
  /-- tells this link from a later one with the same `id` -/
  uid : Nat
  linkType : LinkType
  fsm : LinkStateMachine
  data : LinkData
  /-- set when the link is created and never changed -/
  authKey : AuthKey
  a2aDhPubkey : Option Bytes
  transportSa : Option KmTransportSA
  /-- a key manager runs for the link -/
  kmHandle : Bool
  zdprSend : Sender Outgoing
  zdprGeneration : BitVec 64

/-- `PeerState::new`. The key is random on a node's link to an adapter and zero on any other. -/
def PeerState.new (id : LinkId) (uid : Nat) (linkType : LinkType) (randomKey : AuthKey) : PeerState where
  id
  uid
  linkType
  fsm :=
    if linkType = .internal then { LinkStateMachine.new with state := .active, status := .up }
    else .new
  data := .new
  authKey := if linkType = .nodeToAdapter then randomKey else Vector.replicate 32 0
  a2aDhPubkey := none
  transportSa := none
  kmHandle := false
  zdprSend := .new
  zdprGeneration := 0

def PeerState.resetZdprSession (p : PeerState) : PeerState :=
  { p with zdprSend := p.zdprSend.reset, zdprGeneration := p.zdprGeneration + 1 }

inductive PhMode where
  | node
  | adapter
deriving DecidableEq

/-- The configuration of the process. -/
structure Config where
  phMode : PhMode
  autoConnect : Bool
  bootstrap : Option RsaBootstrapAuth
  authRenewalLead : Nat
  /-- the addresses configured at startup -/
  configuredZprAddrDemand : List IpAddr
  hasVsconn : Bool
  localDockAddr : IpAddr
  visaServiceDn : Bytes
  /-- `ZPR_INTERNAL_NETWORK/ZPRNET_PREFIX_LEN` -/
  internalNetwork : String
  displayAddr : IpAddr → String

/-- What a handler learns from outside the process: the time, random bytes, and the results of
    its calls to the address pool, the TUN device and the `AuthAgent`'s channel. -/
structure Io where
  now : Nat
  nonce : Vector UInt8 8
  aaaAddress : Option IpAddr
  availableOidcIdps : List OidcIdpInfo
  agentAlive : Bool
  addAddress : Except String Unit
  routeOwnerConflict : Except String (Option String)
  addRoute : Except String Unit
  routeOwnerConflictAfter : Except String (Option String)

def Io.nowSecs (io : Io) : Nat := io.now / 10 ^ 9

structure Context where
  prim : Primitives
  cfg : Config
  io : Io
  /-- `lookup_special_peer(VisaServiceAdapter)` -/
  vsPeer : Option LinkId
  /-- the local ZPR addresses -/
  zprAddr : List IpAddr

/-! ## Handling an event -/

structure Handling where
  peer : PeerState
  effects : List Effect

namespace Handling

def mapFsm (h : Handling) (f : LinkStateMachine → LinkStateMachine) : Handling :=
  { h with peer := { h.peer with fsm := f h.peer.fsm } }

def mapData (h : Handling) (f : LinkData → LinkData) : Handling :=
  { h with peer := { h.peer with data := f h.peer.data } }

def setState (h : Handling) (newState : LinkState) : Handling := h.mapFsm (·.setState newState)

def emit (h : Handling) (effect : Effect) : Handling :=
  { h with effects := h.effects ++ [effect] }

def spawn (h : Handling) (work : Work) : Handling := h.emit (.spawn work)

def setTimeout (h : Handling) : Handling :=
  let h := h.mapFsm (·.setTimeoutCallback)
  h.spawn (.timeout h.peer.fsm.logicalClock)

def cancelTimeout (h : Handling) : Handling := h.mapFsm (·.cancelTimeout)

def send (h : Handling) (msg : Outgoing) : Handling :=
  { h with peer := { h.peer with zdprSend := (h.peer.zdprSend.enqueuePacket msg).2 } }

/-- Send a message and limit its retries, which never fails for a packet just enqueued. -/
def sendLimited (h : Handling) (msg : Outgoing) (retryLimit : UInt8) : Handling :=
  let limited :=
    match h.peer.zdprSend.enqueuePacket msg with
    | (.sent sn _, s) => (s.limitRetriesBySeqNum sn retryLimit).getD s
    | (.queued id, s) => (s.limitRetriesById id retryLimit).getD s
  { h with peer := { h.peer with zdprSend := limited } }

def recordAuthFailure (h : Handling) (reason : AuthFailureReason) : Handling :=
  h.mapData fun d => { d with lastAuthFailure := some reason }

def setAuthenticatedNamespaces (h : Handling) (namespaces : NamespaceSet) : Handling :=
  h.mapData fun d => { d with authenticatedNamespaces := some namespaces }

def finishRenewalFailure (h : Handling) (reason : AuthFailureReason) : Handling :=
  h.mapData fun d => { d with renewalInFlight := false, lastAuthFailure := some reason }

end Handling

end ZprCore.Link
