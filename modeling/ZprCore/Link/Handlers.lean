-- SUMMARY: The event handlers of a link, for every link type, state and event.
import ZprCore.Link.Peer

/-!
# Event handlers

Model of `LinkStateWrapper::process_event` and everything it calls. Events are delivered to the
peer found in the table, and all handlers run on one thread, so that the peer a handler looks
up by the link's id is the peer it works on. Where the source raises an event on its own link
in the middle of a handler, the model calls that event's handler.
-/

namespace ZprCore.Link

namespace Handling

variable (cx : Context)

/-! ## Closing -/

/-- If the timeout fires, or the terminate message is acknowledged, the link is cleaned up. -/
def continueClose (h : Handling) (reason : TerminateReason) : Handling × Result :=
  let h := (h.setState .closing).setTimeout
  let h := h.send (.terminateLinkOrDockingSession reason)
  (h.spawn (.terminate h.peer.zdprGeneration), .ok)

def markShuttingDown (h : Handling) (reason : TerminateReason) : Handling :=
  if reason = .shutdown then h.mapFsm fun m => { m with shuttingDown := true } else h

/-- Only a shutdown of the visa service adapter's link stops the connection to the visa
    service; any other close of it restarts that connection. -/
def maybeDisconnectVisaServiceClient (h : Handling) (deregister : Bool)
    (reason : TerminateReason) : Handling × Result :=
  let h := h.markShuttingDown reason
  if h.peer.linkType = .nodeToAdapter ∧ cx.vsPeer = some h.peer.id ∧ cx.cfg.hasVsconn then
    if reason = .shutdown then
      ((h.setState (.disconnecting reason)).spawn (.stopVsconn deregister), .ok)
    else (h.spawn .restartVsconn).continueClose reason
  else h.continueClose reason

/-- An adapter that does not connect by itself records why its link failed. -/
def reportLinkFailure (h : Handling) (reason : TerminateReason) : Handling :=
  if h.peer.linkType = .adapterToNode ∧ ¬cx.cfg.autoConnect ∧
      h.peer.fsm.state = .error ∧ h.peer.data.lastAuthFailure = none then
    h.recordAuthFailure
      (.linkFailed s!"link failed before authentication completed ({reason.debug})")
  else h

def initiateClose (h : Handling) (reason : TerminateReason) : Handling × Result :=
  if h.peer.linkType = .internal then
    (h, .err (.invalidOperation "cannot shutdown internal link"))
  else (h.reportLinkFailure cx reason).maybeDisconnectVisaServiceClient cx true reason

/-- Every failure path parks the machine in `Error` before it initiates the close. -/
def failAndClose (h : Handling) (reason : TerminateReason) : Handling × Result :=
  (h.setState .error).initiateClose cx reason

def processErrorResponse (h : Handling) : Handling × Result := h.initiateClose cx .other

def processDisconnectAck (h : Handling) : Handling × Result :=
  match h.peer.linkType, h.peer.fsm.state with
  | .nodeToAdapter, .disconnecting reason => h.continueClose reason
  | _, _ => (h, .err (.invalidOperation "Discarded unsolicited init auth ack"))

/-- Tell the visa service that the link's actors have disconnected. -/
def deregisterActorAddresses (h : Handling) : Handling :=
  if cx.vsPeer = some h.peer.id then h
  else
    let addrs := h.peer.fsm.actorAddresses
    addrs.foldl (fun h addr => h.spawn (.actorDisconnect addr))
      (h.mapFsm fun m => { m with actorAddresses := [] })

def releaseAaaAddress (h : Handling) : Handling :=
  match h.peer.data.aaaAddress with
  | some addr => (h.mapData fun d => { d with aaaAddress := none }).emit (.releaseAddress addr)
  | none => h

/-- The part of the clean-up that depends on the type of the link. -/
def cleanUpByType (h : Handling) : Handling :=
  match h.peer.linkType with
  | .adapterToNode => (h.emit (.setCarrier false)).emit .clearFlowTables
  | .nodeToAdapter => h.deregisterActorAddresses cx
  | _ => h

def cleanUpLinkState (h : Handling) : Handling :=
  match h.peer.fsm.state with
  | .closing | .resetting =>
    ((h.releaseAaaAddress.emit .clearPeerState).cleanUpByType cx).spawn (.dropLink false)
  | _ => h

/-- A node's link to an adapter and a link that is reset leave the peer table. -/
def completeClose (h : Handling) : Handling :=
  match h.peer.fsm.state, h.peer.linkType with
  | .closing, .nodeToAdapter | .resetting, _ => h.emit .dropPeer
  | .closing, linkType =>
    let h := (h.mapFsm fun m => { m with silent := false }).setState .inactive
    if h.peer.fsm.shuttingDown then h.emit .dropPeer
    else if linkType = .adapterToNode ∧ ¬cx.cfg.autoConnect then h
    else if linkType = .adapterToNode ∧
        h.peer.data.lastAuthFailure.any (·.isActivationFailed) then h
    else h.spawn .restart
  | _, _ => h

/-- `reset`, up to the point where it waits for the clean-up to finish. -/
def reset (h : Handling) : Handling :=
  ((h.setState .resetting).send (.terminateLinkOrDockingSession .reset)).cleanUpLinkState cx

def processTerminateAck (h : Handling) : Handling × Result :=
  match h.peer.fsm.state with
  | .closing => (h.cancelTimeout.cleanUpLinkState cx, .ok)
  | state => (h, .err (.unexpectedTransition state "ReceivedTerminateAck"))

def processTerminateLink (h : Handling) : Handling × Result :=
  ((h.setState .closing).cleanUpLinkState cx, .ok)

/-! ## Keying and hello -/

/-- A start begins a fresh ZDP-R session. -/
def beginSession (h : Handling) : Handling :=
  let h := (h.mapFsm fun m => { m with status := .up }).setState .keying
  let h := h.mapData fun d => { d with lastAuthFailure := none }
  { h with peer := h.peer.resetZdprSession }

/-- `add_adapter_link` and `add_node_link` of `km_multiplexor` -/
def addKmLink (h : Handling) : Handling :=
  { h with peer := { h.peer with kmHandle := true } }.spawn .keyManager

def processStart (h : Handling) : Handling × Result :=
  if h.peer.id = linkIdUnknown then (h, .panic)
  else if h.peer.fsm.state ≠ .inactive then
    (h, .err (.unexpectedTransition h.peer.fsm.state "Start"))
  else
    let h := h.beginSession
    match h.peer.linkType with
    | .adapterToNode => (h.addKmLink, .ok)
    | .nodeToNode => (h.setState .error, .err .operationNotSupportedYet)
    | .nodeToAdapter => (h.addKmLink.setTimeout, .ok)
    | .internal => (h, .err (.invalidOperation "coding error"))

/-- The special name in the subject of a certificate. -/
def isVisaServiceAdapter (cert : PeerCertificate) : Bool :=
  cert.getCert.subjectDer.getD [] == cx.cfg.visaServiceDn

/-- A peer whose certificate names the visa service adapter and was verified becomes it. -/
def assignSpecialPeer (h : Handling) (sa : KmTransportSA) : Handling :=
  if sa.peerCert.any fun cert => cert.isVerified && isVisaServiceAdapter cx cert then
    h.emit .assignSpecialName
  else h

def processKeyingDone (h : Handling) : Handling × Result :=
  if h.peer.fsm.state ≠ .keying then
    (h, .err (.unexpectedTransition h.peer.fsm.state "KeyingDone"))
  else
    match h.peer.transportSa with
    | none =>
      (h, .err (.unexpectedTransition h.peer.fsm.state "KeyingDone when SA not established"))
    | some sa =>
      let h := (h.assignSpecialPeer cx sa).setState .helloing
      if h.peer.linkType = .adapterToNode then ((h.send .helloRequest).setTimeout, .ok)
      else (h, .ok)

def processAssignedAaa (h : Handling) (addr : IpAddr) : Handling × Result :=
  (h.mapData fun d => { d with aaaAddress := some addr }, .ok)

/-- A node assigns an AAA address from its pool, as long as there is one. -/
def assignAaaAddress (h : Handling) : Handling :=
  match cx.io.aaaAddress with
  | some addr => (h.processAssignedAaa addr).1
  | none => h

def defaultZdprRetryLimit : UInt8 := 3

def bootstrapSupport : UInt8 := 0x01

def sendInitAuthenticationRequest (h : Handling) : Handling :=
  let payload := ZdpInitAuthenticationPayload.new cx.prim h.peer.authKey cx.io.nowSecs cx.io.nonce
  let h := h.sendLimited (.initAuthenticationRequest bootstrapSupport payload) defaultZdprRetryLimit
  h.spawn (.initAuth h.peer.zdprGeneration)

def processHelloRequest (h : Handling) : Handling × Result :=
  match h.peer.linkType, h.peer.fsm.state with
  | .nodeToNode, .helloing => (h.setState .active, .ok)
  | .nodeToAdapter, .helloing =>
    let h := h.assignAaaAddress cx
    let h := h.send (.helloSuccessResponse 0 cx.io.availableOidcIdps cx.io.aaaAddress)
    ((h.setState .waitForAcquireZprAddress).sendInitAuthenticationRequest cx, .ok)
  | .adapterToNode, _ => (h, .err (.invalidOperation "Discarded unsolicited Hello Request"))
  | _, state => (h, .err (.unexpectedTransition state "ReceivedHelloRequest"))

/-! ## Authentication of an adapter -/

def processAuthenticationFailure (h : Handling) (reason : AuthFailureReason) :
    Handling × Result :=
  (h.recordAuthFailure reason).failAndClose cx .other

/-- The completion of the task finds out whether its attempt is still the current one. -/
def doOidcAuthenticate (h : Handling) (idp : OidcIdpInfo) (challenge : Challenge)
    (baseBlobs : List AuthBlob) (attemptClock : BitVec 64) : Handling :=
  if cx.io.agentAlive then h.spawn (.oidc attemptClock idp.issuer challenge baseBlobs)
  else (h.processAuthenticationFailure cx .noAgent).1

def bootstrapBlob (challenge : ZdpInitAuthenticationPayload) : Option ZdpSelfSignedBlob :=
  cx.cfg.bootstrap.map fun bs => bs.authenticateBlob cx.prim cx.io.nowSecs challenge

/-- User authentication through the `AuthAgent`; with no agent and no bootstrap key the link
    cannot be authenticated, and with a bootstrap key the device-only path is left to try. -/
def authenticateUser (h : Handling) (idp : OidcIdpInfo)
    (challenge : Option ZdpInitAuthenticationPayload) : Option (Handling × Result) :=
  match challenge with
  | none => some (h.failAndClose cx .other)
  | some challenge =>
    if h.peer.data.authAgent.isSome then
      let blobs := (bootstrapBlob cx challenge).toList.map .selfSigned
      let h := (h.setState .waitForUserAuth).setTimeout
      let attemptClock := h.peer.fsm.logicalClock
      some (h.doOidcAuthenticate cx idp challenge.challenge blobs attemptClock, .ok)
    else if cx.cfg.bootstrap = none then some (h.processAuthenticationFailure cx .noAgent)
    else none

def authenticateDevice (h : Handling) (bootstrap : Bool)
    (challenge : Option ZdpInitAuthenticationPayload) : Handling × Result :=
  if bootstrap ∧ cx.cfg.bootstrap.isSome then
    match challenge with
    | none => h.failAndClose cx .other
    | some challenge =>
      match bootstrapBlob cx challenge with
      | none => (h, .ok)
      | some blob =>
        let h := h.setAuthenticatedNamespaces .deviceOnly
        let h := h.send (.acquireZprAddressRequest cx.zprAddr (cx.prim.encodeBlob blob))
        ((h.setState .registerAA).setTimeout, .ok)
  else h.processAuthenticationFailure cx .authUnavailable

def processInitAuth (h : Handling) (bootstrap : Bool)
    (challenge : Option ZdpInitAuthenticationPayload) : Handling × Result :=
  match h.peer.linkType, h.peer.fsm.state with
  | .adapterToNode, .waitForInitAuth =>
    let attempt :=
      match h.peer.data.oidcIdps.getD [] with
      | [] => none
      | idp :: _ => h.authenticateUser cx idp challenge
    attempt.getD (h.authenticateDevice cx bootstrap challenge)
  | .adapterToNode, .helloing =>
    -- init auth can race helloing; it is stowed away until helloing is finished
    (h.mapFsm fun m => { m with stowedInitAuth := some ⟨bootstrap, challenge⟩ }, .ok)
  | _, state => (h, .err (.unexpectedTransition state "ReceivedInitAuth"))

def processHelloResponse (h : Handling) (code : ResponseCode) (aaaAddr : Option IpAddr)
    (oidcIdps : Option (List OidcIdpInfo)) : Handling × Result :=
  if code = .other then h.processErrorResponse cx
  else
    match h.peer.linkType, h.peer.fsm.state with
    | .adapterToNode, .helloing =>
      let h := h.mapData fun d => { d with oidcIdps, aaaAddress := aaaAddr }
      let h := h.setState .waitForInitAuth
      let stowed := h.peer.fsm.stowedInitAuth
      let h := h.mapFsm fun m => { m with stowedInitAuth := none }
      match stowed with
      | some stowed => h.processInitAuth cx stowed.bootstrap stowed.challenge
      | none => (h, .ok)
    | .nodeToNode, .helloing => (h.setState .active, .ok)
    | .nodeToAdapter, _ => (h, .err (.invalidOperation "Discarded unsolicited Hello Response"))
    | _, state => (h, .err (.unexpectedTransition state "ReceivedHelloRespone"))

def processAuthenticationSuccess (h : Handling) (blobs : List AuthBlob) : Handling × Result :=
  match h.peer.fsm.state with
  | .registerAA | .waitForUserAuth =>
    let h := h.setAuthenticatedNamespaces (blobNamespaces blobs)
    let h := h.send (.acquireZprAddressRequest cx.zprAddr (cx.prim.encodeBlobs blobs))
    ((h.setState .registerAA).setTimeout, .ok)
  | _ => (h, .ok)

/-! ## Authorization by the visa service -/

def checkSelfSignedBlob (peer : PeerState) (ssBlob : ZdpSelfSignedBlob) (maxAgeSeconds : Nat) :
    Bool :=
  match peer.transportSa with
  | none => false
  | some sa =>
    let cert := sa.peerCert.map (·.getCert)
    (ssBlob.verifyBlobChallenge cx.prim cert peer.authKey maxAgeSeconds cx.io.nowSecs).isOk

def checkOidcBlob (peer : PeerState) (oidcBlob : ZdpOidcBlob) : Bool :=
  (oidcBlob.verifyChallenge cx.prim peer.authKey cx.io.nowSecs).isOk

/-- The check of one blob, with the age that a self-signed blob may have. -/
def checkBlob (peer : PeerState) (maxAgeSeconds : Nat) : AuthBlob → Bool
  | .selfSigned ssBlob => checkSelfSignedBlob cx peer ssBlob maxAgeSeconds
  | .oidc oidcBlob => checkOidcBlob cx peer oidcBlob

def stashRenewalIdentity (h : Handling) (oidcBlob : ZdpOidcBlob) : Handling :=
  match cx.io.availableOidcIdps.find? (·.issuer = oidcBlob.issuer) with
  | none => h
  | some idp =>
    let nonce := cx.prim.oidcNonceForChallenge (decodedChallenge cx.prim oidcBlob.challenge)
    h.mapData fun d => { d with renewalIdentity := some ⟨idp, nonce⟩ }

def abortEcho (h : Handling) : Handling :=
  match h.peer.fsm.echoHandle with
  | some handle => (h.emit (.abortEcho handle)).mapFsm fun m => { m with echoHandle := none }
  | none => h

/-- The common way into `Active`, which starts the keep-alive mechanism. -/
def runActive (h : Handling) : Handling × Result :=
  let h := (h.setState .active).abortEcho
  let h := h.mapFsm fun m => { m with keepAliveMisses := 0 }
  (h.setTimeout, .ok)

def processAuthorizeResponse (h : Handling) (zprAddr : IpAddr) : Handling × Result :=
  match h.peer.linkType, h.peer.fsm.state with
  | .nodeToAdapter, .registerAA =>
    let h := h.mapFsm fun m => { m with actorAddresses := [zprAddr] }
    (h.send (.grantZprAddressRequest .success [zprAddr])).runActive
  | _, _ => (h, .err (.invalidOperation "Discarded unsolicited authorize response"))

/-- The address an acquire request asks for, unless it asks for several. -/
def requestedAddr : Option (List IpAddr) → Option IpAddr
  | none | some [] => some .unspecified
  | some [addr] => some addr
  | some (_ :: _ :: _) => none

def buildConnectRequest (peer : PeerState) (addr : IpAddr) (blobs : List AuthBlob) :
    ConnectRequest :=
  buildConnectRequestFromParts cx.prim addr blobs peer.a2aDhPubkey cx.cfg.localDockAddr

/-- The blobs of an acquire request that were all verified under the key of the link. -/
def verifiedBlobs (peer : PeerState) (blob : String) : Option (List AuthBlob) :=
  match decodeBlobs cx.prim blob with
  | .error _ => none
  | .ok blobs => if blobs.all (checkBlob cx peer maxBlobAgeSeconds) then some blobs else none

/-- Remember who has authenticated, for a later renewal, and wait for the authorization. -/
def beginAuthorization (h : Handling) (blobs : List AuthBlob) : Handling :=
  let h := (firstOidc blobs).elim h (h.stashRenewalIdentity cx)
  (h.setAuthenticatedNamespaces (blobNamespaces blobs)).setState .registerAA

/-- The visa service adapter's own link is authorized by the node itself, and registered with
    the visa service later. -/
def processAcquireZprAddressRequest (h : Handling) (addrs : Option (List IpAddr))
    (blob : String) : Handling × Result :=
  match h.peer.linkType, h.peer.fsm.state with
  | .nodeToAdapter, .waitForAcquireZprAddress =>
    match requestedAddr addrs, verifiedBlobs cx h.peer blob with
    | some addr, some blobs =>
      let h := h.beginAuthorization cx blobs
      let connReq := buildConnectRequest cx h.peer addr blobs
      if cx.vsPeer = some h.peer.id then
        (((h.emit (.deferVsConnect addr connReq)).processAuthorizeResponse addr).1, .ok)
      else (h.spawn (.authorize connReq ⟨blob, blobs, h.peer.authKey⟩), .ok)
    | _, _ => h.processErrorResponse cx
  | _, _ => (h, .err (.invalidOperation "Discarded unsolicited acquire ZPR address request"))

def responseCodeForVsError : ErrorCode → Option ResponseCode
  | .invalidSignature | .authError | .paramError => some .authFailed
  | .policyDenied => some .policyDenied
  | .temporarilyUnavailable => some .authUnavailable
  | _ => none

def grantCodeForVsError (code : ErrorCode) : ResponseCode :=
  (responseCodeForVsError code).getD .other

def processAuthorizeFailure (h : Handling) (code : ErrorCode) : Handling × Result :=
  match h.peer.linkType, h.peer.fsm.state with
  | .nodeToAdapter, .registerAA =>
    (h.send (.grantZprAddressRequest (grantCodeForVsError code) [])).failAndClose cx .other
  | _, _ => (h, .err (.invalidOperation "Discarded unsolicited authorize failure"))

def processInitAuthAck (h : Handling) : Handling × Result :=
  match h.peer.linkType, h.peer.fsm.state with
  | .nodeToAdapter, .waitForAcquireZprAddress => (h.setTimeout, .ok)
  | _, _ => (h, .err (.invalidOperation "Discarded unsolicited init auth ack"))

def processInitAuthTimeout (h : Handling) : Handling × Result :=
  match h.peer.linkType, h.peer.fsm.state with
  | .nodeToAdapter, .waitForAcquireZprAddress => h.failAndClose cx .requestTimedOut
  | _, _ => (h, .err (.invalidOperation "Discarded unsolicited init auth timeout"))

end Handling

end ZprCore.Link
