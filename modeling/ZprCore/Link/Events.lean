-- SUMMARY: Activation, keep-alive and renewal of a link, and the dispatch of its events.
import ZprCore.Link.Handlers

/-!
# Activation, keep-alive and renewal

The handlers that lead an adapter's link into `Active`, the timeouts, the keep-alive mechanism
with the renewal of credentials that rides on it, and `process_event` itself. How long a task
waits is not modelled: a timeout fires at any time after it was armed.
-/

namespace ZprCore.Link

namespace Handling

variable (cx : Context)

/-! ## The grant, on an adapter -/

def failActivation (h : Handling) (text : String) : Handling × Result :=
  (h.recordAuthFailure (.activationFailed text)).failAndClose cx .other

def grantFailureReason : ResponseCode → AuthFailureReason
  | .policyDenied => .policyDenied
  | .authUnavailable => .authUnavailable
  | .authFailed => .visaServiceRejected "visa service rejected authentication"
  | code => .visaServiceRejected s!"grant failed with code {code.debug}"

/-- The interface that owns the internal network, where that fails the activation: on a dynamic
    grant only, and never because the owner could not be found out. -/
def fatalOwner (conflict : Except String (Option String)) : Option String :=
  match conflict with
  | .ok (some owner) => if cx.cfg.configuredZprAddrDemand = [] then some owner else none
  | _ => none

def fatalRoute : Option String :=
  match cx.io.addRoute with
  | .error e => if cx.cfg.configuredZprAddrDemand = [] then some e else none
  | .ok _ => none

/-- Set up the TUN device for the granted addresses and become active. -/
def activate (h : Handling) (addrs : List IpAddr) : Handling × Result :=
  match addrs with
  | [] => (h, .panic)
  | addr :: _ =>
    match cx.io.addAddress with
    | .error e => h.failActivation cx s!"failed to set ZPR address {cx.cfg.displayAddr addr}: {e}"
    | .ok _ =>
      match fatalOwner cx cx.io.routeOwnerConflict with
      | some owner =>
        h.failActivation cx
          s!"{cx.cfg.internalNetwork} already routes to interface {owner} — another ZPR adapter or tool already owns ZPR traffic on this host"
      | none =>
        match fatalRoute cx with
        | some e =>
          h.failActivation cx
            s!"failed to install ZPR internal-network route {cx.cfg.internalNetwork}: {e}"
        | none =>
          let h := (h.emit (.setLocalZprAddrs addrs)).emit (.setCarrier true)
          match fatalOwner cx cx.io.routeOwnerConflictAfter with
          | some owner =>
            (h.emit (.setCarrier false)).failActivation cx
              s!"{cx.cfg.internalNetwork} routes to interface {owner} after carrier-up — a concurrently starting ZPR adapter owns ZPR traffic on this host"
          | none => h.runActive

def debugAddrs (addrs : List IpAddr) : String :=
  "[" ++ ", ".intercalate (addrs.map cx.cfg.displayAddr) ++ "]"

def mismatchText (configured granted : List IpAddr) : String :=
  s!"fabric granted ZPR address(es) {debugAddrs cx granted} but this adapter is configured to demand {debugAddrs cx configured}; it cannot originate traffic from an address it was not granted. Remove the --zpr-addr argument / zpr_addr config line and try again to accept a fabric-assigned address."

/-- A configured address is a demand: any other grant is refused and ends the process. -/
def processGrantZprAddressRequest (h : Handling) (result : Except ResponseCode (List IpAddr)) :
    Handling × Result :=
  match h.peer.linkType, h.peer.fsm.state with
  | .adapterToNode, .registerAA =>
    match result with
    | .error code => (h.recordAuthFailure (grantFailureReason code)).failAndClose cx .other
    | .ok addrs =>
      let configured := cx.cfg.configuredZprAddrDemand
      if configured ≠ [] ∧ ¬configured.isPerm addrs then
        let h := h.recordAuthFailure (.grantedAddressMismatch configured addrs)
        let h := (h.setState .error).emit (.signalFatalError (mismatchText cx configured addrs))
        h.initiateClose cx .other
      else h.activate cx addrs
  | .adapterToNode, .active => (h, .ok)
  | _, _ => (h, .err (.invalidOperation "Discarded unsolicited Grant Zpr Address request"))

/-! ## Timeouts -/

def keepAliveMaxMisses : Nat := 3

/-- Send an echo and wait for its acknowledgement until the next timeout. -/
def sendEcho (h : Handling) : Handling × Result :=
  let handle := h.peer.fsm.logicalClock
  let h := h.send .echoRequest
  let h := h.spawn (.echo handle h.peer.zdprGeneration)
  ((h.mapFsm fun m => { m with echoHandle := some handle }).setTimeout, .ok)

/-- A timeout in `Active` with an echo outstanding is a miss; too many of them in a row close
    the link. -/
def keepAliveTimeout (h : Handling) : Handling × Result :=
  match h.peer.fsm.echoHandle with
  | none => h.sendEcho
  | some handle =>
    let h := h.emit (.abortEcho handle)
    let h := h.mapFsm fun m =>
      { m with echoHandle := none, keepAliveMisses := m.keepAliveMisses + 1 }
    if h.peer.fsm.keepAliveMisses ≥ keepAliveMaxMisses then h.failAndClose cx .requestTimedOut
    else h.sendEcho

/-- A timeout that was armed at an earlier clock is ignored. -/
def processTimeout (h : Handling) (logicalClock : BitVec 64) : Handling × Result :=
  if logicalClock ≠ h.peer.fsm.logicalClock then (h, .ok)
  else
    match h.peer.linkType, h.peer.fsm.state with
    | .adapterToNode, .waitForUserAuth => h.processAuthenticationFailure cx .interactionTimeout
    | .adapterToNode, .registerAA | .adapterToNode, .helloing | .nodeToAdapter, .keying =>
      h.failAndClose cx .requestTimedOut
    | _, .active => h.keepAliveTimeout cx
    | _, .closing => (h.cleanUpLinkState cx, .ok)
    | _, state =>
      (h, .err (.invalidOperation s!"Ignoring unexpected timeout in state {state.debug}"))

/-! ## Renewal -/

def sendRenewalCredentialRequest (h : Handling) (authExpires : Nat) : Handling :=
  let payload := ZdpInitAuthenticationPayload.new cx.prim h.peer.authKey cx.io.nowSecs cx.io.nonce
  let h := h.mapData fun d => { d with renewalChallenge := some payload.challenge }
  let h := h.send (.renewAuthenticationRequest payload)
  h.spawn (.renewalTimeout payload.challenge (renewalAttemptTimeout cx.io.now authExpires))

def warnNoAgent (h : Handling) : Handling :=
  if h.peer.data.renewalNoAgentWarned then h
  else
    h.mapData fun d =>
      { d with renewalNoAgentWarned := true, lastAuthFailure := some .noAgent }

def askAgentForRenewal (h : Handling) (identity : RenewalIdentity) (authExpires : Nat) : Handling :=
  if cx.io.agentAlive then
    (h.mapData fun d => { d with renewalInFlight := true }).spawn
      (.renewalReply identity.idp.issuer identity.nonce (renewalAttemptTimeout cx.io.now authExpires))
  else
    h.mapData fun d =>
      { d with
        authAgent := none
        renewalInFlight := false
        lastAuthFailure := some (.agentError "AuthAgent bridge is gone") }

/-- One renewal tick. The result is `panic` where a deadline is set and no expiry is. -/
def maybeRenewAuth (h : Handling) : Handling × Result :=
  let d := h.peer.data
  match d.authRenewalDeadline with
  | none => (h, .ok)
  | some deadline =>
    if cx.io.now < deadline ∨ d.renewalInFlight then (h, .ok)
    else
      match d.renewalIdentity with
      | none => (h.warnNoAgent, .ok)
      | some identity =>
        if d.authAgent.isSome then
          match d.authExpires with
          | some authExpires => (h.askAgentForRenewal cx identity authExpires, .ok)
          | none => (h, .panic)
        else if h.peer.linkType = .nodeToAdapter then
          match d.authExpires with
          | some authExpires =>
            let h := h.mapData fun d => { d with renewalInFlight := true }
            (h.sendRenewalCredentialRequest cx authExpires, .ok)
          | none => (h, .panic)
        else (h.warnNoAgent, .ok)

def processKeepAliveResponse (h : Handling) : Handling × Result :=
  match h.peer.fsm.state, h.peer.fsm.echoHandle with
  | .active, some _ =>
    let h := h.mapFsm fun m => { m with echoHandle := none, keepAliveMisses := 0 }
    h.setTimeout.maybeRenewAuth cx
  | state, _ => (h, .err (.unexpectedTransition state "ReceivedKeepAliveResponse"))

def requestRenewalNow (h : Handling) : Handling × RenewalStart :=
  if h.peer.linkType ≠ .nodeToAdapter ∨ h.peer.fsm.state ≠ .active then (h, .ignored)
  else if h.peer.data.renewalInFlight then (h, .coalesced)
  else
    let h := h.mapData fun d => { d with renewalInFlight := true }
    let authExpires := h.peer.data.authExpires.getD (cx.io.now + 2 * oidcUserInteractionTimeout)
    (h.sendRenewalCredentialRequest cx authExpires, .accepted)

def answerAuthUnavailable (h : Handling) (challenge : Challenge) : Handling × Result :=
  (h.send (.renewAuthenticationResponse .authUnavailable challenge ""), .ok)

def renewUserLeg (h : Handling) (challenge : Challenge) (ssBlob : Option AuthBlob) :
    Handling × Result :=
  match h.peer.data.authAgent, (h.peer.data.oidcIdps.getD []).head? with
  | some _, some idp =>
    if cx.io.agentAlive then
      let h := h.spawn (.adapterRenewal challenge idp.issuer ssBlob)
      (h.mapData fun d => { d with adapterRenewalTask := some challenge }, .ok)
    else
      (h.mapData fun d => { d with authAgent := none }).answerAuthUnavailable challenge
  | _, _ => h.answerAuthUnavailable challenge

/-- A new request supersedes the one that an adapter is still working on. -/
def supersedeRenewal (h : Handling) : Handling :=
  match h.peer.data.adapterRenewalTask with
  | some old =>
    (h.mapData fun d => { d with adapterRenewalTask := none }).emit (.abortAdapterRenewal old)
  | none => h

/-- The answer has one blob for each namespace the link authenticated with, or none at all. -/
def processRenewAuthRequest (h : Handling) (payload : ZdpInitAuthenticationPayload) :
    Handling × Result :=
  match h.peer.linkType, h.peer.fsm.state with
  | .adapterToNode, .active =>
    let challenge := payload.challenge
    let h := h.supersedeRenewal
    let namespaces := h.peer.data.authenticatedNamespaces.getD .userOnly
    let ssBlob := (bootstrapBlob cx payload).map AuthBlob.selfSigned
    match namespaces.contains .device, namespaces.contains .user, ssBlob with
    | true, _, none => h.answerAuthUnavailable challenge
    | true, false, some ssBlob =>
      (h.send (.renewAuthenticationResponse .success challenge (cx.prim.encodeBlobs [ssBlob])), .ok)
    | true, true, some ssBlob => h.renewUserLeg cx challenge (some ssBlob)
    | false, true, _ => h.renewUserLeg cx challenge none
    | false, false, _ => (h, .panic)
  | _, state => (h, .err (.unexpectedTransition state "ReceivedRenewAuthRequest"))

/-- The first blob of a renewal that fails its check or is bound to another challenge. -/
def renewalBlobFailure (peer : PeerState) (challenge : Challenge) :
    List AuthBlob → Option String
  | [] => none
  | blob :: rest =>
    if ¬checkBlob cx peer maxOidcBlobAgeSeconds blob then
      some "renewal blob challenge failed verification"
    else if decodedOrEmpty cx.prim blob.challenge ≠ challenge.toList then
      some "renewal blob is bound to a different challenge"
    else renewalBlobFailure peer challenge rest

def debugNamespaces (s : NamespaceSet) : String :=
  match s.device, s.user with
  | true, true => "\x7bDevice, User\x7d"
  | true, false => "\x7bDevice\x7d"
  | false, true => "\x7bUser\x7d"
  | false, false => "\x7b\x7d"

/-- Why the blobs of a renewal are refused: they must be exactly one for each namespace the
    link authenticated with, all bound to the challenge of this attempt, and the user leg from
    the issuer the actor first authenticated with. -/
def renewalRefusal (peer : PeerState) (challenge : Challenge) (blobs : List AuthBlob) :
    Option String :=
  let expected := peer.data.authenticatedNamespaces.getD .userOnly
  let got := blobNamespaces blobs
  if blobs.length ≠ got.len then
    some s!"renewal blob array carries a duplicate namespace ({blobs.length} blobs, {got.len} namespaces)"
  else if got ≠ expected then
    some s!"renewal blob namespace set {debugNamespaces got} does not match the authenticated set {debugNamespaces expected}"
  else
    match renewalBlobFailure cx peer challenge blobs with
    | some text => some text
    | none =>
      match firstOidc blobs with
      | none => none
      | some oidcBlob =>
        if peer.data.renewalIdentity.map (·.idp.issuer) ≠ some oidcBlob.issuer then
          some s!"renewed credential from unexpected issuer {oidcBlob.issuer}"
        else none

def renewalFailureReason : ResponseCode → AuthFailureReason
  | .authUnavailable => .authUnavailable
  | code => .agentError s!"adapter answered renewal with code {code.debug}"

/-- Only the answer to the outstanding request takes the stashed challenge. -/
def processRenewAuthResponse (h : Handling) (echoedChallenge : Challenge)
    (result : Except ResponseCode String) : Handling × Result :=
  match h.peer.linkType, h.peer.fsm.state with
  | .nodeToAdapter, .active =>
    match h.peer.data.takeRenewalChallengeIf echoedChallenge with
    | (false, _) => (h, .ok)
    | (true, d) =>
      let h := h.mapData fun _ => d
      match result with
      | .error code => (h.finishRenewalFailure (renewalFailureReason code), .ok)
      | .ok blobStr =>
        match decodeBlobs cx.prim blobStr with
        | .error e =>
          (h.finishRenewalFailure (.agentError s!"invalid renewal blob: {e.display}"), .ok)
        | .ok blobs =>
          match renewalRefusal cx h.peer echoedChallenge blobs with
          | some text => (h.finishRenewalFailure (.agentError text), .ok)
          | none => (h.spawn (.reauthorize (vstBlobsForRenewal cx.prim blobs)), .ok)
  | _, state => (h, .err (.unexpectedTransition state "ReceivedRenewAuthResponse"))

/-! ## Dispatch -/

def processEvent (h : Handling) : LinkEvent → Handling × Result
  | .start => h.processStart
  | .keyingDone => h.processKeyingDone cx
  | .receivedHelloRequest => h.processHelloRequest cx
  | .assignedAAA addr => h.processAssignedAaa addr
  | .receivedHelloResponse code aaaAddr oidcIdps => h.processHelloResponse cx code aaaAddr oidcIdps
  | .receivedAcquireZprAddressRequest addrs blob => h.processAcquireZprAddressRequest cx addrs blob
  | .receivedInitAuth bootstrap challenge => h.processInitAuth cx bootstrap challenge
  | .receivedInitAuthAck => h.processInitAuthAck
  | .receivedInitAuthTimeout => h.processInitAuthTimeout cx
  | .receivedRenewAuthRequest challenge => h.processRenewAuthRequest cx challenge
  | .receivedRenewAuthResponse challenge result => h.processRenewAuthResponse cx challenge result
  | .receivedGrantZprAddressRequest result => h.processGrantZprAddressRequest cx result
  | .authenticationFailure reason => h.processAuthenticationFailure cx reason
  | .authenticationSuccess blobs => h.processAuthenticationSuccess cx blobs
  | .receivedAuthorizeResponse zprAddr => h.processAuthorizeResponse zprAddr
  | .receivedAuthorizeFailure code _ => h.processAuthorizeFailure cx code
  | .receivedKeepAliveResponse => h.processKeepAliveResponse cx
  | .receivedTerminateLink _ => h.processTerminateLink cx
  | .receivedTerminateAck => h.processTerminateAck cx
  | .receivedDisconnectAck => h.processDisconnectAck
  | .close reason => h.initiateClose cx reason
  | .closeDone => (h.completeClose cx, .ok)
  | .error => h.processErrorResponse cx
  | .timeout logicalClock => h.processTimeout cx logicalClock

end Handling

end ZprCore.Link
