-- SUMMARY: The links of a process with everything that is done for them in the background.
import ZprCore.Lib.Run
import ZprCore.Link.Events

/-!
# Links and background activities of a process

The peer table of a process together with every activity that was started for a link and has
not ended: armed timeouts, tasks that wait for an acknowledgement or for an answer of the visa
service or the `AuthAgent`, the retry loop, the key manager and its signals, messages in a
management queue. An activity knows its link only by the id; the slot may have been given to
another link by the time the activity acts. All of them run on one thread, so that what one of
them does between two awaits is one step.

Three things are recorded that the code does not see: for each activity the incarnation (`uid`)
of the link it was started for and the incarnation whose activity started it, the messages
received on each incarnation, and the answers of the visa service.
-/

namespace ZprCore.Link

structure Activity where
  linkId : LinkId
  /-- the link this was started for -/
  owner : Nat
  /-- the link on whose behalf the handler ran that started this -/
  origin : Nat
  work : Work

/-- An address that the visa service gave in answer to `authorize_connect`. -/
structure Answer where
  owner : Nat
  origin : Nat
  request : ConnectRequest
  evidence : Evidence
  addr : IpAddr

structure Node where
  peers : LinkId → Option PeerState
  nextUid : Nat
  /-- the link of the visa service adapter -/
  vsPeer : Option LinkId
  zprAddr : List IpAddr
  deferredVsConnect : Option Activity
  activities : List Activity
  received : List (Nat × Incoming)
  answers : List Answer

inductive VSApiError where
  | codedError (code : ErrorCode) (message : String)
  | other (text : String)

def VSApiError.display : VSApiError → String
  | .codedError _ message => message
  | .other text => text

/-- What an activity was waiting for. -/
inductive Outcome where
  /-- the time has come, or nothing is waited for -/
  | due
  | acked
  | canceled
  | linkClosed
  /-- the reply of an `AuthAgent`, `none` if it dropped the request -/
  | agentReply (reply : Option (Except AuthFailureReason String))
  /-- the visa service's answer with an address and an expiry in seconds -/
  | authorized (addr : IpAddr) (authExpires : Nat)
  | refused (error : VSApiError)
  /-- the retry timer was reset -/
  | notified
  /-- the handshake of a key manager has ended in a security association -/
  | established (sa : KmTransportSA)

/-- Commands of the administrator and of the visa service on an existing link. -/
inductive Command where
  | event (event : LinkEvent)
  | reset
  | requestRenewalNow
  | setAuthAgent (agent : Nat)
  | clearAuthAgentIf (agent : Nat)

inductive NodeAction where
  | insertInternalPeer (id : LinkId)
  | startTether (id : LinkId) (linkType : LinkType) (autoStart : Bool) (randomKey : AuthKey)
      (io : Io)
  | receive (id : LinkId) (msg : Incoming)
  | sendMgmt (id : LinkId) (msg : Nat)
  | acknowledgement (id : LinkId) (seqNum : Zdpr.SeqNum) (isCanceled : Bool)
  | command (id : LinkId) (command : Command) (io : Io)
  | takeDeferredVsConnect
  /-- activity `i` acts -/
  | run (i : Nat) (outcome : Outcome) (io : Io)

/-! ## Kinds of work and messages -/

def Work.isEcho (handle : BitVec 64) : Work → Bool
  | .echo handle' _ => handle' == handle
  | _ => false

def Work.isAdapterRenewal (challenge : Challenge) : Work → Bool
  | .adapterRenewal challenge' _ _ => challenge' == challenge
  | _ => false

def Work.isKeyManager : Work → Bool
  | .keyManager => true
  | _ => false

def Work.isMessage : Work → Bool
  | .message _ => true
  | _ => false

/-- Work that waits for an answer. -/
def Work.waits : Work → Bool
  | .initAuth _ | .echo _ _ | .terminate _ | .oidc _ _ _ _ | .authorize _ _
  | .deferredVsConnect _ _ | .zdprWorker _ | .renewalReply _ _ _ | .reauthorizing _ _
  | .adapterRenewal _ _ _ | .keyManager => true
  | _ => false

/-- The event that the handler of a message raises. -/
def Incoming.event : Incoming → Option LinkEvent
  | .helloRequest _ => some .receivedHelloRequest
  | .helloResponse code aaaAddr oidcIdps => some (.receivedHelloResponse code aaaAddr oidcIdps)
  | .initAuthenticationRequest bootstrap challenge => some (.receivedInitAuth bootstrap challenge)
  | .renewAuthenticationRequest challenge => some (.receivedRenewAuthRequest challenge)
  | .renewAuthenticationResponse challenge result =>
    some (.receivedRenewAuthResponse challenge result)
  | .acquireZprAddress addrs blob => some (.receivedAcquireZprAddressRequest addrs blob)
  | .grantZprAddress result => some (.receivedGrantZprAddressRequest result)
  | .terminateLinkOrDockingSession reason => some (.receivedTerminateLink reason)
  | .handled | .refused => none

/-- The handler of a message fails before it raises an event. -/
def Incoming.isRefused (cfg : Config) (msg : Incoming) : Bool :=
  match msg with
  | .refused => true
  | .helloRequest _ => cfg.phMode ≠ .node
  | _ => false

namespace Node

def init : Node where
  peers := fun _ => none
  nextUid := 1
  vsPeer := none
  zprAddr := []
  deferredVsConnect := none
  activities := []
  received := []
  answers := []

variable (prim : Primitives) (cfg : Config) {id id' : LinkId} {n n' : Node}

def context (n : Node) (io : Io) : Context := ⟨prim, cfg, io, n.vsPeer, n.zprAddr⟩

def setPeer (n : Node) (id : LinkId) (peer : Option PeerState) : Node :=
  { n with peers := Function.update n.peers id peer }

/-- `Assembly::drop_peer` and `PeerTable::remove` -/
def dropPeer (n : Node) (id : LinkId) : Node :=
  { n.setPeer id none with vsPeer := if n.vsPeer = some id then none else n.vsPeer }

theorem setPeer_self (n : Node) (id : LinkId) (peer : Option PeerState) :
    (n.setPeer id peer).peers id = peer :=
  Function.update_self ..

theorem setPeer_of_ne (n : Node) (peer : Option PeerState) (h : id' ≠ id) :
    (n.setPeer id peer).peers id' = n.peers id' :=
  Function.update_of_ne h ..

/-! ## Delivering events -/

/-- End the activities of one link that do a certain kind of work. -/
def abort (n : Node) (uid : Nat) (kind : Work → Bool) : Node :=
  { n with activities := n.activities.filter fun a => !(a.owner == uid && kind a.work) }

/-- An effect of a handler that ran on the peer `uid` under `id`. Effects on tables of other
    parts of the process are left to the models of those parts. -/
def applyEffect (id : LinkId) (uid origin : Nat) (n : Node) : Effect → Node
  | .spawn work => { n with activities := n.activities ++ [⟨id, uid, origin, work⟩] }
  | .abortEcho handle => n.abort uid (·.isEcho handle)
  | .abortAdapterRenewal challenge => n.abort uid (·.isAdapterRenewal challenge)
  | .assignSpecialName => if n.vsPeer = none then { n with vsPeer := some id } else n
  | .dropPeer => n.dropPeer id
  | .setLocalZprAddrs addrs => { n with zprAddr := addrs }
  | .deferVsConnect addr request =>
    { n with deferredVsConnect := some ⟨id, uid, origin, .deferredVsConnect addr request⟩ }
  | .releaseAddress _ | .clearPeerState | .clearFlowTables | .setCarrier _
  | .signalFatalError _ => n

/-- The node after a handler has run on the peer under `id`. -/
def apply (n : Node) (id : LinkId) (origin : Nat) (h : Handling) : Node :=
  h.effects.foldl (applyEffect id h.peer.uid origin) (n.setPeer id (some h.peer))

theorem apply_spawn (n : Node) (id : LinkId) (origin : Nat) {h : Handling} {work : Work}
    (he : h.effects = []) :
    n.apply id origin (h.spawn work) = { n.setPeer id (some h.peer) with
      activities := n.activities ++ [⟨id, h.peer.uid, origin, work⟩] } := by
  simp only [apply, Handling.spawn, Handling.emit, he, List.nil_append, List.foldl_cons,
    List.foldl_nil, applyEffect, setPeer]

/-- `Assembly::process_link_state_event`, raised on behalf of the link `origin`. -/
def processLinkStateEvent (n : Node) (io : Io) (origin : Nat) (id : LinkId) (event : LinkEvent) :
    Node × Result :=
  match n.peers id with
  | none => (n, .err (.notFound id))
  | some peer =>
    let r := Handling.processEvent (n.context prim cfg io) ⟨peer, []⟩ event
    (n.apply id origin r.1, r.2)

def raise (n : Node) (io : Io) (origin : Nat) (id : LinkId) (event : LinkEvent) : Option Node :=
  let r := n.processLinkStateEvent prim cfg io origin id event
  if r.2 = .panic then none else some r.1

def updatePeer (n : Node) (id : LinkId) (f : PeerState → PeerState) : Node :=
  n.setPeer id ((n.peers id).map f)

theorem updatePeer_none (f : PeerState → PeerState)
    (hp : n.peers id = none) : n.updatePeer id f = n := by
  rw [updatePeer, setPeer, hp, Option.map_none, Function.update_eq_self_iff.mpr hp.symm]

/-! ## Background activities -/

def setSecurityAssociation (n : Node) (id : LinkId) (sa : KmTransportSA) : Node :=
  n.updatePeer id fun peer => { peer with transportSa := some sa }

def recordAuthExpires (n : Node) (io : Io) (id : LinkId) (authExpiresEpochSecs : Nat) : Node :=
  n.updatePeer id fun peer =>
    { peer with
      data := peer.data.setAuthExpires io.now (secs authExpiresEpochSecs) cfg.authRenewalLead }

def authorizeFailureEvent : VSApiError → LinkEvent
  | .codedError code message =>
    if (Handling.responseCodeForVsError code).isSome then .receivedAuthorizeFailure code message
    else .error
  | .other _ => .error

/-- The rest of the task of `authorize_connect`. -/
def authorizeConnect (n : Node) (io : Io) (a : Activity) (request : ConnectRequest)
    (evidence : Evidence) : Outcome → Option Node
  | .authorized addr authExpires =>
    let n : Node :=
      { n with answers := n.answers ++ [⟨a.owner, a.origin, request, evidence, addr⟩] }
    match addr with
    | .v4 _ => n.raise prim cfg io a.owner a.linkId .error
    | .v6 _ =>
      (n.recordAuthExpires cfg io a.linkId authExpires).raise prim cfg io a.owner a.linkId
        (.receivedAuthorizeResponse addr)
  | .refused error => n.raise prim cfg io a.owner a.linkId (authorizeFailureEvent error)
  | _ => none

/-- The rest of `send_deferred_vs_connect`; `vs_worker` panics if it fails. -/
def sendDeferredVsConnect (n : Node) (io : Io) (a : Activity) (assignedAddr : IpAddr) :
    Outcome → Option Node
  | .authorized addr authExpires =>
    if addr = assignedAddr then some (n.recordAuthExpires cfg io a.linkId authExpires) else none
  | _ => none

/-- A future that was returned by `send_mgmt_helper` in session `generation` finds the peer. -/
def sameSession (n : Node) (id : LinkId) (generation : BitVec 64) : Bool :=
  (n.peers id).any (·.zdprGeneration == generation)

/-- A task that waits for a message of session `generation` to be acknowledged, and then raises
    an event. -/
def awaitAck (n : Node) (io : Io) (a : Activity) (generation : BitVec 64)
    (event : Outcome → Option LinkEvent) (outcome : Outcome) : Option Node :=
  match outcome with
  | .linkClosed => if n.sameSession a.linkId generation then none else some n
  | outcome =>
    if n.sameSession a.linkId generation then
      (event outcome).bind (n.raise prim cfg io a.owner a.linkId)
    else none

def initAuthEvent : Outcome → Option LinkEvent
  | .acked => some .receivedInitAuthAck
  | .canceled => some .receivedInitAuthTimeout
  | _ => none

def ackEvent (event : LinkEvent) : Outcome → Option LinkEvent
  | .acked => some event
  | _ => none

/-- The event that the `AuthAgent`'s reply raises. -/
def oidcEvent (issuer : String) (challenge : Challenge) (baseBlobs : List AuthBlob) :
    Option (Except AuthFailureReason String) → LinkEvent
  | some (.ok idToken) =>
    .authenticationSuccess
      (baseBlobs ++ [.oidc ⟨issuer, idToken, prim.base64Encode challenge.toList⟩])
  | some (.error reason) => .authenticationFailure reason
  | none => .authenticationFailure (.agentError "AuthAgent dropped the request")

/-- The rest of the task of `do_oidc_authenticate`. -/
def completeOidc (n : Node) (io : Io) (a : Activity) (attemptClock : BitVec 64) (issuer : String)
    (challenge : Challenge) (baseBlobs : List AuthBlob) : Outcome → Option Node
  | .agentReply reply =>
    -- a completion whose attempt was superseded is discarded
    if (n.peers a.linkId).any (·.fsm.logicalClock == attemptClock) then
      n.raise prim cfg io a.owner a.linkId (oidcEvent prim issuer challenge baseBlobs reply)
    else some n
  | _ => none

/-- `km_multiplexor::drop_link` ends the key manager, and then the close is completed. -/
def dropLink (n : Node) (io : Io) (a : Activity) (dropped : Bool) : Option Node :=
  if dropped then n.raise prim cfg io a.owner a.linkId .closeDone
  else
    let n :=
      match n.peers a.linkId with
      | none => n
      | some peer =>
        (n.setPeer a.linkId (some { peer with transportSa := none, kmHandle := false })).abort
          peer.uid Work.isKeyManager
    some { n with activities := n.activities ++ [{ a with work := .dropLink true }] }

/-- The rest of the task of `setup_restart`. -/
def restart (n : Node) (io : Io) (a : Activity) : Option Node :=
  let fatal := (n.peers a.linkId).any fun peer =>
    peer.data.lastAuthFailure.any (·.isActivationFailed)
  if fatal then some n else n.raise prim cfg io a.owner a.linkId .start

/-- `KmSignal::SaEstablished` in `launch_signal_worker` -/
def saEstablished (n : Node) (io : Io) (a : Activity) (sa : KmTransportSA) : Option Node :=
  (n.setSecurityAssociation a.linkId sa).raise prim cfg io a.owner a.linkId .keyingDone

/-- One step of `zdpr_worker`: the top of its loop, where it looks the peer up and ends if there
    is none, or one of the two ways on from its `select!`. A peer that has left the table in the
    meantime is still held. -/
def zdprWorker (n : Node) (a : Activity) (held : Option (Nat × Bool)) : Outcome → Option Node
  | .due =>
    match held with
    | none =>
      match n.peers a.linkId with
      | none => some n
      | some peer =>
        let held := some (peer.uid, peer.zdprSend.retryNeeded)
        some { n with activities := n.activities ++ [{ a with work := .zdprWorker held }] }
    | some (_, false) => none
    | some (uid, true) =>
      let n := n.updatePeer a.linkId fun peer =>
        if peer.uid = uid then { peer with zdprSend := (Mgmt.retryTick peer.zdprSend).1 } else peer
      some { n with activities := n.activities ++ [{ a with work := .zdprWorker none }] }
  | .notified =>
    if held.isSome then
      some { n with activities := n.activities ++ [{ a with work := .zdprWorker none }] }
    else none
  | _ => none

/-! ## Renewal tasks, which compare the link's uid -/

/-- Change the peer under the activity's id, if it is the link the activity was started for. -/
def updateOwner (n : Node) (a : Activity) (f : Handling → Handling) : Node :=
  match n.peers a.linkId with
  | none => n
  | some peer => if peer.uid = a.owner then n.apply a.linkId a.owner (f ⟨peer, []⟩) else n

/-- `submit_renewal_reauthorize`, up to the call of the visa service. -/
def submitRenewalReauthorize (n : Node) (a : Activity) (blobs : List VsBlob) : Node :=
  n.updateOwner a fun h =>
    if ¬cfg.hasVsconn then
      h.finishRenewalFailure (.agentError "no visa service connection for renewal")
    else
      match h.peer.fsm.actorAddresses ++ h.peer.data.aaaAddress.toList with
      | [] => h.finishRenewalFailure (.agentError "no actor address to renew")
      | addr :: _ => h.spawn (.reauthorizing addr blobs)

def handleRenewalReply (n : Node) (a : Activity) (issuer nonce : String) (attemptTimeout : Nat) :
    Outcome → Option Node
  | .agentReply (some (.ok idToken)) =>
    some (n.submitRenewalReauthorize cfg a [.oidc issuer idToken nonce])
  | .agentReply (some (.error reason)) =>
    some (n.updateOwner a fun h => h.finishRenewalFailure reason)
  | .agentReply none =>
    some (n.updateOwner a fun h =>
      h.finishRenewalFailure (.agentError "AuthAgent dropped the renewal request"))
  | .due =>
    some (n.updateOwner a fun h =>
      h.finishRenewalFailure
        (.agentError s!"renewal attempt timed out after {prim.debugDuration attemptTimeout}"))
  | _ => none

def renewalTimeout (n : Node) (a : Activity) (challenge : Challenge) (attemptTimeout : Nat) : Node :=
  n.updateOwner a fun h =>
    match h.peer.data.takeRenewalChallengeIf challenge with
    | (false, _) => h
    | (true, d) =>
      (h.mapData fun _ => d).finishRenewalFailure (.agentError
        s!"renewal credential request timed out after {prim.debugDuration attemptTimeout}")

/-- The peer is held while the visa service is called, so that the answer can only reach the
    link it is for. -/
def completeReauthorize (n : Node) (io : Io) (a : Activity) : Outcome → Option Node
  | .authorized _ authExpires =>
    some (n.updateOwner a fun h =>
      h.mapData fun d => d.setAuthExpires io.now (secs authExpires) cfg.authRenewalLead)
  | .refused error =>
    some (n.updateOwner a fun h =>
      h.finishRenewalFailure (.visaServiceRejected error.display))
  | _ => none

def completeAdapterRenewal (n : Node) (a : Activity) (challenge : Challenge) (issuer : String)
    (ssBlob : Option AuthBlob) : Outcome → Option Node
  | .agentReply (some (.ok idToken)) =>
    let oidcBlob := AuthBlob.oidc ⟨issuer, idToken, prim.base64Encode challenge.toList⟩
    let blob := prim.encodeBlobs (ssBlob.toList ++ [oidcBlob])
    some (n.updateOwner a fun h => h.send (.renewAuthenticationResponse .success challenge blob))
  | .agentReply _ =>
    some (n.updateOwner a fun h =>
      h.send (.renewAuthenticationResponse .authUnavailable challenge ""))
  | _ => none

/-! ## Management messages -/

/-- A hello request may carry a public key for the peer. -/
def applyPubkey (n : Node) (id : LinkId) : Incoming → Node
  | .helloRequest (some pubkey) => n.updatePeer id fun peer => { peer with a2aDhPubkey := pubkey }
  | _ => n

/-- `mgmt_processor_worker` handles one message; where that fails it raises an error. -/
def processMessage (n : Node) (io : Io) (a : Activity) (msg : Incoming) : Option Node :=
  if msg.isRefused cfg then n.raise prim cfg io a.owner a.linkId .error
  else
    match msg.event with
    | none => some n
    | some event =>
      let r := (n.applyPubkey a.linkId msg).processLinkStateEvent prim cfg io a.owner a.linkId event
      match r.2 with
      | .ok => some r.1
      | .err _ => r.1.raise prim cfg io a.owner a.linkId .error
      | .panic => none

def queued (as : List Activity) (uid : Nat) : List Activity :=
  as.filter fun a => a.owner == uid && a.work.isMessage

def mgmtProcessorQueueSize : Nat := 16

/-! ## Steps -/

/-- Activity `a`, which is no longer among those of `n`, acts. -/
def runWork (n : Node) (io : Io) (a : Activity) (outcome : Outcome) : Option Node :=
  match a.work, outcome with
  | .timeout logicalClock, .due => n.raise prim cfg io a.owner a.linkId (.timeout logicalClock)
  | .initAuth generation, outcome => n.awaitAck prim cfg io a generation initAuthEvent outcome
  | .echo _ generation, outcome =>
    n.awaitAck prim cfg io a generation (ackEvent .receivedKeepAliveResponse) outcome
  | .terminate generation, outcome =>
    n.awaitAck prim cfg io a generation (ackEvent .receivedTerminateAck) outcome
  | .oidc attemptClock issuer challenge baseBlobs, outcome =>
    n.completeOidc prim cfg io a attemptClock issuer challenge baseBlobs outcome
  | .authorize request evidence, outcome =>
    n.authorizeConnect prim cfg io a request evidence outcome
  | .deferredVsConnect addr _, outcome => n.sendDeferredVsConnect cfg io a addr outcome
  | .stopVsconn _, .due => n.raise prim cfg io a.owner a.linkId .receivedDisconnectAck
  | .restartVsconn, .due => some n
  | .dropLink dropped, .due => n.dropLink prim cfg io a dropped
  | .restart, .due => n.restart prim cfg io a
  -- its state machine stays in `Transport`, so that it signals once
  | .keyManager, .established sa =>
    some { n with activities := n.activities ++ [{ a with work := .saEstablished sa }] }
  | .saEstablished sa, .due => n.saEstablished prim cfg io a sa
  | .zdprWorker held, outcome => n.zdprWorker a held outcome
  | .renewalReply issuer nonce attemptTimeout, outcome =>
    n.handleRenewalReply prim cfg a issuer nonce attemptTimeout outcome
  | .renewalTimeout challenge attemptTimeout, .due =>
    some (n.renewalTimeout prim a challenge attemptTimeout)
  | .reauthorize blobs, .due => some (n.submitRenewalReauthorize cfg a blobs)
  | .reauthorizing _ _, outcome => n.completeReauthorize cfg io a outcome
  | .adapterRenewal challenge issuer ssBlob, outcome =>
    n.completeAdapterRenewal prim a challenge issuer ssBlob outcome
  | .actorDisconnect _, .due => some n
  | .message msg, .due => n.processMessage prim cfg io a msg
  | _, _ => none

theorem runWork_due {prim : Primitives} {cfg : Config} {io : Io} {a : Activity}
    {outcome : Outcome} (hw : a.work.waits = false)
    (h : n.runWork prim cfg io a outcome = some n') : outcome = .due := by
  unfold runWork at h
  cases outcome with
  | due => rfl
  | _ =>
    cases hwork : a.work with
    | initAuth | echo | terminate | oidc | authorize | deferredVsConnect | zdprWorker | renewalReply
    | reauthorizing | adapterRenewal | keyManager =>
      rw [hwork] at hw
      cases hw
    | _ => simp only [hwork, reduceCtorEq] at h

/-- Activity `i` acts. Messages of one link are handled in the order of their arrival. -/
def runActivity (n : Node) (io : Io) (i : Nat) (outcome : Outcome) : Option Node :=
  match n.activities[i]? with
  | none => none
  | some a =>
    if a.work.isMessage ∧ queued (n.activities.take i) a.owner ≠ [] then none
    else { n with activities := n.activities.eraseIdx i }.runWork prim cfg io a outcome

/-- `start_tether`: the link is added to a vacant slot and started. -/
def startTether (n : Node) (io : Io) (id : LinkId) (linkType : LinkType) (autoStart : Bool)
    (randomKey : AuthKey) : Option Node :=
  if id = linkIdUnknown ∨ (n.peers id).isSome then none
  else if linkType = .nodeToAdapter ∨ linkType = .adapterToNode then
    let peer := PeerState.new id n.nextUid linkType randomKey
    let worker : Activity := ⟨id, n.nextUid, n.nextUid, .zdprWorker none⟩
    let n' : Node :=
      { n.setPeer id (some peer) with
        nextUid := n.nextUid + 1
        activities := n.activities ++ [worker] }
    if autoStart then n'.raise prim cfg io n.nextUid id .start else some n'
  else none

def runCommand (n : Node) (io : Io) (id : LinkId) (command : Command) : Option Node :=
  match n.peers id with
  | none => some n
  | some peer =>
    let cx := n.context prim cfg io
    match command with
    | .event (.start) => n.raise prim cfg io peer.uid id .start
    | .event (.close reason) => n.raise prim cfg io peer.uid id (.close reason)
    | .event _ => none
    | .reset => some (n.apply id peer.uid (Handling.reset cx ⟨peer, []⟩))
    | .requestRenewalNow =>
      some (n.apply id peer.uid (Handling.requestRenewalNow cx ⟨peer, []⟩).1)
    | .setAuthAgent agent =>
      some (n.setPeer id (some { peer with data := { peer.data with authAgent := some agent } }))
    | .clearAuthAgentIf agent =>
      if peer.data.authAgent = some agent then
        some (n.setPeer id (some { peer with data := { peer.data with authAgent := none } }))
      else some n

def step (n : Node) : NodeAction → Option Node
  | .insertInternalPeer id =>
    if id = linkIdUnknown ∨ (n.peers id).isSome then none
    else
      let peer := PeerState.new id n.nextUid .internal (Vector.replicate 32 0)
      some { n.setPeer id (some peer) with nextUid := n.nextUid + 1 }
  | .startTether id linkType autoStart randomKey io =>
    n.startTether prim cfg io id linkType autoStart randomKey
  | .receive id msg =>
    match n.peers id with
    | none => some n
    | some peer =>
      if (queued n.activities peer.uid).length < mgmtProcessorQueueSize then
        some
          { n with
            activities := n.activities ++ [⟨id, peer.uid, peer.uid, .message msg⟩]
            received := n.received ++ [(peer.uid, msg)] }
      else some n
  | .sendMgmt id msg =>
    some (n.updatePeer id fun peer =>
      { peer with zdprSend := (peer.zdprSend.enqueuePacket (.other msg)).2 })
  | .acknowledgement id seqNum isCanceled =>
    match n.peers id with
    | none => some n
    | some peer =>
      (Mgmt.handleAcknowledgementCanceledCommon peer.zdprSend seqNum isCanceled).map
        fun (zdprSend, _) => n.setPeer id (some { peer with zdprSend })
  | .command id command io => n.runCommand prim cfg io id command
  | .takeDeferredVsConnect =>
    match n.deferredVsConnect with
    | none => some n
    | some a => some { n with deferredVsConnect := none, activities := n.activities ++ [a] }
  | .run i outcome io => n.runActivity prim cfg io i outcome

end Node

/-! ## A small node -/

/-- The bytes of a challenge whose hash is `b` throughout. -/
def sampleChallenge (b : UInt8) : Bytes := List.replicate 16 0 ++ List.replicate 32 b

/-- The key is its own hash; the texts "1" and "2" stand for a challenge and for a blob with that
    challenge. -/
def samplePrimitives : Primitives where
  keyedHash key _ _ := key
  base64Decode text :=
    .ok (if text = "1" then sampleChallenge 1 else if text = "2" then sampleChallenge 2 else [])
  base64Encode _ := ""
  jsonFromSlice bytes :=
    let challenge := if bytes = sampleChallenge 1 then "1" else "2"
    .ok (.array [{
      blobType := some ⟨some "SS", "SS"⟩
      selfSigned := .ok { ts := 0, cn := "", challenge, sig := "" }
      oidc := .error ""
      display := "" }])
  encodeBlob _ := ""
  encodeBlobs _ := ""
  oidcNonceForChallenge _ := ""
  signRsaKey _ _ _ := []
  debugDuration _ := ""

/-- The address that an adapter asks for. -/
def sampleZprAddr : IpAddr := .v6 0xfd5a0000000000000000000000000007

def sampleConfig : Config where
  phMode := .node
  autoConnect := false
  bootstrap := none
  authRenewalLead := 0
  configuredZprAddrDemand := []
  hasVsconn := true
  localDockAddr := .v6 0xfd5a0000000000000000000000000001
  visaServiceDn := [1]
  internalNetwork := ""
  displayAddr _ := ""

def sampleIo : Io where
  now := 0
  nonce := Vector.replicate 8 0
  aaaAddress := none
  availableOidcIdps := []
  agentAlive := true
  addAddress := .ok ()
  routeOwnerConflict := .ok none
  addRoute := .ok ()
  routeOwnerConflictAfter := .ok none

def sampleSa (saId : Nat) (peerCert : Option PeerCertificate) : KmTransportSA :=
  ⟨saId, ⟨1, 2⟩, ⟨1, 2⟩, Vector.replicate 32 0, Vector.replicate 32 0, [], peerCert⟩

/-- A link to an adapter is keyed and greeted; its activities start at index `j`. -/
def sampleHello (key : UInt8) (j : Nat) : List NodeAction :=
  [.startTether 5 .nodeToAdapter true (Vector.replicate 32 key) sampleIo,
    .run (j + 1) (.established (sampleSa 1 none)) sampleIo,
    .run (j + 2) .due sampleIo,
    .receive 5 (.helloRequest none),
    .run (j + 2) .due sampleIo]

/-- The adapter sends a blob, and the node asks the visa service. -/
def sampleAcquire (blob : String) (j : Nat) : List NodeAction :=
  [.receive 5 (.acquireZprAddress (some [sampleZprAddr]) blob), .run (j + 3) .due sampleIo]

/-- The adapter ends the link, and the key manager and the link are dropped; there were `j`
    activities. -/
def sampleTerminate (j : Nat) : List NodeAction :=
  [.receive 5 (.terminateLinkOrDockingSession .other), .run j .due sampleIo,
    .run j .due sampleIo, .run j .due sampleIo]

def sampleAdapterConfig : Config := { sampleConfig with phMode := .adapter, autoConnect := true }

def sampleTether : List NodeAction :=
  [.startTether 2 .adapterToNode true (Vector.replicate 32 0) sampleIo]

/-- The link of an adapter has a security association. -/
def sampleKeyed : List NodeAction :=
  sampleTether ++ [.run 1 (.established (sampleSa 1 none)) sampleIo, .run 1 .due sampleIo]

end ZprCore.Link
