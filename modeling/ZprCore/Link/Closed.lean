-- SUMMARY: The steps that event handlers are made of.
import ZprCore.Link.Events

/-!
# What handlers are made of

Every handler is a sequence of few kinds of steps: it changes the state machine, the data or the
sender of its link, or it has an effect. A property of what a handler has made of its link so far
is `Closed` if the steps of ordinary handlers keep it. Some handlers do more: they assign or release
an address, take a renewal on, or admit an adapter. A property that these steps keep as well holds
through their handlers too.
-/

namespace ZprCore.Link

open Handling

/-- The tasks that a renewal consists of. -/
def Work.isRenewal : Work → Bool
  | .renewalReply _ _ _ | .renewalTimeout _ _ | .reauthorize _ | .reauthorizing _ _ => true
  | _ => false

/-- Effects that have to do with neither renewals nor AAA addresses. -/
def Effect.isCommon : Effect → Bool
  | .spawn work => !work.isRenewal
  | .releaseAddress _ => false
  | _ => true

/-- Everything but requests for authorization and queued messages. -/
def Work.isCalm : Work → Bool
  | .authorize _ _ | .message _ => false
  | _ => true

def Effect.isCalm : Effect → Bool
  | .spawn work => work.isCalm
  | _ => true

/-- Events whose handlers have to do with neither renewals nor AAA addresses. -/
def LinkEvent.isCommon : LinkEvent → Bool
  | .receivedHelloRequest | .assignedAAA _ | .receivedHelloResponse _ _ _ | .receivedTerminateLink _
  | .receivedTerminateAck | .timeout _ | .receivedKeepAliveResponse
  | .receivedRenewAuthResponse _ _ => false
  | _ => true

/-- The events whose handlers lead to a link being admitted. -/
def LinkEvent.admits : LinkEvent → Bool
  | .receivedAcquireZprAddressRequest _ _ | .receivedAuthorizeResponse _ => true
  | _ => false

/-- What a link keeps from its creation on. -/
structure SameLink (p p' : PeerState) : Prop where
  id : p'.id = p.id
  uid : p'.uid = p.uid
  linkType : p'.linkType = p.linkType
  authKey : p'.authKey = p.authKey

theorem SameLink.refl (p : PeerState) : SameLink p p := ⟨rfl, rfl, rfl, rfl⟩

theorem SameLink.trans {p q r : PeerState} (h : SameLink p q) (h' : SameLink q r) :
    SameLink p r :=
  ⟨h'.id.trans h.id, h'.uid.trans h.uid, h'.linkType.trans h.linkType,
    h'.authKey.trans h.authKey⟩

/-- The data differ in what all handlers write. -/
def LinkData.Noted (d d' : LinkData) : Prop :=
  ∃ failure namespaces identity task agent, d' = { d with
    lastAuthFailure := failure, authenticatedNamespaces := namespaces, renewalIdentity := identity,
    adapterRenewalTask := task, authAgent := agent }

/-- The data differ in what the handlers of a renewal write. -/
def LinkData.Renewed (d d' : LinkData) : Prop :=
  ∃ failure agent inFlight challenge warned, d' = { d with
    lastAuthFailure := failure, authAgent := agent, renewalInFlight := inFlight,
    renewalChallenge := challenge, renewalNoAgentWarned := warned }

/-! ## Rules -/

section

variable (P : Handling → Prop)

/-- The steps that leave the state machine and the data alone. -/
structure Still : Prop where
  peer : ∀ {h : Handling} {p : PeerState}, P h → SameLink h.peer p → p.fsm = h.peer.fsm →
    p.data = h.peer.data → P { h with peer := p }
  emit : ∀ {h : Handling} {e : Effect}, P h → e.isCommon = true → e.isCalm = true → P (h.emit e)

/-- The steps that leave the state machine alone. -/
structure Quiet : Prop extends Still P where
  data : ∀ {h : Handling} {d : LinkData}, P h → h.peer.data.Noted d →
    P { h with peer := { h.peer with data := d } }

/-- The steps of ordinary handlers. A node's link to an adapter does not become active by them, and
    keeps its addresses while it is. -/
structure Closed : Prop extends Quiet P where
  fsm : ∀ {h : Handling} {m : LinkStateMachine}, P h → m.state = h.peer.fsm.state →
    m.actorAddresses = h.peer.fsm.actorAddresses → P { h with peer := { h.peer with fsm := m } }
  setState : ∀ {h : Handling} {s : LinkState}, P h → s ≠ .active → P (h.setState s)
  becomeActive : ∀ {h : Handling}, P h → h.peer.linkType ≠ .nodeToAdapter → P (h.setState .active)
  forget : ∀ {h : Handling}, P h → h.peer.fsm.state ≠ .active →
    P (h.mapFsm fun m => { m with actorAddresses := [] })

/-- The steps that assign or release an address, too. -/
structure ClosedAddresses : Prop extends Closed P where
  address : ∀ {h : Handling} (oidcIdps aaaAddress), P h →
    P (h.mapData fun d => { d with oidcIdps, aaaAddress })
  release : ∀ {h : Handling} {addr : IpAddr}, P h → P (h.emit (.releaseAddress addr))

/-- The steps of a renewal. -/
structure QuietRenewals : Prop extends Still P where
  renewal : ∀ {h : Handling} {d : LinkData}, P h → h.peer.data.Renewed d →
    P { h with peer := { h.peer with data := d } }
  renew : ∀ {h : Handling} {w : Work}, P h → w.isRenewal = true → P (h.spawn w)

/-- The steps that admit an adapter, too. -/
structure ClosedAdmission : Prop extends Closed P where
  assign : ∀ {h : Handling} {addr : IpAddr}, P h →
    P (h.mapFsm fun m => { m with actorAddresses := [addr] })
  enter : ∀ {h : Handling}, P h → P (h.setState .active)
  authorize : ∀ {h : Handling} {request : ConnectRequest} {evidence : Evidence}, P h →
    P (h.spawn (.authorize request evidence))

end

variable {P : Handling → Prop} {h : Handling} {cx : Context}

/-! ## Renewal -/

namespace Still

variable (C : Still P)

include C

theorem spawn {w : Work} (k : P h) (hr : w.isRenewal = false) (hc : w.isCalm = true) :
    P (h.spawn w) :=
  C.emit k (by rw [Effect.isCommon, hr]; rfl) hc

theorem send (k : P h) (msg : Outgoing) : P (h.send msg) := C.peer k ⟨rfl, rfl, rfl, rfl⟩ rfl rfl

theorem sendLimited (k : P h) (msg : Outgoing) (retryLimit : UInt8) :
    P (h.sendLimited msg retryLimit) :=
  C.peer k ⟨rfl, rfl, rfl, rfl⟩ rfl rfl

end Still

namespace Quiet

variable (C : Quiet P)

include C

theorem recordAuthFailure (k : P h) (reason : AuthFailureReason) : P (h.recordAuthFailure reason) :=
  C.data k ⟨_, _, _, _, _, rfl⟩

theorem renewUserLeg (k : P h) (challenge : Challenge) (ssBlob : Option AuthBlob) :
    P (h.renewUserLeg cx challenge ssBlob).1 := by
  unfold Handling.renewUserLeg
  split
  · split
    · exact C.data (C.spawn (w := .adapterRenewal _ _ _) k rfl rfl) ⟨_, _, _, _, _, rfl⟩
    · exact C.send (h := h.mapData _) (C.data k ⟨_, _, _, _, _, rfl⟩) _
  · exact C.send k _

theorem processRenewAuthRequest (k : P h) (payload : ZdpInitAuthenticationPayload) :
    P (h.processRenewAuthRequest cx payload).1 := by
  have hsup : P h.supersedeRenewal := by
    unfold supersedeRenewal
    split
    · exact C.emit (h := h.mapData _) (C.data k ⟨_, _, _, _, _, rfl⟩) rfl rfl
    · exact k
  unfold Handling.processRenewAuthRequest
  split
  · dsimp only
    split
    · exact C.send hsup _
    · exact C.send hsup _
    · exact C.renewUserLeg hsup _ _
    · exact C.renewUserLeg hsup _ _
    · exact hsup
  · exact k

end Quiet

namespace QuietRenewals

variable (C : QuietRenewals P)

include C

theorem finishRenewalFailure (k : P h) (reason : AuthFailureReason) :
    P (h.finishRenewalFailure reason) :=
  C.renewal k ⟨_, _, _, _, _, rfl⟩

theorem sendRenewalCredentialRequest {authExpires : Nat} (k : P h) :
    P (h.sendRenewalCredentialRequest cx authExpires) :=
  C.renew (C.send (h := h.mapData _) (C.renewal k ⟨_, _, _, _, _, rfl⟩) _) rfl

theorem requestRenewalNow (k : P h) : P (h.requestRenewalNow cx).1 := by
  unfold Handling.requestRenewalNow
  split
  · exact k
  split
  · exact k
  · exact C.sendRenewalCredentialRequest (h := h.mapData _) (C.renewal k ⟨_, _, _, _, _, rfl⟩)

theorem warnNoAgent (k : P h) : P h.warnNoAgent := by
  unfold Handling.warnNoAgent
  split
  · exact k
  · exact C.renewal k ⟨_, _, _, _, _, rfl⟩

theorem maybeRenewAuth (k : P h) : P (h.maybeRenewAuth cx).1 := by
  have hmark {d : LinkData} (hd : h.peer.data.Renewed d) : P (h.mapData fun _ => d) := C.renewal k hd
  unfold Handling.maybeRenewAuth
  dsimp only
  split
  · exact k
  split
  · exact k
  split
  · exact C.warnNoAgent k
  split
  · split
    · unfold askAgentForRenewal
      split
      · exact C.renew (hmark ⟨_, _, _, _, _, rfl⟩) rfl
      · exact hmark ⟨_, _, _, _, _, rfl⟩
    · exact k
  split
  · split
    · exact C.sendRenewalCredentialRequest (hmark ⟨_, _, _, _, _, rfl⟩)
    · exact k
  · exact C.warnNoAgent k

theorem processRenewAuthResponse (k : P h) (challenge : Challenge)
    (result : Except ResponseCode String) :
    P (h.processRenewAuthResponse cx challenge result).1 := by
  unfold Handling.processRenewAuthResponse
  split
  · split
    · exact k
    next d hd =>
    have htake : P (h.mapData fun _ => d) := by
      refine C.renewal k ?_
      unfold LinkData.takeRenewalChallengeIf at hd
      split at hd <;> cases hd
      exact ⟨_, _, _, _, _, rfl⟩
    dsimp only
    split
    · exact C.finishRenewalFailure htake _
    split
    · exact C.finishRenewalFailure htake _
    split
    · exact C.finishRenewalFailure htake _
    · exact C.renew htake rfl
  · exact k

end QuietRenewals

namespace Closed

variable (C : Closed P)

include C

theorem setTimeout (k : P h) : P h.setTimeout := C.spawn (h := h.mapFsm _) (C.fsm k rfl rfl) rfl rfl

/-! ## Closing -/

section

variable (k : P h) (reason : TerminateReason)

include k reason

theorem continueClose : P (h.continueClose reason).1 :=
  C.spawn (C.send (C.setTimeout (C.setState (s := .closing) k (by rintro ⟨⟩))) _)
    (w := .terminate _) rfl rfl

theorem initiateClose : P (h.initiateClose cx reason).1 := by
  have hreport : P (h.reportLinkFailure cx reason) := by
    unfold reportLinkFailure
    split
    · exact C.recordAuthFailure k _
    · exact k
  have hmark : P ((h.reportLinkFailure cx reason).markShuttingDown reason) := by
    unfold markShuttingDown
    split
    · exact C.fsm hreport rfl rfl
    · exact hreport
  unfold Handling.initiateClose maybeDisconnectVisaServiceClient
  split
  · exact k
  dsimp only
  split
  · split
    · exact C.spawn (C.setState hmark (by rintro ⟨⟩)) (w := .stopVsconn _) rfl rfl
    · exact C.continueClose (C.spawn hmark rfl rfl) reason
  · exact C.continueClose hmark reason

theorem failAndClose : P (h.failAndClose cx reason).1 :=
  C.initiateClose (C.setState k (by rintro ⟨⟩)) reason

end

theorem processDisconnectAck (k : P h) : P h.processDisconnectAck.1 := by
  unfold Handling.processDisconnectAck
  split
  · exact C.continueClose k _
  · exact k

theorem cleanUpByType (k : P h) (hs : h.peer.fsm.state ≠ .active) : P (h.cleanUpByType cx) := by
  unfold Handling.cleanUpByType
  split
  · exact C.emit (C.emit k rfl rfl) rfl rfl
  · unfold deregisterActorAddresses
    split
    · exact k
    · exact List.foldlRecOn (motive := P) h.peer.fsm.actorAddresses _ (C.forget k hs)
        fun _ hk _ _ => C.spawn hk rfl rfl
  · exact k

theorem completeClose (k : P h) : P (h.completeClose cx) := by
  have hidle : P ((h.mapFsm fun m => { m with silent := false }).setState .inactive) :=
    C.setState (h := h.mapFsm _) (C.fsm k rfl rfl) (by rintro ⟨⟩)
  unfold Handling.completeClose
  split
  · exact C.emit k rfl rfl
  · exact C.emit k rfl rfl
  · dsimp only
    split
    · exact C.emit hidle rfl rfl
    split
    · exact hidle
    split
    · exact hidle
    · exact C.spawn hidle rfl rfl
  · exact k

/-! ## Keying and authentication -/

section

variable (k : P h)

include k

theorem processStart : P h.processStart.1 := by
  have hbegin : P h.beginSession := by
    have hstate : P ((h.mapFsm fun m => { m with status := .up }).setState .keying) :=
      C.setState (h := h.mapFsm _) (C.fsm k rfl rfl) (by rintro ⟨⟩)
    exact C.peer (h := mapData _ fun d => { d with lastAuthFailure := none })
      (C.data hstate ⟨_, _, _, _, _, rfl⟩) ⟨rfl, rfl, rfl, rfl⟩ rfl rfl
  have hkm : P h.beginSession.addKmLink :=
    C.spawn (h := ⟨{ h.beginSession.peer with kmHandle := true }, _⟩)
      (C.peer hbegin ⟨rfl, rfl, rfl, rfl⟩ rfl rfl) rfl rfl
  unfold Handling.processStart
  split
  · exact k
  split
  · exact k
  dsimp only
  split
  · exact hkm
  · exact C.setState hbegin (by rintro ⟨⟩)
  · exact C.setTimeout hkm
  · exact hbegin

theorem processKeyingDone : P (h.processKeyingDone cx).1 := by
  unfold Handling.processKeyingDone
  split
  · exact k
  split
  · exact k
  next sa _ =>
  have hspecial : P (h.assignSpecialPeer cx sa) := by
    unfold assignSpecialPeer
    split
    · exact C.emit k rfl rfl
    · exact k
  have hhello : P ((h.assignSpecialPeer cx sa).setState .helloing) :=
    C.setState hspecial (by rintro ⟨⟩)
  dsimp only
  split
  · exact C.setTimeout (C.send hhello _)
  · exact hhello

theorem processAuthenticationFailure (reason : AuthFailureReason) :
    P (h.processAuthenticationFailure cx reason).1 :=
  C.failAndClose (C.recordAuthFailure k reason) _

theorem acquire (namespaces : NamespaceSet) (msg : Outgoing) :
    P ((((h.setAuthenticatedNamespaces namespaces).send msg).setState .registerAA).setTimeout) :=
  have hnoted : P (h.setAuthenticatedNamespaces namespaces) := C.data k ⟨_, _, _, _, _, rfl⟩
  C.setTimeout (C.setState (C.send hnoted _) (by rintro ⟨⟩))

theorem authenticateUser {r : Handling × Result} {idp : OidcIdpInfo}
    {challenge : Option ZdpInitAuthenticationPayload}
    (hr : h.authenticateUser cx idp challenge = some r) : P r.1 := by
  unfold Handling.authenticateUser at hr
  split at hr
  · cases hr
    exact C.failAndClose k _
  split at hr
  · cases hr
    have hwait : P (h.setState .waitForUserAuth).setTimeout :=
      C.setTimeout (C.setState k (by rintro ⟨⟩))
    unfold doOidcAuthenticate
    split
    · exact C.spawn hwait rfl rfl
    · exact C.processAuthenticationFailure hwait _
  split at hr
  · cases hr
    exact C.processAuthenticationFailure k _
  · cases hr

theorem authenticateDevice (bootstrap : Bool) (challenge : Option ZdpInitAuthenticationPayload) :
    P (h.authenticateDevice cx bootstrap challenge).1 := by
  unfold Handling.authenticateDevice
  split
  · split
    · exact C.failAndClose k _
    · split
      · exact k
      · exact C.acquire k _ _
  · exact C.processAuthenticationFailure k _

theorem processInitAuth (bootstrap : Bool) (challenge : Option ZdpInitAuthenticationPayload) :
    P (h.processInitAuth cx bootstrap challenge).1 := by
  unfold Handling.processInitAuth
  split
  · split
    · exact C.authenticateDevice k bootstrap challenge
    · next idp _ _ =>
      cases hu : h.authenticateUser cx idp challenge with
      | none => exact C.authenticateDevice k bootstrap challenge
      | some r => exact C.authenticateUser k hu
  · exact C.fsm k rfl rfl
  · exact k

theorem processAuthenticationSuccess (blobs : List AuthBlob) :
    P (h.processAuthenticationSuccess cx blobs).1 := by
  unfold Handling.processAuthenticationSuccess
  split
  · exact C.acquire k _ _
  · exact C.acquire k _ _
  · exact k

theorem processAuthorizeFailure (code : ErrorCode) : P (h.processAuthorizeFailure cx code).1 := by
  unfold Handling.processAuthorizeFailure
  split
  · exact C.failAndClose (C.send k _) _
  · exact k

theorem beginAuthorization (blobs : List AuthBlob) : P (h.beginAuthorization cx blobs) := by
  have hstash : P ((firstOidc blobs).elim h (h.stashRenewalIdentity cx)) := by
    cases firstOidc blobs with
    | none => exact k
    | some oidcBlob =>
      dsimp only [Option.elim, stashRenewalIdentity]
      split
      · exact k
      · exact C.data k ⟨_, _, _, _, _, rfl⟩
  exact C.setState (h := setAuthenticatedNamespaces _ _)
    (C.data hstash ⟨_, _, _, _, _, rfl⟩) (by rintro ⟨⟩)

theorem processInitAuthAck : P h.processInitAuthAck.1 := by
  unfold Handling.processInitAuthAck
  split
  · exact C.setTimeout k
  · exact k

theorem processInitAuthTimeout : P (h.processInitAuthTimeout cx).1 := by
  unfold Handling.processInitAuthTimeout
  split
  · exact C.failAndClose k _
  · exact k

/-! ## Activation and keep-alive -/

theorem startKeepAlive :
    P ((h.abortEcho.mapFsm fun m => { m with keepAliveMisses := 0 }).setTimeout) := by
  have hecho : P h.abortEcho := by
    unfold abortEcho
    split
    · exact C.fsm (C.emit k rfl rfl) rfl rfl
    · exact k
  exact C.setTimeout (h := mapFsm _ _) (C.fsm hecho rfl rfl)

theorem activate (hty : h.peer.linkType ≠ .nodeToAdapter) (addrs : List IpAddr) :
    P (h.activate cx addrs).1 := by
  have hfail {h : Handling} (k : P h) (text : String) : P (h.failActivation cx text).1 :=
    C.failAndClose (C.recordAuthFailure k _) _
  have hup : P ((h.emit (.setLocalZprAddrs addrs)).emit (.setCarrier true)) :=
    C.emit (C.emit k rfl rfl) rfl rfl
  unfold Handling.activate
  split
  · exact k
  split
  · exact hfail k _
  split
  · exact hfail k _
  split
  · exact hfail k _
  split
  · exact hfail (C.emit hup rfl rfl) _
  · exact C.startKeepAlive (C.becomeActive hup hty)

theorem processGrantZprAddressRequest (result : Except ResponseCode (List IpAddr)) :
    P (h.processGrantZprAddressRequest cx result).1 := by
  unfold Handling.processGrantZprAddressRequest
  split
  · next hty _ =>
    split
    · exact C.failAndClose (C.recordAuthFailure k _) _
    dsimp only
    split
    · have hstate {reason : AuthFailureReason} : P ((h.recordAuthFailure reason).setState .error) :=
        C.setState (C.recordAuthFailure k _) (by rintro ⟨⟩)
      exact C.initiateClose (C.emit hstate rfl rfl) _
    · exact C.activate k (by rw [hty]; rintro ⟨⟩) _
  · exact k
  · exact k

theorem keepAliveTimeout : P (h.keepAliveTimeout cx).1 := by
  have hecho {h : Handling} (k : P h) : P h.sendEcho.1 :=
    C.setTimeout (h := mapFsm _ _)
      (C.fsm (C.spawn (w := .echo _ _) (C.send k _) rfl rfl) rfl rfl)
  unfold Handling.keepAliveTimeout
  split
  · exact hecho k
  next handle _ =>
  have hmiss : P ((h.emit (.abortEcho handle)).mapFsm fun m =>
      { m with echoHandle := none, keepAliveMisses := m.keepAliveMisses + 1 }) :=
    C.fsm (C.emit k rfl rfl) rfl rfl
  dsimp only
  split
  · exact C.failAndClose hmiss _
  · exact hecho hmiss

end

theorem processKeepAliveResponse (R : QuietRenewals P) (k : P h) :
    P (h.processKeepAliveResponse cx).1 := by
  unfold Handling.processKeepAliveResponse
  split
  · exact R.maybeRenewAuth (C.setTimeout (h := h.mapFsm _) (C.fsm k rfl rfl))
  · exact k

theorem processEvent {e : LinkEvent} (k : P h) (he : e.isCommon = true) (ha : e.admits = false) :
    P (h.processEvent cx e).1 := by
  cases e with
  | start => exact C.processStart k
  | keyingDone => exact C.processKeyingDone k
  | receivedInitAuth bootstrap challenge => exact C.processInitAuth k bootstrap challenge
  | receivedInitAuthAck => exact C.processInitAuthAck k
  | receivedInitAuthTimeout => exact C.processInitAuthTimeout k
  | receivedRenewAuthRequest challenge => exact C.processRenewAuthRequest k challenge
  | receivedGrantZprAddressRequest result => exact C.processGrantZprAddressRequest k result
  | authenticationSuccess blobs => exact C.processAuthenticationSuccess k blobs
  | authenticationFailure reason => exact C.processAuthenticationFailure k reason
  | receivedAuthorizeFailure code msg => exact C.processAuthorizeFailure k code
  | receivedDisconnectAck => exact C.processDisconnectAck k
  | close reason => exact C.initiateClose k reason
  | closeDone => exact C.completeClose k
  | error => exact C.initiateClose k _
  | receivedAcquireZprAddressRequest | receivedAuthorizeResponse => cases ha
  | _ => cases he

end Closed

/-! ## Handlers that admit an adapter -/

namespace ClosedAdmission

variable (C : ClosedAdmission P)

include C

theorem processAuthorizeResponse (k : P h) (addr : IpAddr) :
    P (h.processAuthorizeResponse addr).1 := by
  unfold Handling.processAuthorizeResponse
  split
  · exact C.startKeepAlive (C.enter (C.send (C.assign k) _))
  · exact k

theorem processAcquireZprAddressRequest (k : P h) (addrs : Option (List IpAddr)) (blob : String) :
    P (h.processAcquireZprAddressRequest cx addrs blob).1 := by
  unfold Handling.processAcquireZprAddressRequest
  split
  · split
    · next addr blobs _ _ =>
      have hbegin : P (h.beginAuthorization cx blobs) := C.beginAuthorization k blobs
      dsimp only
      split
      · exact C.processAuthorizeResponse (C.emit hbegin rfl rfl) addr
      · exact C.authorize hbegin
    · exact C.initiateClose k _
  · exact k

theorem processEvent {e : LinkEvent} (k : P h) (he : e.isCommon = true) :
    P (h.processEvent cx e).1 := by
  cases ha : e.admits with
  | false => exact C.toClosed.processEvent k he ha
  | true =>
    cases e with
    | receivedAcquireZprAddressRequest addrs blob => exact C.processAcquireZprAddressRequest k addrs blob
    | receivedAuthorizeResponse addr => exact C.processAuthorizeResponse k addr
    | _ => cases ha

end ClosedAdmission

/-! ## Handlers that assign or release an address -/

namespace ClosedAddresses

variable (C : ClosedAddresses P)

include C

theorem cleanUpLinkState (k : P h) : P (h.cleanUpLinkState cx) := by
  have hstate : h.releaseAaaAddress.peer.fsm = h.peer.fsm := by
    unfold releaseAaaAddress
    split <;> rfl
  have hrelease : P h.releaseAaaAddress := by
    unfold releaseAaaAddress
    split
    · exact C.release (C.address h.peer.data.oidcIdps none k)
    · exact k
  have hclean (hs : h.peer.fsm.state ≠ .active) :
      P (((h.releaseAaaAddress.emit .clearPeerState).cleanUpByType cx).spawn (.dropLink false)) :=
    C.spawn (C.cleanUpByType (C.emit hrelease rfl rfl) (hstate ▸ hs)) rfl rfl
  unfold Handling.cleanUpLinkState
  split
  · next hs => exact hclean (by rw [hs]; rintro ⟨⟩)
  · next hs => exact hclean (by rw [hs]; rintro ⟨⟩)
  · exact k

theorem reset (k : P h) : P (h.reset cx) :=
  C.cleanUpLinkState (C.send (C.setState k (by rintro ⟨⟩)) _)

theorem processHelloRequest (k : P h) : P (h.processHelloRequest cx).1 := by
  have hassign : P (h.assignAaaAddress cx) := by
    unfold assignAaaAddress
    split
    · exact C.address h.peer.data.oidcIdps _ k
    · exact k
  unfold Handling.processHelloRequest
  split
  · next hty _ => exact C.becomeActive k (by rw [hty]; rintro ⟨⟩)
  · have hwait {msg : Outgoing} :
        P (((h.assignAaaAddress cx).send msg).setState .waitForAcquireZprAddress) :=
      C.setState (C.send hassign _) (by rintro ⟨⟩)
    exact C.spawn (w := .initAuth _) (C.sendLimited hwait _ _) rfl rfl
  · exact k
  · exact k

theorem processHelloResponse (k : P h) (code : ResponseCode) (aaaAddr : Option IpAddr)
    (oidcIdps : Option (List OidcIdpInfo)) :
    P (h.processHelloResponse cx code aaaAddr oidcIdps).1 := by
  unfold Handling.processHelloResponse
  split
  · exact C.initiateClose k _
  split
  · have hnoted : P (((h.mapData fun d => { d with oidcIdps, aaaAddress := aaaAddr }).setState
        .waitForInitAuth).mapFsm fun m => { m with stowedInitAuth := none }) :=
      C.fsm (C.setState (C.address _ _ k) (by rintro ⟨⟩)) rfl rfl
    dsimp only
    split
    · exact C.processInitAuth hnoted _ _
    · exact hnoted
  · next hty _ => exact C.becomeActive k (by rw [hty]; rintro ⟨⟩)
  · exact k
  · exact k

theorem processTerminateAck (k : P h) : P (h.processTerminateAck cx).1 := by
  unfold Handling.processTerminateAck
  split
  · exact C.cleanUpLinkState (h := h.cancelTimeout) (C.fsm k rfl rfl)
  · exact k

theorem processTimeout (k : P h) (logicalClock : BitVec 64) :
    P (h.processTimeout cx logicalClock).1 := by
  unfold Handling.processTimeout
  split
  · exact k
  split
  · exact C.processAuthenticationFailure k _
  · exact C.failAndClose k _
  · exact C.failAndClose k _
  · exact C.failAndClose k _
  · exact C.keepAliveTimeout k
  · exact C.cleanUpLinkState k
  · exact k

/-- All handlers but those of a renewal and those that admit an adapter. -/
theorem processEvent {e : LinkEvent} (k : P h) (ha : e.admits = false)
    (hr : P (h.processKeepAliveResponse cx).1)
    (hr' : ∀ challenge result, P (h.processRenewAuthResponse cx challenge result).1) :
    P (h.processEvent cx e).1 := by
  cases hc : e.isCommon with
  | true => exact C.toClosed.processEvent k hc ha
  | false =>
    cases e with
    | receivedHelloRequest => exact C.processHelloRequest k
    | assignedAAA addr => exact C.address h.peer.data.oidcIdps (some addr) k
    | receivedHelloResponse code aaaAddr oidcIdps =>
      exact C.processHelloResponse k code aaaAddr oidcIdps
    | receivedTerminateLink reason =>
      exact C.cleanUpLinkState (C.setState (s := .closing) k (by rintro ⟨⟩))
    | receivedTerminateAck => exact C.processTerminateAck k
    | timeout logicalClock => exact C.processTimeout k logicalClock
    | receivedKeepAliveResponse => exact hr
    | receivedRenewAuthResponse challenge result => exact hr' challenge result
    | _ => cases hc

end ClosedAddresses

/-! ## What a close begins with -/

/-- The link before it waits for the visa service or its peer: a shutdown is marked, and nothing
    else has changed in its state machine. -/
structure Marked (reason : TerminateReason) (h h' : Handling) : Prop where
  linkType : h'.peer.linkType = h.peer.linkType
  aaaAddress : h'.peer.data.aaaAddress = h.peer.data.aaaAddress
  fsm : ∃ mark, h'.peer.fsm = { h.peer.fsm with shuttingDown := mark }
  mark : reason = .shutdown ∨ h.peer.fsm.shuttingDown = true → h'.peer.fsm.shuttingDown = true
  spawned : ∃ works : List Work, h'.effects = h.effects ++ works.map .spawn

theorem Marked.initiateClose {reason : TerminateReason} (hty : h.peer.linkType ≠ .internal)
    (disconnect : ∀ h', Marked reason h h' → h'.peer.linkType = .nodeToAdapter →
      P ((h'.setState (.disconnecting reason)).spawn (.stopVsconn true)))
    (close : ∀ h', Marked reason h h' → P (h'.continueClose reason).1) :
    P (h.initiateClose cx reason).1 := by
  have hmark : Marked reason h ((h.reportLinkFailure cx reason).markShuttingDown reason) := by
    obtain ⟨failure, hd⟩ : ∃ failure, h.reportLinkFailure cx reason =
        h.mapData fun d => { d with lastAuthFailure := failure } := by
      unfold reportLinkFailure
      split <;> exact ⟨_, rfl⟩
    rw [hd, markShuttingDown]
    split
    · exact ⟨rfl, rfl, ⟨true, rfl⟩, fun _ => rfl, [], (List.append_nil _).symm⟩
    · next hr =>
      exact ⟨rfl, rfl, ⟨_, rfl⟩, fun hm => hm.resolve_left hr, [], (List.append_nil _).symm⟩
  unfold Handling.initiateClose maybeDisconnectVisaServiceClient
  rw [if_neg hty]
  dsimp only
  split
  · next hvs =>
    split
    · exact disconnect _ hmark hvs.1
    refine close _ { hmark with spawned := ?_ }
    obtain ⟨works, hworks⟩ := hmark.spawned
    refine ⟨works ++ [.restartVsconn], ?_⟩
    rw [List.map_append, ← List.append_assoc, ← hworks]
    rfl
  · exact close _ hmark

/-! ## A handler works on the link it was given -/

section

variable {p : PeerState}

theorem SameLink.closed : ClosedAddresses fun h => SameLink p h.peer where
  peer k same _ _ := k.trans same
  data k _ := k.trans ⟨rfl, rfl, rfl, rfl⟩
  emit k _ _ := k
  fsm k _ _ := k.trans ⟨rfl, rfl, rfl, rfl⟩
  setState k _ := k.trans ⟨rfl, rfl, rfl, rfl⟩
  becomeActive k _ := k.trans ⟨rfl, rfl, rfl, rfl⟩
  forget k _ := k.trans ⟨rfl, rfl, rfl, rfl⟩
  address _ _ k := k.trans ⟨rfl, rfl, rfl, rfl⟩
  release k := k

theorem SameLink.renewals : QuietRenewals fun h => SameLink p h.peer where
  toStill := closed.toStill
  renewal k _ := k.trans ⟨rfl, rfl, rfl, rfl⟩
  renew k _ := k

theorem SameLink.admission : ClosedAdmission fun h => SameLink p h.peer where
  toClosed := closed.toClosed
  assign k := k.trans ⟨rfl, rfl, rfl, rfl⟩
  enter k := k.trans ⟨rfl, rfl, rfl, rfl⟩
  authorize k := k

end

theorem processEvent_same (cx : Context) (h : Handling) (e : LinkEvent) :
    SameLink h.peer (h.processEvent cx e).1.peer := by
  have k : SameLink h.peer h.peer := .refl h.peer
  cases ha : e.admits with
  | false =>
    exact SameLink.closed.processEvent k ha
      (SameLink.closed.processKeepAliveResponse SameLink.renewals k)
      (SameLink.renewals.processRenewAuthResponse k)
  | true => exact SameLink.admission.processEvent k (by cases e <;> first | rfl | cases ha)

theorem Quiet.of_fsm {m : LinkStateMachine} : Quiet fun h => h.peer.fsm = m where
  peer k _ hfsm _ := hfsm.trans k
  data k _ := k
  emit k _ _ := k

/-- What the link has authenticated with, and how it can renew it. -/
def LinkData.credentials (d : LinkData) : Option NamespaceSet × Option RenewalIdentity :=
  (d.authenticatedNamespaces, d.renewalIdentity)

/-- The state machine and the credentials of a link are as they were. -/
structure Kept (p p' : PeerState) : Prop extends SameLink p p' where
  fsm : p'.fsm = p.fsm
  credentials : p'.data.credentials = p.data.credentials

theorem Kept.refl (p : PeerState) : Kept p p := ⟨.refl p, rfl, rfl⟩

theorem Kept.renewals {p : PeerState} : QuietRenewals fun h => Kept p h.peer where
  peer k same fsm data :=
    ⟨k.toSameLink.trans same, fsm.trans k.fsm, (congrArg _ data).trans k.credentials⟩
  emit k _ _ := k
  renewal := by
    rintro h _ k ⟨_, _, _, _, _, rfl⟩
    exact ⟨k.toSameLink.trans ⟨rfl, rfl, rfl, rfl⟩, k.fsm, k.credentials⟩
  renew k _ := k

end ZprCore.Link
