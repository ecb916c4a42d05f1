-- SUMMARY: Which waiting states of a link are bounded by a timeout or a task.
import ZprCore.Link.Moves

/-!
# Guards

While a link waits for its peer or for a local task, something should be on its way that moves the
link on when nothing else does: a timeout armed at the current clock, or the task that ends the key
manager. A call of the visa service is no such thing. It waits for its answer without a timeout, and
while the connection to the visa service is being made no command is taken. The states in which
nothing of this kind is on its way are named by `isUnbounded`; in every other state a guard is kept by
every step, or replaced by another one.
-/

namespace ZprCore.Link

open PeerState Node

/-! ## Waiting -/

/-- A link between a node and an adapter that is neither up nor waiting to be started. -/
def PeerState.isWaiting (p : PeerState) : Bool :=
  (p.linkType = .nodeToAdapter || p.linkType = .adapterToNode) &&
    p.fsm.state ≠ .inactive && p.fsm.state ≠ .active

/-- The link waits with no timeout armed: for the first handshake to succeed, for a hello request, for
    an init-authentication request or the acknowledgement of one, or for the connection to the visa
    service to authorize the adapter or to stop. -/
def LinkState.isUnbounded (state : LinkState) (linkType : LinkType)
    (timeoutHandle : Option (BitVec 64)) : Bool :=
  match state, linkType with
  | .keying, .adapterToNode | .waitForInitAuth, .adapterToNode | .helloing, .nodeToAdapter
  | .registerAA, .nodeToAdapter | .disconnecting _, .nodeToAdapter => true
  | .waitForAcquireZprAddress, .nodeToAdapter => timeoutHandle.isNone
  | _, _ => false

def PeerState.isUnbounded (p : PeerState) : Bool :=
  p.fsm.state.isUnbounded p.linkType p.fsm.timeoutHandle

def PeerState.needsGuard (p : PeerState) : Bool := p.isWaiting && !p.isUnbounded

/-- The states that are entered with a timeout armed, or in which one is armed later. -/
def LinkState.isTimed (state : LinkState) (linkType : LinkType) : Bool :=
  match state, linkType with
  | .closing, _ | .keying, .nodeToAdapter | .waitForAcquireZprAddress, .nodeToAdapter
  | .helloing, .adapterToNode | .waitForUserAuth, .adapterToNode | .registerAA, .adapterToNode => true
  | _, _ => false

/-- Work that raises an event on the link it was started for after a time of its own, whatever the
    link's peer does. -/
def Work.guards (p : PeerState) : Work → Bool
  | .timeout logicalClock =>
    p.fsm.state.isTimed p.linkType && logicalClock == p.fsm.logicalClock
  | .dropLink _ => p.fsm.state = .closing || p.fsm.state = .resetting
  | _ => false

/-- The activity guards the link `p` under `id`. -/
def Activity.guards (id : LinkId) (p : PeerState) (a : Activity) : Bool :=
  a.linkId = id && a.owner = p.uid && a.work.guards p

/-- Something is on its way that will raise an event on the link `p`. -/
def Node.guarded (n : Node) (id : LinkId) (p : PeerState) : Bool :=
  n.activities.any (·.guards id p)

variable {a : Activity} {p : PeerState} {id : LinkId} {cx : Context} {h : Handling}

theorem Activity.guards_iff :
    a.guards id p = true ↔ a.linkId = id ∧ a.owner = p.uid ∧ a.work.guards p = true := by
  simp [Activity.guards, and_assoc]

theorem Node.guarded_iff {n : Node} :
    n.guarded id p = true ↔
      ∃ a ∈ n.activities, a.linkId = id ∧ a.owner = p.uid ∧ a.work.guards p = true := by
  simp [Node.guarded, Activity.guards_iff]

theorem Work.guards_kept {w : Work} (hw : w.guards p = true) :
    w.isAbortable = false ∧ w.isKeyManager = false := by
  cases w with
  | echo | adapterRenewal | keyManager => cases hw
  | _ => exact ⟨rfl, rfl⟩

/-! ## Handlers -/

/-- What guarded the link before still does. -/
structure KeepsGuards (p p' : PeerState) : Prop where
  needs : p'.needsGuard = true → p.needsGuard = true
  guards : ∀ w : Work, w.guards p = true → w.guards p' = true

theorem KeepsGuards.refl (p : PeerState) : KeepsGuards p p := ⟨id, fun _ => id⟩

theorem KeepsGuards.of_fsm {p' : PeerState} (hty : p'.linkType = p.linkType)
    (hfsm : p'.fsm = p.fsm) : KeepsGuards p p' := by
  refine ⟨fun hn => ?_, fun w hw => ?_⟩
  · simpa only [needsGuard, isWaiting, isUnbounded, hty, hfsm] using hn
  · simpa only [Work.guards, hty, hfsm] using hw

/-- A handler drops the link, or starts a guard for it if one is needed. -/
def Covered (h : Handling) : Prop :=
  h.effects.any (·.isDropPeer) = true ∨
    (h.peer.needsGuard = true → ∃ w, .spawn w ∈ h.effects ∧ w.guards h.peer = true)

/-- After a handler the link is as well guarded as before. -/
def Settles (p : PeerState) (h : Handling) : Prop := Covered h ∨ KeepsGuards p h.peer

namespace Covered

open Handling

variable {challenge : Option ZdpInitAuthenticationPayload} {bootstrap : Bool} {ty : LinkType}

theorem of_idle (hn : h.peer.needsGuard = false) : Covered h :=
  .inr fun hn' => absurd hn' (by rw [hn]; exact Bool.false_ne_true)

theorem of_active (hs : h.peer.fsm.state = .active) : Covered h :=
  of_idle (by simp [needsGuard, isWaiting, hs])

theorem of_foreign (hn : h.peer.linkType ≠ .nodeToAdapter) (ha : h.peer.linkType ≠ .adapterToNode) :
    Covered h :=
  of_idle (by simp [needsGuard, isWaiting, hn, ha])

theorem of_internal (hty : h.peer.linkType = .internal) : Covered h :=
  of_foreign (by rw [hty]; nofun) (by rw [hty]; nofun)

theorem of_unbounded (hty : h.peer.linkType = ty)
    (hu : h.peer.fsm.state.isUnbounded ty h.peer.fsm.timeoutHandle = true) : Covered h := by
  subst hty
  exact of_idle (by rw [needsGuard, isUnbounded, hu, Bool.not_true, Bool.and_false])

theorem of_spawn (w : Work) (hw : w.guards h.peer = true) : Covered (h.spawn w) :=
  .inr fun _ => ⟨w, List.mem_append_right _ (List.mem_singleton.mpr rfl), hw⟩

theorem setTimeout (hty : h.peer.linkType = ty)
    (ht : h.peer.fsm.state.isTimed ty = true) : Covered h.setTimeout := by
  refine of_spawn (h := h.mapFsm (·.setTimeoutCallback)) (.timeout _) ?_
  rw [Work.guards, beq_self_eq_true, Bool.and_true]
  exact hty ▸ ht

theorem send (hc : Covered h) (msg : Outgoing) : Covered (h.send msg) := hc

theorem spawn (hc : Covered h) (w : Work) : Covered (h.spawn w) := by
  refine hc.imp (fun hd => ?_) fun hs hn => ?_
  · exact List.any_append.trans (by rw [hd]; rfl)
  · obtain ⟨w', hmem, hw'⟩ := hs hn
    exact ⟨w', List.mem_append_left _ hmem, hw'⟩

/-! ## Closing -/

theorem continueClose (reason : TerminateReason) : Covered (h.continueClose reason).1 := by
  have hc : Covered (h.setState .closing).setTimeout := setTimeout rfl rfl
  exact (hc.send _).spawn _

theorem initiateClose (hty : h.peer.linkType ≠ .internal) (reason : TerminateReason) :
    Covered (h.initiateClose cx reason).1 := by
  exact Marked.initiateClose hty (fun h' _ hvs => of_unbounded hvs rfl) fun h' _ =>
    continueClose reason

theorem close (reason : TerminateReason) :
    Covered (h.initiateClose cx reason).1 ∨ (h.initiateClose cx reason).1 = h := by
  by_cases hty : h.peer.linkType = .internal
  · right
    rw [Handling.initiateClose, if_pos hty]
  · exact .inl (initiateClose hty reason)

theorem failAndClose (reason : TerminateReason) : Covered (h.failAndClose cx reason).1 := by
  by_cases hty : h.peer.linkType = .internal
  · refine of_internal ?_
    exact (SameLink.closed.failAndClose (.refl h.peer) reason).linkType.trans hty
  · exact initiateClose (h := h.setState .error) hty reason

theorem cleanUpLinkState (hs : h.peer.fsm.state = .closing ∨ h.peer.fsm.state = .resetting) :
    Covered (h.cleanUpLinkState cx) := by
  have hfsm : ((h.releaseAaaAddress.emit .clearPeerState).cleanUpByType cx).peer.fsm.state =
      h.peer.fsm.state := by
    obtain ⟨addrs, hfsm⟩ := @cleanUpByType_fsm cx (h.releaseAaaAddress.emit .clearPeerState)
    rw [hfsm]
    change h.releaseAaaAddress.peer.fsm.state = h.peer.fsm.state
    rw [releaseAaaAddress_fsm]
  have hc : Covered (((h.releaseAaaAddress.emit .clearPeerState).cleanUpByType cx).spawn
      (.dropLink false)) :=
    of_spawn (.dropLink false) (by simpa [Work.guards, hfsm] using hs)
  unfold Handling.cleanUpLinkState
  split
  · exact hc
  · exact hc
  · next hcl hre => exact (hs.elim hcl hre).elim

theorem reset : Covered (h.reset cx) := cleanUpLinkState (.inr rfl)

theorem completeClose : Covered (h.completeClose cx) ∨ h.completeClose cx = h ∧
    h.peer.fsm.state ≠ .closing ∧ h.peer.fsm.state ≠ .resetting := by
  have hdrop {h' : Handling} : Covered (h'.emit .dropPeer) :=
    .inl (by simp [Handling.emit, Effect.isDropPeer])
  have hidle {h' : Handling} (hs : h'.peer.fsm.state = .inactive) : Covered h' :=
    of_idle (by simp [needsGuard, isWaiting, hs])
  unfold Handling.completeClose
  split
  · exact .inl hdrop
  · exact .inl hdrop
  · left
    dsimp only
    split
    · exact hdrop
    · split
      · exact hidle rfl
      · split <;> exact hidle rfl
  · next hre hcl _ => exact .inr ⟨rfl, hcl, hre⟩

/-! ## Keying, hello and authentication -/

theorem processStart : Covered h.processStart.1 ∨ h.processStart.1 = h := by
  unfold Handling.processStart
  split
  · exact .inr rfl
  split
  · exact .inr rfl
  left
  dsimp only
  split
  · next hty => exact of_unbounded hty rfl
  · next hty => exact of_foreign (hty ▸ nofun) (hty ▸ nofun)
  · next hty => exact setTimeout hty rfl
  · next hty => exact of_internal hty

theorem processKeyingDone : Covered (h.processKeyingDone cx).1 ∨ (h.processKeyingDone cx).1 = h := by
  unfold Handling.processKeyingDone
  split
  · exact .inr rfl
  split
  · exact .inr rfl
  left
  next sa _ =>
  dsimp only
  split
  · next hty => exact setTimeout hty rfl
  next hne =>
  cases hty : ((h.assignSpecialPeer cx sa).setState .helloing).peer.linkType with
  | nodeToAdapter => exact of_unbounded hty rfl
  | adapterToNode => exact absurd hty hne
  | internal => exact of_internal hty
  | nodeToNode => exact of_foreign (hty ▸ nofun) (hty ▸ nofun)

theorem processHelloRequest :
    Covered (h.processHelloRequest cx).1 ∨ (h.processHelloRequest cx).1 = h := by
  unfold Handling.processHelloRequest
  split
  · exact .inl (of_active rfl)
  · next hty _ =>
    have hty' : (h.assignAaaAddress cx).peer.linkType = .nodeToAdapter :=
      by
      rw [← hty, Handling.assignAaaAddress]
      split <;> rfl
    exact .inl (of_unbounded hty' rfl)
  all_goals exact .inr rfl

theorem processAuthenticationFailure (reason : AuthFailureReason) :
    Covered (h.processAuthenticationFailure cx reason).1 :=
  failAndClose _

section

variable (hty : h.peer.linkType = .adapterToNode)

include hty

theorem authenticateUser {r : Handling × Result} {idp : OidcIdpInfo}
    (hr : h.authenticateUser cx idp challenge = some r) :
    Covered r.1 := by
  unfold Handling.authenticateUser at hr
  split at hr
  · cases hr
    exact failAndClose _
  split at hr
  · cases hr
    unfold Handling.doOidcAuthenticate
    split
    · have hc : Covered (h.setState .waitForUserAuth).setTimeout := setTimeout hty rfl
      exact hc.spawn _
    · exact failAndClose _
  split at hr
  · cases hr
    exact failAndClose _
  · cases hr

theorem authenticateDevice (hs : h.peer.fsm.state = .waitForInitAuth) :
    Covered (h.authenticateDevice cx bootstrap challenge).1 := by
  unfold Handling.authenticateDevice
  split
  · split
    · exact failAndClose _
    · split
      · exact of_unbounded hty (hs ▸ rfl)
      · exact setTimeout hty rfl
  · exact failAndClose _

theorem processInitAuth (hs : h.peer.fsm.state = .waitForInitAuth) :
    Covered (h.processInitAuth cx bootstrap challenge).1 := by
  unfold Handling.processInitAuth
  split
  · split
    · exact authenticateDevice hty hs
    · next idp _ _ =>
      cases hu : h.authenticateUser cx idp challenge with
      | none => exact authenticateDevice hty hs
      | some r => exact authenticateUser hty hu
  · next hh => cases hs.symm.trans hh
  · next hne _ => exact (hne hty hs).elim

end

theorem processHelloResponse {code : ResponseCode} {aaaAddr : Option IpAddr}
    {oidcIdps : Option (List OidcIdpInfo)} :
    Covered (h.processHelloResponse cx code aaaAddr oidcIdps).1 ∨
      (h.processHelloResponse cx code aaaAddr oidcIdps).1 = h := by
  unfold Handling.processHelloResponse
  split
  · exact close _
  split
  · next hty _ =>
    left
    dsimp only
    split
    · exact processInitAuth hty rfl
    · exact of_unbounded hty rfl
  · exact .inl (of_active rfl)
  all_goals exact .inr rfl

/-! ## Authorization and activation -/

theorem runActive : Covered h.runActive.1 := by
  refine of_active ?_
  unfold Handling.runActive Handling.abortEcho
  split <;> rfl

theorem processAuthorizeResponse {addr : IpAddr} (hty : h.peer.linkType = .nodeToAdapter)
    (hs : h.peer.fsm.state = .registerAA) : Covered (h.processAuthorizeResponse addr).1 := by
  unfold Handling.processAuthorizeResponse
  split
  · exact runActive
  · next hne => exact (hne hty hs).elim

theorem processAcquireZprAddressRequest {addrs : Option (List IpAddr)} {blob : String} :
    Covered (h.processAcquireZprAddressRequest cx addrs blob).1 ∨
      (h.processAcquireZprAddressRequest cx addrs blob).1 = h := by
  unfold Handling.processAcquireZprAddressRequest
  split
  · next hty _ =>
    left
    split
    · next addr blobs _ _ =>
      have hty' : (h.beginAuthorization cx blobs).peer.linkType = .nodeToAdapter :=
        (SameLink.closed.beginAuthorization (.refl h.peer) blobs).linkType.trans hty
      dsimp only
      split
      · exact processAuthorizeResponse hty' rfl
      · exact of_unbounded hty' rfl
    · exact initiateClose (hty ▸ nofun) _
  · exact .inr rfl

theorem activate {addrs : List IpAddr} :
    Covered (h.activate cx addrs).1 ∨ (h.activate cx addrs).1 = h := by
  unfold Handling.activate
  split
  · exact .inr rfl
  left
  split
  · exact failAndClose _
  split
  · exact failAndClose _
  split
  · exact failAndClose _
  split
  · exact failAndClose _
  · exact runActive

theorem processGrantZprAddressRequest {result : Except ResponseCode (List IpAddr)} :
    Covered (h.processGrantZprAddressRequest cx result).1 ∨
      (h.processGrantZprAddressRequest cx result).1 = h := by
  unfold Handling.processGrantZprAddressRequest
  split
  · next hty _ =>
    split
    · exact .inl (failAndClose _)
    dsimp only
    split
    · left
      refine initiateClose ?_ _
      change h.peer.linkType ≠ .internal
      rw [hty]
      nofun
    · exact activate
  all_goals exact .inr rfl

/-! ## Timeouts -/

theorem sendEcho (hs : h.peer.fsm.state = .active) : Covered h.sendEcho.1 := of_active hs

theorem keepAliveTimeout (hs : h.peer.fsm.state = .active) : Covered (h.keepAliveTimeout cx).1 := by
  unfold Handling.keepAliveTimeout
  split
  · exact sendEcho hs
  dsimp only
  split
  · exact failAndClose _
  · exact sendEcho hs

/-- A timeout of the current clock is heard, unless the node waits for an acquire request. -/
theorem processTimeout {clock : BitVec 64} : Covered (h.processTimeout cx clock).1 ∨
    (h.processTimeout cx clock).1 = h ∧ (clock = h.peer.fsm.logicalClock →
      h.peer.fsm.state.isTimed h.peer.linkType = true →
        h.peer.fsm.state = .waitForAcquireZprAddress) := by
  unfold Handling.processTimeout
  split
  · next hclock => exact .inr ⟨rfl, fun heq => (hclock heq).elim⟩
  split
  · exact .inl (failAndClose _)
  · exact .inl (failAndClose _)
  · exact .inl (failAndClose _)
  · exact .inl (failAndClose _)
  · next hs => exact .inl (keepAliveTimeout hs)
  · next hs => exact .inl (cleanUpLinkState (.inl hs))
  next _ hclosing huser hregister hhello hkeying =>
  refine .inr ⟨rfl, fun _ ht => ?_⟩
  unfold LinkState.isTimed at ht
  split at ht
  · next hs => exact (hclosing hs).elim
  · next hs hty => exact (hkeying hty hs).elim
  · next hs _ => exact hs
  · next hs hty => exact (hhello hty hs).elim
  · next hs hty => exact (huser hty hs).elim
  · next hs hty => exact (hregister hty hs).elim
  · cases ht

end Covered

namespace Settles

open Handling

theorem of_or (hc : Covered h ∨ h = ⟨p, []⟩) : Settles p h := by
  refine hc.imp id fun heq => ?_
  rw [heq]
  exact .refl p

theorem of_fsm (hty : h.peer.linkType = p.linkType) (hfsm : h.peer.fsm = p.fsm) : Settles p h :=
  .inr (.of_fsm hty hfsm)

theorem processAuthenticationSuccess (blobs : List AuthBlob) :
    Settles p (Handling.processAuthenticationSuccess cx ⟨p, []⟩ blobs).1 := by
  unfold Handling.processAuthenticationSuccess
  have hregister : Settles p ((((Handling.setAuthenticatedNamespaces ⟨p, []⟩
      (blobNamespaces blobs)).send (.acquireZprAddressRequest cx.zprAddr
        (cx.prim.encodeBlobs blobs))).setState .registerAA).setTimeout) := by
    left
    cases hty : p.linkType with
    | adapterToNode => exact .setTimeout hty rfl
    | internal => exact .of_internal hty
    | nodeToNode =>
      exact .of_foreign (fun h => nomatch hty.symm.trans h) (fun h => nomatch hty.symm.trans h)
    | nodeToAdapter => exact .of_unbounded hty rfl
  split
  · exact hregister
  · exact hregister
  · exact .inr (.refl p)

theorem processEvent (e : LinkEvent) : Settles p (Handling.processEvent cx ⟨p, []⟩ e).1 := by
  have hsame := (processEvent_same cx ⟨p, []⟩ e).linkType
  cases e with
  | start => exact of_or Covered.processStart
  | keyingDone => exact of_or Covered.processKeyingDone
  | receivedHelloRequest => exact of_or Covered.processHelloRequest
  | assignedAAA addr => exact of_fsm rfl rfl
  | receivedHelloResponse code aaaAddr oidcIdps => exact of_or Covered.processHelloResponse
  | receivedAcquireZprAddressRequest addrs blob =>
    exact of_or Covered.processAcquireZprAddressRequest
  | receivedInitAuth bootstrap challenge =>
    simp only [Handling.processEvent]
    by_cases hw : p.linkType = .adapterToNode ∧ p.fsm.state = .waitForInitAuth
    · exact .inl (.processInitAuth hw.1 hw.2)
    unfold processInitAuth
    split
    · next hty hs => exact (hw ⟨hty, hs⟩).elim
    · -- the request is put off; the timeout of the hello exchange stays
      next hty hs =>
      refine .inr ⟨fun hn => hn, fun w hw => ?_⟩
      exact hw
    · exact .inr (.refl p)
  | receivedInitAuthAck =>
    simp only [Handling.processEvent, processInitAuthAck]
    split
    · next hty hs => exact .inl (.setTimeout hty (hs ▸ rfl))
    · exact .inr (.refl p)
  | receivedInitAuthTimeout =>
    simp only [Handling.processEvent, processInitAuthTimeout]
    split
    · exact .inl (.failAndClose _)
    · exact .inr (.refl p)
  | receivedRenewAuthRequest payload =>
    exact of_fsm hsame (Quiet.of_fsm.processRenewAuthRequest rfl payload)
  | receivedRenewAuthResponse challenge result =>
    exact of_fsm hsame (Kept.renewals.processRenewAuthResponse (.refl p) challenge result).fsm
  | receivedGrantZprAddressRequest result => exact of_or Covered.processGrantZprAddressRequest
  | authenticationFailure reason => exact .inl (.processAuthenticationFailure reason)
  | authenticationSuccess blobs => exact processAuthenticationSuccess blobs
  | receivedAuthorizeResponse addr =>
    simp only [Handling.processEvent, processAuthorizeResponse]
    split
    · exact .inl .runActive
    · exact .inr (.refl p)
  | receivedAuthorizeFailure code msg =>
    simp only [Handling.processEvent, processAuthorizeFailure]
    split
    · exact .inl (.failAndClose _)
    · exact .inr (.refl p)
  | receivedKeepAliveResponse =>
    simp only [Handling.processEvent, processKeepAliveResponse]
    split
    · next hs _ =>
      refine .inl (.of_active ?_)
      rw [(Kept.renewals.maybeRenewAuth (.refl _)).fsm]
      exact hs
    · exact .inr (.refl p)
  | receivedTerminateLink reason => exact .inl (.cleanUpLinkState (.inl rfl))
  | receivedTerminateAck =>
    simp only [Handling.processEvent, processTerminateAck]
    split
    · next hs => exact .inl (.cleanUpLinkState (.inl hs))
    · exact .inr (.refl p)
  | receivedDisconnectAck =>
    simp only [Handling.processEvent, processDisconnectAck]
    split
    · exact .inl (.continueClose _)
    · exact .inr (.refl p)
  | close reason => exact of_or (Covered.close reason)
  | closeDone => exact of_or (Covered.completeClose.imp_right And.left)
  | error => exact of_or (Covered.close _)
  | timeout clock => exact of_or (Covered.processTimeout.imp_right And.left)

end Settles

/-! ## Nodes -/

/-- The link under `id` is guarded, if it needs to be. -/
def WellGuarded (n : Node) (id : LinkId) : Prop :=
  ∀ p, n.peers id = some p → p.needsGuard = true → n.guarded id p = true

/-- The timeout of a link that waits for an acquire request fires; the link does not react. -/
def NodeAction.timesOutUnheard (n : Node) : NodeAction → Bool
  | .run i _ _ => (n.activities[i]?).any fun a => (n.peers a.linkId).any fun p =>
    p.fsm.state = .waitForAcquireZprAddress && a.guards a.linkId p
  | _ => false

section

variable {prim : Primitives} {cfg : Config} {n n' : Node} {id' : LinkId} {p' : PeerState}
  {origin : Nat} {l : Label}

theorem Node.guarded_mono (hg : n.guarded id p = true) (huid : p'.uid = p.uid)
    (hk : KeepsGuards p p')
    (hmem : ∀ a ∈ n.activities, a.work.guards p = true → a ∈ n'.activities) :
    n'.guarded id p' = true := by
  obtain ⟨a, ha, hid, howner, hw⟩ := Node.guarded_iff.mp hg
  exact Node.guarded_iff.mpr ⟨a, hmem a ha hw, hid, howner.trans huid.symm, hk.guards _ hw⟩

namespace WellGuarded

theorem apply_covered (hc : Covered h) : WellGuarded (n.apply id origin h) id := by
  intro p hp hneed
  rw [apply_peers_self] at hp
  rcases hc with hd | hc
  · rw [hd] at hp
    cases hp
  split at hp
  · cases hp
  cases hp
  obtain ⟨w, hmem, hw⟩ := hc hneed
  refine Node.guarded_iff.mpr ⟨⟨id, h.peer.uid, origin, w⟩, ?_, rfl, rfl, hw⟩
  exact (mem_apply (Work.guards_kept hw).1).mpr (.inr (mem_spawned.mpr ⟨w, hmem, rfl⟩))

theorem apply (hn : WellGuarded n id) (hp : n.peers id = some p) (huid : h.peer.uid = p.uid)
    (hs : Settles p h) : WellGuarded (n.apply id origin h) id := by
  rcases hs with hc | hk
  · exact apply_covered hc
  intro p' hp' hneed
  rw [apply_peers_self] at hp'
  split at hp'
  · cases hp'
  · cases hp'
    refine Node.guarded_mono (hn p hp (hk.needs hneed)) huid hk fun a ha hw => ?_
    exact (mem_apply (Work.guards_kept hw).1).mpr (.inl ha)

theorem move (hn : WellGuarded n id) (hm : Move prim cfg l n n') : WellGuarded n' id := by
  intro p' hp' hneed
  cases hm.origin hp' with
  | kept hp kept =>
    have hk : KeepsGuards _ p' := .of_fsm kept.linkType kept.fsm
    refine Node.guarded_mono (hn _ hp (hk.needs hneed)) kept.uid hk fun a ha hw => ?_
    exact hm.mem_activities ha (Work.guards_kept hw).1 (Work.guards_kept hw).2
  | touched hp same ht =>
    have hn' : WellGuarded n' id := by
      cases ht with
      | event cx e hd heq =>
        cases hm with
        | event io origin e hp => exact hn.apply hp (processEvent_same _ _ e).uid (.processEvent e)
      | reset cx heq =>
        cases hm with
        | reset io hp => exact apply_covered .reset
    exact hn' p' hp' hneed
  | created hnone hl huid hlt fsm =>
    -- a new link is inactive, or an internal link that is up
    rcases fsm with hnew | hactive
    · simp [needsGuard, isWaiting, hnew, LinkStateMachine.new] at hneed
    · simp [needsGuard, isWaiting, hactive] at hneed

theorem eraseIdx {i : Nat} (hn : WellGuarded n id) (ha : n.activities[i]? = some a)
    (hne : ∀ p, n.peers id = some p → p.needsGuard = true → a.guards id p = false) :
    WellGuarded { n with activities := n.activities.eraseIdx i } id := by
  intro p hp hneed
  obtain ⟨b, hb, hguard⟩ := List.any_eq_true.mp (hn p hp hneed)
  obtain ⟨j, hj⟩ := List.mem_iff_getElem?.mp hb
  refine List.any_eq_true.mpr ⟨b, ?_, hguard⟩
  refine List.mem_eraseIdx_iff_getElem?.mpr ⟨j, fun hij => ?_, hj⟩
  subst hij
  cases ha.symm.trans hj
  rw [hne p hp hneed] at hguard
  cases hguard

variable {io : Io} {outcome : Outcome}

/-- An event that leaves no guard to be wished for, whatever guarded the link before. -/
theorem raise {e : LinkEvent} (helse : ∀ id' ≠ id, WellGuarded n id') (hp : n.peers id = some p)
    (h : n.raise prim cfg io origin id e = some n')
    (hc : ∀ cx, Covered (Handling.processEvent cx ⟨p, []⟩ e).1) (id' : LinkId) :
    WellGuarded n' id' := by
  by_cases hid : id' = id
  · subst hid
    simp only [Node.raise, processLinkStateEvent, hp] at h
    split at h
    · cases h
    · cases h
      exact apply_covered (hc _)
  · exact (Moves.raise (List.mem_singleton.mpr rfl) h).invariant (P := fun m => WellGuarded m id')
      (fun _ hm hmove => hm.move hmove) (helse id' hid)

/-- The task that drops the link goes on as the same guard, or has dropped it. -/
theorem dropLink {dropped : Bool} (helse : ∀ id ≠ a.linkId, WellGuarded n id)
    (hp : n.peers a.linkId = some p) (hu : a.owner = p.uid)
    (hs : p.fsm.state = .closing ∨ p.fsm.state = .resetting)
    (h : n.dropLink prim cfg io a dropped = some n') (id : LinkId) : WellGuarded n' id := by
  cases dropped with
  | true =>
    refine raise helse hp h (fun _ => Covered.completeClose.resolve_right fun hc => ?_) id
    exact hs.elim hc.2.1 hc.2.2
  | false =>
    by_cases hid : id = a.linkId
    · subst hid
      simp only [Node.dropLink, Bool.false_eq_true, if_false, hp] at h
      cases h
      intro p' hp' _
      cases (n.setPeer_self a.linkId _).symm.trans hp'
      refine Node.guarded_iff.mpr ⟨{ a with work := .dropLink true }, by simp, rfl, hu, ?_⟩
      simpa [Work.guards] using hs
    · exact (@dropLink_moves n n' prim cfg io a .due false h).invariant (P := fun m => WellGuarded m id)
        (fun _ hm hmove => hm.move hmove) (helse id hid)

/-- A guard that acts leaves its link guarded by another one, or in need of none. -/
theorem runGuard (helse : ∀ id ≠ a.linkId, WellGuarded n id) (hp : n.peers a.linkId = some p)
    (hu : a.owner = p.uid) (hg : a.work.guards p = true)
    (hw : p.fsm.state ≠ .waitForAcquireZprAddress) (h : n.runWork prim cfg io a outcome = some n')
    (id : LinkId) : WellGuarded n' id := by
  have hdue (hwait : a.work.waits = false) : outcome = .due := runWork_due hwait h
  obtain ⟨id', owner, origin, work⟩ := a
  cases work with
  | timeout clock =>
    obtain rfl := hdue rfl
    rw [Work.guards, Bool.and_eq_true, beq_iff_eq] at hg
    refine raise helse hp h (fun _ => Covered.processTimeout.resolve_right fun hc => ?_) id
    exact hw (hc.2 hg.2 hg.1)
  | dropLink dropped =>
    obtain rfl := hdue rfl
    rw [Work.guards, Bool.or_eq_true, decide_eq_true_eq, decide_eq_true_eq] at hg
    exact dropLink helse hp hu hg h id
  | _ => cases hg

theorem step {act : NodeAction} (hs : n.Sound) (hn : ∀ id, WellGuarded n id)
    (hok : act.timesOutUnheard n = false) (h : n.step prim cfg act = some n') (id : LinkId) :
    WellGuarded n' id := by
  have hmoves (hn₀ : WellGuarded (n.release act) id) : WellGuarded n' id :=
    (step_moves hs.deferred h).invariant (P := fun m => WellGuarded m id)
      (fun _ hm hmove => hm.move hmove) hn₀
  cases act with
  | run i outcome io =>
    simp only [Node.step, runActivity] at h
    split at h
    · cases h
    next a ha =>
    split at h
    · cases h
    have helse : ∀ id ≠ a.linkId,
        WellGuarded { n with activities := n.activities.eraseIdx i } id := fun id hid =>
      (hn id).eraseIdx ha fun p _ _ => by simp [Activity.guards, hid.symm]
    by_cases hguard : ∀ p, n.peers a.linkId = some p → p.needsGuard = true → a.guards a.linkId p = false
    · refine hmoves ?_
      by_cases hid : id = a.linkId
      · exact hid ▸ (hn a.linkId).eraseIdx ha hguard
      · exact helse id hid
    · push Not at hguard
      obtain ⟨p, hp, -, hg⟩ := hguard
      rw [ne_eq, Bool.not_eq_false] at hg
      have hw : p.fsm.state ≠ .waitForAcquireZprAddress := by
        simpa [NodeAction.timesOutUnheard, ha, hp, hg] using hok
      obtain ⟨-, hu, hg⟩ := Activity.guards_iff.mp hg
      exact runGuard helse hp hu hg hw h id
  | _ => exact hmoves (hn id)

end WellGuarded

/-- In every run in which no timeout of a link that waits for an acquire request fires, a waiting
    link is guarded, unless it is in one of the states without a bound. -/
theorem waiting_links_guarded (hrun : Run (Node.step prim cfg) (· = init)
      (fun m act => act.timesOutUnheard m = false) n)
    (hp : n.peers id = some p) (hw : p.isWaiting = true) (hb : p.isUnbounded = false) :
    n.guarded id p = true := by
  have hinv : n.Sound ∧ ∀ id, WellGuarded n id := by
    refine hrun.invariant (P := fun m => m.Sound ∧ ∀ id, WellGuarded m id) (fun m hm => ?_)
      fun m act m' hm hok h => ⟨hm.1.step h, WellGuarded.step hm.1 hm.2 hok h⟩
    subst hm
    exact ⟨.init, fun _ _ hp => nomatch hp⟩
  exact hinv.2 id p hp (by rw [needsGuard, hw, hb]; rfl)

end

/-- The adapter has acknowledged the init-authentication request. -/
theorem waiting_links_guarded_acknowledged :
    ∃ n p, Run (Node.step samplePrimitives sampleConfig) (· = init)
        (fun m act => act.timesOutUnheard m = false) n ∧ n.peers 5 = some p ∧
      p.fsm.state = .waitForAcquireZprAddress ∧ n.guarded 5 p = true := by
  refine Run.reaches_some_imp (P := fun _ p => p.fsm.state = .waitForAcquireZprAddress ∧
    p.isWaiting = true ∧ p.isUnbounded = false) rfl
    (sampleHello 1 0 ++ [.run 2 .acked sampleIo]) (by decide +kernel) ?_
  rintro n p hrun hp ⟨hs, hwait, hbound⟩
  exact ⟨hs, waiting_links_guarded hrun hp hwait hbound⟩

/-- The state of the link under `id` if it waits and nothing guards it, and whether the state is one
    of those without a bound. -/
def Node.stranded (n : Node) (id : LinkId) : Option (LinkState × Bool) :=
  (n.peers id).bind fun p =>
    if p.isWaiting && !n.guarded id p then some (p.fsm.state, p.isUnbounded) else none

/-- A peer that falls silent leaves a link without a guard: an adapter after the handshake, after
    its hello request, or after it has acknowledged the init-authentication request and the timeout
    has fired in vain; a node before the handshake is complete, or after its hello response. So does a
    visa service that never answers. -/
theorem silent_peers_strand_links :
    (∃ n, Run (Node.step samplePrimitives sampleConfig) (· = init) (fun _ _ => True) n ∧
      n.stranded 5 = some (.helloing, true)) ∧
    (∃ n, Run (Node.step samplePrimitives sampleConfig) (· = init) (fun _ _ => True) n ∧
      n.stranded 5 = some (.waitForAcquireZprAddress, true)) ∧
    (∃ n, Run (Node.step samplePrimitives sampleConfig) (· = init) (fun _ _ => True) n ∧
      n.stranded 5 = some (.waitForAcquireZprAddress, false)) ∧
    (∃ n, Run (Node.step samplePrimitives sampleConfig) (· = init) (fun _ _ => True) n ∧
      n.stranded 5 = some (.registerAA, true)) ∧
    (∃ n, Run (Node.step samplePrimitives sampleAdapterConfig) (· = init)
      (fun _ _ => True) n ∧ n.stranded 2 = some (.keying, true)) ∧
    ∃ n, Run (Node.step samplePrimitives sampleAdapterConfig) (· = init)
      (fun _ _ => True) n ∧ n.stranded 2 = some (.waitForInitAuth, true) := by
  refine ⟨?_, ?_, ?_, ?_, ?_, ?_⟩
  · exact Run.reaches rfl ((sampleHello 1 0).take 3) (by decide +kernel)
  · exact Run.reaches rfl (sampleHello 1 0) (by decide +kernel)
  · exact Run.reaches rfl (sampleHello 1 0 ++ [.run 2 .acked sampleIo, .run 2 .due sampleIo])
      (by decide +kernel)
  · exact Run.reaches rfl (sampleHello 1 0 ++ sampleAcquire "1" 0) (by decide +kernel)
  · exact Run.reaches rfl sampleTether (by decide +kernel)
  · exact Run.reaches rfl
      (sampleKeyed ++ [.receive 2 (.helloResponse .success none none), .run 2 .due sampleIo])
      (by decide +kernel)

end ZprCore.Link
