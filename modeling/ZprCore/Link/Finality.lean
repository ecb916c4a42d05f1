-- SUMMARY: When a link that is shut down or reset never restarts.
import ZprCore.Link.Moves

/-!
# Shutdown and reset

A link on which a close with the reason `Shutdown` was initiated carries a mark that is never
cleared, and is dropped by whatever completes the close. A link that is reset is dropped when its
key manager has ended, unless one of the events that close a link from any state reaches it first.
-/

namespace ZprCore.Link

open Work Handling Node

/-- States of a link that is on its way out. -/
def LinkState.isEnding : LinkState → Bool
  | .disconnecting _ | .closing | .resetting => true
  | _ => false

/-- Events that are refused by a link on its way out. -/
def LinkEvent.isLate : LinkEvent → Bool
  | .start | .keyingDone | .receivedHelloRequest | .receivedInitAuth _ _ | .receivedInitAuthAck
  | .receivedInitAuthTimeout | .receivedRenewAuthRequest _ | .receivedRenewAuthResponse _ _
  | .receivedAcquireZprAddressRequest _ _ | .receivedGrantZprAddressRequest _
  | .authenticationSuccess _ | .receivedAuthorizeResponse _ | .receivedAuthorizeFailure _ _
  | .receivedKeepAliveResponse => true
  | _ => false

variable {e : LinkEvent} {cx : Context} {h : Handling} {prim : Primitives} {cfg : Config}
  {n n' : Node} {id : LinkId} {uid : Nat} {l : Label}

namespace Handling

theorem processEvent_late (he : e.isLate = true) (hs : h.peer.fsm.state.isEnding = true) :
    (h.processEvent cx e).1 = h := by
  cases e with
  | start =>
    simp only [processEvent, processStart]
    split
    · rfl
    split
    · rfl
    · next hst => cases (not_not.mp hst ▸ hs :)
  | keyingDone =>
    simp only [processEvent, processKeyingDone]
    split
    · rfl
    · next hst => cases (not_not.mp hst ▸ hs :)
  | receivedHelloRequest | receivedInitAuth | receivedInitAuthAck | receivedInitAuthTimeout
  | receivedRenewAuthRequest | receivedRenewAuthResponse | receivedAcquireZprAddressRequest
  | receivedGrantZprAddressRequest | authenticationSuccess | receivedAuthorizeResponse
  | receivedAuthorizeFailure | receivedKeepAliveResponse =>
    simp only [processEvent, processHelloRequest, processInitAuth, processInitAuthAck,
      processInitAuthTimeout, processRenewAuthRequest, processRenewAuthResponse,
      processAcquireZprAddressRequest, processGrantZprAddressRequest, processAuthenticationSuccess,
      processAuthorizeResponse, processAuthorizeFailure, processKeepAliveResponse]
    -- each handler refuses the event unless it matches one of the other states
    split <;> first | rfl | next hst => cases (hst ▸ hs :) | next hst _ => cases (hst ▸ hs :)
  | _ => cases he

theorem processHelloResponse_late {code : ResponseCode} {aaaAddr : Option IpAddr}
    {oidcIdps : Option (List OidcIdpInfo)} (hcode : code ≠ .other)
    (hs : h.peer.fsm.state.isEnding = true) :
    (h.processHelloResponse cx code aaaAddr oidcIdps).1 = h := by
  unfold processHelloResponse
  rw [if_neg hcode]
  split <;> first | rfl | next hst => cases (hst ▸ hs :)

/-- The only timeout that a link on its way out waits for is that of its terminate message. -/
theorem processTimeout_late {clock : BitVec 64} (hs : h.peer.fsm.state.isEnding = true) :
    (h.processTimeout cx clock).1 = h ∨
      h.peer.fsm.state = .closing ∧ (h.processTimeout cx clock).1 = h.cleanUpLinkState cx := by
  unfold processTimeout
  split
  · exact .inl rfl
  split
  case h_6 hst => exact .inr ⟨hst, rfl⟩
  all_goals first | exact .inl rfl | next hst => cases (hst ▸ hs :)

end Handling

/-! ## Shutdown -/

/-- The link is on its way out, and the mark of a shutdown was not lost. -/
structure Ends (p p' : PeerState) : Prop where
  ending : p'.fsm.state.isEnding = true
  marked : p.fsm.shuttingDown = true → p'.fsm.shuttingDown = true

variable {p : PeerState}

namespace Ends

open Handling

theorem refl (hs : p.fsm.state.isEnding = true) : Ends p p := ⟨hs, id⟩

theorem of_mark {p' q : PeerState} (h : Ends p p') (hq : q.fsm.shuttingDown = p.fsm.shuttingDown) :
    Ends q p' :=
  ⟨h.ending, fun hm => h.marked (hq ▸ hm)⟩

theorem initiateClose {reason : TerminateReason} (hty : h.peer.linkType ≠ .internal) :
    Ends h.peer (h.initiateClose cx reason).1.peer :=
  Marked.initiateClose (P := fun h' => Ends h.peer h'.peer) hty
    (fun _ hm _ => ⟨rfl, fun hmark => hm.mark (.inr hmark)⟩)
    fun _ hm => ⟨rfl, fun hmark => hm.mark (.inr hmark)⟩

theorem cleanUpLinkState (hs : h.peer.fsm.state.isEnding = true) :
    Ends h.peer (h.cleanUpLinkState cx).peer := by
  obtain ⟨addrs, hfsm⟩ := @cleanUpLinkState_fsm cx h
  exact ⟨by rw [hfsm]; exact hs, by rw [hfsm]; exact id⟩

/-- The completion of the close apart, no event leads a link back from its way out. -/
theorem processEvent (hs : h.peer.fsm.state.isEnding = true)
    (hty : h.peer.linkType ≠ .internal) (he : e ≠ .closeDone) :
    Ends h.peer (h.processEvent cx e).1.peer := by
  cases hlate : e.isLate with
  | true =>
    rw [processEvent_late hlate hs]
    exact .refl hs
  | false =>
    cases e with
    | assignedAAA addr => exact ⟨hs, id⟩
    | receivedHelloResponse code aaaAddr oidcIdps =>
      by_cases hcode : code = .other
      · simp only [Handling.processEvent, processHelloResponse, if_pos hcode]
        exact initiateClose hty
      · simp only [Handling.processEvent]
        rw [processHelloResponse_late hcode hs]
        exact .refl hs
    | authenticationFailure reason =>
      exact of_mark (initiateClose (h := (h.recordAuthFailure reason).setState .error) hty) rfl
    | receivedTerminateLink reason =>
      exact of_mark (cleanUpLinkState (h := h.setState .closing) rfl) rfl
    | receivedTerminateAck =>
      simp only [Handling.processEvent, processTerminateAck]
      split
      · exact of_mark (cleanUpLinkState (h := h.cancelTimeout) hs) rfl
      · exact .refl hs
    | receivedDisconnectAck =>
      simp only [Handling.processEvent, processDisconnectAck]
      split
      · exact ⟨rfl, id⟩
      · exact .refl hs
    | close | error => exact initiateClose hty
    | closeDone => exact (he rfl).elim
    | timeout clock =>
      simp only [Handling.processEvent]
      rcases @processTimeout_late cx h clock hs with hsame | ⟨-, hsame⟩
      · rw [hsame]
        exact .refl hs
      · rw [hsame]
        exact cleanUpLinkState hs
    | _ => cases hlate

end Ends

/-- A link that was shut down: it carries the mark and is on its way out. -/
structure ShutDown (p : PeerState) : Prop where
  marked : p.fsm.shuttingDown = true
  ending : p.fsm.state.isEnding = true
  external : p.linkType ≠ .internal

namespace ShutDown

open Handling

theorem of_ends {p' : PeerState} (hp : ShutDown p) (same : SameLink p p') (he : Ends p p') :
    ShutDown p' :=
  ⟨he.marked hp.marked, he.ending, same.linkType ▸ hp.external⟩

theorem initiateClose (hty : h.peer.linkType ≠ .internal) :
    ShutDown (h.initiateClose cx .shutdown).1.peer :=
  Marked.initiateClose (P := fun h' => ShutDown h'.peer) hty
    (fun _ hm _ => ⟨hm.mark (.inl rfl), rfl, hm.linkType ▸ hty⟩)
    fun _ hm => ⟨hm.mark (.inl rfl), rfl, hm.linkType ▸ hty⟩

theorem cleanUpLinkState (hp : ShutDown h.peer) : ShutDown (h.cleanUpLinkState cx).peer :=
  hp.of_ends (SameLink.closed.cleanUpLinkState (.refl h.peer)) (.cleanUpLinkState hp.ending)

theorem completeClose (hp : ShutDown h.peer) :
    (h.completeClose cx).effects.any (·.isDropPeer) = true ∨ h.completeClose cx = h := by
  unfold Handling.completeClose
  split
  · exact .inl (by simp [emit, Effect.isDropPeer])
  · exact .inl (by simp [emit, Effect.isDropPeer])
  · dsimp only
    split
    · exact .inl (by simp [emit, Effect.isDropPeer])
    · next hm => exact absurd hp.marked hm
  · exact .inr rfl

theorem processEvent (hp : ShutDown p) (e : LinkEvent) :
    (Handling.processEvent cx ⟨p, []⟩ e).1.effects.any (·.isDropPeer) = true ∨
      ShutDown (Handling.processEvent cx ⟨p, []⟩ e).1.peer := by
  by_cases he : e = .closeDone
  · subst he
    refine completeClose (h := ⟨p, []⟩) hp |>.imp id fun hsame => ?_
    simp only [Handling.processEvent]
    rw [hsame]
    exact hp
  · exact .inr (hp.of_ends (processEvent_same cx ⟨p, []⟩ e)
      (Ends.processEvent (h := ⟨p, []⟩) hp.ending hp.external he))

end ShutDown

variable {io : Io} {act : NodeAction}

/-- The link `uid` is shut down as long as it is in the peer table. -/
def StaysShut (n : Node) (id : LinkId) (uid : Nat) : Prop :=
  uid < n.nextUid ∧ ∀ p, n.peers id = some p → p.uid = uid → ShutDown p

namespace StaysShut

theorem move (hn : StaysShut n id uid) (hm : Move prim cfg l n n') : StaysShut n' id uid := by
  refine ⟨Nat.lt_of_lt_of_le hn.1 hm.nextUid_le, fun p' hp' hu => ?_⟩
  cases hm.origin hp' with
  | kept hp kept =>
    have hshut := hn.2 _ hp (kept.uid.symm.trans hu)
    exact hshut.of_ends kept.toSameLink ⟨kept.fsm ▸ hshut.ending, fun hm => kept.fsm ▸ hm⟩
  | touched hp same ht =>
    have hshut := hn.2 _ hp (same.uid.symm.trans hu)
    cases ht with
    | event cx e hd heq =>
      rcases @ShutDown.processEvent cx _ hshut e with hdrop | hshut'
      · rw [hd] at hdrop
        cases hdrop
      · exact heq ▸ hshut'
    | reset cx heq =>
      have hreset : ShutDown ((setState ⟨_, []⟩ .resetting).send
          (.terminateLinkOrDockingSession .reset)).peer := ⟨hshut.marked, rfl, hshut.external⟩
      exact heq ▸ hreset.cleanUpLinkState
  | created _ _ huid =>
    have := hn.1
    omega

theorem step (hs : n.Sound) (hn : StaysShut n id uid) (h : n.step prim cfg act = some n') :
    StaysShut n' id uid := by
  have hn₀ : StaysShut (n.release act) id uid := by
    cases act <;> exact hn
  exact (step_moves hs.deferred h).invariant (P := fun m => StaysShut m id uid)
    (fun _ hm hmove => hm.move hmove) hn₀

theorem of_close {origin : Nat} (hs : n.Sound) (hp : n.peers id = some p)
    (hclose : (n.processLinkStateEvent prim cfg io origin id (.close .shutdown)).2 = .ok) :
    StaysShut (n.processLinkStateEvent prim cfg io origin id (.close .shutdown)).1 id p.uid := by
  have hstep : (n.processLinkStateEvent prim cfg io origin id (.close .shutdown)) =
      (n.apply id origin (Handling.initiateClose (n.context prim cfg io) ⟨p, []⟩ .shutdown).1,
        (Handling.initiateClose (n.context prim cfg io) ⟨p, []⟩ .shutdown).2) := by
    unfold Node.processLinkStateEvent
    rw [hp]
    rfl
  rw [hstep] at hclose ⊢
  have hty : p.linkType ≠ .internal := by
    intro hty
    unfold Handling.initiateClose at hclose
    rw [if_pos hty] at hclose
    cases hclose
  refine ⟨Node.apply_nextUid.symm ▸ hs.below hp, fun p' hp' _ => ?_⟩
  rw [Node.apply_peers_self] at hp'
  split at hp'
  · cases hp'
  · cases hp'
    exact ShutDown.initiateClose (h := ⟨p, []⟩) hty

end StaysShut

/-- A close with the reason `Shutdown` is final: whatever happens later, the link never starts
    again. As long as it is in the peer table it is on its way out, and the completion of a close
    either drops it or leaves it as it was. -/
theorem shutdown_final {io : Io} {origin : Nat} {p : PeerState}
    (hrun : Run (Node.step prim cfg) (· = init) (fun _ _ => True) n) (hp : n.peers id = some p)
    (hclose : (n.processLinkStateEvent prim cfg io origin id (.close .shutdown)).2 = .ok)
    (hafter : Run (Node.step prim cfg)
      (· = (n.processLinkStateEvent prim cfg io origin id (.close .shutdown)).1)
      (fun _ _ => True) n')
    {q : PeerState} (hq : n'.peers id = some q) (hu : q.uid = p.uid) :
    q.fsm.state.isEnding = true ∧ ∀ io origin,
      (n'.processLinkStateEvent prim cfg io origin id .closeDone).1.peers id = none ∨
        (n'.processLinkStateEvent prim cfg io origin id .closeDone).1.peers id = some q := by
  have hs := Node.Sound.of_run hrun
  have hs' : (n.processLinkStateEvent prim cfg io origin id (.close .shutdown)).1.Sound :=
    (Moves.processLinkStateEvent (List.mem_singleton.mpr rfl)).invariant
      (fun _ hm hmove => hm.move hmove) hs
  have hshut : n'.Sound ∧ StaysShut n' id p.uid := by
    refine hafter.invariant (P := fun m => m.Sound ∧ StaysShut m id p.uid) (fun m hm => ?_)
      fun m act m' hm _ h => ⟨hm.1.step h, hm.2.step hm.1 h⟩
    subst hm
    exact ⟨hs', .of_close hs hp hclose⟩
  have hqs := hshut.2.2 q hq hu
  refine ⟨hqs.ending, fun io origin => ?_⟩
  unfold Node.processLinkStateEvent
  rw [hq]
  dsimp only [Handling.processEvent]
  rw [Node.apply_peers_self]
  rcases @ShutDown.completeClose (n'.context prim cfg io) ⟨q, []⟩ hqs with hdrop | hsame
  · rw [if_pos hdrop]
    exact .inl rfl
  · rw [hsame]
    exact .inr rfl

/-- The link of an adapter is shut down, and then the node terminates it too. -/
theorem shutdown_final_terminated :
    ∃ n n' p q, Run (Node.step samplePrimitives sampleAdapterConfig) (· = init)
        (fun _ _ => True) n ∧ n.peers 2 = some p ∧ p.fsm.state = .helloing ∧
      Run (Node.step samplePrimitives sampleAdapterConfig)
        (· = (n.processLinkStateEvent samplePrimitives sampleAdapterConfig sampleIo p.uid 2
          (.close .shutdown)).1) (fun _ _ => True) n' ∧
      n'.peers 2 = some q ∧ q.uid = p.uid ∧ q.fsm.state.isEnding = true := by
  let close := fun n : Node =>
    n.processLinkStateEvent samplePrimitives sampleAdapterConfig sampleIo 1 2 (.close .shutdown)
  obtain ⟨n, p, hrun, hp, huid, hst, hclose, n', hn', q, hq, hu⟩ : ∃ n p, Run (Node.step
      samplePrimitives sampleAdapterConfig) (· = init) (fun _ _ => True) n ∧
      n.peers 2 = some p ∧ p.uid = 1 ∧ p.fsm.state = .helloing ∧ (close n).2 = .ok ∧
      ∃ n', replay (Node.step samplePrimitives sampleAdapterConfig) (fun _ _ => True) (close n).1
        [.receive 2 (.terminateLinkOrDockingSession .other), .run 4 .due sampleIo] = some n' ∧
        ∃ q, n'.peers 2 = some q ∧ q.uid = p.uid :=
    Run.reaches_some rfl sampleKeyed (by decide +kernel)
  have hafter := Run.replayed hn'
  exact ⟨n, n', p, q, hrun, hp, hst, huid.symm ▸ hafter, hq, hu,
    (shutdown_final hrun hp hclose hafter hq hu).1⟩

/-! ## Reset -/

/-- Events that do not take a link of the given type out of `Resetting`. -/
def LinkEvent.keepsResetting (linkType : LinkType) : LinkEvent → Bool
  | .close _ | .error => linkType = .internal
  | .receivedHelloResponse code _ _ => code ≠ .other || linkType = .internal
  | .receivedTerminateLink _ | .authenticationFailure _ => false
  | _ => true

/-- Activities that close the link `p`, from whatever state it is in: a message, unless its handler
    raises no event, an answer of the visa service that is no answer to the adapter, and an answer
    of the `AuthAgent` to the current attempt. -/
def Work.closes (p : PeerState) : Work → Outcome → Bool
  | .message (.terminateLinkOrDockingSession _), _ => true
  | .message .handled, _ => false
  | .message _, _ => p.linkType ≠ .internal
  | .authorize _ _, .authorized (.v4 _) _ => p.linkType ≠ .internal
  | .authorize _ _, .refused (.codedError code _) =>
    (responseCodeForVsError code).isNone && p.linkType ≠ .internal
  | .authorize _ _, .refused (.other _) => p.linkType ≠ .internal
  | .oidc attemptClock _ _ _, .agentReply (some (.error _)) => attemptClock = p.fsm.logicalClock
  | .oidc attemptClock _ _ _, .agentReply none => attemptClock = p.fsm.logicalClock
  | _, _ => false

/-- The step closes the link under `id`, from whatever state it is in. -/
def NodeAction.closes (n : Node) (id : LinkId) (act : NodeAction) : Bool :=
  match n.peers id with
  | none => false
  | some p =>
    match act with
    | .command id' (.event (.close _)) _ => id' = id && p.linkType ≠ .internal
    | .run i outcome _ => (n.activities[i]?).any fun a => a.linkId = id && a.work.closes p outcome
    | _ => false

def Work.isDropLink : Work → Bool
  | .dropLink _ => true
  | _ => false

theorem Work.isDropLink_kept {w : Work} (hw : w.isDropLink = true) :
    w.isAbortable = false ∧ w.isKeyManager = false := by
  cases w with
  | dropLink dropped => exact ⟨rfl, rfl⟩
  | _ => cases hw

namespace Handling

theorem reset_state : (h.reset cx).peer.fsm.state = .resetting := by
  obtain ⟨addrs, hfsm⟩ := @cleanUpLinkState_fsm cx
    ((h.setState .resetting).send (.terminateLinkOrDockingSession .reset))
  rw [reset, hfsm]
  rfl

theorem processEvent_resetting (hst : p.fsm.state = .resetting)
    (he : e.keepsResetting p.linkType = true) : (processEvent cx ⟨p, []⟩ e).1.peer.fsm = p.fsm := by
  have hs : p.fsm.state.isEnding = true := by rw [hst]; rfl
  have hclose (hty : p.linkType = .internal) (reason : TerminateReason) :
      (initiateClose cx ⟨p, []⟩ reason).1.peer.fsm = p.fsm := by
    unfold initiateClose
    rw [if_pos hty]
  cases hlate : e.isLate with
  | true => rw [processEvent_late hlate hs]
  | false =>
    -- the events that a link on its way out does not refuse
    cases e with
    | assignedAAA addr => rfl
    | receivedHelloResponse code aaaAddr oidcIdps =>
      simp only [processEvent]
      by_cases hcode : code = .other
      · subst hcode
        exact hclose (of_decide_eq_true he) _
      · rw [processHelloResponse_late hcode hs]
    | receivedTerminateAck =>
      simp only [processEvent, processTerminateAck]
      split
      · next hc => cases hst.symm.trans hc
      · rfl
    | receivedDisconnectAck =>
      simp only [processEvent, processDisconnectAck]
      split
      · next hc => cases hst.symm.trans hc
      · rfl
    | close reason => exact hclose (of_decide_eq_true he) reason
    | closeDone =>
      simp only [processEvent, completeClose]
      split
      · rfl
      · rfl
      · next hc _ => cases hst.symm.trans hc
      · rfl
    | error => exact hclose (of_decide_eq_true he) _
    | timeout clock =>
      rcases processTimeout_late (h := ⟨p, []⟩) hs with hsame | ⟨hc, -⟩
      · simp only [processEvent]
        rw [hsame]
      · cases hst.symm.trans hc
    | authenticationFailure | receivedTerminateLink => exact absurd he Bool.false_ne_true
    | _ => cases hlate

end Handling

section

variable {outcome : Outcome}

def Gone (n : Node) (id : LinkId) (uid : Nat) : Prop :=
  uid < n.nextUid ∧ ∀ p, n.peers id = some p → p.uid ≠ uid

/-- The link `p` is being reset, and the task that drops it in the end is on its way. -/
structure Resetting (n : Node) (id : LinkId) (p : PeerState) : Prop where
  peer : n.peers id = some p
  state : p.fsm.state = .resetting
  task : ∃ a ∈ n.activities, a.linkId = id ∧ a.work.isDropLink = true

theorem Gone.move (hg : Gone n id uid) (hm : Move prim cfg l n n') : Gone n' id uid := by
  refine ⟨Nat.lt_of_lt_of_le hg.1 hm.nextUid_le, fun p' hp' hu => ?_⟩
  rcases hm.peers_back hp' with ⟨p, hp, same⟩ | ⟨-, huid, -⟩
  · exact hg.2 p hp (same.uid.symm.trans hu)
  · have := hg.1
    omega

/-- The link `uid` is gone, or still being reset. -/
def ResetOrGone (n : Node) (id : LinkId) (uid : Nat) (linkType : LinkType) : Prop :=
  Gone n id uid ∨ ∃ p, Resetting n id p ∧ p.uid = uid ∧ p.linkType = linkType ∧ uid < n.nextUid

/-- The move is not an event that takes the link out of `Resetting`. -/
def Label.sparesReset (id : LinkId) (linkType : LinkType) (l : Label) : Prop :=
  ∀ e, l = .event id e → e.keepsResetting linkType = true

theorem ResetOrGone.move {linkType : LinkType} (hn : ResetOrGone n id uid linkType)
    (hl : l.sparesReset id linkType) (hm : Move prim cfg l n n') :
    ResetOrGone n' id uid linkType := by
  rcases hn with hg | ⟨p, hr, hu, hty, hlt⟩
  · exact .inl (hg.move hm)
  have hlt' : uid < n'.nextUid := Nat.lt_of_lt_of_le hlt hm.nextUid_le
  have htask : ∃ a ∈ n'.activities, a.linkId = id ∧ a.work.isDropLink = true := by
    obtain ⟨a, ha, hid, hw⟩ := hr.task
    exact ⟨a, hm.mem_activities ha (isDropLink_kept hw).1 (isDropLink_kept hw).2, hid, hw⟩
  cases hp' : n'.peers id with
  | none => exact .inl ⟨hlt', by simp [hp']⟩
  | some p' =>
    refine .inr ⟨p', ?_⟩
    cases hm.origin hp' with
    | kept hp kept =>
      cases hr.peer.symm.trans hp
      exact ⟨⟨hp', kept.fsm ▸ hr.state, htask⟩, kept.uid.trans hu, kept.linkType.trans hty, hlt'⟩
    | touched hp same ht =>
      cases hr.peer.symm.trans hp
      refine ⟨⟨hp', ?_, htask⟩, same.uid.trans hu, same.linkType.trans hty, hlt'⟩
      cases ht with
      | event cx e hd heq =>
        rw [heq, Handling.processEvent_resetting hr.state (hty ▸ hl e rfl)]
        exact hr.state
      | reset cx heq => rw [heq, Handling.reset_state]
    | created hnone => cases hr.peer.symm.trans hnone

theorem Incoming.labels_id (msg : Incoming) :
    ∀ l ∈ msg.labels cfg id, ∀ id' e, l = .event id' e → id' = id := by
  unfold Incoming.labels
  split
  · simp
  · split <;> simp

theorem Work.labels_id (w : Work) (outcome : Outcome) :
    ∀ l ∈ w.labels prim cfg id outcome, ∀ id' e, l = .event id' e → id' = id := by
  cases w with
  | message msg => exact msg.labels_id
  | oidc clock issuer challenge blobs => cases outcome <;> simp [labels]
  | authorize request evidence =>
    cases outcome with
    | authorized addr authExpires => cases addr <;> simp [labels]
    | _ => simp [labels]
  | dropLink dropped => cases dropped <;> simp [labels]
  | _ => simp [labels]

theorem Incoming.labels_spare {msg : Incoming} (hc : (message msg).closes p outcome = false) :
    ∀ l ∈ msg.labels cfg id, l.sparesReset id p.linkType := by
  cases msg with
  | handled => simp [Incoming.labels, Incoming.isRefused, Incoming.event]
  | terminateLinkOrDockingSession reason => cases hc
  | refused =>
    have hty : p.linkType = .internal := by simpa [closes] using hc
    simp [Incoming.labels, Incoming.isRefused, Label.sparesReset, LinkEvent.keepsResetting, hty]
  | _ =>
    -- an internal link closes for no other message
    have hty : p.linkType = .internal := by simpa [closes] using hc
    unfold Incoming.labels
    split
    · simp [Label.sparesReset, LinkEvent.keepsResetting, hty]
    split
    · simp
    · next he =>
      cases he
      simp [Label.sparesReset, LinkEvent.keepsResetting, hty]

theorem Work.labels_spare {w : Work} (hc : w.closes p outcome = false)
    (hoidc : ∀ c i ch bs, w ≠ .oidc c i ch bs) :
    ∀ l ∈ w.labels prim cfg id outcome, l.sparesReset id p.linkType := by
  cases w with
  | message msg => exact Incoming.labels_spare hc
  | oidc clock issuer challenge blobs => exact absurd rfl (hoidc _ _ _ _)
  | authorize request evidence =>
    cases outcome with
    | authorized addr authExpires =>
      cases addr with
      | v4 bits =>
        have hty : p.linkType = .internal := by simpa [closes] using hc
        simp [labels, Label.sparesReset, LinkEvent.keepsResetting, hty]
      | v6 bits => simp [labels, Label.sparesReset, LinkEvent.keepsResetting]
    | refused error =>
      rintro l hl e rfl
      rcases (List.mem_singleton.mp hl) with ⟨rfl⟩
      cases error with
      | other text =>
        have hty : p.linkType = .internal := by simpa [closes] using hc
        simp [authorizeFailureEvent, LinkEvent.keepsResetting, hty]
      | codedError code message =>
        unfold authorizeFailureEvent
        dsimp only
        split
        · rfl
        next hcode =>
        have hty : p.linkType = .internal := by
          simpa [closes, Option.not_isSome_iff_eq_none.mp hcode] using hc
        simp [LinkEvent.keepsResetting, hty]
    | _ => simp [labels]
  | dropLink dropped =>
    cases dropped <;> simp [labels, Label.sparesReset, LinkEvent.keepsResetting]
  | _ => simp [labels, Label.sparesReset, LinkEvent.keepsResetting]

namespace ResetOrGone

variable {linkType : LinkType} {a : Activity}

/-- The task that drops a link in the end ends its key manager first. -/
theorem stopKm (hp : n.peers a.linkId = some p) (hst : p.fsm.state = .resetting)
    (hlt : p.uid < n.nextUid) (h : n.dropLink prim cfg io a false = some n') :
    ResetOrGone n' a.linkId p.uid p.linkType := by
  simp only [Node.dropLink, Bool.false_eq_true, if_false, hp] at h
  cases h
  refine .inr ⟨{ p with transportSa := none, kmHandle := false }, ⟨?_, hst, ?_⟩, rfl, rfl, hlt⟩
  · exact n.setPeer_self _ _
  · exact ⟨{ a with work := .dropLink true }, by simp, rfl, rfl⟩

theorem drop {a : Activity} {p : PeerState} (hp : n.peers a.linkId = some p)
    (hst : p.fsm.state = .resetting) {io : Io} :
    ∃ n', n.dropLink prim cfg io a true = some n' ∧ n'.peers a.linkId = none ∧
      n'.nextUid = n.nextUid := by
  have hclose : Handling.completeClose (n.context prim cfg io) ⟨p, []⟩ =
      emit ⟨p, []⟩ .dropPeer := by
    unfold Handling.completeClose
    split
    · rfl
    · rfl
    · next hc _ => cases hst.symm.trans hc
    · next hne _ _ => exact (hne hst).elim
  refine ⟨n.apply a.linkId a.owner (emit ⟨p, []⟩ .dropPeer), ?_, ?_, Node.apply_nextUid⟩
  · simp only [Node.dropLink, if_true, Node.raise, Node.processLinkStateEvent, hp,
      Handling.processEvent, hclose]
    rfl
  · rw [Node.apply_peers_self]
    rfl

theorem release {i : Nat} (hn : ResetOrGone n id uid linkType) (ha : n.activities[i]? = some a)
    (hd : a.linkId = id → a.work.isDropLink = false) :
    ResetOrGone (n.release (.run i outcome io)) id uid linkType := by
  rcases hn with hg | ⟨p, hr, hu, hty, hlt⟩
  · exact .inl hg
  obtain ⟨b, hb, hid, hw⟩ := hr.task
  obtain ⟨j, hj⟩ := List.mem_iff_getElem?.mp hb
  refine .inr ⟨p, ⟨hr.peer, hr.state, b, ?_, hid, hw⟩, hu, hty, hlt⟩
  refine List.mem_eraseIdx_iff_getElem?.mpr ⟨j, fun hij => ?_, hj⟩
  subst hij
  cases ha.symm.trans hj
  rw [hd hid] at hw
  cases hw

theorem spares_command {id' : LinkId} (hp : n.peers id = some p)
    (hc : NodeAction.closes n id (.command id' (.event e) io) = false)
    (h : n.step prim cfg (.command id' (.event e) io) = some n') :
    (Label.event id' e).sparesReset id p.linkType := by
  intro e' heq
  cases heq
  simp only [Node.step, runCommand, hp] at h
  cases e with
  | start => rfl
  | close reason => simpa [NodeAction.closes, hp, LinkEvent.keepsResetting] using hc
  | _ => cases h

theorem spares_run {i : Nat} (hp : n.peers id = some p) (ha : n.activities[i]? = some a)
    (hc : NodeAction.closes n id (.run i outcome io) = false)
    (hoidc : ∀ c issuer ch bs, a.linkId = id → a.work ≠ .oidc c issuer ch bs) :
    ∀ l ∈ n.labels prim cfg (.run i outcome io), l.sparesReset id p.linkType := by
  simp only [Node.labels, ha]
  by_cases hid : a.linkId = id
  · have hc' : a.work.closes p outcome = false := by
      simpa [NodeAction.closes, hp, ha, hid] using hc
    rw [hid]
    exact labels_spare hc' fun c issuer ch bs => hoidc c issuer ch bs hid
  · intro l hl e heq
    exact absurd (labels_id _ _ l hl id e heq).symm hid

theorem oidc {clock : BitVec 64} {issuer : String} {challenge : Challenge} {blobs : List AuthBlob}
    (hn : ResetOrGone n a.linkId uid p.linkType) (hp : n.peers a.linkId = some p)
    (hc : (oidc clock issuer challenge blobs).closes p outcome = false)
    (h : n.completeOidc prim cfg io a clock issuer challenge blobs outcome = some n') :
    ResetOrGone n' a.linkId uid p.linkType := by
  unfold completeOidc at h
  split at h
  · next reply =>
    split at h
    · next hclock =>
      have hreply : ∃ idToken, reply = some (.ok idToken) := by
        rw [hp, Option.any_some, beq_iff_eq] at hclock
        rcases reply with _ | (reason | idToken)
        · simp [closes, hclock] at hc
        · simp [closes, hclock] at hc
        · exact ⟨idToken, rfl⟩
      obtain ⟨idToken, rfl⟩ := hreply
      exact (Moves.raise (List.mem_singleton.mpr rfl) h).invariant
        (P := fun m => ResetOrGone m a.linkId uid p.linkType)
        (fun hl hm hmove => hm.move (by
          rintro e rfl
          cases List.mem_singleton.mp hl
          rfl) hmove) hn
    · cases h
      exact hn
  · cases h

theorem step (hs : n.Sound) (hn : ResetOrGone n id uid linkType)
    (hok : ∀ p, n.peers id = some p → p.uid = uid → act.closes n id = false)
    (h : n.step prim cfg act = some n') : ResetOrGone n' id uid linkType := by
  have hmoves := step_moves hs.deferred h
  have hkeep (hspare : ∀ l ∈ n.labels prim cfg act, l.sparesReset id linkType)
      (hn₀ : ResetOrGone (n.release act) id uid linkType) : ResetOrGone n' id uid linkType :=
    hmoves.invariant (P := fun m => ResetOrGone m id uid linkType)
      (fun hl hm hmove => hm.move (hspare _ hl) hmove) hn₀
  rcases hn with hg | ⟨p, hr, rfl, rfl, hlt⟩
  · have hg₀ : Gone (n.release act) id uid := by
      cases act <;> exact hg
    exact .inl (hmoves.invariant (P := fun m => Gone m id uid)
      (fun _ hm hmove => hm.move hmove) hg₀)
  have hn : ResetOrGone n id p.uid p.linkType := .inr ⟨p, hr, rfl, rfl, hlt⟩
  have hcl := hok p hr.peer rfl
  cases act with
  | run i outcome io =>
    simp only [Node.step, runActivity] at h
    split at h
    · cases h
    next a ha =>
    split at h
    · cases h
    by_cases hid : a.linkId = id
    · subst hid
      have hp₀ : ({ n with activities := n.activities.eraseIdx i } : Node).peers a.linkId = some p :=
        hr.peer
      have hdue (hwait : a.work.waits = false) : outcome = .due := runWork_due hwait h
      unfold runWork at h
      cases hw : a.work with
      | dropLink dropped =>
        obtain rfl := hdue (hw ▸ rfl)
        simp only [hw] at h
        cases dropped with
        | false => exact stopKm hp₀ hr.state hlt h
        | true =>
          obtain ⟨m, hm, hnone, hnext⟩ := @drop prim cfg _ a p hp₀ hr.state io
          cases hm.symm.trans h
          exact .inl ⟨hnext.symm ▸ hlt, by simp [hnone]⟩
      | oidc clock issuer challenge blobs =>
        simp only [hw] at h
        have hn₀ : ResetOrGone (n.release (.run i outcome io)) a.linkId p.uid p.linkType :=
          hn.release ha fun _ => hw ▸ rfl
        refine oidc hn₀ hr.peer ?_ h
        simpa [NodeAction.closes, hr.peer, ha, hw] using hcl
      | _ =>
        exact hkeep (spares_run hr.peer ha hcl fun _ _ _ _ _ => by rw [hw]; rintro ⟨⟩)
          (hn.release ha fun _ => hw ▸ rfl)
    · exact hkeep (spares_run hr.peer ha hcl fun _ _ _ _ hid' => absurd hid' hid)
        (hn.release ha fun hid' => absurd hid' hid)
  | command id' command io =>
    refine hkeep ?_ hn
    cases command with
    | event e => simpa [Node.labels] using spares_command hr.peer hcl h
    | _ => simp [Node.labels, Label.sparesReset]
  | _ =>
    refine hkeep ?_ hn
    simp [Node.labels, Label.sparesReset, LinkEvent.keepsResetting]

theorem reset_effects (cx : Context) (h : Handling) :
    .spawn (.dropLink false) ∈ (h.reset cx).effects := by
  unfold reset Handling.cleanUpLinkState
  split
  · exact List.mem_append_right _ (List.mem_singleton.mpr rfl)
  · exact List.mem_append_right _ (List.mem_singleton.mpr rfl)
  · next hne => exact absurd rfl hne

theorem of_reset (hs : n.Sound) (hp : n.peers id = some p)
    (h : n.step prim cfg (.command id .reset io) = some n') :
    ResetOrGone n' id p.uid p.linkType := by
  simp only [Node.step, runCommand, hp] at h
  cases h
  have hlt : p.uid < n.nextUid := hs.below hp
  let h := reset (n.context prim cfg io) ⟨p, []⟩
  have hsame : SameLink p h.peer := SameLink.closed.reset (h := ⟨p, []⟩) (.refl p)
  have htask : (⟨id, h.peer.uid, p.uid, .dropLink false⟩ : Activity) ∈
      (n.apply id p.uid h).activities :=
    (mem_apply rfl).mpr (.inr (mem_spawned.mpr ⟨_, reset_effects _ _, rfl⟩))
  have hpeer : (n.apply id p.uid h).peers id = _ := Node.apply_peers_self
  split at hpeer
  · exact .inl ⟨Node.apply_nextUid.symm ▸ hlt, by simp [h, hpeer]⟩
  · exact .inr ⟨h.peer, ⟨hpeer, Handling.reset_state, _, htask, rfl, rfl⟩, hsame.uid, hsame.linkType,
      Node.apply_nextUid.symm ▸ hlt⟩

end ResetOrGone

/-- The link under `id` is about to be dropped: a task is on its way that ends the key manager and
    then drops the link. -/
structure DropUnderway (prim : Primitives) (cfg : Config) (n : Node) (id : LinkId) : Prop where
  task : ∃ a ∈ n.activities, a.linkId = id ∧ a.work.isDropLink = true
  ends : ∀ {i a} (io : Io), n.activities[i]? = some a → a.linkId = id → a.work = .dropLink false →
    ∃ n', n.step prim cfg (.run i .due io) = some n' ∧
      ∃ b ∈ n'.activities, b.linkId = id ∧ b.work = .dropLink true
  drops : ∀ {i a} (io : Io), n.activities[i]? = some a → a.linkId = id → a.work = .dropLink true →
    ∃ n', n.step prim cfg (.run i .due io) = some n' ∧ n'.peers id = none

/-- A reset is final in every run in which nothing closes the link after it: as long as the link is
    in the peer table it is in `Resetting`, and about to be dropped. -/
theorem reset_final {n₁ n₂ : Node} {io : Io} {p : PeerState}
    (hrun : Run (Node.step prim cfg) (· = init) (fun _ _ => True) n)
    (hp : n.peers id = some p) (hreset : n.step prim cfg (.command id .reset io) = some n₁)
    (hafter : Run (Node.step prim cfg) (· = n₁)
      (fun m act => ∀ q, m.peers id = some q → q.uid = p.uid → act.closes m id = false) n₂)
    {q : PeerState} (hq : n₂.peers id = some q) (hu : q.uid = p.uid) :
    q.fsm.state = .resetting ∧ DropUnderway prim cfg n₂ id := by
  have hs := Node.Sound.of_run hrun
  have hinv : n₂.Sound ∧ ResetOrGone n₂ id p.uid p.linkType := by
    refine hafter.invariant (P := fun m => m.Sound ∧ ResetOrGone m id p.uid p.linkType)
      (fun m hm => ?_) fun m act m' hm hok h => ⟨hm.1.step h, hm.2.step hm.1 hok h⟩
    subst hm
    exact ⟨hs.step hreset, .of_reset hs hp hreset⟩
  rcases hinv.2 with hg | ⟨q', hr, -, -, -⟩
  · exact absurd hu (hg.2 q hq)
  cases hr.peer.symm.trans hq
  have hrunWork {i : Nat} {a : Activity} {dropped : Bool} (io : Io)
      (ha : n₂.activities[i]? = some a) (hw : a.work = .dropLink dropped) :
      n₂.step prim cfg (.run i .due io) =
        { n₂ with activities := n₂.activities.eraseIdx i }.dropLink prim cfg io a dropped := by
    simp only [Node.step, runActivity, ha, hw, isMessage, Bool.false_eq_true, false_and,
      if_false]
    unfold runWork
    rw [hw]
  refine ⟨hr.state, hr.task, fun {i a} io ha hid hw => ?_, fun {i a} io ha hid hw => ?_⟩
  · subst hid
    rw [hrunWork io ha hw]
    refine ⟨_, rfl, { a with work := .dropLink true }, ?_, rfl, rfl⟩
    exact List.mem_append_right _ (List.mem_singleton.mpr rfl)
  · subst hid
    rw [hrunWork io ha hw]
    obtain ⟨m, hm, hnone, -⟩ := @ResetOrGone.drop prim cfg
      { n₂ with activities := n₂.activities.eraseIdx i } a q hq hr.state io
    exact ⟨m, hm, hnone⟩

end

/-- The link of an adapter is reset, and its key manager has ended. -/
theorem reset_final_keysDropped :
    ∃ n n₁ n₂ p q, Run (Node.step samplePrimitives sampleAdapterConfig) (· = init)
        (fun _ _ => True) n ∧ n.peers 2 = some p ∧
      n.step samplePrimitives sampleAdapterConfig (.command 2 .reset sampleIo) = some n₁ ∧
      Run (Node.step samplePrimitives sampleAdapterConfig) (· = n₁)
        (fun m act => ∀ q, m.peers 2 = some q → q.uid = p.uid → act.closes m 2 = false) n₂ ∧
      n₂.peers 2 = some q ∧ q.uid = p.uid ∧ q.fsm.state = .resetting ∧
      DropUnderway samplePrimitives sampleAdapterConfig n₂ 2 := by
  obtain ⟨n, p, hrun, hp, n₁, hn₁, n₂, hn₂, q, hq, hu⟩ : ∃ n p, Run (Node.step samplePrimitives
      sampleAdapterConfig) (· = init) (fun _ _ => True) n ∧ n.peers 2 = some p ∧
      ∃ n₁, n.step samplePrimitives sampleAdapterConfig (.command 2 .reset sampleIo) = some n₁ ∧
      ∃ n₂, replay (Node.step samplePrimitives sampleAdapterConfig)
        (fun m act => act.closes m 2 = false) n₁
        [.receive 2 .handled, .run 3 .due sampleIo, .run 2 .due sampleIo] = some n₂ ∧
        ∃ q, n₂.peers 2 = some q ∧ q.uid = p.uid :=
    Run.reaches_some rfl sampleKeyed (by decide +kernel)
  have hafter : Run (Node.step samplePrimitives sampleAdapterConfig) (· = n₁)
      (fun m act => ∀ q, m.peers 2 = some q → q.uid = p.uid → act.closes m 2 = false) n₂ :=
    (Run.replayed hn₂).mono fun _ _ hok _ _ _ => hok
  exact ⟨n, n₁, n₂, p, q, hrun, hp, hn₁, hafter, hq, hu, reset_final hrun hp hn₁ hafter hq hu⟩

/-- The node terminates a link that is being reset: the task of the reset takes it for one that is
    closing, and it is keying again. -/
theorem reset_restarts :
    ∃ n n₁ n₂ p q, Run (Node.step samplePrimitives sampleAdapterConfig) (· = init)
        (fun _ _ => True) n ∧ n.peers 2 = some p ∧
      n.step samplePrimitives sampleAdapterConfig (.command 2 .reset sampleIo) = some n₁ ∧
      Run (Node.step samplePrimitives sampleAdapterConfig) (· = n₁) (fun _ _ => True) n₂ ∧
      n₂.peers 2 = some q ∧ q.uid = p.uid ∧ q.fsm.state = .keying := by
  obtain ⟨n, p, hrun, hp, n₁, hn₁, n₂, hn₂, q, hq, hu, hst⟩ : ∃ n p, Run (Node.step samplePrimitives
      sampleAdapterConfig) (· = init) (fun _ _ => True) n ∧ n.peers 2 = some p ∧
      ∃ n₁, n.step samplePrimitives sampleAdapterConfig (.command 2 .reset sampleIo) = some n₁ ∧
      ∃ n₂, replay (Node.step samplePrimitives sampleAdapterConfig) (fun _ _ => True) n₁
        [.receive 2 (.terminateLinkOrDockingSession .other), .run 3 .due sampleIo,
          .run 2 .due sampleIo, .run 3 .due sampleIo, .run 3 .due sampleIo] = some n₂ ∧
        ∃ q, n₂.peers 2 = some q ∧ q.uid = p.uid ∧ q.fsm.state = .keying :=
    Run.reaches_some rfl sampleKeyed (by decide +kernel)
  exact ⟨n, n₁, n₂, p, q, hrun, hp, hn₁, .replayed hn₂, hq, hu, hst⟩

end ZprCore.Link
