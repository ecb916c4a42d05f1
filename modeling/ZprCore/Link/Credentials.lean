-- SUMMARY: The credentials of a link stay as they are while it is active.
import ZprCore.Link.Finality

/-!
# Recorded credentials

A node's link to an adapter records the namespaces and the identity that its adapter has authenticated
with before it becomes active. From then on they are never changed: a link that is active stays so with
its record, or is on its way out for good.
-/

namespace ZprCore.Link

/-! ## Handlers -/

variable {cx : Context} {p p' : PeerState}

namespace Handling

variable {h : Handling}

theorem processKeepAliveResponse_kept :
    (h.processKeepAliveResponse cx).1.peer.fsm.state = h.peer.fsm.state ∧
      (h.processKeepAliveResponse cx).1.peer.data.credentials = h.peer.data.credentials := by
  unfold processKeepAliveResponse
  split
  · extract_lets h'
    have k : Kept h'.setTimeout.peer (h'.setTimeout.maybeRenewAuth cx).1.peer :=
      Kept.renewals.maybeRenewAuth (.refl _)
    exact ⟨k.fsm ▸ rfl, k.credentials⟩
  · exact ⟨rfl, rfl⟩

theorem processTimeout_active {clock : BitVec 64} (hty : h.peer.linkType = .nodeToAdapter)
    (hs : h.peer.fsm.state = .active) :
    (h.processTimeout cx clock).1.peer.fsm.state.isEnding = true ∨
      (h.processTimeout cx clock).1.peer.fsm.state = h.peer.fsm.state ∧
        (h.processTimeout cx clock).1.peer.data.credentials = h.peer.data.credentials := by
  unfold processTimeout
  split
  · exact .inr ⟨rfl, rfl⟩
  simp only [hty, hs, keepAliveTimeout]
  split
  · exact .inr ⟨hs, rfl⟩
  split
  · left
    refine (Ends.initiateClose ?_).ending
    exact fun hint => nomatch hty.symm.trans hint
  · exact .inr ⟨hs, rfl⟩

end Handling

/-- A node's link to an adapter that is active with the credentials `cr`, or on its way out. -/
structure Upright (cr : Option NamespaceSet × Option RenewalIdentity) (p : PeerState) : Prop where
  linkType : p.linkType = .nodeToAdapter
  state : p.fsm.state = .active ∧ p.data.credentials = cr ∨ p.fsm.state.isEnding = true

namespace Upright

open Handling

variable {cr : Option NamespaceSet × Option RenewalIdentity}

section

variable (hp : Upright cr p)

include hp

theorem of_ends (same : SameLink p p') (h : p'.fsm.state.isEnding = true) :
    Upright cr p' :=
  ⟨same.linkType.trans hp.linkType, .inr h⟩

theorem of_kept (same : SameLink p p') (hs : p'.fsm.state = p.fsm.state)
    (hc : p'.data.credentials = p.data.credentials) : Upright cr p' := by
  refine ⟨same.linkType.trans hp.linkType, ?_⟩
  rw [hs, hc]
  exact hp.state

theorem external : p.linkType ≠ .internal := by
  rw [hp.linkType]
  nofun

/-- An active link takes the events of a keep-alive and of a renewal, and can be closed. -/
theorem processEvent_active (hs : p.fsm.state = .active) (e : LinkEvent) :
    Upright cr (Handling.processEvent cx ⟨p, []⟩ e).1.peer := by
  have hsame := processEvent_same cx ⟨p, []⟩ e
  have hty := hp.linkType
  have hkept (heq : (Handling.processEvent cx ⟨p, []⟩ e).1 = ⟨p, []⟩) :
      Upright cr (Handling.processEvent cx ⟨p, []⟩ e).1.peer := by
    rw [heq]
    exact hp
  cases e with
  | receivedKeepAliveResponse =>
    obtain ⟨hstate, hcred⟩ := @processKeepAliveResponse_kept cx ⟨p, []⟩
    exact hp.of_kept hsame hstate hcred
  | receivedRenewAuthResponse challenge result =>
    have k : Kept p (processRenewAuthResponse cx ⟨p, []⟩ challenge result).1.peer :=
      Kept.renewals.processRenewAuthResponse (.refl p) challenge result
    exact hp.of_kept hsame (congrArg LinkStateMachine.state k.fsm) k.credentials
  | timeout clock =>
    rcases @processTimeout_active cx ⟨p, []⟩ clock hty hs with hends | ⟨hstate, hcred⟩
    · exact hp.of_ends hsame hends
    · exact hp.of_kept hsame hstate hcred
  | assignedAAA addr => exact hp.of_kept hsame rfl rfl
  | receivedHelloResponse code aaaAddr oidcIdps =>
    by_cases hcode : code = .other
    · subst hcode
      exact hp.of_ends hsame (Ends.initiateClose (h := ⟨p, []⟩) hp.external).ending
    · exact hkept (by simp [Handling.processEvent, processHelloResponse, hcode, hty])
  | authenticationFailure reason =>
    exact hp.of_ends hsame (Ends.initiateClose
      (h := (recordAuthFailure ⟨p, []⟩ reason).setState .error) hp.external).ending
  | receivedTerminateLink reason =>
    exact hp.of_ends hsame (Ends.cleanUpLinkState (h := setState ⟨p, []⟩ .closing) rfl).ending
  | close | error => exact hp.of_ends hsame (Ends.initiateClose (h := ⟨p, []⟩) hp.external).ending
  | start =>
    refine hkept ?_
    simp only [Handling.processEvent, processStart, hs]
    split
    · rfl
    · simp
  | _ =>
    -- all other events are refused
    refine hkept ?_
    simp [Handling.processEvent, processKeyingDone, processHelloRequest, processInitAuth,
      processInitAuthAck, processInitAuthTimeout, processRenewAuthRequest,
      processAcquireZprAddressRequest, processGrantZprAddressRequest, processAuthenticationSuccess,
      processAuthorizeResponse, processAuthorizeFailure, processTerminateAck, processDisconnectAck,
      completeClose, hs, hty]

theorem processEvent (e : LinkEvent) :
    (Handling.processEvent cx ⟨p, []⟩ e).1.effects.any (·.isDropPeer) = true ∨
      Upright cr (Handling.processEvent cx ⟨p, []⟩ e).1.peer := by
  rcases hp.state with ⟨hs, -⟩ | hs
  · exact .inr (hp.processEvent_active hs e)
  by_cases he : e = .closeDone
  · subst he
    have hty := hp.linkType
    cases hst : p.fsm.state with
    | closing | resetting =>
      left
      simp [Handling.processEvent, completeClose, hst, hty, emit, Effect.isDropPeer]
    | disconnecting reason =>
      right
      simp only [Handling.processEvent, completeClose, hst]
      exact hp
    | _ =>
      rw [hst] at hs
      cases hs
  · exact .inr (hp.of_ends (processEvent_same cx ⟨p, []⟩ e)
      (Ends.processEvent (h := ⟨p, []⟩) hs hp.external he).ending)

end

end Upright

/-! ## Steps -/

section

variable {prim : Primitives} {cfg : Config} {n n' : Node} {l : Label} {id : LinkId} {uid : Nat}
  {act : NodeAction}

theorem Move.upright (hm : Move prim cfg l n n') (hp' : n'.peers id = some p')
    (hlt : p'.uid < n.nextUid) :
    ∃ p, n.peers id = some p ∧ SameLink p p' ∧ ∀ cr, Upright cr p → Upright cr p' := by
  cases hm.origin hp' with
  | kept hp kept =>
    refine ⟨_, hp, kept.toSameLink, fun cr hup => ?_⟩
    exact hup.of_kept kept.toSameLink (by rw [kept.fsm]) kept.credentials
  | touched hp same ht =>
    refine ⟨_, hp, same, fun cr hup => ?_⟩
    cases ht with
    | event cx e hd heq => exact heq ▸ (hup.processEvent e).resolve_left (by simp [hd])
    | reset cx heq => exact hup.of_ends same (heq ▸ (Ends.cleanUpLinkState rfl).ending)
  | created _ _ huid => exact absurd hlt (huid ▸ Nat.lt_irrefl _)

theorem step_upright (hs : n.Sound) (h : n.step prim cfg act = some n') (hp' : n'.peers id = some p')
    (hlt : p'.uid < n.nextUid) :
    ∃ p, n.peers id = some p ∧ SameLink p p' ∧ ∀ cr, Upright cr p → Upright cr p' := by
  let P (m : Node) : Prop := n.nextUid ≤ m.nextUid ∧ ∀ q, m.peers id = some q → q.uid < n.nextUid →
    ∃ p, n.peers id = some p ∧ SameLink p q ∧ ∀ cr, Upright cr p → Upright cr q
  have hinit : P (n.release act) := by
    cases act <;> exact ⟨Nat.le_refl _, fun q hq _ => ⟨q, hq, .refl q, fun _ hup => hup⟩⟩
  have hP : P n' := by
    refine (step_moves hs.deferred h).invariant (P := P) (fun {l m m'} _ hm hmove => ?_) hinit
    refine ⟨hm.1.trans hmove.nextUid_le, fun q' hq' hlt' => ?_⟩
    obtain ⟨q, hq, hsame, hup⟩ := hmove.upright hq' (Nat.lt_of_lt_of_le hlt' hm.1)
    obtain ⟨p, hp, hsame₀, hup₀⟩ := hm.2 q hq (hsame.uid ▸ hlt')
    exact ⟨p, hp, hsame₀.trans hsame, fun cr h => hup cr (hup₀ cr h)⟩
  exact hP.2 p' hp' hlt

/-! ## Runs -/

/-- The link `uid` under `id` becomes active, with the credentials `cr`. -/
def Connects (id : LinkId) (uid : Nat) (cr : Option NamespaceSet × Option RenewalIdentity)
    (t : Taken Node NodeAction) (_ : List (Taken Node NodeAction)) : Prop :=
  (∀ p, t.pre.peers id = some p → p.uid = uid → p.fsm.state ≠ .active) ∧
    ∃ p', t.post.peers id = some p' ∧ p'.uid = uid ∧ p'.fsm.state = .active ∧
      p'.data.credentials = cr

/-- The link stays active with its credentials. -/
def StaysConnected (id : LinkId) (uid : Nat) (t : Taken Node NodeAction) : Prop :=
  ∃ p p', t.pre.peers id = some p ∧ t.post.peers id = some p' ∧ p.uid = uid ∧ p'.uid = uid ∧
    p.fsm.state = .active ∧ p'.fsm.state = .active ∧ p'.data.credentials = p.data.credentials

/-- A node's link to an adapter that is active has the credentials that it had when it became so. -/
theorem since_connected {ok : Node → NodeAction → Prop} {l : List (Taken Node NodeAction)}
    (hrun : Trace (Node.step prim cfg) (· = Node.init) ok l n) (hp : n.peers id = some p)
    (hty : p.linkType = .nodeToAdapter) (hst : p.fsm.state = .active) :
    Since (Connects id p.uid p.data.credentials) (StaysConnected id p.uid) l := by
  induction hrun generalizing p with
  | start h =>
    subst h
    exact nomatch hp
  | @next l m m' act hrun hok h ih =>
    by_cases hup : ∃ q, m.peers id = some q ∧ q.uid = p.uid ∧ q.fsm.state = .active
    · obtain ⟨q, hq, hqu, hqs⟩ := hup
      have hs : m.Sound := .of_run hrun.run
      obtain ⟨q', hq', hsame, hkeep⟩ := step_upright hs h hp (hqu ▸ hs.below hq)
      cases hq.symm.trans hq'
      have hqty := hsame.linkType.symm.trans hty
      have hcr : p.data.credentials = q.data.credentials := by
        rcases (hkeep q.data.credentials ⟨hqty, .inl ⟨hqs, rfl⟩⟩).state with ⟨-, hcr⟩ | hends
        · exact hcr
        · rw [hst] at hends
          cases hends
      rw [hcr, ← hqu]
      exact .inr ⟨⟨q, p, hq, hp, rfl, hqu.symm, hqs, hst, hcr⟩, ih hq hqty hqs⟩
    · exact .inl ⟨fun q hq hqu hqs => hup ⟨q, hq, hqu, hqs⟩, p, hp, rfl, hst, rfl⟩

end

end ZprCore.Link
