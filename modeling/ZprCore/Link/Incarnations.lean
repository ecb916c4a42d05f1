-- SUMMARY: When a background activity of a former link leaves the link in its place alone.
import ZprCore.Link.Calm
import ZprCore.Link.Moves

/-!
# Incarnations of a link

The retry loop, an armed timeout, the wait for the acknowledgement of an init-authentication
request, an OIDC authentication, a signal of the key manager and the recording of an expiry all
look their link up by its id when they act. What they find may be another link, which got the id
after theirs was dropped. Some of them are kept from acting on it by a clock or a session number,
both of which start anew with every link, and some by nothing. `Spares` says for each of them in
which states the other link is left alone.
-/

namespace ZprCore.Link

open Handling Node

/-! ## What is left alone -/

/-- The activities considered here: the retry loop, timeouts, the init-authentication task, OIDC
    authentication, signals of the key manager, and those that record an expiry. -/
def Work.looksUpById : Work → Outcome → Bool
  | .zdprWorker _, _ | .timeout _, _ | .initAuth _, _ | .oidc _ _ _ _, _ | .saEstablished _, _
  | .authorize _ _, .authorized (.v6 _) _ | .deferredVsConnect _ _, .authorized _ _ => true
  | _, _ => false

/-- The link `p` under `id` is what it was, and nothing was started for it. -/
def LeavesAlone (n n' : Node) (id : LinkId) (p : PeerState) : Prop :=
  n'.peers id = some p ∧
    n'.activities.filter (·.owner = p.uid) = n.activities.filter (·.owner = p.uid)

/-- A state in which a timeout is acted upon. -/
def expectsTimeout : LinkType → LinkState → Prop
  | .adapterToNode, .waitForUserAuth | .adapterToNode, .registerAA | .adapterToNode, .helloing
  | .nodeToAdapter, .keying | _, .active | _, .closing => True
  | _, _ => False

/-- An entry that a retry tick does not change. -/
def isSteady : Zdpr.UnackedState Outgoing → Prop
  | .unacked _ _ retryLimit retryCount _ => retryLimit = none ∧ retryCount = 255
  | _ => True

/-- The expiry and everything that goes with it have been recorded before. -/
def HasRecorded (cfg : Config) (io : Io) (authExpires : Nat) (d : LinkData) : Prop :=
  d.authExpires = some (secs authExpires) ∧
    d.authRenewalDeadline =
      some (renewalDeadline io.now (secs authExpires) cfg.authRenewalLead) ∧
    d.renewalInFlight = false ∧ d.renewalNoAgentWarned = false

/-- When an activity does nothing to the link `p`, which is not the one it was started for. -/
def Spares (cfg : Config) (io : Io) (p : PeerState) : Work → Outcome → Prop
  | .timeout logicalClock, _ =>
    p.fsm.logicalClock ≠ logicalClock ∨ ¬expectsTimeout p.linkType p.fsm.state
  | .initAuth generation, _ =>
    p.zdprGeneration ≠ generation ∨
      ¬(p.linkType = .nodeToAdapter ∧ p.fsm.state = .waitForAcquireZprAddress)
  | .oidc attemptClock _ _ _, .agentReply (some (.ok _)) =>
    p.fsm.logicalClock ≠ attemptClock ∨
      ¬(p.fsm.state = .registerAA ∨ p.fsm.state = .waitForUserAuth)
  | .oidc attemptClock _ _ _, .agentReply _ => p.fsm.logicalClock ≠ attemptClock
  | .saEstablished sa, _ => p.transportSa = some sa ∧ p.fsm.state ≠ .keying
  | .authorize _ _, .authorized _ authExpires =>
    HasRecorded cfg io authExpires p.data ∧
      ¬(p.linkType = .nodeToAdapter ∧ p.fsm.state = .registerAA)
  | .deferredVsConnect _ _, .authorized _ authExpires => HasRecorded cfg io authExpires p.data
  | .zdprWorker (some (uid, true)), .due =>
    p.uid ≠ uid ∨ ∀ entry ∈ p.zdprSend.unacked, isSteady entry
  | _, _ => True

variable {prim : Primitives} {cfg : Config} {n n' : Node} {id : LinkId} {p : PeerState}
  {h : Handling} {clock : BitVec 64}

/-! ## Handlers that change the link -/

namespace Handling

/-- The clock is ahead of `clock` by at most three. -/
def Ahead (clock : BitVec 64) (h : Handling) : Prop :=
  h.peer.fsm.logicalClock = clock + 1 ∨ h.peer.fsm.logicalClock = clock + 2 ∨
    h.peer.fsm.logicalClock = clock + 3

theorem Ahead.ne (ha : h.Ahead clock) : h.peer.fsm.logicalClock ≠ clock := by
  rcases ha with ha | ha | ha <;> rw [ha] <;> intro heq <;> simp at heq

theorem failAndClose_ahead (cx : Context) (h : Handling) (reason : TerminateReason) :
    (h.failAndClose cx reason).1.Ahead h.peer.fsm.logicalClock := by
  by_cases hty : h.peer.linkType = .internal
  · rw [failAndClose, initiateClose, if_pos (show (h.setState .error).peer.linkType = _ from hty)]
    exact .inl rfl
  refine Marked.initiateClose (h := h.setState .error) (P := Ahead h.peer.fsm.logicalClock) hty
    (fun h' hm _ => .inr (.inl ?_)) fun h' hm => .inr (.inr ?_)
  all_goals obtain ⟨mark, hfsm⟩ := hm.fsm
  · change h'.peer.fsm.logicalClock + 1 = _
    rw [hfsm]
    exact BitVec.add_assoc ..
  · change h'.peer.fsm.logicalClock + 1 + 1 = _
    rw [hfsm, BitVec.add_assoc]
    exact BitVec.add_assoc ..

theorem processAuthenticationFailure_ahead (cx : Context) (h : Handling)
    (reason : AuthFailureReason) :
    (h.processAuthenticationFailure cx reason).1.Ahead h.peer.fsm.logicalClock :=
  (h.recordAuthFailure reason).failAndClose_ahead cx .other

theorem keepAliveTimeout_ahead (cx : Context) (h : Handling) :
    (h.keepAliveTimeout cx).1.Ahead h.peer.fsm.logicalClock := by
  unfold keepAliveTimeout
  split
  · exact .inl rfl
  dsimp only
  split
  · exact failAndClose_ahead cx _ _
  · exact .inl rfl

theorem mem_cleanUpLinkState (cx : Context) (hs : h.peer.fsm.state = .closing) :
    .spawn (.dropLink false) ∈ (h.cleanUpLinkState cx).effects := by
  unfold cleanUpLinkState
  rw [hs]
  exact List.mem_append_right _ (List.mem_singleton_self _)

theorem processTimeout_spec (cx : Context) (h : Handling) :
    (expectsTimeout h.peer.linkType h.peer.fsm.state ∧
      (h.processTimeout cx h.peer.fsm.logicalClock).1.Ahead h.peer.fsm.logicalClock) ∨
    (expectsTimeout h.peer.linkType h.peer.fsm.state ∧ h.peer.fsm.state = .closing ∧
      (h.processTimeout cx h.peer.fsm.logicalClock).1 = h.cleanUpLinkState cx) ∨
    (¬expectsTimeout h.peer.linkType h.peer.fsm.state ∧
      (h.processTimeout cx h.peer.fsm.logicalClock).1 = h) := by
  unfold processTimeout
  rw [if_neg (not_not.mpr rfl)]
  split
  · next hty hst => exact .inl ⟨by rw [hty, hst]; trivial, processAuthenticationFailure_ahead ..⟩
  · next hty hst => exact .inl ⟨by rw [hty, hst]; trivial, failAndClose_ahead ..⟩
  · next hty hst => exact .inl ⟨by rw [hty, hst]; trivial, failAndClose_ahead ..⟩
  · next hty hst => exact .inl ⟨by rw [hty, hst]; trivial, failAndClose_ahead ..⟩
  · next hst =>
    exact .inl ⟨by rw [hst]; cases h.peer.linkType <;> trivial, keepAliveTimeout_ahead ..⟩
  · next hst =>
    exact .inr (.inl ⟨by rw [hst]; cases h.peer.linkType <;> trivial, hst, rfl⟩)
  next h₁ h₂ h₃ h₄ h₅ h₆ =>
  refine .inr (.inr ⟨?_, rfl⟩)
  unfold expectsTimeout
  split <;> simp_all

theorem runActive_state (h : Handling) : h.runActive.1.peer.fsm.state = .active := by
  unfold runActive abortEcho
  split <;> rfl

/-- The clock moves on in the case `c`, and nothing happens in every other. -/
def ActsIf (c : Prop) (h h' : Handling) : Prop :=
  (c ∧ h'.Ahead h.peer.fsm.logicalClock) ∨ (¬c ∧ h' = h)

theorem processInitAuthAck_acts (h : Handling) :
    ActsIf (h.peer.linkType = .nodeToAdapter ∧ h.peer.fsm.state = .waitForAcquireZprAddress)
      h h.processInitAuthAck.1 := by
  unfold processInitAuthAck
  split
  · next hty hst => exact .inl ⟨⟨hty, hst⟩, .inl rfl⟩
  · next hno => exact .inr ⟨fun hw => hno hw.1 hw.2, rfl⟩

theorem processInitAuthTimeout_acts (cx : Context) (h : Handling) :
    ActsIf (h.peer.linkType = .nodeToAdapter ∧ h.peer.fsm.state = .waitForAcquireZprAddress)
      h (h.processInitAuthTimeout cx).1 := by
  unfold processInitAuthTimeout
  split
  · next hty hst => exact .inl ⟨⟨hty, hst⟩, failAndClose_ahead cx h _⟩
  · next hno => exact .inr ⟨fun hw => hno hw.1 hw.2, rfl⟩

theorem processAuthenticationSuccess_acts (cx : Context) (h : Handling) (blobs : List AuthBlob) :
    ActsIf (h.peer.fsm.state = .registerAA ∨ h.peer.fsm.state = .waitForUserAuth)
      h (h.processAuthenticationSuccess cx blobs).1 := by
  have hahead : ((((h.setAuthenticatedNamespaces (blobNamespaces blobs)).send
      (.acquireZprAddressRequest cx.zprAddr (cx.prim.encodeBlobs blobs))).setState
      .registerAA).setTimeout).Ahead h.peer.fsm.logicalClock := by
    refine .inr (.inl ?_)
    change h.peer.fsm.logicalClock + 1 + 1 = _
    rw [BitVec.add_assoc]
    rfl
  unfold processAuthenticationSuccess
  split
  · next hst => exact .inl ⟨.inl hst, hahead⟩
  · next hst => exact .inl ⟨.inr hst, hahead⟩
  · next haa huser => exact .inr ⟨fun hst => hst.elim haa huser, rfl⟩

end Handling

/-! ## Steps that leave the link alone, and steps that do not -/

theorem Node.apply_unchanged (hp : n.peers id = some p) (origin : Nat) :
    n.apply id origin ⟨p, []⟩ = n := by
  change n.setPeer id (some p) = n
  rw [setPeer, Function.update_eq_self_iff.mpr hp.symm]

theorem LeavesAlone.refl (hp : n.peers id = some p) : LeavesAlone n n id p := ⟨hp, rfl⟩

variable {io : Io} {origin authExpires : Nat} {event : LinkEvent} {a : Activity} {outcome : Outcome}
  {work : Work}

theorem raise_eq (hp : n.peers id = some p) (h : n.raise prim cfg io origin id event = some n') :
    n' = n.apply id origin (processEvent (n.context prim cfg io) ⟨p, []⟩ event).1 := by
  unfold raise processLinkStateEvent at h
  rw [hp] at h
  dsimp only at h
  split at h
  · cases h
  · cases h
    rfl

theorem raise_unchanged (hp : n.peers id = some p)
    (h : n.raise prim cfg io origin id event = some n')
    (hsame : (processEvent (n.context prim cfg io) ⟨p, []⟩ event).1 = ⟨p, []⟩) : n' = n := by
  rw [raise_eq hp h, hsame, Node.apply_unchanged hp]

theorem raise_leavesAlone (hp : n.peers id = some p)
    (h : n.raise prim cfg io origin id event = some n')
    (hsame : (processEvent (n.context prim cfg io) ⟨p, []⟩ event).1 = ⟨p, []⟩) :
    LeavesAlone n n' id p := by
  rw [raise_unchanged hp h hsame]
  exact .refl hp

theorem raise_peers_ne {q : PeerState} (hp : n.peers id = some q)
    (h : n.raise prim cfg io origin id event = some n')
    (hne : (processEvent (n.context prim cfg io) ⟨q, []⟩ event).1.peer ≠ p) :
    n'.peers id ≠ some p := by
  rw [raise_eq hp h]
  rw [apply_peers_self]
  split
  · nofun
  · exact fun heq => hne (Option.some.inj heq)

/-- A task that a handler starts is one more activity of the link, unless handlers can abort it. -/
theorem not_leavesAlone_of_spawn (huid : h.peer.uid = p.uid)
    (hw : .spawn work ∈ h.effects) (hk : work.isAbortable = false) :
    ¬LeavesAlone n (n.apply id origin h) id p := by
  intro hl
  have hfilter := @Node.filter_apply n id origin h
    (fun a => !a.work.isAbortable && decide (a.owner = p.uid)) (by simp +contextual)
  have hmem : (⟨id, h.peer.uid, origin, work⟩ : Activity) ∈
      spawned id h.peer.uid origin h.effects := mem_spawned.mpr ⟨work, hw, rfl⟩
  simp only [← List.filter_filter, hl.2, List.self_eq_append_right, List.filter_eq_nil_iff,
    List.mem_filter] at hfilter
  exact hfilter _ ⟨hmem, decide_eq_true huid⟩ (by simp [hk])

/-! ## Each activity -/

variable {f : PeerState → PeerState} {sa : KmTransportSA} {generation attemptClock : BitVec 64}
  {i : Nat}

theorem not_leavesAlone_of_ahead (hp : n.peers id = some p)
    (h : n.raise prim cfg io origin id event = some n')
    (ha : (processEvent (n.context prim cfg io) ⟨p, []⟩ event).1.Ahead
      p.fsm.logicalClock) : ¬LeavesAlone n n' id p := fun hl =>
  raise_peers_ne hp h (fun heq => ha.ne (by rw [heq])) hl.1

theorem raise_leavesAlone_iff {c : Prop} (hp : n.peers id = some p)
    (h : n.raise prim cfg io origin id event = some n')
    (hacts : ActsIf c ⟨p, []⟩ (processEvent (n.context prim cfg io) ⟨p, []⟩ event).1) :
    LeavesAlone n n' id p ↔ ¬c := by
  rcases hacts with ⟨hc, ha⟩ | ⟨hc, hsame⟩
  · exact iff_of_false (not_leavesAlone_of_ahead hp h ha) (not_not.mpr hc)
  · exact iff_of_true (raise_leavesAlone hp h hsame) hc

theorem timeout_leavesAlone_iff (hp : n.peers id = some p)
    (h : n.raise prim cfg io origin id (.timeout clock) = some n') :
    LeavesAlone n n' id p ↔
      p.fsm.logicalClock ≠ clock ∨ ¬expectsTimeout p.linkType p.fsm.state := by
  by_cases hclock : p.fsm.logicalClock = clock
  · subst hclock
    simp only [ne_eq, not_true_eq_false, false_or]
    rcases processTimeout_spec (n.context prim cfg io) ⟨p, []⟩ with
      ⟨hex, ha⟩ | ⟨hex, hst, heq⟩ | ⟨hex, heq⟩
    · exact iff_of_false (not_leavesAlone_of_ahead hp h ha) (not_not.mpr hex)
    · refine iff_of_false (fun hl => ?_) (not_not.mpr hex)
      -- a closing link looks the same, but the task that drops it has been started
      have c : Calm ⟨p, []⟩ (cleanUpLinkState (n.context prim cfg io) ⟨p, []⟩) :=
        Calm.closed.cleanUpLinkState (.refl _)
      rw [raise_eq hp h] at hl
      change LeavesAlone n (n.apply id origin (processTimeout _ _ _).1) id p at hl
      rw [heq] at hl
      exact not_leavesAlone_of_spawn c.same.uid (mem_cleanUpLinkState _ hst) rfl hl
    · exact iff_of_true (raise_leavesAlone hp h heq) hex
  · refine iff_of_true ?_ (.inl hclock)
    have hsame : (processEvent (n.context prim cfg io) ⟨p, []⟩ (.timeout clock)).1 =
        ⟨p, []⟩ := by
      change (processTimeout _ _ _).1 = _
      unfold processTimeout
      rw [if_pos (Ne.symm hclock)]
    exact raise_leavesAlone hp h hsame

theorem initAuth_leavesAlone_iff (hp : n.peers a.linkId = some p)
    (h : n.awaitAck prim cfg io a generation initAuthEvent outcome = some n') :
    LeavesAlone n n' a.linkId p ↔ p.zdprGeneration ≠ generation ∨
      ¬(p.linkType = .nodeToAdapter ∧ p.fsm.state = .waitForAcquireZprAddress) := by
  have hsame : n.sameSession a.linkId generation = (p.zdprGeneration == generation) := by
    rw [sameSession, hp, Option.any_some]
  unfold awaitAck at h
  rw [hsame] at h
  by_cases hgen : p.zdprGeneration = generation
  · have hbeq : (p.zdprGeneration == generation) = true := beq_iff_eq.mpr hgen
    simp only [hgen, ne_eq, not_true_eq_false, false_or]
    split at h
    · rw [if_pos hbeq] at h
      cases h
    rw [if_pos hbeq] at h
    obtain ⟨event, hevent, hraise⟩ := Option.bind_eq_some_iff.mp h
    refine raise_leavesAlone_iff hp hraise ?_
    unfold initAuthEvent at hevent
    split at hevent <;> cases hevent
    · exact processInitAuthAck_acts ⟨p, []⟩
    · exact processInitAuthTimeout_acts _ ⟨p, []⟩
  · have hbeq : ¬(p.zdprGeneration == generation) = true := fun hb => hgen (beq_iff_eq.mp hb)
    refine iff_of_true ?_ (.inl hgen)
    split at h
    · rw [if_neg hbeq] at h
      cases h
      exact .refl hp
    · rw [if_neg hbeq] at h
      cases h

theorem oidc_leavesAlone_iff {issuer : String} {challenge : Challenge}
    {baseBlobs : List AuthBlob} (hp : n.peers a.linkId = some p)
    (h : n.completeOidc prim cfg io a attemptClock issuer challenge baseBlobs outcome = some n') :
    LeavesAlone n n' a.linkId p ↔
      Spares cfg io p (.oidc attemptClock issuer challenge baseBlobs) outcome := by
  unfold completeOidc at h
  split at h
  · next reply =>
    rw [hp, Option.any_some] at h
    by_cases hclock : p.fsm.logicalClock = attemptClock
    · rw [if_pos (beq_iff_eq.mpr hclock)] at h
      have hfail (reason : AuthFailureReason)
          (h : n.raise prim cfg io a.owner a.linkId (.authenticationFailure reason) = some n') :
          ¬LeavesAlone n n' a.linkId p :=
        not_leavesAlone_of_ahead hp h (processAuthenticationFailure_ahead ..)
      cases reply with
      | none => exact iff_of_false (hfail _ h) (not_not.mpr hclock)
      | some reply =>
        cases reply with
        | error reason => exact iff_of_false (hfail _ h) (not_not.mpr hclock)
        | ok idToken =>
          refine (raise_leavesAlone_iff hp h (processAuthenticationSuccess_acts ..)).trans ?_
          exact (or_iff_right (not_not.mpr hclock)).symm
    · rw [if_neg (fun hb => hclock (beq_iff_eq.mp hb))] at h
      cases h
      refine iff_of_true (.refl hp) ?_
      cases reply with
      | none => exact hclock
      | some reply =>
        cases reply with
        | error reason => exact hclock
        | ok idToken => exact .inl hclock
  · cases h

theorem updatePeer_peers (hp : n.peers id = some p) :
    (n.updatePeer id f).peers id = some (f p) := by
  rw [updatePeer, setPeer_self, hp, Option.map_some]

theorem updatePeer_leavesAlone_iff (hp : n.peers id = some p) :
    LeavesAlone n (n.updatePeer id f) id p ↔ f p = p := by
  unfold LeavesAlone
  rw [updatePeer_peers hp, Option.some.injEq]
  exact and_iff_left rfl

theorem setTransportSa_eq_iff :
    { p with transportSa := some sa } = p ↔ p.transportSa = some sa := by
  constructor
  · intro h
    rw [← h]
  · cases p
    simp_all

theorem setAuthExpires_eq_iff :
    { p with data := p.data.setAuthExpires io.now (secs authExpires) cfg.authRenewalLead } = p ↔
      HasRecorded cfg io authExpires p.data := by
  constructor
  · intro h
    have hd : p.data.setAuthExpires io.now (secs authExpires) cfg.authRenewalLead = p.data :=
      congrArg PeerState.data h
    rw [← hd]
    exact ⟨rfl, rfl, rfl, rfl⟩
  · rintro ⟨h₁, h₂, h₃, h₄⟩
    have hd : p.data.setAuthExpires io.now (secs authExpires) cfg.authRenewalLead = p.data := by
      cases hdata : p.data
      simp_all [LinkData.setAuthExpires]
    rw [hd]

theorem saEstablished_leavesAlone_iff (hp : n.peers a.linkId = some p)
    (h : n.saEstablished prim cfg io a sa = some n') :
    LeavesAlone n n' a.linkId p ↔ p.transportSa = some sa ∧ p.fsm.state ≠ .keying := by
  have hp₁ : (n.setSecurityAssociation a.linkId sa).peers a.linkId =
      some { p with transportSa := some sa } := updatePeer_peers hp
  by_cases hst : p.fsm.state = .keying
  · refine iff_of_false (fun hl => raise_peers_ne hp₁ h (fun heq => ?_) hl.1)
      (fun hand => hand.2 hst)
    -- the link has left `Keying`
    have hstate : p.fsm.state = .helloing := by
      rw [← heq]
      change (processKeyingDone _ _).1.peer.fsm.state = _
      unfold processKeyingDone
      rw [if_neg (not_not.mpr hst)]
      dsimp only
      split <;> rfl
    rw [hst] at hstate
    cases hstate
  · have hsame : (processEvent ((n.setSecurityAssociation a.linkId sa).context prim cfg io)
        ⟨{ p with transportSa := some sa }, []⟩ .keyingDone).1 =
        ⟨{ p with transportSa := some sa }, []⟩ := by
      change (processKeyingDone _ _).1 = _
      unfold processKeyingDone
      rw [if_pos hst]
    rw [raise_unchanged hp₁ h hsame]
    simp only [hst, ne_eq, not_false_eq_true, and_true]
    exact (updatePeer_leavesAlone_iff hp).trans setTransportSa_eq_iff

theorem recordAuthExpires_leavesAlone_iff (hp : n.peers id = some p) :
    LeavesAlone n (n.recordAuthExpires cfg io id authExpires) id p ↔
      HasRecorded cfg io authExpires p.data :=
  (updatePeer_leavesAlone_iff hp).trans setAuthExpires_eq_iff

theorem authorize_leavesAlone_iff {request : ConnectRequest} {evidence : Evidence}
    {bits : BitVec 128} (hp : n.peers a.linkId = some p)
    (h : n.authorizeConnect prim cfg io a request evidence (.authorized (.v6 bits) authExpires) =
      some n') :
    LeavesAlone n n' a.linkId p ↔ HasRecorded cfg io authExpires p.data ∧
      ¬(p.linkType = .nodeToAdapter ∧ p.fsm.state = .registerAA) := by
  unfold authorizeConnect at h
  dsimp only at h
  obtain ⟨m, hm⟩ : ∃ m : Node, m = { n with
    answers := n.answers ++ [⟨a.owner, a.origin, request, evidence, .v6 bits⟩] } := ⟨_, rfl⟩
  rw [← hm] at h
  have hpm : m.peers a.linkId = some p := by rw [hm]; exact hp
  obtain ⟨p₁, hp₁def⟩ : ∃ p₁ : PeerState, p₁ = { p with
    data := p.data.setAuthExpires io.now (secs authExpires) cfg.authRenewalLead } := ⟨_, rfl⟩
  have hp₁ : (m.recordAuthExpires cfg io a.linkId authExpires).peers a.linkId = some p₁ := by
    rw [hp₁def]
    exact updatePeer_peers hpm
  have hty₁ : p₁.linkType = p.linkType := by rw [hp₁def]
  have hfsm₁ : p₁.fsm = p.fsm := by rw [hp₁def]
  by_cases hwait : p.linkType = .nodeToAdapter ∧ p.fsm.state = .registerAA
  · refine iff_of_false (fun hl => raise_peers_ne hp₁ h (fun heq => ?_) hl.1)
      (fun hand => hand.2 hwait)
    -- the link has become active
    have hstate : p.fsm.state = .active := by
      rw [← heq]
      change (processAuthorizeResponse _ _).1.peer.fsm.state = _
      unfold processAuthorizeResponse
      rw [hty₁, hfsm₁, hwait.1, hwait.2]
      exact runActive_state _
    rw [hwait.2] at hstate
    cases hstate
  · have hsame : (processEvent
        ((m.recordAuthExpires cfg io a.linkId authExpires).context prim cfg io) ⟨p₁, []⟩
        (.receivedAuthorizeResponse (.v6 bits))).1 = ⟨p₁, []⟩ := by
      change (processAuthorizeResponse _ _).1 = _
      unfold processAuthorizeResponse
      split
      · next hty hst => exact absurd ⟨hty₁ ▸ hty, hfsm₁ ▸ hst⟩ hwait
      · rfl
    rw [raise_unchanged hp₁ h hsame, and_iff_left hwait]
    have hiff : LeavesAlone m (m.recordAuthExpires cfg io a.linkId authExpires) a.linkId p ↔
        HasRecorded cfg io authExpires p.data := recordAuthExpires_leavesAlone_iff hpm
    rw [hm] at hiff ⊢
    exact hiff

theorem saturatingInc_eq_iff {c : UInt8} : Zdpr.UnackedState.saturatingInc c = c ↔ c = 255 := by
  unfold Zdpr.UnackedState.saturatingInc
  split
  · next hc => simp [hc]
  next hc =>
  refine iff_of_false (fun heq => ?_) hc
  have := congrArg UInt8.toNat heq
  change (c.toNat + 1) % 256 = c.toNat at this
  omega

theorem ageRetries_eq_iff (entry : Zdpr.UnackedState Outgoing) :
    entry.ageRetries.2 = entry ↔ isSteady entry := by
  cases entry with
  | unacked packet waker retryLimit retryCount forgotten =>
    cases retryLimit with
    | none =>
      simp only [Zdpr.UnackedState.ageRetries, isSteady, Zdpr.UnackedState.unacked.injEq, true_and,
        and_true]
      exact saturatingInc_eq_iff
    | some limit =>
      rw [Zdpr.UnackedState.ageRetries]
      split
      · exact iff_of_false (by rintro ⟨⟩) (by rintro ⟨⟨⟩, -⟩)
      next hlt =>
      refine iff_of_false (fun heq => ?_) (by rintro ⟨⟨⟩, -⟩)
      simp only [Zdpr.UnackedState.unacked.injEq, true_and, and_true] at heq
      -- a count of 255 has reached every limit
      rw [saturatingInc_eq_iff] at heq
      exact hlt (heq ▸ UInt8.le_iff_toNat_le.mpr (Nat.le_of_lt_succ limit.toNat_lt))
  | cancelRequested | acked | cancelAcked => exact iff_of_true rfl trivial

theorem retryTick_eq_iff {s : Zdpr.Sender Outgoing} :
    (Mgmt.retryTick s).1 = s ↔ ∀ entry ∈ s.unacked, isSteady entry := by
  have hmap : s.unacked.map (·.ageRetries.2) = s.unacked ↔ ∀ entry ∈ s.unacked, isSteady entry := by
    have hid : s.unacked.map (·.ageRetries.2) = s.unacked.map id ↔
        ∀ entry ∈ s.unacked, entry.ageRetries.2 = id entry := List.map_inj_left
    rw [List.map_id] at hid
    exact hid.trans (forall₂_congr fun entry _ => ageRetries_eq_iff entry)
  rw [← hmap]
  constructor
  · intro h
    exact congrArg Zdpr.Sender.unacked h
  · intro h
    unfold Mgmt.retryTick Zdpr.Sender.ageRetries
    rw [h]

theorem leavesAlone_concat_iff (hne : p.uid ≠ a.owner) :
    LeavesAlone n { n' with activities := n'.activities ++ [{ a with work }] } id p ↔
      LeavesAlone n n' id p := by
  unfold LeavesAlone
  rw [List.filter_append, List.filter_singleton, decide_eq_false (Ne.symm hne)]
  simp

theorem zdprWorker_leavesAlone_iff {held : Option (Nat × Bool)} (hp : n.peers a.linkId = some p)
    (hne : p.uid ≠ a.owner) (h : n.zdprWorker a held outcome = some n') :
    LeavesAlone n n' a.linkId p ↔ Spares cfg io p (.zdprWorker held) outcome := by
  unfold zdprWorker at h
  split at h
  · split at h
    · rw [hp] at h
      cases h
      exact iff_of_true ((leavesAlone_concat_iff hne).mpr (.refl hp)) trivial
    · cases h
    · next uid =>
      cases h
      refine (leavesAlone_concat_iff hne).trans ((updatePeer_leavesAlone_iff hp).trans ?_)
      change _ ↔ p.uid ≠ uid ∨ _
      by_cases huid : p.uid = uid
      · subst huid
        rw [if_pos rfl, ← retryTick_eq_iff]
        simp only [ne_eq, not_true_eq_false, false_or]
        constructor
        · intro heq
          exact congrArg PeerState.zdprSend heq
        · intro heq
          rw [heq]
      · rw [if_neg huid]
        exact iff_of_true rfl (.inl huid)
  · split at h
    · cases h
      refine iff_of_true ((leavesAlone_concat_iff hne).mpr (.refl hp)) ?_
      unfold Spares
      split <;> simp_all
    · cases h
  · cases h

/-! ## All of them -/

theorem filter_eraseIdx {α : Type} {q : α → Bool} {l : List α} {x : α}
    (hx : l[i]? = some x) (hq : q x = false) : (l.eraseIdx i).filter q = l.filter q := by
  induction l generalizing i with
  | nil => rfl
  | cons y l ih =>
    cases i with
    | zero =>
      cases hx
      rw [List.eraseIdx_cons_zero, List.filter_cons_of_neg (by simp [hq])]
    | succ i =>
      rw [List.eraseIdx_cons_succ, List.filter_cons, List.filter_cons, ih hx]

theorem leavesAlone_eraseIdx_iff (ha : n.activities[i]? = some a)
    (hne : p.uid ≠ a.owner) : LeavesAlone { n with activities := n.activities.eraseIdx i } n' id p ↔
      LeavesAlone n n' id p := by
  have hfilter : (n.activities.eraseIdx i).filter (·.owner = p.uid) =
      n.activities.filter (·.owner = p.uid) :=
    filter_eraseIdx ha (decide_eq_false (Ne.symm hne))
  unfold LeavesAlone
  rw [hfilter]

/-- An activity of another link leaves the link `p` in its place alone exactly if its guard, if
    it has one, keeps it away. -/
theorem other_incarnation_left_alone_iff {n n' : Node} {i : Nat} {outcome : Outcome} {io : Io}
    (hstep : n.step prim cfg (.run i outcome io) = some n') {a : Activity}
    (ha : n.activities[i]? = some a) (hwork : a.work.looksUpById outcome) {p : PeerState}
    (hp : n.peers a.linkId = some p) (hne : p.uid ≠ a.owner) :
    LeavesAlone n n' a.linkId p ↔ Spares cfg io p a.work outcome := by
  rw [← leavesAlone_eraseIdx_iff ha hne]
  dsimp only [step, runActivity] at hstep
  rw [ha] at hstep
  dsimp only at hstep
  split at hstep
  · cases hstep
  obtain ⟨linkId, owner, origin, work⟩ := a
  cases work with
  | timeout logicalClock =>
    cases outcome with
    | due => exact timeout_leavesAlone_iff hp hstep
    | _ => cases hstep
  | initAuth generation => exact initAuth_leavesAlone_iff hp hstep
  | oidc attemptClock issuer challenge baseBlobs => exact oidc_leavesAlone_iff hp hstep
  | saEstablished sa =>
    cases outcome with
    | due => exact saEstablished_leavesAlone_iff hp hstep
    | _ => cases hstep
  | zdprWorker held => exact zdprWorker_leavesAlone_iff hp hne hstep
  | authorize request evidence =>
    cases outcome with
    | authorized addr authExpires =>
      cases addr with
      | v4 bits => cases hwork
      | v6 bits => exact authorize_leavesAlone_iff hp hstep
    | _ => cases hwork
  | deferredVsConnect addr request =>
    cases outcome with
    | authorized addr' authExpires =>
      dsimp only [runWork, sendDeferredVsConnect] at hstep
      split at hstep
      · cases hstep
        exact recordAuthExpires_leavesAlone_iff hp
      · cases hstep
    | _ => cases hwork
  | _ => cases hwork

/-- A timeout of a former link finds its successor waiting for an acquire request. -/
theorem other_incarnation_left_alone_staleTimeout :
    ∃ n n' a p, Run (step samplePrimitives sampleConfig) (· = init) (fun _ _ => True) n ∧
      n.step samplePrimitives sampleConfig (.run 1 .due sampleIo) = some n' ∧
      n.activities[1]? = some a ∧ n.peers a.linkId = some p ∧ p.uid ≠ a.owner ∧
      LeavesAlone n n' a.linkId p := by
  obtain ⟨n, n', hrun, hn', a, ha, p, hp, hne, hty, hst, htimeout⟩ : ∃ n n', Run (step
      samplePrimitives sampleConfig) (· = init) (fun _ _ => True) n ∧
      n.step samplePrimitives sampleConfig (.run 1 .due sampleIo) = some n' ∧
      ∃ a, n.activities[1]? = some a ∧ ∃ p, n.peers a.linkId = some p ∧ p.uid ≠ a.owner ∧
        p.linkType = .nodeToAdapter ∧ p.fsm.state = .waitForAcquireZprAddress ∧
        (match a.work with | .timeout _ => true | _ => false) = true :=
    Run.reaches_some rfl (sampleHello 1 0 ++ sampleTerminate 3 ++ sampleHello 2 3) (by decide +kernel)
  split at htimeout
  · next clock hw =>
    refine ⟨n, n', a, p, hrun, hn', ha, hp, hne, ?_⟩
    refine (other_incarnation_left_alone_iff hn' ha (by rw [hw]; rfl) hp hne).mpr ?_
    rw [hw]
    exact .inr (by rw [hty, hst]; exact id)
  · cases htimeout

/-- The signal of a key manager waits in its queue while the link is reset and dropped, and its slot
    is given to another link. The keys are installed there, and take the link out of `Keying`. -/
theorem keys_installed_on_other_incarnation :
    ∃ n n' a p p', Run (step samplePrimitives sampleConfig) (· = init)
        (fun _ _ => True) n ∧
      n.step samplePrimitives sampleConfig (.run 2 .due sampleIo) = some n' ∧
      n.activities[2]? = some a ∧ a.work.looksUpById .due ∧ n.peers a.linkId = some p ∧
      p.uid ≠ a.owner ∧ n'.peers a.linkId = some p' ∧
      p.transportSa = none ∧ p'.transportSa = some (sampleSa 1 none) ∧
      p.fsm.state = .keying ∧ p'.fsm.state = .helloing := by
  let tether (key : UInt8) : NodeAction :=
    .startTether 5 .nodeToAdapter true (Vector.replicate 32 key) sampleIo
  obtain ⟨n, n', hrun, hn', a, ha, p, hp, p', hp', hwork, hne, hrest⟩ : ∃ n n', Run (step
      samplePrimitives sampleConfig) (· = init) (fun _ _ => True) n ∧
      n.step samplePrimitives sampleConfig (.run 2 .due sampleIo) = some n' ∧
      ∃ a, n.activities[2]? = some a ∧ ∃ p, n.peers a.linkId = some p ∧
        ∃ p', n'.peers a.linkId = some p' ∧ a.work.looksUpById .due ∧ p.uid ≠ a.owner ∧
          p.transportSa = none ∧ p'.transportSa = some (sampleSa 1 none) ∧ p.fsm.state = .keying ∧
          p'.fsm.state = .helloing :=
    Run.reaches_some rfl
      [tether 1, .run 1 (.established (sampleSa 1 none)) sampleIo, .command 5 .reset sampleIo,
        .run 3 .due sampleIo, .run 3 .due sampleIo, tether 2] (by decide +kernel)
  exact ⟨n, n', a, p, p', hrun, hn', ha, hwork, hp, hne, hp', hrest⟩

end ZprCore.Link
