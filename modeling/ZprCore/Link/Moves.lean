-- SUMMARY: What one step of a node can do to its links and activities.
import Mathlib.Logic.Relation
import ZprCore.Link.Closed
import ZprCore.Link.Node

/-!
# Moves of a node

A step of a node delivers an event to a link, or changes a link in one of a few other ways, and
starts or ends activities. `Move` has one constructor for each of these, and `step_moves` and
`runWork_moves` say of which moves a step consists. What every move keeps, every step keeps; what
only some moves keep is kept by the steps that consist of those.
-/

namespace ZprCore.Link

open Work Node

/-! ## A handler's effects on the node -/

/-- The work that a handler may abort. -/
def Work.isAbortable : Work → Bool
  | .echo _ _ | .adapterRenewal _ _ _ => true
  | _ => false

def Effect.isDropPeer : Effect → Bool
  | .dropPeer => true
  | _ => false

/-- The activities that a list of effects starts. -/
def spawned (id : LinkId) (uid origin : Nat) (es : List Effect) : List Activity :=
  es.filterMap fun
    | .spawn work => some ⟨id, uid, origin, work⟩
    | _ => none

variable {a : Activity} {id : LinkId}

theorem mem_spawned {uid origin : Nat} {es : List Effect} :
    a ∈ spawned id uid origin es ↔ ∃ work, .spawn work ∈ es ∧ a = ⟨id, uid, origin, work⟩ := by
  rw [spawned, List.mem_filterMap]
  constructor
  · rintro ⟨e, he, ha⟩
    cases e with
    | spawn work => exact ⟨work, he, (Option.some.inj ha).symm⟩
    | _ => cases ha
  · rintro ⟨work, he, rfl⟩
    exact ⟨_, he, rfl⟩

variable {p' : PeerState} {act : NodeAction} {p : PeerState} {n n' : Node} {prim : Primitives}
  {cfg : Config} {ls : List Label} {io : Io}

namespace Node

section

variable {id id' : LinkId} {uid origin : Nat} {h : Handling} {q : Activity → Bool}

theorem filter_abort {kind : Work → Bool} (hq : ∀ a, q a = true → kind a.work = false) :
    (n.abort uid kind).activities.filter q = n.activities.filter q := by
  rw [abort, List.filter_filter]
  refine List.filter_congr fun a _ => ?_
  cases hqa : q a with
  | false => rfl
  | true => simp [hq a hqa]

theorem filter_applyEffect (e : Effect) (hq : ∀ a, q a = true → a.work.isAbortable = false) :
    (applyEffect id uid origin n e).activities.filter q =
      n.activities.filter q ++ (spawned id uid origin [e]).filter q := by
  cases e with
  | spawn work => exact List.filter_append ..
  | abortEcho handle =>
    rw [applyEffect, filter_abort]
    · exact (List.append_nil _).symm
    · intro a ha
      have := hq a ha
      cases hw : a.work <;> simp_all [isAbortable, isEcho]
  | abortAdapterRenewal challenge =>
    rw [applyEffect, filter_abort]
    · exact (List.append_nil _).symm
    · intro a ha
      have := hq a ha
      cases hw : a.work <;> simp_all [isAbortable, isAdapterRenewal]
  | assignSpecialName =>
    rw [applyEffect]
    split <;> exact (List.append_nil _).symm
  | _ => exact (List.append_nil _).symm

/-- Of the activities that are not aborted by handlers, those of before stay, and those that the
    handler starts are added. -/
theorem filter_apply (hq : ∀ a, q a = true → a.work.isAbortable = false) :
    (n.apply id origin h).activities.filter q =
      n.activities.filter q ++ (spawned id h.peer.uid origin h.effects).filter q := by
  have hfold : ∀ (es : List Effect) (m : Node),
      (es.foldl (applyEffect id h.peer.uid origin) m).activities.filter q =
        m.activities.filter q ++ (spawned id h.peer.uid origin es).filter q := by
    intro es
    induction es with
    | nil => exact fun m => (List.append_nil _).symm
    | cons e es ih =>
      intro m
      have hcons : spawned id h.peer.uid origin (e :: es) =
          spawned id h.peer.uid origin [e] ++ spawned id h.peer.uid origin es :=
        List.filterMap_append (l := [e])
      rw [List.foldl_cons, ih, filter_applyEffect e hq, hcons, List.filter_append,
        List.append_assoc]
  exact hfold h.effects _

theorem mem_apply (ha : a.work.isAbortable = false) :
    a ∈ (n.apply id origin h).activities ↔
      a ∈ n.activities ∨ a ∈ spawned id h.peer.uid origin h.effects := by
  have hfilter := @filter_apply n id origin h (fun b => !b.work.isAbortable) (by simp)
  have hmem : ∀ l : List Activity, a ∈ l.filter (fun b => !b.work.isAbortable) ↔ a ∈ l := by
    simp [List.mem_filter, ha]
  rw [← hmem, hfilter, List.mem_append, hmem, hmem]

theorem applyEffect_peers_ne (e : Effect) (hne : id' ≠ id) :
    (applyEffect id uid origin n e).peers id' = n.peers id' := by
  cases e with
  | dropPeer => exact setPeer_of_ne _ _ hne
  | assignSpecialName =>
    rw [applyEffect]
    split <;> rfl
  | _ => rfl

theorem applyEffect_nextUid (e : Effect) : (applyEffect id uid origin n e).nextUid = n.nextUid := by
  cases e with
  | assignSpecialName =>
    rw [applyEffect]
    split <;> rfl
  | _ => rfl

theorem applyEffect_peers_self (e : Effect) :
    (applyEffect id uid origin n e).peers id = if e.isDropPeer then none else n.peers id := by
  cases e with
  | dropPeer => exact setPeer_self n id none
  | assignSpecialName =>
    rw [applyEffect]
    split <;> rfl
  | _ => rfl

theorem apply_peers_ne (hne : id' ≠ id) : (n.apply id origin h).peers id' = n.peers id' :=
  List.foldlRecOn (motive := fun m : Node => m.peers id' = n.peers id') h.effects _
    (setPeer_of_ne n _ hne) fun _ hm e _ => (applyEffect_peers_ne e hne).trans hm

theorem apply_nextUid : (n.apply id origin h).nextUid = n.nextUid :=
  List.foldlRecOn (motive := fun m : Node => m.nextUid = n.nextUid) h.effects _ rfl
    fun _ hm e _ => (applyEffect_nextUid e).trans hm

theorem apply_peers_self :
    (n.apply id origin h).peers id = if h.effects.any (·.isDropPeer) then none else some h.peer := by
  have hfold : ∀ (es : List Effect) (m : Node),
      (es.foldl (applyEffect id h.peer.uid origin) m).peers id =
        if es.any (·.isDropPeer) then none else m.peers id := by
    intro es
    induction es with
    | nil => exact fun m => rfl
    | cons e es ih =>
      intro m
      rw [List.foldl_cons, ih, applyEffect_peers_self, List.any_cons]
      cases e.isDropPeer <;> simp
  rw [apply, hfold, setPeer_self]

theorem apply_back (h' : (n.apply id origin h).peers id' = some p') :
    id' ≠ id ∧ n.peers id' = some p' ∨
      id' = id ∧ h.effects.any (·.isDropPeer) = false ∧ p' = h.peer := by
  by_cases hid : id' = id
  · subst hid
    rw [apply_peers_self] at h'
    split at h'
    · cases h'
    · next hd => exact .inr ⟨rfl, Bool.eq_false_iff.mpr hd, (Option.some.inj h').symm⟩
  · exact .inl ⟨hid, apply_peers_ne hid ▸ h'⟩

theorem setPeer_back {q : PeerState} (h' : (n.setPeer id (some q)).peers id' = some p') :
    id' ≠ id ∧ n.peers id' = some p' ∨ id' = id ∧ p' = q := by
  by_cases hid : id' = id
  · subst hid
    exact .inr ⟨rfl, Option.some.inj (h'.symm.trans (setPeer_self n id' _))⟩
  · exact .inl ⟨hid, (setPeer_of_ne n _ hid).symm.trans h'⟩

end

end Node

/-! ## The clean-up -/

namespace Handling

variable {cx : Context} {h : Handling}

theorem releaseAaaAddress_fsm : h.releaseAaaAddress.peer.fsm = h.peer.fsm := by
  unfold releaseAaaAddress
  split <;> rfl

theorem deregisterActorAddresses_fsm :
    ∃ addrs, (h.deregisterActorAddresses cx).peer.fsm = { h.peer.fsm with actorAddresses := addrs } := by
  unfold deregisterActorAddresses
  split
  · exact ⟨_, rfl⟩
  refine ⟨[], ?_⟩
  exact List.foldlRecOn
    (motive := fun h' : Handling => h'.peer.fsm = { h.peer.fsm with actorAddresses := [] })
    h.peer.fsm.actorAddresses _ rfl fun _ hh _ _ => hh

theorem cleanUpByType_fsm :
    ∃ addrs, (h.cleanUpByType cx).peer.fsm = { h.peer.fsm with actorAddresses := addrs } := by
  unfold cleanUpByType
  split
  · exact ⟨_, rfl⟩
  · exact deregisterActorAddresses_fsm
  · exact ⟨_, rfl⟩

theorem cleanUpLinkState_fsm :
    ∃ addrs, (h.cleanUpLinkState cx).peer.fsm = { h.peer.fsm with actorAddresses := addrs } := by
  have hclean : ∃ addrs,
      (((h.releaseAaaAddress.emit .clearPeerState).cleanUpByType cx).spawn (.dropLink false)).peer.fsm =
        { h.peer.fsm with actorAddresses := addrs } := by
    obtain ⟨addrs, haddrs⟩ := @cleanUpByType_fsm cx (h.releaseAaaAddress.emit .clearPeerState)
    refine ⟨addrs, haddrs.trans ?_⟩
    rw [← @releaseAaaAddress_fsm h]
    rfl
  unfold cleanUpLinkState
  split
  · exact hclean
  · exact hclean
  · exact ⟨_, rfl⟩

end Handling

/-! ## Moves -/

/-- A change of a link that its state machine and the renewal of its credentials do not see. -/
structure Edit (p p' : PeerState) : Prop where
  same : SameLink p p'
  fsm : p'.fsm = p.fsm
  data : ∃ agent, p'.data = { p.data with authAgent := agent }

theorem Edit.of_data_eq (same : SameLink p p') (fsm : p'.fsm = p.fsm)
    (data : p'.data = p.data) : Edit p p' :=
  ⟨same, fsm, p.data.authAgent, data⟩

theorem Edit.kept (he : Edit p p') : Kept p p' := by
  obtain ⟨agent, hdata⟩ := he.data
  exact ⟨he.same, he.fsm, hdata ▸ rfl⟩

/-- How a renewal task changes the link that it was started for. -/
inductive Settlement where
  | fail (reason : AuthFailureReason)
  | submit (addr : IpAddr) (blobs : List VsBlob)
  | giveUp (challenge : Challenge) (reason : AuthFailureReason)
  | renew (now authExpires lead : Nat)

def Settlement.run : Settlement → Handling → Handling
  | .fail reason, h => h.finishRenewalFailure reason
  | .submit addr blobs, h => h.spawn (.reauthorizing addr blobs)
  | .giveUp challenge reason, h =>
    match h.peer.data.takeRenewalChallengeIf challenge with
    | (false, _) => h
    | (true, d) => (h.mapData fun _ => d).finishRenewalFailure reason
  | .renew now authExpires lead, h => h.mapData fun d => d.setAuthExpires now authExpires lead

/-- Work that is started by a step itself and not by a handler. -/
def Work.isLoose : Work → Bool
  | .zdprWorker _ | .saEstablished _ | .dropLink true | .deferredVsConnect _ _ => true
  | _ => false

/-- The kinds of moves, with the link they are about. -/
inductive Label where
  | event (id : LinkId) (event : LinkEvent)
  | reset (id : LinkId)
  | renewNow (id : LinkId)
  | settle (id : LinkId)
  | edit (id : LinkId)
  | expires (id : LinkId)
  | stopKm (id : LinkId)
  | create (id : LinkId)
  | add
  | receive
  | note

/-- Two nodes with the same links and activities. The second may have more answers of the visa
    service, and has no new request put off. -/
structure SameLinks (n n' : Node) : Prop where
  peers : n'.peers = n.peers
  activities : n'.activities = n.activities
  nextUid : n'.nextUid = n.nextUid
  vsPeer : n'.vsPeer = n.vsPeer
  received : n'.received = n.received
  answers : n.answers ⊆ n'.answers
  deferred : ∀ a ∈ n'.deferredVsConnect, a ∈ n.deferredVsConnect

section

variable (prim : Primitives) (cfg : Config)

inductive Move : Label → Node → Node → Prop where
  | event {n : Node} {id : LinkId} {p : PeerState} (io : Io) (origin : Nat) (e : LinkEvent)
      (hp : n.peers id = some p) :
      Move (.event id e) n
        (n.apply id origin (Handling.processEvent (n.context prim cfg io) ⟨p, []⟩ e).1)
  | reset {n : Node} {id : LinkId} {p : PeerState} (io : Io) (hp : n.peers id = some p) :
      Move (.reset id) n
        (n.apply id p.uid (Handling.reset (n.context prim cfg io) ⟨p, []⟩))
  | renewNow {n : Node} {id : LinkId} {p : PeerState} (io : Io) (hp : n.peers id = some p) :
      Move (.renewNow id) n
        (n.apply id p.uid (Handling.requestRenewalNow (n.context prim cfg io) ⟨p, []⟩).1)
  | settle {n : Node} {id : LinkId} {p : PeerState} (s : Settlement) (hp : n.peers id = some p) :
      Move (.settle id) n (n.apply id p.uid (s.run ⟨p, []⟩))
  | edit {n : Node} {id : LinkId} {p p' : PeerState} (hp : n.peers id = some p) (he : Edit p p') :
      Move (.edit id) n (n.setPeer id (some p'))
  | expires {n : Node} {id : LinkId} {p : PeerState} (now authExpires lead : Nat)
      (hp : n.peers id = some p) :
      Move (.expires id) n (n.setPeer id
        (some { p with data := p.data.setAuthExpires now authExpires lead }))
  | stopKm {n : Node} {id : LinkId} {p : PeerState} (hp : n.peers id = some p) :
      Move (.stopKm id) n (n.abort p.uid isKeyManager)
  | create {n : Node} {id : LinkId} (linkType : LinkType) (key : AuthKey)
      (hp : n.peers id = none) :
      Move (.create id) n
        { n.setPeer id (some (.new id n.nextUid linkType key)) with nextUid := n.nextUid + 1 }
  | add {n : Node} {a : Activity} (ha : a.work.isLoose = true) :
      Move .add n { n with activities := n.activities ++ [a] }
  | receive {n : Node} (id : LinkId) (uid : Nat) (msg : Incoming) :
      Move .receive n { n with
        activities := n.activities ++ [⟨id, uid, uid, .message msg⟩]
        received := n.received ++ [(uid, msg)] }
  | note {n n' : Node} (hs : SameLinks n n') : Move .note n n'

def Moves (ls : List Label) : Node → Node → Prop :=
  Relation.ReflTransGen fun n n' => ∃ l ∈ ls, Move prim cfg l n n'

end

namespace Moves

variable {ls' : List Label} {m : Node}

theorem refl : Moves prim cfg ls n n := Relation.ReflTransGen.refl

theorem single {l : Label} (hl : l ∈ ls) (h : Move prim cfg l n n') : Moves prim cfg ls n n' :=
  Relation.ReflTransGen.single ⟨l, hl, h⟩

theorem trans (h : Moves prim cfg ls n m) (h' : Moves prim cfg ls m n') : Moves prim cfg ls n n' :=
  Relation.ReflTransGen.trans h h'

theorem invariant {P : Node → Prop} (hP : ∀ {l m m'}, l ∈ ls → P m → Move prim cfg l m m' → P m')
    (h : Moves prim cfg ls n n') (hn : P n) : P n' := by
  induction h with
  | refl => exact hn
  | tail _ hmove ih =>
    obtain ⟨l, hl, hm⟩ := hmove
    exact hP hl ih hm

/-! ## The parts of a step -/

variable {origin : Nat} {id : LinkId} {a : Activity} {e : LinkEvent}

theorem processLinkStateEvent (hl : .event id e ∈ ls) :
    Moves prim cfg ls n (n.processLinkStateEvent prim cfg io origin id e).1 := by
  unfold Node.processLinkStateEvent
  split
  · exact .refl
  · next p hp => exact .single hl (.event io origin e hp)

theorem raise (hl : .event id e ∈ ls)
    (h : n.raise prim cfg io origin id e = some n') : Moves prim cfg ls n n' := by
  unfold Node.raise at h
  dsimp only at h
  split at h
  · cases h
  · cases h
    exact .processLinkStateEvent hl

theorem updatePeer {f : PeerState → PeerState} (hl : .edit id ∈ ls) (hf : ∀ p, Edit p (f p)) :
    Moves prim cfg ls n (n.updatePeer id f) := by
  cases hp : n.peers id with
  | none =>
    rw [updatePeer_none f hp]
    exact .refl
  | some p =>
    rw [Node.updatePeer, hp]
    exact .single hl (.edit hp (hf p))

theorem recordAuthExpires {authExpires : Nat} (hl : .expires id ∈ ls) :
    Moves prim cfg ls n (n.recordAuthExpires cfg io id authExpires) := by
  cases hp : n.peers id with
  | none =>
    rw [Node.recordAuthExpires, updatePeer_none _ hp]
    exact .refl
  | some p =>
    rw [Node.recordAuthExpires, Node.updatePeer, hp]
    exact .single hl (.expires _ _ _ hp)

theorem updateOwner {f : Handling → Handling} (hl : .settle a.linkId ∈ ls)
    (hf : ∀ h, ∃ s : Settlement, f h = s.run h) : Moves prim cfg ls n (n.updateOwner a f) := by
  unfold Node.updateOwner
  split
  · exact .refl
  next p hp =>
  split
  · next hu =>
    obtain ⟨s, hs⟩ := hf ⟨p, []⟩
    rw [hs, ← hu]
    exact .single hl (.settle s hp)
  · exact .refl

theorem send {msg : Outgoing} (hl : .edit a.linkId ∈ ls) :
    Moves prim cfg ls n (n.updateOwner a fun h => h.send msg) := by
  unfold Node.updateOwner
  split
  · exact .refl
  next p hp =>
  split
  · exact .single hl (.edit hp (.of_data_eq ⟨rfl, rfl, rfl, rfl⟩ rfl rfl))
  · exact .refl

theorem add {b : Activity} (hl : .add ∈ ls) (hb : b.work.isLoose = true) :
    Moves prim cfg ls n { n with activities := n.activities ++ [b] } :=
  .single hl (.add hb)

end Moves

/-! ## The moves of a step -/

def Incoming.labels (cfg : Config) (id : LinkId) (msg : Incoming) : List Label :=
  if msg.isRefused cfg then [.event id .error]
  else
    match msg.event with
    | none => []
    | some e => [.edit id, .event id e, .event id .error]

def Work.labels (prim : Primitives) (cfg : Config) (id : LinkId) : Work → Outcome → List Label
  | .timeout clock, _ => [.event id (.timeout clock)]
  | .initAuth _, _ => [.event id .receivedInitAuthAck, .event id .receivedInitAuthTimeout]
  | .echo _ _, _ => [.event id .receivedKeepAliveResponse]
  | .terminate _, _ => [.event id .receivedTerminateAck]
  | .oidc _ issuer challenge baseBlobs, .agentReply reply =>
    [.event id (oidcEvent prim issuer challenge baseBlobs reply)]
  | .authorize _ _, .authorized (.v4 _) _ => [.note, .event id .error]
  | .authorize _ _, .authorized (.v6 bits) _ =>
    [.note, .expires id, .event id (.receivedAuthorizeResponse (.v6 bits))]
  | .authorize _ _, .refused error => [.event id (authorizeFailureEvent error)]
  | .deferredVsConnect _ _, _ => [.expires id]
  | .stopVsconn _, _ => [.event id .receivedDisconnectAck]
  | .dropLink false, _ => [.edit id, .stopKm id, .add]
  | .dropLink true, _ => [.event id .closeDone]
  | .restart, _ => [.event id .start]
  | .keyManager, _ => [.add]
  | .saEstablished _, _ => [.edit id, .event id .keyingDone]
  | .zdprWorker _, _ => [.edit id, .add]
  | .renewalReply _ _ _, _ | .renewalTimeout _ _, _ | .reauthorize _, _ | .reauthorizing _ _, _ =>
    [.settle id]
  | .adapterRenewal _ _ _, _ => [.edit id]
  | .message msg, _ => msg.labels cfg id
  | _, _ => []

section

variable {a : Activity} {outcome : Outcome} {issuer : String}

theorem processMessage_moves {msg : Incoming} (h : n.processMessage prim cfg io a msg = some n') :
    Moves prim cfg (msg.labels cfg a.linkId) n n' := by
  unfold processMessage at h
  unfold Incoming.labels
  split at h
  · next href =>
    rw [if_pos href]
    exact .raise (by simp) h
  next href =>
  rw [if_neg href]
  cases he : msg.event with
  | none =>
    simp only [he] at h
    cases h
    exact .refl
  | some e =>
    simp only [he] at h
    have hpubkey : Moves prim cfg [.edit a.linkId, .event a.linkId e, .event a.linkId .error] n
        (n.applyPubkey a.linkId msg) := by
      unfold applyPubkey
      split
      · exact .updatePeer (by simp) fun p => .of_data_eq ⟨rfl, rfl, rfl, rfl⟩ rfl rfl
      · exact .refl
    refine hpubkey.trans ?_
    split at h
    · cases h
      exact .processLinkStateEvent (by simp)
    · exact .trans (.processLinkStateEvent (by simp)) (.raise (by simp) h)
    · cases h

theorem awaitAck_moves {generation : BitVec 64} {event : Outcome → Option LinkEvent}
    (hl : ∀ o e, event o = some e → .event a.linkId e ∈ ls)
    (h : n.awaitAck prim cfg io a generation event outcome = some n') : Moves prim cfg ls n n' := by
  unfold awaitAck at h
  split at h
  · split at h
    · cases h
    · cases h
      exact .refl
  · split at h
    · obtain ⟨e, he, hr⟩ := Option.bind_eq_some_iff.mp h
      exact .raise (hl _ _ he) hr
    · cases h

theorem authorizeConnect_moves {request : ConnectRequest} {evidence : Evidence}
    (h : n.authorizeConnect prim cfg io a request evidence outcome = some n') :
    Moves prim cfg ((authorize request evidence).labels prim cfg a.linkId outcome) n n' := by
  have hnote {ls : List Label} {answer : Answer} (hl : .note ∈ ls) :
      Moves prim cfg ls n { n with answers := n.answers ++ [answer] } :=
    have hs : SameLinks n { n with answers := n.answers ++ [answer] } :=
      ⟨rfl, rfl, rfl, rfl, rfl, List.subset_append_left _ _, fun _ ha => ha⟩
    .single hl (.note hs)
  unfold authorizeConnect at h
  split at h
  · next addr authExpires =>
    cases addr with
    | v4 bits => exact .trans (hnote (by simp [labels])) (.raise (by simp [labels]) h)
    | v6 bits =>
      exact ((hnote (by simp [labels])).trans (.recordAuthExpires (by simp [labels]))).trans
        (.raise (by simp [labels]) h)
  · exact .raise (by simp [labels]) h
  · cases h

theorem dropLink_moves {dropped : Bool} (h : n.dropLink prim cfg io a dropped = some n') :
    Moves prim cfg ((dropLink dropped).labels prim cfg a.linkId outcome) n n' := by
  cases dropped with
  | true => exact .raise (by simp [labels]) h
  | false =>
    cases h
    refine .trans ?_ (.add (by simp [labels]) rfl)
    cases hp : n.peers a.linkId with
    | none => exact .refl
    | some p =>
      let p' := { p with transportSa := none, kmHandle := false }
      have hedit : Edit p p' := .of_data_eq ⟨rfl, rfl, rfl, rfl⟩ rfl rfl
      have hp' : (n.setPeer a.linkId (some p')).peers a.linkId = some p' := n.setPeer_self _ _
      have hstop : Move prim cfg (.stopKm a.linkId) (n.setPeer a.linkId (some p'))
          ((n.setPeer a.linkId (some p')).abort p'.uid isKeyManager) := .stopKm hp'
      exact .trans (.single (by simp [labels]) (.edit hp hedit))
        (.single (by simp [labels]) hstop)

theorem saEstablished_moves {sa : KmTransportSA} (h : n.saEstablished prim cfg io a sa = some n') :
    Moves prim cfg [.edit a.linkId, .event a.linkId .keyingDone] n n' := by
  have hedit : Moves prim cfg [.edit a.linkId, .event a.linkId .keyingDone] n
      (n.setSecurityAssociation a.linkId sa) :=
    .updatePeer (by simp) fun p => .of_data_eq ⟨rfl, rfl, rfl, rfl⟩ rfl rfl
  exact hedit.trans (.raise (by simp) h)

theorem zdprWorker_moves {held : Option (Nat × Bool)} (h : n.zdprWorker a held outcome = some n') :
    Moves prim cfg [.edit a.linkId, .add] n n' := by
  unfold Node.zdprWorker at h
  split at h
  · split at h
    · split at h
      · cases h
        exact .refl
      · cases h
        exact .add (by simp) rfl
    · cases h
    · cases h
      refine .trans (.updatePeer (by simp) fun p => ?_) (.add (by simp) rfl)
      split
      · exact .of_data_eq ⟨rfl, rfl, rfl, rfl⟩ rfl rfl
      · exact .of_data_eq (.refl p) rfl rfl
  · split at h
    · cases h
      exact .add (by simp) rfl
    · cases h
  · cases h

theorem submitRenewalReauthorize_moves {blobs : List VsBlob} (hl : .settle a.linkId ∈ ls) :
    Moves prim cfg ls n (n.submitRenewalReauthorize cfg a blobs) := by
  refine .updateOwner hl fun h => ?_
  split
  · exact ⟨.fail _, rfl⟩
  · split
    · exact ⟨.fail _, rfl⟩
    · next addr _ _ => exact ⟨.submit addr blobs, rfl⟩

theorem handleRenewalReply_moves {nonce : String} {timeout : Nat} (hl : .settle a.linkId ∈ ls)
    (h : n.handleRenewalReply prim cfg a issuer nonce timeout outcome = some n') :
    Moves prim cfg ls n n' := by
  unfold handleRenewalReply at h
  split at h
  · cases h
    exact submitRenewalReauthorize_moves hl
  · cases h
    exact .updateOwner hl fun h => ⟨.fail _, rfl⟩
  · cases h
    exact .updateOwner hl fun h => ⟨.fail _, rfl⟩
  · cases h
    exact .updateOwner hl fun h => ⟨.fail _, rfl⟩
  · cases h

theorem completeReauthorize_moves (hl : .settle a.linkId ∈ ls)
    (h : n.completeReauthorize cfg io a outcome = some n') : Moves prim cfg ls n n' := by
  unfold completeReauthorize at h
  split at h
  · cases h
    exact .updateOwner hl fun h => ⟨.renew _ _ _, rfl⟩
  · cases h
    exact .updateOwner hl fun h => ⟨.fail _, rfl⟩
  · cases h

theorem completeAdapterRenewal_moves {challenge : Challenge} {ssBlob : Option AuthBlob}
    (hl : .edit a.linkId ∈ ls)
    (h : n.completeAdapterRenewal prim a challenge issuer ssBlob outcome = some n') :
    Moves prim cfg ls n n' := by
  unfold completeAdapterRenewal at h
  split at h
  · cases h
    exact .send hl
  · cases h
    exact .send hl
  · cases h

theorem runWork_moves (h : n.runWork prim cfg io a outcome = some n') :
    Moves prim cfg (a.work.labels prim cfg a.linkId outcome) n n' := by
  unfold runWork at h
  generalize a.work = w at h ⊢
  split at h
  · exact .raise (by simp [labels]) h
  · refine awaitAck_moves (fun o e he => ?_) h
    cases o <;> cases he <;> simp [labels]
  · refine awaitAck_moves (fun o e he => ?_) h
    cases o <;> cases he
    simp [labels]
  · refine awaitAck_moves (fun o e he => ?_) h
    cases o <;> cases he
    simp [labels]
  · unfold completeOidc at h
    split at h
    · split at h
      · exact .raise (by simp [labels]) h
      · cases h
        exact .refl
    · cases h
  · exact authorizeConnect_moves h
  · unfold sendDeferredVsConnect at h
    split at h
    · split at h
      · cases h
        exact .recordAuthExpires (by simp [labels])
      · cases h
    · cases h
  · exact .raise (by simp [labels]) h
  · cases h
    exact .refl
  · exact dropLink_moves h
  · unfold Node.restart at h
    dsimp only at h
    split at h
    · cases h
      exact .refl
    · exact .raise (by simp [labels]) h
  · cases h
    exact .add (by simp [labels]) rfl
  · exact saEstablished_moves h
  · exact zdprWorker_moves h
  · exact handleRenewalReply_moves (by simp [labels]) h
  · next challenge _ =>
    cases h
    exact .updateOwner (by simp [labels]) fun h => ⟨.giveUp challenge _, rfl⟩
  · cases h
    exact submitRenewalReauthorize_moves (by simp [labels])
  · exact completeReauthorize_moves (by simp [labels]) h
  · exact completeAdapterRenewal_moves (by simp [labels]) h
  · cases h
    exact .refl
  · exact processMessage_moves h
  · cases h

end

def Node.labels (prim : Primitives) (cfg : Config) (n : Node) : NodeAction → List Label
  | .insertInternalPeer id => [.create id]
  | .startTether id _ _ _ _ => [.create id, .add, .event id .start]
  | .receive _ _ => [.receive]
  | .takeDeferredVsConnect => [.note, .add]
  | .sendMgmt id _ | .acknowledgement id _ _ => [.edit id]
  | .command id (.event e) _ => [.event id e]
  | .command id .reset _ => [.reset id]
  | .command id .requestRenewalNow _ => [.renewNow id]
  | .command id (.setAuthAgent _) _ | .command id (.clearAuthAgentIf _) _ => [.edit id]
  | .run i outcome _ =>
    match n.activities[i]? with
    | none => []
    | some a => a.work.labels prim cfg a.linkId outcome

/-- The node without the activity that acts in a step. -/
def Node.release (n : Node) : NodeAction → Node
  | .run i _ _ => { n with activities := n.activities.eraseIdx i }
  | _ => n

/-- Only a request to register the visa service adapter is put off. -/
def Node.DeferredLoose (n : Node) : Prop := ∀ a ∈ n.deferredVsConnect, a.work.isLoose = true

theorem startTether_moves {linkType : LinkType} {autoStart : Bool} {key : AuthKey}
    (h : n.startTether prim cfg io id linkType autoStart key = some n') :
    Moves prim cfg [.create id, .add, .event id .start] n n' := by
  unfold startTether at h
  split at h
  · cases h
  next hid =>
  split at h
  · have hnone : n.peers id = none := by
      simpa using (not_or.mp hid).2
    have hcreate : Moves prim cfg [.create id, .add, .event id .start] n
        { n.setPeer id (some (.new id n.nextUid linkType key)) with nextUid := n.nextUid + 1 } :=
      .single (by simp) (.create linkType key hnone)
    have hadd := hcreate.trans (.add (b := ⟨id, n.nextUid, n.nextUid, .zdprWorker none⟩)
      (by simp) rfl)
    split at h
    · exact hadd.trans (.raise (by simp) h)
    · cases h
      exact hadd
  · cases h

theorem runCommand_moves {command : Command} (h : n.runCommand prim cfg io id command = some n') :
    Moves prim cfg (n.labels prim cfg (.command id command io)) n n' := by
  unfold runCommand at h
  split at h
  · cases h
    exact .refl
  next p hp =>
  split at h
  · exact .raise (by simp [Node.labels]) h
  · exact .raise (by simp [Node.labels]) h
  · cases h
  · cases h
    exact .single (by simp [Node.labels]) (.reset io hp)
  · cases h
    exact .single (by simp [Node.labels]) (.renewNow io hp)
  · cases h
    exact .single (by simp [Node.labels]) (.edit hp ⟨⟨rfl, rfl, rfl, rfl⟩, rfl, _, rfl⟩)
  split at h
  · cases h
    exact .single (by simp [Node.labels]) (.edit hp ⟨⟨rfl, rfl, rfl, rfl⟩, rfl, _, rfl⟩)
  · cases h
    exact .refl

/-- Every step is made of moves. -/
theorem step_moves (hd : n.DeferredLoose) (h : n.step prim cfg act = some n') :
    Moves prim cfg (n.labels prim cfg act) (n.release act) n' := by
  cases act with
  | insertInternalPeer id =>
    simp only [Node.step] at h
    split at h
    · cases h
    next hid =>
    cases h
    have hnone : n.peers id = none := by
      simpa using (not_or.mp hid).2
    exact .single (by simp [Node.labels]) (.create _ _ hnone)
  | startTether id linkType autoStart key io => exact startTether_moves h
  | receive id msg =>
    simp only [Node.step] at h
    split at h
    · cases h
      exact .refl
    next p _ =>
    split at h
    · cases h
      exact .single (by simp [Node.labels]) (.receive id p.uid msg)
    · cases h
      exact .refl
  | sendMgmt id msg =>
    cases h
    exact .updatePeer (by simp [Node.labels]) fun p => .of_data_eq ⟨rfl, rfl, rfl, rfl⟩ rfl rfl
  | acknowledgement id seqNum isCanceled =>
    simp only [Node.step] at h
    split at h
    · cases h
      exact .refl
    next p hp =>
    obtain ⟨r, -, hr⟩ := Option.map_eq_some_iff.mp h
    subst hr
    exact .single (by simp [Node.labels])
      (.edit hp (.of_data_eq ⟨rfl, rfl, rfl, rfl⟩ rfl rfl))
  | command id command io => exact runCommand_moves h
  | takeDeferredVsConnect =>
    simp only [Node.step] at h
    split at h
    · cases h
      exact .refl
    next a ha =>
    cases h
    have hnote : SameLinks n { n with deferredVsConnect := none } :=
      ⟨rfl, rfl, rfl, rfl, rfl, List.Subset.refl _, nofun⟩
    exact .trans (.single (by simp [Node.labels]) (.note hnote))
      (.add (by simp [Node.labels]) (hd a ha))
  | run i outcome io =>
    simp only [Node.step, runActivity] at h
    simp only [Node.labels, Node.release]
    cases ha : n.activities[i]? with
    | none =>
      rw [ha] at h
      cases h
    | some a =>
      simp only [ha] at h ⊢
      split at h
      · cases h
      · exact runWork_moves h

/-! ## What every move keeps -/

theorem Settlement.run_kept (s : Settlement) (h : Handling) : Kept h.peer (s.run h).peer := by
  cases s with
  | giveUp challenge reason =>
    simp only [Settlement.run]
    split
    · exact .refl _
    next d hd =>
    unfold LinkData.takeRenewalChallengeIf at hd
    split at hd <;> cases hd
    exact ⟨⟨rfl, rfl, rfl, rfl⟩, rfl, rfl⟩
  | _ => exact ⟨⟨rfl, rfl, rfl, rfl⟩, rfl, rfl⟩

section

variable {l : Label} {id : LinkId} {p : PeerState}

/-- The link as the handler of an event, or a reset, has made it. -/
inductive Touched (id : LinkId) (p p' : PeerState) : Label → Prop where
  | event (cx : Context) (e : LinkEvent)
      (hd : (Handling.processEvent cx ⟨p, []⟩ e).1.effects.any (·.isDropPeer) = false)
      (hp' : p' = (Handling.processEvent cx ⟨p, []⟩ e).1.peer) : Touched id p p' (.event id e)
  | reset (cx : Context) (hp' : p' = (Handling.reset cx ⟨p, []⟩).peer) : Touched id p p' (.reset id)

/-- Where the link under `id` has come from in a move: its state machine was not touched, or a
    handler has run, or the link is new. -/
inductive Origin (n n' : Node) (id : LinkId) (p' : PeerState) (l : Label) : Prop where
  | kept {p : PeerState} (hp : n.peers id = some p) (kept : Kept p p')
  | touched {p : PeerState} (hp : n.peers id = some p) (same : SameLink p p')
      (ht : Touched id p p' l)
  | created (hnone : n.peers id = none) (hl : l = .create id) (uid : p'.uid = n.nextUid)
      (nextUid : n.nextUid < n'.nextUid) (fsm : p'.fsm = .new ∨ p'.fsm.state = .active)

theorem Origin.of_eq (h : n.peers id = some p') : Origin n n' id p' l :=
  .kept h (.refl p')

/-- A handler works on its own link, and either drops it or leaves what it made of it. -/
theorem Node.apply_origin {origin : Nat} {h : Handling} {id' : LinkId}
    (h' : (n.apply id' origin h).peers id = some p')
    (hself : id = id' → h.effects.any (·.isDropPeer) = false → p' = h.peer → Origin n n' id p' l) :
    Origin n n' id p' l := by
  rcases Node.apply_back h' with ⟨-, h'⟩ | ⟨hid, hd, hp'⟩
  · exact .of_eq h'
  · exact hself hid hd hp'

theorem Node.apply_kept {o : Nat} {h : Handling} {id' : LinkId} (hp : n.peers id' = some p)
    (hk : Kept p h.peer) (h' : (n.apply id' o h).peers id = some p') : Origin n n' id p' l := by
  refine apply_origin h' fun hid _ hp' => ?_
  subst hid hp'
  exact .kept hp hk

section

variable (hm : Move prim cfg l n n')

include hm

theorem Move.origin (h' : n'.peers id = some p') :
    Origin n n' id p' l := by
  cases hm with
  | @event _ _ q io origin e hp =>
    refine Node.apply_origin h' fun hid hd hp' => ?_
    subst hid hp'
    exact .touched hp (processEvent_same _ ⟨q, []⟩ e) (.event _ e hd rfl)
  | @reset _ _ q io hp =>
    refine Node.apply_origin h' fun hid _ hp' => ?_
    subst hid hp'
    exact .touched hp (SameLink.closed.reset (h := ⟨q, []⟩) (.refl q)) (.reset _ rfl)
  | renewNow io hp => exact Node.apply_kept hp (Kept.renewals.requestRenewalNow (.refl _)) h'
  | @settle _ _ q s hp => exact Node.apply_kept hp (s.run_kept ⟨q, []⟩) h'
  | edit hp he => exact Node.apply_kept (o := 0) (h := ⟨_, []⟩) hp he.kept h'
  | expires =>
    refine Node.apply_kept (o := 0) (h := ⟨_, []⟩) ‹_› ?_ h'
    exact ⟨⟨rfl, rfl, rfl, rfl⟩, rfl, rfl⟩
  | stopKm | add | receive => exact .of_eq h'
  | @create _ id' linkType key hp =>
    rcases Node.setPeer_back h' with ⟨-, h'⟩ | ⟨rfl, rfl⟩
    · exact .of_eq h'
    refine .created hp rfl rfl (Nat.lt_succ_self _) ?_
    unfold PeerState.new
    split
    · exact .inr rfl
    · exact .inl rfl
  | note hs => exact .of_eq (hs.peers ▸ h')

theorem Move.peers_back (h' : n'.peers id = some p') :
    (∃ p, n.peers id = some p ∧ SameLink p p') ∨
      l = .create id ∧ p'.uid = n.nextUid ∧ n.nextUid < n'.nextUid := by
  cases hm.origin h' with
  | kept hp kept => exact .inl ⟨_, hp, kept.toSameLink⟩
  | touched hp same => exact .inl ⟨_, hp, same⟩
  | created _ hl uid nextUid => exact .inr ⟨hl, uid, nextUid⟩

/-- Handlers abort echoes and the renewals of an adapter; the key manager is ended with its link.
    Any other activity stays until it acts. -/
theorem Move.mem_activities (ha : a ∈ n.activities)
    (hw : a.work.isAbortable = false) (hk : a.work.isKeyManager = false) : a ∈ n'.activities := by
  cases hm with
  | event | reset | renewNow | settle => exact (Node.mem_apply hw).mpr (.inl ha)
  | stopKm hp => exact List.mem_filter.mpr ⟨ha, by simp [hk]⟩
  | add | receive => exact List.mem_append_left _ ha
  | note hs => exact hs.activities ▸ ha
  | edit | expires | create => exact ha

theorem Move.nextUid_le : n.nextUid ≤ n'.nextUid := by
  cases hm with
  | create linkType key hp => exact Nat.le_succ _
  | note hs => exact Nat.le_of_eq hs.nextUid.symm
  | event | reset | renewNow | settle => exact Nat.le_of_eq Node.apply_nextUid.symm
  | _ => exact Nat.le_refl _

end

theorem Node.DeferredLoose.apply {origin : Nat} {h : Handling} (hd : n.DeferredLoose) :
    (n.apply id origin h).DeferredLoose := by
  refine List.foldlRecOn (motive := Node.DeferredLoose) h.effects _ hd fun m hm e _ => ?_
  cases e with
  | deferVsConnect addr request =>
    intro a ha
    cases ha
    rfl
  | assignSpecialName =>
    rw [applyEffect]
    split <;> exact hm
  | _ => exact hm

theorem Node.DeferredLoose.move (hd : n.DeferredLoose) (hm : Move prim cfg l n n') :
    n'.DeferredLoose := by
  cases hm with
  | note hs => exact fun a ha => hd a (hs.deferred a ha)
  | event | reset | renewNow | settle => exact hd.apply
  | _ => exact hd

/-- What is known of every node: the numbers of its links tell them apart, and are below those of
    later links. -/
structure Node.Sound (n : Node) : Prop where
  deferred : n.DeferredLoose
  below : ∀ {id p}, n.peers id = some p → p.uid < n.nextUid
  unique : ∀ {id id' p p'}, n.peers id = some p → n.peers id' = some p' → p.uid = p'.uid → id = id'

namespace Node.Sound

theorem init : Node.init.Sound := ⟨nofun, nofun, nofun⟩

theorem release (hs : n.Sound) (act : NodeAction) : (n.release act).Sound := by
  cases act <;> exact ⟨hs.deferred, hs.below, hs.unique⟩

theorem move (hs : n.Sound) (hm : Move prim cfg l n n') : n'.Sound := by
  refine ⟨hs.deferred.move hm, fun {id p} hp => ?_, fun {id id' p p'} hp hp' hu => ?_⟩
  · rcases hm.peers_back hp with ⟨q, hq, hsame⟩ | ⟨-, huid, hlt⟩
    · exact Nat.lt_of_lt_of_le (hsame.uid ▸ hs.below hq) hm.nextUid_le
    · exact huid ▸ hlt
  rcases hm.peers_back hp with ⟨q, hq, hsame⟩ | ⟨hl, huid, -⟩
  · rcases hm.peers_back hp' with ⟨q', hq', hsame'⟩ | ⟨-, huid', -⟩
    · exact hs.unique hq hq' (hsame.uid.symm.trans (hu.trans hsame'.uid))
    · have := hs.below hq
      rw [← hsame.uid, hu, huid'] at this
      exact absurd this (Nat.lt_irrefl _)
  · rcases hm.peers_back hp' with ⟨q', hq', hsame'⟩ | ⟨hl', -, -⟩
    · have := hs.below hq'
      rw [← hsame'.uid, ← hu, huid] at this
      exact absurd this (Nat.lt_irrefl _)
    · cases hl.symm.trans hl'
      rfl

theorem step (hs : n.Sound) (h : n.step prim cfg act = some n') : n'.Sound :=
  (step_moves hs.deferred h).invariant (fun _ hm hmove => hm.move hmove) (hs.release act)

theorem of_run {ok : Node → NodeAction → Prop}
    (h : Run (Node.step prim cfg) (· = Node.init) ok n) : n.Sound := by
  refine h.invariant (fun s hs => ?_) fun s act s' hs _ hstep => hs.step hstep
  subst hs
  exact init

end Node.Sound

end

end ZprCore.Link
