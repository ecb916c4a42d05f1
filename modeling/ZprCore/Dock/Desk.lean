-- SUMMARY: The bind requests of a node as an abstract desk, and what every action does to it.
import ZprCore.Dock.Effects

/-!
# The desk

A bind request is at the visa service, at the next hop, or answered. The desk is what a node
knows about this: the state of each request, the next-hop binds that links have to answer, the
running visa tasks, and how often each transaction was asked for and answered. Every action
changes the desk in one of the ways that `BindEffect` lists; routes and addresses play no part.
-/

namespace ZprCore.Dock

open ZprCore.Flow

@[ext] structure Desk where
  /-- The incarnation of a link that is up. -/
  serial : LinkId → Option Nat
  /-- The links with an adapter at the other end. -/
  tethered : LinkId → Bool
  state : LinkId → TxnId → Option BindRequestState
  awaiting : LinkId → TxnHandle → Option (LinkId × TxnId)
  tasks : List VisaTask
  /-- How many bind requests an adapter has made with a transaction id. -/
  asked : Nat → TxnId → Nat
  /-- How many responses it was sent for them. -/
  answered : Nat → TxnId → Nat

namespace Desk

/-- One more for a transaction of the adapter on a link. -/
def tally (d : Desk) (count : Nat → TxnId → Nat) (link : LinkId) (txn : TxnId) :
    Nat → TxnId → Nat :=
  fun σ t => if d.tethered link ∧ d.serial link = some σ ∧ t = txn then count σ t + 1 else count σ t

def ask (d : Desk) (link : LinkId) (txn : TxnId) : Desk :=
  { d with asked := d.tally d.asked link txn }

def setState (d : Desk) (link : LinkId) (txn : TxnId) (st : BindRequestState) : Desk :=
  { d with state := fun l t => if l = link ∧ t = txn then some st else d.state l t }

def forget (d : Desk) (link : LinkId) (txn : TxnId) : Desk :=
  { d with state := fun l t => if l = link ∧ t = txn then none else d.state l t }

def respond (d : Desk) (link : LinkId) (txn : TxnId) : Desk :=
  { d with answered := d.tally d.answered link txn }

def answer (d : Desk) (link : LinkId) (txn : TxnId) : Desk := (d.forget link txn).respond link txn

theorem forget_forget (d : Desk) (link : LinkId) (txn : TxnId) :
    (d.forget link txn).forget link txn = d.forget link txn := by
  refine Desk.ext rfl rfl ?_ rfl rfl rfl rfl
  funext l t
  simp only [forget]
  split <;> rfl

def setAwaiting (d : Desk) (egress : LinkId) (h : TxnHandle) (origin : LinkId × TxnId) : Desk :=
  { d with awaiting := fun l t => if l = egress ∧ t = h then some origin else d.awaiting l t }

/-- The next hop has answered. -/
def resolve (d : Desk) (egress : LinkId) (h : TxnHandle) : Desk :=
  { d with awaiting := fun l t => if l = egress ∧ t = h then none else d.awaiting l t }

def setTasks (d : Desk) (tasks : List VisaTask) : Desk := { d with tasks := tasks }

/-- Another incarnation of a link, or none, with nothing left of the one before. -/
def relink (d : Desk) (link : LinkId) (serial : Option Nat) (tethered : Bool) : Desk :=
  { d with
    serial := fun l => if l = link then serial else d.serial l
    tethered := fun l => if l = link then tethered else d.tethered l
    state := fun l t => if l = link then none else d.state l t
    awaiting := fun l t => if l = link then none else d.awaiting l t }

end Desk

def Event.asks : Event → Option (Nat × TxnId)
  | .requested _ serial txn => some (serial, txn)
  | _ => none

def Event.answers : Event → Option (Nat × TxnId)
  | .sent _ serial message => message.answers.map (serial, ·)
  | _ => none

def Action.asks : Action → Option (LinkId × TxnId)
  | .bindActorAddressRequest link txn _ _ => some (link, txn)
  | .streamIdRequest link txn _ => some (link, txn)
  | _ => none

namespace Node

variable {n n' m : Node} {link : LinkId} {txn : TxnId} {v : VisaId} {Q : VisaQuery → Prop}
  {G : VisaId → Prop} {h : TxnHandle} {reason : String} {p : PeerState} {e : Event}
  {st : BindRequestState} {message : Message}

def tethered (n : Node) (link : LinkId) : Bool :=
  (n.endpoint link).any fun e => peerTypeOf e.linkType link = .adapter

def asked (n : Node) (σ : Nat) (t : TxnId) : Nat := n.events.countP (·.asks = some (σ, t))

def answered (n : Node) (σ : Nat) (t : TxnId) : Nat := n.events.countP (·.answers = some (σ, t))

def desk (n : Node) : Desk where
  serial := n.serial
  tethered := n.tethered
  state := n.bindState
  awaiting := n.awaiting
  tasks := n.tasks
  asked := n.asked
  answered := n.answered

/-! ## The desk after an update -/

@[simp] theorem desk_modifyVisas (n : Node) (f : VisaTable → VisaTable) :
    (n.modifyVisas f).desk = n.desk := rfl

@[simp] theorem desk_setTasks (n : Node) (ts : List VisaTask) :
    (n.setTasks ts).desk = n.desk.setTasks ts := rfl

theorem tethered_congr (h : n'.endpoint = n.endpoint) : n'.tethered = n.tethered := by
  funext link
  rw [tethered, h, tethered]

theorem asked_log_of_none (n : Node) (h : e.asks = none) : (n.log e).asked = n.asked := by
  funext σ t
  simp [asked, log, List.countP_append, h]

theorem answered_log_of_none (n : Node) (h : e.answers = none) :
    (n.log e).answered = n.answered := by
  funext σ t
  simp [answered, log, List.countP_append, h]

theorem desk_log_of_quiet (n : Node) (ha : e.asks = none) (hr : e.answers = none) :
    (n.log e).desk = n.desk :=
  Desk.ext rfl rfl rfl rfl rfl (asked_log_of_none n ha) (answered_log_of_none n hr)

theorem desk_log_requested {e : Endpoint} (he : n.endpoint link = some e)
    (hty : peerTypeOf e.linkType link = .adapter) :
    (n.log (.requested link e.serial txn)).desk = n.desk.ask link txn := by
  refine Desk.ext rfl rfl rfl rfl rfl ?_ ?_
  · funext σ t
    simp only [desk, asked, log, List.countP_append, Desk.ask, Desk.tally, tethered, serial, he,
      Option.any_some, hty, Option.map_some, Option.some.injEq, decide_true, true_and,
      List.countP_singleton, Event.asks, Prod.mk.injEq, decide_eq_true_eq, eq_comm (a := t)]
    split <;> rfl
  · exact answered_log_of_none n rfl

theorem desk_send_of_quiet (n : Node) (link : LinkId) (h : message.answers = none) :
    (n.send link message).desk = n.desk := by
  cases he : n.endpoint link with
  | none => rw [send_of_none he]
  | some e =>
    rw [send_of_some he]
    exact desk_log_of_quiet n rfl (by rw [Event.answers, h]; rfl)

/-- A response that a peer of its kind expects is counted if the peer is an adapter. -/
theorem desk_send_response {e : Endpoint} (he : n.endpoint link = some e)
    (h : message.answers = if peerTypeOf e.linkType link = .adapter then some txn else none) :
    (n.send link message).desk = n.desk.respond link txn := by
  rw [send_of_some he]
  refine Desk.ext rfl rfl rfl rfl rfl ?_ ?_
  · exact asked_log_of_none n rfl
  funext σ t
  simp only [desk, answered, log, List.countP_append, Desk.respond, Desk.tally, tethered, serial, he,
    Option.any_some, Option.map_some, Option.some.injEq, decide_eq_true_eq,
    List.countP_singleton, Event.answers, h]
  by_cases hty : peerTypeOf e.linkType link = .adapter
  · simp only [hty, if_true, Option.map_some, Option.some.injEq, Prod.mk.injEq, true_and,
      eq_comm (a := t)]
    split <;> rfl
  · simp [hty]

theorem desk_modifyPeer {f : PeerState → PeerState}
    (hs : ∀ p, (f p).serial = p.serial := by exact fun _ => rfl)
    (ht : ∀ p, (f p).linkType = p.linkType := by exact fun _ => rfl)
    (hn : ∀ p, (f p).nodeState = p.nodeState := by exact fun _ => rfl) :
    (n.modifyPeer link f).desk = n.desk := by
  refine Desk.ext (serial_modifyPeer hs) ?_ ?_ ?_ rfl rfl rfl
  · funext other
    simp only [desk, tethered, endpoint, lookup_modifyPeer]
    split
    · cases n.peers.lookup other with
      | none => rfl
      | some p => simp [PeerState.endpoint, ht p]
    · rfl
  · funext other t
    exact bindState_modifyPeer fun p => by rw [hn p]
  · funext other t
    exact awaiting_modifyPeer fun p => by rw [hn p]

theorem desk_bumpTxn (n : Node) (link : LinkId) : (n.bumpTxn link).desk = n.desk :=
  desk_modifyPeer

theorem desk_setRoute (n : Node) (entry : ForwardingEntry) (pep : PftPep) :
    (n.setRoute entry pep).desk = n.desk :=
  desk_modifyPeer

theorem desk_eraseRoute (n : Node) (entry : ForwardingEntry) : (n.eraseRoute entry).desk = n.desk :=
  desk_modifyPeer

theorem desk_setBindState (hlive : (n.peers.lookup link).isSome) :
    (n.setBindState link txn st).desk = n.desk.setState link txn st := by
  have hf := Frame.setBindState n link txn st
  refine Desk.ext (serial_congr hf.endpoint) (tethered_congr hf.endpoint) ?_ ?_ rfl rfl rfl
  · funext other t
    exact bindState_setBindState hlive
  · funext other t
    exact awaiting_setBindState

theorem desk_eraseBindState (n : Node) (link : LinkId) (txn : TxnId) :
    (n.eraseBindState link txn).desk = n.desk.forget link txn := by
  have hf := Frame.eraseBindState n link txn
  refine Desk.ext (serial_congr hf.endpoint) (tethered_congr hf.endpoint) ?_ ?_ rfl rfl rfl
  · funext other t
    exact bindState_eraseBindState
  · funext other t
    exact awaiting_eraseBindState

theorem desk_setAwaiting {origin : LinkId × TxnId} (hlive : (n.peers.lookup link).isSome) :
    (n.setAwaiting link h origin).desk = n.desk.setAwaiting link h origin := by
  have hf := Frame.setAwaiting n link h origin
  refine Desk.ext (serial_congr hf.endpoint) (tethered_congr hf.endpoint) ?_ ?_ rfl rfl rfl
  · funext other t
    exact bindState_setAwaiting
  · funext other t
    exact awaiting_setAwaiting hlive

theorem desk_eraseAwaiting (n : Node) (link : LinkId) (h : TxnHandle) :
    (n.eraseAwaiting link h).desk = n.desk.resolve link h := by
  have hf := Frame.eraseAwaiting n link h
  refine Desk.ext (serial_congr hf.endpoint) (tethered_congr hf.endpoint) ?_ ?_ rfl rfl rfl
  · funext other t
    exact bindState_eraseAwaiting
  · funext other t
    exact awaiting_eraseAwaiting

theorem desk_openLink (n : Node) (link : LinkId) (linkType : LinkType) :
    (n.openLink link linkType).desk =
      n.desk.relink link (some n.nextSerial) (peerTypeOf linkType link = .adapter) := by
  refine Desk.ext ?_ ?_ ?_ ?_ rfl rfl rfl
  · funext other
    exact serial_openLink
  · funext other
    simp only [desk, tethered, endpoint_openLink, Desk.relink]
    split
    · next h => simp [h]
    · rfl
  · funext other t
    exact bindState_openLink
  · funext other t
    exact awaiting_openLink

theorem desk_erasePeer (n : Node) (link : LinkId) :
    (n.erasePeer link).desk = n.desk.relink link none false := by
  refine Desk.ext ?_ ?_ ?_ ?_ rfl rfl rfl
  · funext other
    exact serial_erasePeer
  · funext other
    simp only [desk, tethered, endpoint_erasePeer, Desk.relink]
    split <;> rfl
  · funext other t
    exact bindState_erasePeer
  · funext other t
    exact awaiting_erasePeer

theorem Revoked.desk {vs : List VisaId} {ws : List ForwardingEntry} {es : List Event}
    (h : Revoked n m vs ws es) : m.desk = n.desk := by
  have hcount {P : Event → Bool}
      (hP : ∀ link σ stream, P (.sent link σ (.streamIdWithdrawal stream)) = false) :
      m.events.countP P = n.events.countP P := by
    rw [h.events, List.countP_append, Nat.add_eq_left]
    refine List.countP_eq_zero.mpr fun e he => ?_
    obtain ⟨link, σ, stream, rfl⟩ := h.told e he
    simp [hP]
  refine Desk.ext h.serial (tethered_congr h.endpoint) h.bindState h.awaiting h.tasks ?_ ?_
  all_goals
    funext σ t
    exact hcount fun _ _ _ => rfl

/-! ## The next step of a request -/

/-- What becomes of a request in hand: it is answered, passed on to the visa service with a
    query that `Q` allows, or granted under a visa that `G` allows and passed on to the next hop. -/
inductive Outcome (n : Node) (link : LinkId) (txn : TxnId) (G : VisaId → Prop)
    (Q : VisaQuery → Prop) : Node → Prop where
  | gone {n' : Node} : n.serial link = none → n'.desk = n.desk → Outcome n link txn G Q n'
  | rejected {n' : Node} : (n.serial link).isSome → n.lingers link txn = false →
      n'.desk = n.desk.answer link txn → Outcome n link txn G Q n'
  | spawned {n' : Node} {query : VisaQuery} {st : BindRequestState} {σ : Nat} : Q query →
      n.serial link = some σ → st.egressBindTxn? = none →
      n'.desk = (n.desk.setState link txn st).setTasks (n.tasks ++ [⟨link, σ, txn, query⟩]) →
      Outcome n link txn G Q n'
  | forwarded {n' : Node} {v : VisaId} {egress : LinkId} {h : TxnHandle} {visa : Visa} : G v →
      n'.visas = n.visas → n.visas.table.lookup v = some visa → (n.serial link).isSome →
      n.serial egress = some h.mgr → n.isOpen h = false →
      n'.desk = (n.desk.setState link txn (.awaitingNextHopBind v egress h)).setAwaiting egress h
        (link, txn) → Outcome n link txn G Q n'

theorem Outcome.mono {G' : VisaId → Prop} {Q' : VisaQuery → Prop} (hG : ∀ v, G v → G' v)
    (hQ : ∀ q, Q q → Q' q) (h : Outcome n link txn G Q n') : Outcome n link txn G' Q' n' := by
  cases h with
  | gone hs hd => exact .gone hs hd
  | rejected hs hl hd => exact .rejected hs hl hd
  | spawned hq hs hst hd => exact .spawned (hQ _ hq) hs hst hd
  | forwarded hg hvs hv hs he ho hd => exact .forwarded (hG _ hg) hvs hv hs he ho hd

theorem desk_sendBindError (hp : n.endpoint link = some p.endpoint) :
    (n.sendBindError link p txn reason).desk = n.desk.respond link txn := by
  have hquiet (hty : p.peerType link ≠ .adapter) : n.desk = n.desk.respond link txn := by
    have hteth : n.tethered link = false := by
      rw [tethered, hp]
      exact decide_eq_false hty
    refine Desk.ext rfl rfl rfl rfl rfl rfl ?_
    funext σ t
    simp [Desk.respond, Desk.tally, desk, hteth]
  unfold sendBindError
  split
  · next hty => exact desk_send_response hp (if_pos hty).symm
  · next hty =>
    rw [desk_send_of_quiet _ _ rfl]
    exact hquiet (by rw [hty]; exact nofun)
  all_goals next hty => exact hquiet (by rw [hty]; exact nofun)

theorem bindReject_outcome (h : n.bindReject link txn reason = .ok n') :
    Outcome n link txn G Q n' := by
  rcases bindReject_ok h with ⟨hp, rfl⟩ | ⟨p, hp, hl, rfl⟩
  · exact .gone (serial_eq_none.mpr hp) rfl
  refine .rejected (by rw [serial_isSome, hp]; rfl) hl ?_
  have he : (n.eraseBindState link txn).endpoint link = some p.endpoint := by
    rw [endpoint_eraseBindState]
    exact endpoint_of_lookup hp
  rw [desk_sendBindError he, desk_eraseBindState]
  rfl

theorem requestedVisaGranted_outcome (h : n.requestedVisaGranted link txn v = .ok n') :
    Outcome n link txn (· = v) Q n' := by
  have hvisas := (requestedVisaGranted_frame h).visas
  rcases requestedVisaGranted_ok h with h | ⟨egress, q, visa, request, -, hq, hvisa, hreq, h⟩
  · exact bindReject_outcome h
  obtain ⟨hopen, ⟨hp, rfl⟩ | ⟨hp, rfl⟩⟩ := requestNextHop_ok h
  · exact .gone (serial_eq_none.mpr hp) (desk_bumpTxn ..)
  refine .forwarded rfl hvisas hvisa (by rwa [serial_isSome]) (serial_eq_some hq) hopen ?_
  rw [desk_send_of_quiet _ _ (hreq _).2, desk_setAwaiting, desk_setBindState, desk_bumpTxn]
  · rw [bumpTxn, lookup_modifyPeer_isSome]
    exact hp
  · rw [setBindState, lookup_modifyPeer_isSome, bumpTxn, lookup_modifyPeer_isSome, hq]
    rfl

theorem spawnTask_outcome {query : VisaQuery} (hq : Q query) (hst : st.egressBindTxn? = none)
    (hp : n.peers.lookup link = some p) :
    Outcome n link txn G Q (n.spawnTask link p txn query st) := by
  refine .spawned hq (serial_eq_some hp) hst ?_
  rw [spawnTask, desk_setTasks, desk_setBindState (by rw [hp]; rfl)]

/-! ## Effects of actions -/

/-- Visas that may be granted to a request that a peer makes: an adapter is granted one that
    matches a flow from an address of its own. -/
def MayGrant (lookup : FiveTupleLookup) (n : Node) (link : LinkId) (p : PeerState) (v : VisaId) :
    Prop :=
  p.peerType link = .adapter →
    ∃ f, p.hasActorAddress f.srcAddress = true ∧ lookup.findMatch n.visas.lookupTable f = some v

/-- What an adapter may have the visa service asked for: flows from an address of its own. -/
def MayQuery (link : LinkId) (p : PeerState) (query : VisaQuery) : Prop :=
  p.peerType link = .adapter →
    ∃ f, query = .visaRequest f ∧ p.hasActorAddress f.srcAddress = true

/-- The visa has just been issued, and is in the table. -/
def Issued (n : Node) (a : Action) (m : Node) (v : VisaId) : Prop :=
  ∃ visa dockPep, n.inserts a = some visa ∧ visa.issuerId = v ∧ visa.dockPep = some dockPep ∧
    m.visas.table.lookup v = some (visa.stored dockPep)

/-- Everything that an action can do to the desk. -/
inductive BindEffect (lookup : FiveTupleLookup) (n : Node) : Action → Node → Prop where
  | kept {a : Action} {n' : Node} : n'.desk = n.desk → BindEffect lookup n a n'
  | opened {link : LinkId} {linkType : LinkType} {n' : Node} : n.serial link = none →
      n'.desk = n.desk.relink link (some n.nextSerial) (peerTypeOf linkType link = .adapter) →
      BindEffect lookup n (.startTether link linkType) n'
  | dropped {link : LinkId} {n' : Node} : n'.desk = n.desk.relink link none false →
      BindEffect lookup n (.dropPeer link) n'
  | asked {a : Action} {link : LinkId} {txn : TxnId} {p : PeerState} {m n' : Node} :
      a.asks = some (link, txn) → n.peers.lookup link = some p →
      p.peerType link = .adapter ∨ p.peerType link = .node → m.desk = n.desk.ask link txn → Frame n m →
      Outcome m link txn (MayGrant lookup n link p) (MayQuery link p) n' → BindEffect lookup n a n'
  /-- The visa service has answered a task. -/
  | answered {a : Action} {i : Nat} {task : VisaTask} {m n' : Node} : a.finishes = some i →
      n.tasks[i]? = some task → m.desk = n.desk.setTasks (n.tasks.eraseIdx i) →
      Outcome m task.link task.txn (Issued n a m) (fun _ => False) n' → BindEffect lookup n a n'
  /-- The next hop has answered a request of a link that is gone. -/
  | resolved {a : Action} {egress link : LinkId} {h : TxnHandle} {txn : TxnId} {n' : Node} :
      n.awaiting egress h = some (link, txn) → n.serial link = none →
      n'.desk = n.desk.resolve egress h → BindEffect lookup n a n'
  /-- The next hop has answered, and so has the node. -/
  | settled {a : Action} {egress link : LinkId} {h : TxnHandle} {txn : TxnId} {v : VisaId}
      {n' : Node} :
      n.awaiting egress h = some (link, txn) →
      n.bindState link txn = some (.awaitingNextHopBind v egress h) →
      n'.desk = (n.desk.resolve egress h).answer link txn → BindEffect lookup n a n'

section Effects

variable {sums : Checksums} {lookup : FiveTupleLookup} {a : Action} {egress : LinkId}
  {task : VisaTask} {stream : StreamId} {body pkt : Bytes} {len i : Nat} {t t' : TxnId}

theorem bindActorAddress_outcome (hp : n.peers.lookup link = some p)
    (h : n.bindActorAddress sums lookup link txn body = .ok n') :
    Outcome n link txn (MayGrant lookup n link p) (MayQuery link p) n' := by
  rcases bindActorAddress_ok h with ⟨hnone, -⟩ | h | ⟨q, f, hq, hown, -, h⟩
  · rw [hp] at hnone
    cases hnone
  · exact bindReject_outcome h
  rw [hp] at hq
  cases hq
  rcases h with rfl | ⟨v, hmatch, h⟩
  · exact spawnTask_outcome (fun _ => ⟨f, rfl, hown⟩) rfl hp
  · exact (requestedVisaGranted_outcome h).mono (by rintro _ rfl -; exact ⟨f, hown, hmatch⟩) fun _ => id

theorem handleBindActorAddressRequest_desk
    (h : n.handleBindActorAddressRequest sums lookup link txn len pkt = .ok n') :
    BindEffect lookup n (.bindActorAddressRequest link txn len pkt) n' := by
  rcases handleBindActorAddressRequest_ok h with rfl | ⟨p, hp, hty, h⟩
  · exact .kept rfl
  · refine .asked rfl hp (.inl hty) ?_ (.log n rfl) (bindActorAddress_outcome hp h)
    exact desk_log_requested (endpoint_of_lookup hp) hty

theorem handleStreamIdRequest_desk (h : n.handleStreamIdRequest link txn v = .ok n') :
    BindEffect lookup n (.streamIdRequest link txn v) n' := by
  rcases handleStreamIdRequest_ok h with rfl | ⟨p, hp, hty, h⟩
  · exact .kept rfl
  have hnode : p.peerType link ≠ .adapter := by
    rw [hty]
    exact nofun
  -- requests of other nodes are not counted
  have hdesk : n.desk = n.desk.ask link txn := by
    have hteth : n.tethered link = false := by
      rw [tethered, endpoint_of_lookup hp]
      exact decide_eq_false hnode
    refine Desk.ext rfl rfl rfl rfl rfl ?_ rfl
    funext σ t
    simp [Desk.ask, Desk.tally, desk, hteth]
  refine .asked rfl hp (.inr hty) hdesk (.refl n) ?_
  rcases h with rfl | h
  · exact spawnTask_outcome (fun hadapter => absurd hadapter hnode) rfl hp
  · exact (requestedVisaGranted_outcome h).mono (fun _ _ hadapter => absurd hadapter hnode) fun _ => id

theorem denyTether_desk (hn : n.denyTether egress h reason = .ok n') :
    BindEffect lookup n a n' := by
  obtain ⟨_ | ⟨m, link, txn⟩, hm, hn⟩ := except_bind_eq_ok.mp hn
  · cases hn
    exact .kept rfl
  obtain ⟨haw, rfl, horigin⟩ := resolveNextHopBindOriginator_ok hm
  rcases bindReject_ok hn with ⟨hp, rfl⟩ | ⟨p, hp, -, rfl⟩
  · exact .resolved haw (serial_eq_none.mpr (lookup_eraseAwaiting_eq_none.mp hp))
      (desk_eraseAwaiting ..)
  rcases horigin with hnone | ⟨v, hst⟩
  · rw [lookup_eraseAwaiting_eq_none.mpr hnone] at hp
    cases hp
  refine .settled haw hst ?_
  have he : ((n.eraseAwaiting egress h).eraseBindState link txn).endpoint link = some p.endpoint := by
    rw [endpoint_eraseBindState]
    exact endpoint_of_lookup hp
  rw [desk_sendBindError he, desk_eraseBindState, desk_eraseAwaiting]
  rfl

theorem bindReject_erased (hp : n.peers.lookup link = some p)
    (hd : m.desk = (n.eraseBindState link txn).desk) (he : m.endpoint = n.endpoint)
    (h : m.bindReject link txn reason = .ok n') : n'.desk = n.desk.answer link txn := by
  rcases bindReject_ok h with ⟨hnone, -⟩ | ⟨q, hq, -, rfl⟩
  · have hp' := endpoint_of_lookup hp
    rw [← he, endpoint_eq_none.mpr hnone] at hp'
    cases hp'
  · have he : (m.eraseBindState link txn).endpoint link = some q.endpoint := by
      rw [endpoint_eraseBindState]
      exact endpoint_of_lookup hq
    rw [desk_sendBindError he, desk_eraseBindState, hd, desk_eraseBindState, Desk.forget_forget]
    rfl

theorem installTether_desk {key : StreamId} (hn : n.installTether egress h stream key = .ok n') :
    BindEffect lookup n a n' := by
  obtain ⟨_ | ⟨m, link, txn⟩, hm, hn⟩ := except_bind_eq_ok.mp hn
  · cases hn
    exact .kept rfl
  obtain ⟨haw, rfl, horigin⟩ := resolveNextHopBindOriginator_ok hm
  rcases horigin with hnone | ⟨v, hst⟩
  · -- the requestor is gone, so nothing else happens
    rcases requestedTetherGranted_ok hn with ⟨-, rfl⟩ | ⟨p, -, -, -, hp, -⟩
    · exact .resolved haw (serial_eq_none.mpr hnone) (desk_eraseAwaiting ..)
    · rw [lookup_eraseAwaiting_eq_none.mpr hnone] at hp
      cases hp
  refine .settled haw hst ?_
  rw [← desk_eraseAwaiting]
  rcases requestedTetherGranted_ok hn with ⟨hno, -⟩ | ⟨p, v', egress', h', hp, hst', -, hn⟩
  · have hst : (n.eraseAwaiting egress h).bindState _ _ = some _ := bindState_eraseAwaiting.trans hst
    rcases hno with hno | hno
    · obtain ⟨p, hp, -⟩ := bindState_eq_some.mp hst
      rw [hno] at hp
      cases hp
    · exact absurd hst (hno _ _ _)
  rcases hn with ⟨reason, hn⟩ | ⟨visa, hvisa, -, hn⟩
  · refine bindReject_erased hp rfl ?_ hn
    funext other
    exact endpoint_eraseBindState
  rcases installRoute_ok hn with ⟨message, hsuccess, rfl⟩ | ⟨-, hn⟩
  · have he : (((n.eraseAwaiting egress h).eraseBindState link txn).linkSlot v' ⟨link, key⟩
        |>.setRoute ⟨link, key⟩ ⟨⟨egress', stream⟩, v'⟩).endpoint link = some p.endpoint := by
      rw [endpoint_setRoute, linkSlot, endpoint_modifyVisas, endpoint_eraseBindState]
      exact endpoint_of_lookup hp
    rw [fillSlot, desk_send_response he hsuccess.answers, desk_setRoute, linkSlot, desk_modifyVisas,
      desk_eraseBindState]
    rfl
  · refine bindReject_erased hp (desk_modifyVisas ..) ?_ hn
    funext other
    exact endpoint_eraseBindState

theorem handleUnbindIndication_desk : (n.handleUnbindIndication link stream).desk = n.desk := by
  unfold handleUnbindIndication
  split
  · rfl
  split
  · next p hp hty =>
    have hlog := desk_log_of_quiet n (e := .unbound link p.serial stream) rfl rfl
    unfold unbindStream
    split
    · exact hlog
    · rw [desk_send_of_quiet _ _ rfl, desk_modifyVisas, desk_eraseRoute, hlog]
  · rfl

theorem insertVisa_desk {visa : VsVisa} (hi : a.finishes = some i)
    (ht : n.tasks[i]? = some task) (ha : n.inserts a = some visa)
    (h : ((n.setTasks (n.tasks.eraseIdx i)).insertVisa visa).bind
      (fun n => n.requestedVisaGranted task.link task.txn visa.issuerId) = .ok n') :
    BindEffect lookup n a n' := by
  obtain ⟨m, hm, h⟩ := except_bind_eq_ok.mp h
  obtain ⟨dockPep, hpep, rfl⟩ := insertVisa_ok hm
  refine .answered hi ht (by exact rfl) ((requestedVisaGranted_outcome h).mono ?_ fun _ => id)
  rintro _ rfl
  refine ⟨visa, dockPep, ha, rfl, hpep, ?_⟩
  rw [modifyVisas, VisaTable.insert, Table.lookup_insert, if_pos rfl]

/-- Everything an action does to the desk is one of the listed effects. -/
theorem handle_desk (h : n.handle sums lookup a = .ok n') : BindEffect lookup n a n' := by
  cases a with
  | tick ms =>
    cases h
    exact .kept rfl
  | startTether link linkType =>
    obtain ⟨hp, -, rfl⟩ := addPeer_ok h
    exact .opened (serial_eq_none.mpr hp) (desk_openLink ..)
  | assignAaaAddress | releaseAaaAddress | authorized | deregisterActorAddresses =>
    obtain ⟨p, -, -, -, rfl⟩ := modifyTether_ok h
    exact .kept desk_modifyPeer
  | dropPeer link =>
    obtain ⟨m, ws, hrev, rfl⟩ := dropPeer_ok h
    exact .dropped (by rw [desk_erasePeer, hrev.desk])
  | grantVisa visa =>
    obtain ⟨dockPep, -, rfl⟩ := insertVisa_ok h
    exact .kept rfl
  | revokeVisa v =>
    obtain ⟨ws, hrev⟩ := handleRevocation_ok h
    exact .kept hrev.desk
  | handleExpirations =>
    obtain ⟨⟨m, withdrawn⟩, hm, rfl⟩ := except_map_eq_ok.mp h
    exact .kept (revokeAll_ok hm).desk
  | bindActorAddressRequest link txn len pkt => exact handleBindActorAddressRequest_desk h
  | streamIdRequest link txn v => exact handleStreamIdRequest_desk h
  | visaRequestAnswered | visaByIdAnswered =>
    rcases handle_finishes rfl h with ⟨⟨⟩⟩ | ⟨task, htask, ⟨visa, ha, h⟩ | ⟨reason, h⟩⟩
    · exact insertVisa_desk rfl htask ha h
    · exact .answered rfl htask (desk_setTasks ..) (bindReject_outcome h)
  | tetherResponse link txn reply key =>
    simp only [handle, handleTetherResponse] at h
    split at h
    · cases h
      exact .kept rfl
    split at h
    · cases h
      exact .kept rfl
    split at h
    · exact installTether_desk h
    · exact denyTether_desk h
    · cases h
      exact .kept rfl
  | unbindIndication link stream =>
    cases h
    exact .kept handleUnbindIndication_desk

/-- Why a request has been passed on to the next hop under a visa. -/
inductive Granted (lookup : FiveTupleLookup) (n : Node) (a : Action) (link : LinkId) (v : VisaId)
    (visa : Visa) : Prop where
  | matched {txn : TxnId} {p : PeerState} : a.asks = some (link, txn) →
      n.peers.lookup link = some p → MayGrant lookup n link p v → n.visas.table.lookup v = some visa →
      Granted lookup n a link v visa
  | issued {i : Nat} {task : VisaTask} {vsVisa : VsVisa} {dockPep : DockPep} :
      a.finishes = some i → n.tasks[i]? = some task → task.link = link →
      n.inserts a = some vsVisa → vsVisa.dockPep = some dockPep → visa = vsVisa.stored dockPep →
      Granted lookup n a link v visa

theorem Outcome.hop {l : LinkId} (ho : Outcome m l t' G Q n')
    (hst : n'.bindState link t = some (.awaitingNextHopBind v egress h)) :
    m.bindState link t = some (.awaitingNextHopBind v egress h) ∨
    (link = l ∧ G v ∧ n'.visas = m.visas ∧ ∃ visa, m.visas.table.lookup v = some visa) := by
  change n'.desk.state link t = _ at hst
  cases ho with
  | gone _ hd =>
    rw [hd] at hst
    exact .inl hst
  | rejected _ _ hd =>
    rw [hd] at hst
    exact .inl (Option.ite_none_left_eq_some.mp hst).2
  | spawned _ _ hquiet hd =>
    rw [hd] at hst
    simp only [Desk.setTasks, Desk.setState] at hst
    split at hst
    · cases hst
      cases hquiet
    · exact .inl hst
  | forwarded hg hvisas hvisa _ _ _ hd =>
    rw [hd] at hst
    simp only [Desk.setAwaiting, Desk.setState] at hst
    split at hst
    · next heq =>
      cases hst
      exact .inr ⟨heq.1, hg, hvisas, _, hvisa⟩
    · exact .inl hst

/-- A request that has newly been passed on to the next hop was granted a visa in the table. -/
theorem BindEffect.hop (he : BindEffect lookup n a n')
    (hst : n'.bindState link t = some (.awaitingNextHopBind v egress h)) :
    n.bindState link t = some (.awaitingNextHopBind v egress h) ∨
      ∃ visa, n'.visas.table.lookup v = some visa ∧ Granted lookup n a link v visa := by
  have hdesk : n'.desk.state link t = some (.awaitingNextHopBind v egress h) := hst
  cases he with
  | kept hd | resolved _ _ hd =>
    rw [hd] at hdesk
    exact .inl hdesk
  | opened _ hd | dropped hd | settled _ _ hd =>
    rw [hd] at hdesk
    exact .inl (Option.ite_none_left_eq_some.mp hdesk).2
  | asked ha hp _ hd hf ho =>
    rcases ho.hop hst with hold | ⟨rfl, hg, hvisas, visa, hget⟩
    · exact .inl ((congrArg (·.state link t) hd).symm.trans hold)
    · refine .inr ⟨visa, hvisas ▸ hget, .matched ha hp hg ?_⟩
      rw [hf.visas] at hget
      exact hget
  | answered hi ht hd ho =>
    rcases ho.hop hst with hold | ⟨rfl, ⟨visa, dockPep, ha, rfl, hpep, hget⟩, hvisas, -⟩
    · exact .inl ((congrArg (·.state link t) hd).symm.trans hold)
    · exact .inr ⟨_, hvisas ▸ hget, .issued hi ht rfl ha hpep rfl⟩

theorem Outcome.mem_tasks (ho : Outcome m link txn G Q n') (ht : task ∈ n'.tasks) :
    task ∈ m.tasks ∨ (task.link = link ∧ m.serial link = some task.serial ∧ Q task.query) := by
  change task ∈ n'.desk.tasks at ht
  cases ho with
  | gone _ hd | rejected _ _ hd | forwarded _ _ _ _ _ _ hd =>
    rw [hd] at ht
    exact .inl ht
  | spawned hq hs _ hd =>
    rw [hd] at ht
    rcases List.mem_append.mp ht with ht | ht
    · exact .inl ht
    · rw [List.mem_singleton.mp ht]
      exact .inr ⟨rfl, hs, hq⟩

/-- A task was there before, or has just been started for a request that was made. -/
theorem BindEffect.mem_tasks (he : BindEffect lookup n a n') (ht : task ∈ n'.tasks) :
    task ∈ n.tasks ∨ ∃ p, a.asks.isSome ∧ n.peers.lookup task.link = some p ∧
      task.serial = p.serial ∧ MayQuery task.link p task.query := by
  have hdesk : task ∈ n'.desk.tasks := ht
  change task ∈ n.desk.tasks ∨ _
  cases he with
  | kept hd | opened _ hd | dropped hd | resolved _ _ hd | settled _ _ hd =>
    rw [hd] at hdesk
    exact .inl hdesk
  | @asked _ other t p m _ ha hp _ hd _ ho =>
    rcases ho.mem_tasks ht with hold | ⟨rfl, hs, hq⟩
    · exact .inl ((congrArg Desk.tasks hd : m.tasks = n.tasks) ▸ hold)
    · refine .inr ⟨p, by rw [ha]; rfl, hp, ?_, hq⟩
      rw [show m.serial = n.serial from congrArg Desk.serial hd, serial_eq_some hp] at hs
      exact (Option.some.inj hs).symm
  | @answered _ i _ m _ _ _ hd ho =>
    rcases ho.mem_tasks ht with hold | ⟨-, -, hq⟩
    · have hleft : m.tasks = n.tasks.eraseIdx i := congrArg Desk.tasks hd
      exact .inl (List.mem_of_mem_eraseIdx (hleft ▸ hold))
    · exact hq.elim

end Effects

end Node

end ZprCore.Dock
