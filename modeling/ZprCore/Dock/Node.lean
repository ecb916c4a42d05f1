-- SUMMARY: The actions of a node's dock, its step function and its initial states.
import ZprCore.Dock.Bind
import ZprCore.Lib.Run

/-!
# A node

One action is one call of a handler, or one step of the surroundings: a link that comes up,
is given addresses or goes away, time that passes. All handlers of a node run in one thread
and do not yield, so an action is atomic. The visa service answers a task at any later time
and in any order, also after the link that asked is gone.
-/

namespace ZprCore.Dock

open ZprCore.Flow

def maxActiveLinks : Nat := 1024

inductive Action where
  | tick (ms : Nat)
  /-- A link comes up in a vacant slot of the peer table. -/
  | startTether (link : LinkId) (linkType : LinkType)
  | assignAaaAddress (link : LinkId) (addr : IpAddress)
  | releaseAaaAddress (link : LinkId)
  /-- The visa service authorized the adapter and gave it an address. -/
  | authorized (link : LinkId) (addr : IpAddress)
  | deregisterActorAddresses (link : LinkId)
  | dropPeer (link : LinkId)
  /-- `VisaOp::Grant` -/
  | grantVisa (visa : VsVisa)
  /-- `VisaOp::RevokeVisaId` -/
  | revokeVisa (v : VisaId)
  | handleExpirations
  | bindActorAddressRequest (link : LinkId) (txn : TxnId) (endpointPacketLength : Nat) (pkt : Bytes)
  | streamIdRequest (link : LinkId) (txn : TxnId) (v : VisaId)
  /-- The visa service answers the task with this index. -/
  | visaRequestAnswered (task : Nat) (decision : Node.VisaDecision)
  | visaByIdAnswered (task : Nat) (visas : Option (List VsVisa))
  /-- `key` is the slot that the forwarding table offers if a route is installed. -/
  | tetherResponse (link : LinkId) (txn : TxnId) (reply : Node.TetherReply) (key : StreamId)
  | unbindIndication (link : LinkId) (stream : StreamId)
deriving DecidableEq

namespace Node

def modifyTether (n : Node) (link : LinkId) (p : PeerState → Bool) (f : PeerState → PeerState) :
    Except Halt Node :=
  match n.peers.lookup link with
  | none => .error .notOffered
  | some peer =>
    if peer.linkType = .nodeToAdapter ∧ p peer then .ok (n.modifyPeer link f)
    else .error .notOffered

/-- `Assembly::add_peer`. Tethers are the only links a node opens as yet; links to other nodes
    are allowed for here. -/
def addPeer (n : Node) (link : LinkId) (linkType : LinkType) : Except Halt Node :=
  if link = 0 ∨ maxActiveLinks < link ∨ (n.peers.lookup link).isSome ∨
      (linkType ≠ .nodeToAdapter ∧ linkType ≠ .nodeToNode) then .error .notOffered
  else .ok (n.openLink link linkType)

/-- Take the task with an index off the list of running tasks and go on with it. -/
def finishTask (n : Node) (i : Nat) (k : Node → VisaTask → Except Halt Node) : Except Halt Node :=
  match n.tasks[i]? with
  | none => .error .notOffered
  | some task => k (n.setTasks (n.tasks.eraseIdx i)) task

variable (sums : Checksums) (lookup : FiveTupleLookup)

def handle (n : Node) : Action → Except Halt Node
  | .tick ms => .ok { n with now := n.now + ms }
  | .startTether link linkType => n.addPeer link linkType
  | .assignAaaAddress link addr =>
    n.modifyTether link (fun _ => true) fun p => { p with aaaAddress := some addr }
  | .releaseAaaAddress link =>
    n.modifyTether link (fun _ => true) fun p => { p with aaaAddress := none }
  -- a tether is authorized once, before it becomes active
  | .authorized link addr =>
    n.modifyTether link (·.actorAddresses.isEmpty) fun p => { p with actorAddresses := [addr] }
  | .deregisterActorAddresses link =>
    n.modifyTether link (fun _ => true) fun p => { p with actorAddresses := [] }
  | .dropPeer link => n.dropPeer link
  | .grantVisa visa => n.insertVisa visa
  | .revokeVisa v => n.handleRevocation v
  | .handleExpirations => n.handleExpirations
  | .bindActorAddressRequest link txn len pkt =>
    n.handleBindActorAddressRequest sums lookup link txn len pkt
  | .streamIdRequest link txn v => n.handleStreamIdRequest link txn v
  | .visaRequestAnswered i decision =>
    n.finishTask i fun n task =>
      match task.query with
      | .visaRequest _ => n.visaRequestAnswered task decision
      | .visaById _ => .error .notOffered
  | .visaByIdAnswered i visas =>
    n.finishTask i fun n task =>
      match task.query with
      | .visaRequest _ => .error .notOffered
      | .visaById v => n.visaByIdAnswered task v visas
  | .tetherResponse link txn reply key => n.handleTetherResponse link txn reply key
  | .unbindIndication link stream => .ok (n.handleUnbindIndication link stream)

def step (n : Node) (a : Action) : Option Node := (n.handle sums lookup a).toOption

theorem step_eq_some {sums : Checksums} {lookup : FiveTupleLookup} {n n' : Node} {a : Action} :
    n.step sums lookup a = some n' ↔ n.handle sums lookup a = .ok n' := by
  unfold step
  cases n.handle sums lookup a <;> simp [Except.toOption]

/-! ## Initial states -/

/-- What a node is started with. -/
structure Config where
  now : Nat
  zprAddr : List IpAddress
  nodeAddr : IpAddress
  visaServiceAddr : IpAddress
  visaServicePort : UInt16

def makeTcpVisa (source : IpAddress) (sourcePort : UInt16) (dest : IpAddress) (destPort : UInt16)
    (expires : Nat) : Visa where
  expires := expires
  dockPep := {
    fiveTuple := ⟨source, dest, .ipv6, IpNumber.tcp, sourcePort, destPort⟩
    ingressKey := []
    egressKey := [] }
  streams := []
  nextHop := .unspecified

/-- The two internal links and the two visas to and from the visa service, which last for
    24 hours. -/
def boot (cfg : Config) : Node :=
  let expires := cfg.now + 24 * 60 * 60 * 1000
  let toVs := makeTcpVisa cfg.nodeAddr 0 cfg.visaServiceAddr cfg.visaServicePort expires
  let fromVs := makeTcpVisa cfg.visaServiceAddr cfg.visaServicePort cfg.nodeAddr 0 expires
  modifyVisas {
    now := cfg.now
    zprAddr := cfg.zprAddr
    peers := ((∅ : Table LinkId PeerState).insert dockLinkId (.new 1 .internal [])).insert localActorLinkId
      (.new 0 .internal cfg.zprAddr)
    nextSerial := 2
    visas := {
      table := ((∅ : Table VisaId Visa).insert 1 toVs).insert 2 fromVs
      timeoutQueue := [⟨expires, 1⟩, ⟨expires, 2⟩]
      lookupTable := [] }
    tasks := []
    events := [] } (·.rebuildLookup)

/-- A node that has just been started. -/
def Booted (n : Node) : Prop := ∃ cfg, n = boot cfg

theorem lookup_peers_boot {cfg : Config} {link : LinkId} {p : PeerState}
    (h : (boot cfg).peers.lookup link = some p) :
    (link = localActorLinkId ∧ p = .new 0 .internal cfg.zprAddr) ∨
      (link = dockLinkId ∧ p = .new 1 .internal []) := by
  simp only [boot, modifyVisas, Table.lookup_insert] at h
  split at h
  · next hl => exact .inl ⟨hl, (Option.some.inj h).symm⟩
  split at h
  · next hl => exact .inr ⟨hl, (Option.some.inj h).symm⟩
  · cases h

theorem views_boot (cfg : Config) (link : LinkId) :
    (∀ stream, (boot cfg).route link stream = none) ∧
    (∀ txn, (boot cfg).bindState link txn = none) ∧ ∀ txn, (boot cfg).awaiting link txn = none := by
  cases hp : (boot cfg).peers.lookup link with
  | none => simp [route, bindState, awaiting, hp]
  | some p =>
    have hnew : p.pft = ∅ ∧ p.nodeState = ⟨∅, ∅⟩ := by
      rcases lookup_peers_boot hp with ⟨-, rfl⟩ | ⟨-, rfl⟩ <;> exact ⟨rfl, rfl⟩
    simp [route, bindState, awaiting, hp, hnew]

end Node

end ZprCore.Dock
