-- SUMMARY: An adapter and its node on one link, with the management messages between them.
import ZprCore.Adapter.Tables
import ZprCore.Dock.Node

/-!
# A docking session

The bind requests of `adapter_manager_worker.rs`, the adapter's side of `mgmt/adapter.rs` and of
the handlers that call it, and their composition with a node. A session is one incarnation of a
link: another adapter, or the same adapter after it has connected again, is another session.
Messages are neither lost nor doubled, and each one may overtake the others. The inbound tethers
of the adapter are left out; no message about them touches its endpoint lookup table.
-/

namespace ZprCore.Adapter

open ZprCore.Flow Dock

/-! ## The adapter -/

inductive InstallTetherError where
  | noSuchTransaction
deriving DecidableEq

namespace EndpointLookupTable

/-- `install_tether`: the table, and the packet that goes out on the tether if there is one now. -/
def installTether (elt : EndpointLookupTable) (a2a : A2a) (a2aSharedSecret : Option Bytes)
    (txn : TxnId) (tether : StreamId) (tc : Ip5TupleTc) :
    Except InstallTetherError (EndpointLookupTable × Option Bytes) :=
  match elt.lookupPending txn with
  | none => .error .noSuchTransaction
  | some f =>
    if tc.classify5t f then
      match elt.setActive f (.new a2a tc.compressionMode tether a2aSharedSecret) with
      | none => .error .noSuchTransaction
      | some (elt, initialPacket) => .ok (elt, some initialPacket)
    else
      match elt.remove f with
      | none => .error .noSuchTransaction
      | some (elt, _) => .ok (elt, none)

def denyTether (elt : EndpointLookupTable) (txn : TxnId) :
    Except InstallTetherError EndpointLookupTable :=
  match elt.lookupPending txn with
  | none => .error .noSuchTransaction
  | some f =>
    match elt.remove f with
    | none => .error .noSuchTransaction
    | some (elt, _) => .ok elt

/-- What is left of the table after a handler, which gives up on an error. -/
def orElse (elt : EndpointLookupTable) : Except InstallTetherError EndpointLookupTable → EndpointLookupTable
  | .ok elt => elt
  | .error _ => elt

/-- `handle_bind_actor_address_response` and `handle_stream_id_withdrawal` -/
def handleMessage (elt : EndpointLookupTable) (a2a : A2a) (diffieHellman : Bytes → Bytes) :
    Message → EndpointLookupTable
  | .bindActorAddressSuccess txn stream tc peerKey _ =>
    elt.orElse ((elt.installTether a2a (peerKey.map diffieHellman) txn stream tc).map (·.1))
  | .bindActorAddressError txn _ => elt.orElse (elt.denyTether txn)
  | .streamIdWithdrawal stream => elt.removeByTetherId stream
  | _ => elt

/-- An active entry sends packets of the flow on the tether. -/
def Active (elt : EndpointLookupTable) (f : FiveTuple) (tether : StreamId) : Prop :=
  ∃ pep, elt.table.lookup f = some (.active pep) ∧ pep.tetherId = tether

variable {elt elt' : EndpointLookupTable} {f g : FiveTuple} {txn : TxnId} {tether t : StreamId}
  {tc : Ip5TupleTc}

theorem active_remove {e : EltEntry} (h : elt.remove f = some (elt', e)) (hact : elt'.Active g t) :
    elt.Active g t := by
  obtain ⟨pep, hget, ht⟩ := hact
  rw [lookup_remove h] at hget
  exact ⟨pep, (Option.ite_none_left_eq_some.mp hget).2, ht⟩

theorem active_insertPending {pkt : Bytes} (h : elt.insertPending f pkt txn = .ok elt')
    (hact : elt'.Active g t) : elt.Active g t := by
  obtain ⟨pep, hget, ht⟩ := hact
  rw [lookup_insertPending h] at hget
  split at hget
  · cases hget
  · exact ⟨pep, hget, ht⟩

theorem active_removeByTetherId (hact : (elt.removeByTetherId tether).Active g t) : elt.Active g t := by
  obtain ⟨pep, hget, ht⟩ := hact
  exact ⟨pep, lookup_removeByTetherId hget, ht⟩

theorem active_denyTether (hact : (elt.orElse (elt.denyTether txn)).Active g t) : elt.Active g t := by
  unfold denyTether at hact
  split at hact
  · exact hact
  split at hact
  · exact hact
  · next hr => exact active_remove hr hact

/-- A new active entry is that of the flow that waited, and fits the classifier. -/
theorem active_installTether {a2a : A2a} {secret : Option Bytes}
    (hact : (elt.orElse ((elt.installTether a2a secret txn tether tc).map (·.1))).Active g t) :
    elt.Active g t ∨ t = tether ∧ elt.lookupPending txn = some g ∧ tc.classify5t g = true := by
  unfold installTether at hact
  split at hact
  · exact .inl hact
  next f hf =>
  split at hact
  · next htc =>
    split at hact
    · exact .inl hact
    next elt' pkt hset =>
    obtain ⟨pep, hget, ht⟩ := hact
    change elt'.table.lookup g = _ at hget
    rw [lookup_setActive hset] at hget
    split at hget
    · next hg =>
      cases hget
      exact .inr ⟨ht.symm, hg ▸ hf, hg ▸ htc⟩
    · exact .inl ⟨pep, hget, ht⟩
  · split at hact
    · exact .inl hact
    · next hr => exact .inl (active_remove hr hact)

end EndpointLookupTable

def bindRequestMaxPayloadLength : Nat := 256

structure BindRequest where
  txn : TxnId
  endpointPacketLength : Nat
  pkt : Bytes
deriving DecidableEq

def BindRequest.new (txn : TxnId) (packetBody : Bytes) : BindRequest :=
  let endpointPacketLength := min bindRequestMaxPayloadLength packetBody.length
  ⟨txn, endpointPacketLength, packetBody.take endpointPacketLength⟩

/-- `fe80::/10` -/
def isV6UnicastLinkLocal (addr : IpAddress) : Bool :=
  addr.octets[0] = 0xfe && addr.octets[1] &&& 0xc0 = 0x80

/-! ## The session -/

/-- The surroundings of a session and the incarnation of the link it is on. -/
structure Docking where
  sums : Checksums
  lookup : FiveTupleLookup
  a2a : A2a
  /-- `diffie_hellman` of the adapter's key pair -/
  diffieHellman : Bytes → Bytes
  link : LinkId
  serial : Nat

structure Session where
  node : Node
  elt : EndpointLookupTable
  /-- Messages of the node on their way. -/
  toAdapter : List Message
  /-- Bind requests on their way. -/
  toNode : List BindRequest

inductive SessionAction where
  /-- The node does anything but receive a bind request on this link. -/
  | node (a : Dock.Action)
  /-- `do_request_tether_id`. The id is one that the transaction manager has free. -/
  | requestTetherId (f : FiveTuple) (pkt : Bytes) (txn : TxnId)
  /-- The sender of a bind request is told that it could not be delivered. -/
  | requestCanceled (txn : TxnId)
  /-- One of the bind requests arrives. -/
  | requestArrives (i : Nat)
  /-- One of the node's messages arrives. -/
  | messageArrives (i : Nat)
  /-- The adapter's end of the link is closed. -/
  | clear
deriving DecidableEq

namespace Session

variable (d : Docking)

def isUp (n : Node) : Bool := n.serial d.link = some d.serial

/-- The message of an event, if it is one to the adapter. -/
def toMessage : Event → Option Message
  | .sent link serial message => if link = d.link ∧ serial = d.serial then some message else none
  | _ => none

/-- The node goes on, and what it sends to the adapter is on its way. -/
def advance (s : Session) (n : Node) : Session :=
  { s with
    node := n
    toAdapter := s.toAdapter ++ (n.events.drop s.node.events.length).filterMap (toMessage d) }

def isRequest (n : Node) : Dock.Action → Bool
  | .bindActorAddressRequest link .. => link = d.link && isUp d n
  | _ => false

def step (s : Session) : SessionAction → Option Session
  | .node a =>
    if isRequest d s.node a then none else (s.node.step d.sums d.lookup a).map (s.advance d)
  | .requestTetherId f pkt txn =>
    if (s.elt.lookupPending txn).isSome then none
    else if isV6UnicastLinkLocal f.dstAddress ∨ isV6UnicastLinkLocal f.srcAddress then some s
    else
      match s.elt.insertPending f pkt txn with
      | .error _ => some s
      | .ok elt => some { s with elt, toNode := s.toNode ++ [.new txn pkt] }
  | .requestCanceled txn => some { s with elt := s.elt.orElse (s.elt.denyTether txn) }
  | .requestArrives i =>
    match s.toNode[i]? with
    | none => none
    | some r =>
      let s := { s with toNode := s.toNode.eraseIdx i }
      if isUp d s.node then
        (s.node.step d.sums d.lookup
          (.bindActorAddressRequest d.link r.txn r.endpointPacketLength r.pkt)).map (s.advance d)
      else some s
  | .messageArrives i =>
    match s.toAdapter[i]? with
    | none => none
    | some message =>
      some { s with
        elt := s.elt.handleMessage d.a2a d.diffieHellman message
        toAdapter := s.toAdapter.eraseIdx i }
  | .clear => some { s with elt := .new }

/-- The node has just been started, and the adapter has no tethers. -/
def Starts (s : Session) : Prop :=
  Node.Booted s.node ∧ s.elt = .new ∧ s.toAdapter = [] ∧ s.toNode = []

end Session

end ZprCore.Adapter
