-- SUMMARY: Data of a node's dock: visas, forwarding tables, bind requests, links and the log.
import ZprCore.Lib.Table
import ZprCore.Flow.Classifier
import ZprCore.Link.State
import Mathlib.Data.List.Induction
import Mathlib.Data.List.Perm.Basic

/-!
# Tables of a dock

The data of `visa_table.rs`, `forwarding_tables.rs`, `mgmt/node.rs` and of the parts of
`peer_table.rs` and `txn_mgr.rs` that these use. Hash maps are finite tables. A slab is a
table from its keys, and which vacant key it hands out is left open. The binary heap of
visa timeouts is the list of its elements in the order in which they are popped. Times are
milliseconds.
-/

namespace ZprCore.Dock

open ZprCore.Flow

export Mgmt (LinkId)
export Link (LinkType)

abbrev StreamId := Nat
abbrev VisaId := Nat
abbrev TxnId := BitVec 16

def localActorLinkId : LinkId := 1
def dockLinkId : LinkId := 2

def peerForwardingTableSize : Nat := 2 ^ 20

def minVisaId : VisaId := 1000

structure ForwardingEntry where
  link : LinkId
  stream : StreamId
deriving DecidableEq

structure PftPep where
  nextHop : ForwardingEntry
  visaId : VisaId
deriving DecidableEq

/-! ## Visas -/

inductive VisaType where
  | full
  | forwardOnly
deriving DecidableEq

/-- The part of a visa that the dock enforces. -/
structure DockPep where
  fiveTuple : FiveTuple
  ingressKey : Bytes
  egressKey : Bytes
deriving DecidableEq

/-- `vsapi_types::Visa`, a visa as the visa service issues it. -/
structure VsVisa where
  issuerId : VisaId
  expires : Nat
  visaType : VisaType
  dockPep : Option DockPep
  /-- The next hop of the forwarding PEP. -/
  fwdPep : Option IpAddress
deriving DecidableEq

/-- A visa in the table of a node. -/
structure Visa where
  expires : Nat
  dockPep : DockPep
  streams : List ForwardingEntry
  nextHop : IpAddress
deriving DecidableEq

structure VisaTimeout where
  expiration : Nat
  id : VisaId
deriving DecidableEq

/-- Is the first timeout popped before the second? -/
def VisaTimeout.before (a b : VisaTimeout) : Prop :=
  a.expiration < b.expiration ∨ (a.expiration = b.expiration ∧ a.id ≤ b.id)

instance : DecidableRel VisaTimeout.before := fun _ _ => inferInstanceAs (Decidable (_ ∨ _))

structure VisaTable where
  table : Table VisaId Visa
  timeoutQueue : List VisaTimeout
  /-- The visas in the five-tuple lookup table. -/
  lookupTable : List (VisaId × FiveTuple)

/-- `FiveTupleLookupTable::find_match` of the `zpr` crate, of which only this is assumed: a
    match is one of the visas in the table, and its classifier matches the traffic. -/
structure FiveTupleLookup where
  findMatch : List (VisaId × FiveTuple) → FiveTuple → Option VisaId
  sound : ∀ {entries f v}, findMatch entries f = some v →
    ∃ ft, (v, ft) ∈ entries ∧ Ip5TupleTc.classify5t ⟨ft⟩ f = true

/-- The plainest of such lookups takes the first match. -/
def firstMatch : FiveTupleLookup where
  findMatch entries f := (entries.find? fun e => Ip5TupleTc.classify5t ⟨e.2⟩ f).map (·.1)
  sound := by
    intro entries f v h
    obtain ⟨⟨v', ft⟩, hfind, rfl⟩ := Option.map_eq_some_iff.mp h
    have hmatch := List.find?_some hfind
    exact ⟨ft, List.mem_of_find?_eq_some hfind, hmatch⟩

/-- `vsapi_ip_to_defs_ip`: the protocols a visa may name. -/
def knownProtocol (p : IpProtocol) : Bool :=
  p ∈ [IpNumber.hopopt, IpNumber.icmp, IpNumber.ipinip, IpNumber.tcp, IpNumber.udp,
    IpNumber.ipv6Route, IpNumber.ipv6Frag, IpNumber.ah, IpNumber.ipv6Icmp, IpNumber.ipv6Opts]

namespace Visa

/-- `Visa::get_tc`, which panics on a protocol it does not know. -/
def getTc (visa : Visa) : Option Ip5TupleTc :=
  if knownProtocol visa.dockPep.fiveTuple.l4Protocol then some ⟨visa.dockPep.fiveTuple⟩ else none

/-- A session key is a public key if it has 32 bytes. -/
def publicKey (key : Bytes) : Option Bytes := if key.length = 32 then some key else none

def getIngressA2aDhPubkey (visa : Visa) : Option Bytes := publicKey visa.dockPep.ingressKey

def getEgressA2aDhPubkey (visa : Visa) : Option Bytes := publicKey visa.dockPep.egressKey

def linkForwardingEntry (visa : Visa) (entry : ForwardingEntry) : Visa :=
  { visa with streams := visa.streams ++ [entry] }

/-- `Vec::swap_remove`: the last element takes the place of the removed one. -/
def swapRemove (l : List ForwardingEntry) (i : Nat) : List ForwardingEntry :=
  match l.getLast? with
  | none => l
  | some last => (l.set i last).dropLast

def unlinkForwardingEntry (visa : Visa) (entry : ForwardingEntry) : Visa :=
  if entry ∈ visa.streams then
    { visa with streams := swapRemove visa.streams (visa.streams.idxOf entry) }
  else visa

theorem swapRemove_perm {l : List ForwardingEntry} {i : Nat} (h : i < l.length) :
    (swapRemove l i).Perm (l.eraseIdx i) := by
  induction l using List.reverseRecOn with
  | nil => cases h
  | append_singleton init last _ =>
    simp only [swapRemove, List.getLast?_append, List.getLast?_singleton, Option.some_or]
    rcases Nat.lt_or_ge i init.length with hi | hi
    · rw [List.set_append_left _ _ hi, List.dropLast_concat, List.eraseIdx_append_of_lt_length hi,
        List.set_eq_take_append_cons_drop, if_pos hi, List.eraseIdx_eq_take_drop_succ,
        List.append_assoc]
      exact List.Perm.append_left _ (List.perm_append_singleton last _).symm
    · have hi : i = init.length := by
        rw [List.length_append, List.length_singleton] at h
        exact Nat.le_antisymm (Nat.lt_succ_iff.mp h) hi
      rw [hi, List.eraseIdx_append_of_length_le (le_refl _)]
      simp

theorem unlinkForwardingEntry_perm (visa : Visa) (entry : ForwardingEntry) :
    (visa.unlinkForwardingEntry entry).streams.Perm (visa.streams.erase entry) := by
  unfold unlinkForwardingEntry
  split
  · next hmem =>
    rw [List.erase_eq_eraseIdx_of_idxOf rfl]
    exact swapRemove_perm (List.idxOf_lt_length_of_mem hmem)
  · next hmem => rw [List.erase_of_not_mem hmem]

end Visa

/-! ## Links -/

/-- A transaction handle: the manager that opened the transaction, which is the one of the
    link incarnation with this serial, and the id of the transaction. -/
structure TxnHandle where
  mgr : Nat
  id : TxnId
deriving DecidableEq

inductive BindRequestState where
  | awaitingVisaResponse
  | awaitingVisaPush (visaId : VisaId)
  | awaitingNextHopBind (visaId : VisaId) (egressLinkId : LinkId) (egressBindTxn : TxnHandle)
deriving DecidableEq

/-- The transaction handle that a bind request keeps open. -/
def BindRequestState.egressBindTxn? : BindRequestState → Option TxnHandle
  | .awaitingNextHopBind _ _ txn => some txn
  | _ => none

structure NodePeerState where
  bindRequestState : Table TxnId BindRequestState
  awaitingNextHopBindTable : Table TxnHandle (LinkId × TxnId)

inductive PeerType where
  | node
  | adapter
  | dock
  | unknown
deriving DecidableEq

/-- What is at the other end of a link, as seen by this process. -/
def peerTypeOf (linkType : LinkType) (link : LinkId) : PeerType :=
  match linkType with
  | .internal =>
    if link = localActorLinkId then .adapter else if link = dockLinkId then .dock else .unknown
  | .nodeToAdapter => .adapter
  | .adapterToNode => .dock
  | .nodeToNode => .node

/-- What the dock uses of a `PeerState`. -/
structure PeerState where
  /-- Tells the incarnations of a link id apart; not in the source. -/
  serial : Nat
  linkType : LinkType
  actorAddresses : List IpAddress
  aaaAddress : Option IpAddress
  pft : Table StreamId PftPep
  nodeState : NodePeerState
  /-- `next_free` of the transaction manager. -/
  nextFree : TxnId

namespace PeerState

def new (serial : Nat) (linkType : LinkType) (actorAddresses : List IpAddress) : PeerState where
  serial := serial
  linkType := linkType
  actorAddresses := actorAddresses
  aaaAddress := none
  pft := ∅
  nodeState := { bindRequestState := ∅, awaitingNextHopBindTable := ∅ }
  nextFree := 0

def peerType (p : PeerState) (link : LinkId) : PeerType := peerTypeOf p.linkType link

def hasActorAddress (p : PeerState) (addr : IpAddress) : Bool :=
  addr ∈ p.actorAddresses || p.aaaAddress = some addr

def getActorAddresses (p : PeerState) : List IpAddress := p.actorAddresses ++ p.aaaAddress.toList

/-- Does the link keep the transaction open, as requester or on behalf of a bind request? -/
def holds (p : PeerState) (txn : TxnHandle) : Bool :=
  (p.nodeState.awaitingNextHopBindTable.lookup txn).isSome ||
    p.nodeState.bindRequestState.any fun _ st => st.egressBindTxn? = some txn

end PeerState

/-! ## Messages, tasks and the node -/

/-- Management messages the dock sends. A success response also names the visa the stream is
    bound to, which is not on the wire. -/
inductive Message where
  | bindActorAddressSuccess (txn : TxnId) (stream : StreamId) (tc : Ip5TupleTc)
      (peerKey : Option Bytes) (visaId : VisaId)
  | bindActorAddressError (txn : TxnId) (reason : String)
  | streamIdSuccess (txn : TxnId) (stream : StreamId) (visaId : VisaId)
  | streamIdError (txn : TxnId) (reason : String)
  | streamIdRequest (txn : TxnId) (visaId : VisaId)
  | bindEgressStreamRequest (txn : TxnId) (tc : Ip5TupleTc) (peerKey : Option Bytes)
  | unbindEgressStream (stream : StreamId)
  | streamIdWithdrawal (stream : StreamId)
deriving DecidableEq

/-- The stream that a success response tells the peer, and its visa. -/
def Message.tells : Message → Option (StreamId × VisaId)
  | .bindActorAddressSuccess _ stream _ _ v => some (stream, v)
  | .streamIdSuccess _ stream v => some (stream, v)
  | _ => none

/-- The bind request of an adapter that a message answers. -/
def Message.answers : Message → Option TxnId
  | .bindActorAddressSuccess txn .. => some txn
  | .bindActorAddressError txn _ => some txn
  | _ => none

/-- The success response to a peer of a kind. -/
inductive Message.Success (txn : TxnId) (stream : StreamId) (visa : Visa) (v : VisaId) :
    PeerType → Message → Prop where
  | node : Success txn stream visa v .node (.streamIdSuccess txn stream v)
  | adapter {tc : Ip5TupleTc} : visa.getTc = some tc →
      Success txn stream visa v .adapter
        (.bindActorAddressSuccess txn stream tc visa.getEgressA2aDhPubkey v)

variable {stream : StreamId} {txn : TxnId} {visa : Visa} {v : VisaId} {t : PeerType} {m : Message}

theorem Message.Success.tells
    (h : Message.Success txn stream visa v t m) : m.tells = some (stream, v) := by
  cases h <;> rfl

theorem Message.Success.answers (h : Message.Success txn stream visa v t m) :
    m.answers = if t = .adapter then some txn else none := by
  cases h <;> rfl

/-- Does the message tell the peer a stream, or take one back? -/
def Message.movesStream (m : Message) : Bool :=
  m.tells.isSome || match m with
    | .streamIdWithdrawal _ => true
    | _ => false

/-- What happened between the node and the incarnations of its links. -/
inductive Event where
  | sent (link : LinkId) (serial : Nat) (message : Message)
  /-- A bind request the node accepted for processing. -/
  | requested (link : LinkId) (serial : Nat) (txn : TxnId)
  /-- The peer gave up a stream. -/
  | unbound (link : LinkId) (serial : Nat) (stream : StreamId)
deriving DecidableEq

/-- The stream that the peer of a link is told, and its visa. -/
def Event.tells : Event → Option (LinkId × StreamId × VisaId)
  | .sent link _ message => message.tells.map (link, ·)
  | _ => none

/-- Does a peer hold other streams after the event than before? -/
def Event.movesStream : Event → Bool
  | .sent _ _ m => m.movesStream
  | .requested .. => false
  | .unbound .. => true

theorem Event.tells_of_quiet {e : Event} (h : e.movesStream = false) : e.tells = none := by
  cases e with
  | sent link σ message =>
    cases hm : message.tells with
    | none => simp [Event.tells, hm]
    | some x => simp [Event.movesStream, Message.movesStream, hm] at h
  | requested | unbound => rfl

/-- What a visa task asks the visa service for. -/
inductive VisaQuery where
  | visaRequest (fiveTuple : FiveTuple)
  | visaById (visaId : VisaId)
deriving DecidableEq

/-- A running `visa_request_task` or `visa_push_request_task`. The serial of the link that
    asked is not in the source. -/
structure VisaTask where
  link : LinkId
  serial : Nat
  txn : TxnId
  query : VisaQuery
deriving DecidableEq

structure Node where
  now : Nat
  zprAddr : List IpAddress
  peers : Table LinkId PeerState
  nextSerial : Nat
  visas : VisaTable
  tasks : List VisaTask
  events : List Event

/-- Where the source panics. The process is built to abort on a panic. -/
inductive Panic where
  | forwardOnlyVisa
  | noDockPep
  | unknownProtocol
  | vacantSlot
  | bindBackpressure
  | dockConsistency
  | sliceIndex
deriving DecidableEq

/-- Why an action has no next state: a panic, or a choice that the environment cannot make. -/
inductive Halt where
  | panic (p : Panic)
  | notOffered
deriving DecidableEq

end ZprCore.Dock
