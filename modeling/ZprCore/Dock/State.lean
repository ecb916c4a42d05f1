-- SUMMARY: Updates of a node's state and what the views on it show after each of them.
import ZprCore.Dock.Tables

/-!
# Updates and views of a node

The handlers of the dock change a node only through the updates of this file, and the
properties of a node are stated over the views: who is at the other end of a link, the routes
of a link, the bind requests it made and the next-hop binds it has to answer. There is one
lemma for each view and update.
-/

namespace ZprCore.Dock

open ZprCore.Flow

/-- Who is at the other end of a link. -/
structure Endpoint where
  serial : Nat
  linkType : LinkType
  actorAddresses : List IpAddress
  aaaAddress : Option IpAddress

def PeerState.endpoint (p : PeerState) : Endpoint :=
  ⟨p.serial, p.linkType, p.actorAddresses, p.aaaAddress⟩

namespace Node

variable {n : Node} {link other : LinkId} {f : PeerState → PeerState} {entry : ForwardingEntry}
  {txn h : TxnHandle} {linkType : LinkType} {stream : StreamId} {origin : LinkId × TxnId}
  {st : BindRequestState} {t : TxnId} {pep : PftPep} {e : Endpoint} {n' : Node} {p : PeerState}

/-! ## Views -/

def endpoint (n : Node) (link : LinkId) : Option Endpoint :=
  (n.peers.lookup link).map (·.endpoint)

/-- The route that `FastpathWorker::forward` takes for a packet received on a stream. -/
def route (n : Node) (link : LinkId) (stream : StreamId) : Option PftPep :=
  (n.peers.lookup link).bind (·.pft.lookup stream)

def bindState (n : Node) (link : LinkId) (txn : TxnId) : Option BindRequestState :=
  (n.peers.lookup link).bind (·.nodeState.bindRequestState.lookup txn)

def awaiting (n : Node) (link : LinkId) (txn : TxnHandle) : Option (LinkId × TxnId) :=
  (n.peers.lookup link).bind (·.nodeState.awaitingNextHopBindTable.lookup txn)

theorem endpoint_eq_some :
    n.endpoint link = some e ↔ ∃ p, n.peers.lookup link = some p ∧ p.endpoint = e :=
  Option.map_eq_some_iff

theorem endpoint_eq_none : n.endpoint link = none ↔ n.peers.lookup link = none :=
  Option.map_eq_none_iff

theorem route_eq_some :
    n.route link stream = some pep ↔
      ∃ p, n.peers.lookup link = some p ∧ p.pft.lookup stream = some pep :=
  Option.bind_eq_some_iff

theorem bindState_eq_some {txn : TxnId} :
    n.bindState link txn = some st ↔
      ∃ p, n.peers.lookup link = some p ∧ p.nodeState.bindRequestState.lookup txn = some st :=
  Option.bind_eq_some_iff

theorem awaiting_eq_some :
    n.awaiting link txn = some origin ↔
      ∃ p, n.peers.lookup link = some p ∧
        p.nodeState.awaitingNextHopBindTable.lookup txn = some origin :=
  Option.bind_eq_some_iff

/-- A transaction is open as long as a handle to it is kept. -/
def isOpen (n : Node) (txn : TxnHandle) : Bool := n.peers.any fun _ p => p.holds txn

theorem not_held_of_isOpen (h : n.isOpen txn = false) :
    (∀ link, n.awaiting link txn = none) ∧
    ∀ link t v egress, n.bindState link t ≠ some (.awaitingNextHopBind v egress txn) := by
  simp only [isOpen, Table.any_eq_false, PeerState.holds, Bool.or_eq_false_iff,
    Option.isSome_eq_false_iff, Option.isNone_iff_eq_none, decide_eq_false_iff_not] at h
  constructor
  · intro link
    cases hp : n.peers.lookup link with
    | none => simp only [awaiting, hp, Option.bind_none]
    | some p => simpa only [awaiting, hp, Option.bind_some] using (h link p hp).1
  · intro link t v egress hst
    obtain ⟨p, hp, hst⟩ := bindState_eq_some.mp hst
    exact (h link p hp).2 t _ hst rfl

/-! ## The log, the tasks and the visa table -/

def log (n : Node) (e : Event) : Node := { n with events := n.events ++ [e] }

def setTasks (n : Node) (tasks : List VisaTask) : Node := { n with tasks := tasks }

def modifyVisas (n : Node) (f : VisaTable → VisaTable) : Node := { n with visas := f n.visas }

/-- Send a message on a link. A link that is gone takes no messages. -/
def send (n : Node) (link : LinkId) (message : Message) : Node :=
  match n.endpoint link with
  | none => n
  | some e => n.log (.sent link e.serial message)

theorem send_of_none (h : n.endpoint link = none) (m : Message) : n.send link m = n := by
  rw [send, h]

theorem send_of_some (h : n.endpoint link = some e) (m : Message) :
    n.send link m = n.log (.sent link e.serial m) := by
  rw [send, h]

@[simp] theorem peers_send (n : Node) (link : LinkId) (m : Message) :
    (n.send link m).peers = n.peers := by
  unfold send
  split <;> rfl

@[simp] theorem visas_send (n : Node) (link : LinkId) (m : Message) :
    (n.send link m).visas = n.visas := by
  unfold send
  split <;> rfl

@[simp] theorem nextSerial_send (n : Node) (link : LinkId) (m : Message) :
    (n.send link m).nextSerial = n.nextSerial := by
  unfold send
  split <;> rfl

@[simp] theorem now_send (n : Node) (link : LinkId) (m : Message) : (n.send link m).now = n.now := by
  unfold send
  split <;> rfl

theorem endpoint_congr (h : n'.peers = n.peers) : n'.endpoint = n.endpoint := by
  funext link
  rw [endpoint, h, endpoint]

theorem route_congr (h : n'.peers = n.peers) : n'.route = n.route := by
  funext link stream
  rw [route, h, route]

/-! ## Updates of one link -/

def modifyPeer (n : Node) (link : LinkId) (f : PeerState → PeerState) : Node :=
  { n with peers := n.peers.modify link f }

def setBindState (n : Node) (link : LinkId) (txn : TxnId) (st : BindRequestState) : Node :=
  n.modifyPeer link fun p => { p with
    nodeState.bindRequestState := p.nodeState.bindRequestState.insert txn st }

def eraseBindState (n : Node) (link : LinkId) (txn : TxnId) : Node :=
  n.modifyPeer link fun p => { p with
    nodeState.bindRequestState := p.nodeState.bindRequestState.erase txn }

def setAwaiting (n : Node) (link : LinkId) (txn : TxnHandle) (origin : LinkId × TxnId) : Node :=
  n.modifyPeer link fun p => { p with
    nodeState.awaitingNextHopBindTable := p.nodeState.awaitingNextHopBindTable.insert txn origin }

def eraseAwaiting (n : Node) (link : LinkId) (txn : TxnHandle) : Node :=
  n.modifyPeer link fun p => { p with
    nodeState.awaitingNextHopBindTable := p.nodeState.awaitingNextHopBindTable.erase txn }

/-- Opening a transaction moves on to the next id. -/
def bumpTxn (n : Node) (link : LinkId) : Node :=
  n.modifyPeer link fun p => { p with nextFree := p.nextFree + 1 }

def setRoute (n : Node) (entry : ForwardingEntry) (pep : PftPep) : Node :=
  n.modifyPeer entry.link fun p => { p with pft := p.pft.insert entry.stream pep }

def eraseRoute (n : Node) (entry : ForwardingEntry) : Node :=
  n.modifyPeer entry.link fun p => { p with pft := p.pft.erase entry.stream }

theorem endpoint_modifyPeer (h : ∀ p, (f p).endpoint = p.endpoint) :
    (n.modifyPeer link f).endpoint other = n.endpoint other := by
  rw [endpoint, endpoint, Option.map_eq_bind, Option.map_eq_bind]
  exact Table.bind_lookup_modify (fun p => by rw [Function.comp_apply, h p, Function.comp_apply]) ..

theorem route_modifyPeer (h : ∀ p, (f p).pft = p.pft) :
    (n.modifyPeer link f).route other stream = n.route other stream :=
  Table.bind_lookup_modify (fun p => by rw [h p]) ..

theorem bindState_modifyPeer {txn : TxnId} (h : ∀ p, (f p).nodeState.bindRequestState =
      p.nodeState.bindRequestState) :
    (n.modifyPeer link f).bindState other txn = n.bindState other txn :=
  Table.bind_lookup_modify (fun p => by rw [h p]) ..

theorem awaiting_modifyPeer (h : ∀ p, (f p).nodeState.awaitingNextHopBindTable =
      p.nodeState.awaitingNextHopBindTable) :
    (n.modifyPeer link f).awaiting other txn = n.awaiting other txn :=
  Table.bind_lookup_modify (fun p => by rw [h p]) ..

theorem lookup_modifyPeer :
    (n.modifyPeer link f).peers.lookup other =
      if other = link then (n.peers.lookup other).map f else n.peers.lookup other :=
  Table.lookup_modify ..

@[simp] theorem endpoint_modifyVisas (n : Node) (f : VisaTable → VisaTable) :
    (n.modifyVisas f).endpoint = n.endpoint := rfl
@[simp] theorem endpoint_send (n : Node) (link : LinkId) (m : Message) :
    (n.send link m).endpoint = n.endpoint := endpoint_congr (peers_send ..)
@[simp] theorem endpoint_eraseBindState {txn : TxnId} :
    (n.eraseBindState link txn).endpoint other = n.endpoint other := endpoint_modifyPeer fun _ => rfl
@[simp] theorem endpoint_setRoute :
    (n.setRoute entry pep).endpoint other = n.endpoint other := endpoint_modifyPeer fun _ => rfl
@[simp] theorem endpoint_eraseRoute :
    (n.eraseRoute entry).endpoint other = n.endpoint other := endpoint_modifyPeer fun _ => rfl

@[simp] theorem route_modifyVisas (n : Node) (f : VisaTable → VisaTable) :
    (n.modifyVisas f).route = n.route := rfl
@[simp] theorem route_send (n : Node) (link : LinkId) (m : Message) :
    (n.send link m).route = n.route := route_congr (peers_send ..)
@[simp] theorem route_eraseBindState {txn : TxnId} :
    (n.eraseBindState link txn).route other stream = n.route other stream := route_modifyPeer fun _ => rfl
@[simp] theorem route_eraseAwaiting :
    (n.eraseAwaiting link txn).route other stream = n.route other stream :=
  route_modifyPeer fun _ => rfl
theorem route_setRoute (hlive : (n.peers.lookup entry.link).isSome) :
    (n.setRoute entry pep).route other stream =
      if ⟨other, stream⟩ = entry then some pep else n.route other stream := by
  obtain ⟨link, slot⟩ := entry
  simp only [ForwardingEntry.mk.injEq]
  exact Table.lookup_modify_insert (g := PeerState.pft) hlive

theorem route_eraseRoute :
    (n.eraseRoute entry).route other stream =
      if ⟨other, stream⟩ = entry then none else n.route other stream := by
  obtain ⟨link, slot⟩ := entry
  simp only [ForwardingEntry.mk.injEq]
  exact Table.lookup_modify_erase (g := PeerState.pft)

section BindState

variable {txn : TxnId}

@[simp] theorem bindState_setAwaiting :
    (n.setAwaiting link h origin).bindState other txn = n.bindState other txn :=
  bindState_modifyPeer fun _ => rfl
@[simp] theorem bindState_eraseAwaiting :
    (n.eraseAwaiting link h).bindState other txn = n.bindState other txn :=
  bindState_modifyPeer fun _ => rfl
@[simp] theorem bindState_eraseRoute :
    (n.eraseRoute entry).bindState other txn = n.bindState other txn :=
  bindState_modifyPeer fun _ => rfl

theorem bindState_setBindState (hlive : (n.peers.lookup link).isSome) :
    (n.setBindState link t st).bindState other txn =
      if other = link ∧ txn = t then some st else n.bindState other txn :=
  Table.lookup_modify_insert (g := fun p : PeerState => p.nodeState.bindRequestState) hlive

theorem bindState_eraseBindState :
    (n.eraseBindState link t).bindState other txn =
      if other = link ∧ txn = t then none else n.bindState other txn :=
  Table.lookup_modify_erase (g := fun p : PeerState => p.nodeState.bindRequestState)

end BindState

@[simp] theorem awaiting_setBindState :
    (n.setBindState link t st).awaiting other txn = n.awaiting other txn :=
  awaiting_modifyPeer fun _ => rfl
@[simp] theorem awaiting_eraseBindState :
    (n.eraseBindState link t).awaiting other txn = n.awaiting other txn :=
  awaiting_modifyPeer fun _ => rfl
@[simp] theorem awaiting_eraseRoute :
    (n.eraseRoute entry).awaiting other txn = n.awaiting other txn :=
  awaiting_modifyPeer fun _ => rfl

theorem awaiting_setAwaiting (hlive : (n.peers.lookup link).isSome) :
    (n.setAwaiting link h origin).awaiting other txn =
      if other = link ∧ txn = h then some origin else n.awaiting other txn :=
  Table.lookup_modify_insert (g := fun p : PeerState => p.nodeState.awaitingNextHopBindTable) hlive

theorem awaiting_eraseAwaiting :
    (n.eraseAwaiting link h).awaiting other txn =
      if other = link ∧ txn = h then none else n.awaiting other txn :=
  Table.lookup_modify_erase (g := fun p : PeerState => p.nodeState.awaitingNextHopBindTable)

/-! ## Links that come and go -/

/-- A new incarnation of a link, with the next serial. -/
def openLink (n : Node) (link : LinkId) (linkType : LinkType) : Node :=
  { n with
    peers := n.peers.insert link (.new n.nextSerial linkType [])
    nextSerial := n.nextSerial + 1 }

def erasePeer (n : Node) (link : LinkId) : Node := { n with peers := n.peers.erase link }

theorem endpoint_openLink :
    (n.openLink link linkType).endpoint other =
      if other = link then some ⟨n.nextSerial, linkType, [], none⟩ else n.endpoint other := by
  simp only [endpoint, openLink, Table.lookup_insert]
  split <;> rfl

theorem route_openLink :
    (n.openLink link linkType).route other stream =
      if other = link then none else n.route other stream := by
  simp only [route, openLink, Table.lookup_insert]
  split <;> rfl

theorem bindState_openLink {txn : TxnId} :
    (n.openLink link linkType).bindState other txn =
      if other = link then none else n.bindState other txn := by
  simp only [bindState, openLink, Table.lookup_insert]
  split <;> rfl

theorem awaiting_openLink :
    (n.openLink link linkType).awaiting other txn =
      if other = link then none else n.awaiting other txn := by
  simp only [awaiting, openLink, Table.lookup_insert]
  split <;> rfl

theorem endpoint_erasePeer :
    (n.erasePeer link).endpoint other = if other = link then none else n.endpoint other := by
  simp only [endpoint, erasePeer, Table.lookup_erase]
  split <;> rfl

theorem route_erasePeer :
    (n.erasePeer link).route other stream = if other = link then none else n.route other stream := by
  simp only [route, erasePeer, Table.lookup_erase]
  split <;> rfl

theorem bindState_erasePeer {txn : TxnId} :
    (n.erasePeer link).bindState other txn =
      if other = link then none else n.bindState other txn := by
  simp only [bindState, erasePeer, Table.lookup_erase]
  split <;> rfl

theorem awaiting_erasePeer :
    (n.erasePeer link).awaiting other txn =
      if other = link then none else n.awaiting other txn := by
  simp only [awaiting, erasePeer, Table.lookup_erase]
  split <;> rfl

/-! ## Incarnations -/

def serial (n : Node) (link : LinkId) : Option Nat := (n.endpoint link).map (·.serial)

theorem serial_eq_some (hp : n.peers.lookup link = some p) :
    n.serial link = some p.serial := by
  rw [serial, endpoint, hp]
  rfl

theorem serial_isSome : (n.serial link).isSome = (n.peers.lookup link).isSome := by
  rw [serial, endpoint, Option.isSome_map, Option.isSome_map]

theorem serial_eq_none : n.serial link = none ↔ n.peers.lookup link = none := by
  rw [serial, endpoint, Option.map_eq_none_iff, Option.map_eq_none_iff]

theorem lookup_modifyPeer_isSome :
    ((n.modifyPeer other f).peers.lookup link).isSome = (n.peers.lookup link).isSome := by
  rw [lookup_modifyPeer]
  split
  · exact Option.isSome_map
  · rfl

theorem endpoint_of_lookup (hp : n.peers.lookup link = some p) :
    n.endpoint link = some p.endpoint :=
  endpoint_eq_some.mpr ⟨p, hp, rfl⟩

theorem serial_modifyPeer (h : ∀ p, (f p).serial = p.serial) :
    (n.modifyPeer link f).serial = n.serial := by
  funext other
  simp only [serial, endpoint, lookup_modifyPeer, Option.map_map]
  split
  · cases n.peers.lookup other with
    | none => rfl
    | some p => exact congrArg some (h p)
  · rfl

theorem serial_erasePeer :
    (n.erasePeer link).serial other = if other = link then none else n.serial other := by
  rw [serial, endpoint_erasePeer]
  split <;> rfl

theorem serial_openLink :
    (n.openLink link linkType).serial other =
      if other = link then some n.nextSerial else n.serial other := by
  rw [serial, endpoint_openLink]
  split <;> rfl

end Node

end ZprCore.Dock
