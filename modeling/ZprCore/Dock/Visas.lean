-- SUMMARY: The visa table of a node and the removal of routes, links and streams.
import ZprCore.Dock.State
import Mathlib.Data.List.Sort

/-!
# Visas and routes

`visa_table.rs`, `visa_mgmt.rs`, `Assembly::drop_peer` and `node::unbind_stream`. The entries
of the forwarding tables that a visa stands behind are found only through its `streams` list,
which lists the ingress side of every bind made under it.
-/

namespace ZprCore.Dock

open ZprCore.Flow

namespace VisaTable

def insert (vt : VisaTable) (v : VisaId) (visa : Visa) : VisaTable where
  table := vt.table.insert v visa
  timeoutQueue := vt.timeoutQueue.orderedInsert VisaTimeout.before ⟨visa.expires, v⟩
  lookupTable := (v, visa.dockPep.fiveTuple) :: vt.lookupTable

def erase (vt : VisaTable) (v : VisaId) : VisaTable := { vt with table := vt.table.erase v }

def modify (vt : VisaTable) (v : VisaId) (f : Visa → Visa) : VisaTable :=
  { vt with table := vt.table.modify v f }

/-- Replace the five-tuple lookup table by one of the visas in the table. -/
def rebuildLookup (vt : VisaTable) : VisaTable :=
  { vt with lookupTable := vt.table.entries.map fun e => (e.1, e.2.dockPep.fiveTuple) }

def popExpired (vt : VisaTable) (now : Nat) : VisaTable :=
  { vt with timeoutQueue := vt.timeoutQueue.dropWhile (·.expiration < now) }

end VisaTable

/-- `Visa::new`: a visa of the visa service as it is stored, without streams. -/
def VsVisa.stored (visa : VsVisa) (dockPep : DockPep) : Visa where
  expires := visa.expires
  dockPep := dockPep
  streams := []
  nextHop := visa.fwdPep.getD .unspecified

/-- What the visa service asks of a node. -/
inductive VisaOp where
  | grant (visa : VsVisa)
  | revokeVisaId (v : VisaId)
deriving DecidableEq

/-- The forwarding entries that go with the visas that a list of operations revokes. A visa that was
    granted or revoked by an operation before lists none. -/
def withdrawnBy (streams : VisaId → List ForwardingEntry) : List VisaOp → List ForwardingEntry
  | [] => []
  | .grant visa :: ops => withdrawnBy (Function.update streams visa.issuerId []) ops
  | .revokeVisaId v :: ops => streams v ++ withdrawnBy (Function.update streams v []) ops

namespace Node

/-! ## The visa table -/

/-- `visa_mgmt::insert_visa` and `VisaTable::insert_visa` -/
def insertVisa (n : Node) (visa : VsVisa) : Except Halt Node :=
  if visa.visaType ≠ .full then .error (.panic .forwardOnlyVisa)
  else
    match visa.dockPep with
    | none => .error (.panic .noDockPep)
    | some dockPep => .ok (n.modifyVisas (·.insert visa.issuerId (visa.stored dockPep)))

/-- `PeerTable::remove_route`: the slab panics on a vacant slot. -/
def removeRoute (n : Node) (entry : ForwardingEntry) : Except Halt Node :=
  match n.peers.lookup entry.link with
  | none => .ok n
  | some p =>
    match p.pft.lookup entry.stream with
    | none => .error (.panic .vacantSlot)
    | some _ => .ok (n.eraseRoute entry)

/-- The loop of `Visa::remove_forwarding_entries`. -/
def removeRoutes (n : Node) : List ForwardingEntry → Except Halt Node
  | [] => .ok n
  | entry :: rest => (n.removeRoute entry).bind fun n => n.removeRoutes rest

/-- `VisaTable::revoke_no_rebuild`. A visa that is not found withdraws nothing, which is what
    every caller makes of the error. -/
def revokeNoRebuild (n : Node) (v : VisaId) : Except Halt (Node × List ForwardingEntry) :=
  match n.visas.table.lookup v with
  | none => .ok (n, [])
  | some visa =>
    ((n.modifyVisas (·.erase v)).removeRoutes visa.streams).map fun n => (n, visa.streams)

/-- Revoke visas one after another and collect the withdrawn entries. -/
def revokeAll (n : Node) : List VisaId → Except Halt (Node × List ForwardingEntry)
  | [] => .ok (n, [])
  | v :: rest =>
    (n.revokeNoRebuild v).bind fun (n, withdrawn) =>
      (n.revokeAll rest).map fun (n, more) => (n, withdrawn ++ more)

/-- The visas whose timeout has passed, in the order in which they are popped. -/
def expired (n : Node) : List VisaId :=
  (n.visas.timeoutQueue.takeWhile (·.expiration < n.now)).map (·.id)

/-- `VisaTable::handle_expirations` -/
def handleExpirations (n : Node) : Except Halt Node :=
  ((n.modifyVisas (·.popExpired n.now)).revokeAll n.expired).map fun (n, _) =>
    n.modifyVisas (·.rebuildLookup)

/-- The visas that `revoke_for_link` selects: those with a stream on the link. -/
def boundTo (n : Node) (link : LinkId) : List VisaId :=
  n.visas.table.keysWhere fun v visa => minVisaId ≤ v && visa.streams.any (·.link = link)

def revokeForLink (n : Node) (link : LinkId) : Except Halt (Node × List ForwardingEntry) :=
  (n.revokeAll (n.boundTo link)).map fun (n', withdrawn) =>
    (if (n.boundTo link).isEmpty then n' else n'.modifyVisas (·.rebuildLookup), withdrawn)

/-! ## Withdrawals, revocation and link drops -/

def withdrawStreams (n : Node) (excluded : Option LinkId) : List ForwardingEntry → Node
  | [] => n
  | entry :: rest =>
    if excluded = some entry.link then n.withdrawStreams excluded rest
    else (n.send entry.link (.streamIdWithdrawal entry.stream)).withdrawStreams excluded rest

/-- `visa_mgmt::handle_revocation`, with `VisaTable::revoke` -/
def handleRevocation (n : Node) (v : VisaId) : Except Halt Node :=
  (n.revokeNoRebuild v).map fun (n, withdrawn) =>
    (n.modifyVisas (·.rebuildLookup)).withdrawStreams none withdrawn

/-- `Assembly::drop_peer` -/
def dropPeer (n : Node) (link : LinkId) : Except Halt Node :=
  (n.revokeForLink link).map fun (n, withdrawn) =>
    (n.withdrawStreams (some link) withdrawn).erasePeer link

/-- `node::unbind_stream` -/
def unbindStream (n : Node) (link : LinkId) (stream : StreamId) : Node :=
  match n.route link stream with
  | none => n
  | some pep =>
    let n := n.eraseRoute ⟨link, stream⟩
    let n := n.modifyVisas (·.modify pep.visaId (·.unlinkForwardingEntry pep.nextHop))
    n.send pep.nextHop.link (.unbindEgressStream stream)

/-! ## Egress -/

inductive VisaTableError where
  | notFound (v : VisaId)
  | destNotFound (addr : IpAddress)
deriving DecidableEq

/-- `Assembly::find_egress_link`: the local actor, or the first link with the address. -/
def findEgressLink (n : Node) (addr : IpAddress) : Option LinkId :=
  if addr ∈ n.zprAddr then some localActorLinkId
  else (n.peers.keysWhere fun _ p => addr ∈ p.getActorAddresses).min?

def getVisaNextHopAddr (n : Node) (v : VisaId) : Except VisaTableError IpAddress :=
  match n.visas.table.lookup v with
  | none => .error (.notFound v)
  | some visa =>
    .ok (if visa.nextHop = .unspecified then visa.dockPep.fiveTuple.dstAddress else visa.nextHop)

def getEgressLinkForVisa (n : Node) (v : VisaId) : Except VisaTableError LinkId :=
  match n.getVisaNextHopAddr v with
  | .error e => .error e
  | .ok addr =>
    match n.findEgressLink addr with
    | none => .error (.destNotFound addr)
    | some link => .ok link

end Node

end ZprCore.Dock
