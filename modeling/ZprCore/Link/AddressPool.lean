-- SUMMARY: The pool of AAA addresses of a node, and who holds an address from it.
import ZprCore.Lib.Leases
import ZprCore.Link.Frame
import ZprCore.Link.Moves

/-!
# AAA addresses

A node hands every adapter that says hello an AAA address: the network that the visa service has
configured with a 40-bit ID that is not in use. The address goes with the hello response, the link
keeps it in `aaa_address`, and the clean-up of the link returns it to the pool by its ID alone. A
`Configure` message of the visa service replaces the pool by an empty one.

`Docks` are the links of a node together with the pool. Events reach the links in any order here, so
that nothing depends on when the process raises them.
-/

namespace ZprCore.Link

/-! ## The pool -/

structure Ipv6Net where
  addr : BitVec 128
  prefixLen : Nat
deriving DecidableEq

/-- The addresses of the network have the bytes that `release_address` takes for the mark of an
    AAA address. -/
def Ipv6Net.isMarked (net : Ipv6Net) : Bool := net.addr.extractLsb' 64 16 = 0x0aaa

def Ipv6Net.Contains (net : Ipv6Net) (addr : IpAddr) : Prop :=
  ∃ bits : BitVec 128, addr = .v6 bits ∧
    bits >>> (128 - net.prefixLen) = net.addr >>> (128 - net.prefixLen)

def maxAaaId : Nat := 0xffffffffff

inductive AddressPoolError where
  | invalidAddress
  | invalidPrefixLength
deriving DecidableEq

structure AddressPool where
  ipnet : Ipv6Net
  /-- the IDs of the addresses in use -/
  active : Finset (BitVec 40)

variable {net : Ipv6Net} {addr : IpAddr} {random : BitVec 64} {cx : Context}

namespace AddressPool

def new (aaaNet : Ipv6Net) : Except AddressPoolError AddressPool :=
  if aaaNet.prefixLen > 88 then .error .invalidPrefixLength else .ok ⟨aaaNet, ∅⟩

/-- The ID that is tried after one in use. -/
def nextId (id : BitVec 40) : BitVec 40 := .ofNat 40 ((id.toNat + 1) % maxAaaId)

/-- The first 88 bits of the network's address, followed by the ID. -/
def address (net : Ipv6Net) (id : BitVec 40) : IpAddr :=
  .v6 ((net.addr.extractLsb' 40 88 ++ id).cast (by decide))

/-- The random bytes are cut to an ID. There is no address if every ID is in use: the loop of the
    source does not end then. -/
def getAaaAddress (pool : AddressPool) (random : BitVec 64) : Option (AddressPool × IpAddr) :=
  (probe pool.active nextId (pool.active.card + 1) (random.setWidth 40)).map fun id =>
    ({ pool with active := insert id pool.active }, address pool.ipnet id)

/-- Bytes 6 and 7 mark an AAA address; of the others only the last 40 bits are looked at. -/
def releaseAddress (pool : AddressPool) : IpAddr → Except AddressPoolError AddressPool
  | .v4 _ => .error .invalidAddress
  | .v6 bits =>
    if bits.extractLsb' 64 16 ≠ 0x0aaa then .error .invalidAddress
    else .ok { pool with active := pool.active.erase (bits.setWidth 40) }

end AddressPool

/-! ## Configuration by the visa service -/

inductive ParamName where
  | aaaPrefix
  | other (name : String)

inductive ParamValue where
  | strParam (s : String)
  | other

structure Param where
  name : ParamName
  value : ParamValue

structure ApiResponseError where
  code : ErrorCode
  message : String
  retryIn : Nat
deriving DecidableEq

def paramError (message : String) : ApiResponseError := ⟨.paramError, message, 0⟩

/-- The loop over the parameters; unknown ones are ignored. -/
def aaaIpnetStr : Option String → List Param → Except ApiResponseError (Option String)
  | found, [] => .ok found
  | found, ⟨.aaaPrefix, .strParam s⟩ :: params =>
    if found.isSome then .error (paramError "multiple AAA_PREFIX parameters")
    else aaaIpnetStr (some s) params
  | _, ⟨.aaaPrefix, .other⟩ :: _ => .error (paramError "invalid type for AAA_PREFIX")
  | found, ⟨.other _, _⟩ :: params => aaaIpnetStr found params

section

variable (parseNet : String → Option Ipv6Net)

/-- The pool that a configuration asks for, if any. `parseNet` is the parser of `ipnet`. -/
def configuredPool (params : List Param) : Except ApiResponseError (Option AddressPool) :=
  match aaaIpnetStr none params with
  | .error e => .error e
  | .ok none => .ok none
  | .ok (some net) =>
    match parseNet net with
    | none => .error (paramError "invalid AAA_PREFIX")
    | some ipnet =>
      match AddressPool.new ipnet with
      | .error _ => .error (paramError "AAA_PREFIX rejected")
      | .ok pool => .ok (some pool)

/-- `process_configuration`, with the pool of the process. -/
def processConfiguration (addressPool : Option AddressPool) (params : List Param) :
    Option AddressPool × Except ApiResponseError Unit :=
  match configuredPool parseNet params with
  | .error e => (addressPool, .error e)
  | .ok none => (addressPool, .ok ())
  | .ok (some pool) => (some pool, .ok ())

end

/-! ## Links and the pool -/

structure Docks where
  peers : LinkId → Option PeerState
  nextUid : Nat
  addressPool : Option AddressPool

inductive DocksAction where
  | insertInternalPeer (id : LinkId)
  /-- a node starts a tether when the first packet of an adapter arrives -/
  | startTether (id : LinkId) (randomKey : AuthKey)
  | event (id : LinkId) (event : LinkEvent) (cx : Context) (random : BitVec 64)
  | reset (id : LinkId) (cx : Context)
  /-- a change of a link outside of its handlers -/
  | change (id : LinkId) (f : PeerState → PeerState)
  | configure (params : List Param)

def DocksAction.isConfigure : DocksAction → Bool
  | .configure _ => true
  | _ => false

/-- The handler of the event takes an address from the pool. -/
def PeerState.allocates (p : PeerState) (e : LinkEvent) : Bool :=
  match e, p.linkType, p.fsm.state with
  | .receivedHelloRequest, .nodeToAdapter, .helloing => true
  | _, _, _ => false

namespace Docks

def init : Docks := ⟨fun _ => none, 1, none⟩

def setPeer (d : Docks) (id : LinkId) (peer : Option PeerState) : Docks :=
  { d with peers := Function.update d.peers id peer }

/-- An address is returned to the pool, if there is one; a failure is only logged. -/
def release (addressPool : Option AddressPool) (addr : IpAddr) : Option AddressPool :=
  addressPool.map fun pool =>
    match pool.releaseAddress addr with
    | .ok pool => pool
    | .error _ => pool

def applyEffect (id : LinkId) (d : Docks) : Effect → Docks
  | .releaseAddress addr => { d with addressPool := release d.addressPool addr }
  | .dropPeer => d.setPeer id none
  | _ => d

/-- The links and the pool after a handler has run on the link under `id`. -/
def apply (d : Docks) (id : LinkId) (h : Handling) : Docks :=
  h.effects.foldl (applyEffect id) (d.setPeer id (some h.peer))

/-- The address that the handler of an event gets from the pool, if it asks for one. -/
def allocate (d : Docks) (p : PeerState) (e : LinkEvent) (random : BitVec 64) :
    Option (Docks × Option IpAddr) :=
  match p.allocates e, d.addressPool with
  | true, some pool =>
    (pool.getAaaAddress random).map fun (pool, addr) =>
      ({ d with addressPool := some pool }, some addr)
  | _, _ => some (d, none)

/-- `process_link_state_event`. There is no state after a handler that panics. -/
def processLinkStateEvent (d : Docks) (cx : Context) (id : LinkId) (e : LinkEvent)
    (random : BitVec 64) : Option Docks :=
  match d.peers id with
  | none => some d
  | some p =>
    (d.allocate p e random).bind fun (d, aaaAddress) =>
      let r := Handling.processEvent { cx with io := { cx.io with aaaAddress } } ⟨p, []⟩ e
      if r.2 = .panic then none else some (d.apply id r.1)

def insert (d : Docks) (id : LinkId) (linkType : LinkType) (randomKey : AuthKey) : Option Docks :=
  if id = linkIdUnknown ∨ (d.peers id).isSome then none
  else
    some
      { d.setPeer id (some (.new id d.nextUid linkType randomKey)) with nextUid := d.nextUid + 1 }

variable (parseNet : String → Option Ipv6Net)

def step (d : Docks) : DocksAction → Option Docks
  | .insertInternalPeer id => d.insert id .internal (Vector.replicate 32 0)
  | .startTether id randomKey => d.insert id .nodeToAdapter randomKey
  -- the process raises every event but this one, whose handler it calls directly
  | .event _ (.assignedAAA _) _ _ => none
  | .event id e cx random => d.processLinkStateEvent cx id e random
  | .reset id cx =>
    match d.peers id with
    | none => some d
    | some p => some (d.apply id (Handling.reset cx ⟨p, []⟩))
  | .change id f =>
    match d.peers id with
    | none => some d
    | some p =>
      if (f p).linkType = p.linkType ∧ (f p).fsm = p.fsm ∧ (f p).data.aaaAddress = p.data.aaaAddress
      then some (d.setPeer id (some (f p)))
      else none
  | .configure params =>
    some { d with addressPool := (processConfiguration parseNet d.addressPool params).1 }

/-- The address that a link has been told and has not returned. -/
def held (d : Docks) (id : LinkId) : Option IpAddr := (d.peers id).bind (·.data.aaaAddress)

/-- The pool may hand out the address next. -/
def Available (d : Docks) (addr : IpAddr) : Prop :=
  ∃ pool, d.addressPool = some pool ∧ ∃ random pool', pool.getAaaAddress random = some (pool', addr)

end Docks

/-! ## Addresses in use -/

namespace AddressPool

variable {pool pool' : AddressPool}

theorem setWidth_address {id : BitVec 40} {bits : BitVec 128} (h : address net id = .v6 bits) :
    bits.setWidth 40 = id := by
  cases h
  rw [BitVec.setWidth_cast]
  ext i hi
  rw [BitVec.getElem_setWidth, BitVec.getLsbD_append, if_pos hi, BitVec.getLsbD_eq_getElem hi]

theorem address_injective : Function.Injective (address net) := by
  intro id id' h
  exact (setWidth_address h).symm.trans (setWidth_address rfl)

theorem iterate_nextId (id : BitVec 40) (m : Nat) :
    (nextId^[m + 1] id).toNat = (id.toNat + (m + 1)) % maxAaaId := by
  induction m with
  | zero =>
    rw [Function.iterate_one, nextId, BitVec.toNat_ofNat, maxAaaId]
    omega
  | succ m ih =>
    rw [Function.iterate_succ_apply', nextId, ih, BitVec.toNat_ofNat, maxAaaId]
    omega

/-- The loop ends unless all IDs that it goes through are in use. -/
theorem getAaaAddress_isSome (h : pool.active.card < maxAaaId) (random : BitVec 64) :
    (pool.getAaaAddress random).isSome = true := by
  rw [getAaaAddress, Option.isSome_map]
  refine probe_isSome ?_ (Nat.lt_succ_self _)
  have hne (m m' : Nat) (hlt : m < m') (hm' : m' ≤ pool.active.card) :
      nextId^[m] (random.setWidth 40) ≠ nextId^[m'] (random.setWidth 40) := by
    intro heq
    have hnat := congrArg BitVec.toNat heq
    obtain ⟨k', rfl⟩ := Nat.exists_eq_add_of_lt (Nat.zero_lt_of_lt hlt)
    rw [Nat.zero_add, iterate_nextId] at hnat
    unfold maxAaaId at *
    cases m with
    | zero =>
      -- the random ID may be the one that the loop never comes back to
      rw [Function.iterate_zero, id] at hnat
      omega
    | succ k =>
      rw [iterate_nextId] at hnat
      unfold maxAaaId at *
      omega
  intro m hm m' hm' heq
  have hm := Nat.lt_succ_iff.mp (Finset.mem_range.mp hm)
  have hm' := Nat.lt_succ_iff.mp (Finset.mem_range.mp hm')
  rcases Nat.lt_trichotomy m m' with hlt | rfl | hlt
  · exact (hne m m' hlt hm' heq).elim
  · rfl
  · exact (hne m' m hlt hm heq.symm).elim

theorem of_getAaaAddress (h : pool.getAaaAddress random = some (pool', addr)) :
    ∃ id ∉ pool.active, address pool.ipnet id = addr ∧
      pool' = { pool with active := insert id pool.active } := by
  obtain ⟨id, hid, heq⟩ := Option.map_eq_some_iff.mp h
  cases heq
  exact ⟨id, probe_notMem hid, rfl, rfl⟩

def used (pool : AddressPool) : Set IpAddr := Set.image (address pool.ipnet) pool.active

theorem used_getAaaAddress (h : pool.getAaaAddress random = some (pool', addr)) :
    addr ∉ pool.used ∧ pool'.used = insert addr pool.used := by
  obtain ⟨id, hid, rfl, rfl⟩ := of_getAaaAddress h
  constructor
  · rintro ⟨id', hid', heq⟩
    exact hid (address_injective heq ▸ hid')
  · rw [used, Finset.coe_insert, Set.image_insert_eq, used]

theorem releaseAddress_address (id : BitVec 40) :
    pool.releaseAddress (address pool.ipnet id) =
      if pool.ipnet.isMarked then .ok { pool with active := pool.active.erase id }
      else .error .invalidAddress := by
  have hmark : ((pool.ipnet.addr.extractLsb' 40 88 ++ id).cast (by decide) :
      BitVec 128).extractLsb' 64 16 = pool.ipnet.addr.extractLsb' 64 16 := by
    ext i hi
    simp only [BitVec.getElem_extractLsb', BitVec.getLsbD_cast, BitVec.getLsbD_append,
      BitVec.getLsbD_extractLsb']
    rw [if_neg (by omega), decide_eq_true (by omega), Bool.true_and]
    congr 1
    omega
  have hcut : _ = id := setWidth_address (rfl : address pool.ipnet id = _)
  simp only [address, releaseAddress, hmark, hcut, Ipv6Net.isMarked, ite_not, decide_eq_true_eq]

theorem used_releaseAddress (hmem : addr ∈ pool.used) (h : pool.releaseAddress addr = .ok pool') :
    pool'.used = pool.used \ {addr} := by
  obtain ⟨id, hid, rfl⟩ := hmem
  rw [releaseAddress_address] at h
  split at h
  · cases h
    rw [used, Finset.coe_erase, Set.image_sdiff address_injective, Set.image_singleton, used]
  · cases h

/-- The pool may hand out the address next. -/
def MayReturn (pool : AddressPool) (addr : IpAddr) : Prop :=
  ∃ random pool', pool.getAaaAddress random = some (pool', addr)

theorem mayReturn_iff : pool.MayReturn addr ↔ ∃ id ∉ pool.active, address pool.ipnet id = addr := by
  constructor
  · rintro ⟨random, pool', h⟩
    obtain ⟨id, hid, haddr, -⟩ := of_getAaaAddress h
    exact ⟨id, hid, haddr⟩
  · rintro ⟨id, hid, rfl⟩
    have hfirst : (id.setWidth 64).setWidth 40 = id := by simp
    refine ⟨id.setWidth 64, ⟨pool.ipnet, insert id pool.active⟩, ?_⟩
    rw [getAaaAddress, hfirst, probe, if_neg hid]
    rfl

theorem address_mem (h : net.prefixLen ≤ 88) (id : BitVec 40) : net.Contains (address net id) := by
  refine ⟨_, rfl, ?_⟩
  ext i hi
  simp only [BitVec.getElem_ushiftRight, BitVec.getLsbD_cast, BitVec.getLsbD_append,
    BitVec.getLsbD_extractLsb']
  by_cases hb : 128 - net.prefixLen + i < 128
  · rw [if_neg (by omega), decide_eq_true (by omega), Bool.true_and]
    congr 1
    omega
  · rw [if_neg (by omega), BitVec.getLsbD_of_ge _ _ (Nat.not_lt.mp hb)]
    simp
    omega

end AddressPool

/-! ## Calls of the pool -/

inductive PoolCall where
  | getAaaAddress (random : BitVec 64)
  | releaseAddress (addr : IpAddr)

/-- A pool, and the addresses that it has handed out and that were not released since. -/
structure PoolUse where
  pool : AddressPool
  outstanding : Finset IpAddr

namespace PoolUse

def step (u : PoolUse) : PoolCall → Option PoolUse
  | .getAaaAddress random =>
    (u.pool.getAaaAddress random).map fun (pool, addr) => ⟨pool, insert addr u.outstanding⟩
  | .releaseAddress addr =>
    match u.pool.releaseAddress addr with
    | .ok pool => some ⟨pool, u.outstanding.erase addr⟩
    | .error _ => some u

/-- The uses of a pool in which only its own addresses are released. -/
def Reachable (net : Ipv6Net) : PoolUse → Prop :=
  Run step (fun u => AddressPool.new net = .ok u.pool ∧ u.outstanding = ∅) fun _ c =>
    ∀ addr, c = .releaseAddress addr → ∃ id, AddressPool.address net id = addr

/-- What the pool does next for its users. -/
structure Exact (net : Ipv6Net) (u : PoolUse) : Prop where
  get : u.outstanding.card < maxAaaId → ∀ random, ∃ pool addr,
    u.pool.getAaaAddress random = some (pool, addr) ∧ net.Contains addr ∧ addr ∉ u.outstanding
  release : ∀ id, ∃ pool, u.pool.releaseAddress (AddressPool.address net id) = .ok pool ∧
    ∀ addr, pool.MayReturn addr ↔ u.pool.MayReturn addr ∨ addr = AddressPool.address net id
  kept : ∀ addr ∈ u.outstanding, ¬u.pool.MayReturn addr

open AddressPool

variable {u : PoolUse}

theorem Reachable.outstanding (h : Reachable net u) :
    net.prefixLen ≤ 88 ∧ u.pool.ipnet = net ∧ u.outstanding = u.pool.active.image (address net) := by
  refine Run.invariant (P := fun u => net.prefixLen ≤ 88 ∧ u.pool.ipnet = net ∧
    u.outstanding = u.pool.active.image (address net)) ?_ ?_ h
  · rintro ⟨pool, outstanding⟩ ⟨hnew, rfl⟩
    unfold AddressPool.new at hnew
    split at hnew <;> cases hnew
    exact ⟨by omega, rfl, rfl⟩
  rintro u c u' ⟨hlen, hnet, hout⟩ hok hstep
  subst hnet
  cases c with
  | getAaaAddress random =>
    obtain ⟨⟨pool', addr⟩, hget, rfl⟩ := Option.map_eq_some_iff.mp hstep
    obtain ⟨id, -, rfl, rfl⟩ := of_getAaaAddress hget
    exact ⟨hlen, rfl, by rw [hout, Finset.image_insert]⟩
  | releaseAddress addr =>
    obtain ⟨id, rfl⟩ := hok addr rfl
    simp only [step, releaseAddress_address] at hstep
    split at hstep
    · next heq =>
      split at heq <;> cases heq
      cases hstep
      exact ⟨hlen, rfl, by rw [hout, Finset.image_erase address_injective]⟩
    · cases hstep
      exact ⟨hlen, rfl, hout⟩

/-- The pool hands out and takes back its addresses exactly, for the networks whose addresses have
    the mark that `release_address` looks for. -/
theorem pool_exact_iff (net : Ipv6Net) :
    (∀ u, Reachable net u → u.Exact net) ↔ (net.prefixLen ≤ 88 → net.isMarked = true) := by
  constructor
  · intro h hlen
    have hnew : AddressPool.new net = .ok ⟨net, ∅⟩ := if_neg (by omega)
    obtain ⟨pool, hrelease, -⟩ := (h ⟨⟨net, ∅⟩, ∅⟩ (.start ⟨hnew, rfl⟩)).release 0
    rw [@releaseAddress_address ⟨net, ∅⟩] at hrelease
    split at hrelease
    · next hmark => exact hmark
    · cases hrelease
  · intro hmark u hu
    obtain ⟨hlen, rfl, hout⟩ := hu.outstanding
    refine ⟨fun hcard random => ?_, fun id => ?_, fun addr haddr hnext => ?_⟩
    · rw [hout, Finset.card_image_of_injective _ address_injective] at hcard
      obtain ⟨⟨pool, addr⟩, hget⟩ := Option.isSome_iff_exists.mp (getAaaAddress_isSome hcard random)
      obtain ⟨id, hid, rfl, -⟩ := of_getAaaAddress hget
      refine ⟨pool, _, hget, address_mem hlen id, ?_⟩
      rwa [hout, address_injective.mem_finset_image]
    · rw [releaseAddress_address, if_pos (hmark hlen)]
      refine ⟨_, rfl, fun addr => ?_⟩
      simp only [mayReturn_iff, Finset.mem_erase, not_and_or, not_not]
      constructor
      · rintro ⟨id', rfl | hid', rfl⟩
        · exact .inr rfl
        · exact .inl ⟨id', hid', rfl⟩
      · rintro (⟨id', hid', rfl⟩ | rfl)
        · exact ⟨id', .inr hid', rfl⟩
        · exact ⟨id, .inl rfl, rfl⟩
    · obtain ⟨id, hid, rfl⟩ := mayReturn_iff.mp hnext
      rw [hout, address_injective.mem_finset_image] at haddr
      exact hid haddr

/-- The address that a pool has just handed out cannot be returned to it. -/
theorem unmarked_address_not_released :
    ∃ (net : Ipv6Net) (pool pool' : AddressPool) (addr : IpAddr), AddressPool.new net = .ok pool ∧
      pool.getAaaAddress 7 = some (pool', addr) ∧ pool'.releaseAddress addr = .error .invalidAddress :=
  ⟨⟨0xfd5a5052 <<< 96, 64⟩, _, _, _, rfl, rfl, rfl⟩

end PoolUse

/-! ## What a handler does to the address of its link -/

def Effect.released : Effect → Option IpAddr
  | .releaseAddress addr => some addr
  | _ => none

/-- The frame that looks at AAA addresses and nothing else. -/
def addressFrame : Frame (Option IpAddr) where
  view d := d.aaaAddress
  plain e := e.released.isNone

theorem addressFrame_renewalless : addressFrame.Renewalless where
  noted := by
    rintro _ _ ⟨_, _, _, _, _, rfl⟩
    rfl
  effects {e} he := by cases e <;> first | rfl | cases he
  renewed := by
    rintro _ _ ⟨_, _, _, _, _, rfl⟩
    rfl
  spawn _ := rfl

theorem released_eq_nil {es : List Effect} (h : ∀ e ∈ es, addressFrame.plain e = true) :
    es.filterMap Effect.released = [] :=
  List.filterMap_eq_nil_iff.mpr fun e he => Option.isNone_iff_eq_none.mp (h e he)

/-- The handler leaves the address of its link alone, or takes it away and returns it. -/
def Returns (h h' : Handling) : Prop :=
  ∃ es, h'.effects = h.effects ++ es ∧
    (h'.peer.data.aaaAddress = h.peer.data.aaaAddress ∧ es.filterMap Effect.released = [] ∨
      ∃ addr, h.peer.data.aaaAddress = some addr ∧ h'.peer.data.aaaAddress = none ∧
        es.filterMap Effect.released = [addr])

namespace Returns

open Handling

variable {h h₁ h' : Handling}

theorem of_keeps (k : Keeps addressFrame h h') : Returns h h' := by
  obtain ⟨es, he, hes⟩ := k.effects
  exact ⟨es, he, .inl ⟨k.view, released_eq_nil hes⟩⟩

theorem keeps_trans (k : Keeps addressFrame h h₁) (r : Returns h₁ h') : Returns h h' := by
  obtain ⟨es, he, hes⟩ := k.effects
  obtain ⟨es', he', hr⟩ := r
  have hview : h₁.peer.data.aaaAddress = h.peer.data.aaaAddress := k.view
  refine ⟨es ++ es', by rw [he', he, List.append_assoc], ?_⟩
  rwa [List.filterMap_append, released_eq_nil hes, List.nil_append, ← hview]

theorem trans_keeps (r : Returns h h₁) (k : Keeps addressFrame h₁ h') : Returns h h' := by
  obtain ⟨es, he, hr⟩ := r
  obtain ⟨es', he', hes'⟩ := k.effects
  have hview : h'.peer.data.aaaAddress = h₁.peer.data.aaaAddress := k.view
  refine ⟨es ++ es', by rw [he', he, List.append_assoc], ?_⟩
  rwa [List.filterMap_append, released_eq_nil hes', List.append_nil, hview]

theorem releaseAaaAddress : Returns h h.releaseAaaAddress := by
  unfold Handling.releaseAaaAddress
  split
  · next addr haddr => exact ⟨_, rfl, .inr ⟨addr, haddr, rfl, rfl⟩⟩
  · exact of_keeps (.refl h)

theorem cleanUpLinkState : Returns h (h.cleanUpLinkState cx) := by
  have C {h : Handling} : Closed (Keeps addressFrame h) :=
    (Keeps.closed addressFrame_renewalless.toCommon).toClosed
  have hclean (hs : h.peer.fsm.state ≠ .active) : Returns h
      (((h.releaseAaaAddress.emit .clearPeerState).cleanUpByType cx).spawn (.dropLink false)) := by
    refine releaseAaaAddress.trans_keeps (C.spawn (C.cleanUpByType (C.emit (.refl _) rfl rfl) ?_) rfl rfl)
    change h.releaseAaaAddress.peer.fsm.state ≠ .active
    rwa [releaseAaaAddress_fsm]
  unfold Handling.cleanUpLinkState
  split
  · next hs => exact hclean (by rw [hs]; rintro ⟨⟩)
  · next hs => exact hclean (by rw [hs]; rintro ⟨⟩)
  · exact of_keeps (.refl h)

theorem reset : Returns h (h.reset cx) :=
  keeps_trans (.setPeer (.refl h) rfl) cleanUpLinkState

theorem processTerminateAck : Returns h (h.processTerminateAck cx).1 := by
  unfold Handling.processTerminateAck
  split
  · exact keeps_trans (.setPeer (.refl h) rfl) cleanUpLinkState
  · exact of_keeps (.refl h)

theorem processTimeout {clock : BitVec 64} : Returns h (h.processTimeout cx clock).1 := by
  have k : Keeps addressFrame h h := .refl h
  have C : ClosedAdmission (Keeps addressFrame h) := Keeps.closed addressFrame_renewalless.toCommon
  unfold Handling.processTimeout
  split
  · exact of_keeps k
  split
  · exact of_keeps (C.processAuthenticationFailure k _)
  · exact of_keeps (C.failAndClose k _)
  · exact of_keeps (C.failAndClose k _)
  · exact of_keeps (C.failAndClose k _)
  · exact of_keeps (C.keepAliveTimeout k)
  · exact cleanUpLinkState
  · exact of_keeps k

theorem processHelloResponse {code : ResponseCode} {aaaAddr : Option IpAddr}
    {oidcIdps : Option (List OidcIdpInfo)} (hty : h.peer.linkType ≠ .adapterToNode) :
    Returns h (h.processHelloResponse cx code aaaAddr oidcIdps).1 := by
  have k : Keeps addressFrame h h := .refl h
  unfold Handling.processHelloResponse
  split
  · exact of_keeps ((Keeps.closed addressFrame_renewalless.toCommon).initiateClose k _)
  split
  · next hty' _ => exact (hty hty').elim
  · exact of_keeps (k.setPeer rfl)
  all_goals exact of_keeps k

theorem processHelloRequest (hio : cx.io.aaaAddress = none) :
    Returns h (h.processHelloRequest cx).1 := by
  have k : Keeps addressFrame h h := .refl h
  unfold Handling.processHelloRequest assignAaaAddress
  split
  · exact of_keeps (k.setPeer rfl)
  · rw [hio]
    have hsent {msg : Outgoing} : Keeps addressFrame h (h.send msg) := k.setPeer rfl
    exact of_keeps (.emit (.setPeer (.setPeer hsent rfl) rfl) rfl)
  all_goals exact of_keeps k

theorem processEvent {e : LinkEvent} (hty : h.peer.linkType ≠ .adapterToNode)
    (he : ∀ addr, e ≠ .assignedAAA addr) (hio : cx.io.aaaAddress = none) :
    Returns h (h.processEvent cx e).1 := by
  have k : Keeps addressFrame h h := .refl h
  have C : ClosedAdmission (Keeps addressFrame h) := Keeps.closed addressFrame_renewalless.toCommon
  have R : QuietRenewals (Keeps addressFrame h) := Keeps.renewals addressFrame_renewalless
  cases hc : e.isCommon with
  | true => exact of_keeps (C.processEvent k hc)
  | false =>
    cases e with
    | receivedHelloRequest => exact processHelloRequest hio
    | assignedAAA addr => exact (he addr rfl).elim
    | receivedHelloResponse code aaaAddr oidcIdps => exact processHelloResponse hty
    | receivedTerminateLink reason => exact keeps_trans (.setPeer k rfl) cleanUpLinkState
    | receivedTerminateAck => exact processTerminateAck
    | timeout clock => exact processTimeout
    | receivedKeepAliveResponse => exact of_keeps (C.processKeepAliveResponse R k)
    | receivedRenewAuthResponse challenge result =>
      exact of_keeps (R.processRenewAuthResponse k challenge result)
    | _ => cases hc

end Returns

/-! ## Applying a handler -/

namespace Docks

variable {d d' : Docks} {id : LinkId} {h : Handling} {p : PeerState}

/-- To the peer table a handler does what it does in the model of the whole process. -/
theorem apply_peers {n : Node} (origin : Nat) (hd : d.peers = n.peers) :
    (d.apply id h).peers = (n.apply id origin h).peers := by
  have hfold : ∀ (es : List Effect) (d : Docks) (n : Node), d.peers = n.peers →
      (es.foldl (applyEffect id) d).peers =
        (es.foldl (Node.applyEffect id h.peer.uid origin) n).peers := by
    intro es
    induction es with
    | nil => exact fun _ _ hd => hd
    | cons e es ih =>
      intro d n hd
      refine ih _ _ ?_
      cases e with
      | dropPeer => exact congrArg (Function.update · id none) hd
      | assignSpecialName =>
        rw [Node.applyEffect]
        split <;> exact hd
      | _ => exact hd
  refine hfold h.effects _ _ ?_
  exact congrArg (fun peers => Function.update peers id (some h.peer)) hd

theorem held_setPeer (peer : Option PeerState) :
    (d.setPeer id peer).held = Function.update d.held id (peer.bind (·.data.aaaAddress)) :=
  Function.comp_update (fun q : Option PeerState => q.bind (·.data.aaaAddress)) d.peers id peer

theorem apply_held :
    (d.apply id h).held = Function.update d.held id
      (if h.effects.any (·.isDropPeer) then none else h.peer.data.aaaAddress) := by
  have hpeers := @apply_peers d id h { Node.init with peers := d.peers } 0 rfl
  refine funext fun id' => ?_
  by_cases hid : id' = id
  · subst hid
    rw [held, hpeers, Node.apply_peers_self, Function.update_self]
    split <;> rfl
  · rw [held, hpeers, Node.apply_peers_ne hid, Function.update_of_ne hid]
    rfl

theorem apply_addressPool :
    (d.apply id h).addressPool =
      (h.effects.filterMap Effect.released).foldl release d.addressPool := by
  have hfold : ∀ (es : List Effect) (d : Docks), (es.foldl (applyEffect id) d).addressPool =
      (es.filterMap Effect.released).foldl release d.addressPool := by
    intro es
    induction es with
    | nil => exact fun _ => rfl
    | cons e es ih =>
      intro d
      cases e <;> exact ih _
  exact hfold h.effects _

def used (d : Docks) : Set IpAddr := d.addressPool.elim ∅ AddressPool.used

/-- The links of a node are tethers or internal, and what they hold is leased from the pool. -/
structure Leased (d : Docks) : Prop where
  types : ∀ {id p}, d.peers id = some p → p.linkType ≠ .adapterToNode
  leases : Leases d.held d.used

namespace Leased

theorem init : Docks.init.Leased := ⟨nofun, .of_none fun _ => rfl⟩

theorem types_apply (htypes : ∀ {id p}, d.peers id = some p → p.linkType ≠ .adapterToNode)
    (hp : d.peers id = some p) (same : SameLink p h.peer) {id' : LinkId} {q : PeerState}
    (hq : (d.apply id h).peers id' = some q) : q.linkType ≠ .adapterToNode := by
  rw [@apply_peers d id h { Node.init with peers := d.peers } 0 rfl] at hq
  rcases Node.apply_back hq with ⟨-, hq⟩ | ⟨-, -, rfl⟩
  · exact htypes hq
  · rw [same.linkType]
    exact htypes hp

/-- A handler that leaves the address alone or returns it keeps all leases. -/
theorem apply (hd : d.Leased) (hp : d.peers id = some p) (same : SameLink p h.peer)
    (hr : Returns ⟨p, []⟩ h) : (d.apply id h).Leased := by
  refine ⟨types_apply hd.types hp same, ?_⟩
  have hheld : d.held id = p.data.aaaAddress := by rw [held, hp, Option.bind_some]
  obtain ⟨es, he, hr⟩ := hr
  rw [List.nil_append] at he
  rw [apply_held, used, apply_addressPool, he]
  rcases hr with ⟨hsame, hnone⟩ | ⟨addr, haddr, hgone, hone⟩
  · rw [hnone, hsame, ← hheld]
    split
    · exact hd.leases.drop id
    · rw [Function.update_eq_self]
      exact hd.leases
  · rw [hone, hgone, ite_self]
    rw [haddr] at hheld
    have hmem := hd.leases.mem hheld
    cases hpool : d.addressPool with
    | none =>
      rw [used, hpool] at hmem
      cases hmem
    | some pool =>
      rw [used, hpool] at hmem
      have hleases := hd.leases
      rw [used, hpool] at hleases
      simp only [List.foldl_cons, List.foldl_nil, release, Option.map_some, Option.elim_some] at hleases ⊢
      split
      · next pool' hrel =>
        rw [AddressPool.used_releaseAddress hmem hrel]
        exact hleases.release hheld
      · exact hleases.drop id

theorem processHelloRequest_told (hp : p.allocates .receivedHelloRequest = true)
    (hio : cx.io.aaaAddress = some addr) :
    (Handling.processHelloRequest cx ⟨p, []⟩).1.peer.data.aaaAddress = some addr ∧
      ∃ w, (Handling.processHelloRequest cx ⟨p, []⟩).1.effects = [.spawn w] := by
  unfold PeerState.allocates at hp
  split at hp
  · next hty hst =>
    unfold Handling.processHelloRequest Handling.assignAaaAddress
    simp only [hty, hst, hio]
    exact ⟨rfl, _, rfl⟩
  · cases hp

theorem allocated {pool pool' : AddressPool} (hd : d.Leased) (hp : d.peers id = some p)
    (hpool : d.addressPool = some pool) (halloc : p.allocates .receivedHelloRequest = true)
    (hget : pool.getAaaAddress random = some (pool', addr)) (hio : cx.io.aaaAddress = some addr) :
    (({ d with addressPool := some pool' } : Docks).apply id
      (Handling.processHelloRequest cx ⟨p, []⟩).1).Leased := by
  obtain ⟨htold, w, heffects⟩ := processHelloRequest_told halloc hio
  obtain ⟨hfree, hused⟩ := AddressPool.used_getAaaAddress hget
  refine ⟨types_apply (d := { d with addressPool := some pool' }) hd.types hp
    (processEvent_same cx ⟨p, []⟩ .receivedHelloRequest), ?_⟩
  have hleases := hd.leases
  rw [used, hpool] at hleases
  rw [apply_held, used, apply_addressPool, heffects, htold]
  change Leases (Function.update d.held id (some addr)) pool'.used
  rw [hused]
  exact hleases.acquire id hfree

theorem processLinkStateEvent {e : LinkEvent} (hd : d.Leased) (he : ∀ addr, e ≠ .assignedAAA addr)
    (h : d.processLinkStateEvent cx id e random = some d') : d'.Leased := by
  unfold Docks.processLinkStateEvent at h
  split at h
  · cases h
    exact hd
  next p hp =>
  obtain ⟨⟨d₁, aaaAddress⟩, halloc, h⟩ := Option.bind_eq_some_iff.mp h
  dsimp only at h
  split at h
  · cases h
  cases h
  unfold allocate at halloc
  split at halloc
  · next pool hask hpool =>
    obtain ⟨⟨pool', addr⟩, hget, heq⟩ := Option.map_eq_some_iff.mp halloc
    cases heq
    have hhello : e = .receivedHelloRequest := by
      unfold PeerState.allocates at hask
      split at hask
      · rfl
      · cases hask
    subst hhello
    exact hd.allocated hp hpool hask hget rfl
  · cases halloc
    exact hd.apply hp (processEvent_same _ ⟨p, []⟩ e)
      (.processEvent (h := ⟨p, []⟩) (hd.types hp) he rfl)

theorem insert {linkType : LinkType} {key : AuthKey} (hd : d.Leased)
    (hty : linkType ≠ .adapterToNode) (h : d.insert id linkType key = some d') : d'.Leased := by
  unfold Docks.insert at h
  split at h
  · cases h
  cases h
  refine ⟨fun {id' q} hq => ?_, ?_⟩
  · simp only [setPeer, Function.update_apply] at hq
    split at hq
    · cases hq
      exact hty
    · exact hd.types hq
  · change Leases (d.setPeer id _).held d.used
    rw [held_setPeer]
    exact hd.leases.drop id

end Leased

/-! ## Runs -/

variable {parseNet : String → Option Ipv6Net}

/-- The action replaces the pool while some link holds an address. -/
def ReplacesUsed (parseNet : String → Option Ipv6Net) (d : Docks) (act : DocksAction) : Prop :=
  ∃ params pool, act = .configure params ∧ configuredPool parseNet params = .ok (some pool) ∧
    ∃ id addr, d.held id = some addr

theorem Leased.step {act : DocksAction} (hd : d.Leased) (hok : ¬d.ReplacesUsed parseNet act)
    (h : d.step parseNet act = some d') : d'.Leased := by
  cases act with
  | insertInternalPeer | startTether => exact hd.insert (by decide) h
  | event id e cx random =>
    by_cases he : ∃ addr, e = .assignedAAA addr
    · obtain ⟨addr, rfl⟩ := he
      cases h
    have he : ∀ addr, e ≠ .assignedAAA addr := fun addr heq => he ⟨addr, heq⟩
    have hevent : d.processLinkStateEvent cx id e random = some d' := by
      cases e with
      | assignedAAA addr => exact (he addr rfl).elim
      | _ => exact h
    exact hd.processLinkStateEvent he hevent
  | reset id cx =>
    simp only [Docks.step] at h
    split at h
    · cases h
      exact hd
    · next p hp =>
      cases h
      exact hd.apply hp (SameLink.closed.reset (h := ⟨p, []⟩) (.refl p)) .reset
  | change id f =>
    simp only [Docks.step] at h
    split at h
    · cases h
      exact hd
    next p hp =>
    split at h
    · next hsame =>
      cases h
      refine ⟨fun {id' q} hq => ?_, ?_⟩
      · simp only [setPeer, Function.update_apply] at hq
        split at hq
        · cases hq
          rw [hsame.1]
          exact hd.types hp
        · exact hd.types hq
      · have hheld : d.held id = p.data.aaaAddress := by rw [held, hp, Option.bind_some]
        rw [held_setPeer, Option.bind_some, hsame.2.2, ← hheld, Function.update_eq_self]
        exact hd.leases
    · cases h
  | configure params =>
    cases h
    unfold processConfiguration
    split
    · exact hd
    · exact hd
    next pool hpool =>
    -- the pool is replaced only when no link holds an address
    refine ⟨hd.types, .of_none fun id => ?_⟩
    by_contra hheld
    obtain ⟨addr, haddr⟩ := Option.ne_none_iff_exists'.mp hheld
    exact hok ⟨params, pool, rfl, hpool, id, addr, haddr⟩

/-- As long as the pool is replaced only when no link holds an address, no two links have been told
    the same one, and what a link has been told is not handed out again. -/
theorem aaa_addresses_unique
    (hrun : Run (Docks.step parseNet) (· = Docks.init) (fun d act => ¬d.ReplacesUsed parseNet act) d) :
    (∀ id id' addr, d.held id = some addr → d.held id' = some addr → id = id') ∧
      ∀ id addr, d.held id = some addr → ¬d.Available addr := by
  have hd : d.Leased := hrun.invariant (fun _ h => h ▸ .init) fun _ _ _ hd hok h => hd.step hok h
  refine ⟨fun _ _ _ hid hid' => hd.leases.unique hid hid', ?_⟩
  rintro id addr hid ⟨pool, hpool, random, pool', hget⟩
  have hmem := hd.leases.mem hid
  rw [used, hpool] at hmem
  exact (AddressPool.used_getAaaAddress hget).1 hmem

end Docks

def sampleContext : Context := ⟨samplePrimitives, sampleConfig, sampleIo, none, []⟩

def sampleNet (second : Bool) : Ipv6Net :=
  ⟨if second then 0xfd5a505200000aaa0000010000000000 else 0xfd5a505200000aaa0000000000000000, 88⟩

def sampleParseNet (text : String) : Option Ipv6Net := some (sampleNet (text = "2"))

def sampleConfigure (text : String) : DocksAction := .configure [⟨.aaaPrefix, .strParam text⟩]

/-- An adapter says hello under `id`, and the random ID is 7. -/
def sampleGreet (id : LinkId) : List DocksAction :=
  [.startTether id (Vector.replicate 32 0),
    .event id .start sampleContext 0,
    .change id fun p => { p with transportSa := some (sampleSa 1 none) },
    .event id .keyingDone sampleContext 0,
    .event id .receivedHelloRequest sampleContext 7]

/-- Two links say hello under the same pool. -/
theorem aaa_addresses_unique_twoLinks :
    ∃ d, Run (Docks.step sampleParseNet) (· = Docks.init)
        (fun d act => ¬d.ReplacesUsed sampleParseNet act) d ∧
      d.held 5 = some (AddressPool.address (sampleNet false) 7) ∧
      d.held 6 = some (AddressPool.address (sampleNet false) 8) ∧
      ¬d.Available (AddressPool.address (sampleNet false) 7) := by
  let d₀ : Docks := { Docks.init with addressPool := some ⟨sampleNet false, ∅⟩ }
  have hconfigure : Run (Docks.step sampleParseNet) (· = Docks.init)
      (fun d act => ¬d.ReplacesUsed sampleParseNet act) d₀ := by
    refine .next (a := sampleConfigure "1") (.start rfl) ?_ rfl
    rintro ⟨_, _, _, _, _, _, hheld⟩
    cases hheld
  obtain ⟨d, hrun, h5, h6⟩ : ∃ d, Run (Docks.step sampleParseNet) (· = d₀)
      (fun _ act => act.isConfigure = false) d ∧
      d.held 5 = some (AddressPool.address (sampleNet false) 7) ∧
      d.held 6 = some (AddressPool.address (sampleNet false) 8) :=
    Run.reaches rfl (sampleGreet 5 ++ sampleGreet 6) (by decide +kernel)
  have hrun := hconfigure.trans (hrun.mono fun d act hact => ?_)
  · exact ⟨d, hrun, h5, h6, (Docks.aaa_addresses_unique hrun).2 5 _ h5⟩
  · rintro ⟨params, pool, rfl, -⟩
    cases hact

/-- The visa service configures the same network again, and a link that says hello after that is told
    the address that another link holds. If it configures another network, the close of the link from
    before frees the address of the link that came after. -/
theorem reconfigured_pool_reuses_address :
    (∃ d, Run (Docks.step sampleParseNet) (· = Docks.init) (fun _ _ => True) d ∧
      d.held 5 = some (AddressPool.address (sampleNet false) 7) ∧
      d.held 6 = some (AddressPool.address (sampleNet false) 7)) ∧
    ∃ d d', Run (Docks.step sampleParseNet) (· = Docks.init) (fun _ _ => True) d ∧
      d.held 5 = some (AddressPool.address (sampleNet false) 7) ∧
      d.held 6 = some (AddressPool.address (sampleNet true) 7) ∧
      ¬d.Available (AddressPool.address (sampleNet true) 7) ∧
      d.step sampleParseNet (.event 5 (.receivedTerminateLink .other) sampleContext 0) = some d' ∧
      d'.held 6 = some (AddressPool.address (sampleNet true) 7) ∧
      d'.Available (AddressPool.address (sampleNet true) 7) := by
  refine ⟨?_, ?_⟩
  · exact Run.reaches rfl
      (sampleConfigure "1" :: sampleGreet 5 ++ sampleConfigure "1" :: sampleGreet 6) (by decide +kernel)
  obtain ⟨d, d', hrun, hstep, h5, h6, ⟨pool, hpool, hnet, hmem⟩, h6', pool', hpool', ⟨pool'', _⟩, hget,
      rfl⟩ : ∃ d d', Run (Docks.step sampleParseNet) (· = Docks.init) (fun _ _ => True) d ∧
      d.step sampleParseNet (.event 5 (.receivedTerminateLink .other) sampleContext 0) = some d' ∧
      d.held 5 = some (AddressPool.address (sampleNet false) 7) ∧
      d.held 6 = some (AddressPool.address (sampleNet true) 7) ∧
      (∃ pool, d.addressPool = some pool ∧ pool.ipnet = sampleNet true ∧ 7 ∈ pool.active) ∧
      d'.held 6 = some (AddressPool.address (sampleNet true) 7) ∧
      ∃ pool, d'.addressPool = some pool ∧ ∃ r, pool.getAaaAddress 7 = some r ∧
        r.2 = AddressPool.address (sampleNet true) 7 :=
    Run.reaches_some rfl (sampleConfigure "1" :: sampleGreet 5 ++ sampleConfigure "2" :: sampleGreet 6)
      (by decide +kernel)
  refine ⟨d, d', hrun, h5, h6, ?_, hstep, h6', pool', hpool', 7, pool'', hget⟩
  rintro ⟨_, hpool₂, random, pool₃, hget₂⟩
  cases hpool.symm.trans hpool₂
  refine (AddressPool.used_getAaaAddress hget₂).1 ?_
  rw [← hnet]
  exact Set.mem_image_of_mem _ hmem

end ZprCore.Link
