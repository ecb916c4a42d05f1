-- SUMMARY: Which links that hold a revoked address are closed.
import ZprCore.Link.Finality

/-!
# Revoked authentications

The visa service revokes the authentication of actors by their addresses. For each address the node
looks for a link that holds it and shuts that link down. Closing a link changes neither the peer
table nor the addresses of any link, so that the links that are shut down are those that were found
in the table as it was before: for each address one.
-/

namespace ZprCore.Link

/-- The addresses assigned to the remote peer, with the AAA address. -/
def PeerState.getActorAddresses (p : PeerState) : List IpAddr :=
  p.fsm.actorAddresses ++ p.data.aaaAddress.toList

def PeerState.holds (addr : IpAddr) (p : PeerState) : Bool := p.getActorAddresses.any (· == addr)

theorem PeerState.holds_iff {addr : IpAddr} {p : PeerState} :
    p.holds addr = true ↔ addr ∈ p.getActorAddresses := by
  simp [holds]

variable {prim : Primitives} {cfg : Config} {io : Io} {n : Node} {slots : List LinkId}
  {addr : IpAddr} {id : LinkId}

namespace Node

/-- `PeerTable::find`. The order in which the slab visits its slots is the slab's own. -/
def find (n : Node) (slots : List LinkId) (predicate : PeerState → Bool) :
    Option (LinkId × PeerState) :=
  slots.findSome? fun id => ((n.peers id).filter predicate).map fun p => (id, p)

variable (prim : Primitives) (cfg : Config)

/-- One round of the loop of `process_revoke_auth`; a close that fails is only logged. -/
def revokeAddress (io : Io) (slots : List LinkId) (n : Node) (addr : IpAddr) : Node :=
  match n.find slots (·.holds addr) with
  | some (id, p) => (n.processLinkStateEvent prim cfg io p.uid id (.close .shutdown)).1
  | none => n

/-- `process_revoke_auth`, with the number of addresses as a `u32`. -/
def processRevokeAuth (n : Node) (io : Io) (slots : List LinkId) (addrs : List IpAddr) :
    Node × BitVec 32 :=
  (addrs.foldl (revokeAddress prim cfg io slots) n, .ofNat 32 addrs.length)

/-- There is a link under `id`, and it holds the address. -/
def Holds (n : Node) (addr : IpAddr) (id : LinkId) : Prop :=
  ∃ p, n.peers id = some p ∧ addr ∈ p.getActorAddresses

/-- The link under `id` holds the address, and no link that is visited before it does. -/
def FirstHolder (n : Node) (slots : List LinkId) (addr : IpAddr) (id : LinkId) : Prop :=
  n.Holds addr id ∧
    ∃ before after, slots = before ++ id :: after ∧ ∀ id' ∈ before, ¬n.Holds addr id'

end Node

/-! ## Closing one link -/

namespace Handling

variable {cx : Context} {h : Handling} {reason : TerminateReason}

theorem initiateClose_getActorAddresses :
    (h.initiateClose cx reason).1.peer.getActorAddresses = h.peer.getActorAddresses := by
  have hkept {h' : Handling} (hm : Marked reason h h') :
      h'.peer.fsm.actorAddresses ++ h'.peer.data.aaaAddress.toList = h.peer.getActorAddresses := by
    obtain ⟨mark, hfsm⟩ := hm.fsm
    rw [hfsm, hm.aaaAddress]
    rfl
  by_cases hty : h.peer.linkType = .internal
  · rw [initiateClose, if_pos hty]
  · exact Marked.initiateClose
      (P := fun h' => h'.peer.getActorAddresses = h.peer.getActorAddresses) hty
      (fun _ hm _ => (hkept hm :)) fun _ hm => (hkept hm :)

theorem initiateClose_effects :
    ∃ works : List Work, (h.initiateClose cx reason).1.effects = h.effects ++ works.map .spawn := by
  have hspawns {h' h'' : Handling} (hm : Marked reason h h') (works' : List Work)
      (heff : h''.effects = h'.effects ++ works'.map .spawn) :
      ∃ works : List Work, h''.effects = h.effects ++ works.map .spawn := by
    obtain ⟨works, hworks⟩ := hm.spawned
    exact ⟨works ++ works', by rw [heff, hworks, List.map_append, List.append_assoc]⟩
  by_cases hty : h.peer.linkType = .internal
  · rw [initiateClose, if_pos hty]
    exact ⟨[], (List.append_nil _).symm⟩
  · exact Marked.initiateClose
      (P := fun h' => ∃ works : List Work, h'.effects = h.effects ++ works.map .spawn) hty
      (fun _ hm _ => hspawns hm [_] rfl) fun _ hm => hspawns hm [_, _] (List.append_assoc ..)

end Handling

theorem Node.foldl_spawn_vsPeer {id : LinkId} {uid origin : Nat} (works : List Work) (n : Node) :
    ((works.map Effect.spawn).foldl (applyEffect id uid origin) n).vsPeer = n.vsPeer := by
  induction works generalizing n with
  | nil => rfl
  | cons w works ih => exact ih _

/-- The links of `n'` are those of `n` with the same addresses. Those in `closed` are shut down, the
    internal ones among them apart, and all others are unchanged. -/
structure Closes (closed : LinkId → Prop) (n n' : Node) : Prop where
  vsPeer : n'.vsPeer = n.vsPeer
  nextUid : n'.nextUid = n.nextUid
  addresses : ∀ id, (n'.peers id).map (·.getActorAddresses) = (n.peers id).map (·.getActorAddresses)
  kept : ∀ {id}, ¬closed id → n'.peers id = n.peers id
  shut : ∀ {id p}, closed id → n'.peers id = some p →
    ShutDown p ∨ p.linkType = .internal ∧ n.peers id = some p

namespace Closes

variable {n₁ n' : Node} {closed closed' : LinkId → Prop}

theorem refl (n : Node) : Closes (fun _ => False) n n := 
  ⟨rfl, rfl, fun _ => rfl, fun _ => rfl, nofun⟩

theorem trans (c : Closes closed n n₁) (c' : Closes closed' n₁ n') :
    Closes (fun id => closed id ∨ closed' id) n n' where
  vsPeer := c'.vsPeer.trans c.vsPeer
  nextUid := c'.nextUid.trans c.nextUid
  addresses id := (c'.addresses id).trans (c.addresses id)
  kept hid := (c'.kept fun h => hid (.inr h)).trans (c.kept fun h => hid (.inl h))
  shut {id p} hid hp := by
    have hfirst (hp : n₁.peers id = some p) (hty : closed id ∨ p.linkType = .internal) :
        ShutDown p ∨ p.linkType = .internal ∧ n.peers id = some p := by
      by_cases hid : closed id
      · exact c.shut hid hp
      · exact .inr ⟨hty.resolve_left hid, c.kept hid ▸ hp⟩
    by_cases hid' : closed' id
    · rcases c'.shut hid' hp with hshut | ⟨hty, hp⟩
      · exact .inl hshut
      · exact hfirst hp (.inr hty)
    · exact hfirst (c'.kept hid' ▸ hp) (.inl (hid.resolve_right hid'))

theorem congr (c : Closes closed n n') (h : ∀ id, closed id ↔ closed' id) : Closes closed' n n' :=
  ⟨c.vsPeer, c.nextUid, c.addresses, fun hid => c.kept (mt (h _).mp hid), fun hid => c.shut ((h _).mpr hid)⟩

theorem close {origin : Nat} {p : PeerState} (hp : n.peers id = some p) :
    Closes (· = id) n (n.processLinkStateEvent prim cfg io origin id (.close .shutdown)).1 := by
  have hevent : (n.processLinkStateEvent prim cfg io origin id (.close .shutdown)).1 =
      n.apply id origin (Handling.initiateClose (n.context prim cfg io) ⟨p, []⟩ .shutdown).1 := by
    unfold Node.processLinkStateEvent
    rw [hp]
    rfl
  obtain ⟨works, hworks⟩ := @Handling.initiateClose_effects (n.context prim cfg io) ⟨p, []⟩ .shutdown
  rw [List.nil_append] at hworks
  have hself : (n.processLinkStateEvent prim cfg io origin id (.close .shutdown)).1.peers id =
      some (Handling.initiateClose (n.context prim cfg io) ⟨p, []⟩ .shutdown).1.peer := by
    rw [hevent, Node.apply_peers_self, hworks, List.any_map]
    exact if_neg (by simp [Effect.isDropPeer])
  have hother {id' : LinkId} (hne : id' ≠ id) :
      (n.processLinkStateEvent prim cfg io origin id (.close .shutdown)).1.peers id' = n.peers id' := by
    rw [hevent, Node.apply_peers_ne hne]
  refine ⟨?_, hevent ▸ Node.apply_nextUid, fun id' => ?_, hother, ?_⟩
  · rw [hevent, Node.apply, hworks, Node.foldl_spawn_vsPeer]
    rfl
  · by_cases hid : id' = id
    · rw [hid, hself, hp, Option.map_some, Option.map_some,
        Handling.initiateClose_getActorAddresses]
    · rw [hother hid]
  · rintro _ p' rfl hp'
    cases hself.symm.trans hp'
    by_cases hty : p.linkType = .internal
    · refine .inr ?_
      rw [Handling.initiateClose, if_pos hty]
      exact ⟨hty, hp⟩
    · exact .inl (ShutDown.initiateClose (h := ⟨p, []⟩) hty)

/-! ## Looking an address up -/

theorem holds_iff (c : Closes closed n n') : n'.Holds addr id ↔ n.Holds addr id := by
  have hmap (m : Node) : m.Holds addr id ↔
      ∃ as, (m.peers id).map (·.getActorAddresses) = some as ∧ addr ∈ as := by
    simp only [Node.Holds, Option.map_eq_some_iff, exists_exists_and_eq_and]
  rw [hmap, hmap, c.addresses]

/-- Closing links does not change which link is the first to hold an address. -/
theorem firstHolder_iff (c : Closes closed n n') :
    n'.FirstHolder slots addr id ↔ n.FirstHolder slots addr id := by
  simp only [Node.FirstHolder, c.holds_iff]

end Closes

section

variable {id' : LinkId} {p : PeerState}

theorem Node.find_holds :
    n.find slots (·.holds addr) = some (id, p) ↔ n.peers id = some p ∧ n.FirstHolder slots addr id := by
  have hsome {id₁ : LinkId} {q : LinkId × PeerState} :
      ((n.peers id₁).filter (·.holds addr)).map (fun p => (id₁, p)) = some q ↔
        n.peers id₁ = some q.2 ∧ addr ∈ q.2.getActorAddresses ∧ id₁ = q.1 := by
    rw [Option.map_eq_some_iff]
    constructor
    · rintro ⟨p, hp, rfl⟩
      obtain ⟨hp, hholds⟩ := Option.filter_eq_some_iff.mp hp
      exact ⟨hp, PeerState.holds_iff.mp hholds, rfl⟩
    · rintro ⟨hp, haddr, rfl⟩
      exact ⟨q.2, Option.filter_eq_some_iff.mpr ⟨hp, PeerState.holds_iff.mpr haddr⟩, rfl⟩
  have hnone {id₁ : LinkId} :
      ((n.peers id₁).filter (·.holds addr)).map (fun p => (id₁, p)) = none ↔ ¬n.Holds addr id₁ := by
    rw [Option.eq_none_iff_forall_ne_some]
    constructor
    · rintro h ⟨p, hp, haddr⟩
      exact h (id₁, p) (hsome.mpr ⟨hp, haddr, rfl⟩)
    · intro h q hq
      exact h ⟨q.2, (hsome.mp hq).1, (hsome.mp hq).2.1⟩
  rw [Node.find, List.findSome?_eq_some_iff]
  constructor
  · rintro ⟨before, id₁, after, hslots, hid, hbefore⟩
    obtain ⟨hp, haddr, rfl⟩ := hsome.mp hid
    exact ⟨hp, ⟨p, hp, haddr⟩, before, after, hslots, fun x hx => hnone.mp (hbefore x hx)⟩
  · rintro ⟨hp, ⟨q, hq, haddr⟩, before, after, hslots, hbefore⟩
    cases hp.symm.trans hq
    exact ⟨before, id, after, hslots, hsome.mpr ⟨hp, haddr, rfl⟩, fun x hx => hnone.mpr (hbefore x hx)⟩

theorem Node.FirstHolder.unique (h : n.FirstHolder slots addr id) (h' : n.FirstHolder slots addr id') :
    id' = id := by
  obtain ⟨p, hp, -⟩ := h.1
  obtain ⟨p', hp', -⟩ := h'.1
  have hsame := (find_holds.mpr ⟨hp, h⟩).symm.trans (find_holds.mpr ⟨hp', h'⟩)
  cases hsame
  rfl

/-! ## Revoking addresses -/

namespace Closes

theorem revokeAddress :
    Closes (n.FirstHolder slots addr) n (n.revokeAddress prim cfg io slots addr) := by
  unfold Node.revokeAddress
  split
  · next id p hfind =>
    obtain ⟨hp, hfirst⟩ := Node.find_holds.mp hfind
    refine (close hp).congr fun id' => ⟨?_, hfirst.unique⟩
    rintro rfl
    exact hfirst
  · next hfind =>
    refine (refl n).congr fun id => ⟨False.elim, fun hfirst => ?_⟩
    obtain ⟨p, hp, -⟩ := hfirst.1
    cases hfind.symm.trans (Node.find_holds.mpr ⟨hp, hfirst⟩)

/-- What is closed for a list of addresses is the first holder of each, in the table as it was
    before. -/
theorem processRevokeAuth (n : Node) (addrs : List IpAddr) :
    Closes (fun id => ∃ addr ∈ addrs, n.FirstHolder slots addr id) n
      (n.processRevokeAuth prim cfg io slots addrs).1 := by
  induction addrs generalizing n with
  | nil => exact (refl n).congr (by simp)
  | cons addr addrs ih =>
    have c : Closes (n.FirstHolder slots addr) n (n.revokeAddress prim cfg io slots addr) :=
      revokeAddress
    refine (c.trans (ih _)).congr fun id => ?_
    simp only [c.firstHolder_iff, List.mem_cons, exists_eq_or_imp]

end Closes

/-- After an authentication was revoked no link that can be closed is active with a revoked address,
    if and only if each active link that holds one of the addresses was the first in the table to
    hold one of them. -/
theorem revoked_actors_inactive {addrs : List IpAddr} :
    (∀ id p, (n.processRevokeAuth prim cfg io slots addrs).1.peers id = some p →
      p.linkType ≠ .internal → (n.processRevokeAuth prim cfg io slots addrs).1.vsPeer ≠ some id →
      p.fsm.state = .active → ∀ addr ∈ addrs, addr ∉ p.getActorAddresses) ↔
    ∀ id p, n.peers id = some p → p.linkType ≠ .internal → n.vsPeer ≠ some id →
      p.fsm.state = .active → (∃ addr ∈ addrs, addr ∈ p.getActorAddresses) →
      ∃ addr ∈ addrs, n.FirstHolder slots addr id := by
  have c : Closes (fun id => ∃ addr ∈ addrs, n.FirstHolder slots addr id) n
      (n.processRevokeAuth prim cfg io slots addrs).1 := .processRevokeAuth n addrs
  rw [c.vsPeer]
  constructor
  · intro h id p hp hty hvs hactive ⟨addr, hmem, haddr⟩
    by_contra hfirst
    exact h id p (c.kept hfirst ▸ hp) hty hvs hactive addr hmem haddr
  intro h id p hp hty hvs hactive addr hmem haddr
  by_cases hfirst : ∃ addr ∈ addrs, n.FirstHolder slots addr id
  · have hend := ((c.shut hfirst hp).resolve_right fun h => hty h.1).ending
    rw [hactive] at hend
    cases hend
  · exact hfirst (h id p (c.kept hfirst ▸ hp) hty hvs hactive ⟨addr, hmem, haddr⟩)

end

/-- An adapter docks under `id` with the address 7; its activities start at index `j`. -/
def sampleDock (id : LinkId) (j : Nat) : List NodeAction :=
  [.startTether id .nodeToAdapter true (Vector.replicate 32 1) sampleIo,
    .run (j + 1) (.established (sampleSa 1 none)) sampleIo,
    .run (j + 2) .due sampleIo,
    .receive id (.helloRequest none),
    .run (j + 2) .due sampleIo,
    .receive id (.acquireZprAddress (some [.v6 7]) "1"),
    .run (j + 3) .due sampleIo,
    .run (j + 3) (.authorized (.v6 7) 100) sampleIo]

/-- Two links are active with the same address when it is revoked. In whatever order they are visited,
    one of them stays active. -/
theorem second_holder_stays_active :
    ∃ n, Run (Node.step samplePrimitives sampleConfig) (· = Node.init) (fun _ _ => True) n ∧
      n.vsPeer = none ∧
      (∃ p, (n.processRevokeAuth samplePrimitives sampleConfig sampleIo [5, 6] [.v6 7]).1.peers 6 =
        some p ∧ p.linkType = .nodeToAdapter ∧ p.fsm.state = .active ∧
        p.fsm.actorAddresses = [.v6 7]) ∧
      ∃ p, (n.processRevokeAuth samplePrimitives sampleConfig sampleIo [6, 5] [.v6 7]).1.peers 5 =
        some p ∧ p.linkType = .nodeToAdapter ∧ p.fsm.state = .active ∧
        p.fsm.actorAddresses = [.v6 7] :=
  Run.reaches rfl (sampleDock 5 0 ++ sampleDock 6 4) (by decide +kernel)

end ZprCore.Link
