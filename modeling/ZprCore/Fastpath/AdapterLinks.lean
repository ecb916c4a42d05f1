-- SUMMARY: The links of an adapter, over all sequences of packets from the substrate.
import ZprCore.Fastpath.Ingress
import ZprCore.Lib.Run

/-!
# The links of an adapter

An adapter has two links, to its local actor and to its dock, and finds the next hop of a packet
from the parity of its link. Dispatch starts a tether for key management from any address, whatever
the mode of the process, so that these two are all the links it has only as long as no such packet
arrives from an address that has no link.
-/

namespace ZprCore.Fastpath

open ZprCore.Flow Adapter
open Dock (localActorLinkId dockLinkId)

/-- A packet in the queue of the management dispatch worker. -/
inductive MgmtDispatch where
  | withAddr (peerSa : SubstrateAddr) (interfaceAddr : ScopedIpAddr) (pkt : Bytes)
  | withLink (link : LinkId) (pkt : Bytes)
deriving DecidableEq

/-- A process in `PhMode::Adapter`, as far as its links go. -/
structure AdapterLinks (Codec : Type) where
  peers : PeerTable Codec
  queue : List MgmtDispatch
  /-- The ingress and the egress link of each packet that was forwarded. -/
  moved : List (LinkId × LinkId)

namespace AdapterLinks

variable {Codec : Type}

inductive Action (Codec : Type) where
  /-- A packet arrives from the substrate. -/
  | receive (peerSa : SubstrateAddr) (interfaceAddr : ScopedIpAddr) (pkt : Bytes) (full : Bool)
  /-- The dispatch worker takes the next packet; `key` is the vacant slot if it needs one. -/
  | dispatch (key : Option LinkId)
  /-- A packet of the local actor goes out on a tether. -/
  | actorOutput (tether : StreamId)
  /-- Key management comes to an end or starts anew. -/
  | setSecurityAssociation (link : LinkId) (sa : Option (KmTransportSA Codec))
  /-- A link is closed for good. -/
  | dropPeer (link : LinkId)

/-- `forward` of a packet from a link, where an adapter drops nothing. -/
def forwarded (s : AdapterLinks Codec) (link : LinkId) (stream : StreamId) : AdapterLinks Codec :=
  match forward s.peers .adapter link stream with
  | .error _ => s
  | .ok (egress, _) => { s with moved := s.moved ++ [(link, egress)] }

variable (cipher : Cipher Codec)

def step (s : AdapterLinks Codec) : Action Codec → Option (AdapterLinks Codec)
  | .receive peerSa interfaceAddr pkt full =>
    match substrateIngress cipher s.peers full peerSa interfaceAddr pkt with
    | .dropped _ => some s
    | .dispatchedWithAddr pkt => some { s with queue := s.queue ++ [.withAddr peerSa interfaceAddr pkt] }
    | .dispatchedWithLink link pkt => some { s with queue := s.queue ++ [.withLink link pkt] }
    | .forward link stream _ => some (s.forwarded link stream)
  | .dispatch key =>
    match s.queue with
    | [] => none
    | .withLink .. :: queue => some { s with queue }
    | .withAddr peerSa interfaceAddr pkt :: queue =>
      if s.peers.isVacantKey key then
        (dispatchMgmtPacketWithAddr s.peers key peerSa interfaceAddr pkt).map fun (peers, _) =>
          { s with peers, queue }
      else none
  | .actorOutput tether => some (s.forwarded localActorLinkId tether)
  | .setSecurityAssociation link sa => some { s with peers := s.peers.setSecurityAssociation link sa }
  | .dropPeer link => some { s with peers := s.peers.remove link }

/-- How an adapter starts: with the link of its local actor, and the tether to its dock. -/
def Boots (s : AdapterLinks Codec) : Prop :=
  ∃ nodeAddr selfAddr,
    (PeerTable.new.insert localActorLinkId .newInternalPeer).bind
      (·.insert dockLinkId (.new .adapterToNode nodeAddr selfAddr)) = some s.peers ∧
    s.queue = [] ∧ s.moved = []

/-- Key management, in the clear, from an address that has no link. -/
def unsolicited (s : AdapterLinks Codec) : Action Codec → Bool
  | .receive peerSa interfaceAddr pkt _ =>
    s.peers.lookupPeer peerSa interfaceAddr = linkIdUnknown &&
      match decryptNull cipher pkt with
      | .error _ => false
      | .ok plain => ((readBaseHeader (plain.drop 1)).map (·.1)) = some .keyManagement
  | _ => false

/-- Is it one of the two links? -/
def IsOwn (link : LinkId) : Prop := link = localActorLinkId ∨ link = dockLinkId

/-- The two links are all there are, to the table and to the packets. -/
structure OwnLinks (s : AdapterLinks Codec) : Prop where
  peers : ∀ link peer, s.peers.peerSlab.lookup link = some peer → IsOwn link
  addrs : ∀ addr link, s.peers.saToLink.lookup addr = some link → IsOwn link
  queue : ∀ sa interfaceAddr pkt, .withAddr sa interfaceAddr pkt ∈ s.queue →
    ∀ rest, readBaseHeader pkt ≠ some (.keyManagement, rest)
  moved : ∀ m ∈ s.moved, m = (localActorLinkId, dockLinkId) ∨ m = (dockLinkId, localActorLinkId)

/-! ## The peer table -/

variable {t t' : PeerTable Codec} {id link : LinkId} {peer : PeerState Codec}

theorem insert_some (h : t.insert id peer = some t') :
    t'.peerSlab = t.peerSlab.insert id peer ∧
      ∀ addr link, t'.saToLink.lookup addr = some link → t.saToLink.lookup addr = some link ∨ link = id := by
  unfold PeerTable.insert at h
  dsimp only at h
  split at h
  · cases h
    exact ⟨rfl, fun _ _ h => .inl h⟩
  split at h
  · cases h
  cases h
  refine ⟨rfl, fun addr link h => ?_⟩
  rw [Table.lookup_insert] at h
  split at h
  · exact .inr (Option.some.inj h).symm
  · exact .inl h

theorem lookup_setSecurityAssociation {sa : Option (KmTransportSA Codec)}
    (h : (t.setSecurityAssociation id sa).peerSlab.lookup link = some peer) :
    ∃ peer, t.peerSlab.lookup link = some peer := by
  unfold PeerTable.setSecurityAssociation PeerTable.get at h
  split at h
  · exact ⟨peer, h⟩
  next old hold =>
  rw [Table.lookup_insert] at h
  split at h
  · next hid =>
    split at hold
    · cases hold
    · exact ⟨old, hid ▸ hold⟩
  · exact ⟨peer, h⟩

theorem saToLink_setSecurityAssociation (t : PeerTable Codec) (id : LinkId)
    (sa : Option (KmTransportSA Codec)) : (t.setSecurityAssociation id sa).saToLink = t.saToLink := by
  unfold PeerTable.setSecurityAssociation
  split <;> rfl

theorem lookup_remove (h : (t.remove id).peerSlab.lookup link = some peer) :
    t.peerSlab.lookup link = some peer := by
  unfold PeerTable.remove at h
  split at h
  · exact h
  rw [Table.lookup_erase] at h
  split at h
  · cases h
  · exact h

theorem saToLink_remove {addr : SubstrateAddr × ScopedIpAddr}
    (h : (t.remove id).saToLink.lookup addr = some link) : t.saToLink.lookup addr = some link := by
  unfold PeerTable.remove at h
  split at h
  · exact h
  rw [Table.lookup_erase] at h
  split at h
  · cases h
  · exact h

/-! ## Steps -/

variable {s s' : AdapterLinks Codec} {a : Action Codec} {cipher}

namespace OwnLinks

theorem boots (h : Boots s) : OwnLinks s := by
  obtain ⟨nodeAddr, selfAddr, hpeers, hqueue, hmoved⟩ := h
  obtain ⟨t, hactor, hdock⟩ := Option.bind_eq_some_iff.mp hpeers
  obtain ⟨hslab, haddrs⟩ := insert_some hactor
  obtain ⟨hslab', haddrs'⟩ := insert_some hdock
  refine ⟨fun link peer h => ?_, fun addr link h => ?_, ?_, ?_⟩
  · rw [hslab', hslab, Table.lookup_insert, Table.lookup_insert] at h
    split at h
    · next hlink => exact .inr hlink
    split at h
    · next hlink => exact .inl hlink
    · cases h
  · rcases haddrs' addr link h with h | hlink
    · rcases haddrs addr link h with h | hlink
      · cases h
      · exact .inl hlink
    · exact .inr hlink
  · rw [hqueue]
    exact nofun
  · rw [hmoved]
    exact nofun

theorem forwarded (own : OwnLinks s) (hlink : IsOwn link) (stream : StreamId) :
    OwnLinks (s.forwarded link stream) := by
  refine ⟨own.peers, own.addrs, own.queue, fun m hm => ?_⟩
  rcases List.mem_append.mp hm with hm | hm
  · exact own.moved m hm
  · rcases hlink with rfl | rfl
    · exact .inl (List.mem_singleton.mp hm)
    · exact .inr (List.mem_singleton.mp hm)

theorem enqueue {d : MgmtDispatch} (own : OwnLinks s)
    (hd : ∀ sa interfaceAddr pkt, d = .withAddr sa interfaceAddr pkt →
      ∀ rest, readBaseHeader pkt ≠ some (.keyManagement, rest)) :
    OwnLinks { s with queue := s.queue ++ [d] } := by
  refine ⟨own.peers, own.addrs, fun sa interfaceAddr pkt h => ?_, own.moved⟩
  rcases List.mem_append.mp h with h | h
  · exact own.queue sa interfaceAddr pkt h
  · exact hd sa interfaceAddr pkt (List.mem_singleton.mp h).symm

variable {interfaceAddr : ScopedIpAddr} {peerSa : SubstrateAddr}

theorem lookupPeer (own : OwnLinks s)
    (h : s.peers.lookupPeer peerSa interfaceAddr ≠ linkIdUnknown) :
    IsOwn (s.peers.lookupPeer peerSa interfaceAddr) := by
  unfold PeerTable.lookupPeer at h ⊢
  cases hlink : s.peers.saToLink.lookup (peerSa, interfaceAddr) with
  | none =>
    rw [hlink] at h
    exact absurd rfl h
  | some link => exact own.addrs _ _ hlink

theorem not_keyManagement {pkt plain : Bytes} {full : Bool} {zpi x : UInt8}
    (hok : unsolicited cipher s (.receive peerSa interfaceAddr pkt full) = false)
    (hlink : s.peers.lookupPeer peerSa interfaceAddr = linkIdUnknown)
    (hplain : decrypt cipher s.peers linkIdUnknown zpi pkt = .ok (x :: plain)) (rest : Bytes) :
    readBaseHeader plain ≠ some (.keyManagement, rest) := by
  intro hkm
  have hnull : decryptNull cipher pkt = .ok (x :: plain) := by
    rw [← hplain]
    exact (if_neg fun h => h.2 rfl).symm
  simp [unsolicited, hlink, hnull, hkm] at hok

theorem step (own : OwnLinks s) (hok : unsolicited cipher s a = false)
    (h : s.step cipher a = some s') : OwnLinks s' := by
  cases a with
  | receive peerSa interfaceAddr pkt full =>
    have hcases := @substrateIngress_cases _ cipher s.peers full peerSa interfaceAddr pkt _ rfl
    unfold AdapterLinks.step at h
    dsimp only at h
    rcases hcases with ⟨reason, hout⟩ | ⟨zpi, rest, x, plain, -, hplain, ⟨hlink, hout⟩ | ⟨hlink, -, hthrough⟩⟩
    · rw [hout] at h
      cases h
      exact own
    · rw [hout] at h
      cases h
      rw [hlink] at hplain
      refine own.enqueue ?_
      rintro _ _ _ ⟨⟩
      exact not_keyManagement hok hlink hplain
    · generalize substrateIngress cipher s.peers full peerSa interfaceAddr pkt = out at h hthrough
      cases hthrough with
      | dispatched =>
        cases h
        exact own.enqueue nofun
      | forward =>
        cases h
        exact own.forwarded (own.lookupPeer hlink) _
  | dispatch key =>
    unfold AdapterLinks.step at h
    dsimp only at h
    split at h
    · cases h
    · next hqueue =>
      cases h
      exact ⟨own.peers, own.addrs, fun _ _ _ hm => own.queue _ _ _ (hqueue ▸ List.mem_cons_of_mem _ hm),
        own.moved⟩
    next peerSa interfaceAddr pkt queue hqueue =>
    split at h
    -- none of the packets in the queue opens a link
    · have hother := own.queue peerSa interfaceAddr pkt (hqueue ▸ List.mem_cons_self)
      rw [dispatchMgmtPacketWithAddr_other hother] at h
      cases h
      exact ⟨own.peers, own.addrs,
        fun _ _ _ hm => own.queue _ _ _ (hqueue ▸ List.mem_cons_of_mem _ hm), own.moved⟩
    · cases h
  | actorOutput tether =>
    cases h
    exact own.forwarded (.inl rfl) tether
  | setSecurityAssociation id sa =>
    cases h
    refine ⟨fun link peer h => ?_, fun addr link h => ?_, own.queue, own.moved⟩
    · obtain ⟨old, hold⟩ := lookup_setSecurityAssociation h
      exact own.peers link old hold
    · exact own.addrs addr link (saToLink_setSecurityAssociation s.peers id sa ▸ h)
  | dropPeer id =>
    cases h
    exact ⟨fun link peer h => own.peers link peer (lookup_remove h),
      fun addr link h => own.addrs addr link (saToLink_remove h), own.queue, own.moved⟩

end OwnLinks

/-- As long as no key management comes from an address without a link, an adapter has the links
    to its actor and its dock and no others, and forwards packets from one of the two to the
    other. -/
theorem adapter_talks_to_its_dock {s : AdapterLinks Codec}
    (h : Run (step cipher) Boots (fun s a => unsolicited cipher s a = false) s) :
    (∀ link peer, s.peers.peerSlab.lookup link = some peer →
      link = localActorLinkId ∨ link = dockLinkId) ∧
    ∀ m ∈ s.moved, m = (localActorLinkId, dockLinkId) ∨ m = (dockLinkId, localActorLinkId) := by
  have own : OwnLinks s := h.invariant (fun _ => OwnLinks.boots) fun _ _ _ own => own.step
  exact ⟨own.peers, own.moved⟩

def sampleAdapter : AdapterLinks Unit where
  peers := {
    peerSlab := ((∅ : Table LinkId (PeerState Unit)).insert localActorLinkId .newInternalPeer).insert
      dockLinkId (.new .adapterToNode sampleNodeAddr sampleSelfAddr)
    saToLink := (∅ : Table (SubstrateAddr × ScopedIpAddr) LinkId).insert (sampleNodeAddr, sampleSelfAddr)
      dockLinkId }
  queue := []
  moved := []

theorem sampleAdapter_boots : Boots sampleAdapter := ⟨sampleNodeAddr, sampleSelfAddr, rfl, rfl, rfl⟩

/-- A packet from the dock and one to it. -/
theorem adapter_talks_to_its_dock_transit :
    ∃ s, Run (step sampleCipher) Boots (fun s a => unsolicited sampleCipher s a = false) s ∧
      s.moved.length = 2 ∧
      ∀ m ∈ s.moved, m = (localActorLinkId, dockLinkId) ∨ m = (dockLinkId, localActorLinkId) := by
  refine Run.reaches_imp (P := fun s => s.moved.length = 2) sampleAdapter_boots
    [.setSecurityAssociation dockLinkId (some sampleSa),
      .receive sampleNodeAddr sampleSelfAddr sampleTransit false, .actorOutput 9] (by decide +kernel) ?_
  intro s hrun hmoved
  exact ⟨hmoved, (adapter_talks_to_its_dock hrun).2⟩

/-- A key management packet, with its checksum. -/
def sampleKm : Bytes := [0, 129, 0, 0x7e, 0xff]

/-- Some host of the substrate makes itself a link. -/
def sampleIntrusion (host : BitVec 32) (link : LinkId) : List (Action Unit) :=
  [.receive ⟨.v4 host, 5000, 0, 0⟩ sampleSelfAddr sampleKm false, .dispatch (some link),
    .setSecurityAssociation link (some sampleSa),
    .receive ⟨.v4 host, 5000, 0, 0⟩ sampleSelfAddr sampleTransit false]

/-- Two hosts become links 3 and 4. Packets of the one are sent to the dock, packets of the other
    are handed to the actor. -/
theorem strangers_become_links :
    ∃ s, Run (step sampleCipher) Boots (fun _ _ => True) s ∧
      (s.peers.get 3).isSome ∧ (s.peers.get 4).isSome ∧
      s.moved = [(3, dockLinkId), (4, localActorLinkId)] :=
  Run.reaches sampleAdapter_boots
    (sampleIntrusion 0x0a000009 3 ++ sampleIntrusion 0x0a00000a 4) (by decide +kernel)

end AdapterLinks

end ZprCore.Fastpath
