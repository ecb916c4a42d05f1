-- SUMMARY: Packets from the substrate: decryption, dispatch to management and forwarding.
import ZprCore.Fastpath.Actor
import ZprCore.Km.Association

/-!
# Substrate ingress

The part of `fastpath.rs` that takes packets from the substrate, with the peer table as it reads
it, and the part of `mgmt/dispatch.rs` that takes packets from addresses without a link. Which
vacant slot the slab of the peer table gives is left open. The tailroom of a packet only decides
where the plaintext is written, and is not modelled.
-/

namespace ZprCore.Fastpath

open ZprCore.Flow Adapter
open Dock (PftPep localActorLinkId dockLinkId)
open Link (IpAddr LinkType)

export Mgmt (LinkId linkIdUnknown)

/-! ## The peer table -/

structure SubstrateAddr where
  ip : IpAddr
  port : UInt16
  flowinfo : UInt32
  scopeId : UInt32
deriving DecidableEq

structure ScopedIpAddr where
  ip : IpAddr
  scopeId : UInt32
deriving DecidableEq

def isUnspecified : IpAddr → Bool
  | .v4 addr => addr = 0
  | .v6 addr => addr = 0

/-- The fast path does not look at the peer's certificate. -/
abbrev KmTransportSA (Codec : Type) := Km.KmTransportSA Codec Unit

structure PeerState (Codec : Type) where
  substrateAddr : SubstrateAddr
  interfaceAddr : ScopedIpAddr
  linkType : LinkType
  pft : Table StreamId PftPep
  transportSa : Option (KmTransportSA Codec)

def PeerState.new {Codec : Type} (linkType : LinkType) (substrateAddr : SubstrateAddr)
    (interfaceAddr : ScopedIpAddr) : PeerState Codec where
  substrateAddr
  interfaceAddr
  linkType
  pft := ∅
  transportSa := none

def PeerState.newInternalPeer {Codec : Type} : PeerState Codec :=
  .new .internal ⟨.v6 0, 0, 0, 0⟩ ⟨.v6 0, 0⟩

def peerTableSize : Nat := 1024

structure PeerTable (Codec : Type) where
  peerSlab : Table LinkId (PeerState Codec)
  saToLink : Table (SubstrateAddr × ScopedIpAddr) LinkId

variable {Codec : Type}

namespace PeerTable

def new : PeerTable Codec := ⟨∅, ∅⟩

/-- Slots are counted from 1. -/
def get (t : PeerTable Codec) (id : LinkId) : Option (PeerState Codec) :=
  if id = linkIdUnknown then none else t.peerSlab.lookup id

/-- The link of an address, or `linkIdUnknown`. -/
def lookupPeer (t : PeerTable Codec) (sa : SubstrateAddr) (interfaceAddr : ScopedIpAddr) : LinkId :=
  (t.saToLink.lookup (sa, interfaceAddr)).getD linkIdUnknown

/-- May the slab give this key, or none, for the next entry? -/
def isVacantKey (t : PeerTable Codec) : Option LinkId → Bool
  | some id => id ≠ linkIdUnknown && id ≤ peerTableSize && (t.peerSlab.lookup id).isNone
  | none => peerTableSize ≤ t.peerSlab.keys.length

/-- `VacantPeerTableEntry::insert`, which panics if the address has a link. -/
def insert (t : PeerTable Codec) (id : LinkId) (peer : PeerState Codec) : Option (PeerTable Codec) :=
  let t := { t with peerSlab := t.peerSlab.insert id peer }
  if isUnspecified peer.substrateAddr.ip then some t
  else
    let sa := (peer.substrateAddr, peer.interfaceAddr)
    match t.saToLink.lookup sa with
    | some _ => none
    | none => some { t with saToLink := t.saToLink.insert sa id }

def remove (t : PeerTable Codec) (id : LinkId) : PeerTable Codec :=
  match t.get id with
  | none => t
  | some peer =>
    { peerSlab := t.peerSlab.erase id
      saToLink := t.saToLink.erase (peer.substrateAddr, peer.interfaceAddr) }

/-- `set_security_association` and `clear_security_association` -/
def setSecurityAssociation (t : PeerTable Codec) (id : LinkId) (sa : Option (KmTransportSA Codec)) :
    PeerTable Codec :=
  match t.get id with
  | none => t
  | some peer => { t with peerSlab := t.peerSlab.insert id { peer with transportSa := sa } }

def getEstablishedTransportAssociation (t : PeerTable Codec) (id : LinkId) :
    Option (KmTransportSA Codec) :=
  (t.get id).bind (·.transportSa)

end PeerTable

/-! ## Decryption -/

inductive KmImpl where
  | noise
  | null
deriving DecidableEq

/-- `NOISE_PADLEN` for the key management that has it. -/
def KmImpl.padlen : KmImpl → Nat
  | .noise => 24
  | .null => 0

/-- What the fastpath is given: the keyed BLAKE3 hash, the codecs of security associations, the
    Internet checksum, and the configuration. -/
structure Cipher (Codec : Type) where
  keyedHash : Vector UInt8 32 → Bytes → Vector UInt8 32
  /-- `decrypt_transport_stateless` -/
  decryptTransport : Codec → Bytes → Option Bytes
  sums : Checksums
  kmImpl : KmImpl

def zdpPacketMacSize : Nat := 8

def zpi0 : UInt8 := 0

section

variable (cipher : Cipher Codec)

/-- `decrypt_null`; the last two bytes are the checksum. -/
def decryptNull (b : Bytes) : Except DropReason Bytes :=
  if b.length < 1 + 2 then .error .badStructure
  else if cipher.sums.ip4sum (b.drop 1) ≠ 0 then .error .badChecksum
  else .ok (b.take (b.length - 2))

/-- The check value of a link. -/
def linkMac (key : Vector UInt8 32) (b : Bytes) : Bytes :=
  (cipher.keyedHash key b).toList.take zdpPacketMacSize

def decryptHmac (recvHmacKey : Vector UInt8 32) (b : Bytes) : Except DropReason Bytes :=
  if b.length < zdpPacketMacSize then .error .badStructure
  else
    let body := b.take (b.length - zdpPacketMacSize)
    if linkMac cipher recvHmacKey body ≠ b.drop (b.length - zdpPacketMacSize) then .error .micvFailure
    else .ok body

/-- `decrypt_full`, which leaves the ZPI header where it is. -/
def decryptFull (codec : Codec) (padlen : Nat) (b : Bytes) : Except DropReason Bytes :=
  if b.length < 1 then .error .badStructure
  else if b.length - 1 < padlen then .error .badStructure
  else
    match cipher.decryptTransport codec (b.drop 1) with
    | some plain => .ok (b.take 1 ++ plain)
    | none => .error .decryptionFailure

def decryptWithSa (zpi : UInt8) (sa : KmTransportSA Codec) (b : Bytes) : Except DropReason Bytes :=
  if zpi = sa.recvZpis.hmac then decryptHmac cipher sa.recvHmacKey b
  else if zpi = sa.recvZpis.encr then decryptFull cipher sa.codec cipher.kmImpl.padlen b
  else .error .unknownZpi

def decrypt (t : PeerTable Codec) (link : LinkId) (zpi : UInt8) (b : Bytes) : Except DropReason Bytes :=
  match t.getEstablishedTransportAssociation link with
  | some sa => decryptWithSa cipher zpi sa b
  | none =>
    if zpi ≠ zpi0 ∧ link ≠ linkIdUnknown then .error .unknownZpi else decryptNull cipher b

/-! ## Ingress -/

abbrev ZdpPacketType := UInt8

def ZdpPacketType.transitPacket : ZdpPacketType := 0
def ZdpPacketType.keyManagement : ZdpPacketType := 129

/-- The packet type and the rest behind the base header. -/
def readBaseHeader : Bytes → Option (ZdpPacketType × Bytes)
  | packetType :: _excessLength :: rest => some (packetType, rest)
  | _ => none

def readPerFlowHeader (b : Bytes) : Option (StreamId × Bytes) := do
  let (high, b) ← getU16 b
  let (low, b) ← getU16 b
  some (high.toNat * 65536 + low.toNat, b)

inductive Ingress where
  | dropped (reason : DropReason)
  /-- `try_dispatch_mgmt_packet_with_addr` -/
  | dispatchedWithAddr (pkt : Bytes)
  /-- `try_dispatch_mgmt_packet_with_link` -/
  | dispatchedWithLink (link : LinkId) (pkt : Bytes)
  /-- `forward` -/
  | forward (link : LinkId) (stream : StreamId) (pkt : Bytes)
deriving DecidableEq

/-- `substrate_ingress` once the link is known; `full` says whether the management queue is. -/
def substrateIngressOn (t : PeerTable Codec) (full : Bool) (link : LinkId) (pkt : Bytes) : Ingress :=
  match pkt with
  | [] => .dropped .badStructure
  | zpi :: _ =>
    match decrypt cipher t link zpi pkt with
    | .error reason => .dropped reason
    | .ok [] => .dropped .badStructure
    | .ok (_ :: pkt) =>
      if link = linkIdUnknown then
        if full then .dropped .queueBackpressure else .dispatchedWithAddr pkt
      else
        match readBaseHeader pkt with
        | none => .dropped .badStructure
        | some (packetType, rest) =>
          if zpi = zpi0 ∧ packetType ≠ .keyManagement then .dropped .otherError
          else if packetType ≠ .transitPacket then
            -- the base header is put back
            if full then .dropped .queueBackpressure else .dispatchedWithLink link pkt
          else
            match readPerFlowHeader rest with
            | none => .dropped .badStructure
            | some (stream, rest) => .forward link stream rest

def substrateIngress (t : PeerTable Codec) (full : Bool) (peerSa : SubstrateAddr)
    (interfaceAddr : ScopedIpAddr) (pkt : Bytes) : Ingress :=
  substrateIngressOn cipher t full (t.lookupPeer peerSa interfaceAddr) pkt

end

/-! ## Dispatch and forwarding -/

/-- `start_tether` in a slot, for a link that starts at once. On a fresh link the start does
    not fail. -/
def startTether (t : PeerTable Codec) (key : Option LinkId) (peerSa : SubstrateAddr)
    (interfaceAddr : ScopedIpAddr) (linkType : LinkType) : Option (PeerTable Codec × Option LinkId) :=
  match key with
  | none => some (t, none)
  | some id => (t.insert id (.new linkType peerSa interfaceAddr)).map (·, some id)

/-- `dispatch_mgmt_packet_with_addr`: the peer table, and the link whose key management is handed
    the packet, unless it is only counted as one of an unknown peer. -/
def dispatchMgmtPacketWithAddr (t : PeerTable Codec) (key : Option LinkId) (peerSa : SubstrateAddr)
    (interfaceAddr : ScopedIpAddr) (pkt : Bytes) : Option (PeerTable Codec × Option (LinkId × Bytes)) :=
  match readBaseHeader pkt with
  | none => some (t, none)
  | some (packetType, rest) =>
    if packetType = .keyManagement then
      let link := t.lookupPeer peerSa interfaceAddr
      if link = linkIdUnknown then
        (startTether t key peerSa interfaceAddr .nodeToAdapter).map fun (t, started) =>
          (t, started.map (·, rest))
      else some (t, some (link, rest))
    else some (t, none)

inductive PhMode where
  | adapter
  | node
deriving DecidableEq

def adapterNextHopLink (link : LinkId) : LinkId := link % 2 + 1

/-- `forward`: where the packet goes, or why it is dropped. -/
def forward (t : PeerTable Codec) (mode : PhMode) (link : LinkId) (stream : StreamId) :
    Except DropReason (LinkId × StreamId) :=
  match mode with
  | .adapter => .ok (adapterNextHopLink link, stream)
  | .node =>
    match t.get link with
    | none => .error .unknownPeer
    | some peer =>
      match peer.pft.lookup stream with
      | none => .error .unknownStreamId
      | some pep => .ok (pep.nextHop.link, pep.nextHop.stream)

/-! ## What gets through -/

section

variable {cipher : Cipher Codec} {t : PeerTable Codec} {full : Bool} {peerSa : SubstrateAddr}
  {interfaceAddr : ScopedIpAddr} {pkt plain : Bytes} {link : LinkId} {zpi : UInt8}
  {sa : KmTransportSA Codec}

/-- The packet is one under the security association, and `plain` is what is in it. -/
inductive Opened (cipher : Cipher Codec) (sa : KmTransportSA Codec) : Bytes → Bytes → Prop where
  | hmac {zpi : UInt8} {plain mac : Bytes} : zpi = sa.recvZpis.hmac →
      mac = linkMac cipher sa.recvHmacKey (zpi :: plain) → Opened cipher sa (zpi :: plain ++ mac) plain
  | encr {zpi : UInt8} {rest plain : Bytes} : zpi = sa.recvZpis.encr →
      cipher.decryptTransport sa.codec rest = some plain → Opened cipher sa (zpi :: rest) plain

/-- A packet on a link gets through: to management, or to forwarding if it is a transit packet. -/
inductive GetsThrough (link : LinkId) (plain : Bytes) : Ingress → Prop where
  | dispatched {packetType : ZdpPacketType} {rest : Bytes} :
      readBaseHeader plain = some (packetType, rest) → packetType ≠ .transitPacket →
      GetsThrough link plain (.dispatchedWithLink link plain)
  | forward {stream : StreamId} {rest rest' : Bytes} :
      readBaseHeader plain = some (.transitPacket, rest) →
      readPerFlowHeader rest = some (stream, rest') → GetsThrough link plain (.forward link stream rest')

theorem GetsThrough.keyManagement {rest : Bytes} {out : Ingress} (h : GetsThrough link plain out)
    (hbase : readBaseHeader plain = some (.keyManagement, rest)) :
    out = .dispatchedWithLink link plain := by
  cases h with
  | dispatched => rfl
  | forward htransit =>
    rw [hbase] at htransit
    exact absurd (Prod.mk.inj (Option.some.inj htransit)).1 (by decide)

theorem opened_of_decryptWithSa {x : UInt8}
    (h : decryptWithSa cipher zpi sa (zpi :: pkt) = .ok (x :: plain)) :
    Opened cipher sa (zpi :: pkt) plain := by
  unfold decryptWithSa at h
  split at h
  · next hzpi =>
    unfold decryptHmac at h
    split at h
    · cases h
    dsimp only at h
    split at h
    · cases h
    next hmac =>
    have hbody := Except.ok.inj h
    -- the packet is the body and the check value behind it
    have hsplit := List.take_append_drop ((zpi :: pkt).length - zdpPacketMacSize) (zpi :: pkt)
    rw [hbody] at hsplit hmac
    rw [← not_not.mp hmac] at hsplit
    obtain ⟨rfl, hpkt⟩ := List.cons.inj hsplit
    rw [← hpkt]
    exact .hmac hzpi rfl
  split at h
  · next hzpi =>
    unfold decryptFull at h
    split at h
    · cases h
    split at h
    · cases h
    split at h
    · next hplain =>
      cases Except.ok.inj h
      exact .encr hzpi hplain
    · cases h
  · cases h

theorem substrateIngress_cases (link : LinkId) (hlink : t.lookupPeer peerSa interfaceAddr = link) :
    (∃ reason, substrateIngress cipher t full peerSa interfaceAddr pkt = .dropped reason) ∨
    ∃ zpi rest x plain, pkt = zpi :: rest ∧ decrypt cipher t link zpi pkt = .ok (x :: plain) ∧
      (link = linkIdUnknown ∧
          substrateIngress cipher t full peerSa interfaceAddr pkt = .dispatchedWithAddr plain ∨
        link ≠ linkIdUnknown ∧
          (zpi = zpi0 → ∃ rest, readBaseHeader plain = some (.keyManagement, rest)) ∧
          GetsThrough link plain (substrateIngress cipher t full peerSa interfaceAddr pkt)) := by
  subst hlink
  generalize hout : substrateIngress cipher t full peerSa interfaceAddr pkt = out
  unfold substrateIngress substrateIngressOn at hout
  split at hout
  · exact .inl ⟨_, hout.symm⟩
  next zpi rest =>
  split at hout
  · exact .inl ⟨_, hout.symm⟩
  · exact .inl ⟨_, hout.symm⟩
  next x plain hplain =>
  split at hout
  · next hunknown =>
    split at hout
    · exact .inl ⟨_, hout.symm⟩
    · exact .inr ⟨zpi, rest, x, plain, rfl, hplain, .inl ⟨hunknown, hout.symm⟩⟩
  next hknown =>
  split at hout
  · exact .inl ⟨_, hout.symm⟩
  next packetType body hbase =>
  split at hout
  · exact .inl ⟨_, hout.symm⟩
  next hallowed =>
  have hkm : zpi = zpi0 → ∃ rest, readBaseHeader plain = some (.keyManagement, rest) := by
    intro hzpi
    have htype : packetType = .keyManagement := by
      by_contra hne
      exact hallowed ⟨hzpi, hne⟩
    exact ⟨body, htype ▸ hbase⟩
  refine (em (∃ reason, out = .dropped reason)).imp id fun hnot => ?_
  refine ⟨zpi, rest, x, plain, rfl, hplain, .inr ⟨hknown, hkm, ?_⟩⟩
  split at hout
  · next htype =>
    split at hout
    · exact absurd ⟨_, hout.symm⟩ hnot
    · exact hout ▸ .dispatched hbase htype
  next htype =>
  split at hout
  · exact absurd ⟨_, hout.symm⟩ hnot
  next stream rest' hflow =>
  rw [not_not.mp htype] at hbase
  exact hout ▸ .forward hbase hflow

theorem link_of_forward {stream : StreamId} {rest : Bytes}
    (h : substrateIngress cipher t full peerSa interfaceAddr pkt = .forward link stream rest) :
    link = t.lookupPeer peerSa interfaceAddr := by
  have hcases := @substrateIngress_cases _ cipher t full peerSa interfaceAddr pkt _ rfl
  rw [h] at hcases
  rcases hcases with ⟨reason, hout⟩ | ⟨zpi, rest, x, plain, -, -, ⟨-, hout⟩ | ⟨-, -, hthrough⟩⟩
  · cases hout
  · cases hout
  · cases hthrough
    rfl

theorem decrypt_established (h : t.getEstablishedTransportAssociation link = some sa) :
    decrypt cipher t link zpi pkt = decryptWithSa cipher zpi sa pkt := by
  rw [decrypt, h]

theorem link_of_established (h : t.getEstablishedTransportAssociation link = some sa) :
    link ≠ linkIdUnknown := by
  rintro rfl
  cases h

theorem decryptWithSa_zpi0 (hhmac : sa.recvZpis.hmac ≠ zpi0) (hencr : sa.recvZpis.encr ≠ zpi0) :
    decryptWithSa cipher zpi0 sa pkt = .error .unknownZpi := by
  rw [decryptWithSa, if_neg hhmac.symm, if_neg hencr.symm]

theorem zpi_of_decrypt_unestablished (hlink : link ≠ linkIdUnknown)
    (hsa : t.getEstablishedTransportAssociation link = none)
    (h : decrypt cipher t link zpi pkt = .ok plain) : zpi = zpi0 := by
  by_contra hne
  rw [decrypt, hsa] at h
  rw [if_pos ⟨hne, hlink⟩] at h
  cases h

theorem dispatchMgmtPacketWithAddr_other (h : ∀ rest, readBaseHeader pkt ≠ some (.keyManagement, rest))
    (t : PeerTable Codec) (key : Option LinkId) :
    dispatchMgmtPacketWithAddr t key peerSa interfaceAddr pkt = some (t, none) := by
  unfold dispatchMgmtPacketWithAddr
  split
  · rfl
  next packetType rest hbase =>
  rw [if_neg]
  rintro rfl
  exact h rest hbase

/-- A packet from an address without a link gets no further than the dispatch of key management.
    On a link with a security association, what gets through is what the association vouches
    for, and never has a ZPI of 0. On a link without one, only key management with a ZPI of 0
    gets through, and only to management. -/
theorem ingress_authentic (cipher : Cipher Codec) (t : PeerTable Codec) (full : Bool)
    (peerSa : SubstrateAddr) (interfaceAddr : ScopedIpAddr) (pkt : Bytes) :
    let link := t.lookupPeer peerSa interfaceAddr
    let out := substrateIngress cipher t full peerSa interfaceAddr pkt
    (link = linkIdUnknown →
      (∃ reason, out = .dropped reason) ∨
      ∃ pkt', out = .dispatchedWithAddr pkt' ∧
        ((∀ rest, readBaseHeader pkt' ≠ some (.keyManagement, rest)) → ∀ (t' : PeerTable Codec) key,
          dispatchMgmtPacketWithAddr t' key peerSa interfaceAddr pkt' = some (t', none))) ∧
    (∀ sa, t.getEstablishedTransportAssociation link = some sa →
      sa.recvZpis.hmac ≠ zpi0 → sa.recvZpis.encr ≠ zpi0 →
      ((∃ reason, out = .dropped reason) ∨
        ∃ plain, Opened cipher sa pkt plain ∧ GetsThrough link plain out) ∧
      (pkt.head? = some zpi0 → ∃ reason, out = .dropped reason)) ∧
    (link ≠ linkIdUnknown → t.getEstablishedTransportAssociation link = none →
      (∃ reason, out = .dropped reason) ∨
      ∃ plain rest, pkt.head? = some zpi0 ∧ readBaseHeader plain = some (.keyManagement, rest) ∧
        out = .dispatchedWithLink link plain) := by
  intro link out
  have hcases := @substrateIngress_cases _ cipher t full peerSa interfaceAddr pkt link rfl
  refine ⟨fun hunknown => ?_, fun sa hsa hhmac hencr => ?_, fun hknown hsa => ?_⟩
  · refine hcases.imp id ?_
    rintro ⟨zpi, rest, x, plain, -, -, ⟨-, hout⟩ | ⟨hknown, -⟩⟩
    · exact ⟨plain, hout, dispatchMgmtPacketWithAddr_other⟩
    · exact absurd hunknown hknown
  · constructor
    · refine hcases.imp id ?_
      rintro ⟨zpi, rest, x, plain, rfl, hplain, ⟨hunknown, -⟩ | ⟨-, -, hthrough⟩⟩
      · exact absurd hunknown (link_of_established hsa)
      · rw [decrypt_established hsa] at hplain
        exact ⟨plain, opened_of_decryptWithSa hplain, hthrough⟩
    · intro hzpi
      rcases hcases with hdropped | ⟨zpi, rest, x, plain, rfl, hplain, -⟩
      · exact hdropped
      · cases Option.some.inj hzpi
        rw [decrypt_established hsa, decryptWithSa_zpi0 hhmac hencr] at hplain
        cases hplain
  · refine hcases.imp id ?_
    rintro ⟨zpi, rest, x, plain, rfl, hplain, ⟨hunknown, -⟩ | ⟨-, hkm, hthrough⟩⟩
    · exact absurd hunknown hknown
    · have hzpi := zpi_of_decrypt_unestablished hknown hsa hplain
      obtain ⟨body, hbase⟩ := hkm hzpi
      exact ⟨plain, body, congrArg some hzpi, hbase, hthrough.keyManagement hbase⟩

/-- Simple functions in the place of BLAKE3 and of a codec. -/
def sampleCipher : Cipher Unit where
  keyedHash key body := Vector.replicate 32 ((key.toList ++ body).foldl (· + ·) 0)
  decryptTransport _ body := some body
  sums := .internet
  kmImpl := .null

def sampleSa : KmTransportSA Unit :=
  ⟨1, ⟨0x85, 6⟩, ⟨0x85, 6⟩, Vector.replicate 32 0, Vector.replicate 32 0, (), none⟩

def sampleNodeAddr : SubstrateAddr := ⟨.v4 0x0a000001, 5000, 0, 0⟩
def sampleSelfAddr : ScopedIpAddr := ⟨.v4 0x0a000002, 0⟩

def sampleTable : PeerTable Unit where
  peerSlab := (∅ : Table LinkId (PeerState Unit)).insert dockLinkId
    ⟨sampleNodeAddr, sampleSelfAddr, .adapterToNode, ∅, some sampleSa⟩
  saToLink := (∅ : Table (SubstrateAddr × ScopedIpAddr) LinkId).insert (sampleNodeAddr, sampleSelfAddr)
    dockLinkId

def sampleTransit : Bytes := [6, 0, 0, 0, 0, 0, 9, 42] ++ List.replicate 8 57

theorem ingress_authentic_transit :
    substrateIngress sampleCipher sampleTable false sampleNodeAddr sampleSelfAddr sampleTransit =
      .forward dockLinkId 9 [42] ∧
    ∃ plain, Opened sampleCipher sampleSa sampleTransit plain ∧
      GetsThrough dockLinkId plain (.forward dockLinkId 9 [42]) := by
  have hout : substrateIngress sampleCipher sampleTable false sampleNodeAddr sampleSelfAddr sampleTransit =
      .forward dockLinkId 9 [42] := by
    decide +kernel
  have hlink : sampleTable.lookupPeer sampleNodeAddr sampleSelfAddr = dockLinkId := by decide +kernel
  have h := (ingress_authentic sampleCipher sampleTable false sampleNodeAddr sampleSelfAddr
    sampleTransit).2.1 sampleSa (by rw [hlink]; rfl) (by decide) (by decide)
  rw [hout, hlink] at h
  exact ⟨hout, h.1.resolve_left (by simp)⟩

end

end ZprCore.Fastpath
