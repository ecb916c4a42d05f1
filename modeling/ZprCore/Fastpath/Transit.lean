-- SUMMARY: A received transit packet on its way to the next hop or to the actor.
import ZprCore.Fastpath.Enforcement
import ZprCore.Fastpath.Ingress

/-!
# Transit packets

The way of a transit packet through `substrate_ingress`, `forward`, and either `actor_input` or
`substrate_egress`. `none` stands for a panic, which aborts the process. Arithmetic is that of a
release build. The tailroom of the packet's buffer is followed as far as it decides whether the
check value of the next link still fits; the headroom a packet is received with is more than all
headers take. Capturing of packets is left out.
-/

namespace ZprCore.Fastpath

open ZprCore.Flow Adapter CompressedIPv4Header
open Dock (PftPep localActorLinkId dockLinkId)

/-! ## Substrate egress -/

variable {Codec : Type} {sums : Checksums}

section

variable (cipher : Cipher Codec)

/-- `encrypt_null`. The bytes of the checksum are swapped for a body of odd length. -/
def encryptNull (p : Packet) : Option Packet :=
  let csum := putU16 (cipher.sums.ip4sum (p.body.drop 1))
  p.put (if (p.body.length - 1) % 2 ≠ 0 then csum.reverse else csum)

def encryptHmac (sendHmacKey : Vector UInt8 32) (p : Packet) : Option Packet :=
  p.put (linkMac cipher sendHmacKey p.body)

inductive Egress where
  | peerRemoved
  | queued (dst : SubstrateAddr) (src : ScopedIpAddr) (body : Bytes)
deriving DecidableEq

def SubstrateAddr.setFlowinfo (sa : SubstrateAddr) (flowinfo : UInt32) : SubstrateAddr :=
  match sa.ip with
  | .v4 _ => sa
  | .v6 _ => { sa with flowinfo }

/-- The ZPI and the check value of a transit packet. -/
def encryptTransit (sa : Option (KmTransportSA Codec)) (p : Packet) : Option Packet :=
  match sa with
  | none => encryptNull cipher { p with body := zpi0 :: p.body }
  | some sa =>
    let zpi := sa.sendZpis.hmac
    if zpi = zpi0 then none
    else encryptHmac cipher sa.sendHmacKey { p with body := zpi :: p.body }

def substrateEgress (t : PeerTable Codec) (link : LinkId) (flowhash : StreamId)
    (p : Packet) : Option Egress :=
  match t.get link with
  | none => some .peerRemoved
  | some peer => do
    let p ← encryptTransit cipher peer.transportSa p
    let dst := peer.substrateAddr.setFlowinfo (UInt32.ofNat flowhash)
    if isUnspecified dst.ip ∨ isUnspecified peer.interfaceAddr.ip then none
    else some (.queued dst peer.interfaceAddr p.body)

/-! ## The way of a packet -/

/-- The headers that `forward` puts in front of a packet. -/
def transitHeaders (stream : StreamId) : Bytes :=
  [ZdpPacketType.transitPacket, 0] ++ putU16 (UInt16.ofNat (stream / 65536)) ++
    putU16 (UInt16.ofNat stream)

inductive Transit where
  | dropped (reason : DropReason)
  | substrate (egress : Egress)
  | actor (input : ActorInput)
deriving DecidableEq

/-- `forward`, to the end -/
def forwardPacket (a2a : A2a) (mode : PhMode) (t : PeerTable Codec) (dlt : DockLookupTable)
    (link : LinkId) (stream : StreamId) (p : Packet) : Option Transit :=
  match forward t mode link stream with
  | .error reason => some (.dropped reason)
  | .ok (egressLink, egressStream) =>
    if egressLink = localActorLinkId then
      (actorInput cipher.sums a2a dlt egressStream p.body).map .actor
    else
      (substrateEgress cipher t egressLink stream
        { p with body := transitHeaders egressStream ++ p.body }).map .substrate

/-- The tailroom after `decrypt`. The plaintext is written behind the ciphertext if there is room
    for it there, and over the ciphertext otherwise. -/
def decryptTailroom (t : PeerTable Codec) (link : LinkId) (pkt : Bytes) (tailroom : Nat) :
    Nat :=
  match t.getEstablishedTransportAssociation link with
  | none => tailroom + 2
  | some sa =>
    if pkt.head? = some sa.recvZpis.hmac then tailroom + zdpPacketMacSize
    else
      match cipher.decryptTransport sa.codec (pkt.drop 1) with
      | none => tailroom
      | some plain =>
        if pkt.length - 1 ≤ tailroom then tailroom - plain.length
        else tailroom + (pkt.length - 1) - plain.length

inductive Received where
  | dropped (reason : DropReason)
  | dispatched
  | transit (transit : Transit)
deriving DecidableEq

/-- `substrate_ingress`, to the end, of a packet in a buffer with some tailroom -/
def receivePacket (a2a : A2a) (mode : PhMode) (t : PeerTable Codec) (dlt : DockLookupTable)
    (full : Bool) (peerSa : SubstrateAddr) (interfaceAddr : ScopedIpAddr) (p : Packet) :
    Option Received :=
  match substrateIngress cipher t full peerSa interfaceAddr p.body with
  | .dropped reason => some (.dropped reason)
  | .dispatchedWithAddr _ | .dispatchedWithLink _ _ => some .dispatched
  | .forward link stream body =>
    (forwardPacket cipher a2a mode t dlt link stream
      ⟨body, decryptTailroom cipher t link p.body p.tailroom⟩).map .transit

end

/-! ## What expansion needs -/

/-- What a compressed transport header takes at least. -/
def l4Len (mode : CompressionMode) (protocol : IpProtocol) : Nat :=
  if protocol = IpNumber.tcp then portsLen mode + 14
  else if protocol = IpNumber.udp then portsLen mode
  else 0

/-- The length of a transport header and what follows it, after expansion. -/
def expandedLen (mode : CompressionMode) (protocol : IpProtocol) (len : Nat) : Nat :=
  if setsPorts protocol then len - portsLen mode + 6 else len

/-- A compressed packet is long enough for all that its expansion reads; for IPv4 that is also
    the header length that the packet states. -/
def longEnough (mode : CompressionMode) (ft : FiveTuple) (c : Bytes) : Bool :=
  match ft.l3Type with
  | .ipv4 =>
    ipv4Len c + l4Len mode ft.l4Protocol ≤ c.length &&
      (byteAt c 0 >>> 4).toNat * 4 ≤
        ipv4HeaderLen + expandedLen mode ft.l4Protocol (c.length - ipv4Len c)
  | .ipv6 => 5 + l4Len mode ft.l4Protocol ≤ c.length
  | .other _ => true

section

variable {mode : CompressionMode} {ft : FiveTuple} {b c : Bytes}

theorem isSome_bind_of_const {α β : Type} {x : Option α} {f : α → Option β} {c : Bool}
    (h : ∀ a, (f a).isSome = c) : (x.bind f).isSome = (x.isSome && c) := by
  cases x with
  | none => rfl
  | some a => exact h a

theorem expandL4_cases :
    (l4Len mode ft.l4Protocol ≤ b.length ∧ ∃ l4, expandL4 sums mode ft b = some l4 ∧
      l4.length = expandedLen mode ft.l4Protocol b.length) ∨
    (b.length < l4Len mode ft.l4Protocol ∧ expandL4 sums mode ft b = none) := by
  unfold l4Len expandL4 expandedLen
  by_cases htcp : ft.l4Protocol = IpNumber.tcp
  · rw [if_pos htcp, if_pos htcp, if_pos (by simp [setsPorts, htcp]), expandTcp]
    rcases takePorts_takes mode ft b with ⟨hle, ⟨src, dst, _⟩, hports, rfl⟩ | ⟨hlt, hnone⟩
    · rw [hports]
      by_cases hlen : portsLen mode + 14 ≤ b.length
      · refine .inl ⟨hlen, _, if_neg ?_, ?_⟩
        · simp only [List.length_drop, tcpHeaderLen]
          omega
        · simp only [List.length_append, length_putU16, List.length_take, List.length_drop]
          omega
      · refine .inr ⟨by omega, if_pos ?_⟩
        simp only [List.length_drop, tcpHeaderLen]
        omega
    · rw [hnone]
      exact .inr ⟨by omega, rfl⟩
  by_cases hudp : ft.l4Protocol = IpNumber.udp
  · rw [if_neg htcp, if_pos hudp, if_neg htcp, if_pos hudp, if_pos (by simp [setsPorts, hudp]), expandUdp]
    rcases takePorts_takes mode ft b with ⟨hle, ⟨src, dst, _⟩, hports, rfl⟩ | ⟨hlt, hnone⟩
    · rw [hports]
      refine .inl ⟨hle, _, rfl, ?_⟩
      simp only [List.length_append, length_putU16, List.length_drop]
      omega
    · rw [hnone]
      exact .inr ⟨hlt, rfl⟩
  · rw [if_neg htcp, if_neg hudp, if_neg htcp, if_neg hudp, if_neg (by simp [setsPorts, htcp, hudp])]
    exact .inl ⟨Nat.zero_le _, b, rfl, rfl⟩

theorem expandIpv4_isSome_iff : (expandIpv4 sums mode ft c).isSome = true ↔
    ipv4Len c + l4Len mode ft.l4Protocol ≤ c.length ∧
      (byteAt c 0 >>> 4).toNat * 4 ≤
        ipv4HeaderLen + expandedLen mode ft.l4Protocol (c.length - ipv4Len c) := by
  unfold expandIpv4
  rcases read_takes c with ⟨hle, ⟨hd, _⟩, hread, rfl⟩ | ⟨hlt, hnone⟩
  · have hhl := hl_of_read hread
    have hrest : (c.drop (ipv4Len c)).length = c.length - ipv4Len c := List.length_drop
    rw [hread]
    rcases @expandL4_cases sums mode ft (c.drop (ipv4Len c)) with ⟨hl4, l4, hexp, hl4len⟩ | ⟨hl4, hnone⟩
    · simp only [Option.bind_eq_bind, Option.bind_some, hexp, List.length_append, length_ipv4Header,
        hl4len, hhl, hrest] at hl4 ⊢
      split
      · simp only [Option.isSome_none, Bool.false_eq_true, false_iff, not_and]
        omega
      · simp only [Option.isSome_some, true_iff]
        omega
    · simp only [Option.bind_eq_bind, Option.bind_some, hnone, Option.bind_none, Option.isSome_none,
        Bool.false_eq_true, false_iff, not_and]
      omega
  · simp only [hnone, Option.bind_eq_bind, Option.bind_none, Option.isSome_none, Bool.false_eq_true,
      false_iff, not_and]
    omega

theorem expandIpv6_isSome_iff : (expandIpv6 sums mode ft c).isSome = true ↔
    5 + l4Len mode ft.l4Protocol ≤ c.length := by
  unfold expandIpv6
  rcases CompressedIPv6Header.read_takes c with ⟨hle, ⟨hd, _⟩, hread, rfl⟩ | ⟨hlt, hnone⟩
  · have hrest : (c.drop 5).length = c.length - 5 := List.length_drop
    rw [hread]
    rcases @expandL4_cases sums mode ft (c.drop 5) with ⟨hl4, l4, hexp, -⟩ | ⟨hl4, hnone⟩
    · simp only [Option.bind_eq_bind, Option.bind_some, hexp, Option.isSome_some, true_iff]
      omega
    · simp only [Option.bind_eq_bind, Option.bind_some, hnone, Option.bind_none, Option.isSome_none,
        Bool.false_eq_true, false_iff]
      omega
  · simp only [hnone, Option.bind_eq_bind, Option.bind_none, Option.isSome_none, Bool.false_eq_true,
      false_iff]
    omega

theorem expand_isSome_iff : (expand sums mode ft c).isSome = true ↔ longEnough mode ft c = true := by
  cases hl3 : ft.l3Type with
  | ipv4 =>
    simp only [expand, longEnough, hl3, expandIpv4_isSome_iff, Bool.and_eq_true, decide_eq_true_eq]
  | ipv6 => simp only [expand, longEnough, hl3, expandIpv6_isSome_iff, decide_eq_true_eq]
  | other code => simp only [expand, longEnough, hl3, Option.isSome_some]

end

/-! ## Harmless packets -/

/-- A packet to the actor is too short to be looked at, or has the only security association there
    is and is too short or of no tether or long enough for its tether. -/
def deliverable (a2a : A2a) (dlt : DockLookupTable) (tether : StreamId) (b : Bytes) : Bool :=
  b.length < a2a.saidSize ||
    (b.take a2a.saidSize = a2a.header &&
      (b.length < a2a.saidSize + A2a.macSize ||
        (dlt.lookup tether).all fun pep =>
          longEnough pep.tc.compressionMode pep.tc.fiveTuple (compressedPart a2a b)))

section

/-- A link that is gone, or that has addresses, a ZPI to send under other than 0, and room for the
    check value it uses. -/
def sendable (t : PeerTable Codec) (link : LinkId) (tailroom : Nat) : Bool :=
  (t.get link).all fun peer =>
    !isUnspecified peer.substrateAddr.ip && !isUnspecified peer.interfaceAddr.ip &&
      match peer.transportSa with
      | none => 2 ≤ tailroom
      | some sa => sa.sendZpis.hmac ≠ zpi0 && zdpPacketMacSize ≤ tailroom

/-- The packet is dropped by `forward`, or its next hop can deal with it. -/
def harmless (a2a : A2a) (mode : PhMode) (t : PeerTable Codec) (dlt : DockLookupTable)
    (link : LinkId) (stream : StreamId) (p : Packet) : Bool :=
  match forward t mode link stream with
  | .error _ => true
  | .ok (egressLink, egressStream) =>
    if egressLink = localActorLinkId then deliverable a2a dlt egressStream p.body
    else sendable t egressLink p.tailroom

variable {cipher : Cipher Codec} {a2a : A2a} {mode : PhMode} {t : PeerTable Codec}
  {dlt : DockLookupTable} {link : LinkId} {stream : StreamId} {p : Packet} {b : Bytes}

theorem actorInput_isSome_iff : (actorInput sums a2a dlt stream b).isSome = true ↔
    deliverable a2a dlt stream b = true := by
  unfold actorInput deliverable
  by_cases hshort : b.length < a2a.saidSize
  · simp [hshort]
  by_cases hsaid : b.take a2a.saidSize = a2a.header
  swap
  · simp [hshort, hsaid]
  have hdrop : (b.drop a2a.saidSize).length < A2a.macSize ↔ b.length < a2a.saidSize + A2a.macSize := by
    rw [List.length_drop]
    omega
  by_cases hmac : b.length < a2a.saidSize + A2a.macSize
  · simp only [hshort, hsaid, hmac, hdrop, ne_eq, not_true_eq_false, if_false, if_true, decide_true,
      Bool.true_or, Bool.and_true, Bool.or_true, Option.isSome_some]
  simp only [hshort, hsaid, hmac, hdrop, ne_eq, not_true_eq_false, if_false, decide_false,
    decide_true, Bool.false_or, Bool.true_and]
  cases hpep : dlt.lookup stream with
  | none => simp
  | some pep =>
    rw [Option.all_some, ← @expand_isSome_iff sums, compressedPart]
    -- a packet that expands is queued or dropped
    dsimp only [Option.bind_eq_bind]
    rw [isSome_bind_of_const (c := true), Bool.and_true]
    intro P
    split <;> rfl

theorem put_isSome_iff : (p.put b).isSome = true ↔ b.length ≤ p.tailroom := by
  unfold Packet.put
  split <;> simp <;> omega

theorem length_linkMac (key : Vector UInt8 32) (b : Bytes) :
    (linkMac cipher key b).length = zdpPacketMacSize := by
  simp [linkMac, zdpPacketMacSize]

theorem encryptTransit_isSome_iff {sa : Option (KmTransportSA Codec)} :
    (encryptTransit cipher sa p).isSome = true ↔
      match sa with
      | none => 2 ≤ p.tailroom
      | some sa => sa.sendZpis.hmac ≠ zpi0 ∧ zdpPacketMacSize ≤ p.tailroom := by
  cases sa with
  | none =>
    rw [encryptTransit, encryptNull, put_isSome_iff]
    split <;> simp
  | some sa =>
    unfold encryptTransit
    dsimp only
    split
    · next hzpi => simp [hzpi]
    · next hzpi =>
      rw [encryptHmac, put_isSome_iff, length_linkMac]
      exact ⟨fun h => ⟨hzpi, h⟩, fun h => h.2⟩

theorem substrateEgress_isSome_iff : (substrateEgress cipher t link stream p).isSome = true ↔
    sendable t link p.tailroom = true := by
  unfold substrateEgress sendable
  cases hpeer : t.get link with
  | none => simp
  | some peer =>
    have hflow : isUnspecified (peer.substrateAddr.setFlowinfo (UInt32.ofNat stream)).ip =
        isUnspecified peer.substrateAddr.ip := by
      unfold SubstrateAddr.setFlowinfo
      split <;> rfl
    have hencr := @encryptTransit_isSome_iff _ cipher p peer.transportSa
    dsimp only [Option.bind_eq_bind]
    rw [isSome_bind_of_const (c := !isUnspecified peer.substrateAddr.ip &&
      !isUnspecified peer.interfaceAddr.ip), Option.all_some, Bool.and_comm]
    · simp only [Bool.and_eq_true, hencr]
      refine and_congr_right fun _ => ?_
      split <;> simp
    · intro p'
      rw [hflow]
      cases isUnspecified peer.substrateAddr.ip <;> cases isUnspecified peer.interfaceAddr.ip <;> rfl

theorem forwardPacket_isSome_iff :
    (forwardPacket cipher a2a mode t dlt link stream p).isSome = true ↔
      harmless a2a mode t dlt link stream p = true := by
  unfold forwardPacket harmless
  split
  · exact iff_of_true rfl rfl
  split
  · rw [Option.isSome_map, actorInput_isSome_iff]
  · rw [Option.isSome_map, substrateEgress_isSome_iff]

/-- A transit packet that was let in on a link is dealt with without a panic if, and only if, it is
    harmless. -/
theorem transit_handled_iff (a2a : A2a) (mode : PhMode) (dlt : DockLookupTable) {full : Bool}
    {peerSa : SubstrateAddr} {interfaceAddr : ScopedIpAddr}
    (hin : substrateIngress cipher t full peerSa interfaceAddr p.body = .forward link stream b) :
    (receivePacket cipher a2a mode t dlt full peerSa interfaceAddr p).isSome = true ↔
      harmless a2a mode t dlt link stream ⟨b, decryptTailroom cipher t link p.body p.tailroom⟩ = true := by
  rw [receivePacket, hin, Option.isSome_map, forwardPacket_isSome_iff]

end

def sampleFromDock (body : Bytes) : Packet :=
  let pkt := [6, 0, 0, 0, 0, 0, 9] ++ body
  ⟨pkt ++ linkMac sampleCipher (Vector.replicate 32 0) pkt, 100⟩

theorem transit_handled_udp4 :
    (receivePacket sampleCipher sampleA2a .adapter sampleTable sampleDlt false sampleNodeAddr
      sampleSelfAddr (sampleFromDock (sampleBody [0x50, 0, 0, 0, 64, 0, 0] sampleUdp4))).isSome = true := by
  have hin : substrateIngress sampleCipher sampleTable false sampleNodeAddr sampleSelfAddr
      (sampleFromDock (sampleBody [0x50, 0, 0, 0, 64, 0, 0] sampleUdp4)).body =
        .forward dockLinkId 9 (sampleBody [0x50, 0, 0, 0, 64, 0, 0] sampleUdp4) := by
    decide +kernel
  exact (transit_handled_iff sampleA2a .adapter sampleDlt hin).mpr (by decide +kernel)

/-- The dock gets a packet through that aborts the adapter. -/
abbrev sampleAborts (body : Bytes) : Prop :=
  substrateIngress sampleCipher sampleTable false sampleNodeAddr sampleSelfAddr
    (sampleFromDock body).body = .forward dockLinkId 9 body ∧
  receivePacket sampleCipher sampleA2a .adapter sampleTable sampleDlt false sampleNodeAddr
    sampleSelfAddr (sampleFromDock body) = none

/-- A packet that ends before its compressed header does, one with a header length beyond its end,
    and one under another security association of adapters. -/
theorem transit_packets_abort :
    sampleAborts (sampleBody [] []) ∧ sampleAborts (sampleBody [0xf0, 0, 0, 0, 64, 0, 0] []) ∧
      sampleAborts (1 :: List.replicate 8 0) := by
  decide +kernel

end ZprCore.Fastpath
