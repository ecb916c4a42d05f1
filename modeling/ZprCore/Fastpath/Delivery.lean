-- SUMMARY: Packets of an actor arrive at the other end of a tether, one hop later.
import ZprCore.Fastpath.Actor
import ZprCore.Fastpath.RoundTrip

/-!
# End-to-end delivery

The sending adapter takes one from the TTL, computes the check value of the packet and compresses
it; the receiving adapter expands it and compares the check value. For IPv4, the sender leaves the
header checksum as it was and the receiver computes it afresh, so that the two check values are
not those of the same packet.
-/

namespace ZprCore.Fastpath

open ZprCore.Flow Adapter

variable {sums : Checksums} {a2a : A2a} {tc : Ip5TupleTc} {f : FiveTuple} {b : Bytes} {i j : Nat}
  {x : UInt8} {dlt : DockLookupTable} {tether : StreamId} {o : ClassifierOptions}
  {pep : DltPep} {c mac P : Bytes}

/-- A packet with its TTL or hop limit one lower. -/
def hopped (l3Type : L3Type) (b : Bytes) : Bytes :=
  match ttlOffset l3Type with
  | some i => b.set i (byteAt b i - 1)
  | none => b

/-- The packet as it should arrive: one hop later, with the header checksum that belongs to it. -/
def delivered (sums : Checksums) (l3Type : L3Type) (b : Bytes) : Bytes :=
  match l3Type with
  | .ipv4 =>
    let b := hopped .ipv4 b
    withU16 b 10 (sums.ip4sum ((withU16 b 10 0).take ipv4HeaderLen))
  | _ => hopped l3Type b

def headerProtocol (l3Type : L3Type) (b : Bytes) : IpProtocol :=
  match l3Type with
  | .ipv4 => byteAt b 9
  | .ipv6 => byteAt b 6
  | .other _ => 0

/-- An IP header without options. -/
def Plain (f : FiveTuple) (b : Bytes) : Prop :=
  headerProtocol f.l3Type b = f.l4Protocol ∧ (f.l3Type = .ipv4 → byteAt b 0 &&& 0x0F = 5)

/-! ## One hop -/

theorem byteAt_set (h : i ≠ j) : byteAt (b.set i x) j = byteAt b j := by
  rw [byteAt, byteAt, List.getD_eq_getElem?_getD, List.getD_eq_getElem?_getD, List.getElem?_set_ne h]

theorem u16At_set (h : i ≠ j) (h' : i ≠ j + 1) : u16At (b.set i x) j = u16At b j := by
  rw [u16At, byteAt_set h, byteAt_set h', u16At]

theorem newFromV4_set (h : i < j) : IpAddress.newFromV4 (b.set i x) j = .newFromV4 b j := by
  unfold IpAddress.newFromV4
  congr 2
  funext k
  rw [byteAt_set (b := b) (by omega)]

theorem read_set (h : i < j) : IpAddress.read (b.set i x) j = .read b j := by
  unfold IpAddress.read
  congr 2
  funext k
  rw [byteAt_set (by omega)]

theorem decrementTtl_eq (h : ttlOffset f.l3Type = some i) (hlen : ipHeaderLen f.l3Type ≤ b.length)
    (httl : 2 ≤ byteAt b i) : decrementTtl f.l3Type b = some (hopped f.l3Type b, false) := by
  have hpos : 0 < byteAt b i := UInt8.lt_of_lt_of_le (by decide) httl
  have hleft : (byteAt b i - 1 == 0) = false := by
    rw [beq_eq_false_iff_ne, ne_eq, ← UInt8.toNat_inj,
      UInt8.toNat_sub_of_le _ _ (UInt8.le_trans (by decide) httl)]
    have h2 : 2 ≤ (byteAt b i).toNat := UInt8.le_iff_toNat_le.mp httl
    change ¬(byteAt b i).toNat - 1 = 0
    omega
  rw [decrementTtl, hopped, h]
  dsimp only
  rw [if_neg (Nat.not_lt.mpr hlen), if_pos hpos, hleft]

/-- Compression and expansion take a packet one hop. -/
theorem expand_compress (ho : o.ignoreTruncatedPackets = false)
    (hread : ReadsPacket sums o b f) (hplain : Plain f b) (htc : tc.classify5t f = true)
    (hsum : f.l4Protocol = IpNumber.tcp → TcpCanonical sums f (b.drop (ipHeaderLen f.l3Type))) :
    (compress tc.compressionMode f.l3Type f.l4Protocol (hopped f.l3Type b)).bind
      (expand sums tc.compressionMode tc.fiveTuple) = some (delivered sums f.l3Type b) := by
  obtain ⟨hproto, hopts⟩ := hplain
  obtain ⟨hl3, hsrc, hdst, hp, -, -⟩ := Ip5TupleTc.classify5t_iff.mp htc
  obtain @⟨e, p, q, n, k, x, y, hip, hchain, hcarried⟩ := hread
  cases hip with
  | ipv4 hv hn hmin hmax hfits =>
    obtain rfl := hchain.direct hproto
    have hlen := hfits.eq ho
    have hwords : byteAt b 0 &&& 0x0F = 5 := hopts rfl
    have hn : n = ipv4HeaderLen := by
      rw [← hn, hwords]
      rfl
    subst hn
    -- the TTL is none of the fields that are restored from elsewhere
    have hdrop : (hopped .ipv4 b).drop ipv4HeaderLen = b.drop ipv4HeaderLen :=
      List.drop_set_of_lt (by decide)
    have hfirst : byteAt (hopped .ipv4 b) 0 = byteAt b 0 := byteAt_set (by decide)
    have hsame : (hopped .ipv4 b).length = b.length := List.length_set
    have hlength : ipv4Length (hopped .ipv4 b) = ipv4HeaderLen := by
      rw [ipv4Length, hfirst, hwords]
      rfl
    have hs : Survives sums tc ((hopped .ipv4 b).drop ipv4HeaderLen) := by
      rw [hdrop]
      exact survives_of_carried ho htc hcarried hsum
    rw [hp]
    rw [expand_ipv4 hl3.symm]
    change (compressIpv4 _ _ (hopped .ipv4 b)).bind (expandIpv4 _ _ _) = some (delivered sums .ipv4 b)
    rw [tripIpv4_of_survives ?_ ?_ (hsame.symm ▸ hmax) ?_ ?_ ?_ ?_ hs, hlength]
    · rfl
    · rw [getIpVersion, hfirst]
      exact hv
    · rw [hsame, ← hlen]
      exact congrArg _ (u16At_set (by decide) (by decide))
    · rw [← hsrc, hopped, ttlOffset, newFromV4_set (by decide)]
      rfl
    · rw [← hdst, hopped, ttlOffset, newFromV4_set (by decide)]
      rfl
    · rw [← hp, ← hproto]
      exact byteAt_set (by decide)
    · rw [hlength, hsame]
      exact hmax
  | ipv6 hv hmin _ _ _ hfits =>
    obtain rfl := hchain.direct hproto
    have hlen := hfits.eq ho
    have hdrop : (hopped .ipv6 b).drop ipv6HeaderLen = b.drop ipv6HeaderLen :=
      List.drop_set_of_lt (by decide)
    have hsame : (hopped .ipv6 b).length = b.length := List.length_set
    rw [hp]
    rw [expand_ipv6 hl3.symm]
    refine (tripIpv6_iff (b := hopped .ipv6 b) ?_ (hsame.symm ▸ hmin) ?_ ?_).mpr ⟨?_, ?_⟩
    · rw [hsame, ← hlen]
      exact congrArg _ (u16At_set (by decide) (by decide))
    · rw [← hsrc, hopped, ttlOffset, read_set (by decide)]
      rfl
    · rw [← hdst, hopped, ttlOffset, read_set (by decide)]
      rfl
    · rw [← hp, ← hproto]
      exact byteAt_set (by decide)
    · rw [hdrop]
      exact survives_of_carried ho htc hcarried hsum

/-! ## Between adapters -/

theorem actorInput_eq (hpep : dlt.lookup tether = some pep) (hmac : mac.length = A2a.macSize) :
    actorInput sums a2a dlt tether (a2a.header ++ c ++ mac) =
      (expand sums pep.tc.compressionMode pep.tc.fiveTuple c).bind fun expanded =>
        if a2a.micv pep.a2aMicvKey expanded ≠ mac then some (.dropped .micvFailure)
        else some (.queued expanded) := by
  have hheader : a2a.header.length = a2a.saidSize := List.length_replicate
  have hlen : (c ++ mac).length - A2a.macSize = c.length := by
    rw [List.length_append, hmac, Nat.add_sub_cancel]
  rw [List.append_assoc, actorInput, if_neg (by rw [List.length_append, hheader]; omega),
    List.take_left' hheader, if_neg (not_not.mpr rfl), List.drop_left' hheader]
  rw [if_neg (by rw [List.length_append]; omega), hlen, hpep, List.take_left, List.drop_left]
  rfl

theorem actorInput_queued (hpep : dlt.lookup tether = some pep)
    (h : actorInput sums a2a dlt tether b = some (.queued P)) :
    ∃ c, b = a2a.header ++ c ++ a2a.micv pep.a2aMicvKey P ∧
      expand sums pep.tc.compressionMode pep.tc.fiveTuple c = some P := by
  unfold actorInput at h
  split at h
  · cases h
  split at h
  · cases h
  next hsaid =>
  dsimp only at h
  split at h
  · cases h
  rw [hpep] at h
  obtain ⟨expanded, hexpand, h⟩ := Option.bind_eq_some_iff.mp h
  split at h
  · cases h
  next hmac =>
  cases h
  refine ⟨_, ?_, hexpand⟩
  rw [not_not.mp hmac, ← not_not.mp hsaid, List.append_assoc, List.take_append_drop,
    List.take_append_drop]

theorem ttlOffset_of_reads (h : ReadsPacket sums o b f) :
    ∃ i, ttlOffset f.l3Type = some i ∧ ipHeaderLen f.l3Type ≤ b.length ∧
      (f.l3Type = .ipv6 ∨ f.l3Type = .ipv4) := by
  obtain ⟨hip, -, -⟩ := h
  cases hip with
  | ipv4 _ _ hmin hmax => exact ⟨8, rfl, Nat.le_trans hmin hmax, .inr rfl⟩
  | ipv6 _ hmin => exact ⟨7, rfl, hmin, .inl rfl⟩

/-- The check value is put behind the packet, if there is room for it. -/
theorem actorOutput_eq {elt : EndpointLookupTable} {pep : EltPep} {tailroom : Nat}
    (hclass : classify sums b = some (f, .ok .ok)) (hi : ttlOffset f.l3Type = some i)
    (hlen : ipHeaderLen f.l3Type ≤ b.length) (httl : 2 ≤ byteAt b i)
    (helt : elt.table.lookup f = some (.active pep))
    (hcompress : compress pep.compressionMode f.l3Type f.l4Protocol (hopped f.l3Type b) = some c) :
    actorOutput sums a2a elt ⟨b, tailroom⟩ =
      if tailroom < A2a.macSize then none
      else some (.forward pep.tetherId
        ⟨a2a.header ++ c ++ a2a.micv pep.a2aMicvKey (hopped f.l3Type b), tailroom - A2a.macSize⟩) := by
  simp only [actorOutput, hclass, Option.bind_eq_bind, Option.bind_some, decrementTtl_eq hi hlen httl,
    Bool.false_eq_true, if_false, actorOutputPostClassify, helt, hcompress, Packet.put, A2a.length_micv]
  split
  · rfl
  · rw [Option.bind_some, List.append_assoc]

/-- A packet without options that can go another hop arrives at the other adapter, one hop later,
    exactly if there is room behind it for the check value and it is an IPv6 packet, or its check
    value does not depend on the IPv4 header checksum. -/
theorem delivered_end_to_end {elt : EndpointLookupTable} {dlt : DockLookupTable} {tether : StreamId}
    {pep : EltPep} {dltPep : DltPep} {tailroom : Nat} (hclass : classify sums b = some (f, .ok .ok))
    (hplain : Plain f b) (httl : ∀ i ∈ ttlOffset f.l3Type, 2 ≤ byteAt b i)
    (hsum : f.l4Protocol = IpNumber.tcp → TcpCanonical sums f (b.drop (ipHeaderLen f.l3Type)))
    (helt : elt.table.lookup f = some (.active pep)) (hmode : pep.compressionMode = tc.compressionMode)
    (htc : tc.classify5t f = true) (hdlt : dlt.lookup tether = some dltPep) (hdtc : dltPep.tc = tc)
    (hkey : dltPep.a2aMicvKey = pep.a2aMicvKey) :
    (∃ p, actorOutput sums a2a elt ⟨b, tailroom⟩ = some (.forward pep.tetherId p) ∧
      actorInput sums a2a dlt tether p.body = some (.queued (delivered sums f.l3Type b))) ↔
    A2a.macSize ≤ tailroom ∧
      (f.l3Type = .ipv6 ∨ a2a.micv pep.a2aMicvKey (hopped f.l3Type b) =
        a2a.micv pep.a2aMicvKey (delivered sums f.l3Type b)) := by
  have hread := readsPacket_of_classify hclass (.inl rfl)
  obtain ⟨i, hi, hlen, hl3⟩ := ttlOffset_of_reads hread
  obtain ⟨c, hcompress, hexpand⟩ :=
    Option.bind_eq_some_iff.mp (expand_compress rfl hread hplain htc hsum)
  have hout := @actorOutput_eq sums a2a _ _ _ _ _ _ tailroom hclass hi hlen (httl i hi) helt
    (hmode ▸ hcompress)
  -- expansion gives the header a checksum of its own
  have hin : actorInput sums a2a dlt tether
        (a2a.header ++ c ++ a2a.micv pep.a2aMicvKey (hopped f.l3Type b)) =
      if a2a.micv pep.a2aMicvKey (delivered sums f.l3Type b) ≠ a2a.micv pep.a2aMicvKey (hopped f.l3Type b)
      then some (.dropped .micvFailure) else some (.queued (delivered sums f.l3Type b)) := by
    rw [actorInput_eq hdlt (A2a.length_micv ..), hdtc, hexpand, hkey]
    rfl
  constructor
  · rintro ⟨p, hp, hqueued⟩
    rw [hout] at hp
    split at hp
    · cases hp
    next hroom =>
    cases hp
    rw [hin] at hqueued
    split at hqueued
    · cases hqueued
    · next heq => exact ⟨Nat.le_of_not_lt hroom, .inr (not_not.mp heq).symm⟩
  · rintro ⟨hroom, hcond⟩
    refine ⟨_, hout.trans (if_neg (Nat.not_lt.mpr hroom)), ?_⟩
    rw [hin, if_neg (not_not.mpr ?_)]
    rcases hcond with h6 | heq
    · rw [h6]
      rfl
    · exact heq.symm

def sampleA2a : A2a where
  saidSize := 1
  deriveKey key := key
  keyedHash key body := Vector.replicate 32 ((key ++ body).foldl (· + ·) 0)
  hash body := Vector.replicate 32 (body.foldl (· + ·) 0)

def sampleElt (f : FiveTuple) (pep : EltPep) : EndpointLookupTable where
  table := (∅ : Table FiveTuple EltEntry).insert f (.active pep)
  pending := ∅
  paired := by
    intro txn g
    rw [Table.lookup_insert]
    split <;> simp

def sampleTcp6 : Bytes :=
  [0x60, 0, 0, 0, 0, 20, 6, 64, 0xfd, 0, 0, 0, 0, 0, 0, 0, 0, 0, 0, 0, 0, 0, 0, 1,
    0xfd, 0, 0, 0, 0, 0, 0, 0, 0, 0, 0, 0, 0, 0, 0, 2,
    0, 1, 0, 2, 0, 0, 0, 0, 0, 0, 0, 0, 0x50, 2, 0, 0, 0xb5, 0xdb, 0, 0]

def sampleTcp6Tuple : FiveTuple :=
  ⟨.read sampleTcp6 8, .read sampleTcp6 24, .ipv6, IpNumber.tcp, 1, 2⟩

/-- A visa for packets to that port. -/
def sampleTcp6Tc : Ip5TupleTc := ⟨{ sampleTcp6Tuple with srcPort := 0 }⟩

theorem delivered_end_to_end_tcp6 :
    classify .internet sampleTcp6 = some (sampleTcp6Tuple, .ok .ok) ∧
    ∃ p, actorOutput .internet sampleA2a
        (sampleElt sampleTcp6Tuple ⟨sampleTcp6Tc.compressionMode, 7, none, none⟩) ⟨sampleTcp6, 8⟩ =
          some (.forward 7 p) ∧
      actorInput .internet sampleA2a ((∅ : DockLookupTable).insert 9 ⟨sampleTcp6Tc, none, none⟩) 9 p.body =
          some (.queued (delivered .internet .ipv6 sampleTcp6)) := by
  have hclass : classify .internet sampleTcp6 = some (sampleTcp6Tuple, .ok .ok) := by decide +kernel
  have helt : (sampleElt sampleTcp6Tuple ⟨sampleTcp6Tc.compressionMode, 7, none, none⟩).table.lookup
      sampleTcp6Tuple = some (.active ⟨sampleTcp6Tc.compressionMode, 7, none, none⟩) :=
    AList.lookup_insert _
  have hdlt : ((∅ : DockLookupTable).insert 9 ⟨sampleTcp6Tc, none, none⟩).lookup 9 =
      some ⟨sampleTcp6Tc, none, none⟩ :=
    AList.lookup_insert _
  exact ⟨hclass, (delivered_end_to_end hclass ⟨by decide, nofun⟩ (by decide) (fun _ => by decide +kernel)
    helt rfl (by decide +kernel) hdlt rfl rfl).mpr ⟨Nat.le_refl 8, .inl rfl⟩⟩

def sampleUdp4 : Bytes :=
  [0x45, 0, 0, 28, 0, 0, 0, 0, 64, 17, 0x66, 0xcf, 10, 0, 0, 1, 10, 0, 0, 2, 0, 1, 0, 2, 0, 8, 0, 0]

def sampleUdp4Tuple : FiveTuple :=
  ⟨.newFromV4 sampleUdp4 12, .newFromV4 sampleUdp4 16, .ipv4, IpNumber.udp, 1, 2⟩

/-- The packet on the tether: header, compressed packet with a TTL of 63, check value. -/
def sampleUdp4Body : Bytes := [0] ++ [0x50, 0, 0, 0, 63, 0, 0] ++ List.replicate 8 8

/-- An IPv4 packet is sent with the check value of a packet whose header checksum is out of date,
    and dropped where it arrives. -/
theorem ipv4_packet_rejected :
    classify .internet sampleUdp4 = some (sampleUdp4Tuple, .ok .ok) ∧
    Plain sampleUdp4Tuple sampleUdp4 ∧ byteAt sampleUdp4 8 = 64 ∧
    u16At sampleUdp4 10 = Checksums.internet.ip4sum ((withU16 sampleUdp4 10 0).take 20) ∧
    actorOutput .internet sampleA2a (sampleElt sampleUdp4Tuple ⟨⟨true, true⟩, 7, none, none⟩)
      ⟨sampleUdp4, 100⟩ = some (.forward 7 ⟨sampleUdp4Body, 92⟩) ∧
    actorInput .internet sampleA2a
      ((∅ : DockLookupTable).insert 9 ⟨⟨sampleUdp4Tuple⟩, none, none⟩) 9 sampleUdp4Body =
        some (.dropped .micvFailure) :=
  ⟨by decide +kernel, ⟨by decide, fun _ => by decide⟩, by decide, by decide +kernel, by decide +kernel,
    by decide +kernel⟩

end ZprCore.Fastpath
