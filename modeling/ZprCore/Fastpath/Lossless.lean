-- SUMMARY: Which packets come back from compression as they were.
import ZprCore.Flow.Parsing
import ZprCore.Fastpath.Delivery

/-!
# Lossless compression

Compression skips a fixed number of bytes, 20 for IPv4 and 40 for IPv6, and takes what follows for a
transport header of the protocol that the classifier found. For a packet without options that is
where the transport header is, and the packet comes back as it was. Behind a longer IPv4 header
the bytes are options, and behind extension headers the IP header names another protocol, which is
not restored.
-/

namespace ZprCore.Fastpath

open ZprCore.Flow

variable {sums : Checksums} {tc : Ip5TupleTc} {f : FiveTuple} {b : Bytes}
  {res : Except String ClassifierResult}

/-- A packet that is compressed in the mode of a classifier and expanded with its five-tuple. -/
def roundTrip (sums : Checksums) (tc : Ip5TupleTc) (f : FiveTuple) (b : Bytes) : Option Bytes :=
  (compress tc.compressionMode f.l3Type f.l4Protocol b).bind
    (expand sums tc.compressionMode tc.fiveTuple)

/-- The checksum of an IPv4 header is what it is recomputed to be. -/
def Ipv4Canonical (sums : Checksums) (f : FiveTuple) (b : Bytes) : Prop :=
  f.l3Type = .ipv4 → u16At b 10 = sums.ip4sum ((withU16 b 10 0).take (ipv4Length b))

instance : Decidable (Ipv4Canonical sums f b) := inferInstanceAs (Decidable (_ → _))

/-- A packet that is read comes back exactly if its header names the transport protocol and the bytes
    behind the fixed header survive being taken for a header of that protocol. -/
theorem roundTrip_iff {o : ClassifierOptions} (ho : o.ignoreTruncatedPackets = false)
    (hread : ReadsPacket sums o b f) (htc : tc.classify5t f = true) :
    roundTrip sums tc f b = some b ↔ headerProtocol f.l3Type b = f.l4Protocol ∧
      Survives sums tc (b.drop (ipHeaderLen f.l3Type)) ∧ Ipv4Canonical sums f b := by
  obtain ⟨hl3, hsrc, hdst, hp, -, -⟩ := Ip5TupleTc.classify5t_iff.mp htc
  unfold roundTrip
  rw [hp]
  obtain ⟨hip, -, -⟩ := hread
  cases hip with
  | ipv4 hv hn hmin hmax hfits =>
    rw [expand_ipv4 hl3.symm]
    refine (tripIpv4_iff hv (hfits.eq ho) (Nat.le_trans hmin hmax) hsrc.symm hdst.symm
      (hn.trans_le hmax)).trans ?_
    exact and_congr_right fun _ => and_congr_right fun _ => ⟨fun h _ => h, fun h => h rfl⟩
  | ipv6 hv hmin _ _ _ hfits =>
    rw [expand_ipv6 hl3.symm]
    refine (tripIpv6_iff (hfits.eq ho) hmin hsrc.symm hdst.symm).trans ?_
    exact and_congr_right fun _ => ⟨fun h => ⟨h, nofun⟩, fun h => h.1⟩

/-! ## Packets without options -/

/-- An accepted packet without options comes back byte for byte. -/
theorem compression_lossless (hclass : classify sums b = some (f, res)) (hacc : Accepted res)
    (hplain : Plain f b) (hip : Ipv4Canonical sums f b)
    (hsum : f.l4Protocol = IpNumber.tcp → TcpCanonical sums f (b.drop (ipHeaderLen f.l3Type)))
    (htc : tc.classify5t f = true) : roundTrip sums tc f b = some b := by
  have hread := readsPacket_of_classify hclass hacc
  refine (roundTrip_iff rfl hread htc).mpr ⟨hplain.1, ?_, hip⟩
  obtain ⟨hproto, hopts⟩ := hplain
  obtain ⟨hheader, hchain, hcarried⟩ := hread
  cases hheader with
  | ipv4 hv hn =>
    obtain rfl := hchain.direct hproto
    rw [hopts rfl] at hn
    subst hn
    exact survives_of_carried rfl htc hcarried hsum
  | ipv6 hv =>
    obtain rfl := hchain.direct hproto
    exact survives_of_carried rfl htc hcarried hsum

theorem compression_lossless_tcp6 :
    classify .internet sampleTcp6 = some (sampleTcp6Tuple, .ok .ok) ∧
      roundTrip .internet sampleTcp6Tc sampleTcp6Tuple sampleTcp6 = some sampleTcp6 := by
  have hclass : classify .internet sampleTcp6 = some (sampleTcp6Tuple, .ok .ok) := by decide +kernel
  exact ⟨hclass, compression_lossless hclass (.inl rfl) ⟨by decide, nofun⟩ nofun
    (fun _ => by decide +kernel) (by decide +kernel)⟩

/-! ## Options and extension headers -/

/-- Whether an accepted packet comes back, with whatever options and extension headers. It does not
    if there is an extension header. -/
theorem compression_lossless_iff (hclass : classify sums b = some (f, res)) (hacc : Accepted res)
    (hip : Ipv4Canonical sums f b) (htc : tc.classify5t f = true) :
    (roundTrip sums tc f b = some b ↔ headerProtocol f.l3Type b = f.l4Protocol ∧
      Survives sums tc (b.drop (ipHeaderLen f.l3Type))) ∧
    ((optionLength (headerProtocol f.l3Type b) 0).isSome → roundTrip sums tc f b ≠ some b) := by
  have hread := readsPacket_of_classify hclass hacc
  have hiff : roundTrip sums tc f b = some b ↔ _ := roundTrip_iff rfl hread htc
  refine ⟨hiff.trans (and_congr_right fun _ => and_iff_left hip), fun hopt h => ?_⟩
  have hnone : optionLength f.l4Protocol 0 = none := by
    obtain ⟨-, hchain, -⟩ := hread
    exact hchain.last.1 0
  rw [(hiff.mp h).1, hnone] at hopt
  cases hopt

def sampleIcmpOptions : Bytes :=
  [0x46, 0, 0, 28, 0, 0, 0, 0, 64, 1, 0x63, 0xde, 10, 0, 0, 1, 10, 0, 0, 2, 1, 1, 1, 0,
    8, 0, 0xf7, 0xff]

def sampleIcmpTuple : FiveTuple :=
  ⟨.newFromV4 sampleIcmpOptions 12, .newFromV4 sampleIcmpOptions 16, .ipv4, IpNumber.icmp, 8, 0⟩

theorem compression_lossless_icmpOptions :
    classify .internet sampleIcmpOptions = some (sampleIcmpTuple, .ok .ok) ∧
      roundTrip .internet ⟨sampleIcmpTuple⟩ sampleIcmpTuple sampleIcmpOptions =
        some sampleIcmpOptions := by
  have hclass : classify .internet sampleIcmpOptions = some (sampleIcmpTuple, .ok .ok) := by
    decide +kernel
  have htc : Ip5TupleTc.classify5t ⟨sampleIcmpTuple⟩ sampleIcmpTuple = true := by decide +kernel
  have hiff := (compression_lossless_iff hclass (.inl rfl) (by decide +kernel) htc).1
  exact ⟨hclass, hiff.mpr ⟨by decide, fun hp => absurd hp (by decide), fun hp => absurd hp (by decide)⟩⟩

def sampleUdpOptions : Bytes :=
  [0x46, 0, 0, 32, 0, 0, 0, 0, 64, 17, 0x63, 0xca, 10, 0, 0, 1, 10, 0, 0, 2, 1, 1, 1, 0,
    0, 1, 0, 2, 0, 8, 0, 0]

def sampleUdpOptionsTuple : FiveTuple :=
  ⟨.newFromV4 sampleUdpOptions 12, .newFromV4 sampleUdpOptions 16, .ipv4, IpNumber.udp, 1, 2⟩

/-- The packet is accepted, and comes back with its options overwritten by ports and a length. A
    packet with a hop-by-hop header does not come back either. -/
theorem options_corrupted :
    (classify .internet sampleUdpOptions = some (sampleUdpOptionsTuple, .ok .ok) ∧
      Ipv4Canonical .internet sampleUdpOptionsTuple sampleUdpOptions ∧
      Ip5TupleTc.classify5t ⟨sampleUdpOptionsTuple⟩ sampleUdpOptionsTuple = true ∧
      sampleUdpOptions.drop 20 = [1, 1, 1, 0, 0, 1, 0, 2, 0, 8, 0, 0] ∧
      (roundTrip .internet ⟨sampleUdpOptionsTuple⟩ sampleUdpOptionsTuple sampleUdpOptions).map
        (·.drop 20) = some [0, 1, 0, 2, 0, 12, 0, 2, 0, 8, 0, 0]) ∧
    classify .internet sampleHopopt = some (sampleHopoptTuple, .ok .ok) ∧
      Ip5TupleTc.classify5t ⟨sampleHopoptTuple⟩ sampleHopoptTuple = true ∧
      roundTrip .internet ⟨sampleHopoptTuple⟩ sampleHopoptTuple sampleHopopt ≠ some sampleHopopt := by
  decide +kernel

end ZprCore.Fastpath
