-- SUMMARY: Expanding a compressed packet restores it, up to the checksum of the IPv4 header.
import ZprCore.Flow.Headers
import ZprCore.Fastpath.Compress

/-!
# Round trips

What is left out of a packet with the mode of a classifier is put back from that classifier, if
the packet is one of its packets. The IPv4 header checksum is always computed afresh, as is the
TCP checksum.
-/

namespace ZprCore.Fastpath

open ZprCore.Flow

variable {sums : Checksums} {tc : Ip5TupleTc} {f : FiveTuple} {b : Bytes}
  {mode : CompressionMode} {h : CompressedIPv4Header} {src dst : IpAddress}
  {ofTc port x y totalLength csum payloadLength : UInt16} {i j : Nat} {r r' rest c : Bytes} {p q : IpProtocol}

/-! ## Ports -/

/-- The ports in front of a packet are those of the classifier, where it has any. -/
def KeepsPorts (tc : Ip5TupleTc) (b : Bytes) : Prop :=
  (tc.fiveTuple.srcPort ≠ 0 → u16At b 0 = tc.fiveTuple.srcPort) ∧
    (tc.fiveTuple.dstPort ≠ 0 → u16At b 2 = tc.fiveTuple.dstPort)

instance : Decidable (KeepsPorts tc b) := inferInstanceAs (Decidable (_ ∧ _))

/-- The port that is put back: that of the classifier, or else that of the packet. -/
def restoredPort (ofTc port : UInt16) : UInt16 := if ofTc = 0 then port else ofTc

theorem restoredPort_eq_iff :
    restoredPort ofTc port = port ↔ (ofTc ≠ 0 → port = ofTc) := by
  unfold restoredPort
  split
  · next h => exact iff_of_true rfl fun hne => absurd h hne
  · next h => exact ⟨fun heq _ => heq.symm, fun heq => (heq h).symm⟩

theorem takePorts_pushPorts (srcPort dstPort : UInt16) (b : Bytes) :
    takePorts tc.compressionMode tc.fiveTuple (pushPorts tc.compressionMode srcPort dstPort b) =
      some (restoredPort tc.fiveTuple.srcPort srcPort, restoredPort tc.fiveTuple.dstPort dstPort, b) := by
  by_cases hs : tc.fiveTuple.srcPort = 0 <;> by_cases hd : tc.fiveTuple.dstPort = 0 <;>
    simp [takePorts, pushPorts, Ip5TupleTc.compressionMode, restoredPort, hs, hd]

theorem u16At_drop : u16At (b.drop i) j = u16At b (i + j) := by
  simp [u16At, byteAt, List.getD_eq_getElem?_getD, Nat.add_assoc]

theorem putU16_append_inj :
    putU16 x ++ r = putU16 y ++ r' ↔ x = y ∧ r = r' := by
  constructor
  · intro h
    have hget := congrArg getU16 h
    simp only [getU16_putU16, Option.some.injEq, Prod.mk.injEq] at hget
    exact hget
  · rintro ⟨rfl, rfl⟩
    rfl

theorem ports_append_drop (h : 4 ≤ b.length) :
    putU16 (u16At b 0) ++ (putU16 (u16At b 2) ++ b.drop 4) = b := by
  rw [putU16_u16At (by omega), putU16_u16At (by omega), List.drop_zero]

theorem restored_eq_iff (h : 4 ≤ b.length) :
    putU16 (restoredPort tc.fiveTuple.srcPort (u16At b 0)) ++
      (putU16 (restoredPort tc.fiveTuple.dstPort (u16At b 2)) ++ rest) = b ↔
    KeepsPorts tc b ∧ rest = b.drop 4 := by
  conv_lhs => rhs; rw [← ports_append_drop h]
  rw [putU16_append_inj, putU16_append_inj, restoredPort_eq_iff, restoredPort_eq_iff, ← and_assoc]
  rfl

theorem getU16_ports (h : 4 ≤ b.length) :
    getU16 b = some (u16At b 0, b.drop 2) ∧ getU16 (b.drop 2) = some (u16At b 2, b.drop 4) := by
  match b, h with
  | b0 :: b1 :: b2 :: b3 :: rest, _ => exact ⟨rfl, rfl⟩

/-! ## Transport headers -/

/-- The TCP checksum is what it is recomputed to be. -/
def TcpCanonical (sums : Checksums) (f : FiveTuple) (b : Bytes) : Prop :=
  u16At b 16 = sums.inetL4 f.l3Type f.srcAddress f.dstAddress IpNumber.tcp (withU16 b 16 0)

instance : Decidable (TcpCanonical sums f b) := inferInstanceAs (Decidable (_ = _))

theorem withU16_tcp (h : tcpHeaderLen ≤ b.length) (csum : UInt16) :
    putU16 (u16At b 0) ++ (putU16 (u16At b 2) ++
      ((b.drop 4).take tcpChecksumOffset ++ putU16 csum ++ (b.drop 4).drop (tcpChecksumOffset + 2))) =
    withU16 b 16 csum := by
  have htake : b.take 16 =
      putU16 (u16At b 0) ++ (putU16 (u16At b 2) ++ (b.drop 4).take tcpChecksumOffset) := by
    conv_lhs => rw [← ports_append_drop (Nat.le_trans (by decide) h)]
    rfl
  rw [withU16, htake, List.drop_drop]
  rfl

theorem compressTcp_eq (h : tcpHeaderLen ≤ b.length) :
    compressTcp mode b = some (pushPorts mode (u16At b 0) (u16At b 2)
      ((b.drop 4).take tcpChecksumOffset ++ (b.drop 4).drop (tcpChecksumOffset + 2))) := by
  have hlen : 20 ≤ b.length := h
  obtain ⟨hsrc, hdst⟩ := getU16_ports (b := b) (by omega)
  have hmin : ¬(b.drop 4).length < tcpChecksumOffset + 2 := by
    rw [List.length_drop, tcpChecksumOffset]
    omega
  rw [compressTcp, hsrc, Option.bind_eq_bind, Option.bind_some]
  dsimp only
  rw [hdst, Option.bind_some]
  rw [if_neg hmin]

theorem length_expandTcp (h : expandTcp sums mode f c = some b) :
    tcpHeaderLen ≤ b.length := by
  obtain ⟨⟨srcPort, dstPort, rest⟩, -, h⟩ := Option.bind_eq_some_iff.mp h
  dsimp only at h
  split at h
  · cases h
  · cases h
    simp only [List.length_append, length_putU16, List.length_take, List.length_drop]
    omega

theorem expandTcp_compressTcp_iff :
    (compressTcp tc.compressionMode b).bind (expandTcp sums tc.compressionMode tc.fiveTuple) = some b ↔
      tcpHeaderLen ≤ b.length ∧ KeepsPorts tc b ∧ TcpCanonical sums tc.fiveTuple b := by
  by_cases hlen : tcpHeaderLen ≤ b.length
  swap
  · refine iff_of_false (fun h => hlen ?_) fun h => hlen h.1
    obtain ⟨c, -, h⟩ := Option.bind_eq_some_iff.mp h
    exact length_expandTcp h
  have hlen' : 20 ≤ b.length := hlen
  have htake : ((b.drop 4).take tcpChecksumOffset).length = tcpChecksumOffset := by
    rw [List.length_take, List.length_drop, tcpChecksumOffset]
    omega
  rw [compressTcp_eq hlen, Option.bind_some, expandTcp, takePorts_pushPorts, Option.bind_eq_bind,
    Option.bind_some]
  dsimp only
  rw [if_neg (by simp [tcpChecksumOffset, tcpHeaderLen]; omega), Option.some.injEq,
    List.take_left' htake, List.drop_left' htake, List.append_assoc, restored_eq_iff (by omega),
    and_iff_right hlen]
  refine and_congr_right fun hports => ?_
  -- with the ports in place, the checksum is computed over the packet without it
  have hsrc := restoredPort_eq_iff.mpr hports.1
  have hdst := restoredPort_eq_iff.mpr hports.2
  rw [hsrc, hdst, List.append_assoc (putU16 _) (putU16 _), withU16_tcp hlen, TcpCanonical, eq_comm]
  have hrest : (b.drop 4).take tcpChecksumOffset ++ putU16 (u16At b 16) ++
      (b.drop 4).drop (tcpChecksumOffset + 2) = b.drop 4 := by
    have hword : u16At (b.drop 4) tcpChecksumOffset = u16At b 16 := u16At_drop
    rw [← hword]
    exact withU16_u16At (by rw [List.length_drop, tcpChecksumOffset]; omega)
  conv_lhs => lhs; rw [← hrest]
  rw [List.append_assoc, List.append_assoc, List.append_cancel_left_eq, putU16_append_inj,
    and_iff_left rfl]

theorem compressUdp_eq (h : 6 ≤ b.length) :
    compressUdp mode b = some (pushPorts mode (u16At b 0) (u16At b 2) (b.drop 6)) := by
  obtain ⟨hsrc, hdst⟩ := getU16_ports (b := b) (by omega)
  have hmin : ¬(b.drop 4).length < 2 := by
    rw [List.length_drop]
    omega
  rw [compressUdp, hsrc, Option.bind_eq_bind, Option.bind_some]
  dsimp only
  rw [hdst, Option.bind_some]
  rw [if_neg hmin, List.drop_drop]

theorem expandUdp_compressUdp_iff :
    (compressUdp tc.compressionMode b).bind (expandUdp tc.compressionMode tc.fiveTuple) = some b ↔
      6 ≤ b.length ∧ KeepsPorts tc b ∧ u16At b 4 = UInt16.ofNat b.length := by
  by_cases hlen : 6 ≤ b.length
  swap
  · refine iff_of_false (fun h => hlen ?_) fun h => hlen h.1
    obtain ⟨c, -, h⟩ := Option.bind_eq_some_iff.mp h
    obtain ⟨⟨srcPort, dstPort, rest⟩, -, h⟩ := Option.bind_eq_some_iff.mp h
    cases h
    simp only [List.length_append, length_putU16]
    omega
  have hword : (b.drop 6).length + udpHeaderLen - 2 = b.length := by
    rw [List.length_drop, udpHeaderLen]
    omega
  have hrest : putU16 (u16At b 4) ++ b.drop 6 = b.drop 4 := putU16_u16At (by omega)
  rw [compressUdp_eq hlen, Option.bind_some, expandUdp, takePorts_pushPorts, Option.bind_eq_bind,
    Option.bind_some]
  rw [Option.some.injEq, hword, List.append_assoc, List.append_assoc, restored_eq_iff (by omega),
    ← hrest, putU16_append_inj, and_iff_left rfl, and_iff_right hlen, eq_comm (a := u16At b 4)]

/-- What is behind the fixed IP header comes back as it was when it is taken for a transport header
    of the protocol of the classifier. -/
structure Survives (sums : Checksums) (tc : Ip5TupleTc) (b : Bytes) : Prop where
  tcp : tc.fiveTuple.l4Protocol = IpNumber.tcp →
    tcpHeaderLen ≤ b.length ∧ KeepsPorts tc b ∧ TcpCanonical sums tc.fiveTuple b
  udp : tc.fiveTuple.l4Protocol = IpNumber.udp →
    6 ≤ b.length ∧ KeepsPorts tc b ∧ u16At b 4 = UInt16.ofNat b.length

theorem expandL4_compressL4_iff :
    (compressL4 tc.compressionMode tc.fiveTuple.l4Protocol b).bind
      (expandL4 sums tc.compressionMode tc.fiveTuple) = some b ↔ Survives sums tc b := by
  unfold compressL4 expandL4
  by_cases htcp : tc.fiveTuple.l4Protocol = IpNumber.tcp
  · have hudp : tc.fiveTuple.l4Protocol ≠ IpNumber.udp := by rw [htcp]; decide
    simp only [if_pos htcp]
    exact expandTcp_compressTcp_iff.trans
      ⟨fun h => ⟨fun _ => h, fun hp => absurd hp hudp⟩, fun h => h.tcp htcp⟩
  by_cases hudp : tc.fiveTuple.l4Protocol = IpNumber.udp
  · simp only [if_neg htcp, if_pos hudp]
    exact expandUdp_compressUdp_iff.trans
      ⟨fun h => ⟨fun hp => absurd hp htcp, fun _ => h⟩, fun h => h.udp hudp⟩
  · simp only [if_neg htcp, if_neg hudp]
    exact iff_of_true rfl ⟨fun hp => absurd hp htcp, fun hp => absurd hp hudp⟩

/-! ## IPv4 -/

theorem hlZdpflags_fields {hl flags : UInt8} (hhl : hl < 16) (hflags : flags < 8) (present : Bool) :
    let x := (hl <<< 4) ||| (if present then zdpV4FragInfoPresent else 0) ||| flags
    x >>> 4 = hl ∧ (x &&& zdpV4FragInfoPresent ≠ 0 ↔ present = true) ∧ x &&& (0x07 : UInt8) = flags := by
  have hall : ∀ (hl : Fin 16) (flags : Fin 8) (present : Bool),
      let x := (UInt8.ofNat hl <<< 4) ||| (if present then zdpV4FragInfoPresent else 0) ||| UInt8.ofNat flags
      x >>> 4 = UInt8.ofNat hl ∧ (x &&& zdpV4FragInfoPresent ≠ 0 ↔ present = true) ∧
        x &&& (0x07 : UInt8) = UInt8.ofNat flags := by
    decide +kernel
  have h := hall ⟨hl.toNat, UInt8.lt_iff_toNat_lt.mp hhl⟩
    ⟨flags.toNat, UInt8.lt_iff_toNat_lt.mp hflags⟩ present
  simpa only [UInt8.ofNat_toNat] using h

theorem fragOffset_fields (x : UInt16) :
    (x &&& (0x1fff : UInt16)) ||| (((x >>> 13).toUInt8).toUInt16 <<< 13) = x := by
  have hx := x.toNat_lt
  have hmask : x.toNat &&& (0x1fff : UInt16).toNat = x.toNat % 2 ^ 13 :=
    Nat.and_two_pow_sub_one_eq_mod x.toNat 13
  have hflags : (x.toNat >>> ((13 : UInt16).toNat % 16) % 2 ^ 8) <<< ((13 : UInt16).toNat % 16) % 2 ^ 16 =
      (x.toNat / 2 ^ 13) <<< 13 := by
    change (x.toNat >>> 13 % 2 ^ 8) <<< 13 % 2 ^ 16 = _
    omega
  rw [← UInt16.toNat_inj]
  simp only [UInt16.toNat_or, UInt16.toNat_and, UInt16.toNat_shiftLeft, UInt8.toNat_toUInt16,
    UInt16.toNat_toUInt8, UInt16.toNat_shiftRight]
  rw [hmask, hflags, Nat.or_comm, ← Nat.shiftLeft_add_eq_or_of_lt (Nat.mod_lt _ (by decide)),
    Nat.shiftLeft_eq]
  omega

theorem fragFlags_lt (x : UInt16) : (x >>> 13).toUInt8 < 8 := by
  have hx := x.toNat_lt
  change x.toNat >>> 13 % 2 ^ 8 < 8
  omega

theorem CompressedIPv4Header.read_write (hl : h.hl < 16) (rest : Bytes) :
    read (h.write ++ rest) = some (h, rest) := by
  have hoffset := fragOffset_fields h.fragOffset
  obtain ⟨hhl, hpresent, hflags⟩ := hlZdpflags_fields hl (fragFlags_lt h.fragOffset)
    (decide (h.fragOffset &&& (0x1fff : UInt16) ≠ 0))
  unfold write read
  by_cases hoff : h.fragOffset &&& 0x1fff = 0
  · simp only [hoff, ne_eq, not_true, decide_false, Bool.false_eq_true, if_false, iff_false,
      not_not] at hhl hpresent hflags ⊢
    simp only [getU8, List.cons_append, List.nil_append, List.append_assoc, Option.bind_eq_bind,
      Option.bind_some, getU16_putU16]
    rw [hhl, hpresent, hflags, if_neg (not_not.mpr rfl), ← hoff, hoffset]
  · simp only [hoff, ne_eq, not_false_eq_true, decide_true, if_true, iff_true] at hhl hpresent hflags ⊢
    simp only [getU8, List.cons_append, List.nil_append, List.append_assoc, Option.bind_eq_bind,
      Option.bind_some, getU16_putU16]
    rw [hhl, hflags, if_pos hpresent, hoffset]

theorem length_ipv4Header :
    (ipv4Header h totalLength csum p src dst).length = ipv4HeaderLen := by
  simp [ipv4Header, IpAddress.length_readAsV4, ipv4HeaderLen]

theorem u16At_withU16 (h : i ≤ b.length) : u16At (withU16 b i x) i = x := by
  have hdrop : (withU16 b i x).drop i = putU16 x ++ b.drop (i + 2) := by
    rw [withU16, List.append_assoc, List.drop_left' (List.length_take_of_le h)]
  rw [← Nat.add_zero i, ← u16At_drop, Nat.add_zero, hdrop, u16At_putU16]

theorem ipv4Header_append (hv : getIpVersion b = 4) (hlen : ipv4HeaderLen ≤ b.length) (csum : UInt16) :
    ipv4Header ⟨byteAt b 0 &&& 0x0F, byteAt b 1, u16At b 4, u16At b 6, byteAt b 8⟩ (u16At b 2) csum
      (byteAt b 9) (.newFromV4 b 12) (.newFromV4 b 16) ++ b.drop ipv4HeaderLen = withU16 b 10 csum := by
  have hlen' : 20 ≤ b.length := hlen
  have hvhl : 0x40 ||| (byteAt b 0 &&& 0x0F) = byteAt b 0 := by
    have hall : ∀ v : Fin 256, (UInt8.ofFin v &&& 0xF0) >>> 4 = 4 →
        0x40 ||| (UInt8.ofFin v &&& 0x0F) = UInt8.ofFin v := by
      decide +kernel
    exact hall (byteAt b 0).toFin hv
  have hfront : [0x40 ||| (byteAt b 0 &&& 0x0F), byteAt b 1] ++ putU16 (u16At b 2) ++ putU16 (u16At b 4) ++
      putU16 (u16At b 6) ++ [byteAt b 8, byteAt b 9] = b.take 10 := by
    have hall : [0x40 ||| (byteAt b 0 &&& 0x0F), byteAt b 1] ++ putU16 (u16At b 2) ++ putU16 (u16At b 4) ++
        putU16 (u16At b 6) ++ [byteAt b 8, byteAt b 9] ++ b.drop 10 = b := by
      simp only [List.append_assoc]
      rw [hvhl, pair_append_drop (by omega), putU16_u16At (by omega), putU16_u16At (by omega),
        putU16_u16At (by omega), pair_append_drop (by omega), List.drop_zero]
    conv_rhs => rw [← hall]
    exact (List.take_left' rfl).symm
  have hback : (IpAddress.newFromV4 b 12).readAsV4 ++
      ((IpAddress.newFromV4 b 16).readAsV4 ++ b.drop ipv4HeaderLen) = b.drop 12 := by
    change _ ++ (_ ++ b.drop (16 + 4)) = _
    rw [IpAddress.v4_append_drop (by omega), IpAddress.v4_append_drop (by omega)]
  rw [ipv4Header, hfront, withU16, List.append_assoc, List.append_assoc, hback]

/-- The packet that expansion makes of `l4` and what compression kept of the header of `b`. -/
def restoredIpv4 (tc : Ip5TupleTc) (b l4 : Bytes) (csum : UInt16) : Bytes :=
  ipv4Header ⟨byteAt b 0 &&& 0x0F, byteAt b 1, u16At b 4, u16At b 6, byteAt b 8⟩
    (UInt16.ofNat (l4.length + ipv4HeaderLen)) csum tc.fiveTuple.l4Protocol tc.fiveTuple.srcAddress
    tc.fiveTuple.dstAddress ++ l4

/-- The length of an IPv4 header as the header has it. -/
def ipv4Length (b : Bytes) : Nat := (byteAt b 0 &&& 0x0F).toNat * 4

theorem expandIpv4_compressIpv4 (hmin : ipv4HeaderLen ≤ b.length) :
    (compressIpv4 tc.compressionMode tc.fiveTuple.l4Protocol b).bind
        (expandIpv4 sums tc.compressionMode tc.fiveTuple) =
      ((compressL4 tc.compressionMode tc.fiveTuple.l4Protocol (b.drop ipv4HeaderLen)).bind
        (expandL4 sums tc.compressionMode tc.fiveTuple)).bind fun l4 =>
          if (restoredIpv4 tc b l4 0).length < ipv4Length b then none
          else some (restoredIpv4 tc b l4
            (sums.ip4sum ((restoredIpv4 tc b l4 0).take (ipv4Length b)))) := by
  have hword : byteAt b 0 &&& 0x0F < 16 := by
    exact Nat.lt_succ_of_le Nat.and_le_right
  rw [compressIpv4, if_neg (Nat.not_lt.mpr hmin), Option.bind_assoc]
  cases compressL4 tc.compressionMode tc.fiveTuple.l4Protocol (b.drop ipv4HeaderLen) with
  | none => rfl
  | some c =>
    simp only [Option.bind_eq_bind, Option.bind_some]
    rw [expandIpv4, CompressedIPv4Header.read_write hword, Option.bind_eq_bind, Option.bind_some]
    rfl

section

variable (hv : getIpVersion b = 4) (hlen : (u16At b 2).toNat = b.length)
  (hmin : ipv4HeaderLen ≤ b.length) (hsrc : tc.fiveTuple.srcAddress = .newFromV4 b 12)
  (hdst : tc.fiveTuple.dstAddress = .newFromV4 b 16)

include hv hlen hmin hsrc hdst

theorem restoredIpv4_eq (hp : byteAt b 9 = tc.fiveTuple.l4Protocol) (csum : UInt16) :
    restoredIpv4 tc b (b.drop ipv4HeaderLen) csum = withU16 b 10 csum := by
  have htotal : UInt16.ofNat ((b.drop ipv4HeaderLen).length + ipv4HeaderLen) = u16At b 2 := by
    rw [List.length_drop, Nat.sub_add_cancel hmin, ← hlen, UInt16.ofNat_toNat]
  rw [restoredIpv4, htotal, hsrc, hdst, ← hp, ipv4Header_append hv hmin]

/-- Expansion restores an IPv4 packet and computes its header checksum, if what is behind the fixed
    header survives. -/
theorem tripIpv4_of_survives (hp : byteAt b 9 = tc.fiveTuple.l4Protocol)
    (hn : ipv4Length b ≤ b.length) (hs : Survives sums tc (b.drop ipv4HeaderLen)) :
    (compressIpv4 tc.compressionMode tc.fiveTuple.l4Protocol b).bind
        (expandIpv4 sums tc.compressionMode tc.fiveTuple) =
      some (withU16 b 10 (sums.ip4sum ((withU16 b 10 0).take (ipv4Length b)))) := by
  have hlen' : 20 ≤ b.length := hmin
  rw [expandIpv4_compressIpv4 hmin, expandL4_compressL4_iff.mpr hs, Option.bind_some,
    restoredIpv4_eq hv hlen hmin hsrc hdst hp, restoredIpv4_eq hv hlen hmin hsrc hdst hp]
  exact if_neg (by rw [length_withU16 (by omega)]; omega)

theorem tripIpv4_iff (hn : ipv4Length b ≤ b.length) :
    (compressIpv4 tc.compressionMode tc.fiveTuple.l4Protocol b).bind
        (expandIpv4 sums tc.compressionMode tc.fiveTuple) = some b ↔
      byteAt b 9 = tc.fiveTuple.l4Protocol ∧ Survives sums tc (b.drop ipv4HeaderLen) ∧
        u16At b 10 = sums.ip4sum ((withU16 b 10 0).take (ipv4Length b)) := by
  have hlen' : 20 ≤ b.length := hmin
  constructor
  · intro h
    rw [expandIpv4_compressIpv4 hmin] at h
    obtain ⟨l4, hl4, h⟩ := Option.bind_eq_some_iff.mp h
    split at h
    · cases h
    have heq := Option.some.inj h
    -- the fixed header has 20 bytes, and the protocol is its tenth
    obtain rfl : l4 = b.drop ipv4HeaderLen := by
      rw [← heq, restoredIpv4, List.drop_left' (length_ipv4Header ..)]
    have hp : byteAt b 9 = tc.fiveTuple.l4Protocol := by
      conv_lhs => rw [← heq]
      rfl
    refine ⟨hp, expandL4_compressL4_iff.mp hl4, ?_⟩
    simp only [restoredIpv4_eq hv hlen hmin hsrc hdst hp] at heq
    conv_lhs => rw [← heq]
    exact u16At_withU16 (by omega)
  · rintro ⟨hp, hs, hsum⟩
    rw [tripIpv4_of_survives hv hlen hmin hsrc hdst hp hn hs, ← hsum, withU16_u16At (by omega)]

end

/-! ## IPv6 -/

theorem CompressedIPv6Header.read_write (h : CompressedIPv6Header) (rest : Bytes) :
    read (h.write ++ rest) = some (h, rest) := by
  simp only [write, read, getU8, List.cons_append, List.nil_append, List.append_assoc,
    Option.bind_eq_bind, Option.bind_some, getU16_putU16]

theorem length_ipv6Header {h : CompressedIPv6Header} :
    (ipv6Header h payloadLength p src dst).length = ipv6HeaderLen := by
  simp [ipv6Header, ipv6HeaderLen]

theorem ipv6Header_append (hlen : ipv6HeaderLen ≤ b.length) :
    ipv6Header ⟨byteAt b 0, byteAt b 1, u16At b 2, byteAt b 7⟩ (u16At b 4) (byteAt b 6) (.read b 8)
      (.read b 24) ++ b.drop ipv6HeaderLen = b := by
  have hlen' : 40 ≤ b.length := hlen
  simp only [ipv6Header, List.append_assoc]
  change _ ++ (_ ++ (_ ++ (_ ++ (_ ++ (_ ++ b.drop (24 + 16)))))) = _
  rw [IpAddress.read_append_drop (by omega), IpAddress.read_append_drop (by omega),
    pair_append_drop (by omega), putU16_u16At (by omega), putU16_u16At (by omega),
    pair_append_drop (by omega), List.drop_zero]

theorem expandIpv6_compressIpv6 (hmin : ipv6HeaderLen ≤ b.length) :
    (compressIpv6 tc.compressionMode tc.fiveTuple.l4Protocol b).bind
        (expandIpv6 sums tc.compressionMode tc.fiveTuple) =
      ((compressL4 tc.compressionMode tc.fiveTuple.l4Protocol (b.drop ipv6HeaderLen)).bind
        (expandL4 sums tc.compressionMode tc.fiveTuple)).map fun l4 =>
          ipv6Header ⟨byteAt b 0, byteAt b 1, u16At b 2, byteAt b 7⟩ (UInt16.ofNat l4.length)
            tc.fiveTuple.l4Protocol tc.fiveTuple.srcAddress tc.fiveTuple.dstAddress ++ l4 := by
  rw [compressIpv6, if_neg (Nat.not_lt.mpr hmin)]
  cases compressL4 tc.compressionMode tc.fiveTuple.l4Protocol (b.drop ipv6HeaderLen) with
  | none => rfl
  | some c =>
    simp only [Option.bind_eq_bind, Option.bind_some]
    rw [expandIpv6, CompressedIPv6Header.read_write, Option.bind_eq_bind, Option.bind_some]
    dsimp only
    cases expandL4 sums tc.compressionMode tc.fiveTuple c <;> rfl

theorem tripIpv6_iff (hlen : (u16At b 4).toNat = b.length - ipv6HeaderLen)
    (hmin : ipv6HeaderLen ≤ b.length) (hsrc : tc.fiveTuple.srcAddress = .read b 8)
    (hdst : tc.fiveTuple.dstAddress = .read b 24) :
    (compressIpv6 tc.compressionMode tc.fiveTuple.l4Protocol b).bind
        (expandIpv6 sums tc.compressionMode tc.fiveTuple) = some b ↔
      byteAt b 6 = tc.fiveTuple.l4Protocol ∧ Survives sums tc (b.drop ipv6HeaderLen) := by
  have hpayload : UInt16.ofNat (b.drop ipv6HeaderLen).length = u16At b 4 := by
    rw [List.length_drop, ← hlen, UInt16.ofNat_toNat]
  rw [expandIpv6_compressIpv6 hmin, Option.map_eq_some_iff]
  constructor
  · rintro ⟨l4, hl4, heq⟩
    obtain rfl : l4 = b.drop ipv6HeaderLen := by
      rw [← heq, List.drop_left' (length_ipv6Header ..)]
    refine ⟨?_, expandL4_compressL4_iff.mp hl4⟩
    conv_lhs => rw [← heq]
    rfl
  · rintro ⟨hp, hs⟩
    refine ⟨_, expandL4_compressL4_iff.mpr hs, ?_⟩
    rw [hpayload, hsrc, hdst, ← hp, ipv6Header_append hmin]

/-! ## Packets that are read -/

theorem expand_ipv4 (h : f.l3Type = .ipv4) : expand sums mode f = expandIpv4 sums mode f := by
  funext c
  rw [expand, h]

theorem expand_ipv6 (h : f.l3Type = .ipv6) : expand sums mode f = expandIpv6 sums mode f := by
  funext c
  rw [expand, h]

/-- A transport header that is where compression looks for it survives, if its checksum is what it
    is recomputed to be. -/
theorem survives_of_carried {o : ClassifierOptions} {e : Endpoints}
    (ho : o.ignoreTruncatedPackets = false) (h : tc.classify5t (e.flow q x y) = true)
    (ht : Carried sums o e q b x y)
    (hsum : q = IpNumber.tcp → TcpCanonical sums (e.flow q x y) b) : Survives sums tc b := by
  obtain ⟨hl3, hsrc, hdst, hp, hsp, hdp⟩ := Ip5TupleTc.classify5t_iff.mp h
  constructor
  · intro htcp
    have hq : q = IpNumber.tcp := hp.trans htcp
    have hcanonical := hsum hq
    rw [TcpCanonical, hl3, hsrc, hdst] at hcanonical
    cases ht with
    | unclassified _ hne => exact absurd hq hne
    | segment hseg =>
      cases hseg with
      | tcp hmin hmax => exact ⟨Nat.le_trans hmin hmax, ⟨hsp, hdp⟩, hcanonical⟩
      | icmp | icmpv6 | udp => exact absurd hq (by decide)
  · intro hudp
    have hq : q = IpNumber.udp := hp.trans hudp
    cases ht with
    | unclassified _ _ hne => exact absurd hq hne
    | segment hseg =>
      cases hseg with
      | udp hmin hfits =>
        exact ⟨Nat.le_trans (by decide) hmin, ⟨hsp, hdp⟩, by rw [← hfits.eq ho, UInt16.ofNat_toNat]⟩
      | icmp | icmpv6 | tcp => exact absurd hq (by decide)

end ZprCore.Fastpath
