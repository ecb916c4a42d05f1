-- SUMMARY: Which packets that a tether delivers are packets of its visa.
import ZprCore.Fastpath.Delivery

/-!
# Enforcement of visas

Nothing but expansion holds the packets of a tether to its visa. It sets addresses, protocol and,
for TCP and UDP, those ports that the visa names. It takes from the wire how long the IPv4 header
is and which version the IPv6 header has, and so where the actor finds the ports; it takes the
type and code of ICMP from there as well, and the next headers of a visa for an option header.
-/

namespace ZprCore.Fastpath

open ZprCore.Flow Adapter CompressedIPv4Header

variable {sums : Checksums} {a2a : A2a} {tc : Ip5TupleTc} {f : FiveTuple} {b c l4 : Bytes}
  {p : IpProtocol} {P : Bytes} {ft : FiveTuple} {mode : CompressionMode} {o : ClassifierOptions}
  {α β : Type} {n m k i j : Nat} {mac rest : Bytes} {e : Endpoints} {x y src dst : UInt16}
  {hd : CompressedIPv4Header} {len : UInt16}

/-! ## The layout of compressed packets -/

/-- The length of the ports that a compressed packet carries itself. -/
def portsLen (mode : CompressionMode) : Nat :=
  (if mode.sourcePortPresent then 0 else 2) + (if mode.destinationPortPresent then 0 else 2)

/-- What a compressed IPv4 header takes. -/
def ipv4Len (c : Bytes) : Nat := if byteAt c 0 &&& zdpV4FragInfoPresent ≠ 0 then 7 else 5

/-- The reader takes the first `n` bytes and leaves the rest, or fails because there are fewer. -/
def Takes {α : Type} (rest : α → Bytes) (b : Bytes) (n : Nat) (r : Option α) : Prop :=
  (n ≤ b.length ∧ ∃ x, r = some x ∧ rest x = b.drop n) ∨ (b.length < n ∧ r = none)

theorem Takes.pure {rest : α → Bytes} {x : α} (h : rest x = b) :
    Takes rest b 0 (some x) :=
  .inl ⟨Nat.zero_le _, x, rfl, h⟩

theorem Takes.getU8 : Takes (·.2) b 1 (getU8 b) := by
  cases b with
  | nil => exact .inr ⟨Nat.one_pos, rfl⟩
  | cons x b => exact .inl ⟨by simp, (x, b), rfl, rfl⟩

theorem Takes.getU16 : Takes (·.2) b 2 (getU16 b) := by
  match b with
  | [] | [_] => exact .inr ⟨by simp, rfl⟩
  | x :: y :: b => exact .inl ⟨by simp, (_, b), rfl, rfl⟩

theorem Takes.bind {rest : β → Bytes} {r : Option (α × Bytes)}
    {g : α × Bytes → Option β} (h : Takes (·.2) b n r)
    (hg : ∀ x, r = some (x, b.drop n) → Takes rest (b.drop n) m (g (x, b.drop n))) :
    Takes rest b (m + n) (r.bind g) := by
  rcases h with ⟨hle, ⟨x, _⟩, rfl, rfl⟩ | ⟨hlt, rfl⟩
  · rcases hg x rfl with ⟨hle', y, hy, hrest⟩ | ⟨hlt, hnone⟩
    · rw [List.length_drop] at hle'
      rw [List.drop_drop, Nat.add_comm] at hrest
      exact .inl ⟨by omega, y, hy, hrest⟩
    · rw [List.length_drop] at hlt
      exact .inr ⟨by omega, hnone⟩
  · exact .inr ⟨by omega, rfl⟩

theorem takePorts_takes (mode : CompressionMode) (ft : FiveTuple) (b : Bytes) :
    Takes (·.2.2) b (portsLen mode) (takePorts mode ft b) := by
  unfold takePorts portsLen
  cases mode.sourcePortPresent <;> cases mode.destinationPortPresent
  all_goals simp only [Bool.false_eq_true, if_true, if_false]
  · exact Takes.getU16.bind fun _ _ => Takes.getU16.bind (m := 0) fun _ _ => .pure rfl
  · exact Takes.getU16.bind (m := 0) fun _ _ => .pure rfl
  · exact Takes.getU16.bind (m := 0) fun _ _ => .pure rfl
  · exact .pure rfl

theorem CompressedIPv4Header.read_takes (c : Bytes) : Takes (·.2) c (ipv4Len c) (read c) := by
  have hlen : ipv4Len c =
      (if byteAt c 0 &&& zdpV4FragInfoPresent ≠ 0 then 3 else 1) + 2 + 1 + 1 := by
    unfold ipv4Len
    split <;> rfl
  rw [hlen]
  refine Takes.getU8.bind fun x hx => Takes.getU8.bind fun _ _ => Takes.getU16.bind fun _ _ => ?_
  have hx : byteAt c 0 = x := by
    cases c <;> cases hx
    rfl
  dsimp only
  rw [hx]
  split
  · exact Takes.getU16.bind fun _ _ => Takes.getU8.bind (m := 0) fun _ _ => .pure rfl
  · exact Takes.getU8.bind (m := 0) fun _ _ => .pure rfl

theorem CompressedIPv6Header.read_takes (c : Bytes) :
    Takes (·.2) c 5 (CompressedIPv6Header.read c) :=
  Takes.getU8.bind fun _ _ => Takes.getU8.bind fun _ _ => Takes.getU16.bind fun _ _ =>
    Takes.getU8.bind (m := 0) fun _ _ => .pure rfl

/-! ## What the actor sees -/

def seenPorts (p : IpProtocol) (b : Bytes) : UInt16 × UInt16 :=
  if p = IpNumber.tcp ∨ p = IpNumber.udp then (u16At b 0, u16At b 2)
  else if p = IpNumber.icmp ∨ p = IpNumber.ipv6Icmp then
    ((byteAt b 0).toUInt16, (byteAt b 1).toUInt16)
  else (0, 0)

/-- Are these ports of the classifier? -/
def admitsPorts (tc : Ip5TupleTc) (ports : UInt16 × UInt16) : Bool :=
  (tc.fiveTuple.srcPort = 0 || ports.1 = tc.fiveTuple.srcPort) &&
    (tc.fiveTuple.dstPort = 0 || ports.2 = tc.fiveTuple.dstPort)

/-- Does expansion set the ports of the protocol? -/
def setsPorts (p : IpProtocol) : Bool := p = IpNumber.tcp || p = IpNumber.udp

/-- Is it the protocol of a header that another one follows? -/
def isOption (p : IpProtocol) : Bool := (optionLength p 0).isSome

/-- The header length that a compressed IPv4 packet states, in bytes. -/
def statedLen (c : Bytes) : Nat := (byteAt c 0 >>> 4).toNat * 4

/-- Where the ports that the actor finds stand in a compressed IPv4 packet, if its header is said
    to be longer than the one that expansion sets; for ICMP the type and the code, with any header. -/
def foundPorts (tc : Ip5TupleTc) (c : Bytes) : UInt16 × UInt16 :=
  let p := tc.fiveTuple.l4Protocol
  let n := statedLen c
  let i := ipv4Len c + portsLen tc.compressionMode
  if p = IpNumber.tcp then
    -- the checksum is put in behind sixteen bytes of the transport header
    if n < 36 then (u16At c (i + (n - 24)), u16At c (i + (n - 22)))
    else (u16At c (i + (n - 26)), u16At c (i + (n - 24)))
  else if p = IpNumber.udp then
    -- the length is put in behind the ports
    (if n = 24 then UInt16.ofNat (c.length - i + 6) else u16At c (i + (n - 26)), u16At c (i + (n - 24)))
  else if p = IpNumber.icmp ∨ p = IpNumber.ipv6Icmp then
    let i := ipv4Len c + (n - ipv4HeaderLen)
    ((byteAt c i).toUInt16, (byteAt c (i + 1)).toUInt16)
  else (0, 0)

/-- Is the TCP checksum, which no packet carries, where the actor finds the source port of the visa? -/
def checksumAsPort (tc : Ip5TupleTc) (c : Bytes) : Bool :=
  tc.fiveTuple.l3Type = .ipv4 && tc.fiveTuple.l4Protocol = IpNumber.tcp && statedLen c = 36 &&
    tc.fiveTuple.srcPort ≠ 0

/-- Is a compressed packet one of the classifier? -/
def obeys (tc : Ip5TupleTc) (c : Bytes) : Bool :=
  let p := tc.fiveTuple.l4Protocol
  !isOption p &&
  match tc.fiveTuple.l3Type with
  | .ipv4 =>
    tc.fiveTuple.srcAddress.isV4 && tc.fiveTuple.dstAddress.isV4 &&
      ((setsPorts p && statedLen c = ipv4HeaderLen) ||
        (!checksumAsPort tc c && admitsPorts tc (foundPorts tc c)))
  | .ipv6 => byteAt c 0 >>> 4 = 6 && (setsPorts p || admitsPorts tc (seenPorts p (c.drop 5)))
  | .other _ => true

def compressedPart (a2a : A2a) (b : Bytes) : Bytes :=
  let b := b.drop a2a.saidSize
  b.take (b.length - A2a.macSize)

theorem compressedPart_eq (hmac : mac.length = A2a.macSize) :
    compressedPart a2a (a2a.header ++ c ++ mac) = c := by
  have hheader : a2a.header.length = a2a.saidSize := List.length_replicate
  rw [compressedPart, List.append_assoc, List.drop_left' hheader, List.length_append, hmac,
    Nat.add_sub_cancel, List.take_left]

/-! ## Reading -/

theorem isOption_eq_false_iff : isOption p = false ↔ ∀ n, optionLength p n = none := by
  unfold isOption
  refine ⟨fun h n => optionLength_none (Option.not_isSome_iff_eq_none.mp (by rw [h]; decide)) n,
    fun h => by rw [h]; rfl⟩

/-- What is read from a segment is what is seen. -/
theorem ports_of_carried (h : Carried sums o e p b x y) :
    (x, y) = seenPorts p b := by
  cases h with
  | segment hseg => cases hseg <;> rfl
  | unclassified h1 h6 h17 h58 => simp [seenPorts, h1, h58, h6, h17]

theorem admitsPorts_iff {ports : UInt16 × UInt16} : admitsPorts tc ports = true ↔
    (tc.fiveTuple.srcPort ≠ 0 → ports.1 = tc.fiveTuple.srcPort) ∧
      (tc.fiveTuple.dstPort ≠ 0 → ports.2 = tc.fiveTuple.dstPort) := by
  simp only [admitsPorts, Bool.and_eq_true, Bool.or_eq_true, decide_eq_true_eq, ne_eq,
    or_iff_not_imp_left]

theorem classify5t_flow_iff {q : IpProtocol}
    (hchain : Chain tc.fiveTuple.l4Protocol (b.drop n) q k) (h : Carried sums o e q (b.drop (n + k)) x y) :
    tc.classify5t (e.flow q x y) = true ↔
      (e.l3Type = tc.fiveTuple.l3Type ∧ e.src = tc.fiveTuple.srcAddress ∧
        e.dst = tc.fiveTuple.dstAddress) ∧
      isOption tc.fiveTuple.l4Protocol = false ∧
        admitsPorts tc (seenPorts tc.fiveTuple.l4Protocol (b.drop n)) = true := by
  rw [Ip5TupleTc.classify5t_iff, isOption_eq_false_iff, admitsPorts_iff]
  constructor
  · rintro ⟨hl3, hsrc, hdst, hproto, hports⟩
    have hno : ∀ n, optionLength tc.fiveTuple.l4Protocol n = none := hproto ▸ hchain.last.1
    obtain ⟨rfl, rfl⟩ := hchain.eq_zero hno
    have hseen : (x, y) = seenPorts tc.fiveTuple.l4Protocol (b.drop n) := ports_of_carried h
    exact ⟨⟨hl3, hsrc, hdst⟩, hno, hseen ▸ hports⟩
  · rintro ⟨⟨hl3, hsrc, hdst⟩, hno, hports⟩
    obtain ⟨rfl, rfl⟩ := hchain.eq_zero hno
    have hseen : (x, y) = seenPorts tc.fiveTuple.l4Protocol (b.drop n) := ports_of_carried h
    rw [← hseen] at hports
    exact ⟨hl3, hsrc, hdst, rfl, hports⟩

/-! ## What expansion sets -/

theorem admitsPorts_takePorts
    (h : takePorts tc.compressionMode tc.fiveTuple c = some (src, dst, rest)) :
    admitsPorts tc (src, dst) = true := by
  by_cases hs : tc.fiveTuple.srcPort = 0 <;> by_cases hd : tc.fiveTuple.dstPort = 0
  · simp [admitsPorts, hs, hd]
  all_goals
    simp [takePorts, Ip5TupleTc.compressionMode, hs, hd, Option.bind_eq_some_iff] at h
    grind [admitsPorts]

theorem seenPorts_putU16 (hp : setsPorts p = true) (src dst : UInt16) (rest : Bytes) :
    seenPorts p (putU16 src ++ putU16 dst ++ rest) = (src, dst) := by
  have hp : p = IpNumber.tcp ∨ p = IpNumber.udp := by simpa [setsPorts] using hp
  rw [seenPorts, if_pos hp]
  exact Prod.ext (ofNat_putU16 src) (ofNat_putU16 dst)

theorem admitsPorts_expandL4 (hp : setsPorts tc.fiveTuple.l4Protocol = true)
    (h : expandL4 sums tc.compressionMode tc.fiveTuple c = some l4) :
    admitsPorts tc (seenPorts tc.fiveTuple.l4Protocol l4) = true := by
  unfold expandL4 at h
  split at h
  · obtain ⟨⟨src, dst, rest⟩, hports, h⟩ := Option.bind_eq_some_iff.mp h
    dsimp only at h
    split at h
    · cases h
    · cases h
      rw [seenPorts_putU16 hp]
      exact admitsPorts_takePorts hports
  split at h
  · obtain ⟨⟨src, dst, rest⟩, hports, h⟩ := Option.bind_eq_some_iff.mp h
    cases h
    rw [List.append_assoc (putU16 src ++ putU16 dst), seenPorts_putU16 hp]
    exact admitsPorts_takePorts hports
  · next hne hne' => simp [setsPorts, hne, hne'] at hp

theorem expandL4_of_not_setsPorts (hp : setsPorts tc.fiveTuple.l4Protocol = false) :
    expandL4 sums tc.compressionMode tc.fiveTuple c = some c := by
  simp only [setsPorts, Bool.or_eq_false_iff, decide_eq_false_iff_not] at hp
  rw [expandL4, if_neg hp.1, if_neg hp.2]

theorem byteAt_drop : byteAt (b.drop i) j = byteAt b (i + j) := by
  simp [byteAt, List.getD_eq_getElem?_getD]

theorem u16At_append_left {b b' : Bytes} (h : i + 2 ≤ b.length) :
    u16At (b ++ b') i = u16At b i := by
  simp only [u16At, byteAt, List.getD_eq_getElem?_getD,
    List.getElem?_append_left (show i < b.length by omega),
    List.getElem?_append_left (show i + 1 < b.length by omega)]

theorem u16At_append_right {b b' : Bytes} (h : b.length ≤ i) :
    u16At (b ++ b') i = u16At b' (i - b.length) := by
  simp only [u16At, byteAt, List.getD_eq_getElem?_getD, List.getElem?_append_right h,
    List.getElem?_append_right (show b.length ≤ i + 1 by omega), Nat.sub_add_comm h]

theorem rest_of_takePorts
    (h : takePorts mode ft c = some (src, dst, rest)) : rest = c.drop (portsLen mode) := by
  rcases takePorts_takes mode ft c with ⟨-, x, hx, hrest⟩ | ⟨-, hnone⟩
  · cases h.symm.trans hx
    exact hrest
  · cases h.symm.trans hnone

/-- What is around the checksum in a TCP header is from the packet. -/
theorem u16At_expandTcp (h : expandTcp sums mode ft c = some l4) (i : Nat) :
    (4 ≤ i → i + 2 ≤ 16 → u16At l4 i = u16At c (portsLen mode + (i - 4))) ∧
      (18 ≤ i → u16At l4 i = u16At c (portsLen mode + (i - 6))) := by
  obtain ⟨⟨src, dst, rest⟩, hports, h⟩ := Option.bind_eq_some_iff.mp h
  cases rest_of_takePorts hports
  dsimp only at h
  split at h
  · cases h
  next hlen =>
  cases h
  have htake : (List.take tcpChecksumOffset (c.drop (portsLen mode))).length = 12 := by
    simp only [tcpHeaderLen] at hlen
    rw [List.length_take, tcpChecksumOffset]
    omega
  constructor
  · intro h4 h16
    rw [u16At_append_right (by simpa using h4), List.append_assoc, u16At_append_left,
      u16At_of_isPrefix (List.take_prefix ..), u16At_drop]
    · rfl
    all_goals
      simp only [htake, List.length_append, length_putU16]
      omega
  · intro h18
    rw [u16At_append_right, u16At_append_right, u16At_drop, u16At_drop]
    · simp only [List.length_append, htake, length_putU16]
      exact congrArg (u16At c) (by rw [tcpChecksumOffset]; omega)
    all_goals
      simp only [htake, List.length_append, length_putU16]
      omega

/-- Behind the length of a UDP header all is from the packet. -/
theorem u16At_expandUdp (h : expandUdp mode ft c = some l4) (i : Nat) :
    u16At l4 4 = UInt16.ofNat (c.length - portsLen mode + 6) ∧
      (6 ≤ i → u16At l4 i = u16At c (portsLen mode + (i - 6))) := by
  obtain ⟨⟨src, dst, rest⟩, hports, h⟩ := Option.bind_eq_some_iff.mp h
  cases rest_of_takePorts hports
  cases h
  constructor
  · rw [List.append_assoc, u16At_append_right (by simp), List.length_append, length_putU16, length_putU16,
      u16At_putU16, List.length_drop]
    rfl
  · intro h6
    rw [u16At_append_right (by simpa using h6), u16At_drop]
    rfl

theorem seenPorts_foundPorts
    (h : expandL4 sums tc.compressionMode tc.fiveTuple (c.drop (ipv4Len c)) = some l4)
    (hlong : setsPorts tc.fiveTuple.l4Protocol = true → 24 ≤ statedLen c) :
    let seen := seenPorts tc.fiveTuple.l4Protocol (l4.drop (statedLen c - ipv4HeaderLen))
    (¬(tc.fiveTuple.l4Protocol = IpNumber.tcp ∧ statedLen c = 36) → seen.1 = (foundPorts tc c).1) ∧
      seen.2 = (foundPorts tc c).2 := by
  have hmod : statedLen c % 4 = 0 := Nat.mul_mod_left ..
  by_cases htcp : tc.fiveTuple.l4Protocol = IpNumber.tcp
  · have hn := hlong (by simp [setsPorts, htcp])
    rw [expandL4, if_pos htcp] at h
    have hat := u16At_expandTcp h
    simp only [seenPorts, foundPorts, htcp, true_or, if_true, u16At_drop, ipv4HeaderLen, true_and,
      Nat.add_zero]
    -- in front of the checksum or behind it
    by_cases h36 : statedLen c < 36
    · rw [if_pos h36, (hat (statedLen c - 20)).1 (by omega) (by omega),
        (hat (statedLen c - 20 + 2)).1 (by omega) (by omega), u16At_drop, u16At_drop]
      exact ⟨fun _ => congrArg (u16At c) (by omega), congrArg (u16At c) (by omega)⟩
    · rw [if_neg h36, (hat (statedLen c - 20 + 2)).2 (by omega), u16At_drop]
      refine ⟨fun hne => ?_, congrArg (u16At c) (by omega)⟩
      rw [(hat (statedLen c - 20)).2 (by omega), u16At_drop]
      exact congrArg (u16At c) (by omega)
  by_cases hudp : tc.fiveTuple.l4Protocol = IpNumber.udp
  · have hn := hlong (by simp [setsPorts, hudp])
    rw [expandL4, if_neg htcp, if_pos hudp] at h
    have hat := u16At_expandUdp h
    simp only [seenPorts, foundPorts, if_neg htcp, if_pos hudp, if_pos (Or.inr hudp),
      u16At_drop, ipv4HeaderLen,
      Nat.add_zero]
    rw [(hat (statedLen c - 20 + 2)).2 (by omega), u16At_drop]
    refine ⟨fun _ => ?_, congrArg (u16At c) (by omega)⟩
    split
    · next h24 => rw [h24, (hat 0).1, List.length_drop, Nat.sub_sub]
    · rw [(hat (statedLen c - 20)).2 (by omega), u16At_drop]
      exact congrArg (u16At c) (by omega)
  · rw [expandL4, if_neg htcp, if_neg hudp] at h
    cases h
    simp only [seenPorts, foundPorts, htcp, hudp, or_self, if_false, byteAt_drop]
    split
    · exact ⟨fun _ => rfl, rfl⟩
    · exact ⟨fun _ => rfl, rfl⟩

theorem CompressedIPv4Header.hl_of_read
    (h : read c = some (hd, rest)) : hd.hl = byteAt c 0 >>> 4 := by
  cases c with
  | nil => cases h
  | cons x c =>
    obtain ⟨_, -, h⟩ := Option.bind_eq_some_iff.mp h
    obtain ⟨_, -, h⟩ := Option.bind_eq_some_iff.mp h
    dsimp only at h
    split at h
    all_goals
      obtain ⟨_, -, h⟩ := Option.bind_eq_some_iff.mp h
      obtain ⟨_, -, h⟩ := Option.bind_eq_some_iff.mp h
      cases h
      rfl

theorem CompressedIPv4Header.of_read (h : read c = some (hd, rest)) :
    rest = c.drop (ipv4Len c) ∧ hd.hl.toNat * 4 = statedLen c ∧ hd.hl < 16 := by
  have hall : ∀ v : Fin 256, UInt8.ofFin v >>> 4 < 16 := by decide +kernel
  have hhl := hl_of_read h
  rcases read_takes c with ⟨-, x, hx, hrest⟩ | ⟨-, hnone⟩
  · cases h.symm.trans hx
    exact ⟨hrest, by rw [hhl, statedLen], by rw [hhl]; exact hall (byteAt c 0).toFin⟩
  · cases h.symm.trans hnone

theorem expandIpv4_some (h : expandIpv4 sums mode ft c = some P) :
    ∃ hd rest l4 len csum, CompressedIPv4Header.read c = some (hd, rest) ∧
      expandL4 sums mode ft rest = some l4 ∧
      P = ipv4Header hd len csum ft.l4Protocol ft.srcAddress ft.dstAddress ++ l4 := by
  obtain ⟨⟨hd, rest⟩, hread, h⟩ := Option.bind_eq_some_iff.mp h
  obtain ⟨l4, hl4, h⟩ := Option.bind_eq_some_iff.mp h
  dsimp only at h
  split at h
  · cases h
  · cases h
    exact ⟨hd, rest, l4, _, _, hread, hl4, rfl⟩

theorem expandIpv6_some (h : expandIpv6 sums mode ft c = some P) :
    ∃ hd rest l4 len, CompressedIPv6Header.read c = some (hd, rest) ∧
      expandL4 sums mode ft rest = some l4 ∧
      P = ipv6Header hd len ft.l4Protocol ft.srcAddress ft.dstAddress ++ l4 := by
  obtain ⟨⟨hd, rest⟩, hread, h⟩ := Option.bind_eq_some_iff.mp h
  obtain ⟨l4, hl4, h⟩ := Option.bind_eq_some_iff.mp h
  cases h
  exact ⟨hd, rest, l4, _, hread, hl4, rfl⟩

section

variable {csum : UInt16} {src dst : IpAddress}

theorem drop_ipv4Header : (ipv4Header hd len csum p src dst ++ l4).drop 12 =
    src.readAsV4 ++ (dst.readAsV4 ++ l4) := by
  rw [ipv4Header, List.append_assoc, List.append_assoc]
  rfl

theorem newFromV4_ipv4Header_src :
    IpAddress.newFromV4 (ipv4Header hd len csum p src dst ++ l4) 12 = src ↔ src.isV4 = true := by
  refine IpAddress.newFromV4_eq_iff ?_ ?_
  · rw [List.length_append, length_ipv4Header, ipv4HeaderLen]
    omega
  · rw [drop_ipv4Header, List.take_left' (src.length_readAsV4)]

theorem newFromV4_ipv4Header_dst :
    IpAddress.newFromV4 (ipv4Header hd len csum p src dst ++ l4) 16 = dst ↔ dst.isV4 = true := by
  refine IpAddress.newFromV4_eq_iff ?_ ?_
  · rw [List.length_append, length_ipv4Header, ipv4HeaderLen]
    omega
  · rw [← List.drop_drop (i := 4) (j := 12), drop_ipv4Header, List.drop_left' (src.length_readAsV4),
      List.take_left' (dst.length_readAsV4)]

end

section

variable {hd : CompressedIPv6Header} {src dst : IpAddress}

theorem drop_ipv6Header : (ipv6Header hd len p src dst ++ l4).drop ipv6HeaderLen = l4 :=
  List.drop_left' length_ipv6Header

theorem read_ipv6Header_src : IpAddress.read (ipv6Header hd len p src dst ++ l4) 8 = src := by
  refine IpAddress.read_eq_of_drop (dst.octets.toList ++ l4) ?_ ?_
  · rw [List.length_append, length_ipv6Header, ipv6HeaderLen]
    omega
  · rw [ipv6Header, List.append_assoc, List.append_assoc]
    rfl

theorem read_ipv6Header_dst : IpAddress.read (ipv6Header hd len p src dst ++ l4) 24 = dst := by
  refine IpAddress.read_eq_of_drop l4 ?_ ?_
  · rw [List.length_append, length_ipv6Header, ipv6HeaderLen]
    omega
  · rw [ipv6Header, List.append_assoc]
    exact List.drop_left' (by simp)

end

/-- The ports of a packet with an IPv4 header are as the visa has them if they are where they are
    found, and only if, but for the checksum. -/
theorem admitsPorts_foundPorts
    (hl4 : expandL4 sums tc.compressionMode tc.fiveTuple (c.drop (ipv4Len c)) = some l4)
    (hl3 : tc.fiveTuple.l3Type = .ipv4) (hmin : ipv4HeaderLen ≤ statedLen c) :
    let admitted := admitsPorts tc
      (seenPorts tc.fiveTuple.l4Protocol (l4.drop (statedLen c - ipv4HeaderLen))) = true
    let found := (setsPorts tc.fiveTuple.l4Protocol = true ∧ statedLen c = ipv4HeaderLen) ∨
      (checksumAsPort tc c = false ∧ admitsPorts tc (foundPorts tc c) = true)
    (found → admitted) ∧ (admitted → found ∨ checksumAsPort tc c = true) := by
  by_cases hset : setsPorts tc.fiveTuple.l4Protocol = true ∧ statedLen c = ipv4HeaderLen
  · have hadmits : admitsPorts tc (seenPorts tc.fiveTuple.l4Protocol
        (l4.drop (statedLen c - ipv4HeaderLen))) = true := by
      rw [hset.2, Nat.sub_self, List.drop_zero]
      exact admitsPorts_expandL4 hset.1 hl4
    exact ⟨fun _ => hadmits, fun _ => .inl (.inl hset)⟩
  have hmod : statedLen c % 4 = 0 := Nat.mul_mod_left ..
  obtain ⟨hsrc, hdst⟩ := seenPorts_foundPorts hl4 fun hp => by
    have hne : statedLen c ≠ ipv4HeaderLen := fun heq => hset ⟨hp, heq⟩
    simp only [ipv4HeaderLen] at hmin hne
    omega
  have hiff (hsum : checksumAsPort tc c = false) : admitsPorts tc (seenPorts tc.fiveTuple.l4Protocol
      (l4.drop (statedLen c - ipv4HeaderLen))) = admitsPorts tc (foundPorts tc c) := by
    simp only [checksumAsPort, hl3, Bool.and_eq_false_iff, decide_eq_false_iff_not] at hsum
    by_cases h0 : tc.fiveTuple.srcPort = 0
    · simp only [admitsPorts, h0, hdst, decide_true, Bool.true_or]
    · rw [admitsPorts, hsrc (by tauto), hdst, admitsPorts]
  cases hsum : checksumAsPort tc c with
  | true => exact ⟨by simp [hset], fun _ => .inr rfl⟩
  | false => rw [hiff hsum]; simp [hset]

theorem classify5t_expandIpv4 (hl3 : tc.fiveTuple.l3Type = .ipv4)
    (hP : expandIpv4 sums tc.compressionMode tc.fiveTuple c = some P) (hread : ReadsPacket sums o P f) :
    (obeys tc c = true → tc.classify5t f = true) ∧
      (tc.classify5t f = true → obeys tc c = true ∨ checksumAsPort tc c = true) := by
  obtain ⟨hd, rest, l4, len, csum, hhd, hl4, rfl⟩ := expandIpv4_some hP
  obtain ⟨rfl, hstated, hlt⟩ := CompressedIPv4Header.of_read hhd
  have hbits : ∀ v : Fin 256, UInt8.ofFin v < 16 →
      ((0x40 ||| UInt8.ofFin v) &&& 0xF0) >>> 4 = 4 ∧ (0x40 ||| UInt8.ofFin v) &&& 0x0F = UInt8.ofFin v := by
    decide +kernel
  obtain ⟨hversion, hwords⟩ := hbits hd.hl.toFin hlt
  obtain @⟨e, p, q, n, k, x, y, hip, hchain, hcarried⟩ := hread
  cases hip with
  | ipv4 hv hn hmin =>
    have hn : statedLen c = n := hstated.symm.trans ((congrArg (·.toNat * 4) hwords).symm.trans hn)
    have hdrop : (ipv4Header hd len csum tc.fiveTuple.l4Protocol tc.fiveTuple.srcAddress
        tc.fiveTuple.dstAddress ++ l4).drop n = l4.drop (statedLen c - ipv4HeaderLen) := by
      rw [List.drop_append, length_ipv4Header,
        List.drop_eq_nil_of_le (by rw [length_ipv4Header]; exact hmin), List.nil_append, hn]
    obtain ⟨hadmits, hfound⟩ := admitsPorts_foundPorts hl4 hl3 (hn ▸ hmin)
    rw [classify5t_flow_iff hchain hcarried, newFromV4_ipv4Header_src, newFromV4_ipv4Header_dst, hdrop]
    simp only [obeys, hl3, Bool.and_eq_true, Bool.or_eq_true, decide_eq_true_eq, Bool.not_eq_true', true_and]
    constructor
    · rintro ⟨hopt, hv4, hports⟩
      exact ⟨hv4, hopt, hadmits hports⟩
    · rintro ⟨hv4, hopt, hports⟩
      exact (hfound hports).imp_left fun h => ⟨hopt, hv4, h⟩
  | ipv6 hv => exact absurd (hversion.symm.trans hv) (by decide)

theorem CompressedIPv6Header.of_read {hd : CompressedIPv6Header}
    (h : CompressedIPv6Header.read c = some (hd, rest)) :
    rest = c.drop 5 ∧ hd.versionAndTcUpper = byteAt c 0 := by
  match c with
  | [] | [_] | [_, _] | [_, _, _] | [_, _, _, _] => cases h
  | _ :: _ :: _ :: _ :: _ :: _ => cases h; exact ⟨rfl, rfl⟩

theorem classify5t_expandIpv6 (hl3 : tc.fiveTuple.l3Type = .ipv6)
    (hP : expandIpv6 sums tc.compressionMode tc.fiveTuple c = some P) (hread : ReadsPacket sums o P f) :
    tc.classify5t f = true ↔ obeys tc c = true := by
  obtain ⟨hd, rest, l4, len, hhd, hl4, rfl⟩ := expandIpv6_some hP
  obtain ⟨rfl, hbyte⟩ := CompressedIPv6Header.of_read hhd
  have hbits : ∀ v : Fin 256, (UInt8.ofFin v &&& 0xF0) >>> 4 = UInt8.ofFin v >>> 4 := by decide +kernel
  have hversion : getIpVersion (ipv6Header hd len tc.fiveTuple.l4Protocol tc.fiveTuple.srcAddress
      tc.fiveTuple.dstAddress ++ l4) = byteAt c 0 >>> 4 :=
    hbyte ▸ hbits hd.versionAndTcUpper.toFin
  obtain ⟨hip, hchain, hcarried⟩ := hread
  cases hip with
  | ipv4 hv =>
    -- the version is the sender's choice
    have hno : byteAt c 0 >>> 4 ≠ 6 := by
      rw [← hversion, hv]
      decide
    refine iff_of_false (fun h => ?_) (fun h => ?_)
    · have hl3' := (Ip5TupleTc.classify5t_iff.mp h).1
      rw [hl3] at hl3'
      cases hl3'
    · simp only [obeys, hl3, Bool.and_eq_true, decide_eq_true_eq] at h
      exact hno h.2.1
  | ipv6 hv =>
    have hversion : byteAt c 0 >>> 4 = 6 := hversion.symm.trans hv
    rw [classify5t_flow_iff hchain hcarried, read_ipv6Header_src, read_ipv6Header_dst, drop_ipv6Header]
    simp only [obeys, hl3, hversion, Bool.and_eq_true, Bool.or_eq_true, decide_true, Bool.not_eq_true',
      true_and]
    cases hp : setsPorts tc.fiveTuple.l4Protocol with
    | true => simp only [admitsPorts_expandL4 hp hl4, true_or, and_true]
    | false =>
      cases (expandL4_of_not_setsPorts hp).symm.trans hl4
      simp only [Bool.false_eq_true, false_or]

/-! ## Delivered packets -/

/-- What is delivered for a tether is a packet of its visa if it obeys the visa in its compressed
    form, and only if, but for a TCP checksum that is taken for a source port. -/
theorem delivered_obeys_visa {dlt : DockLookupTable} {tether : StreamId} {pep : DltPep} {P : Bytes}
    {res : Except String ClassifierResult} (hpep : dlt.lookup tether = some pep)
    (hl3 : pep.tc.fiveTuple.l3Type = .ipv4 ∨ pep.tc.fiveTuple.l3Type = .ipv6)
    (hqueued : actorInput sums a2a dlt tether b = some (.queued P))
    (hclass : classifyWithOptions sums { ignoreBadChecksums := true } P = some (f, res))
    (hacc : Accepted res) :
    (obeys pep.tc (compressedPart a2a b) = true → pep.tc.classify5t f = true) ∧
      (pep.tc.classify5t f = true →
        obeys pep.tc (compressedPart a2a b) = true ∨
          checksumAsPort pep.tc (compressedPart a2a b) = true) := by
  obtain ⟨c, rfl, hexpand⟩ := actorInput_queued hpep hqueued
  have hread := readsPacket_of_classify hclass hacc
  rw [compressedPart_eq (A2a.length_micv ..)]
  rcases hl3 with hl3 | hl3
  · simp only [expand, hl3] at hexpand
    exact classify5t_expandIpv4 hl3 hexpand hread
  · simp only [expand, hl3] at hexpand
    have hiff := classify5t_expandIpv6 hl3 hexpand hread
    exact ⟨hiff.mpr, fun h => .inl (hiff.mp h)⟩

def sampleDlt : DockLookupTable := (∅ : DockLookupTable).insert 9 ⟨⟨sampleUdp4Tuple⟩, none, none⟩

/-- A compressed packet on the tether, with the check value of what it expands to. -/
def sampleBody (c P : Bytes) : Bytes := sampleA2a.header ++ c ++ sampleA2a.micv none P

theorem delivered_obeys_visa_udp4 :
    actorInput .internet sampleA2a sampleDlt 9 (sampleBody [0x50, 0, 0, 0, 64, 0, 0] sampleUdp4) =
      some (.queued sampleUdp4) ∧
    Ip5TupleTc.classify5t ⟨sampleUdp4Tuple⟩ sampleUdp4Tuple = true := by
  have hpep : sampleDlt.lookup 9 = some ⟨⟨sampleUdp4Tuple⟩, none, none⟩ := AList.lookup_insert _
  have hqueued : actorInput .internet sampleA2a sampleDlt 9
      (sampleBody [0x50, 0, 0, 0, 64, 0, 0] sampleUdp4) = some (.queued sampleUdp4) := by
    decide +kernel
  have hclass : classifyWithOptions .internet { ignoreBadChecksums := true } sampleUdp4 =
      some (sampleUdp4Tuple, .ok .ok) := by
    decide +kernel
  exact ⟨hqueued, (delivered_obeys_visa hpep (.inl rfl) hqueued hclass (.inl rfl)).1 (by decide +kernel)⟩

/-- A packet with a header of seven words. The ports of the visa are where its options are, and
    others follow. -/
def sampleOptions : Bytes :=
  [0x47, 0, 0, 36, 0, 0, 0, 0, 64, 17, 0x64, 0xb4, 10, 0, 0, 1, 10, 0, 0, 2,
    0, 1, 0, 2, 0, 16, 0, 0, 0, 9, 0, 22, 0, 8, 0, 0]

def sampleOptionsBody : Bytes :=
  sampleBody [0x70, 0, 0, 0, 64, 0, 0, 0, 9, 0, 22, 0, 8, 0, 0] sampleOptions

/-- Under a visa for port 2, the actor is sent a packet to port 22. -/
theorem header_length_moves_ports :
    sampleDlt.lookup 9 = some ⟨⟨sampleUdp4Tuple⟩, none, none⟩ ∧
    actorInput .internet sampleA2a sampleDlt 9 sampleOptionsBody = some (.queued sampleOptions) ∧
    classifyWithOptions .internet { ignoreBadChecksums := true } sampleOptions =
      some ({ sampleUdp4Tuple with srcPort := 9, dstPort := 22 }, .ok .ok) ∧
    Ip5TupleTc.classify5t ⟨sampleUdp4Tuple⟩ { sampleUdp4Tuple with srcPort := 9, dstPort := 22 } = false :=
  ⟨AList.lookup_insert _, by decide +kernel, by decide +kernel, by decide +kernel⟩

end ZprCore.Fastpath
