-- SUMMARY: Guarantees of the classifier: panics, independence, correctness and truncated packets.
import ZprCore.Flow.Headers

/-!
# Guarantees of the classifier

Four facts follow from the walk along the headers. The classifier panics on a packet exactly if
the data behind the IP header is too short for the first field it reads there. Its result, and the
five-tuple of an accepted packet, do not depend on what the five-tuple held before. What it
classifies is well formed. And a prefix of a classified packet gives the same flow.
-/

namespace ZprCore.Flow

variable {sums : Checksums} {o o' : ClassifierOptions} {ft f : FiveTuple} {b b' d d' : Bytes}
  {p q : IpProtocol} {fuel n k : Nat} {e : Endpoints} {more : Bool} {srcPort dstPort x y : UInt16}
  {r : ClassifierResult} {first : Bool} {c c' c₁ c₂ c₁' c₂' : Classified} {actual declared i : Nat}

/-! ## Panics -/

/-- How much of the data behind an IP header is read without a look at its length. -/
def leastLength (p : IpProtocol) : Nat :=
  if p = IpNumber.icmp ∨ p = IpNumber.ipv6Icmp then icmpHeaderLen
  else if p = IpNumber.ipv6Frag then 1
  else if (optionLength p 0).isSome then 2
  else 0

theorem leastLength_le (p : IpProtocol) : leastLength p ≤ 8 := by
  unfold leastLength icmpHeaderLen
  split_ifs <;> omega

theorem leastLength_option (h : optionLength p n = some k) : leastLength p = 2 := by
  have hsome : (optionLength p 0).isSome = true := by
    cases h0 : optionLength p 0 with
    | none => rw [optionLength_none h0] at h; cases h
    | some => rfl
  have hicmp : ¬(p = IpNumber.icmp ∨ p = IpNumber.ipv6Icmp) := by
    rintro (rfl | rfl) <;> cases h
  have hfrag : p ≠ IpNumber.ipv6Frag := by
    rintro rfl
    cases h
  rw [leastLength, if_neg hicmp, if_neg hfrag, if_pos hsome]

theorem leastLength_segment (h : optionLength p n = none) (hfrag : p ≠ IpNumber.ipv6Frag) :
    leastLength p = if p = IpNumber.icmp ∨ p = IpNumber.ipv6Icmp then icmpHeaderLen else 0 := by
  rw [leastLength, if_neg hfrag, optionLength_none h]
  rfl

theorem asFirstFragment_eq_none :
    asFirstFragment first c = none ↔ c = none := by
  cases first <;> simp [asFirstFragment]

theorem classifyIcmpWith_eq_none {valid : FiveTuple → Bool} :
    classifyIcmpWith o valid ft d = none ↔ d.length < icmpHeaderLen := by
  unfold classifyIcmpWith
  dsimp only
  split
  · next h => exact iff_of_true rfl h
  · next h => exact iff_of_false (by split <;> simp) h

theorem classifySegment_eq_none :
    classifySegment sums o ft d = none ↔
      (ft.l4Protocol = IpNumber.icmp ∨ ft.l4Protocol = IpNumber.ipv6Icmp) ∧ d.length < icmpHeaderLen := by
  have hother {c : Classified} (hsome : c ≠ none) (h1 : ft.l4Protocol ≠ IpNumber.icmp)
      (h58 : ft.l4Protocol ≠ IpNumber.ipv6Icmp) :
      c = none ↔ (ft.l4Protocol = IpNumber.icmp ∨ ft.l4Protocol = IpNumber.ipv6Icmp) ∧
        d.length < icmpHeaderLen :=
    iff_of_false hsome fun h => h.1.elim h1 h58
  rw [classifySegment]
  split
  · next h => exact classifyIcmpWith_eq_none.trans (by simp [h])
  next h1 =>
  split
  · next h => exact hother (by unfold classifyTcp; dsimp only; split_ifs <;> simp) h1 (by rw [h]; decide)
  split
  · next h => exact hother (by unfold classifyUdp; dsimp only; split_ifs <;> simp) h1 (by rw [h]; decide)
  split
  · next h => exact classifyIcmpWith_eq_none.trans (by simp [h])
  · next h58 => exact hother (by simp [classifyUnclassified]) h1 h58

/-- Behind a header of the chain there is enough data for the next one, so only the first can be
    too short. -/
theorem classify_skipHeaders_eq_none (hfuel : d.length < fuel) :
    (skipHeaders fuel d p).bind (Reached.classify sums o ft) = none ↔ d.length < leastLength p := by
  induction fuel generalizing d p with
  | zero => cases hfuel
  | succ fuel ih =>
    -- what follows a header of the given length is long enough
    have hrest {m : Nat} (hm : 8 ≤ m) (hlen : ¬d.length < 1)
        (hok : ¬isOptionLengthError d.length (byteAt d 0) m = true) :
        (skipHeaders fuel (d.drop m) (byteAt d 0)).bind (Reached.classify sums o ft) ≠ none := by
      have hfuel' : (d.drop m).length < fuel := by
        rw [List.length_drop]
        omega
      rw [ne_eq, ih hfuel', List.length_drop]
      rw [isOptionLengthError_iff] at hok
      have hmax := leastLength_le (byteAt d 0)
      by_cases hnext : byteAt d 0 = noNextHeader
      · have hzero : leastLength noNextHeader = 0 := by decide
        rw [hnext, hzero]
        exact Nat.not_lt_zero _
      · have hroom : m + 8 ≤ d.length := Nat.le_of_not_lt fun h => hok (.inr ⟨hnext, h⟩)
        omega
    rw [skipHeaders]
    split
    · next n hn =>
      rw [leastLength_option hn]
      split
      · next hlen => exact ⟨fun _ => hlen, fun _ => rfl⟩
      next hlen =>
      split
      · exact iff_of_false (by simp [Reached.classify, asFirstFragment, Stop.classify]) hlen
      next hok =>
      exact ⟨fun h => absurd h (hrest (optionLength_min hn) (by omega) hok), fun h => absurd h hlen⟩
    next hn =>
    split
    · next hp =>
      subst hp
      split
      · next hlen => exact ⟨fun _ => hlen, fun _ => rfl⟩
      next hlen =>
      split
      · exact iff_of_false (by simp [Reached.classify, asFirstFragment, Stop.classify]) hlen
      next hok =>
      split
      · exact iff_of_false (by simp [Reached.classify, asFirstFragment, Stop.classify]) hlen
      refine ⟨fun h => absurd ?_ (hrest (Nat.le_refl 8) hlen hok), fun h => absurd h hlen⟩
      rw [Option.bind_map] at h
      rw [Option.bind_eq_none_iff] at h ⊢
      intro r hr
      have hclass : Reached.classify sums o ft { r with first := true } = none := h r hr
      exact asFirstFragment_eq_none.mpr (asFirstFragment_eq_none.mp hclass)
    · next hfrag =>
      rw [leastLength_segment hn hfrag, Option.bind_some]
      refine classifySegment_eq_none.trans ?_
      split
      · next h => exact ⟨fun h' => h'.2, fun h' => ⟨h, h'⟩⟩
      · next h => exact ⟨fun h' => absurd h'.1 h, fun h' => absurd h' (Nat.not_lt_zero _)⟩

theorem classifyL3_eq_none_of_ipHeader (h : IpHeader sums o b e more p n) :
    classifyL3 sums o ft b = none ↔ b.length - n < leastLength p := by
  rw [classifyL3_of_ipHeader h, asFirstFragment_eq_none, classify_skipHeaders_eq_none, List.length_drop]
  rw [List.length_drop]
  omega

/-- The classifier panics exactly if the data behind the IP header is too short. -/
theorem classifyL3_panics_iff :
    classifyL3 sums o ft b = none ↔
      ∃ e more p n, IpHeader sums o b e more p n ∧ b.length - n < leastLength p := by
  constructor
  · intro h
    rcases classifyL3_cases sums o b with ⟨res, -, hres⟩ | ⟨e, more, p, n, hip⟩
    · obtain ⟨f, hf⟩ := hres ft
      rw [h] at hf
      cases hf
    · exact ⟨e, more, p, n, hip, (classifyL3_eq_none_of_ipHeader hip).mp h⟩
  · rintro ⟨e, more, p, n, hip, hshort⟩
    exact (classifyL3_eq_none_of_ipHeader hip).mpr hshort

/-- An ICMP packet without data, as in the request of an adapter to bind an address. -/
theorem classifyL3_panics_icmp :
    classifyL3 .internet { ignoreTruncatedPackets := true } .zeroed
      [0x45, 0, 0, 20, 0, 0, 0, 0, 64, 1, 0, 0, 10, 0, 0, 1, 10, 0, 0, 2] = none ∧
    classifyL3 .internet {} .zeroed
      [0x45, 0, 0, 20, 0, 0, 0, 0, 64, 1, 0x66, 0xe7, 10, 0, 0, 1, 10, 0, 0, 2] = none := by
  decide +kernel

/-! ## The five-tuple before -/

/-- What the classifier tells its caller: the result, and the five-tuple of an accepted packet. -/
def visible : FiveTuple × Except String ClassifierResult →
    Except String ClassifierResult × Option FiveTuple
  | (f, .ok .ok) => (.ok .ok, some f)
  | (f, .ok .unclassifiedL4) => (.ok .unclassifiedL4, some f)
  | (_, res) => (res, none)

theorem visible_of_not_accepted {res : Except String ClassifierResult} (h : ¬Accepted res) :
    visible (f, res) = (res, none) := by
  unfold visible
  split
  · next heq => cases heq; exact absurd (.inl rfl) h
  · next heq => cases heq; exact absurd (.inr rfl) h
  · next heq => cases heq; rfl

theorem visible_asFirstFragment (h : c.map visible = c'.map visible) :
    (asFirstFragment first c).map visible = (asFirstFragment first c').map visible := by
  cases first with
  | false => exact h
  | true => cases c <;> cases c' <;> first | rfl | cases h

theorem visible_ite {P : Prop} [Decidable P]
    (h₁ : c₁.map visible = c₁'.map visible) (h₂ : c₂.map visible = c₂'.map visible) :
    (if P then c₁ else c₂).map visible = (if P then c₁' else c₂').map visible := by
  split
  · exact h₁
  · exact h₂

theorem visible_classifySegment (x y x' y' : UInt16) :
    (classifySegment sums o (e.flow q x y) d).map visible =
      (classifySegment sums o (e.flow q x' y') d).map visible := by
  repeat' first | rfl | refine visible_ite ?_ ?_

/-- What the classifier tells does not depend on what was in the five-tuple. -/
theorem classifyL3_independent (sums : Checksums) (o : ClassifierOptions) (ft ft' : FiveTuple)
    (b : Bytes) :
    (classifyL3 sums o ft b).map visible = (classifyL3 sums o ft' b).map visible := by
  rcases classifyL3_cases sums o b with ⟨res, hearly, hres⟩ | ⟨e, more, p, n, hip⟩
  · obtain ⟨f, hf⟩ := hres ft
    obtain ⟨f', hf'⟩ := hres ft'
    rw [hf, hf', Option.map_some, Option.map_some, visible_of_not_accepted hearly.not_accepted,
      visible_of_not_accepted hearly.not_accepted]
  rw [classifyL3_of_ipHeader hip, classifyL3_of_ipHeader hip]
  refine visible_asFirstFragment ?_
  cases skipHeaders (b.length + 1) (b.drop n) p with
  | none => rfl
  | some r =>
    refine visible_asFirstFragment ?_
    cases r.stop with
    | malformed | laterFragment => rfl
    | segment d => exact visible_classifySegment ..

/-! ## What is classified -/

/-- A classified packet is an unfragmented IP packet of the declared length. A chain of extension
    headers leads to a segment of a known protocol inside it, the checksums are right, and the
    five-tuple is that of the packet. -/
theorem headers_of_classifyL3 (h : classifyL3 sums {} ft b = some (f, .ok .ok)) :
    ∃ e p n q k srcPort dstPort, IpHeader sums {} b e false p n ∧ Chain p (b.drop n) q k ∧
      Segment sums {} e q (b.drop (n + k)) srcPort dstPort ∧ f = e.flow q srcPort dstPort := by
  obtain ⟨e, p, n, q, k, hip, hchain, hseg⟩ := headers_of_accepted h (.inl rfl)
  rcases classifySegment_ok hseg with ⟨-, srcPort, dstPort, hsegment, hf⟩ | ⟨⟨⟩, -⟩
  exact ⟨e, p, n, q, k, srcPort, dstPort, hip, hchain, hsegment, hf⟩

/-- A datagram of twelve bytes behind a hop-by-hop header. -/
def sampleHopopt : Bytes :=
  [0x60, 0, 0, 0, 0, 20, 0, 64] ++ List.replicate 16 1 ++ List.replicate 16 2 ++
    [17, 0, 0, 0, 0, 0, 0, 0] ++ [0x1f, 0x90, 0, 53, 0, 12, 0, 0, 1, 2, 3, 4]

def sampleHopoptTuple : FiveTuple :=
  ⟨⟨Vector.replicate 16 1⟩, ⟨Vector.replicate 16 2⟩, .ipv6, IpNumber.udp, 8080, 53⟩

theorem headers_of_sampleHopopt :
    ∃ e p n q k srcPort dstPort, IpHeader .internet {} sampleHopopt e false p n ∧
      Chain p (sampleHopopt.drop n) q k ∧
      Segment .internet {} e q (sampleHopopt.drop (n + k)) srcPort dstPort ∧
      sampleHopoptTuple = e.flow q srcPort dstPort := by
  have hok : classifyL3 .internet {} .zeroed sampleHopopt = some (sampleHopoptTuple, .ok .ok) := by
    decide +kernel
  exact headers_of_classifyL3 hok

/-! ## Truncated packets -/

theorem ClassifierOptions.Fits.le (h : o.Fits actual declared) :
    actual ≤ declared := by
  rcases h with h | h
  · exact h.le
  · exact h.2.le

theorem ClassifierOptions.Fits.of_le (ho : o.ignoreTruncatedPackets = true)
    (h : actual ≤ declared) : o.Fits actual declared := by
  rcases Nat.eq_or_lt_of_le h with h | h
  · exact .inl h
  · exact .inr ⟨ho, h⟩

theorem ClassifierOptions.validates_eq_false (ho : o.ignoreTruncatedPackets = true) :
    o.validates = false := by
  simp [ClassifierOptions.validates, ho]

theorem IpAddress.read_of_isPrefix (h : b' <+: b) (hi : i + 16 ≤ b'.length) :
    IpAddress.read b' i = IpAddress.read b i := by
  refine congrArg IpAddress.mk (congrArg Vector.ofFn (funext fun k => ?_))
  exact byteAt_of_isPrefix h (by omega)

theorem IpAddress.newFromV4_of_isPrefix (h : b' <+: b) (hi : i + 4 ≤ b'.length) :
    IpAddress.newFromV4 b' i = IpAddress.newFromV4 b i := by
  refine congrArg IpAddress.mk (congrArg Vector.ofFn (funext fun k => ?_))
  rw [byteAt_of_isPrefix h (by omega)]

theorem getIpVersion_of_isPrefix (h : b' <+: b) (hlen : 0 < b'.length) :
    getIpVersion b' = getIpVersion b := by
  rw [getIpVersion, getIpVersion, byteAt_of_isPrefix h hlen]

section

variable (h : IpHeader sums o b e more p n)

include h

theorem IpHeader.of_prefix (hpre : b' <+: b) (hlen : n ≤ b'.length)
    (ho : o'.ignoreTruncatedPackets = true) : IpHeader sums o' b' e more p n := by
  have hle := hpre.length_le
  have hvalid := ClassifierOptions.validates_eq_false ho
  cases h with
  | ipv4 hv hn hmin hmax hfits hsum hoff hflag =>
    have h20 : 20 ≤ b'.length := Nat.le_trans hmin hlen
    rw [← getIpVersion_of_isPrefix hpre (by omega)] at hv
    rw [← byteAt_of_isPrefix hpre (by omega)] at hn
    rw [← u16At_of_isPrefix hpre (by omega)] at hfits hoff hflag
    rw [← IpAddress.newFromV4_of_isPrefix hpre (by omega), ← IpAddress.newFromV4_of_isPrefix hpre (by omega),
      ← byteAt_of_isPrefix hpre (by omega)]
    exact .ipv4 hv hn hmin hlen (.of_le ho (hle.trans hfits.le)) (by simp [hvalid]) hoff hflag
  | ipv6 hv hmin hsrc hdst hjumbo hfits =>
    have h40 : 40 ≤ b'.length := hlen
    rw [← getIpVersion_of_isPrefix hpre (by omega)] at hv
    rw [← u16At_of_isPrefix hpre (by omega)] at hfits hjumbo
    rw [← byteAt_of_isPrefix hpre (by omega)] at hjumbo
    rw [← IpAddress.read_of_isPrefix hpre (by omega)] at hsrc hdst
    rw [← IpAddress.read_of_isPrefix hpre (by omega), ← IpAddress.read_of_isPrefix hpre (by omega),
      ← byteAt_of_isPrefix hpre (by omega)]
    exact .ipv6 hv hlen hsrc hdst hjumbo (.of_le ho (le_trans (by omega) hfits.le))

theorem IpHeader.le_of_isPrefix {e' : Endpoints} {more' : Bool} {p' : IpProtocol} {n' : Nat}
    (h' : IpHeader sums o' b' e' more' p' n') (hpre : b' <+: b) :
    n ≤ b'.length := by
  cases h' with
  | ipv4 hv' hn' hmin' hmax' =>
    have h20 : 20 ≤ b'.length := Nat.le_trans hmin' hmax'
    rw [getIpVersion_of_isPrefix hpre (by omega)] at hv'
    rw [byteAt_of_isPrefix hpre (by omega)] at hn'
    cases h with
    | ipv4 _ hn => omega
    | ipv6 hv => rw [hv] at hv'; cases hv'
  | ipv6 hv' hmin' =>
    have h40 : 40 ≤ b'.length := hmin'
    rw [getIpVersion_of_isPrefix hpre (by omega)] at hv'
    cases h with
    | ipv4 hv => rw [hv] at hv'; cases hv'
    | ipv6 => exact h40

theorem IpHeader.not_early (hpre : b' <+: b) :
    ¬Early b' (.ok r) := by
  intro hearly
  cases hearly with
  | nonIp hne h4 h6 =>
    have hpos : 0 < b'.length := by simpa [List.length_pos_iff] using hne
    rw [getIpVersion_of_isPrefix hpre hpos] at h4 h6
    cases h with
    | ipv4 hv => exact h4 hv
    | ipv6 hv => exact h6 hv
  | laterFragment hv' hlen hoff' =>
    have h20 : 20 ≤ b'.length := hlen
    rw [getIpVersion_of_isPrefix hpre (by omega)] at hv'
    rw [u16At_of_isPrefix hpre (by omega)] at hoff'
    cases h with
    | ipv4 _ _ _ _ _ _ hoff => exact hoff' hoff
    | ipv6 hv => rw [hv] at hv'; cases hv'

end

theorem Segment.ports (h : Segment sums o e q d srcPort dstPort) :
    4 ≤ d.length ∧ (srcPort, dstPort) =
      if q = IpNumber.icmp ∨ q = IpNumber.ipv6Icmp then ((byteAt d 0).toUInt16, (byteAt d 1).toUInt16)
      else (u16At d 0, u16At d 2) := by
  cases h with
  | icmp hlen | icmpv6 hlen => exact ⟨hlen, rfl⟩
  | tcp hmin hmax => exact ⟨le_trans (le_trans (by decide) hmin) hmax, rfl⟩
  | udp hlen => exact ⟨le_trans (by decide) hlen, rfl⟩

theorem Segment.ports_of_isPrefix {srcPort' dstPort' : UInt16} (h : Segment sums o e q d srcPort dstPort)
    (h' : Segment sums o' e q d' srcPort' dstPort') (hpre : d' <+: d) :
    srcPort' = srcPort ∧ dstPort' = dstPort := by
  obtain ⟨hlen, hports'⟩ := h'.ports
  rw [byteAt_of_isPrefix hpre (by omega), byteAt_of_isPrefix hpre (by omega),
    u16At_of_isPrefix hpre (by omega), u16At_of_isPrefix hpre (by omega), ← h.ports.2] at hports'
  exact Prod.mk.inj hports'

/-- Where the data offset of a TCP header says that the data starts. -/
def tcpDataOffset (d : Bytes) : Nat := ((byteAt d 12) >>> 4).toNat * 4

section

variable (h : Segment sums o e q d srcPort dstPort)

include h

theorem Segment.of_prefix (hpre : d' <+: d) (ho : o'.ignoreTruncatedPackets = true)
    (hlen : min d.length 8 ≤ d'.length) (htcp : q = IpNumber.tcp → tcpDataOffset d ≤ d'.length) :
    Segment sums o' e q d' srcPort dstPort := by
  have hle := hpre.length_le
  have hvalid := ClassifierOptions.validates_eq_false ho
  have hv {q : IpProtocol} : ValidSegment sums o' e q d' := fun h => by rw [hvalid] at h; cases h
  cases h with
  | icmp hmin =>
    have h4 : 4 ≤ d.length := hmin
    rw [← byteAt_of_isPrefix hpre (by omega), ← byteAt_of_isPrefix hpre (by omega)]
    exact .icmp (show 4 ≤ d'.length by omega) (by simp [hvalid])
  | icmpv6 hmin =>
    have h4 : 4 ≤ d.length := hmin
    rw [← byteAt_of_isPrefix hpre (by omega), ← byteAt_of_isPrefix hpre (by omega)]
    exact .icmpv6 (show 4 ≤ d'.length by omega) hv
  | tcp hmin hmax =>
    have hmax' : ((byteAt d 12) >>> 4).toNat * 4 ≤ d'.length := htcp rfl
    have h20 : 20 ≤ d'.length := le_trans hmin hmax'
    rw [← byteAt_of_isPrefix hpre (by omega)] at hmin hmax'
    rw [← u16At_of_isPrefix hpre (by omega), ← u16At_of_isPrefix hpre (by omega)]
    exact .tcp hmin hmax' hv
  | udp hmin hfits =>
    have h8 : 8 ≤ d.length := hmin
    rw [← u16At_of_isPrefix hpre (by omega)] at hfits
    rw [← u16At_of_isPrefix hpre (by omega), ← u16At_of_isPrefix hpre (by omega)]
    exact .udp (show 8 ≤ d'.length by omega) (.of_le ho (hle.trans hfits.le)) (.inr hv)

theorem Segment.ne_noNextHeader : q ≠ noNextHeader := by
  cases h <;> decide

theorem classifySegment_of_isPrefix (hpre : d' <+: d)
    (hr : classifySegment sums o' (e.flow q x y) d' = some (f, .ok r)) :
    r = .ok ∧ f = e.flow q srcPort dstPort := by
  rcases classifySegment_ok hr with ⟨rfl, srcPort', dstPort', h', rfl⟩ | ⟨-, h1, h6, h17, h58, -⟩
  · obtain ⟨rfl, rfl⟩ := h.ports_of_isPrefix h' hpre
    exact ⟨rfl, rfl⟩
  cases h with
  | icmp => exact absurd rfl h1
  | icmpv6 => exact absurd rfl h58
  | tcp => exact absurd rfl h6
  | udp => exact absurd rfl h17

end

/-- A prefix of a classified packet gives the flow of the packet, if it gives any. It does so if it
    has the headers up to the segment and the first eight bytes of that, or all of it; of a TCP
    segment it must have the whole header. -/
theorem classifyL3_prefix (ft' : FiveTuple) (h : classifyL3 sums {} ft b = some (f, .ok .ok))
    (hpre : b' <+: b) (ho : o.ignoreTruncatedPackets = true) :
    (∀ f' r, classifyL3 sums o ft' b' = some (f', .ok r) → r = .ok ∧ f' = f) ∧
    ∀ e p n q k, IpHeader sums {} b e false p n → Chain p (b.drop n) q k →
      n + k + min (b.length - (n + k)) 8 ≤ b'.length →
      (q = IpNumber.tcp → n + k + tcpDataOffset (b.drop (n + k)) ≤ b'.length) →
      classifyL3 sums o ft' b' = some (f, .ok .ok) := by
  refine ⟨fun f' r hr => ?_, fun e p n q k hip hchain hcover htcp => ?_⟩
  · obtain ⟨e, p, n, q, k, hip, hchain, hseg⟩ := headers_of_accepted h (.inl rfl)
    rcases classifySegment_ok hseg with ⟨-, srcPort, dstPort, hsegment, rfl⟩ | ⟨⟨⟩, -⟩
    rcases classifyL3_cases sums o b' with ⟨res, hearly, hres⟩ | ⟨e', more', p', n', hip'⟩
    · obtain ⟨f'', hf''⟩ := hres ft'
      rw [hr] at hf''
      cases hf''
      exact absurd hearly (hip.not_early hpre)
    · have hlen := hip.le_of_isPrefix hip' hpre
      rcases classifyL3_of_chain (hip.of_prefix hpre hlen ho) hchain (hpre.drop n) with heq | ⟨-, -, hfail⟩
      · rw [heq] at hr
        exact classifySegment_of_isPrefix hsegment (hpre.drop _) hr
      · exact absurd hr (hfail f' r)
  · rcases classifyL3_of_chain hip hchain List.prefix_rfl with heq | ⟨-, -, hfail⟩
    · rw [h] at heq
      rcases classifySegment_ok heq.symm with ⟨-, srcPort, dstPort, hsegment, rfl⟩ | ⟨⟨⟩, -⟩
      rcases classifyL3_of_chain (hip.of_prefix hpre (by omega) ho) hchain (hpre.drop n) with
        heq' | ⟨hk, hshort, -⟩
      · rw [heq']
        refine classifySegment_of_segment (hsegment.of_prefix (hpre.drop _) ho ?_ fun hq => ?_)
        · rw [List.length_drop, List.length_drop]
          omega
        · have := htcp hq
          rw [List.length_drop]
          omega
      · -- behind an extension header the packet has eight bytes, so the prefix has them too
        have hroom := hchain.room hk hsegment.ne_noNextHeader
        rw [List.length_drop] at hroom
        omega
    · exact absurd h (hfail f .ok)

theorem classifyL3_prefix_sampleHopopt :
    (∀ f' r, classifyL3 .internet { ignoreTruncatedPackets := true } .zeroed (sampleHopopt.take 56) =
      some (f', .ok r) → r = .ok ∧ f' = sampleHopoptTuple) ∧
    classifyL3 .internet { ignoreTruncatedPackets := true } .zeroed (sampleHopopt.take 56) =
      some (sampleHopoptTuple, .ok .ok) := by
  have hok : classifyL3 .internet {} .zeroed sampleHopopt = some (sampleHopoptTuple, .ok .ok) := by
    decide +kernel
  have hpre := classifyL3_prefix (o := { ignoreTruncatedPackets := true }) .zeroed hok
    (List.take_prefix 56 sampleHopopt) rfl
  refine ⟨hpre.1, hpre.2 ⟨.ipv6, .read sampleHopopt 8, .read sampleHopopt 24⟩ 0 40 17 8 ?_ ?_ ?_ ?_⟩
  · exact .ipv6 (by decide) (by decide) (by decide +kernel) (by decide +kernel) (by decide) (.inl (by decide))
  · exact .cons (n := 8) (by decide) (by decide) (by decide) (by decide)
      (.nil (fun n => rfl) (by decide))
  · decide
  · intro h
    cases h

end ZprCore.Flow
