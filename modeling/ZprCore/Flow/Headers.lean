-- SUMMARY: The grammar of packets, and the classifier as a walk along it.
import Mathlib.Data.List.Infix
import ZprCore.Flow.Classifier

/-!
# Headers

A packet is an IP header, a chain of extension headers and a transport segment. The relations
below say so for the options the classifier is called with: which lengths are compared and whether
checksums are. The classifier is a walk along the chain (`skipHeaders`), which does not look at the
five-tuple it fills in, followed by a look at the segment.
-/

namespace ZprCore.Flow

open IpNumber

/-- The result of a packet that is passed on. -/
def Accepted (res : Except String ClassifierResult) : Prop :=
  res = .ok .ok ∨ res = .ok .unclassifiedL4

theorem accepted_error {e : String} : ¬Accepted (.error e) := by
  rintro (h | h) <;> cases h

theorem accepted_firstFragment : ¬Accepted (.ok .firstFragment) := by
  rintro (h | h) <;> cases h

/-! ## Extension headers -/

/-- The length of an option header, from its length field. -/
def optionLength (protocol : IpProtocol) (n : Nat) : Option Nat :=
  if protocol = hopopt ∨ protocol = ipv6Route ∨ protocol = ipv6Opts then
    some ((n + 1) * 8)
  else if protocol = ah then some ((n + 2) * 4)
  else none

/-- From data of the first protocol, a chain of option headers leads to a segment of the second
    one at an offset. All of them are inside the data. -/
inductive Chain : IpProtocol → Bytes → IpProtocol → Nat → Prop where
  | nil {p : IpProtocol} {b : Bytes} : (∀ n, optionLength p n = none) → p ≠ ipv6Frag →
      Chain p b p 0
  | cons {p q : IpProtocol} {b : Bytes} {n k : Nat} : 2 ≤ b.length →
      optionLength p (byteAt b 1).toNat = some n → n ≤ b.length →
      (byteAt b 0 ≠ noNextHeader → n + 8 ≤ b.length) → Chain (byteAt b 0) (b.drop n) q k →
      Chain p b q (n + k)

/-- Where the walk along the extension headers stops. -/
inductive Stop where
  | malformed
  | laterFragment
  | segment (data : Bytes)

structure Reached where
  /-- Is this behind the header of a first fragment? -/
  first : Bool
  protocol : IpProtocol
  stop : Stop

def skipHeaders : (fuel : Nat) → Bytes → IpProtocol → Option Reached
  | 0, _, _ => none
  | fuel + 1, b, p =>
    match optionLength p (byteAt b 1).toNat with
    | some n =>
      if b.length < 2 then none
      else if isOptionLengthError b.length (byteAt b 0) n then some ⟨false, p, .malformed⟩
      else skipHeaders fuel (b.drop n) (byteAt b 0)
    | none =>
      if p = ipv6Frag then
        if b.length < 1 then none
        else if isOptionLengthError b.length (byteAt b 0) 8 then some ⟨false, p, .malformed⟩
        else if (u16At b 2).toNat / 8 ≠ 0 then some ⟨false, p, .laterFragment⟩
        else (skipHeaders fuel (b.drop 8) (byteAt b 0)).map fun r => { r with first := true }
      else some ⟨false, p, .segment b⟩

section

variable (sums : Checksums) (o : ClassifierOptions)

/-- The transport protocols the classifier knows. -/
def classifySegment (ft : FiveTuple) (b : Bytes) : Classified :=
  if ft.l4Protocol = icmp then classifyIcmp sums o ft b
  else if ft.l4Protocol = tcp then classifyTcp sums o ft b
  else if ft.l4Protocol = udp then classifyUdp sums o ft b
  else if ft.l4Protocol = ipv6Icmp then classifyIcmpv6 sums o ft b
  else classifyUnclassified ft

def Stop.classify (ft : FiveTuple) : Stop → Classified
  | .malformed => some (ft, .error "Packet length error")
  | .laterFragment => some (ft, .ok .subsequentFragment)
  | .segment data => classifySegment sums o ft data

def asFirstFragment (first : Bool) (c : Classified) : Classified :=
  if first then c.map fun (ft, _) => (ft, .ok .firstFragment) else c

def Reached.classify (ft : FiveTuple) (r : Reached) : Classified :=
  asFirstFragment r.first (r.stop.classify sums o { ft with l4Protocol := r.protocol })

end

variable {sums : Checksums} {o : ClassifierOptions} {ft f : FiveTuple} {b b' d : Bytes}
  {p q : IpProtocol} {res : Except String ClassifierResult} {fuel n k : Nat}
  {remaining i actual declared m : Nat}

theorem optionLength_min (h : optionLength p n = some k) : 8 ≤ k := by
  unfold optionLength at h
  split at h
  · cases h
    omega
  split at h
  · cases h
    omega
  · cases h

theorem optionLength_none (h : optionLength p n = none) (m : Nat) : optionLength p m = none := by
  unfold optionLength at h ⊢
  split at h
  · cases h
  next hp =>
  rw [if_neg hp]
  split at h
  · cases h
  · next hah => rw [if_neg hah]

theorem isOptionLengthError_iff :
    isOptionLengthError remaining p n = true ↔
      remaining < n ∨ p ≠ noNextHeader ∧ remaining < n + 8 := by
  simp [isOptionLengthError]

/-- The classifier walks along the extension headers and then looks at the segment. -/
theorem classifyNextHeader_eq :
    classifyNextHeader sums o fuel ft b p = (skipHeaders fuel b p).bind (Reached.classify sums o ft) := by
  induction fuel generalizing ft b p with
  | zero => rfl
  | succ fuel ih =>
    -- a header is skipped, begins a segment or is that of a fragment
    have hskip (lengthOf : Nat → Nat) (hp : ∀ n, optionLength p n = some (lengthOf n)) :
        (if b.length < 2 then none
          else if isOptionLengthError b.length (byteAt b 0) (lengthOf (byteAt b 1).toNat) then
            some ({ ft with l4Protocol := p }, .error "Packet length error")
          else classifyNextHeader sums o fuel { ft with l4Protocol := p }
            (b.drop (lengthOf (byteAt b 1).toNat)) (byteAt b 0)) =
          (skipHeaders (fuel + 1) b p).bind (Reached.classify sums o ft) := by
      rw [skipHeaders, hp]
      dsimp only
      split
      · rfl
      split
      · rfl
      · exact ih
    have hsegment (hp : ∀ n, optionLength p n = none) (hfrag : p ≠ ipv6Frag) :
        (skipHeaders (fuel + 1) b p).bind (Reached.classify sums o ft) =
          classifySegment sums o { ft with l4Protocol := p } b := by
      rw [skipHeaders, hp]
      rw [if_neg hfrag]
      rfl
    have hfrag :
        (if b.length < 1 then none
          else if isOptionLengthError b.length (byteAt b 0) 8 then
            some ({ ft with l4Protocol := ipv6Frag }, .error "Packet length error")
          else if (u16At b 2).toNat / 8 ≠ 0 then
            some ({ ft with l4Protocol := ipv6Frag }, .ok .subsequentFragment)
          else (classifyNextHeader sums o fuel { ft with l4Protocol := ipv6Frag } (b.drop 8)
            (byteAt b 0)).map fun (ft, _) => (ft, .ok .firstFragment)) =
          (skipHeaders (fuel + 1) b ipv6Frag).bind (Reached.classify sums o ft) := by
      rw [skipHeaders, show optionLength ipv6Frag (byteAt b 1).toNat = none from rfl]
      rw [if_pos rfl]
      split
      · rfl
      split
      · rfl
      split
      · rfl
      rw [ih, Option.bind_map, Option.map_bind]
      refine congrArg _ (funext fun r => ?_)
      cases hfirst : r.first with
      | false => simp [Reached.classify, asFirstFragment, hfirst]
      | true => simp [Reached.classify, asFirstFragment, hfirst, Function.comp_def]
    -- the protocols in the order in which the classifier tries them
    by_cases h0 : p = hopopt
    · exact (if_pos h0).trans (hskip _ fun n => by rw [optionLength, if_pos (.inl h0)])
    refine (if_neg h0).trans ?_
    by_cases h1 : p = icmp
    · subst h1
      exact (hsegment (fun _ => rfl) (by decide)).symm
    refine (if_neg h1).trans ?_
    by_cases h4 : p = ipinip
    · subst h4
      exact (hsegment (fun _ => rfl) (by decide)).symm
    refine (if_neg h4).trans ?_
    by_cases h6 : p = tcp
    · subst h6
      exact (hsegment (fun _ => rfl) (by decide)).symm
    refine (if_neg h6).trans ?_
    by_cases h17 : p = udp
    · subst h17
      exact (hsegment (fun _ => rfl) (by decide)).symm
    refine (if_neg h17).trans ?_
    by_cases h43 : p = ipv6Route
    · exact (if_pos h43).trans (hskip _ fun n => by rw [optionLength, if_pos (.inr (.inl h43))])
    refine (if_neg h43).trans ?_
    by_cases h44 : p = ipv6Frag
    · subst h44
      exact (if_pos rfl).trans hfrag
    refine (if_neg h44).trans ?_
    by_cases h51 : p = ah
    · subst h51
      exact (if_pos rfl).trans (hskip _ fun _ => rfl)
    refine (if_neg h51).trans ?_
    by_cases h58 : p = ipv6Icmp
    · subst h58
      exact (hsegment (fun _ => rfl) (by decide)).symm
    refine (if_neg h58).trans ?_
    by_cases h60 : p = ipv6Opts
    · exact (if_pos h60).trans (hskip _ fun n => by rw [optionLength, if_pos (.inr (.inr h60))])
    refine (if_neg h60).trans ?_
    rw [hsegment (fun n => by simp [optionLength, h0, h43, h60, h51]) h44, classifySegment,
      if_neg h1, if_neg h6, if_neg h17, if_neg h58]

theorem chain_of_skipHeaders (h : skipHeaders fuel b p = some ⟨false, q, .segment d⟩) :
    ∃ k, Chain p b q k ∧ d = b.drop k := by
  induction fuel generalizing b p with
  | zero => cases h
  | succ fuel ih =>
    rw [skipHeaders] at h
    split at h
    · next n hn =>
      split at h
      · cases h
      next hlen =>
      split at h
      · cases h
      next hok =>
      obtain ⟨k, hchain, rfl⟩ := ih h
      rw [isOptionLengthError_iff, not_or, not_and, Nat.not_lt] at hok
      refine ⟨n + k, .cons (Nat.le_of_not_lt hlen) hn hok.1 (fun hne => ?_) hchain, ?_⟩
      · exact Nat.le_of_not_lt (hok.2 hne)
      · rw [List.drop_drop]
    · next hn =>
      split at h
      · -- a fragment is no plain segment
        split at h
        · cases h
        split at h
        · cases h
        split at h
        · cases h
        · obtain ⟨r, -, heq⟩ := Option.map_eq_some_iff.mp h
          cases heq
      · next hfrag =>
        cases h
        exact ⟨0, .nil (optionLength_none hn) hfrag, rfl⟩

theorem byteAt_of_isPrefix (h : b' <+: b) (hi : i < b'.length) : byteAt b' i = byteAt b i := by
  obtain ⟨rest, rfl⟩ := h
  simp [byteAt, List.getElem?_append_left hi]

theorem u16At_of_isPrefix (h : b' <+: b) (hi : i + 1 < b'.length) : u16At b' i = u16At b i := by
  rw [u16At, u16At, byteAt_of_isPrefix h (by omega), byteAt_of_isPrefix h hi]

section

variable (h : Chain p b q k)

include h

/-- On a prefix of the data the walk goes the same way, if the prefix is long enough. -/
theorem skipHeaders_of_chain (hpre : b' <+: b) (hfuel : b'.length < fuel) :
    skipHeaders fuel b' p = some ⟨false, q, .segment (b'.drop k)⟩ ∨
    k ≠ 0 ∧ b'.length < k + 8 ∧
      (skipHeaders fuel b' p = none ∨ ∃ q', skipHeaders fuel b' p = some ⟨false, q', .malformed⟩) := by
  induction h generalizing b' fuel with
  | @nil p b hn hfrag =>
    obtain ⟨fuel, rfl⟩ := Nat.exists_eq_add_one.mpr (Nat.zero_lt_of_lt hfuel)
    left
    rw [skipHeaders, hn]
    rw [if_neg hfrag]
    rfl
  | @cons p q b n k hlen hn hin hnext hchain ih =>
    obtain ⟨fuel, rfl⟩ := Nat.exists_eq_add_one.mpr (Nat.zero_lt_of_lt hfuel)
    have hmin := optionLength_min hn
    by_cases hshort : b'.length < 2
    · refine .inr ⟨by omega, by omega, ?_⟩
      cases hn' : optionLength p (byteAt b' 1).toNat with
      | none => rw [optionLength_none hn'] at hn; cases hn
      | some n' => exact .inl (by simp [skipHeaders, hn', hshort])
    rw [skipHeaders, byteAt_of_isPrefix hpre (show 1 < b'.length by omega),
      byteAt_of_isPrefix hpre (show 0 < b'.length by omega), hn]
    dsimp only
    rw [if_neg hshort]
    by_cases herr : isOptionLengthError b'.length (byteAt b 0) n = true
    · rw [if_pos herr]
      rw [isOptionLengthError_iff] at herr
      exact .inr ⟨by omega, by omega, .inr ⟨p, rfl⟩⟩
    rw [if_neg herr]
    have hfuel' : (b'.drop n).length < fuel := by
      rw [List.length_drop]
      omega
    rcases ih (hpre.drop n) hfuel' with hseg | ⟨-, hlen', hstop⟩
    · exact .inl (by rw [hseg, List.drop_drop])
    · rw [List.length_drop] at hlen'
      exact .inr ⟨by omega, by omega, hstop⟩

theorem Chain.eq_zero (hp : ∀ n, optionLength p n = none) : q = p ∧ k = 0 := by
  cases h with
  | nil => exact ⟨rfl, rfl⟩
  | cons _ hn => rw [hp] at hn; cases hn

theorem Chain.last : (∀ n, optionLength q n = none) ∧ q ≠ ipv6Frag := by
  induction h with
  | nil hn hfrag => exact ⟨hn, hfrag⟩
  | cons _ _ _ _ _ ih => exact ih

theorem Chain.direct (hp : p = q) : k = 0 := (h.eq_zero (hp ▸ h.last.1)).2

/-- Behind an option header there are eight bytes, unless nothing is to follow. -/
theorem Chain.room (hk : k ≠ 0) (hq : q ≠ noNextHeader) : k + 8 ≤ b.length := by
  induction h with
  | nil => exact absurd rfl hk
  | @cons p q b n k hlen hn hin hnext hchain ih =>
    cases hchain with
    | nil => exact hnext hq
    | cons hlen' hn' =>
      have hmin := optionLength_min hn'
      have hroom := ih (by omega) hq
      rw [List.length_drop] at hroom
      omega

end

/-! ## Segments -/

/-- The length of a packet, or of a part of it, is the one declared for it. A truncated packet may
    be shorter. -/
def ClassifierOptions.Fits (o : ClassifierOptions) (actual declared : Nat) : Prop :=
  actual = declared ∨ o.ignoreTruncatedPackets = true ∧ actual < declared

structure Endpoints where
  l3Type : L3Type
  src : IpAddress
  dst : IpAddress

/-- The five-tuple of a flow between these endpoints. -/
def Endpoints.flow (e : Endpoints) (protocol : IpProtocol) (srcPort dstPort : UInt16) : FiveTuple :=
  ⟨e.src, e.dst, e.l3Type, protocol, srcPort, dstPort⟩

section

variable (sums : Checksums) (o : ClassifierOptions)

/-- The checksum of a segment, which covers the pseudo header, is right if it is validated. -/
def ValidSegment (e : Endpoints) (q : IpProtocol) (d : Bytes) : Prop :=
  o.validates = true → sums.validate e.l3Type e.src e.dst q d = true

/-- The data is a segment of the protocol, with these ports (or ICMP type and code). -/
inductive Segment (e : Endpoints) : IpProtocol → Bytes → UInt16 → UInt16 → Prop where
  | icmp {d : Bytes} : icmpHeaderLen ≤ d.length → (o.validates = true → sums.ip4sum d = 0) →
      Segment e icmp d (byteAt d 0).toUInt16 (byteAt d 1).toUInt16
  | icmpv6 {d : Bytes} : icmpHeaderLen ≤ d.length → ValidSegment sums o e ipv6Icmp d →
      Segment e ipv6Icmp d (byteAt d 0).toUInt16 (byteAt d 1).toUInt16
  | tcp {d : Bytes} : tcpHeaderLen ≤ ((byteAt d 12) >>> 4).toNat * 4 →
      ((byteAt d 12) >>> 4).toNat * 4 ≤ d.length → ValidSegment sums o e tcp d →
      Segment e tcp d (u16At d 0) (u16At d 2)
  | udp {d : Bytes} : udpHeaderLen ≤ d.length → o.Fits d.length (u16At d 4).toNat →
      u16At d 6 = 0 ∨ ValidSegment sums o e udp d →
      Segment e udp d (u16At d 0) (u16At d 2)

end

variable {e : Endpoints} {srcPort dstPort x y : UInt16} {r : ClassifierResult} {more : Bool}

theorem not_fits_iff :
    ((!o.ignoreTruncatedPackets) = true ∧ actual < declared) ∨ declared < actual ↔
      ¬o.Fits actual declared := by
  cases h : o.ignoreTruncatedPackets <;> simp only [ClassifierOptions.Fits, h] <;> grind

theorem validSegment_iff :
    ¬(o.validates && !validateInetL4ChecksumWith5t sums (e.flow q x y) d) = true ↔
      ValidSegment sums o e q d := by
  simp [ValidSegment, validateInetL4ChecksumWith5t, Endpoints.flow]

theorem classifySegment_of_segment (h : Segment sums o e q d srcPort dstPort) :
    classifySegment sums o (e.flow q x y) d = some (e.flow q srcPort dstPort, .ok .ok) := by
  cases h with
  | icmp hlen hsum =>
    change classifyIcmp sums o (e.flow icmp x y) d = _
    rw [classifyIcmp, classifyIcmpWith, if_neg (Nat.not_lt.mpr hlen)]
    exact if_neg (by simpa using hsum)
  | icmpv6 hlen hsum =>
    change classifyIcmpv6 sums o (e.flow ipv6Icmp x y) d = _
    rw [classifyIcmpv6, classifyIcmpWith, if_neg (Nat.not_lt.mpr hlen)]
    exact if_neg (validSegment_iff.mpr hsum)
  | tcp hmin hmax hsum =>
    change classifyTcp sums o (e.flow tcp x y) d = _
    rw [classifyTcp, if_neg (Nat.not_lt.mpr (Nat.le_trans hmin hmax)),
      if_neg (validSegment_iff.mpr hsum)]
    exact if_neg (not_or.mpr ⟨Nat.not_lt.mpr hmin, Nat.not_lt.mpr hmax⟩)
  | udp hlen hfits hsum =>
    change classifyUdp sums o (e.flow udp x y) d = _
    have hvalid : ¬(o.validates && u16At d 6 != 0 &&
        !validateInetL4ChecksumWith5t sums (e.flow udp x y) d) = true := by
      rcases hsum with hzero | hsum
      · simp [hzero]
      · have hok := validSegment_iff (x := x) (y := y).mpr hsum
        simp only [Bool.and_eq_true] at hok ⊢
        exact fun h => hok ⟨h.1.1, h.2⟩
    rw [classifyUdp, if_neg (Nat.not_lt.mpr hlen), if_neg hvalid]
    exact if_neg fun h => not_fits_iff.mp h hfits

theorem classifyIcmpWith_ok {valid : FiveTuple → Bool}
    (h : classifyIcmpWith o valid (e.flow q x y) d = some (f, .ok r)) :
    r = .ok ∧ icmpHeaderLen ≤ d.length ∧ ¬(o.validates && !valid f) = true ∧
      f = e.flow q (byteAt d 0).toUInt16 (byteAt d 1).toUInt16 := by
  rw [classifyIcmpWith] at h
  split at h
  · cases h
  next hlen =>
  dsimp only at h
  split at h
  · cases h
  next hsum =>
  cases h
  exact ⟨rfl, Nat.le_of_not_lt hlen, hsum, rfl⟩

theorem classifySegment_ok (h : classifySegment sums o (e.flow q x y) d = some (f, .ok r)) :
    (r = .ok ∧ ∃ srcPort dstPort, Segment sums o e q d srcPort dstPort ∧ f = e.flow q srcPort dstPort) ∨
    (r = .unclassifiedL4 ∧ q ≠ icmp ∧ q ≠ tcp ∧ q ≠ udp ∧
      q ≠ ipv6Icmp ∧ f = e.flow q 0 0) := by
  rw [classifySegment] at h
  split at h
  · next hq =>
    obtain rfl : q = icmp := hq
    obtain ⟨rfl, hlen, hsum, rfl⟩ := classifyIcmpWith_ok h
    exact .inl ⟨rfl, _, _, .icmp hlen (by simpa using hsum), rfl⟩
  split at h
  · next hq =>
    obtain rfl : q = tcp := hq
    rw [classifyTcp] at h
    split at h
    · cases h
    split at h
    · cases h
    next hsum =>
    dsimp only at h
    split at h
    · cases h
    next hoff =>
    cases h
    rw [not_or, Nat.not_lt, Nat.not_lt] at hoff
    exact .inl ⟨rfl, _, _, .tcp hoff.1 hoff.2 (validSegment_iff.mp hsum), rfl⟩
  split at h
  · next hq =>
    obtain rfl : q = udp := hq
    rw [classifyUdp] at h
    split at h
    · cases h
    next hlen =>
    split at h
    · cases h
    next hsum =>
    dsimp only at h
    split at h
    · cases h
    next hfits =>
    cases h
    rw [not_fits_iff, not_not] at hfits
    refine .inl ⟨rfl, _, _, .udp (Nat.le_of_not_lt hlen) hfits ?_, rfl⟩
    by_cases hzero : u16At d 6 = 0
    · exact .inl hzero
    · exact .inr (validSegment_iff.mp (by simpa [hzero] using hsum))
  split at h
  · next hq =>
    obtain rfl : q = ipv6Icmp := hq
    obtain ⟨rfl, hlen, hsum, rfl⟩ := classifyIcmpWith_ok h
    exact .inl ⟨rfl, _, _, .icmpv6 hlen (validSegment_iff.mp hsum), rfl⟩
  next h1 h6 h17 h58 =>
  cases h
  exact .inr ⟨rfl, h1, h6, h17, h58, rfl⟩

/-! ## The IP header -/

section

variable (sums : Checksums) (o : ClassifierOptions)

/-- The packet has an IP header of the given length, with these endpoints and this protocol behind
    it; the flag says that more fragments follow. -/
inductive IpHeader : Bytes → Endpoints → Bool → IpProtocol → Nat → Prop where
  | ipv4 {b : Bytes} {n : Nat} {more : Bool} : getIpVersion b = 4 →
      (byteAt b 0 &&& 0x0F).toNat * 4 = n → ipv4HeaderLen ≤ n → n ≤ b.length →
      o.Fits b.length (u16At b 2).toNat → (o.validates = true → sums.ip4sum (b.take n) = 0) →
      (u16At b 6).toNat % 8192 = 0 → more = decide ((u16At b 6).toNat / 8192 % 2 ≠ 0) →
      IpHeader b ⟨.ipv4, .newFromV4 b 12, .newFromV4 b 16⟩ more (byteAt b 9) n
  | ipv6 {b : Bytes} : getIpVersion b = 6 → ipv6HeaderLen ≤ b.length →
      (IpAddress.read b 8).isV4 = false → (IpAddress.read b 24).isV4 = false →
      ¬((u16At b 4).toNat = 0 ∧ byteAt b 6 = 0) →
      o.Fits (b.length - ipv6HeaderLen) (u16At b 4).toNat →
      IpHeader b ⟨.ipv6, .read b 8, .read b 24⟩ false (byteAt b 6) ipv6HeaderLen

end

/-- A packet whose IP header the classifier does not get past. -/
inductive Early (b : Bytes) : Except String ClassifierResult → Prop where
  | error {e : String} : Early b (.error e)
  | nonIp : ¬b.isEmpty = true → getIpVersion b ≠ 4 → getIpVersion b ≠ 6 → Early b (.ok .nonIp)
  | laterFragment : getIpVersion b = 4 → ipv4HeaderLen ≤ b.length → (u16At b 6).toNat % 8192 ≠ 0 →
      Early b (.ok .subsequentFragment)

def FiveTuple.between (ft : FiveTuple) (e : Endpoints) : FiveTuple :=
  { ft with l3Type := e.l3Type, srcAddress := e.src, dstAddress := e.dst }

theorem ne_nil_of_length (h : m + 1 ≤ b.length) : ¬b.isEmpty = true := by
  cases b with
  | nil => simp at h
  | cons => simp

theorem classifyL3_of_ipHeader (h : IpHeader sums o b e more p n) :
    classifyL3 sums o ft b = asFirstFragment more
      ((skipHeaders (b.length + 1) (b.drop n) p).bind (Reached.classify sums o (ft.between e))) := by
  cases h with
  | ipv4 hv hn hmin hmax hfits hsum hoff hflag =>
    subst hflag
    have hlen : ipv4HeaderLen ≤ b.length := Nat.le_trans hmin hmax
    have hlens : ¬((!o.ignoreTruncatedPackets) = true ∧ b.length < (u16At b 2).toNat ∨
        (u16At b 2).toNat < b.length ∨ b.length < n) := by
      rw [← or_assoc, not_fits_iff]
      exact fun h => h.elim (· hfits) (Nat.not_lt.mpr hmax)
    rw [classifyL3, if_neg (ne_nil_of_length hlen), if_pos hv, classifyIpv4, if_neg (Nat.not_lt.mpr hlen)]
    rw [hn, if_neg (Nat.not_lt.mpr hmin), if_neg (by simp [hmax]), if_neg (by simpa using hsum),
      if_neg (not_not.mpr hoff), if_neg hlens, classifyNextHeader_eq]
    by_cases hmore : (u16At b 6).toNat / 8192 % 2 ≠ 0
    · simp only [if_pos hmore, decide_eq_true hmore]
      rfl
    · simp only [if_neg hmore, decide_eq_false hmore]
      exact Option.map_id'
  | ipv6 hv hlen hsrc hdst hjumbo hfits =>
    have hver : ¬getIpVersion b = 4 := by
      rw [hv]
      decide
    rw [classifyL3, if_neg (ne_nil_of_length hlen), if_neg hver, if_pos hv, classifyIpv6,
      if_neg (Nat.not_lt.mpr hlen)]
    rw [if_neg (by simp [hsrc, hdst]), if_neg hjumbo, if_neg fun h => not_fits_iff.mp h hfits,
      classifyNextHeader_eq]
    rfl

theorem early_error {c : FiveTuple → FiveTuple} {e : String} :
    ∃ res, Early b res ∧ ∀ ft, ∃ f, some (c ft, Except.error e) = some (f, res) :=
  ⟨_, .error, fun ft => ⟨c ft, rfl⟩⟩

theorem classifyL3_cases (sums : Checksums) (o : ClassifierOptions) (b : Bytes) :
    (∃ res, Early b res ∧ ∀ ft, ∃ f, classifyL3 sums o ft b = some (f, res)) ∨
    ∃ e more p n, IpHeader sums o b e more p n := by
  unfold classifyL3
  split
  · exact .inl early_error
  next hne =>
  split
  · next hv =>
    unfold classifyIpv4
    dsimp only
    split
    · exact .inl early_error
    next hlen =>
    split
    · exact .inl early_error
    next hmin =>
    split
    · exact .inl early_error
    split
    · exact .inl early_error
    next hsum =>
    split
    · next hoff => exact .inl ⟨_, .laterFragment hv (Nat.le_of_not_lt hlen) hoff, fun ft => ⟨_, rfl⟩⟩
    next hoff =>
    split
    · exact .inl early_error
    next hlens =>
    rw [← or_assoc, not_fits_iff, not_or, not_not, Nat.not_lt] at hlens
    exact .inr ⟨_, _, _, _, .ipv4 hv rfl (Nat.le_of_not_lt hmin) hlens.2 hlens.1 (by simpa using hsum)
      (not_not.mp hoff) rfl⟩
  split
  · next hv =>
    unfold classifyIpv6
    dsimp only
    split
    · exact .inl early_error
    next hlen =>
    split
    · exact .inl early_error
    next hmapped =>
    split
    · exact .inl early_error
    next hjumbo =>
    split
    · exact .inl early_error
    next hfits =>
    rw [not_fits_iff, not_not] at hfits
    rw [not_or, Bool.not_eq_true, Bool.not_eq_true] at hmapped
    exact .inr ⟨_, _, _, _, .ipv6 hv (Nat.le_of_not_lt hlen) hmapped.1 hmapped.2 hjumbo hfits⟩
  · next h4 h6 => exact .inl ⟨_, .nonIp hne h4 h6, fun ft => ⟨_, rfl⟩⟩

theorem asFirstFragment_accepted {first : Bool} {c : Classified}
    (h : asFirstFragment first c = some (f, res)) (hacc : Accepted res) :
    first = false ∧ c = some (f, res) := by
  cases first with
  | false => exact ⟨rfl, h⟩
  | true =>
    obtain ⟨⟨ft', res'⟩, -, heq⟩ := Option.map_eq_some_iff.mp h
    cases heq
    exact absurd hacc accepted_firstFragment

theorem Early.not_accepted (h : Early b res) : ¬Accepted res := by
  cases h with
  | error => exact accepted_error
  | nonIp | laterFragment => rintro (h | h) <;> cases h

/-- An accepted packet is made of an IP header, a chain of extension headers and a segment. -/
theorem headers_of_accepted (h : classifyL3 sums o ft b = some (f, res)) (hacc : Accepted res) :
    ∃ e p n q k, IpHeader sums o b e false p n ∧ Chain p (b.drop n) q k ∧
      classifySegment sums o (e.flow q ft.srcPort ft.dstPort) (b.drop (n + k)) = some (f, res) := by
  rcases classifyL3_cases sums o b with ⟨res', hearly, hres⟩ | ⟨e, more, p, n, hip⟩
  · obtain ⟨f', hf'⟩ := hres ft
    rw [h] at hf'
    cases hf'
    exact absurd hacc hearly.not_accepted
  rw [classifyL3_of_ipHeader hip] at h
  obtain ⟨rfl, h⟩ := asFirstFragment_accepted h hacc
  obtain ⟨⟨first, q, stop⟩, hskip, h⟩ := Option.bind_eq_some_iff.mp h
  obtain ⟨hfirst, h⟩ := asFirstFragment_accepted h hacc
  cases hfirst
  cases stop with
  | malformed =>
    cases h
    exact absurd hacc accepted_error
  | laterFragment =>
    cases h
    rcases hacc with h | h <;> cases h
  | segment d =>
    obtain ⟨k, hchain, rfl⟩ := chain_of_skipHeaders hskip
    rw [List.drop_drop] at h
    exact ⟨e, p, n, q, k, hip, hchain, h⟩

section

variable (sums : Checksums) (o : ClassifierOptions)

/-- The data is a segment of a protocol that the classifier knows, or of one whose ports it does not
    look for. -/
inductive Carried (e : Endpoints) (q : IpProtocol) (d : Bytes) : UInt16 → UInt16 → Prop where
  | segment {srcPort dstPort : UInt16} : Segment sums o e q d srcPort dstPort →
      Carried e q d srcPort dstPort
  | unclassified : q ≠ icmp → q ≠ tcp → q ≠ udp → q ≠ ipv6Icmp → Carried e q d 0 0

/-- A packet reads as one of a flow. -/
inductive ReadsPacket (b : Bytes) : FiveTuple → Prop where
  | intro {e : Endpoints} {p q : IpProtocol} {n k : Nat} {srcPort dstPort : UInt16} :
      IpHeader sums o b e false p n → Chain p (b.drop n) q k →
      Carried sums o e q (b.drop (n + k)) srcPort dstPort → ReadsPacket b (e.flow q srcPort dstPort)

end

theorem readsPacket_of_classify (h : classifyWithOptions sums o b = some (f, res)) (hacc : Accepted res) :
    ReadsPacket sums o b f := by
  obtain ⟨e, p, n, q, k, hip, hchain, hseg⟩ := headers_of_accepted h hacc
  obtain ⟨r, rfl⟩ : ∃ r, res = .ok r := by
    rcases hacc with rfl | rfl
    all_goals exact ⟨_, rfl⟩
  rcases classifySegment_ok hseg with ⟨-, srcPort, dstPort, hsegment, rfl⟩ | ⟨-, h1, h6, h17, h58, rfl⟩
  · exact .intro hip hchain (.segment hsegment)
  · exact .intro hip hchain (.unclassified h1 h6 h17 h58)

theorem ClassifierOptions.Fits.eq (ho : o.ignoreTruncatedPackets = false)
    (h : o.Fits actual declared) : declared = actual := by
  simpa [ClassifierOptions.Fits, ho, eq_comm] using h

/-- Along a chain of which the packet has a prefix, the classifier comes to the segment, or it
    fails because the prefix is too short. -/
theorem classifyL3_of_chain (hip : IpHeader sums o b e false p n) (hchain : Chain p d q k)
    (hpre : b.drop n <+: d) :
    classifyL3 sums o ft b =
      classifySegment sums o (e.flow q ft.srcPort ft.dstPort) (b.drop (n + k)) ∨
    k ≠ 0 ∧ b.length < n + k + 8 ∧ ∀ f r, classifyL3 sums o ft b ≠ some (f, .ok r) := by
  have hfuel : (b.drop n).length < b.length + 1 := by
    rw [List.length_drop]
    omega
  rw [classifyL3_of_ipHeader hip]
  rcases skipHeaders_of_chain hchain hpre hfuel with hseg | ⟨hk, hlen, hstop⟩
  · rw [hseg, List.drop_drop]
    exact .inl rfl
  rw [List.length_drop] at hlen
  refine .inr ⟨hk, by omega, fun f r h => ?_⟩
  rcases hstop with hstop | ⟨q', hstop⟩
  all_goals
    rw [hstop] at h
    cases h

end ZprCore.Flow
