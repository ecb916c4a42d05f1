-- SUMMARY: Encryption of packets in their buffers, and where it runs out of room.
import ZprCore.Buf.Packet
import ZprCore.Fastpath.Worker

/-!
# Encryption in the buffer

`encrypt_full` and `decrypt_full` have a codec write its result into the tailroom of the packet and
put the ZPI byte in front of it there. If the tailroom is too small for that, the result is written
to the stack and copied over the old body, and this copy is not preceded by any check of the room.
-/

namespace ZprCore.Buf

open ZprCore.Flow (Bytes putU16)
open Fastpath (EncryptionError DropReason PeerTable Cipher KmTransportSA ZdpPacketType
  SubstrateAddr ScopedIpAddr LinkId readBaseHeader linkMac zpi0 zdpPacketMacSize)

/-! ## Codecs -/

inductive DecryptionError where
  | internalError (description : String)
  | messageTooShort
  | parseError
  | decryptFailed
deriving DecidableEq

/-- A function that leaves its result at the start of a buffer it is given. It returns the length of
    the result next to what is in the buffer then. -/
structure Writer (ε : Type) where
  run : Bytes → Bytes → Except ε Nat × Bytes
  length_run : ∀ {x m res out}, run x m = (res, out) → out.length = m.length
  le_of_run : ∀ {x m n out}, run x m = (.ok n, out) → n ≤ m.length

structure Codec where
  maxOverhead : Nat
  encryptTransportStateless : Writer EncryptionError
  decryptTransportStateless : Writer DecryptionError

/-- The result is that of a function, and there is an error where the function has no value and where
    the buffer is too small for it. -/
def Writer.Computes {ε : Type} (f : Writer ε) (g : Bytes → Option Bytes) : Prop :=
  ∀ x m, (∃ y out, g x = some y ∧ y.length ≤ m.length ∧ f.run x m = (.ok y.length, out) ∧
      out.take y.length = y) ∨
    (∀ y, g x = some y → m.length < y.length) ∧ ∃ err out, f.run x m = (.error err, out)

/-- A codec of functions. -/
def Writer.ofFun {ε : Type} (g : Bytes → Option Bytes) (err : ε) : Writer ε where
  run x m :=
    match g x with
    | some y => if m.length < y.length then (.error err, m) else (.ok y.length, overwrite m 0 y)
    | none => (.error err, m)
  length_run := by
    intro x m res out h
    split at h
    · next y _ =>
      split at h
      · cases h; rfl
      · cases h
        rw [overwrite, List.length_append, List.length_append, List.length_take, List.length_drop]
        omega
    · cases h; rfl
  le_of_run := by
    intro x m n out h
    split at h
    · split at h
      · cases h
      · next hle => cases h; exact Nat.le_of_not_lt hle
    · cases h

theorem Writer.computes_ofFun {ε : Type} (g : Bytes → Option Bytes) (err : ε) :
    (Writer.ofFun g err).Computes g := by
  intro x m
  cases hg : g x with
  | none => exact .inr ⟨nofun, err, m, by simp only [ofFun, hg]⟩
  | some y =>
    by_cases hlen : m.length < y.length
    · exact .inr ⟨fun y' hy => by cases hy; exact hlen, err, m, by simp only [ofFun, hg, if_pos hlen]⟩
    · refine .inl ⟨y, overwrite m 0 y, rfl, Nat.le_of_not_lt hlen, by simp only [ofFun, hg, if_neg hlen], ?_⟩
      rw [overwrite, List.take_zero, List.nil_append, List.take_left]

def nullCodec : Codec := ⟨0, .ofFun some .parseError, .ofFun some .parseError⟩

/-- Eight bytes in front and sixteen behind, as a nonce and a tag of Noise. -/
def pad (x : Bytes) : Bytes := List.replicate 8 0 ++ (x ++ List.replicate 16 0)

def unpad (y : Bytes) : Option Bytes :=
  if y.length < 24 then none else some ((y.drop 8).take (y.length - 24))

theorem length_pad (x : Bytes) : (pad x).length = x.length + 24 := by
  simp [pad]

theorem unpad_pad (x : Bytes) : unpad (pad x) = some x := by
  rw [unpad, length_pad, if_neg (by omega), Nat.add_sub_cancel, pad,
    List.drop_left' List.length_replicate, List.take_left]

def paddingCodec : Codec := ⟨24, .ofFun (some ∘ pad) .messageTooLarge, .ofFun unpad .decryptFailed⟩

def packetBufferSize : Nat := 4096 * 3

def scratch : Bytes := List.replicate packetBufferSize 0

/-! ## Encryption and decryption -/

variable {ε : Type} {f : Writer ε} {p q : Packet} {codec : Codec} {b : Bytes}
  {cipher : Cipher Codec}

section

variable (f : Writer ε) (p : Packet)

/-- The result of the codec is written into the tailroom and becomes the body. -/
def inTailroom : Except Panic (Except ε Packet) :=
  match f.run (p.body.drop 1) p.tailroom with
  | (.ok len, out) => ((p.write (p.offset + p.len) out).adoptTailroomWithHeader 1 len).map .ok
  | (.error err, _) => .ok (.error err)

/-- The result of the codec is written to the stack and copied over the body. -/
def byScratch : Except Panic (Except ε Packet) :=
  match f.run (p.body.drop 1) scratch with
  | (.ok len, out) => do
    let p ← p.shrinkBy (p.body.length - 1)
    (p.put (out.take len)).map .ok
  | (.error err, _) => .ok (.error err)

/-- One of the two, by the room that the result of the codec may take. -/
def transform (room : Nat) : Except Panic (Except ε Packet) :=
  if room ≤ p.tailroomAvailable then inTailroom f p else byScratch f p

end

def encryptFull (codec : Codec) (p : Packet) : Except Panic (Except EncryptionError Packet) :=
  if p.body.length < 1 then .ok (.error .parseError)
  else transform codec.encryptTransportStateless p (p.body.length - 1 + codec.maxOverhead)

def decryptFull (codec : Codec) (padlen : Nat) (p : Packet) : Except Panic (Except DropReason Packet) :=
  if p.body.length < 1 then .ok (.error .badStructure)
  else if p.body.length - 1 < padlen then .ok (.error .badStructure)
  else
    (transform codec.decryptTransportStateless p (p.body.length - 1)).map
      (Except.mapError fun _ => .decryptionFailure)

section

variable (cipher : Cipher Codec)

def encryptNull (p : Packet) : Except Panic Packet :=
  let csum := putU16 (cipher.sums.ip4sum (p.body.drop 1))
  p.put (if (p.body.length - 1) % 2 ≠ 0 then csum.reverse else csum)

def encryptHmac (sendHmacKey : Vector UInt8 32) (p : Packet) : Except Panic Packet :=
  p.put (linkMac cipher sendHmacKey p.body)

def transportSa (packetType : ZdpPacketType) (sa : Option (KmTransportSA Codec)) :
    Option (KmTransportSA Codec) :=
  if packetType = .keyManagement then none else sa

def realZpi (packetType : ZdpPacketType) : Option (KmTransportSA Codec) → Except Panic UInt8
  | some sa =>
    let zpi := if packetType = .transitPacket then sa.sendZpis.hmac else sa.sendZpis.encr
    if zpi = zpi0 then .error .assertion else .ok zpi
  | none => .ok zpi0

/-- The encryption that the security association asks for. -/
def encryptWith (packetType : ZdpPacketType) (p : Packet) :
    Option (KmTransportSA Codec) → Except Panic (Except EncryptionError Packet)
  | some sa =>
    if packetType = .transitPacket then (encryptHmac cipher sa.sendHmacKey p).map .ok
    else encryptFull sa.codec p
  | none => (encryptNull cipher p).map .ok

/-- The part of `substrate_egress_common` that writes to the packet; the first write is `encap_zpi`. -/
def protect (packetType : ZdpPacketType) (sa : Option (KmTransportSA Codec)) (p : Packet) :
    Except Panic (Except EncryptionError Packet) := do
  let zpi ← realZpi packetType sa
  let p ← p.pushHeader [zpi]
  encryptWith cipher packetType p sa

def substrateEgressCommon (t : PeerTable Codec) (link : LinkId) (p : Packet) :
    Except Panic (Except EncryptionError (Option (Packet × SubstrateAddr × ScopedIpAddr))) :=
  match readBaseHeader p.body with
  | none => .ok (.error .parseError)
  | some (packetType, _) =>
    match t.get link with
    | none => .ok (.ok none)
    | some peer =>
      (protect cipher packetType (transportSa packetType peer.transportSa) p).map fun res =>
        res.map fun q => some (q, peer.substrateAddr.setFlowinfo (UInt32.ofNat q.ingressStreamId),
          peer.interfaceAddr)

end

/-! ## The two ways -/

section

variable {n room : Nat} {out : Bytes}

variable (hp : p.Valid) (hne : 1 ≤ p.body.length)

include hp hne

theorem inTailroom_spec (hrun : f.run (p.body.drop 1) p.tailroom = (.ok n, out)) :
    ∃ q, inTailroom f p = .ok (.ok q) ∧ q.Valid ∧ q.tailroomAvailable = p.tailroomAvailable - n ∧
      q.body = p.body.take 1 ++ out.take n := by
  obtain ⟨v, rfl⟩ := Parts.exists_packet hp
  have hlen := f.length_run hrun
  have hle := f.le_of_run hrun
  rw [v.tailroom_packet] at hlen hle
  rw [inTailroom, hrun]
  rw [v.body_packet] at hne ⊢
  dsimp only
  rw [v.setTailroom_packet hlen, Parts.adopt_packet (v.setTailroom out hlen) hne (hle.trans_eq hlen.symm)]
  refine ⟨_, rfl, Parts.valid_packet _, ?_, Parts.body_packet _⟩
  rw [Parts.tailroomAvailable_packet, v.tailroomAvailable_packet, ← hlen]
  exact List.length_drop

/-- The copy over the old body goes through exactly if the result is no longer than the old body
    with the tailroom behind it. -/
theorem byScratch_spec (hrun : f.run (p.body.drop 1) scratch = (.ok n, out)) :
    (n ≤ p.body.length - 1 + p.tailroomAvailable → ∃ q, byScratch f p = .ok (.ok q) ∧ q.Valid ∧
      q.tailroomAvailable = p.tailroomAvailable + (p.body.length - 1) - n ∧
      q.body = p.body.take 1 ++ out.take n) ∧
    (p.body.length - 1 + p.tailroomAvailable < n → byScratch f p = .error .noTailroom) := by
  obtain ⟨v, rfl⟩ := Parts.exists_packet hp
  have hlen : (out.take n).length = n := by
    rw [List.length_take, f.length_run hrun]
    exact Nat.min_eq_left (f.le_of_run hrun)
  rw [byScratch, hrun]
  rw [v.body_packet] at hne ⊢
  rw [v.tailroomAvailable_packet]
  rw [v.shrinkBy_packet (Nat.sub_le ..)]
  have htail : (v.shrinkBy (v.body.length - 1)).tailroom.length = v.body.length - 1 + v.tailroom.length := by
    rw [Parts.shrinkBy, List.length_append, List.length_drop]
    omega
  have hzpi : (v.shrinkBy (v.body.length - 1)).body = v.body.take 1 :=
    congrArg (v.body.take ·) (Nat.sub_sub_self hne)
  constructor
  · intro hn
    have hput := Parts.put_packet (v.shrinkBy (v.body.length - 1)) ((hlen.trans_le hn).trans_eq htail.symm)
    refine ⟨_, congrArg (Except.map Except.ok) hput, Parts.valid_packet _, ?_,
      (Parts.body_packet _).trans (congrArg (· ++ out.take n) hzpi)⟩
    rw [Parts.tailroomAvailable_packet, Parts.put, List.length_drop, htail, hlen, Nat.add_comm]
  · intro hn
    exact congrArg (Except.map Except.ok)
      (Parts.put_packet_error _ (htail.trans_lt (hn.trans_eq hlen.symm)))

/-- What can come of either way. The only panic is at the end of the buffer. -/
theorem transform_cases :
    (∃ res, transform f p room = .ok res) ∨
      transform f p room = .error .noTailroom ∧ p.tailroomAvailable < room ∧
        ∃ n out, f.run (p.body.drop 1) scratch = (.ok n, out) ∧
          p.body.length - 1 + p.tailroomAvailable < n := by
  unfold transform
  split
  · cases hrun : f.run (p.body.drop 1) p.tailroom with | mk res out =>
    cases res with
    | error err => exact .inl ⟨.error err, by rw [inTailroom, hrun]⟩
    | ok n =>
      obtain ⟨q, hq, -⟩ := inTailroom_spec hp hne hrun
      exact .inl ⟨_, hq⟩
  · next hroom =>
    cases hrun : f.run (p.body.drop 1) scratch with | mk res out =>
    cases res with
    | error err => exact .inl ⟨.error err, by rw [byScratch, hrun]⟩
    | ok n =>
      obtain ⟨hok, hpanic⟩ := byScratch_spec hp hne hrun
      rcases Nat.lt_or_ge (p.body.length - 1 + p.tailroomAvailable) n with hn | hn
      · exact .inr ⟨hpanic hn, Nat.lt_of_not_le hroom, n, out, rfl, hn⟩
      · obtain ⟨q, hq, -⟩ := hok hn
        exact .inl ⟨_, hq⟩

end

/-- The ciphertext of these bytes fits behind the current position of the body, if it is not written
    into the tailroom. -/
def CiphertextFits (codec : Codec) (p : Packet) (x : Bytes) : Prop :=
  p.tailroomAvailable < x.length + codec.maxOverhead →
    ∀ n out, codec.encryptTransportStateless.run x scratch = (.ok n, out) →
      n ≤ x.length + p.tailroomAvailable

theorem encryptFull_cases (codec : Codec) (hp : p.Valid) (hne : 1 ≤ p.body.length) :
    (∃ res, encryptFull codec p = .ok res) ∧ CiphertextFits codec p (p.body.drop 1) ∨
      encryptFull codec p = .error .noTailroom ∧ ¬ CiphertextFits codec p (p.body.drop 1) := by
  have hlen : (p.body.drop 1).length = p.body.length - 1 := List.length_drop
  rw [encryptFull, if_neg (by omega), CiphertextFits, hlen]
  rcases transform_cases hp hne with ⟨res, h⟩ | ⟨h, hroom, n, out, hrun, hn⟩
  · refine .inl ⟨⟨res, h⟩, fun hroom n out hrun => ?_⟩
    by_contra hn
    rw [transform, if_neg (by omega), (byScratch_spec hp hne hrun).2 (by omega)] at h
    cases h
  · exact .inr ⟨h, fun hfits => absurd (hfits hroom n out hrun) (by omega)⟩

theorem ciphertextFits_iff {enc : Bytes → Bytes} {x : Bytes}
    (henc : codec.encryptTransportStateless.Computes (some ∘ enc)) :
    CiphertextFits codec p x ↔
      (p.tailroomAvailable < x.length + codec.maxOverhead → (enc x).length ≤ packetBufferSize →
        (enc x).length ≤ x.length + p.tailroomAvailable) := by
  have hscratch : scratch.length = packetBufferSize := List.length_replicate
  refine forall_congr' fun hroom => ?_
  rcases henc x scratch with ⟨y, out, hy, hlen, hrun, -⟩ | ⟨hbig, err, out, hrun⟩
  · cases hy
    refine ⟨fun h _ => h _ out hrun, fun h n out' hrun' => ?_⟩
    cases hrun.symm.trans hrun'
    exact h (hscratch ▸ hlen)
  · refine iff_of_true (fun n out' hrun' => ?_) fun h => ?_
    · cases hrun.symm.trans hrun'
    · exact absurd (hbig _ rfl) (by omega)

/-! ## The round trip -/

section

variable {g : Bytes → Option Bytes} {p₁ : Packet} {y : Bytes}

def roomFor (p : Packet) (room : Nat) : Nat :=
  if room ≤ p.tailroomAvailable then p.tailroomAvailable
  else min packetBufferSize (p.body.length - 1 + p.tailroomAvailable)

theorem Packet.length_tailroom (p : Packet) : p.tailroom.length = p.tailroomAvailable := List.length_drop

section

variable (hf : f.Computes g) (hp : p.Valid) (hne : 1 ≤ p.body.length) (hy : g (p.body.drop 1) = some y)

include hf hp hne hy

theorem inTailroom_body (h : inTailroom f p = .ok (.ok p₁)) :
    y.length ≤ p.tailroomAvailable ∧ p₁.body = p.body.take 1 ++ y := by
  rcases hf (p.body.drop 1) p.tailroom with ⟨y', out, hy', hlen, hrun, htake⟩ | ⟨-, err, out, hrun⟩
  · cases hy.symm.trans hy'
    obtain ⟨q, hq, -, -, hbody⟩ := inTailroom_spec hp hne hrun
    cases h.symm.trans hq
    exact ⟨p.length_tailroom ▸ hlen, htake ▸ hbody⟩
  · rw [inTailroom, hrun] at h
    cases h

theorem byScratch_body (h : byScratch f p = .ok (.ok p₁)) :
    y.length ≤ min packetBufferSize (p.body.length - 1 + p.tailroomAvailable) ∧
      p₁.body = p.body.take 1 ++ y := by
  rcases hf (p.body.drop 1) scratch with ⟨y', out, hy', hlen, hrun, htake⟩ | ⟨-, err, out, hrun⟩
  · cases hy.symm.trans hy'
    obtain ⟨hok, hpanic⟩ := byScratch_spec hp hne hrun
    rcases Nat.lt_or_ge (p.body.length - 1 + p.tailroomAvailable) y.length with hlt | hle
    · cases h.symm.trans (hpanic hlt)
    obtain ⟨q, hq, -, -, hbody⟩ := hok hle
    cases h.symm.trans hq
    rw [scratch, List.length_replicate] at hlen
    exact ⟨le_min hlen hle, htake ▸ hbody⟩
  · rw [byScratch, hrun] at h
    cases h

theorem transform_eq_ok_iff (room : Nat) :
    (∃ q, transform f p room = .ok (.ok q) ∧ q.body = p.body.take 1 ++ y) ↔
      y.length ≤ roomFor p room := by
  unfold transform roomFor
  split
  · refine ⟨fun ⟨q, hq, _⟩ => (inTailroom_body hf hp hne hy hq).1, fun hle => ?_⟩
    rw [← p.length_tailroom] at hle
    rcases hf (p.body.drop 1) p.tailroom with ⟨y', out, hy', -, hrun, htake⟩ | ⟨hbig, -⟩
    · cases hy.symm.trans hy'
      obtain ⟨q, hq, -, -, hbody⟩ := inTailroom_spec hp hne hrun
      exact ⟨q, hq, htake ▸ hbody⟩
    · exact absurd hle (Nat.not_le.mpr (hbig y hy))
  · refine ⟨fun ⟨q, hq, _⟩ => (byScratch_body hf hp hne hy hq).1, fun hle => ?_⟩
    obtain ⟨hsize, hroom⟩ := Nat.le_min.mp hle
    rcases hf (p.body.drop 1) scratch with ⟨y', out, hy', -, hrun, htake⟩ | ⟨hbig, -⟩
    · cases hy.symm.trans hy'
      obtain ⟨q, hq, -, -, hbody⟩ := (byScratch_spec hp hne hrun).1 hroom
      exact ⟨q, hq, htake ▸ hbody⟩
    · have hlt := hbig y hy
      rw [scratch, List.length_replicate] at hlt
      exact absurd hsize (Nat.not_le.mpr hlt)

end

end

section

variable {sender receiver : Codec} {enc : Bytes → Bytes} {dec : Bytes → Option Bytes} {padlen : Nat}
  {zpi : UInt8} {x : Bytes}

theorem encryptFull_eq_ok_iff (henc : sender.encryptTransportStateless.Computes (some ∘ enc))
    (hp : p.Valid) (hbody : p.body = zpi :: x) :
    (∃ p', encryptFull sender p = .ok (.ok p') ∧ p'.body = zpi :: enc x) ↔
      (enc x).length ≤ roomFor p (x.length + sender.maxOverhead) := by
  have hne : 1 ≤ p.body.length := by simp [hbody]
  have hiff := transform_eq_ok_iff henc hp hne rfl (x.length + sender.maxOverhead)
  rw [hbody] at hiff
  rw [encryptFull, if_neg (by omega), hbody]
  exact hiff

theorem decryptFull_eq_ok_iff (hdec : receiver.decryptTransportStateless.Computes dec)
    (hq : q.Valid) {y : Bytes} (hbody : q.body = zpi :: y) (hx : dec y = some x) :
    (∃ q', decryptFull receiver padlen q = .ok (.ok q') ∧ q'.body = zpi :: x) ↔
      padlen ≤ y.length ∧ x.length ≤ roomFor q y.length := by
  have hne : 1 ≤ q.body.length := by simp [hbody]
  have hdrop : q.body.drop 1 = y := by rw [hbody]; rfl
  have hlen : q.body.length - 1 = y.length := by rw [hbody]; rfl
  have hiff := transform_eq_ok_iff hdec hq hne (hdrop ▸ hx) y.length
  have htake : q.body.take 1 ++ x = zpi :: x := by rw [hbody]; rfl
  rw [htake] at hiff
  rw [decryptFull, if_neg (by omega), hlen]
  split
  · next hpad => exact ⟨nofun, fun h => absurd h.1 (by omega)⟩
  next hpad =>
  rw [← hiff, and_iff_right (by omega)]
  cases transform receiver.decryptTransportStateless q y.length with
  | error panic => exact ⟨nofun, nofun⟩
  | ok res =>
    cases res with
    | error err => exact ⟨nofun, nofun⟩
    | ok q' => exact ⟨fun ⟨_, h, hb⟩ => by cases h; exact ⟨q', rfl, hb⟩,
        fun ⟨_, h, hb⟩ => by cases h; exact ⟨q', rfl, hb⟩⟩

/-- A packet comes back from encryption and decryption exactly if there is room for it on both
    sides, and where both ways are open, they lead to the same bytes. -/
theorem link_encryption (henc : sender.encryptTransportStateless.Computes (some ∘ enc))
    (hdec : receiver.decryptTransportStateless.Computes dec) (hinv : ∀ x, dec (enc x) = some x)
    (hp : p.Valid) (hbody : p.body = zpi :: x) (hq : q.Valid) (hrecv : q.body = zpi :: enc x) :
    ((∃ p', encryptFull sender p = .ok (.ok p') ∧ p'.body = q.body ∧
        ∃ q', decryptFull receiver padlen q = .ok (.ok q') ∧ q'.body = p.body) ↔
      (enc x).length ≤ roomFor p (x.length + sender.maxOverhead) ∧
        padlen ≤ (enc x).length ∧ x.length ≤ roomFor q (enc x).length) ∧
    (∀ p₁ p₂, inTailroom sender.encryptTransportStateless p = .ok (.ok p₁) →
      byScratch sender.encryptTransportStateless p = .ok (.ok p₂) → p₁.body = p₂.body) ∧
    ∀ q₁ q₂, inTailroom receiver.decryptTransportStateless q = .ok (.ok q₁) →
      byScratch receiver.decryptTransportStateless q = .ok (.ok q₂) → q₁.body = q₂.body := by
  have hne : 1 ≤ p.body.length := by simp [hbody]
  have hne' : 1 ≤ q.body.length := by simp [hrecv]
  have hy : dec (q.body.drop 1) = some x := by
    rw [hrecv]
    exact hinv x
  refine ⟨?_, fun p₁ p₂ h₁ h₂ => ?_, fun q₁ q₂ h₁ h₂ => ?_⟩
  · rw [← encryptFull_eq_ok_iff henc hp hbody, ← decryptFull_eq_ok_iff hdec hq hrecv (hinv x), hrecv, hbody]
    exact ⟨fun ⟨p', h, hb, h'⟩ => ⟨⟨p', h, hb⟩, h'⟩, fun ⟨⟨p', h, hb⟩, h'⟩ => ⟨p', h, hb, h'⟩⟩
  · exact (inTailroom_body henc hp hne rfl h₁).2.trans (byScratch_body henc hp hne rfl h₂).2.symm
  · exact (inTailroom_body hdec hq hne' hy h₁).2.trans (byScratch_body hdec hq hne' hy h₂).2.symm

def sampleParts : Parts := ⟨List.replicate 64 0, [0], [6, 1, 2], [], rfl, by decide⟩

theorem link_encryption_null :
    ∃ p', encryptFull nullCodec sampleParts.packet = .ok (.ok p') ∧ p'.body = sampleParts.packet.body ∧
      ∃ q', decryptFull nullCodec 0 sampleParts.packet = .ok (.ok q') ∧
        q'.body = sampleParts.packet.body := by
  have hbody := sampleParts.body_packet
  have hvalid := sampleParts.valid_packet
  have henc : nullCodec.encryptTransportStateless.Computes (some ∘ id) := Writer.computes_ofFun _ _
  refine (link_encryption henc (Writer.computes_ofFun _ _) (fun _ => rfl) hvalid hbody hvalid
    hbody).1.mpr ?_
  decide

/-- The codec is a lawful one, and the packet is not encrypted for lack of room. -/
theorem encryption_overflow :
    paddingCodec.encryptTransportStateless.Computes (some ∘ pad) ∧
      paddingCodec.decryptTransportStateless.Computes unpad ∧ (∀ x, unpad (pad x) = some x) ∧
      (∀ x, (pad x).length ≤ x.length + paddingCodec.maxOverhead) ∧
      sampleParts.packet.Valid ∧ sampleParts.packet.body = [6, 1, 2] ∧
      encryptFull paddingCodec sampleParts.packet = .error .noTailroom := by
  have henc : paddingCodec.encryptTransportStateless.Computes (some ∘ pad) := Writer.computes_ofFun _ _
  have hvalid := sampleParts.valid_packet
  refine ⟨henc, Writer.computes_ofFun _ _, unpad_pad, fun x => (length_pad x).le, hvalid,
    sampleParts.body_packet, ?_⟩
  rcases encryptFull_cases paddingCodec hvalid (by rw [sampleParts.body_packet]; decide) with
    ⟨-, hfits⟩ | ⟨h, -⟩
  · rw [ciphertextFits_iff henc, sampleParts.body_packet, sampleParts.tailroomAvailable_packet] at hfits
    exact absurd hfits (by decide)
  · exact h

end

/-! ## The packet without its buffer -/

def Packet.abs (p : Packet) : Fastpath.Packet := ⟨p.body, p.tailroomAvailable⟩

theorem Packet.body_abs (p : Packet) : p.abs.body = p.body := rfl

theorem Packet.tailroom_abs (p : Packet) : p.abs.tailroom = p.tailroomAvailable := rfl

theorem Packet.Valid.pushHeader (hp : p.Valid) (h : b.length ≤ p.headroomAvailable) :
    ∃ q, p.pushHeader b = .ok q ∧ q.Valid ∧ q.body = b ++ p.body ∧
      q.tailroomAvailable = p.tailroomAvailable := by
  obtain ⟨v, rfl⟩ := Parts.exists_packet hp
  rw [v.headroomAvailable_packet] at h
  refine ⟨_, v.pushHeader_packet h, Parts.valid_packet _, ?_, ?_⟩
  · rw [Parts.body_packet, v.body_packet]
    rfl
  · rw [Parts.tailroomAvailable_packet, v.tailroomAvailable_packet]
    rfl

/-- The codec gives the answer that the worker is said to get. -/
def Answers (f : Writer EncryptionError) (x m : Bytes) : Except EncryptionError Bytes → Prop
  | .ok y => ∃ out, f.run x m = (.ok y.length, out) ∧ out.take y.length = y
  | .error err => ∃ out, f.run x m = (.error err, out)

/-- Where the codec writes to. -/
def writtenTo (codec : Codec) (p : Packet) : Bytes :=
  if p.body.length - 1 + codec.maxOverhead ≤ p.tailroomAvailable then p.tailroom else scratch

section

variable {r : Fastpath.Reads Codec}

theorem put_refines (hp : p.Valid) : (p.put b).toOption.map Packet.abs = p.abs.put b := by
  obtain ⟨v, rfl⟩ := Parts.exists_packet hp
  unfold Packet.abs Fastpath.Packet.put
  rw [v.body_packet, v.tailroomAvailable_packet]
  split
  · next h => rw [v.put_packet_error h]; rfl
  next h =>
  rw [v.put_packet (Nat.le_of_not_lt h)]
  change some (Fastpath.Packet.mk _ _) = _
  rw [Parts.body_packet, Parts.tailroomAvailable_packet, Parts.put, List.length_drop]

theorem encryptFull_refines (hp : p.Valid) (hover : r.maxOverhead codec = codec.maxOverhead)
    (hans : Answers codec.encryptTransportStateless (p.body.drop 1) (writtenTo codec p)
      (r.encryptTransport codec (p.body.drop 1))) :
    (encryptFull codec p).toOption.map (Except.map Packet.abs) =
      Fastpath.FastpathWorker.encryptFull r codec p.abs := by
  unfold encryptFull Fastpath.FastpathWorker.encryptFull
  simp only [Packet.body_abs, Packet.tailroom_abs, hover]
  split
  · rfl
  next hne =>
  replace hne : 1 ≤ p.body.length := Nat.le_of_not_lt hne
  unfold writtenTo at hans
  -- the ciphertext goes into the tailroom, or through a scratch buffer
  cases hres : r.encryptTransport codec (p.body.drop 1) with
  | error err =>
    rw [hres] at hans
    obtain ⟨out, hrun⟩ := hans
    unfold transform
    split at hrun
    · rw [inTailroom, hrun, if_pos ‹_›]; rfl
    · rw [byScratch, hrun, if_neg ‹_›]; rfl
  | ok y =>
    rw [hres] at hans
    obtain ⟨out, hrun, htake⟩ := hans
    dsimp only
    unfold transform
    split at hrun
    · next hroom =>
      obtain ⟨q, hq, -, htail, hbody⟩ := inTailroom_spec hp hne hrun
      rw [if_pos hroom, hq, if_pos hroom]
      change some (Except.ok (Fastpath.Packet.mk q.body q.tailroomAvailable)) = _
      rw [htail, hbody, htake]
    · next hroom =>
      obtain ⟨hok, hpanic⟩ := byScratch_spec hp hne hrun
      rw [if_neg hroom, if_neg hroom, Fastpath.Packet.put]
      split
      · next hlt => rw [hpanic (Nat.add_comm .. ▸ hlt)]; rfl
      next hle =>
      obtain ⟨q, hq, -, htail, hbody⟩ := hok (Nat.add_comm .. ▸ Nat.le_of_not_lt hle)
      rw [hq]
      change some (Except.ok (Fastpath.Packet.mk q.body q.tailroomAvailable)) = _
      rw [htail, hbody, htake]
      rfl

/-- What goes out in the buffer is what goes out without it, whatever the type of the packet. -/
theorem protect_refines {packetType : ZdpPacketType} {sa : Option (KmTransportSA Codec)}
    (hp : p.Valid) (hhead : 1 ≤ p.headroomAvailable)
    (hover : ∀ codec, r.maxOverhead codec = codec.maxOverhead)
    (hans : ∀ zpi q codec, p.pushHeader [zpi] = .ok q →
      Answers codec.encryptTransportStateless p.body (writtenTo codec q) (r.encryptTransport codec p.body)) :
    (protect cipher packetType (transportSa packetType sa) p).toOption.map (Except.map Packet.abs) =
      Fastpath.FastpathWorker.encrypt cipher r packetType sa p.abs := by
  have hput {q : Packet} {b : Bytes} (hq : q.Valid) :
      ((q.put b).map (.ok : _ → Except EncryptionError _)).toOption.map (Except.map Packet.abs) =
        (q.abs.put b).map .ok := by
    rw [← put_refines hq]
    cases q.put b <;> rfl
  have hpushed (zpi : UInt8) : ∃ q, p.pushHeader [zpi] = .ok q ∧ q.Valid ∧ q.body = zpi :: p.body ∧
      q.abs = ⟨zpi :: p.body, p.tailroomAvailable⟩ := by
    obtain ⟨q, hpush, hq, hbody, htail⟩ := hp.pushHeader (b := [zpi]) hhead
    exact ⟨q, hpush, hq, hbody, congrArg₂ Fastpath.Packet.mk hbody htail⟩
  unfold Fastpath.FastpathWorker.encrypt protect transportSa
  simp only [Packet.body_abs, Packet.tailroom_abs]
  generalize (if packetType = .keyManagement then none else sa) = sa
  cases sa with
  | none =>
    obtain ⟨q, hpush, hq, hbody, habs⟩ := hpushed zpi0
    simp only [realZpi, bind, Except.bind, hpush, encryptWith, encryptNull, hput hq]
    rw [habs, hbody]
    rfl
  | some sa =>
    by_cases htransit : packetType = .transitPacket
    · simp only [realZpi, if_pos htransit, Fastpath.encryptTransit]
      split
      · rfl
      obtain ⟨q, hpush, hq, hbody, habs⟩ := hpushed sa.sendZpis.hmac
      simp only [bind, Except.bind, hpush, encryptWith, if_pos htransit, encryptHmac, hput hq]
      rw [habs, hbody]
      rfl
    · simp only [realZpi, if_neg htransit]
      split
      · rfl
      obtain ⟨q, hpush, hq, hbody, habs⟩ := hpushed sa.sendZpis.encr
      have hdrop : q.body.drop 1 = p.body := by rw [hbody]; rfl
      simp only [bind, Except.bind, hpush, encryptWith, if_neg htransit]
      rw [encryptFull_refines hq (hover _) (by rw [hdrop]; exact hans _ q _ hpush), habs]

end

/-! ## Room -/

section

variable {t : PeerTable Codec} {link : LinkId} {packetType : ZdpPacketType}
  {sa : Option (KmTransportSA Codec)}

/-- What is put behind the body fits there. -/
def EgressFits (packetType : ZdpPacketType) (p : Packet) :
    Option (KmTransportSA Codec) → Prop
  | some sa =>
    if packetType = .transitPacket then zdpPacketMacSize ≤ p.tailroomAvailable
    else CiphertextFits sa.codec p p.body
  | none => 2 ≤ p.tailroomAvailable

theorem map_put_eq_error_iff {α : Type} {g : Packet → α} :
    (p.put b).map g = .error .noTailroom ↔ ¬ b.length ≤ p.tailroomAvailable := by
  rw [Packet.put]
  split
  · next h => exact iff_of_true rfl (Nat.not_le.mpr h)
  · next h => exact iff_of_false (by rintro ⟨⟩) (not_not.mpr (Nat.le_of_not_lt h))

/-- The ZPI byte is in front of the body already, and the tailroom is what it was before. -/
theorem encryptWith_eq_error_iff {zpi : UInt8} (hq : q.Valid) (hbody : q.body = zpi :: p.body)
    (htail : q.tailroomAvailable = p.tailroomAvailable) :
    encryptWith cipher packetType q sa = .error .noTailroom ↔ ¬ EgressFits packetType p sa := by
  cases sa with
  | none =>
    rw [encryptWith, encryptNull, map_put_eq_error_iff, EgressFits, htail]
    split <;> rfl
  | some sa =>
    rw [encryptWith, EgressFits]
    by_cases htransit : packetType = .transitPacket
    · rw [if_pos htransit, if_pos htransit, encryptHmac, map_put_eq_error_iff, Fastpath.length_linkMac,
        htail]
    rw [if_neg htransit, if_neg htransit]
    have hdrop : q.body.drop 1 = p.body := by rw [hbody]; rfl
    have hfits : CiphertextFits sa.codec q (q.body.drop 1) ↔
        CiphertextFits sa.codec p p.body := by
      rw [CiphertextFits, CiphertextFits, hdrop, htail]
    rw [← hfits]
    rcases encryptFull_cases sa.codec hq (by simp [hbody]) with ⟨⟨res, h⟩, hfit⟩ | ⟨h, hfit⟩
    · exact iff_of_false (by rw [h]; nofun) (not_not.mpr hfit)
    · exact iff_of_true h hfit

theorem realZpi_eq_error {panic : Panic} (h : realZpi packetType sa = .error panic) :
    panic = .assertion := by
  cases sa with
  | none => cases h
  | some sa =>
    rw [realZpi] at h
    split at h <;> split at h <;> cases h <;> rfl

theorem protect_eq_error_iff (hp : p.Valid) :
    protect cipher packetType sa p = .error .noTailroom ↔
      (∃ zpi, realZpi packetType sa = .ok zpi) ∧ 1 ≤ p.headroomAvailable ∧
        ¬ EgressFits packetType p sa := by
  unfold protect
  cases hzpi : realZpi packetType sa with
  | error panic =>
    cases realZpi_eq_error hzpi
    exact iff_of_false nofun nofun
  | ok zpi =>
    change p.pushHeader [zpi] >>= (encryptWith cipher packetType · sa) = .error .noTailroom ↔ _
    rcases Nat.lt_or_ge p.headroomAvailable 1 with hlt | hhead
    · rw [show p.pushHeader [zpi] = .error .assertion from if_pos hlt]
      exact iff_of_false nofun (fun h => absurd h.2.1 (by omega))
    obtain ⟨q, hpush, hq, hbody, htail⟩ := hp.pushHeader (b := [zpi]) hhead
    rw [hpush]
    exact (encryptWith_eq_error_iff hq hbody htail).trans
      ⟨fun h => ⟨⟨zpi, rfl⟩, hhead, h⟩, fun h => h.2.2⟩

theorem substrateEgressCommon_eq_error_iff (hp : p.Valid) :
    substrateEgressCommon cipher t link p = .error .noTailroom ↔
      ∃ packetType rest peer zpi, readBaseHeader p.body = some (packetType, rest) ∧
        t.get link = some peer ∧
        realZpi packetType (transportSa packetType peer.transportSa) = .ok zpi ∧
        1 ≤ p.headroomAvailable ∧ ¬ EgressFits packetType p (transportSa packetType peer.transportSa) := by
  unfold substrateEgressCommon
  cases hbase : readBaseHeader p.body with
  | none => exact iff_of_false nofun nofun
  | some base =>
  obtain ⟨packetType, rest⟩ := base
  cases hpeer : t.get link with
  | none => exact iff_of_false nofun nofun
  | some peer =>
  dsimp only
  constructor
  · intro h
    cases hres : protect cipher packetType (transportSa packetType peer.transportSa) p with
    | ok res =>
      rw [hres] at h
      cases h
    | error panic =>
      rw [hres] at h
      cases h
      obtain ⟨⟨zpi, hzpi⟩, hrest⟩ := (protect_eq_error_iff hp).mp hres
      exact ⟨packetType, rest, peer, zpi, rfl, rfl, hzpi, hrest⟩
  · rintro ⟨_, _, _, zpi, hbase', hpeer', hzpi, hrest⟩
    cases hbase'
    cases hpeer'
    rw [(protect_eq_error_iff hp).mpr ⟨⟨zpi, hzpi⟩, hrest⟩]
    rfl

/-- Encryption fails cleanly or succeeds exactly if what it puts behind the body fits there. -/
theorem egress_room (codec : Codec) (cipher : Cipher Codec) (t : PeerTable Codec)
    (link : LinkId) (hp : p.Valid) :
    ((∃ res, encryptFull codec p = .ok res) ↔
      (1 ≤ p.body.length → CiphertextFits codec p (p.body.drop 1))) ∧
    (substrateEgressCommon cipher t link p ≠ .error .noTailroom ↔
      ∀ packetType rest peer zpi, readBaseHeader p.body = some (packetType, rest) →
        t.get link = some peer →
        realZpi packetType (transportSa packetType peer.transportSa) = .ok zpi →
        1 ≤ p.headroomAvailable → EgressFits packetType p (transportSa packetType peer.transportSa)) := by
  constructor
  · rcases Nat.lt_or_ge p.body.length 1 with hlt | hne
    · exact iff_of_true ⟨_, if_pos hlt⟩ (fun h => absurd h (by omega))
    · rcases encryptFull_cases codec hp hne with ⟨hres, hfit⟩ | ⟨h, hfit⟩
      · exact iff_of_true hres (fun _ => hfit)
      · exact iff_of_false (by rw [h]; nofun) (fun h => hfit (h hne))
  · rw [ne_eq, substrateEgressCommon_eq_error_iff hp]
    push Not
    rfl

end

def sampleCipher : Cipher Codec :=
  ⟨fun _ _ => Vector.replicate 32 0, fun _ _ => none, .internet, .noise⟩

def sampleTable (sa : Option (KmTransportSA Codec)) : PeerTable Codec where
  peerSlab := (∅ : Table LinkId _).insert 2
    ⟨Fastpath.sampleNodeAddr, Fastpath.sampleSelfAddr, .adapterToNode, ∅, sa⟩
  saToLink := ∅

def sampleSa : KmTransportSA Codec :=
  ⟨1, ⟨5, 6⟩, ⟨5, 6⟩, Vector.replicate 32 0, Vector.replicate 32 0, paddingCodec, none⟩

/-- A transit packet with room in front of it and behind it. -/
def roomyParts : Parts :=
  ⟨List.replicate 64 0, [0], [ZdpPacketType.transitPacket, 0, 7], List.replicate 32 0, rfl, by decide⟩

theorem egress_room_transit :
    (∃ res, encryptFull paddingCodec roomyParts.packet = .ok res) ∧
      substrateEgressCommon sampleCipher (sampleTable (some sampleSa)) 2 roomyParts.packet ≠
        .error .noTailroom := by
  have henc : paddingCodec.encryptTransportStateless.Computes (some ∘ pad) := Writer.computes_ofFun _ _
  have htail : roomyParts.packet.tailroomAvailable = 32 := roomyParts.tailroomAvailable_packet
  obtain ⟨hfull, hegress⟩ := egress_room paddingCodec sampleCipher (sampleTable (some sampleSa)) 2
    roomyParts.valid_packet
  refine ⟨hfull.mpr fun _ => (ciphertextFits_iff henc).mpr ?_, hegress.mpr ?_⟩
  · rw [roomyParts.body_packet, htail]
    decide
  intro packetType rest peer zpi hbase hpeer hzpi hhead
  rw [roomyParts.body_packet] at hbase
  cases hbase
  cases hpeer
  change zdpPacketMacSize ≤ _
  rw [htail]
  decide

/-- A packet that takes all of a buffer behind the headroom of a message. -/
def fullParts : Parts where
  rest := List.replicate 64 0
  headroom := List.replicate 256 0
  body := [ZdpPacketType.transitPacket, 0] ++ List.replicate (packetBufferSize - minBodyOffset - 258) 0
  tailroom := []
  length_rest := rfl
  bounded := by
    rw [List.length_append, List.length_replicate, List.length_replicate]
    decide

/-- Neither a ciphertext nor a checksum nor a MAC fits behind it. -/
theorem egress_overflow :
    fullParts.packet.Valid ∧ fullParts.packet.buf.length = packetBufferSize ∧
      encryptFull paddingCodec fullParts.packet = .error .noTailroom ∧
      substrateEgressCommon sampleCipher (sampleTable none) 2 fullParts.packet = .error .noTailroom ∧
      substrateEgressCommon sampleCipher (sampleTable (some sampleSa)) 2 fullParts.packet =
        .error .noTailroom := by
  have hvalid := fullParts.valid_packet
  have henc : paddingCodec.encryptTransportStateless.Computes (some ∘ pad) := Writer.computes_ofFun _ _
  have hlen : fullParts.body.length = packetBufferSize - minBodyOffset - 256 := by
    rw [fullParts, List.length_append, List.length_replicate]
    rfl
  have hhead : fullParts.headroom.length = 256 := List.length_replicate
  have htail : fullParts.tailroom.length = 0 := rfl
  have hbase : readBaseHeader fullParts.packet.body = some (.transitPacket,
      List.replicate (packetBufferSize - minBodyOffset - 258) 0) := by
    rw [fullParts.body_packet]
    rfl
  have hroom : 1 ≤ fullParts.packet.headroomAvailable := by
    rw [fullParts.headroomAvailable_packet, hhead]
    decide
  refine ⟨hvalid, ?_, ?_, ?_, ?_⟩
  · rw [fullParts.length_packet, hhead, hlen, htail]
    rfl
  · rcases encryptFull_cases paddingCodec hvalid (by rw [fullParts.body_packet, hlen]; decide) with
      ⟨-, hfits⟩ | ⟨h, -⟩
    · rw [ciphertextFits_iff henc, fullParts.body_packet, fullParts.tailroomAvailable_packet, htail,
        length_pad, List.length_drop, hlen] at hfits
      exact absurd hfits (by decide)
    · exact h
  · refine (substrateEgressCommon_eq_error_iff hvalid).mpr ⟨_, _, _, zpi0, hbase, rfl, rfl, hroom, ?_⟩
    rw [transportSa, if_neg (by decide), EgressFits, fullParts.tailroomAvailable_packet]
    decide
  · refine (substrateEgressCommon_eq_error_iff hvalid).mpr ⟨_, _, _, 6, hbase, rfl, rfl, hroom, ?_⟩
    rw [transportSa, if_neg (by decide), EgressFits, if_pos rfl, fullParts.tailroomAvailable_packet]
    decide

end ZprCore.Buf
