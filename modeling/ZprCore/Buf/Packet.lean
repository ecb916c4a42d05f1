-- SUMMARY: A packet in its buffer: metadata, headroom, body and tailroom in one array of bytes.
import ZprCore.Flow.Packet
import ZprCore.Lib.Slice

/-!
# Packet buffers

`packet.rs`. A packet is nothing but its buffer; where the body is stands in the metadata at the
start of that buffer. The metadata is `repr(C)` and has no padding, so the offset and the length
are its first two words, in the order of a little-endian machine, and the other fields are the
bytes behind them. Panics have a reason: a failed assertion, or a write for which the tailroom does
not suffice.
-/

namespace ZprCore.Buf

open ZprCore.Flow (Bytes)

inductive Panic where
  | assertion
  | noTailroom
deriving DecidableEq

/-- `size_of::<PacketMetadata>()` -/
def minBodyOffset : Nat := 80

structure Packet where
  buf : Bytes
deriving DecidableEq

namespace Packet

def offset (p : Packet) : Nat := leNat (p.buf.take 8)

def len (p : Packet) : Nat := leNat ((p.buf.drop 8).take 8)

def ingressStreamId (p : Packet) : Nat := leNat ((p.buf.drop 68).take 4)

/-- An assignment to `metadata_mut().offset`. -/
def setOffset (p : Packet) (offset : Nat) : Packet := ⟨overwrite p.buf 0 (leBytes 8 offset)⟩

/-- An assignment to `metadata_mut().len`. -/
def setLen (p : Packet) (len : Nat) : Packet := ⟨overwrite p.buf 8 (leBytes 8 len)⟩

def write (p : Packet) (i : Nat) (b : Bytes) : Packet := ⟨overwrite p.buf i b⟩

def body (p : Packet) : Bytes := (p.buf.drop p.offset).take p.len

/-- The second slice of `body_and_tailroom_mut`. -/
def tailroom (p : Packet) : Bytes := p.buf.drop (p.offset + p.len)

def tailroomAvailable (p : Packet) : Nat := p.buf.length - (p.offset + p.len)

def headroomAvailable (p : Packet) : Nat := p.offset - minBodyOffset

def setBodyExtent (p : Packet) (offset len : Nat) : Except Panic Packet :=
  if minBodyOffset ≤ offset ∧ len ≤ p.buf.length ∧ offset ≤ p.buf.length - len then
    .ok ((p.setOffset offset).setLen len)
  else .error .assertion

/-- `adopt_tailroom_with_header`. The header is moved as a whole, also onto itself. -/
def adoptTailroomWithHeader (p : Packet) (headerLen written : Nat) : Except Panic Packet :=
  if p.len < headerLen then .error .assertion
  else if p.tailroomAvailable < written then .error .noTailroom
  else
    let newOffset := p.offset + p.len - headerLen
    (p.write newOffset ((p.buf.drop p.offset).take headerLen)).setBodyExtent newOffset
      (headerLen + written)

def pushHeader (p : Packet) (header : Bytes) : Except Panic Packet :=
  if p.headroomAvailable < header.length then .error .assertion
  else
    let offset := p.offset - header.length
    .ok (((p.setOffset offset).setLen (p.len + header.length)).write offset header)

def shrinkBy (p : Packet) (cnt : Nat) : Except Panic Packet :=
  if p.len < cnt then .error .assertion else .ok (p.setLen (p.len - cnt))

def put (p : Packet) (b : Bytes) : Except Panic Packet :=
  if p.tailroomAvailable < b.length then .error .noTailroom
  else .ok ((p.write (p.offset + p.len) b).setLen (p.len + b.length))

/-- `clone_prefix_into_with_headroom`. Sums and differences wrap. A slice that is not in the buffer
    panics, and so does a copy between slices of different lengths. -/
def clonePrefixIntoWithHeadroom (p : Packet) (buf : Bytes) (headroom len : Nat) :
    Except Panic Packet :=
  let offset := (minBodyOffset + headroom) % 2 ^ 64
  let stop := (offset + len) % 2 ^ 64
  if p.body.length < len ∨
      (buf.length + (2 ^ 64 - len) + (2 ^ 64 - minBodyOffset)) % 2 ^ 64 < headroom ∨
      buf.length < minBodyOffset ∨ stop < offset ∨ buf.length < stop ∨ len ≠ p.body.length then
    .error .assertion
  else
    let copied := overwrite (overwrite buf 0 (p.buf.take minBodyOffset)) offset p.body
    .ok ((setOffset ⟨copied⟩ offset).setLen len)

def clonePrefixInto (p : Packet) (buf : Bytes) (len : Nat) : Except Panic Packet :=
  p.clonePrefixIntoWithHeadroom buf p.headroomAvailable len

/-- The metadata behind offset and length. -/
def otherMetadata (p : Packet) : Bytes := (p.buf.drop 16).take 64

/-- `metadata_is_valid`, of a buffer that can be allocated. -/
structure Valid (p : Packet) : Prop where
  min : minBodyOffset ≤ p.offset
  fits : p.offset + p.len ≤ p.buf.length
  bounded : p.buf.length < 2 ^ 63

end Packet

/-! ## The parts of a buffer -/

/-- The parts of a buffer, in their order. -/
structure Parts where
  /-- The metadata behind offset and length. -/
  rest : Bytes
  headroom : Bytes
  body : Bytes
  tailroom : Bytes
  length_rest : rest.length = 64
  bounded : minBodyOffset + headroom.length + body.length + tailroom.length < 2 ^ 63

namespace Parts

/-- A buffer with this metadata and this content behind it. -/
def image (offset len : Nat) (rest content : Bytes) : Packet :=
  ⟨leBytes 8 offset ++ (leBytes 8 len ++ (rest ++ content))⟩

def content (v : Parts) : Bytes := v.headroom ++ (v.body ++ v.tailroom)

def packet (v : Parts) : Packet :=
  image (minBodyOffset + v.headroom.length) v.body.length v.rest v.content

section

variable {offset len i : Nat} {rest content b : Bytes} {w : Parts}

theorem image_eq_packet (ho : offset = minBodyOffset + w.headroom.length) (hl : len = w.body.length)
    (hr : rest = w.rest) (hc : content = w.content) : image offset len rest content = w.packet := by
  rw [packet, ho, hl, hr, hc]

theorem offset_image (h : offset < 2 ^ 63) : (image offset len rest content).offset = offset := by
  rw [Packet.offset, image, List.take_left' (length_leBytes ..), leNat_leBytes (by omega)]

theorem len_image (h : len < 2 ^ 63) : (image offset len rest content).len = len := by
  rw [Packet.len, image, List.drop_left' (length_leBytes ..), List.take_left' (length_leBytes ..),
    leNat_leBytes (by omega)]

theorem setOffset_image (n : Nat) :
    (image offset len rest content).setOffset n = image n len rest content := by
  have hlen : (leBytes 8 n).length = (leBytes 8 offset).length := by simp
  exact congrArg Packet.mk (overwrite_part (a := []) rfl hlen)

theorem setLen_image (n : Nat) :
    (image offset len rest content).setLen n = image offset n rest content :=
  congrArg Packet.mk (overwrite_part (length_leBytes ..).symm (by simp))

theorem length_image (h : rest.length = 64) :
    (image offset len rest content).buf.length = minBodyOffset + content.length := by
  simp only [image, List.length_append, length_leBytes, h, minBodyOffset]
  omega

theorem buf_image : (image offset len rest content).buf =
    (leBytes 8 offset ++ (leBytes 8 len ++ rest)) ++ content := by simp [image]

section

variable (h : rest.length = 64)

include h

theorem length_metadata :
    (leBytes 8 offset ++ (leBytes 8 len ++ rest)).length = minBodyOffset := by
  simp [h, minBodyOffset]

theorem drop_image :
    (image offset len rest content).buf.drop (minBodyOffset + i) = content.drop i := by
  rw [buf_image, ← List.drop_drop, List.drop_left' (length_metadata h)]

theorem write_image :
    (image offset len rest content).write (minBodyOffset + i) b =
      image offset len rest (overwrite content i b) := by
  rw [Packet.write, overwrite, Nat.add_assoc, drop_image h, buf_image, List.take_append,
    length_metadata h, List.take_of_length_le (by rw [length_metadata h]; omega),
    Nat.add_sub_cancel_left, image, overwrite]
  simp only [List.append_assoc]

theorem overwrite_take_image :
    overwrite b 0 ((image offset len rest content).buf.take minBodyOffset) =
      (image offset len rest (b.drop minBodyOffset)).buf := by
  rw [buf_image, List.take_left' (length_metadata h), overwrite, List.take_zero, List.nil_append,
    Nat.zero_add, length_metadata h, buf_image]

end

end

variable (v : Parts) {b : Bytes} {cnt headerLen written offset len headroom : Nat} {content buf : Bytes}

@[simp] theorem offset_packet : v.packet.offset = minBodyOffset + v.headroom.length :=
  offset_image (by have := v.bounded; omega)

@[simp] theorem len_packet : v.packet.len = v.body.length :=
  len_image (by have := v.bounded; omega)

theorem length_packet :
    v.packet.buf.length = minBodyOffset + (v.headroom.length + (v.body.length + v.tailroom.length)) := by
  rw [packet, length_image v.length_rest, content, List.length_append, List.length_append]

@[simp] theorem body_packet : v.packet.body = v.body := by
  rw [Packet.body, offset_packet, len_packet, packet, drop_image v.length_rest, content,
    List.drop_left, List.take_left]

@[simp] theorem tailroom_packet : v.packet.tailroom = v.tailroom := by
  rw [Packet.tailroom, offset_packet, len_packet, packet, Nat.add_assoc, drop_image v.length_rest,
    content, ← List.drop_drop, List.drop_left, List.drop_left]

@[simp] theorem tailroomAvailable_packet : v.packet.tailroomAvailable = v.tailroom.length := by
  rw [Packet.tailroomAvailable, length_packet, offset_packet, len_packet]
  omega

@[simp] theorem headroomAvailable_packet : v.packet.headroomAvailable = v.headroom.length := by
  rw [Packet.headroomAvailable, offset_packet, Nat.add_sub_cancel_left]

theorem valid_packet : v.packet.Valid where
  min := by simp
  fits := by rw [offset_packet, len_packet, length_packet]; omega
  bounded := by have := v.bounded; rw [length_packet]; omega

/-- The only buffers whose metadata is valid are those. -/
theorem exists_packet {p : Packet} (hp : p.Valid) : ∃ v : Parts, v.packet = p := by
  obtain ⟨hmin, hfits, hbounded⟩ := hp
  have h80 : minBodyOffset = 80 := rfl
  let back := p.buf.drop minBodyOffset
  let head := p.offset - minBodyOffset
  have hback : back.length = p.buf.length - minBodyOffset := List.length_drop
  have hhead : (back.take head).length = head := List.length_take_of_le (by omega)
  have hbody : ((back.drop head).take p.len).length = p.len :=
    List.length_take_of_le (by rw [List.length_drop]; omega)
  have htail : (back.drop (head + p.len)).length = back.length - (head + p.len) := List.length_drop
  refine ⟨⟨(p.buf.drop 16).take 64, back.take head, (back.drop head).take p.len,
    back.drop (head + p.len), List.length_take_of_le (by rw [List.length_drop]; omega), by omega⟩, ?_⟩
  have hcontent : back.take head ++ ((back.drop head).take p.len ++ back.drop (head + p.len)) = back := by
    rw [← List.drop_drop, List.take_append_drop, List.take_append_drop]
  have hoffset : leBytes 8 p.offset = p.buf.take 8 := leBytes_leNat (List.length_take_of_le (by omega))
  have hlen : leBytes 8 p.len = (p.buf.drop 8).take 8 :=
    leBytes_leNat (List.length_take_of_le (by rw [List.length_drop]; omega))
  have hsplit : p.buf = leBytes 8 p.offset ++ (leBytes 8 p.len ++ ((p.buf.drop 16).take 64 ++ back)) := by
    have hback' : back = (p.buf.drop 16).drop 64 := by rw [List.drop_drop]; rfl
    have hdrop : p.buf.drop 16 = (p.buf.drop 8).drop 8 := by rw [List.drop_drop]
    rw [hoffset, hlen, hback', List.take_append_drop, hdrop, List.take_append_drop,
      List.take_append_drop]
  refine Eq.symm ((congrArg Packet.mk hsplit).trans (image_eq_packet ?_ hbody.symm rfl hcontent.symm))
  exact (Nat.add_sub_cancel' hmin).symm.trans (congrArg (minBodyOffset + ·) hhead.symm)

/-! ## The operations on the parts -/

def shrinkBy (cnt : Nat) : Parts where
  rest := v.rest
  headroom := v.headroom
  body := v.body.take (v.body.length - cnt)
  tailroom := v.body.drop (v.body.length - cnt) ++ v.tailroom
  length_rest := v.length_rest
  bounded := by
    have := v.bounded
    rw [List.length_append, List.length_take, List.length_drop]
    omega

def put (b : Bytes) (h : b.length ≤ v.tailroom.length) : Parts where
  rest := v.rest
  headroom := v.headroom
  body := v.body ++ b
  tailroom := v.tailroom.drop b.length
  length_rest := v.length_rest
  bounded := by
    have := v.bounded
    rw [List.length_append, List.length_drop]
    omega

def pushHeader (b : Bytes) (h : b.length ≤ v.headroom.length) : Parts where
  rest := v.rest
  headroom := v.headroom.take (v.headroom.length - b.length)
  body := b ++ v.body
  tailroom := v.tailroom
  length_rest := v.length_rest
  bounded := by
    have := v.bounded
    rw [List.length_append, List.length_take]
    omega

/-- The body is its own header with the start of the tailroom. -/
def adopt (headerLen written : Nat) : Parts where
  rest := v.rest
  headroom := v.headroom ++ v.body.take (v.body.length - headerLen)
  body := v.body.take headerLen ++ v.tailroom.take written
  tailroom := v.tailroom.drop written
  length_rest := v.length_rest
  bounded := by
    have := v.bounded
    simp only [List.length_append, List.length_take, List.length_drop]
    omega

/-- Someone else has written into the tailroom. -/
def setTailroom (b : Bytes) (h : b.length = v.tailroom.length) : Parts :=
  { v with tailroom := b, bounded := h ▸ v.bounded }

theorem shrinkBy_packet (h : cnt ≤ v.body.length) :
    v.packet.shrinkBy cnt = .ok (v.shrinkBy cnt).packet := by
  have hlen : v.body.length - cnt = (v.shrinkBy cnt).body.length :=
    (List.length_take_of_le (Nat.sub_le ..)).symm
  have hcontent : v.content = (v.shrinkBy cnt).content := by
    rw [content, content, shrinkBy, ← List.append_assoc (v.body.take _), List.take_append_drop]
  rw [Packet.shrinkBy, len_packet, if_neg (Nat.not_lt.mpr h), packet, setLen_image]
  exact congrArg _ (image_eq_packet rfl hlen rfl hcontent)

theorem put_packet (h : b.length ≤ v.tailroom.length) :
    v.packet.put b = .ok (v.put b h).packet := by
  have hcontent : overwrite v.content (v.headroom.length + v.body.length) b = (v.put b h).content := by
    rw [content, ← List.append_assoc, overwrite_append List.length_append.symm, content, put]
    simp only [List.append_assoc]
  rw [Packet.put, tailroomAvailable_packet, if_neg (Nat.not_lt.mpr h), offset_packet, len_packet, packet,
    Nat.add_assoc, write_image v.length_rest, setLen_image]
  exact congrArg _ (image_eq_packet rfl List.length_append.symm rfl hcontent)

theorem put_packet_error (h : v.tailroom.length < b.length) :
    v.packet.put b = .error .noTailroom := by
  rw [Packet.put, tailroomAvailable_packet, if_pos h]

theorem pushHeader_packet (h : b.length ≤ v.headroom.length) :
    v.packet.pushHeader b = .ok (v.pushHeader b h).packet := by
  have hlen : (v.headroom.take (v.headroom.length - b.length)).length = v.headroom.length - b.length :=
    List.length_take_of_le (Nat.sub_le ..)
  have hcontent : overwrite v.content (v.headroom.length - b.length) b = (v.pushHeader b h).content := by
    have hsplit : v.content = v.headroom.take (v.headroom.length - b.length) ++
        (v.headroom.drop (v.headroom.length - b.length) ++ (v.body ++ v.tailroom)) := by
      rw [← List.append_assoc, List.take_append_drop, content]
    rw [hsplit, overwrite_part hlen.symm (by rw [List.length_drop]; omega), content, pushHeader,
      List.append_assoc]
  rw [Packet.pushHeader, headroomAvailable_packet, if_neg (Nat.not_lt.mpr h), offset_packet, len_packet]
  dsimp only
  rw [packet, setOffset_image, setLen_image, Nat.add_sub_assoc h, write_image v.length_rest]
  refine congrArg _ (image_eq_packet (congrArg _ hlen.symm) ?_ rfl hcontent)
  exact (Nat.add_comm ..).trans List.length_append.symm

theorem setTailroom_packet (h : b.length = v.tailroom.length) :
    v.packet.write (v.packet.offset + v.packet.len) b = (v.setTailroom b h).packet := by
  have hcontent : overwrite v.content (v.headroom.length + v.body.length) b =
      (v.setTailroom b h).content := by
    rw [content, ← List.append_assoc, overwrite_append List.length_append.symm, h, List.drop_length,
      List.append_nil, List.append_assoc]
    rfl
  rw [offset_packet, len_packet, packet, Nat.add_assoc, write_image v.length_rest]
  exact image_eq_packet rfl rfl rfl hcontent

theorem adopt_packet (hh : headerLen ≤ v.body.length) (hw : written ≤ v.tailroom.length) :
    v.packet.adoptTailroomWithHeader headerLen written = .ok (v.adopt headerLen written).packet := by
  let dead := v.headroom ++ v.body.take (v.body.length - headerLen)
  have hdead : dead.length = v.headroom.length + (v.body.length - headerLen) := by
    rw [List.length_append, List.length_take_of_le (Nat.sub_le ..)]
  have hoffset : minBodyOffset + v.headroom.length + v.body.length - headerLen =
      minBodyOffset + dead.length := by omega
  have hheader : (v.packet.buf.drop (minBodyOffset + v.headroom.length)).take headerLen =
      v.body.take headerLen := by
    rw [packet, drop_image v.length_rest, content, List.drop_left, List.take_append_of_le_length hh]
  have hsplit : v.content = dead ++ (v.body.drop (v.body.length - headerLen) ++ v.tailroom) := by
    rw [List.append_assoc, ← List.append_assoc (v.body.take _), List.take_append_drop, content]
  have hcontent : overwrite v.content dead.length (v.body.take headerLen) =
      (v.adopt headerLen written).content := by
    rw [hsplit, overwrite_part rfl (by rw [List.length_take, List.length_drop]; omega), content, adopt]
    simp only [List.append_assoc, List.take_append_drop, dead]
  have hlen : (v.adopt headerLen written).body.length = headerLen + written := by
    rw [adopt, List.length_append, List.length_take_of_le hh, List.length_take_of_le hw]
  have htotal : (v.adopt headerLen written).content.length =
      dead.length + (headerLen + written + (v.tailroom.length - written)) := by
    rw [content, List.length_append, List.length_append, hlen, adopt, List.length_drop]
  rw [Packet.adoptTailroomWithHeader, len_packet, if_neg (Nat.not_lt.mpr hh), tailroomAvailable_packet,
    if_neg (Nat.not_lt.mpr hw), offset_packet, hheader, hoffset]
  dsimp only
  rw [packet, write_image v.length_rest, hcontent, Packet.setBodyExtent, length_image v.length_rest,
    if_pos (by omega), setOffset_image, setLen_image]
  exact congrArg _ (image_eq_packet rfl hlen.symm rfl rfl)

/-! ## Copies of a prefix -/

theorem otherMetadata_image :
    (image offset len v.rest content).otherMetadata = v.rest := by
  have hlen : (leBytes 8 offset ++ leBytes 8 len).length = 16 := by simp
  rw [Packet.otherMetadata, image, ← List.append_assoc, List.drop_left' hlen,
    List.take_left' v.length_rest]

theorem clone_packet
    (h : minBodyOffset + headroom + v.body.length ≤ buf.length) (hb : buf.length < 2 ^ 63) :
    v.packet.clonePrefixIntoWithHeadroom buf headroom v.body.length =
      .ok (image (minBodyOffset + headroom) v.body.length v.rest
        (overwrite (buf.drop minBodyOffset) headroom v.body)) := by
  have h80 : minBodyOffset = 80 := rfl
  have hoffset : (minBodyOffset + headroom) % 2 ^ 64 = minBodyOffset + headroom := by omega
  rw [Packet.clonePrefixIntoWithHeadroom, body_packet, hoffset, if_neg (by omega)]
  dsimp only
  rw [packet, overwrite_take_image v.length_rest]
  change Except.ok (((Packet.write (image ..) (minBodyOffset + headroom) _).setOffset _).setLen _) = _
  rw [write_image v.length_rest, setOffset_image, setLen_image]

end Parts

namespace Packet

/-- The call returns a copy of `p` with the first `len` bytes of its body. -/
def ClonesPrefix (p : Packet) (headroom len : Nat) (r : Except Panic Packet) : Prop :=
  ∃ q, r = .ok q ∧ q.body = p.body.take len ∧ q.headroomAvailable = headroom ∧
    q.otherMetadata = p.otherMetadata

/-- A prefix is cloned as it should be if and only if it is the whole body. -/
theorem clone_prefix_iff {p : Packet} {buf : Bytes} {len : Nat} (hp : p.Valid)
    (hlen : len ≤ p.body.length) (hb : buf.length < 2 ^ 63) :
    (minBodyOffset + p.headroomAvailable + len ≤ buf.length →
      (ClonesPrefix p p.headroomAvailable len (p.clonePrefixInto buf len) ↔ len = p.body.length)) ∧
    ∀ headroom, minBodyOffset + headroom + len ≤ buf.length →
      (ClonesPrefix p headroom len (p.clonePrefixIntoWithHeadroom buf headroom len) ↔
        len = p.body.length) := by
  suffices h : ∀ headroom, minBodyOffset + headroom + len ≤ buf.length →
      (ClonesPrefix p headroom len (p.clonePrefixIntoWithHeadroom buf headroom len) ↔
        len = p.body.length) from ⟨h _, h⟩
  intro headroom hroom
  obtain ⟨v, rfl⟩ := Parts.exists_packet hp
  constructor
  · rintro ⟨q, hq, -⟩
    by_contra hne
    rw [clonePrefixIntoWithHeadroom, if_pos (.inr (.inr (.inr (.inr (.inr hne)))))] at hq
    cases hq
  rw [Parts.body_packet]
  rintro rfl
  have hhead : ((buf.drop minBodyOffset).take headroom).length = headroom :=
    List.length_take_of_le (by rw [List.length_drop]; omega)
  refine ⟨_, v.clone_packet hroom hb, ?_, ?_, ?_⟩
  · rw [Packet.body, Parts.offset_image (by omega), Parts.len_image (by omega),
      Parts.drop_image v.length_rest, overwrite, List.append_assoc, List.drop_left' hhead,
      List.take_left, Parts.body_packet, List.take_length]
  · rw [headroomAvailable, Parts.offset_image (by omega), Nat.add_sub_cancel_left]
  · rw [Parts.packet, v.otherMetadata_image, v.otherMetadata_image]

/-- A packet with a body of one byte. -/
def sample : Parts := ⟨List.replicate 64 1, [], [7], [], rfl, by decide⟩

theorem clone_prefix_whole : ClonesPrefix sample.packet 2 1
    (sample.packet.clonePrefixIntoWithHeadroom (List.replicate 83 0) 2 1) :=
  ((clone_prefix_iff sample.valid_packet (by decide) (by decide)).2 2 (by decide)).mpr (by decide)

/-- The copy of a proper prefix has a source and a target of different lengths. -/
theorem proper_prefix_panics :
    sample.packet.Valid ∧
      sample.packet.clonePrefixIntoWithHeadroom (List.replicate 83 0) 0 0 = .error .assertion ∧
      sample.packet.clonePrefixInto (List.replicate 83 0) 0 = .error .assertion :=
  ⟨sample.valid_packet, by decide, by decide⟩

end Packet

end ZprCore.Buf
