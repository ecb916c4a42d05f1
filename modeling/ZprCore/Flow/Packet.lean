-- SUMMARY: Bytes of a packet, addresses and the five-tuple of a flow.
import Mathlib.Data.List.Basic

/-!
# Packets and flows

Packet bodies are lists of bytes, with the readers the header structs of `classifier.rs`
stand for. An `IpAddress` is sixteen bytes, as the IPv6 header has it. The type is that of the crate
`zpr_utils`, which is not part of the repository; its functions `new_from_v4`, `is_v4` and
`read_as_v4` are modelled as the repository uses them. `classifier.rs` takes the range `::ffff/96` as
the only means of telling the two kinds of addresses apart and rejects it in IPv6 packets with
`is_v4`, and its tests have the four bytes of the IPv4 header back from `read_as_v4`.
-/

namespace ZprCore.Flow

abbrev Bytes := List UInt8

def byteAt (b : Bytes) (i : Nat) : UInt8 := b.getD i 0

def u16At (b : Bytes) (i : Nat) : UInt16 :=
  UInt16.ofNat ((byteAt b i).toNat * 256 + (byteAt b (i + 1)).toNat)

def putU16 (x : UInt16) : Bytes := [(x >>> 8).toUInt8, x.toUInt8]

/-- `Buf::get_u8`; this and the next one panic at the end of the buffer. -/
def getU8 : Bytes → Option (UInt8 × Bytes)
  | a :: rest => some (a, rest)
  | [] => none

def getU16 : Bytes → Option (UInt16 × Bytes)
  | a :: b :: rest => some (UInt16.ofNat (a.toNat * 256 + b.toNat), rest)
  | _ => none

@[simp] theorem putU16_ofNat (a b : UInt8) :
    putU16 (UInt16.ofNat (a.toNat * 256 + b.toNat)) = [a, b] := by
  have ha := a.toNat_lt
  have hb := b.toNat_lt
  have hhigh : (UInt16.ofNat (a.toNat * 256 + b.toNat) >>> 8).toUInt8 = a := by
    rw [← UInt8.toNat_inj]
    simp [Nat.shiftRight_eq_div_pow]
    omega
  have hlow : (UInt16.ofNat (a.toNat * 256 + b.toNat)).toUInt8 = b := by
    rw [← UInt8.toNat_inj]
    simp
  rw [putU16, hhigh, hlow]

theorem ofNat_putU16 (x : UInt16) :
    UInt16.ofNat ((x >>> 8).toUInt8.toNat * 256 + x.toUInt8.toNat) = x := by
  have hx := x.toNat_lt
  rw [← UInt16.toNat_inj]
  simp [Nat.shiftRight_eq_div_pow]
  omega

@[simp] theorem getU16_putU16 (x : UInt16) (rest : Bytes) :
    getU16 (putU16 x ++ rest) = some (x, rest) :=
  congrArg (fun w => some (w, rest)) (ofNat_putU16 x)

theorem u16At_putU16 (x : UInt16) (rest : Bytes) : u16At (putU16 x ++ rest) 0 = x := ofNat_putU16 x

@[simp] theorem length_putU16 (x : UInt16) : (putU16 x).length = 2 := rfl

variable {b : Bytes} {i : Nat}

theorem drop_eq_cons (h : i < b.length) : b.drop i = byteAt b i :: b.drop (i + 1) := by
  rw [List.drop_eq_getElem_cons h, byteAt, List.getD_eq_getElem?_getD, List.getElem?_eq_getElem h]
  rfl

def withU16 (b : Bytes) (i : Nat) (x : UInt16) : Bytes := b.take i ++ putU16 x ++ b.drop (i + 2)

section

variable (h : i + 2 ≤ b.length)

include h

theorem pair_append_drop :
    [byteAt b i, byteAt b (i + 1)] ++ b.drop (i + 2) = b.drop i := by
  have h0 : i < b.length := by omega
  have h1 : i + 1 < b.length := by omega
  rw [drop_eq_cons h0, drop_eq_cons h1]
  rfl

theorem putU16_u16At : putU16 (u16At b i) ++ b.drop (i + 2) = b.drop i := by
  rw [u16At, putU16_ofNat]
  exact pair_append_drop h

theorem length_withU16 {x : UInt16} : (withU16 b i x).length = b.length := by
  simp [withU16]
  omega

theorem withU16_u16At : withU16 b i (u16At b i) = b := by
  rw [withU16, List.append_assoc, putU16_u16At h, List.take_append_drop]

end

/-! ## Addresses -/

structure IpAddress where
  octets : Vector UInt8 16
deriving DecidableEq

namespace IpAddress

def unspecified : IpAddress := ⟨Vector.replicate 16 0⟩

def read (b : Bytes) (i : Nat) : IpAddress := ⟨Vector.ofFn fun k => byteAt b (i + k)⟩

/-- The first twelve bytes of an IPv4 address. -/
def v4Mapped : Bytes := [0, 0, 0, 0, 0, 0, 0, 0, 0, 0, 0xff, 0xff]

/-- `IpAddress::new_from_v4` of the four bytes at an offset. -/
def newFromV4 (b : Bytes) (i : Nat) : IpAddress :=
  ⟨Vector.ofFn fun k => if k < 12 then byteAt v4Mapped k else byteAt b (i + (k - 12))⟩

def isV4 (a : IpAddress) : Bool := a.octets.toList.take 12 == v4Mapped

def readAsV4 (a : IpAddress) : Bytes := a.octets.toList.drop 12

theorem read_append_drop (h : i + 16 ≤ b.length) :
    (read b i).octets.toList ++ b.drop (i + 16) = b.drop i := by
  have hread : (read b i).octets.toList = (b.drop i).take 16 := by
    refine List.ext_getElem (by simp; omega) fun k hk hk' => ?_
    have hlt : k < 16 := by simpa using hk
    have hik : i + k < b.length := by omega
    simp [read, byteAt, List.getElem?_eq_getElem hik]
  rw [hread, ← List.drop_drop, List.take_append_drop]

variable {a : IpAddress}

theorem read_eq_of_drop (rest : Bytes) (h : i + 16 ≤ b.length)
    (hb : b.drop i = a.octets.toList ++ rest) : read b i = a := by
  have hsplit := (read_append_drop h).trans hb
  have hlist := (List.append_inj hsplit (by simp)).1
  exact congrArg IpAddress.mk (Vector.toList_inj.mp hlist)

theorem length_readAsV4 (a : IpAddress) : a.readAsV4.length = 4 := by
  simp [readAsV4]

theorem readAsV4_newFromV4 (h : i + 4 ≤ b.length) :
    (newFromV4 b i).readAsV4 = (b.drop i).take 4 := by
  refine List.ext_getElem (by simp [readAsV4]; omega) fun k hk hk' => ?_
  have hlt : k < 4 := by simpa [readAsV4] using hk
  have hik : i + k < b.length := by omega
  have hlow : ¬(⟨12 + k, by omega⟩ : Fin 16) < 12 :=
    fun h => absurd (show 12 + k < 12 from h) (by omega)
  simp [readAsV4, newFromV4, byteAt, hlow, List.getElem?_eq_getElem hik]

theorem isV4_newFromV4 (b : Bytes) (i : Nat) : (newFromV4 b i).isV4 = true := by
  refine beq_iff_eq.mpr (List.ext_getElem (by simp [v4Mapped]) fun k hk hk' => ?_)
  have hlt : k < 12 := hk'
  have hlow : (⟨k, by omega⟩ : Fin 16) < 12 := hlt
  simp [newFromV4, byteAt, hlow, List.getElem?_eq_getElem hk']

theorem ext_of_readAsV4 {a' : IpAddress} (h : a.isV4 = true) (h' : a'.isV4 = true)
    (heq : a.readAsV4 = a'.readAsV4) : a = a' := by
  obtain ⟨v⟩ := a
  obtain ⟨v'⟩ := a'
  have htake : v.toList.take 12 = v'.toList.take 12 := (beq_iff_eq.mp h).trans (beq_iff_eq.mp h').symm
  have hlist : v.toList = v'.toList := by
    have hdrop : v.toList.drop 12 = v'.toList.drop 12 := heq
    rw [← List.take_append_drop 12 v.toList, htake, hdrop, List.take_append_drop]
  rw [Vector.toList_inj.mp hlist]

theorem newFromV4_eq_iff (h : i + 4 ≤ b.length) (hb : (b.drop i).take 4 = a.readAsV4) :
    newFromV4 b i = a ↔ a.isV4 = true := by
  constructor
  · rintro rfl
    exact isV4_newFromV4 b i
  · intro hv4
    exact ext_of_readAsV4 (isV4_newFromV4 b i) hv4 ((readAsV4_newFromV4 h).trans hb)

theorem v4_append_drop (h : i + 4 ≤ b.length) :
    (newFromV4 b i).readAsV4 ++ b.drop (i + 4) = b.drop i := by
  rw [readAsV4_newFromV4 h, ← List.drop_drop, List.take_append_drop]

end IpAddress

/-! ## Five-tuples -/

inductive L3Type where
  | ipv4
  | ipv6
  | other (code : UInt16)
deriving DecidableEq

abbrev IpProtocol := UInt8

namespace IpNumber

def hopopt : IpProtocol := 0
def icmp : IpProtocol := 1
def ipinip : IpProtocol := 4
def tcp : IpProtocol := 6
def udp : IpProtocol := 17
def ipv6Route : IpProtocol := 43
def ipv6Frag : IpProtocol := 44
def ah : IpProtocol := 51
def ipv6Icmp : IpProtocol := 58
def ipv6Opts : IpProtocol := 60

end IpNumber

structure FiveTuple where
  srcAddress : IpAddress
  dstAddress : IpAddress
  l3Type : L3Type
  l4Protocol : IpProtocol
  srcPort : UInt16
  dstPort : UInt16
deriving DecidableEq

def FiveTuple.zeroed : FiveTuple := ⟨.unspecified, .unspecified, .other 0, 0, 0, 0⟩

/-! ## Traffic classifiers -/

/-- A five-tuple read as a traffic classifier: a port of 0 is a wildcard. -/
structure Ip5TupleTc where
  fiveTuple : FiveTuple
deriving DecidableEq

/-- Which ports of a packet its classifier already gives. -/
structure CompressionMode where
  sourcePortPresent : Bool
  destinationPortPresent : Bool
deriving DecidableEq

def Ip5TupleTc.compressionMode (tc : Ip5TupleTc) : CompressionMode where
  sourcePortPresent := tc.fiveTuple.srcPort ≠ 0
  destinationPortPresent := tc.fiveTuple.dstPort ≠ 0

/-- Does a packet with the given five-tuple match the classifier? -/
def Ip5TupleTc.classify5t (tc : Ip5TupleTc) (f : FiveTuple) : Bool :=
  if f.l3Type ≠ tc.fiveTuple.l3Type then false
  else if f.srcAddress ≠ tc.fiveTuple.srcAddress ∨ f.dstAddress ≠ tc.fiveTuple.dstAddress then false
  else if f.l4Protocol ≠ tc.fiveTuple.l4Protocol then false
  else if tc.fiveTuple.srcPort ≠ 0 ∧ f.srcPort ≠ tc.fiveTuple.srcPort then false
  else if tc.fiveTuple.dstPort ≠ 0 ∧ f.dstPort ≠ tc.fiveTuple.dstPort then false
  else true

theorem Ip5TupleTc.classify5t_iff {tc : Ip5TupleTc} {f : FiveTuple} :
    tc.classify5t f = true ↔
      f.l3Type = tc.fiveTuple.l3Type ∧ f.srcAddress = tc.fiveTuple.srcAddress ∧
      f.dstAddress = tc.fiveTuple.dstAddress ∧ f.l4Protocol = tc.fiveTuple.l4Protocol ∧
      (tc.fiveTuple.srcPort ≠ 0 → f.srcPort = tc.fiveTuple.srcPort) ∧
      (tc.fiveTuple.dstPort ≠ 0 → f.dstPort = tc.fiveTuple.dstPort) := by
  unfold classify5t
  split
  · next h => simp [h]
  split
  · next h => simp only [Bool.false_eq_true, false_iff]; tauto
  split
  · next h => simp [h]
  split
  · next h => simp only [Bool.false_eq_true, false_iff]; tauto
  split
  · next h => simp only [Bool.false_eq_true, false_iff]; tauto
  · simp only [true_iff]; tauto

end ZprCore.Flow
