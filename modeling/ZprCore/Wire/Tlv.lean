-- SUMMARY: Type-length-value data and traffic classifiers in management messages.
import ZprCore.Flow.Packet
import ZprCore.Lib.Scanner
import ZprCore.Link.Auth

/-!
# TLVs and traffic classifiers

The parsing half of `tlv.rs` and `tc.rs`. A reader of a message fails with an error of the
handlers, and panics where the source uses an unchecked `Buf` operation on a buffer that is too
short. All errors of TLV data are reported as `BadStructure`.
-/

namespace ZprCore.Wire

open ZprCore.Flow (byteAt u16At L3Type FiveTuple IpAddress Ip5TupleTc)
open Link (OidcIdpInfo)
open Scanner

abbrev Bytes := List UInt8

inductive HandleMgmtError where
  | unknownType (code : UInt8)
  | messageNotPermitted
  | badStructure
  | unknownTransaction
  | linkClosed
deriving DecidableEq

abbrev Reader (α : Type) := Scanner UInt8 HandleMgmtError α

/-- What the handlers use of other crates: the encodings of `L3Type` and `Tcst`, texts, JSON, and
    visas in Cap'n Proto. -/
structure Crates where
  l3TypeSize : Nat
  l3Type : Bytes → L3Type
  tcstSize : Nat
  isIp5Tuple : Bytes → Bool
  fromUtf8Lossy : Bytes → String
  oidcIdpInfo : String → Option OidcIdpInfo
  isVisa : Bytes → Bool

def beNat (b : Bytes) : Nat := b.foldl (fun n x => n * 256 + x.toNat) 0

/-! ## TLVs -/

abbrev TlvType := UInt8

namespace DataType

def null : TlvType := 0
def policyId : TlvType := 1
def version : TlvType := 2
def aaa : TlvType := 3
def staticAddr : TlvType := 5
def windowSize : TlvType := 6
def a2aDhPubkey : TlvType := 7
def bootstrapVisa : TlvType := 8
def oidcIdp : TlvType := 9

end DataType

inductive TlvValue where
  | u16 (value : UInt16)
  | i64 (bits : BitVec 64)
  | str (text : String)
  | ipv4Addr (bits : BitVec 32)
  | ipv6Addr (bits : BitVec 128)
  | x25519PubKey (key : Bytes)
  | visa (message : Bytes)
deriving DecidableEq

/-- The map of TLVs, as the entries in the order of the buffer. -/
abbrev TlvData := List (TlvType × TlvValue)

def TlvData.values (data : TlvData) (tlvType : TlvType) : List TlvValue :=
  data.filterMap fun (t, v) => if t = tlvType then some v else none

def x25519KeyLen : Nat := 32

def parseAddressValue (tlvLength : Nat) : Reader TlvValue := do
  ensure (tlvLength ≤ (← remaining)) .badStructure
  if tlvLength = 4 then return .ipv4Addr (.ofNat 32 (beNat (← get 4)))
  else if tlvLength = 16 then return .ipv6Addr (.ofNat 128 (beNat (← get 16)))
  else fail .badStructure

variable (crates : Crates)

/-- The value of one TLV; one of an unknown type is skipped. -/
def parseTlvValue (tlvType : TlvType) (tlvLength : Nat) : Reader (Option (TlvType × TlvValue)) :=
  if tlvType = DataType.policyId then do
    ensure (tlvLength = 8) .badStructure
    return some (tlvType, .i64 (.ofNat 64 (beNat (← get 8))))
  else if tlvType = DataType.version ∨ tlvType = DataType.oidcIdp then do
    return some (tlvType, .str (crates.fromUtf8Lossy (← get tlvLength)))
  else if tlvType = DataType.aaa ∨ tlvType = DataType.staticAddr then do
    return some (tlvType, ← parseAddressValue tlvLength)
  else if tlvType = DataType.a2aDhPubkey then do
    ensure (tlvLength = x25519KeyLen) .badStructure
    return some (tlvType, .x25519PubKey (← get x25519KeyLen))
  else if tlvType = DataType.windowSize then do
    ensure (tlvLength = 2) .badStructure
    return some (tlvType, .u16 (u16At (← get 2) 0))
  else if tlvType = DataType.bootstrapVisa then do
    let msgBuf ← get tlvLength
    ensure (crates.isVisa msgBuf) .badStructure
    return some (tlvType, .visa msgBuf)
  else do
    let _ ← get tlvLength
    return none

/-- One round of `parse_from_buf`. The null type is a single byte. -/
def parseTlv : Reader (Option (TlvType × TlvValue)) := do
  let tlvType := byteAt (← get 1) 0
  if tlvType = DataType.null then return none
  else
    ensure (1 ≤ (← remaining)) .badStructure
    let tlvLength := (byteAt (← get 1) 0).toNat
    ensure (tlvLength ≤ (← remaining)) .badStructure
    parseTlvValue crates tlvType tlvLength

def parseFromBuf : Reader TlvData := untilEmpty (parseTlv crates)

variable {crates} {tlvType : TlvType} {tlvLength : Nat} {b : Bytes}

theorem wp_parseTlvValue (h : tlvLength ≤ b.length) :
    wp (parseTlvValue crates tlvType tlvLength) (fun _ rest => rest.length ≤ b.length) b := by
  unfold parseTlvValue parseAddressValue x25519KeyLen
  repeat' split
  all_goals simp [h]
  all_goals
    intros
    omega

theorem wp_parseTlv (h : b ≠ []) :
    wp (parseTlv crates) (fun _ rest => rest.length < b.length) b := by
  have hlen : 1 ≤ b.length := List.length_pos_iff.mpr h
  unfold parseTlv
  simp only [wp_bind, wp_get, wp_ite, wp_remaining, wp_ensure]
  refine ⟨hlen, ?_⟩
  split
  · simp
    omega
  intro hnext
  refine ⟨of_decide_eq_true hnext, fun hvalue => ?_⟩
  refine wp_mono (wp_parseTlvValue (of_decide_eq_true hvalue)) fun _ rest hrest => ?_
  simp only [List.length_drop] at hrest
  omega

theorem wp_parseFromBuf (b : Bytes) : wp (parseFromBuf crates) (fun _ rest => rest = []) b :=
  wp_untilEmpty (fun _ => wp_parseTlv) b

/-! ## Traffic classifiers -/

namespace TrafficClassifierFlags

def destinationPortPresent : UInt8 := 0x01
def sourcePortPresent : UInt8 := 0x02
def ipv4 : UInt8 := 0x04

end TrafficClassifierFlags

/-- A port that a flag says is there. -/
def readPort (isPresent : Bool) : Reader UInt16 :=
  if isPresent then do return u16At (← read 2 .badStructure) 0 else return 0

def deserializeTc : Reader Ip5TupleTc := do
  let hdr ← read 2 .badStructure
  let flags := byteAt hdr 0
  let isIpv4 : Bool := flags &&& TrafficClassifierFlags.ipv4 ≠ 0
  let size := if isIpv4 then 4 else 16
  ensure (2 * size ≤ (← remaining)) .badStructure
  let src ← get size
  let dst ← get size
  let srcPort ← readPort (flags &&& TrafficClassifierFlags.sourcePortPresent ≠ 0)
  let dstPort ← readPort (flags &&& TrafficClassifierFlags.destinationPortPresent ≠ 0)
  return ⟨{
    l3Type := if isIpv4 then .ipv4 else .ipv6
    l4Protocol := byteAt hdr 1
    srcAddress := if isIpv4 then .newFromV4 src 0 else .read src 0
    dstAddress := if isIpv4 then .newFromV4 dst 0 else .read dst 0
    srcPort
    dstPort }⟩

theorem safe_readPort {isPresent : Bool} : Safe (readPort isPresent) :=
  .ite (fun _ => .bind .read fun _ => .pure) fun _ => .pure

theorem safe_deserializeTc : Safe deserializeTc := by
  intro b
  unfold deserializeTc
  simp only [wp_bind, wp_read, wp_get, wp_remaining, wp_ensure]
  intro _ henough
  have henough := of_decide_eq_true henough
  refine ⟨by omega, by rw [List.length_drop]; omega, ?_⟩
  exact wp_mono (safe_readPort _) fun _ rest _ => wp_mono (safe_readPort rest) fun _ _ _ => trivial

end ZprCore.Wire
