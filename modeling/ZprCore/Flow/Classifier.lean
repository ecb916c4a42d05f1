-- SUMMARY: The packet classifier, which derives the five-tuple of a packet from its bytes.
import ZprCore.Flow.Packet

/-!
# The packet classifier

`classifier.rs`. Each function fills in the five-tuple it is handed as far as it gets, so
it returns that tuple next to its result; `none` stands for a slice index out of range,
where the source panics. The checksum routines live in other crates and are a parameter.
-/

namespace ZprCore.Flow

/-- The checksum routines of the `ip4sum` and `zpr-utils` crates. -/
structure Checksums where
  /-- `ip4sum::checksum` -/
  ip4sum : Bytes → UInt16
  /-- `net_defs::inet_l4_checksum`, as the number the two bytes of the result stand for. -/
  inetL4 : L3Type → IpAddress → IpAddress → IpProtocol → Bytes → UInt16
  /-- `net_defs::validate_inet_l4_checksum` -/
  validate : L3Type → IpAddress → IpAddress → IpProtocol → Bytes → Bool

/-- The sum of the big-endian 16-bit words, the last of them padded. -/
def wordSum : Bytes → Nat
  | [] => 0
  | [a] => a.toNat * 256
  | a :: b :: rest => a.toNat * 256 + b.toNat + wordSum rest

/-- The complement of a sum of words after its carries are folded in. -/
def onesComplement (sum : Nat) : UInt16 :=
  UInt16.ofNat (65535 - if sum = 0 then 0 else (sum - 1) % 65535 + 1)

/-- The sum over the pseudo header of a transport protocol and its data. -/
def l4Sum (src dst : IpAddress) (protocol : IpProtocol) (b : Bytes) : Nat :=
  wordSum src.octets.toList + wordSum dst.octets.toList + protocol.toNat + b.length + wordSum b

/-- The internet checksum. -/
def Checksums.internet : Checksums where
  ip4sum b := onesComplement (wordSum b)
  inetL4 _ src dst protocol b := onesComplement (l4Sum src dst protocol b)
  validate _ src dst protocol b := onesComplement (l4Sum src dst protocol b) == 0

inductive ClassifierResult where
  | ok
  | nonIp
  | unclassifiedL4
  | firstFragment
  | subsequentFragment
deriving DecidableEq

structure ClassifierOptions where
  ignoreTruncatedPackets : Bool := false
  ignoreBadChecksums : Bool := false
deriving DecidableEq

def ClassifierOptions.validates (o : ClassifierOptions) : Bool :=
  !o.ignoreBadChecksums && !o.ignoreTruncatedPackets

/-- The five-tuple as far as it was filled in and the result, or `none` for a panic. -/
abbrev Classified := Option (FiveTuple × Except String ClassifierResult)

def ipv4HeaderLen : Nat := 20

def ipv6HeaderLen : Nat := 40

def tcpHeaderLen : Nat := 20

def udpHeaderLen : Nat := 8

def icmpHeaderLen : Nat := 4

def noNextHeader : IpProtocol := 59

section

variable (sums : Checksums) (o : ClassifierOptions)

def getIpVersion (b : Bytes) : UInt8 := (byteAt b 0 &&& 0xF0) >>> 4

def isOptionLengthError (remaining : Nat) (nextHeader : IpProtocol) (optionLength : Nat) : Bool :=
  remaining < optionLength || (nextHeader != noNextHeader && remaining < optionLength + 8)

def validateInetL4ChecksumWith5t (ft : FiveTuple) (data : Bytes) : Bool :=
  sums.validate ft.l3Type ft.srcAddress ft.dstAddress ft.l4Protocol data

def classifyUnclassified (ft : FiveTuple) : Classified :=
  some ({ ft with srcPort := 0, dstPort := 0 }, .ok .unclassifiedL4)

/-- What `classify_icmp` and `classify_icmpv6` have in common. -/
def classifyIcmpWith (valid : FiveTuple → Bool) (ft : FiveTuple) (b : Bytes) : Classified :=
  if b.length < icmpHeaderLen then none
  else
    let ft := { ft with srcPort := (byteAt b 0).toUInt16, dstPort := (byteAt b 1).toUInt16 }
    if o.validates && !valid ft then some (ft, .error "Bad L4 checksum") else some (ft, .ok .ok)

def classifyIcmp (ft : FiveTuple) (b : Bytes) : Classified :=
  classifyIcmpWith o (fun _ => sums.ip4sum b == 0) ft b

def classifyIcmpv6 (ft : FiveTuple) (b : Bytes) : Classified :=
  classifyIcmpWith o (fun ft => validateInetL4ChecksumWith5t sums ft b) ft b

def classifyTcp (ft : FiveTuple) (b : Bytes) : Classified :=
  if b.length < tcpHeaderLen then some (ft, .error "Packet length error")
  else if o.validates && !validateInetL4ChecksumWith5t sums ft b then
    some (ft, .error "Bad L4 checksum")
  else
    let ft := { ft with srcPort := u16At b 0, dstPort := u16At b 2 }
    let dataOffset := ((byteAt b 12) >>> 4).toNat * 4
    if dataOffset < tcpHeaderLen ∨ b.length < dataOffset then
      some (ft, .error "Packet length error")
    else some (ft, .ok .ok)

def classifyUdp (ft : FiveTuple) (b : Bytes) : Classified :=
  if b.length < udpHeaderLen then some (ft, .error "Packet length error")
  else if o.validates && u16At b 6 != 0 && !validateInetL4ChecksumWith5t sums ft b then
    some (ft, .error "Bad L4 checksum")
  else
    let ft := { ft with srcPort := u16At b 0, dstPort := u16At b 2 }
    let length := (u16At b 4).toNat
    if (!o.ignoreTruncatedPackets ∧ b.length < length) ∨ length < b.length then
      some (ft, .error "Packet length error")
    else some (ft, .ok .ok)

/-- `classify_next_header`, with the options and extension headers it skips on the way.
    Each of these is at least eight bytes long, so `fuel` need not exceed the length. -/
def classifyNextHeader : (fuel : Nat) → FiveTuple → Bytes → IpProtocol → Classified
  | 0, _, _, _ => none
  | fuel + 1, ft, b, protocol =>
    let ft := { ft with l4Protocol := protocol }
    -- `skip_v6_option` and `skip_auth_header` differ in the unit of the length field
    let skipOption (lengthOf : Nat → Nat) : Classified :=
      if b.length < 2 then none
      else
        let optionLength := lengthOf (byteAt b 1).toNat
        if isOptionLengthError b.length (byteAt b 0) optionLength then
          some (ft, .error "Packet length error")
        else classifyNextHeader fuel ft (b.drop optionLength) (byteAt b 0)
    if protocol = IpNumber.hopopt then skipOption fun n => (n + 1) * 8
    else if protocol = IpNumber.icmp then classifyIcmp sums o ft b
    else if protocol = IpNumber.ipinip then classifyUnclassified ft
    else if protocol = IpNumber.tcp then classifyTcp sums o ft b
    else if protocol = IpNumber.udp then classifyUdp sums o ft b
    else if protocol = IpNumber.ipv6Route then skipOption fun n => (n + 1) * 8
    else if protocol = IpNumber.ipv6Frag then
      -- `classify_frag`
      if b.length < 1 then none
      else if isOptionLengthError b.length (byteAt b 0) 8 then
        some (ft, .error "Packet length error")
      else if (u16At b 2).toNat / 8 ≠ 0 then some (ft, .ok .subsequentFragment)
      else (classifyNextHeader fuel ft (b.drop 8) (byteAt b 0)).map
        fun (ft, _) => (ft, .ok .firstFragment)
    else if protocol = IpNumber.ah then skipOption fun n => (n + 2) * 4
    else if protocol = IpNumber.ipv6Icmp then classifyIcmpv6 sums o ft b
    else if protocol = IpNumber.ipv6Opts then skipOption fun n => (n + 1) * 8
    else classifyUnclassified ft

def classifyIpv4 (ft : FiveTuple) (b : Bytes) : Classified :=
  let ft := { ft with l3Type := .ipv4 }
  if b.length < ipv4HeaderLen then some (ft, .error "Packet length error")
  else
    let headerLength := (byteAt b 0 &&& 0x0F).toNat * 4
    let totalLength := (u16At b 2).toNat
    if headerLength < ipv4HeaderLen then some (ft, .error "Packet length error")
    else if o.validates && b.length < headerLength then some (ft, .error "Packet length error")
    else if o.validates && sums.ip4sum (b.take headerLength) != 0 then
      some (ft, .error "Bad L3 checksum")
    else
      let ft := { ft with srcAddress := .newFromV4 b 12, dstAddress := .newFromV4 b 16 }
      let fragOffset := (u16At b 6).toNat
      let proto := byteAt b 9
      if fragOffset % 8192 ≠ 0 then some ({ ft with l4Protocol := proto }, .ok .subsequentFragment)
      else if (!o.ignoreTruncatedPackets ∧ b.length < totalLength) ∨ totalLength < b.length ∨
          b.length < headerLength then
        some (ft, .error "Packet length error")
      else
        (classifyNextHeader sums o (b.length + 1) ft (b.drop headerLength) proto).map
          fun (ft, res) => (ft, if fragOffset / 8192 % 2 ≠ 0 then .ok .firstFragment else res)

def classifyIpv6 (ft : FiveTuple) (b : Bytes) : Classified :=
  let ft := { ft with l3Type := .ipv6 }
  if b.length < ipv6HeaderLen then some (ft, .error "Packet length error")
  else
    let src := IpAddress.read b 8
    let dst := IpAddress.read b 24
    if src.isV4 ∨ dst.isV4 then some (ft, .error "IPv4-mapped IPv6 addresses not allowed")
    else
      let ft := { ft with srcAddress := src, dstAddress := dst }
      let payloadLength := (u16At b 4).toNat
      let nextHeader := byteAt b 6
      if payloadLength = 0 ∧ nextHeader = 0 then some (ft, .error "IPv6 jumbograms not supported")
      else if (!o.ignoreTruncatedPackets ∧ b.length - ipv6HeaderLen < payloadLength) ∨
          payloadLength < b.length - ipv6HeaderLen then
        some (ft, .error "Packet length error")
      else classifyNextHeader sums o (b.length + 1) ft (b.drop ipv6HeaderLen) nextHeader

def classifyL3 (ft : FiveTuple) (b : Bytes) : Classified :=
  if b.isEmpty then some (ft, .error "Packet length error")
  else if getIpVersion b = 4 then classifyIpv4 sums o ft b
  else if getIpVersion b = 6 then classifyIpv6 sums o ft b
  else some (ft, .ok .nonIp)

/-- `classify_with_options` on the five-tuple of new metadata. -/
def classifyWithOptions (b : Bytes) : Classified := classifyL3 sums o .zeroed b

end

def classify (sums : Checksums) (b : Bytes) : Classified := classifyWithOptions sums {} b

end ZprCore.Flow
