-- SUMMARY: Header compression of packets on a tether, and what expansion restores.
import ZprCore.Flow.Classifier

/-!
# Header compression

`compress.rs`. A packet on a tether leaves out what the classifier of the tether already says:
addresses, protocol, those ports that are not wildcards, and what can be recomputed. `none`
stands for a panic, which is what the source does with a packet that ends too early. Room in
front of a packet is not modelled; the source allocates more than is ever used.
-/

namespace ZprCore.Fastpath

open ZprCore.Flow

/-! ## Transport headers -/

/-- Put the ports in front that the classifier does not give. -/
def pushPorts (mode : CompressionMode) (srcPort dstPort : UInt16) (b : Bytes) : Bytes :=
  let b := if mode.destinationPortPresent then b else putU16 dstPort ++ b
  if mode.sourcePortPresent then b else putU16 srcPort ++ b

/-- The ports of a compressed packet, from the classifier or from the packet. -/
def takePorts (mode : CompressionMode) (ft : FiveTuple) (b : Bytes) :
    Option (UInt16 × UInt16 × Bytes) := do
  let (srcPort, b) ← if mode.sourcePortPresent then some (ft.srcPort, b) else getU16 b
  let (dstPort, b) ← if mode.destinationPortPresent then some (ft.dstPort, b) else getU16 b
  some (srcPort, dstPort, b)

/-- Where the checksum is in a TCP header without its ports. -/
def tcpChecksumOffset : Nat := 12

def compressTcp (mode : CompressionMode) (b : Bytes) : Option Bytes := do
  let (srcPort, b) ← getU16 b
  let (dstPort, b) ← getU16 b
  if b.length < tcpChecksumOffset + 2 then none
  else
    some (pushPorts mode srcPort dstPort (b.take tcpChecksumOffset ++ b.drop (tcpChecksumOffset + 2)))

def expandTcp (sums : Checksums) (mode : CompressionMode) (ft : FiveTuple) (b : Bytes) :
    Option Bytes := do
  let (srcPort, dstPort, b) ← takePorts mode ft b
  -- with the ports and the checksum, this has to be a whole TCP header
  if b.length + 6 < tcpHeaderLen then none
  else
    let expanded (csum : UInt16) : Bytes := putU16 srcPort ++ putU16 dstPort ++
      (b.take tcpChecksumOffset ++ putU16 csum ++ b.drop tcpChecksumOffset)
    some (expanded (sums.inetL4 ft.l3Type ft.srcAddress ft.dstAddress IpNumber.tcp (expanded 0)))

def compressUdp (mode : CompressionMode) (b : Bytes) : Option Bytes := do
  let (srcPort, b) ← getU16 b
  let (dstPort, b) ← getU16 b
  if b.length < 2 then none else some (pushPorts mode srcPort dstPort (b.drop 2))

/-- The length is that of a header and of what follows the checksum. -/
def expandUdp (mode : CompressionMode) (ft : FiveTuple) (b : Bytes) : Option Bytes := do
  let (srcPort, dstPort, b) ← takePorts mode ft b
  some (putU16 srcPort ++ putU16 dstPort ++ putU16 (UInt16.ofNat (b.length + udpHeaderLen - 2)) ++ b)

def compressL4 (mode : CompressionMode) (protocol : IpProtocol) (b : Bytes) : Option Bytes :=
  if protocol = IpNumber.tcp then compressTcp mode b
  else if protocol = IpNumber.udp then compressUdp mode b
  else some b

def expandL4 (sums : Checksums) (mode : CompressionMode) (ft : FiveTuple) (b : Bytes) :
    Option Bytes :=
  if ft.l4Protocol = IpNumber.tcp then expandTcp sums mode ft b
  else if ft.l4Protocol = IpNumber.udp then expandUdp mode ft b
  else some b

/-! ## IPv4 -/

def zdpV4FragInfoPresent : UInt8 := 0b00001000

/-- What compression keeps of an IPv4 header. -/
structure CompressedIPv4Header where
  /-- The length of the header in words. -/
  hl : UInt8
  tos : UInt8
  fragId : UInt16
  /-- The offset of the fragment, with the flags above it. -/
  fragOffset : UInt16
  ttl : UInt8
deriving DecidableEq

namespace CompressedIPv4Header

def write (h : CompressedIPv4Header) : Bytes :=
  let fragFlags := (h.fragOffset >>> 13).toUInt8
  let fragOffset := h.fragOffset &&& 0x1fff
  let fragInfoPresent := fragOffset ≠ 0
  let hlZdpflags := (h.hl <<< 4) ||| (if fragInfoPresent then zdpV4FragInfoPresent else 0) ||| fragFlags
  [hlZdpflags, h.tos] ++ putU16 h.fragId ++ (if fragInfoPresent then putU16 fragOffset else []) ++
    [h.ttl]

def read (b : Bytes) : Option (CompressedIPv4Header × Bytes) := do
  let (hlZdpflags, b) ← getU8 b
  let (tos, b) ← getU8 b
  let fragFlags := hlZdpflags &&& 0x07
  let (fragId, b) ← getU16 b
  let (fragOffset, b) ← if hlZdpflags &&& zdpV4FragInfoPresent ≠ 0 then getU16 b else some (0, b)
  let (ttl, b) ← getU8 b
  some (⟨hlZdpflags >>> 4, tos, fragId, fragOffset ||| (fragFlags.toUInt16 <<< 13), ttl⟩, b)

end CompressedIPv4Header

/-- The IPv4 header that belongs to a compressed one. -/
def ipv4Header (h : CompressedIPv4Header) (totalLength csum : UInt16) (protocol : IpProtocol)
    (src dst : IpAddress) : Bytes :=
  [0x40 ||| h.hl, h.tos] ++ putU16 totalLength ++ putU16 h.fragId ++ putU16 h.fragOffset ++
    [h.ttl, protocol] ++ putU16 csum ++ src.readAsV4 ++ dst.readAsV4

def compressIpv4 (mode : CompressionMode) (protocol : IpProtocol) (b : Bytes) : Option Bytes :=
  if b.length < ipv4HeaderLen then none
  else do
    let h : CompressedIPv4Header := {
      hl := byteAt b 0 &&& 0x0F
      tos := byteAt b 1
      fragId := u16At b 4
      fragOffset := u16At b 6
      ttl := byteAt b 8 }
    let l4 ← compressL4 mode protocol (b.drop ipv4HeaderLen)
    some (h.write ++ l4)

def expandIpv4 (sums : Checksums) (mode : CompressionMode) (ft : FiveTuple) (b : Bytes) :
    Option Bytes := do
  let (h, b) ← CompressedIPv4Header.read b
  let l4 ← expandL4 sums mode ft b
  let expanded (csum : UInt16) : Bytes :=
    ipv4Header h (UInt16.ofNat (l4.length + ipv4HeaderLen)) csum ft.l4Protocol ft.srcAddress
      ft.dstAddress ++ l4
  let headerLen := h.hl.toNat * 4
  if (expanded 0).length < headerLen then none
  else some (expanded (sums.ip4sum ((expanded 0).take headerLen)))

/-! ## IPv6 -/

/-- What compression keeps of an IPv6 header. -/
structure CompressedIPv6Header where
  versionAndTcUpper : UInt8
  tcLowerAndFlUpper : UInt8
  flLower : UInt16
  hopLimit : UInt8
deriving DecidableEq

namespace CompressedIPv6Header

def write (h : CompressedIPv6Header) : Bytes :=
  [h.versionAndTcUpper, h.tcLowerAndFlUpper] ++ putU16 h.flLower ++ [h.hopLimit]

def read (b : Bytes) : Option (CompressedIPv6Header × Bytes) := do
  let (versionAndTcUpper, b) ← getU8 b
  let (tcLowerAndFlUpper, b) ← getU8 b
  let (flLower, b) ← getU16 b
  let (hopLimit, b) ← getU8 b
  some (⟨versionAndTcUpper, tcLowerAndFlUpper, flLower, hopLimit⟩, b)

end CompressedIPv6Header

/-- The IPv6 header that belongs to a compressed one. -/
def ipv6Header (h : CompressedIPv6Header) (payloadLength : UInt16) (protocol : IpProtocol)
    (src dst : IpAddress) : Bytes :=
  [h.versionAndTcUpper, h.tcLowerAndFlUpper] ++ putU16 h.flLower ++ putU16 payloadLength ++
    [protocol, h.hopLimit] ++ src.octets.toList ++ dst.octets.toList

def compressIpv6 (mode : CompressionMode) (protocol : IpProtocol) (b : Bytes) : Option Bytes :=
  if b.length < ipv6HeaderLen then none
  else do
    let h : CompressedIPv6Header := {
      versionAndTcUpper := byteAt b 0
      tcLowerAndFlUpper := byteAt b 1
      flLower := u16At b 2
      hopLimit := byteAt b 7 }
    let l4 ← compressL4 mode protocol (b.drop ipv6HeaderLen)
    some (h.write ++ l4)

def expandIpv6 (sums : Checksums) (mode : CompressionMode) (ft : FiveTuple) (b : Bytes) :
    Option Bytes := do
  let (h, b) ← CompressedIPv6Header.read b
  let l4 ← expandL4 sums mode ft b
  some (ipv6Header h (UInt16.ofNat l4.length) ft.l4Protocol ft.srcAddress ft.dstAddress ++ l4)

/-! ## Packets -/

def compress (mode : CompressionMode) (l3Type : L3Type) (protocol : IpProtocol) (b : Bytes) :
    Option Bytes :=
  match l3Type with
  | .ipv4 => compressIpv4 mode protocol b
  | .ipv6 => compressIpv6 mode protocol b
  | .other _ => some b

def expand (sums : Checksums) (mode : CompressionMode) (ft : FiveTuple) (b : Bytes) :
    Option Bytes :=
  match ft.l3Type with
  | .ipv4 => expandIpv4 sums mode ft b
  | .ipv6 => expandIpv6 sums mode ft b
  | .other _ => some b

end ZprCore.Fastpath
