import Pfm.Comm

/-!
# Packet headers

The layout of the Ethernet, IPv4 and UDP headers (`rte_ether.h`, `rte_ip.h`,
`rte_udp.h`): where the fields lie, and the bytes of a header that is written as
a whole.  A packet starts with the Ethernet header, followed by the IPv4 header
without options and the UDP header.
-/

namespace Pfm

open ByteBuffer

/-- Sizes of `struct rte_ether_hdr`, `struct rte_ipv4_hdr` and `struct rte_udp_hdr`. -/
abbrev etherHdrSize : Nat := 14
abbrev ipv4HdrSize : Nat := 20
abbrev udpHdrSize : Nat := 8

/-- Offsets in `struct rte_ether_hdr`. -/
abbrev dAddrOff : Nat := 0
abbrev sAddrOff : Nat := 6
abbrev etherTypeOff : Nat := 12

/-- Offsets in `struct rte_ipv4_hdr`. -/
abbrev totalLengthOff : Nat := 2
abbrev nextProtoIdOff : Nat := 9
abbrev hdrChecksumOff : Nat := 10
abbrev srcAddrOff : Nat := 12
abbrev dstAddrOff : Nat := 16

/-- Offsets in `struct rte_udp_hdr`. -/
abbrev srcPortOff : Nat := 0
abbrev dstPortOff : Nat := 2
abbrev dgramLenOff : Nat := 4

/-- `RTE_ETHER_TYPE_IPV4`. -/
abbrev etherTypeIpv4 : Nat := 0x0800

/-- The bytes of a MAC address. -/
abbrev MacAddr := BoundedLoop.CArray macAddrSize UInt8

/-- `struct rte_ipv4_hdr`.  The fields of more than one byte are in host order;
`htons` or `htonl` goes over each of them but `hdrChecksum`, which is stored as
it is, low byte first. -/
structure RteIpv4Hdr where
  versionIhl : UInt8
  typeOfService : UInt8
  totalLength : UInt16
  packetId : UInt16
  fragmentOffset : UInt16
  timeToLive : UInt8
  nextProtoId : UInt8
  hdrChecksum : UInt16
  srcAddr : UInt32
  dstAddr : UInt32

/-- `struct rte_udp_hdr`, in host order. -/
structure RteUdpHdr where
  srcPort : UInt16
  dstPort : UInt16
  dgramLen : UInt16
  dgramCksum : UInt16

def RteIpv4Hdr.bytes (h : RteIpv4Hdr) : List UInt8 :=
  [h.versionIhl, h.typeOfService] ++ bigEndian 2 h.totalLength.toNat ++
    bigEndian 2 h.packetId.toNat ++ bigEndian 2 h.fragmentOffset.toNat ++
    [h.timeToLive, h.nextProtoId] ++ littleEndian 2 h.hdrChecksum.toNat ++
    bigEndian 4 h.srcAddr.toNat ++ bigEndian 4 h.dstAddr.toNat

def RteUdpHdr.bytes (h : RteUdpHdr) : List UInt8 :=
  bigEndian 2 h.srcPort.toNat ++ bigEndian 2 h.dstPort.toNat ++
    bigEndian 2 h.dgramLen.toNat ++ bigEndian 2 h.dgramCksum.toNat

@[simp] theorem RteIpv4Hdr.length_bytes (h : RteIpv4Hdr) : h.bytes.length = ipv4HdrSize := by
  simp [bytes]

@[simp] theorem RteUdpHdr.length_bytes (h : RteUdpHdr) : h.bytes.length = udpHdrSize := by
  simp [bytes]

end Pfm
