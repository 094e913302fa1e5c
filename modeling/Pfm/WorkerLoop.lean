import Pfm.CircularScan
import Pfm.Kni
import Pfm.NextHop

/-!
# The worker loop

`pfm_worker_loop.c`: what a worker does with one packet from the distributor
(`workerPkt`), and the way of a packet to the transmit queue (`pfmDataReq`).
-/

namespace Pfm

open BoundedLoop ByteBuffer CircularScan

/-- The tables `pfm_data_req` looks addresses up in. -/
structure LinkTables (D : Dpdk) where
  kni : KniTable
  arp : ArpTable D
  route : RouteTable D

/-- `worker_info_t`. -/
structure WorkerInfo (M : RteMbuf) where
  txQueue : CArray txQueueSize (Option M.Mbuf)
  txQueueHead : Fin txQueueSize
  txQueueTail : Fin txQueueSize
  packetId : Nat

/-- The arguments of a call of `pfm_data_ind`. -/
structure DataInd (M : RteMbuf) where
  remoteIpAddr : PfmIpAddr
  localIpAddr : PfmIpAddr
  protocol : PfmProtocol
  remotePortNo : Int
  localPortNo : Int
  mbuf : M.Mbuf

/-- What the worker does with a packet it received. -/
inductive WorkerPktEnd (M : RteMbuf) where
  | freed (mbuf : M.Mbuf)
  | dataInd (ind : DataInd M)

/-- What `pfm_data_req` does with its packet: drop it, with the ARP requests
sent meanwhile, or put it on the worker's transmit queue. -/
inductive DataReqEnd (M : RteMbuf) where
  | freed (mbuf : M.Mbuf) (arps : List KniTxArp)
  | queued (mbuf : M.Mbuf) (wkr : WorkerInfo M)

variable {D : Dpdk} {M : RteMbuf}

/-- The slot is written before it is known whether the queue has room. -/
def queuePktToTx (w : WorkerInfo M) (txPkts : M.Mbuf) : WorkerInfo M :=
  let queue := Function.update w.txQueue w.txQueueHead (some txPkts)
  let head := ahead w.txQueueHead 1
  if head = w.txQueueTail then { w with txQueue := queue }
  else { w with txQueue := queue, txQueueHead := head }

/-- The body of the receive loop for one packet. -/
def workerPkt (pkt : M.Mbuf) : WorkerPktEnd M :=
  let dstAddr := RteMbuf.ntohl pkt (etherHdrSize + dstAddrOff)
  let srcAddr := RteMbuf.ntohl pkt (etherHdrSize + srcAddrOff)
  let protocol := RteMbuf.byte pkt (etherHdrSize + nextProtoIdOff)
  if protocol = PfmProtocol.udp.number then
    let srcPortNo := RteMbuf.ntohs pkt (etherHdrSize + ipv4HdrSize + srcPortOff)
    let dstPortNo := RteMbuf.ntohs pkt (etherHdrSize + ipv4HdrSize + dstPortOff)
    match M.adj pkt (etherHdrSize + ipv4HdrSize + udpHdrSize) with
    | none => .freed pkt
    | some mbuf =>
        .dataInd
          { remoteIpAddr := srcAddr
            localIpAddr := dstAddr
            protocol := .udp
            remotePortNo := srcPortNo.toNat
            localPortNo := dstPortNo.toNat
            mbuf := mbuf }
  else .freed pkt

def srcMacAddrGet (t : LinkTables D) (localIpAddr : PfmIpAddr) : Option MacAddr :=
  kniIpv4MacAddrGet t.kni localIpAddr

/-- The MAC address of the next hop and the link it is on. -/
def dstMacAddrGet (t : LinkTables D) (remoteIpAddr : PfmIpAddr) : Option (MacAddr × UInt16) :=
  (nextHop t.arp t.route remoteIpAddr).map fun arpEntry => (arpEntry.macAddr, arpEntry.linkId)

/-- `while (csum >> 16) csum = (csum & 0xFFFF) + (csum >> 16);` -/
def foldCarry : Nat → Nat → Nat
  | 0, csum => csum
  | fuel + 1, csum =>
      if csum / 65536 = 0 then csum else foldCarry fuel (csum % 65536 + csum / 65536)

/-- `check_sum` of the bytes at offset `addr`.  The loop runs up to and including
`pktLen`, and the padding byte is read when `pktLen` is even. -/
def checkSum (pkt : M.Mbuf) (addr pktLen : Nat) : UInt16 :=
  let words := pktLen / 2 + 1
  let word (k : Nat) : Nat :=
    (RteMbuf.byte pkt (addr + 2 * k)).toNat * 256 + (RteMbuf.byte pkt (addr + 2 * k + 1)).toNat
  let csum := (List.range words).foldl (fun csum k => csum + word k) 0
  let csum :=
    if pktLen % 2 = 0 then csum + (RteMbuf.byte pkt (addr + 2 * words)).toNat * 256 else csum
  ~~~ UInt16.ofNat (foldCarry 2 (csum % 2 ^ 32))

/-- The IPv4 header of `pfm_data_req`, before its checksum is known. -/
def ipv4HdrOf (lcoreId packetId pktLen : Nat) (protocol : PfmProtocol)
    (localIpAddr remoteIpAddr : PfmIpAddr) : RteIpv4Hdr where
  versionIhl := 0x40 ||| 0x05
  typeOfService := 0
  totalLength := UInt16.ofNat (pktLen + ipv4HdrSize + udpHdrSize)
  packetId := UInt16.ofNat (lcoreId <<< 12 ||| packetId)
  fragmentOffset := 0
  timeToLive := 0
  nextProtoId := protocol.number
  hdrChecksum := 0
  srcAddr := localIpAddr
  dstAddr := remoteIpAddr

/-- The UDP header of `pfm_data_req`. -/
def udpHdrOf (pktLen : Nat) (localPortNo remotePortNo : Int) : RteUdpHdr where
  srcPort := UInt16.ofInt localPortNo
  dstPort := UInt16.ofInt remotePortNo
  dgramLen := UInt16.ofNat (pktLen + udpHdrSize)
  dgramCksum := 0

/-- Fill in the IPv4 header at its place and then its checksum.  The UDP header
behind it is not there yet. -/
def fillIpv4Hdr (mbuf : M.Mbuf) (hdr : RteIpv4Hdr) : M.Mbuf :=
  let mbuf := M.store mbuf etherHdrSize hdr.bytes
  M.store mbuf (etherHdrSize + hdrChecksumOff)
    (littleEndian 2 (checkSum mbuf etherHdrSize ipv4HdrSize).toNat)

def pfmDataReq (t : LinkTables D) (lcoreId : Nat) (wkr : WorkerInfo D.mbuf)
    (localIpAddr remoteIpAddr : PfmIpAddr) (protocol : PfmProtocol)
    (localPortNo remotePortNo : Int) (mbuf : D.mbuf.Mbuf) : DataReqEnd D.mbuf :=
  let pktLen := RteMbuf.pktLen mbuf
  match D.mbuf.prepend mbuf (etherHdrSize + ipv4HdrSize + udpHdrSize) with
  | none => .freed mbuf []
  | some mbuf =>
      match srcMacAddrGet t localIpAddr with
      | none => .freed mbuf []
      | some macAddr =>
          let mbuf := D.mbuf.store mbuf sAddrOff (List.ofFn macAddr)
          match dstMacAddrGet t remoteIpAddr with
          | none => .freed mbuf (pfmKniBroadcastArp t.kni remoteIpAddr fun _ => 0xFF)
          | some (macAddr, linkId) =>
              let mbuf := D.mbuf.store mbuf dAddrOff (List.ofFn macAddr)
              let mbuf := D.mbuf.store mbuf etherTypeOff (bigEndian 2 etherTypeIpv4)
              let mbuf := fillIpv4Hdr mbuf
                (ipv4HdrOf lcoreId wkr.packetId pktLen protocol localIpAddr remoteIpAddr)
              let mbuf := D.mbuf.store mbuf (etherHdrSize + ipv4HdrSize)
                (udpHdrOf pktLen localPortNo remotePortNo).bytes
              let mbuf := D.mbuf.setPort mbuf linkId
              let mbuf := D.mbuf.orOlFlags mbuf (D.mbuf.pktTxIpv4 ||| D.mbuf.pktTxIpCksum)
              .queued mbuf (queuePktToTx wkr mbuf)

/-- Two turns of the folding loop are enough for a 32-bit sum. -/
theorem foldCarry_lt {csum : Nat} (h : csum < 2 ^ 32) : foldCarry 2 csum < 65536 := by
  simp only [foldCarry]
  split
  · omega
  · split
    · omega
    · omega

end Pfm
