import Pfm.Classifier
import Pfm.WorkerLoop

/-!
# Frames on the wire

A UDP frame as a value, `UdpFrame`, and the three pieces of code that have to
agree on its bytes: `pfm_data_req`, which lays them out, and `packet_classify`
and the worker loop, which read them at the other end.  Each is stated against
the frame that an mbuf `Carries`.
-/

namespace Pfm

open BoundedLoop ByteBuffer

/-- An IPv4/UDP frame. -/
structure UdpFrame where
  dAddr : MacAddr
  sAddr : MacAddr
  ip : RteIpv4Hdr
  udp : RteUdpHdr
  payload : List UInt8

/-- The bytes of all headers. -/
abbrev udpFrameHdrSize : Nat := etherHdrSize + ipv4HdrSize + udpHdrSize

namespace UdpFrame

def etherHdr (f : UdpFrame) : List UInt8 :=
  List.ofFn f.dAddr ++ List.ofFn f.sAddr ++ bigEndian 2 etherTypeIpv4

def bytes (f : UdpFrame) : List UInt8 :=
  f.etherHdr ++ f.ip.bytes ++ f.udp.bytes ++ f.payload

@[simp] theorem length_etherHdr (f : UdpFrame) : f.etherHdr.length = etherHdrSize := by
  simp [etherHdr]

theorem length_bytes (f : UdpFrame) : f.bytes.length = udpFrameHdrSize + f.payload.length := by
  simp only [bytes, List.length_append, length_etherHdr, RteIpv4Hdr.length_bytes,
    RteUdpHdr.length_bytes]

end UdpFrame

variable {M : RteMbuf} {D : Dpdk}

/-- The mbuf holds the frame, with all headers in its first segment. -/
structure Carries (m : M.Mbuf) (f : UdpFrame) : Prop where
  packet : RteMbuf.packet m = f.bytes
  headers : udpFrameHdrSize ≤ RteMbuf.dataLen m

namespace Carries

variable {m : M.Mbuf} {f : UdpFrame}

theorem pktLen (h : Carries m f) : RteMbuf.pktLen m = udpFrameHdrSize + f.payload.length := by
  rw [← RteMbuf.length_packet, h.packet, f.length_bytes]

/-! ### The fields, where the readers look for them -/

theorem etherHdr_slice (h : Carries m f) :
    slice (M.view m).byte (0 : Nat) etherHdrSize = f.etherHdr := by
  have hbytes : (M.view m).packet = [] ++ f.etherHdr ++ (f.ip.bytes ++ f.udp.bytes ++ f.payload) :=
    h.packet.trans (by simp [UdpFrame.bytes])
  exact MbufView.slice_of_packet hbytes rfl f.length_etherHdr
    (Nat.le_trans (by decide) h.headers)

theorem ipv4Hdr_slice (h : Carries m f) :
    slice (M.view m).byte etherHdrSize ipv4HdrSize = f.ip.bytes := by
  have hbytes : (M.view m).packet = f.etherHdr ++ f.ip.bytes ++ (f.udp.bytes ++ f.payload) :=
    h.packet.trans (by simp [UdpFrame.bytes])
  exact MbufView.slice_of_packet hbytes f.length_etherHdr f.ip.length_bytes
    (Nat.le_trans (by decide) h.headers)

theorem udpHdr_slice (h : Carries m f) :
    slice (M.view m).byte (etherHdrSize + ipv4HdrSize : Nat) udpHdrSize = f.udp.bytes := by
  have hbytes : (M.view m).packet = f.etherHdr ++ f.ip.bytes ++ f.udp.bytes ++ f.payload := h.packet
  exact MbufView.slice_of_packet hbytes (by simp) f.udp.length_bytes h.headers

theorem ipv4_field (h : Carries m f) {off n : Nat} (hn : off + n ≤ ipv4HdrSize) :
    slice (M.view m).byte (etherHdrSize + off : Nat) n = (f.ip.bytes.drop off).take n := by
  rw [Int.natCast_add, slice_part _ _ hn, h.ipv4Hdr_slice]

theorem udp_field (h : Carries m f) {off n : Nat} (hn : off + n ≤ udpHdrSize) :
    slice (M.view m).byte (etherHdrSize + ipv4HdrSize + off : Nat) n =
      (f.udp.bytes.drop off).take n := by
  rw [Int.natCast_add, slice_part _ _ hn, h.udpHdr_slice]

theorem etherType (h : Carries m f) :
    RteMbuf.byte m etherTypeOff = 0x08 ∧ RteMbuf.byte m (etherTypeOff + 1) = 0x00 := by
  have hfield {i : Nat} (hi : i < 2) :
      slice (M.view m).byte (etherTypeOff + i : Nat) 1 =
        ((bigEndian 2 etherTypeIpv4).drop i).take 1 := by
    have hpart : slice (M.view m).byte ((0 : Nat) + (etherTypeOff + i : Nat)) 1 =
        (f.etherHdr.drop (etherTypeOff + i)).take 1 := by
      rw [slice_part _ _ (show 12 + i + 1 ≤ 14 by omega), h.etherHdr_slice]
    rw [Int.natCast_zero, Int.zero_add] at hpart
    rw [hpart, UdpFrame.etherHdr, ← List.drop_drop, List.drop_left' (by simp)]
  exact ⟨RteMbuf.byte_of_slice (hfield (by decide : 0 < 2)),
    RteMbuf.byte_of_slice (hfield (by decide : 1 < 2))⟩

theorem totalLength (h : Carries m f) :
    RteMbuf.ntohs m (etherHdrSize + totalLengthOff) = f.ip.totalLength :=
  RteMbuf.ntohs_of_slice (h.ipv4_field (by decide))

theorem nextProtoId (h : Carries m f) :
    RteMbuf.byte m (etherHdrSize + nextProtoIdOff) = f.ip.nextProtoId :=
  RteMbuf.byte_of_slice (h.ipv4_field (by decide))

theorem srcAddr (h : Carries m f) :
    RteMbuf.ntohl m (etherHdrSize + srcAddrOff) = f.ip.srcAddr :=
  RteMbuf.ntohl_of_slice (h.ipv4_field (by decide))

theorem dstAddr (h : Carries m f) :
    RteMbuf.ntohl m (etherHdrSize + dstAddrOff) = f.ip.dstAddr :=
  RteMbuf.ntohl_of_slice (h.ipv4_field (by decide))

theorem srcPort (h : Carries m f) :
    RteMbuf.ntohs m (etherHdrSize + ipv4HdrSize + srcPortOff) = f.udp.srcPort :=
  RteMbuf.ntohs_of_slice (h.udp_field (by decide))

theorem dstPort (h : Carries m f) :
    RteMbuf.ntohs m (etherHdrSize + ipv4HdrSize + dstPortOff) = f.udp.dstPort :=
  RteMbuf.ntohs_of_slice (h.udp_field (by decide))

theorem dgramLen (h : Carries m f) :
    RteMbuf.ntohs m (etherHdrSize + ipv4HdrSize + dgramLenOff) = f.udp.dgramLen :=
  RteMbuf.ntohs_of_slice (h.udp_field (by decide))

end Carries

/-! ### Laying the frame out -/

theorem slice_etherHdr (b : Int → UInt8) (f : UdpFrame) :
    slice (patch (patch (patch b sAddrOff (List.ofFn f.sAddr)) dAddrOff (List.ofFn f.dAddr))
      etherTypeOff (bigEndian 2 etherTypeIpv4)) 0 etherHdrSize = f.etherHdr := by
  have hsplit (g : Int → UInt8) :
      slice g 0 etherHdrSize =
        slice g dAddrOff 6 ++ slice g sAddrOff 6 ++ slice g etherTypeOff 2 := by
    rw [show etherHdrSize = 6 + 6 + 2 from rfl, slice_add, slice_add]
    rfl
  rw [hsplit, slice_patch_of_length _ _ (length_bigEndian 2 _), slice_patch_disjoint (by simp),
    slice_patch_of_length _ _ List.length_ofFn, slice_patch_disjoint (by simp),
    slice_patch_disjoint (by simp), slice_patch_of_length _ _ List.length_ofFn, UdpFrame.etherHdr]

/-- The IPv4 header with its checksum filled in. -/
theorem slice_fillIpv4Hdr (m : M.Mbuf) (hdr : RteIpv4Hdr) :
    slice (M.view (fillIpv4Hdr m hdr)).byte etherHdrSize ipv4HdrSize =
      { hdr with
        hdrChecksum :=
          checkSum (M.store m etherHdrSize hdr.bytes) etherHdrSize ipv4HdrSize :
            RteIpv4Hdr }.bytes := by
  rw [fillIpv4Hdr, M.view_store, M.view_store, MbufView.store, MbufView.store,
    slice_patch_middle _ _ (by rw [length_littleEndian]; decide),
    slice_patch_of_length _ _ hdr.length_bytes]
  rfl

/-- What `fillIpv4Hdr` leaves alone. -/
theorem slice_fillIpv4Hdr_disjoint (m : M.Mbuf) (hdr : RteIpv4Hdr) {off : Int} {n : Nat}
    (h : off + n ≤ 14 ∨ 34 ≤ off) :
    slice (M.view (fillIpv4Hdr m hdr)).byte off n = slice (M.view m).byte off n := by
  rw [fillIpv4Hdr, M.view_store, M.view_store, MbufView.store, MbufView.store,
    slice_patch_disjoint, slice_patch_disjoint]
  · simp
    omega
  · simp
    omega

/-- The stores of `pfm_data_req` into the bytes it prepended. -/
theorem carries_of_prepended {mbuf m : M.Mbuf}
    (hview : M.view m = (M.view mbuf).prepend udpFrameHdrSize) (smac dmac : MacAddr)
    (hdr : RteIpv4Hdr) (udp : RteUdpHdr) :
    ∃ csum, Carries
      (M.store
        (fillIpv4Hdr
          (M.store (M.store (M.store m sAddrOff (List.ofFn smac)) dAddrOff (List.ofFn dmac))
            etherTypeOff (bigEndian 2 etherTypeIpv4))
          hdr)
        (etherHdrSize + ipv4HdrSize) udp.bytes)
      { dAddr := dmac
        sAddr := smac
        ip := { hdr with hdrChecksum := csum }
        udp := udp
        payload := RteMbuf.packet mbuf } := by
  let ether := M.store (M.store (M.store m sAddrOff (List.ofFn smac)) dAddrOff
    (List.ofFn dmac)) etherTypeOff (bigEndian 2 etherTypeIpv4)
  let frame := M.store (fillIpv4Hdr ether hdr) (etherHdrSize + ipv4HdrSize) udp.bytes
  let csum := checkSum (M.store ether etherHdrSize hdr.bytes) etherHdrSize ipv4HdrSize
  have hether : (M.view ether).byte = patch (patch (patch (M.view m).byte sAddrOff
      (List.ofFn smac)) dAddrOff (List.ofFn dmac)) etherTypeOff (bigEndian 2 etherTypeIpv4) := by
    simp only [ether, M.view_store]
    rfl
  have hframe : (M.view frame).byte =
      patch (M.view (fillIpv4Hdr ether hdr)).byte (etherHdrSize + ipv4HdrSize) udp.bytes := by
    simp only [frame, M.view_store]
    rfl
  have hlen : (M.view frame).dataLen = (M.view mbuf).dataLen + udpFrameHdrSize := by
    simp only [frame, ether, fillIpv4Hdr, M.view_store, hview]
    rfl
  have hchain : (M.view frame).chained = (M.view mbuf).chained := by
    simp only [frame, ether, fillIpv4Hdr, M.view_store, hview]
    rfl
  -- the headers end where the payload starts
  have hrest : slice (M.view frame).byte udpFrameHdrSize (M.view mbuf).dataLen =
      slice (M.view mbuf).byte 0 (M.view mbuf).dataLen := by
    rw [hframe, slice_patch_disjoint (by simp), slice_fillIpv4Hdr_disjoint _ _ (by simp), hether,
      slice_patch_disjoint (by simp), slice_patch_disjoint (by simp),
      slice_patch_disjoint (by simp), hview, MbufView.slice_prepend]
  have hsplit (g : Int → UInt8) : slice g 0 udpFrameHdrSize =
      slice g 0 etherHdrSize ++ slice g etherHdrSize ipv4HdrSize ++
        slice g (etherHdrSize + ipv4HdrSize) udpHdrSize := by
    rw [show udpFrameHdrSize = etherHdrSize + ipv4HdrSize + udpHdrSize from rfl, slice_add,
      slice_add]
    rfl
  refine ⟨csum, ?_, ?_⟩
  · change (M.view frame).packet = _
    rw [MbufView.packet_of_header hlen hchain hrest, hsplit, hframe,
      slice_patch_of_length _ _ udp.length_bytes, slice_patch_disjoint (by simp),
      slice_patch_disjoint (by simp), slice_fillIpv4Hdr, slice_fillIpv4Hdr_disjoint _ _ (by simp),
      hether, slice_etherHdr _ ⟨dmac, smac, hdr, udp, []⟩]
    rfl
  · change _ ≤ (M.view frame).dataLen
    omega

/-- The port and the offload flags are no part of the packet. -/
theorem Carries.withPort {m : M.Mbuf} {f : UdpFrame} (h : Carries m f) (port : UInt16)
    (flags : UInt64) : Carries (M.orOlFlags (M.setPort m port) flags) f := by
  have hpacket : RteMbuf.packet (M.orOlFlags (M.setPort m port) flags) = RteMbuf.packet m := by
    rw [RteMbuf.packet, M.view_orOlFlags, M.view_setPort]
    rfl
  have hlen : RteMbuf.dataLen (M.orOlFlags (M.setPort m port) flags) = RteMbuf.dataLen m := by
    rw [RteMbuf.dataLen, M.view_orOlFlags, M.view_setPort]
    rfl
  exact ⟨hpacket.trans h.packet, hlen ▸ h.headers⟩

/-- What `pfm_data_req` puts on the queue when it finds both MAC addresses and
room for the headers: the payload it was given, behind the headers it computed. -/
theorem pfmDataReq_carries (t : LinkTables D) (lcoreId : Nat) (wkr : WorkerInfo D.mbuf)
    {localIpAddr remoteIpAddr : PfmIpAddr} (protocol : PfmProtocol)
    (localPortNo remotePortNo : Int) {mbuf : D.mbuf.Mbuf} {smac dmac : MacAddr}
    {linkId : UInt16}
    (hroom : udpFrameHdrSize ≤ RteMbuf.headroom mbuf)
    (hsrc : srcMacAddrGet t localIpAddr = some smac)
    (hdst : dstMacAddrGet t remoteIpAddr = some (dmac, linkId)) :
    ∃ frame csum,
      pfmDataReq t lcoreId wkr localIpAddr remoteIpAddr protocol localPortNo remotePortNo mbuf =
        .queued frame (queuePktToTx wkr frame) ∧
      Carries frame
        { dAddr := dmac
          sAddr := smac
          ip := { ipv4HdrOf lcoreId wkr.packetId (RteMbuf.pktLen mbuf) protocol
            localIpAddr remoteIpAddr with hdrChecksum := csum }
          udp := udpHdrOf (RteMbuf.pktLen mbuf) localPortNo remotePortNo
          payload := RteMbuf.packet mbuf } := by
  obtain ⟨m, hm, hview⟩ := D.mbuf.prepend_some mbuf udpFrameHdrSize hroom
  obtain ⟨csum, hcarries⟩ := carries_of_prepended hview smac dmac
    (ipv4HdrOf lcoreId wkr.packetId (RteMbuf.pktLen mbuf) protocol localIpAddr remoteIpAddr)
    (udpHdrOf (RteMbuf.pktLen mbuf) localPortNo remotePortNo)
  refine ⟨_, csum, ?_, hcarries.withPort linkId (D.mbuf.pktTxIpv4 ||| D.mbuf.pktTxIpCksum)⟩
  simp only [pfmDataReq, hm, hsrc, hdst]

/-- What a call that queues its packet found and did. -/
theorem pfmDataReq_frame {t : LinkTables D} {lcoreId : Nat} {wkr wkr' : WorkerInfo D.mbuf}
    {localIpAddr remoteIpAddr : PfmIpAddr} {protocol : PfmProtocol}
    {localPortNo remotePortNo : Int} {mbuf frame : D.mbuf.Mbuf}
    (h : pfmDataReq t lcoreId wkr localIpAddr remoteIpAddr protocol localPortNo remotePortNo
      mbuf = .queued frame wkr') :
    ∃ smac dmac linkId m, srcMacAddrGet t localIpAddr = some smac ∧
      dstMacAddrGet t remoteIpAddr = some (dmac, linkId) ∧
      udpFrameHdrSize ≤ RteMbuf.headroom mbuf ∧
      D.mbuf.view m = (D.mbuf.view mbuf).prepend udpFrameHdrSize ∧
      frame = D.mbuf.orOlFlags (D.mbuf.setPort
        (D.mbuf.store
          (fillIpv4Hdr
            (D.mbuf.store
              (D.mbuf.store (D.mbuf.store m sAddrOff (List.ofFn smac)) dAddrOff (List.ofFn dmac))
              etherTypeOff (bigEndian 2 etherTypeIpv4))
            (ipv4HdrOf lcoreId wkr.packetId (RteMbuf.pktLen mbuf) protocol localIpAddr
              remoteIpAddr))
          (etherHdrSize + ipv4HdrSize)
          (udpHdrOf (RteMbuf.pktLen mbuf) localPortNo remotePortNo).bytes)
        linkId) (D.mbuf.pktTxIpv4 ||| D.mbuf.pktTxIpCksum) ∧
      wkr' = queuePktToTx wkr frame := by
  cases Nat.lt_or_ge (RteMbuf.headroom mbuf) udpFrameHdrSize with
  | inl hroom =>
      have hnone := D.mbuf.prepend_none mbuf udpFrameHdrSize hroom
      simp only [pfmDataReq, hnone, reduceCtorEq] at h
  | inr hroom =>
      obtain ⟨m, hm, hview⟩ := D.mbuf.prepend_some mbuf udpFrameHdrSize hroom
      cases hsrc : srcMacAddrGet t localIpAddr with
      | none => simp only [pfmDataReq, hm, hsrc, reduceCtorEq] at h
      | some smac =>
          cases hdst : dstMacAddrGet t remoteIpAddr with
          | none => simp only [pfmDataReq, hm, hsrc, hdst, reduceCtorEq] at h
          | some dst =>
              simp only [pfmDataReq, hm, hsrc, hdst, DataReqEnd.queued.injEq] at h
              obtain ⟨rfl, rfl⟩ := h
              exact ⟨smac, dst.1, dst.2, m, rfl, rfl, hroom, hview, rfl, rfl⟩

/-! ### Reading the frame -/

section reading

variable {m : M.Mbuf} {f : UdpFrame}

/-- The classifier's answer for a frame. -/
theorem packetClassify_of_carries {Kni : Type} (h : Carries m f) (ic : IngressClassifier Kni) :
    (packetClassify ic m).1 = .gtp ↔
      f.ip.dstAddr ≠ bcastIpAddr ∧ f.ip.nextProtoId = 17 ∧
      ∃ kni, ic.kniOf f.ip.dstAddr = some kni ∧ kni.portNo = f.udp.dstPort.toNat := by
  rw [packetClassify_gtp_iff, h.dstAddr, h.nextProtoId, h.dstPort]
  constructor
  · intro hgtp
    exact hgtp.2.2
  · intro hgtp
    exact ⟨h.etherType.1, h.etherType.2, hgtp⟩

/-- What the worker passes on of a UDP frame. -/
theorem workerPkt_of_carries (h : Carries m f)
    (hproto : f.ip.nextProtoId = PfmProtocol.udp.number) :
    ∃ ind, workerPkt m = .dataInd ind ∧ ind.remoteIpAddr = f.ip.srcAddr ∧
      ind.localIpAddr = f.ip.dstAddr ∧ ind.protocol = .udp ∧
      ind.remotePortNo = f.udp.srcPort.toNat ∧ ind.localPortNo = f.udp.dstPort.toNat ∧
      RteMbuf.packet ind.mbuf = f.payload := by
  obtain ⟨m', hadj, hpacket⟩ := RteMbuf.adj_packet h.headers
  have hpayload : RteMbuf.packet m' = f.payload := by
    rw [hpacket, h.packet, UdpFrame.bytes, List.drop_left']
    simp only [List.length_append, UdpFrame.length_etherHdr, RteIpv4Hdr.length_bytes,
      RteUdpHdr.length_bytes]
  refine ⟨⟨f.ip.srcAddr, f.ip.dstAddr, .udp, f.udp.srcPort.toNat, f.udp.dstPort.toNat, m'⟩,
    ?_, rfl, rfl, rfl, rfl, rfl, hpayload⟩
  simp only [workerPkt, h.nextProtoId, hproto, hadj, h.srcAddr, h.dstAddr, h.srcPort, h.dstPort,
    if_pos]

end reading

/-! ### The round trip -/

/-- A port number survives being passed as an `int`. -/
theorem ofInt_toNat (port : UInt16) : UInt16.ofInt port.toNat = port := by
  have hlt : port.toNat < 65536 := port.toNat_lt
  have hmod : ((port.toNat : Int) % 2 ^ 16).toNat = port.toNat := by omega
  rw [UInt16.ofInt, hmod, UInt16.ofNat_toNat]

/-- A frame that has the lengths it says it has and is read as it was built, in
any mbuf that holds its headers in the first segment: it is GTP for exactly those
classifiers whose first interface with the destination address has the
destination port, and the worker indicates the sender's addresses and ports, the
two ends swapped, with the sender's payload. -/
structure FrameAgrees (frame : M.Mbuf) (localIpAddr remoteIpAddr : PfmIpAddr)
    (localPortNo remotePortNo : UInt16) (payload : List UInt8) : Prop where
  headers : udpFrameHdrSize ≤ RteMbuf.dataLen frame
  pktLen : RteMbuf.pktLen frame = udpFrameHdrSize + payload.length
  totalLength : (RteMbuf.ntohs frame (etherHdrSize + totalLengthOff)).toNat =
    RteMbuf.pktLen frame - etherHdrSize
  dgramLen : (RteMbuf.ntohs frame (etherHdrSize + ipv4HdrSize + dgramLenOff)).toNat =
    RteMbuf.pktLen frame - (etherHdrSize + ipv4HdrSize)
  classified : ∀ rx : M.Mbuf, RteMbuf.packet rx = RteMbuf.packet frame →
    udpFrameHdrSize ≤ RteMbuf.dataLen rx → ∀ (Kni : Type) (ic : IngressClassifier Kni),
      (packetClassify ic rx).1 = .gtp ↔
        ∃ kni, ic.kniOf remoteIpAddr = some kni ∧ kni.portNo = remotePortNo.toNat
  indicated : ∀ rx : M.Mbuf, RteMbuf.packet rx = RteMbuf.packet frame →
    udpFrameHdrSize ≤ RteMbuf.dataLen rx →
      ∃ ind, workerPkt rx = .dataInd ind ∧ ind.remoteIpAddr = localIpAddr ∧
        ind.localIpAddr = remoteIpAddr ∧ ind.protocol = .udp ∧
        ind.remotePortNo = localPortNo.toNat ∧ ind.localPortNo = remotePortNo.toNat ∧
        RteMbuf.packet ind.mbuf = payload

/-- The frames that carry the headers of `pfm_data_req` agree with it. -/
theorem frameAgrees_of_carries {frame : M.Mbuf} {f : UdpFrame} (h : Carries frame f)
    (hproto : f.ip.nextProtoId = PfmProtocol.udp.number) (hbcast : f.ip.dstAddr ≠ bcastIpAddr)
    (hlen : f.payload.length ≤ 65507)
    (htotal : f.ip.totalLength = UInt16.ofNat (f.payload.length + ipv4HdrSize + udpHdrSize))
    (hdgram : f.udp.dgramLen = UInt16.ofNat (f.payload.length + udpHdrSize)) :
    FrameAgrees frame f.ip.srcAddr f.ip.dstAddr f.udp.srcPort f.udp.dstPort f.payload where
  headers := h.headers
  pktLen := h.pktLen
  totalLength := by
    have hlt : f.payload.length + 20 + 8 < 65536 := by omega
    rw [h.totalLength, h.pktLen, htotal, UInt16.toNat_ofNat_of_lt' hlt]
    change _ = 42 + f.payload.length - 14
    omega
  dgramLen := by
    have hlt : f.payload.length + 8 < 65536 := by omega
    rw [h.dgramLen, h.pktLen, hdgram, UInt16.toNat_ofNat_of_lt' hlt]
    change _ = 42 + f.payload.length - 34
    omega
  classified rx hrx hheaders Kni ic := by
    rw [packetClassify_of_carries (Carries.mk (hrx.trans h.packet) hheaders) ic]
    constructor
    · intro hgtp
      exact hgtp.2.2
    · intro hgtp
      exact ⟨hbcast, hproto, hgtp⟩
  indicated rx hrx hheaders :=
    workerPkt_of_carries (Carries.mk (hrx.trans h.packet) hheaders) hproto

/-- **A frame comes out as it went in.**  When `pfm_data_req` finds both MAC
addresses and room for the headers, the frame it queues agrees with the call. -/
theorem dataReq_frameAgrees {t : LinkTables D} {lcoreId : Nat}
    {wkr : WorkerInfo D.mbuf} {localIpAddr remoteIpAddr : PfmIpAddr}
    {localPortNo remotePortNo : UInt16} {mbuf : D.mbuf.Mbuf} {smac dmac : MacAddr}
    {linkId : UInt16} (hlen : RteMbuf.pktLen mbuf ≤ 65507)
    (hroom : udpFrameHdrSize ≤ RteMbuf.headroom mbuf)
    (hsrc : srcMacAddrGet t localIpAddr = some smac)
    (hdst : dstMacAddrGet t remoteIpAddr = some (dmac, linkId))
    (hremote : remoteIpAddr ≠ bcastIpAddr) :
    ∃ frame,
      pfmDataReq t lcoreId wkr localIpAddr remoteIpAddr .udp localPortNo.toNat
        remotePortNo.toNat mbuf = .queued frame (queuePktToTx wkr frame) ∧
      FrameAgrees frame localIpAddr remoteIpAddr localPortNo remotePortNo
        (RteMbuf.packet mbuf) := by
  obtain ⟨frame, csum, hreq, hcarries⟩ := pfmDataReq_carries t lcoreId wkr .udp
    localPortNo.toNat remotePortNo.toNat hroom hsrc hdst
  rw [← RteMbuf.length_packet] at hlen hcarries
  have hagrees := frameAgrees_of_carries hcarries rfl hremote hlen rfl rfl
  simp only [udpHdrOf, ofInt_toNat] at hagrees
  exact ⟨frame, hreq, hagrees⟩

/-- Links with one local address, and the next hop of the UPF known. -/
def peerLinks : LinkTables listDpdk where
  kni := ⟨[⟨cuupIp, fun _ => 2, 0⟩], by decide⟩
  arp := upfArp
  route := RouteTable.init listDpdk

def idleWorker : WorkerInfo M := ⟨fun _ => none, ⟨0, by decide⟩, ⟨0, by decide⟩, 0⟩

/-- Three bytes in the middle of a buffer. -/
def shortMbuf : listDpdk.mbuf.Mbuf :=
  ⟨{ mtod := 8192
     headroom := 128
     dataLen := 3
     tailroom := 1917
     byte := fun i => UInt8.ofNat i.toNat
     chained := []
     port := 0
     olFlags := 0 }, by decide⟩

theorem shortMbuf_room : pageSize + shortMbuf.val.headroom ≤ shortMbuf.val.mtod := by decide

theorem dataReq_frameAgrees_shortMbuf :
    ∃ frame,
      pfmDataReq peerLinks 4 idleWorker cuupIp upfIp .udp (2152 : UInt16).toNat
        (2152 : UInt16).toNat shortMbuf = .queued frame (queuePktToTx idleWorker frame) ∧
      FrameAgrees frame cuupIp upfIp 2152 2152 [0, 1, 2] := by
  have hsrc : srcMacAddrGet peerLinks cuupIp = some fun _ => 2 := rfl
  have hdst : dstMacAddrGet peerLinks upfIp = some (fun _ => 0, 0) := rfl
  exact dataReq_frameAgrees (by decide) (by decide) hsrc hdst (by decide)

end Pfm
