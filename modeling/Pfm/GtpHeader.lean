import Pfm.FrameAgreement
import Pfm.Gtp

/-!
# The GTP header of a sent packet

`pfm_data_ind` decodes what a GTP header carries, `gtpHdrOf_of_bytes`.  What
`gtp_data_req` does instead of writing one is `gtpDataReq_of_path`: the pointers
it stores the length and the tunnel id through lie in the first page of memory,
so no packet is ever sent.
-/

namespace Pfm

open ByteBuffer

variable {D : Dpdk} {M : RteMbuf}

/-- The header of a T-PDU with `len` bytes for tunnel `teId`. -/
def tPduHdr (len : Nat) (teId : UInt32) : GtpHdr :=
  ⟨0x30, 0xFF, UInt16.ofNat len, teId⟩

/-- The bytes of a GTP header. -/
def GtpHdr.bytes (h : GtpHdr) : List UInt8 :=
  [h.flags, h.messageType] ++ bigEndian 2 h.gtpPloadLen.toNat ++ bigEndian 4 h.tunnelId.toNat

@[simp] theorem GtpHdr.length_bytes (h : GtpHdr) : h.bytes.length = gtpHdrSize := by
  simp [bytes]

/-- The packet `gtp_data_req` sends is an 8-byte header and the payload, and
`pfm_data_ind` decodes the header and uncovers the payload. -/
def GtpRoundTrips (g : GtpTable D) (t : Tunnel) (flowId : UInt32) (mbuf : D.mbuf.Mbuf) : Prop :=
  ∃ req, gtpDataReq g t flowId mbuf = .dataReq req ∧
    (∃ hdr : List UInt8, hdr.length = gtpHdrSize ∧
      RteMbuf.packet req.mbuf = hdr ++ RteMbuf.packet mbuf) ∧
    ∀ rx : D.mbuf.Mbuf, RteMbuf.packet rx = RteMbuf.packet req.mbuf →
      gtpHdrSize ≤ RteMbuf.dataLen rx →
      gtpHdrOf rx = tPduHdr (RteMbuf.pktLen mbuf) t.remoteTeId ∧
      ∃ payload, D.mbuf.adj rx gtpHdrSize = some payload ∧
        RteMbuf.packet payload = RteMbuf.packet mbuf

/-- A received packet that starts with the bytes of a header is decoded to that
header, and the rest is uncovered. -/
theorem gtpHdrOf_of_bytes {rx : M.Mbuf} {hdr : GtpHdr} {payload : List UInt8}
    (hpacket : RteMbuf.packet rx = hdr.bytes ++ payload)
    (hheader : gtpHdrSize ≤ RteMbuf.dataLen rx) :
    gtpHdrOf rx = hdr ∧
      ∃ rest, M.adj rx gtpHdrSize = some rest ∧ RteMbuf.packet rest = payload := by
  have hbytes : (M.view rx).packet = [] ++ hdr.bytes ++ payload := hpacket
  have hslice : slice (M.view rx).byte (0 : Nat) gtpHdrSize = hdr.bytes :=
    MbufView.slice_of_packet hbytes rfl hdr.length_bytes hheader
  have hfield {off n : Nat} (hn : off + n ≤ gtpHdrSize) :
      slice (M.view rx).byte off n = (hdr.bytes.drop off).take n := by
    have hpart := slice_part (M.view rx).byte (0 : Nat) hn
    rwa [hslice, Int.natCast_zero, Int.zero_add] at hpart
  constructor
  · have hflags : RteMbuf.byte rx 0 = hdr.flags :=
      RteMbuf.byte_of_slice (hfield (show 0 + 1 ≤ 8 by decide))
    have htype : RteMbuf.byte rx 1 = hdr.messageType :=
      RteMbuf.byte_of_slice (hfield (show 1 + 1 ≤ 8 by decide))
    have hlen : RteMbuf.ntohs rx 2 = hdr.gtpPloadLen :=
      RteMbuf.ntohs_of_slice (hfield (show 2 + 2 ≤ 8 by decide))
    have hteId : RteMbuf.ntohl rx 4 = hdr.tunnelId :=
      RteMbuf.ntohl_of_slice (hfield (show 4 + 4 ≤ 8 by decide))
    rw [gtpHdrOf, hflags, htype, hlen, hteId]
  · obtain ⟨rest, hadj, hrest⟩ := RteMbuf.adj_packet hheader
    exact ⟨rest, hadj, by rw [hrest, hpacket, List.drop_left' hdr.length_bytes]⟩

/-- With a path and room for the header, the store of the length faults: its
pointer is the value of a byte. -/
theorem gtpDataReq_of_path {g : GtpTable D} {t : Tunnel} {flowId : UInt32}
    {mbuf : D.mbuf.Mbuf} {gtpEntry : GtpPathInfo}
    (hpath : gtpPathGet g t.remoteIp = some gtpEntry)
    (hroom : gtpHdrSize ≤ RteMbuf.headroom mbuf) : gtpDataReq g t flowId mbuf = .fault := by
  obtain ⟨m, hm, _⟩ := D.mbuf.prepend_some mbuf gtpHdrSize hroom
  have hlow : (RteMbuf.byte m 2).toNat < pageSize :=
    Nat.lt_trans (RteMbuf.byte m 2).toNat_lt (by decide)
  simp only [gtpDataReq, hpath, hm, RteMbuf.storeAt_of_lt_pageSize _ hlow]

/-- `gtp_data_req` never gets as far as sending a packet. -/
theorem gtpDataReq_ne_dataReq (g : GtpTable D) (t : Tunnel) (flowId : UInt32)
    (mbuf : D.mbuf.Mbuf) (req : DataReq D.mbuf) : gtpDataReq g t flowId mbuf ≠ .dataReq req := by
  intro hreq
  cases hpath : gtpPathGet g t.remoteIp with
  | none =>
      simp only [gtpDataReq, hpath] at hreq
      cases hreq
  | some gtpEntry =>
      rcases Nat.lt_or_ge (RteMbuf.headroom mbuf) gtpHdrSize with hroom | hroom
      · simp only [gtpDataReq, hpath, D.mbuf.prepend_none _ _ hroom] at hreq
        cases hreq
      · rw [gtpDataReq_of_path hpath hroom] at hreq
        cases hreq

/-- **No packet makes the round trip**, whatever the tunnel, its path and the
payload. -/
theorem not_gtpRoundTrips (g : GtpTable D) (t : Tunnel) (flowId : UInt32)
    (mbuf : D.mbuf.Mbuf) : ¬ GtpRoundTrips g t flowId mbuf := by
  intro h
  obtain ⟨req, hreq, _⟩ := h
  exact gtpDataReq_ne_dataReq g t flowId mbuf req hreq

/-- The path to the UPF. -/
def upfPath : GtpTable listDpdk where
  gtpTable _ := ⟨upfIp, 2152, cuupIp, 2152, 1, 0⟩
  gtpTableHash := some (listDpdk.gtpHash.addKeyData listDpdk.gtpHash.empty upfIp ()).2

/-- A tunnel to the UPF. -/
def upfTunnel : Tunnel :=
  { Tunnel.zero with key := ⟨cuupIp, 1⟩, remoteIp := upfIp, remoteTeId := 80, isRowUsed := true }

/-- Three bytes for the UPF are not sent. -/
theorem upfTunnel_not_roundTrips :
    ¬ ∀ (g : GtpTable listDpdk) (t : Tunnel) (flowId : UInt32) (mbuf : listDpdk.mbuf.Mbuf),
        (gtpPathGet g t.remoteIp).isSome → gtpHdrSize ≤ RteMbuf.headroom mbuf →
        RteMbuf.pktLen mbuf ≤ 65535 → GtpRoundTrips g t flowId mbuf := by
  intro h
  obtain ⟨req, hreq, _⟩ := h upfPath upfTunnel 0 shortMbuf (by decide) (by decide) (by decide)
  have hfault : gtpDataReq upfPath upfTunnel 0 shortMbuf = .fault :=
    gtpDataReq_of_path rfl (by decide)
  rw [hfault] at hreq
  cases hreq

end Pfm
