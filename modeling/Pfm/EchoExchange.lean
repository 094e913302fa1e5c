import Pfm.GtpHeader
import Pfm.GtpPath

/-!
# The echo exchange

`pfm_data_ind` has removed the GTP header when it hands an echo request to
`gtp_echo_response_send`, which sends the buffer back as it is: the reply is the
body of the request, without a header, and the message type is written over the
second byte of the body.  An echo request of the program's own is never sent
(`gtpEchoRequestSend_eq`).
-/

namespace Pfm

open ByteBuffer

variable {D : Dpdk} {M : RteMbuf}

def gtpEchoResponseSend (t : GtpPathInfo) (mbuf : M.Mbuf) : DataReq M where
  localIpAddr := t.localIp
  remoteIpAddr := t.remoteIp
  protocol := .udp
  localPortNo := t.localPortNo.toNat
  remotePortNo := t.remotePortNo.toNat
  mbuf := M.store mbuf 1 [0x02]

/-- A packet is received from the other end of a path, and is an echo request with
its header in the first segment. -/
structure EchoRequest (g : GtpTable D) (ind : DataInd D.mbuf) (gtpEntry : GtpPathInfo) :
    Prop where
  path : gtpPathGet g ind.remoteIpAddr = some gtpEntry
  headers : gtpHdrSize ≤ RteMbuf.dataLen ind.mbuf
  flags : (gtpHdrOf ind.mbuf).flags = 0x30
  messageType : (gtpHdrOf ind.mbuf).messageType = 0x01

/-- The reply to a request: a GTP message with a header of its own, the tunnel id and
the body of the request, which any peer with a path takes for an echo response. -/
structure EchoReply (request reply : D.mbuf.Mbuf) : Prop where
  bytes : ∃ len, RteMbuf.packet reply =
    (GtpHdr.mk 0x30 0x02 len (gtpHdrOf request).tunnelId).bytes ++
      (RteMbuf.packet request).drop gtpHdrSize
  accepted : ∀ (g : GtpTable D) (T : TunnelTable D) (ind : DataInd D.mbuf) (e : GtpPathInfo),
    gtpPathGet g ind.remoteIpAddr = some e → gtpHdrSize ≤ RteMbuf.dataLen ind.mbuf →
    RteMbuf.packet ind.mbuf = RteMbuf.packet reply →
      ∃ mbuf, pfmDataInd g T ind = .gtpPathTimerReset e mbuf

/-- A received echo request is answered. -/
def EchoAnswered (g : GtpTable D) (T : TunnelTable D) (ind : DataInd D.mbuf)
    (gtpEntry : GtpPathInfo) : Prop :=
  ∃ mbuf, pfmDataInd g T ind = .gtpEchoResponseSend gtpEntry mbuf ∧
    EchoReply ind.mbuf (gtpEchoResponseSend gtpEntry mbuf).mbuf

/-- What is sent back for a packet with headers of the given length: what is behind them, with
another second byte where the first segment has one. -/
def echoReplyBytes (m : M.Mbuf) (hdrSize : Nat) : List UInt8 :=
  let body := (RteMbuf.packet m).drop hdrSize
  if hdrSize + 2 ≤ RteMbuf.dataLen m then body.set 1 0x02 else body

/-- A path gets an echo request: a message with the eight bytes of a header. -/
def EchoRequested (t : GtpPathInfo) (alloc : M.Mbuf) : Prop :=
  ∃ req, gtpEchoRequestSend t (some alloc) = some (.success, some req) ∧
    ∃ body, RteMbuf.packet req.mbuf = (GtpHdr.mk 0x30 0x01 0 0).bytes ++ body

/-- A store does not change the length of a packet. -/
theorem pktLen_store (m : M.Mbuf) (off : Int) (bs : List UInt8) :
    RteMbuf.pktLen (M.store m off bs) = RteMbuf.pktLen m := by
  rw [RteMbuf.pktLen, M.view_store]
  rfl

/-- A byte of the first segment is written. -/
theorem packet_store_one (m : M.Mbuf) {i : Nat} (b : UInt8) (h : i < RteMbuf.dataLen m) :
    RteMbuf.packet (M.store m i [b]) = (RteMbuf.packet m).set i b := by
  have hmiddle := @slice_patch_middle [b] (M.view m).byte 0 i (M.view m).dataLen h
  have hset : (slice (M.view m).byte 0 (M.view m).dataLen).set i b =
      (slice (M.view m).byte 0 (M.view m).dataLen).take i ++ [b] ++
        (slice (M.view m).byte 0 (M.view m).dataLen).drop (i + 1) := by
    rw [List.set_eq_take_append_cons_drop, if_pos (by rw [length_slice]; exact h),
      List.append_assoc]
    rfl
  rw [Int.zero_add, List.length_singleton, ← hset] at hmiddle
  rw [RteMbuf.packet, M.view_store, MbufView.packet, MbufView.store, hmiddle, RteMbuf.packet,
    MbufView.packet, List.set_append_left _ _ (by rw [length_slice]; exact h)]

/-- A store behind the first segment does not change the packet. -/
theorem packet_store_behind (m : M.Mbuf) {i : Nat} (bs : List UInt8) (h : RteMbuf.dataLen m ≤ i) :
    RteMbuf.packet (M.store m i bs) = RteMbuf.packet m := by
  have hbefore : (0 : Int) + (M.view m).dataLen ≤ i := by
    rw [Int.zero_add]
    exact Int.ofNat_le.mpr h
  rw [RteMbuf.packet, M.view_store, MbufView.packet, MbufView.store,
    slice_patch_disjoint (Or.inl hbefore)]
  rfl

/-- Headers that are removed are not sent back. -/
theorem echoReplyBytes_adj {m pkt : M.Mbuf} {n : Nat} (hn : n ≤ RteMbuf.dataLen pkt)
    (hview : M.view m = (M.view pkt).adj n) (hdrSize : Nat) :
    echoReplyBytes m hdrSize = echoReplyBytes pkt (n + hdrSize) := by
  have hpacket : RteMbuf.packet m = (RteMbuf.packet pkt).drop n := by
    rw [RteMbuf.packet, hview, MbufView.packet_adj _ hn]
    rfl
  have hdataLen : RteMbuf.dataLen m = RteMbuf.dataLen pkt - n := by
    rw [RteMbuf.dataLen, hview]
    rfl
  have hiff : hdrSize + 2 ≤ RteMbuf.dataLen m ↔ n + hdrSize + 2 ≤ RteMbuf.dataLen pkt := by omega
  simp only [echoReplyBytes, hiff, hpacket, List.drop_drop]

section request

variable {g : GtpTable D} {ind : DataInd D.mbuf} {gtpEntry : GtpPathInfo}

/-- The response is made in the buffer that the header was removed from. -/
theorem pfmDataInd_echoRequest (h : EchoRequest g ind gtpEntry) (T : TunnelTable D) :
    ∃ mbuf, D.mbuf.adj ind.mbuf gtpHdrSize = some mbuf ∧
      RteMbuf.packet mbuf = (RteMbuf.packet ind.mbuf).drop gtpHdrSize ∧
      pfmDataInd g T ind = .gtpEchoResponseSend gtpEntry mbuf := by
  obtain ⟨mbuf, hadj, hpacket⟩ := RteMbuf.adj_packet h.headers
  refine ⟨mbuf, hadj, hpacket, ?_⟩
  simp only [pfmDataInd, h.flags, hadj, h.path, h.messageType, ne_eq, not_true_eq_false, if_false,
    if_true]

/-- **The reply is as long as the body.** -/
theorem pktLen_echoReply (h : EchoRequest g ind gtpEntry) {T : TunnelTable D} {e : GtpPathInfo}
    {mbuf : D.mbuf.Mbuf} (hind : pfmDataInd g T ind = .gtpEchoResponseSend e mbuf) :
    RteMbuf.pktLen (gtpEchoResponseSend e mbuf).mbuf =
      ((RteMbuf.packet ind.mbuf).drop gtpHdrSize).length := by
  obtain ⟨mbuf', hadj, hpacket, hind'⟩ := pfmDataInd_echoRequest h T
  rw [hind, DataIndEnd.gtpEchoResponseSend.injEq] at hind'
  rw [gtpEchoResponseSend, pktLen_store, hind'.2, ← hpacket, RteMbuf.length_packet]

/-- What is in it. -/
theorem packet_echoReply (h : EchoRequest g ind gtpEntry) {T : TunnelTable D} {e : GtpPathInfo}
    {mbuf : D.mbuf.Mbuf} (hind : pfmDataInd g T ind = .gtpEchoResponseSend e mbuf) :
    RteMbuf.packet (gtpEchoResponseSend e mbuf).mbuf = echoReplyBytes ind.mbuf gtpHdrSize := by
  obtain ⟨mbuf', hadj, hpacket, hind'⟩ := pfmDataInd_echoRequest h T
  obtain ⟨mbuf'', hadj', hview⟩ := D.mbuf.adj_some ind.mbuf gtpHdrSize h.headers
  rw [hind, DataIndEnd.gtpEchoResponseSend.injEq] at hind'
  obtain rfl := hind'.2
  obtain rfl := Option.some.inj (hadj'.symm.trans hadj)
  have hdataLen : RteMbuf.dataLen mbuf'' = RteMbuf.dataLen ind.mbuf - gtpHdrSize := by
    rw [RteMbuf.dataLen, hview]
    rfl
  rw [echoReplyBytes, ← hpacket]
  split
  · have hlt : 1 < RteMbuf.dataLen mbuf'' := by omega
    exact packet_store_one mbuf'' 0x02 hlt
  · have hle : RteMbuf.dataLen mbuf'' ≤ 1 := by omega
    exact packet_store_behind mbuf'' [0x02] hle

theorem not_echoAnswered (h : EchoRequest g ind gtpEntry) (T : TunnelTable D) :
    ¬ EchoAnswered g T ind gtpEntry := by
  intro hanswered
  obtain ⟨mbuf, hind, hreply⟩ := hanswered
  obtain ⟨len, hbytes⟩ := hreply.bytes
  have hlen := congrArg List.length hbytes
  rw [RteMbuf.length_packet, pktLen_echoReply h hind, List.length_append,
    GtpHdr.length_bytes] at hlen
  change _ = 8 + _ at hlen
  omega

/-- **No echo request is answered, and none is sent.**  The reply has no header; and
building a request faults. -/
theorem echo_exchange_fails (h : EchoRequest g ind gtpEntry) (T : TunnelTable D)
    (t : GtpPathInfo) (alloc : D.mbuf.Mbuf) :
    ¬ EchoAnswered g T ind gtpEntry ∧ ¬ EchoRequested t alloc ∧
      gtpEchoRequestSend t (some alloc) = none := by
  have hfault : gtpEchoRequestSend t (some alloc) = none := by
    rw [gtpEchoRequestSend_eq]
    rfl
  refine ⟨not_echoAnswered h T, ?_, hfault⟩
  intro hrequested
  obtain ⟨req, hreq, -⟩ := hrequested
  rw [hfault] at hreq
  cases hreq

end request

/-- An echo request of two bytes after its header. -/
def echoRequest : listDpdk.mbuf.Mbuf :=
  ⟨{ mtod := 8192
     headroom := 128
     dataLen := 10
     tailroom := 1910
     byte := fun i => if i = 0 then 0x30 else if i = 1 then 0x01 else 0
     chained := []
     port := 0
     olFlags := 0 }, by decide⟩

theorem echoRequest_wellFormed :
    EchoRequest upfPath ⟨upfIp, cuupIp, .udp, 2152, 2152, echoRequest⟩
      ⟨upfIp, 2152, cuupIp, 2152, 1, 0⟩ where
  path := rfl
  headers := by decide
  flags := by decide
  messageType := by decide

theorem echo_exchange_fails_upf :
    ¬ EchoAnswered upfPath (TunnelTable.init listDpdk)
        ⟨upfIp, cuupIp, .udp, 2152, 2152, echoRequest⟩ ⟨upfIp, 2152, cuupIp, 2152, 1, 0⟩ ∧
      ¬ EchoRequested ⟨upfIp, 2152, cuupIp, 2152, 1, 0⟩ shortMbuf ∧
      gtpEchoRequestSend ⟨upfIp, 2152, cuupIp, 2152, 1, 0⟩ (some shortMbuf) = none :=
  echo_exchange_fails echoRequest_wellFormed _ _ _

/-- The UPF's echo request is sent back as two bytes. -/
theorem upf_echoRequest_not_answered :
    (∃ mbuf, pfmDataInd upfPath (TunnelTable.init listDpdk)
        ⟨upfIp, cuupIp, .udp, 2152, 2152, echoRequest⟩ =
          .gtpEchoResponseSend ⟨upfIp, 2152, cuupIp, 2152, 1, 0⟩ mbuf ∧
        RteMbuf.packet (gtpEchoResponseSend ⟨upfIp, 2152, cuupIp, 2152, 1, 0⟩ mbuf).mbuf =
          [0x00, 0x02]) ∧
      ¬ EchoAnswered upfPath (TunnelTable.init listDpdk)
        ⟨upfIp, cuupIp, .udp, 2152, 2152, echoRequest⟩ ⟨upfIp, 2152, cuupIp, 2152, 1, 0⟩ := by
  obtain ⟨mbuf, -, -, hind⟩ :=
    pfmDataInd_echoRequest echoRequest_wellFormed (TunnelTable.init listDpdk)
  have hreply : RteMbuf.packet
      (gtpEchoResponseSend ⟨upfIp, 2152, cuupIp, 2152, 1, 0⟩ mbuf).mbuf = [0x00, 0x02] := by
    rw [packet_echoReply echoRequest_wellFormed hind]
    decide
  exact ⟨⟨mbuf, hind, hreply⟩, not_echoAnswered echoRequest_wellFormed _⟩

end Pfm
