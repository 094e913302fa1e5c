import Pfm.EchoExchange
import Pfm.SdapBounds
import Pfm.TxConservation

/-!
# What becomes of a received packet

`worker_loop` hands a packet down through `pfm_data_ind` and the functions it calls.  Each
call that puts the buffer away is written down: freeing it, putting it on the transmit queue
of the worker, or handing it to the PDCP layer.  A packet is disposed of when the list has
exactly one entry.

Most early returns put it nowhere.  `Disposes` is what packet and tables have to be like for
none of these to be taken.
-/

namespace Pfm

open BoundedLoop ByteBuffer

/-- A call that puts a packet buffer away. -/
inductive PktDisposal (M : RteMbuf) where
  | freed (mbuf : M.Mbuf)
  | queued (mbuf : M.Mbuf)
  | pdcp (mbuf : M.Mbuf)

/-- The disposals of a packet, the worker, and the GTP paths. -/
structure PktServed (D : Dpdk) where
  disposals : List (PktDisposal D.mbuf)
  wkr : WorkerInfo D.mbuf
  gtp : GtpState D

variable {D : Dpdk}

/-- `pfm_data_req`.  A queue that is full does not take the packet. -/
def serveDataReq (tables : LinkTables D) (w : Fin maxWorkers) (wkr : WorkerInfo D.mbuf)
    (req : DataReq D.mbuf) : List (PktDisposal D.mbuf) × WorkerInfo D.mbuf :=
  match req.run tables w wkr with
  | .freed mbuf _ => ([.freed mbuf], wkr)
  | .queued mbuf wkr' => (if wkr.Full then [] else [.queued mbuf], wkr')

/-- `gtp_data_req` for a packet of a tunnel. -/
def serveGtpDataReq (tables : LinkTables D) (w : Fin maxWorkers) (wkr : WorkerInfo D.mbuf)
    (g : GtpTable D) (t : Tunnel) (flowId : UInt32) (mbuf : D.mbuf.Mbuf) :
    Option (List (PktDisposal D.mbuf) × WorkerInfo D.mbuf) :=
  match gtpDataReq g t flowId mbuf with
  | .returned _ => some ([], wkr)
  | .fault => none
  | .dataReq req => some (serveDataReq tables w wkr req)

/-- `pdcp_data_ind` for a packet that the PDCP layer hands up. -/
def servePdcpDataInd (tables : LinkTables D) (w : Fin maxWorkers) (wkr : WorkerInfo D.mbuf)
    (g : GtpTable D) (T : TunnelTable D) (drbTunnel : Tunnel) (mbuf : D.mbuf.Mbuf) :
    Option (List (PktDisposal D.mbuf) × WorkerInfo D.mbuf) := do
  match ← pdcpDataInd T drbTunnel mbuf with
  | .returned _ => some ([], wkr)
  | .gtpDataReq pdusTunnel flowId mbuf =>
      serveGtpDataReq tables w wkr g (T.tunnelTable pdusTunnel) flowId mbuf

/-- `pfm_data_ind` with the call it ends in. -/
def serveDataInd (tables : LinkTables D) (w : Fin maxWorkers) (T : TunnelTable D)
    (wkr : WorkerInfo D.mbuf) (S : GtpState D) (ind : DataInd D.mbuf) : Option (PktServed D) :=
  match pfmDataInd S.table T ind with
  | .returned _ => some ⟨[], wkr, S⟩
  | .gtpEchoResponseSend gtpEntry mbuf =>
      let served := serveDataReq tables w wkr (gtpEchoResponseSend gtpEntry mbuf)
      some ⟨served.1, served.2, S⟩
  | .gtpPathTimerReset gtpEntry _ => do
      let (_, S) ← gtpPathTimerReset S gtpEntry
      some ⟨[], wkr, S⟩
  | .gtpSdapDataInd tunnelEntry flowId mbuf => do
      match ← gtpSdapDataInd T (T.tunnelTable tunnelEntry) flowId mbuf with
      | .returned _ => some ⟨[], wkr, S⟩
      | .pdcpDataReq _ _ mbuf => some ⟨[.pdcp mbuf], wkr, S⟩
  | .gtpPdcpDataInd _ _ mbuf => some ⟨[.pdcp mbuf], wkr, S⟩

/-- The body of the receive loop for one packet. -/
def serveWorkerPkt (tables : LinkTables D) (w : Fin maxWorkers) (T : TunnelTable D)
    (wkr : WorkerInfo D.mbuf) (S : GtpState D) (pkt : D.mbuf.Mbuf) : Option (PktServed D) :=
  match workerPkt pkt with
  | .freed mbuf => some ⟨[.freed mbuf], wkr, S⟩
  | .dataInd ind => serveDataInd tables w T wkr S ind

/-- The packet is put away once. -/
def PktDisposed (tables : LinkTables D) (w : Fin maxWorkers) (T : TunnelTable D)
    (wkr : WorkerInfo D.mbuf) (S : GtpState D) (pkt : D.mbuf.Mbuf) : Prop :=
  ∃ served disposal, serveWorkerPkt tables w T wkr S pkt = some served ∧
    served.disposals = [disposal]

/-- A packet from the PDCP layer is put away once. -/
def UlPktDisposed (tables : LinkTables D) (w : Fin maxWorkers) (wkr : WorkerInfo D.mbuf)
    (g : GtpTable D) (T : TunnelTable D) (drbTunnel : Tunnel) (mbuf : D.mbuf.Mbuf) : Prop :=
  ∃ disposal wkr', servePdcpDataInd tables w wkr g T drbTunnel mbuf = some ([disposal], wkr')

/-- The GTP header behind the other headers of a packet. -/
def gtpHdrAt {M : RteMbuf} (pkt : M.Mbuf) : GtpHdr where
  flags := RteMbuf.byte pkt udpFrameHdrSize
  messageType := RteMbuf.byte pkt (udpFrameHdrSize + 1)
  gtpPloadLen := RteMbuf.ntohs pkt (udpFrameHdrSize + 2)
  tunnelId := RteMbuf.ntohl pkt (udpFrameHdrSize + 4)

/-- A GTP message for which the packet is put away: an echo request that is answered or
freed, or a T-PDU for a DRB. -/
structure DisposedGtp (tables : LinkTables D) (T : TunnelTable D) (wkr : WorkerInfo D.mbuf)
    (g : GtpTable D) (remoteIpAddr localIpAddr : PfmIpAddr) (hdr : GtpHdr)
    (gtpEntry : GtpPathInfo) : Prop where
  flags : hdr.flags = 0x30
  path : gtpPathGet g remoteIpAddr = some gtpEntry
  message : (hdr.messageType = 0x01 ∧
      (srcMacAddrGet tables gtpEntry.localIp = none ∨
        dstMacAddrGet tables gtpEntry.remoteIp = none ∨ ¬ wkr.Full)) ∨
    (hdr.messageType = 0xFF ∧ ∃ r, tunnelGet T ⟨localIpAddr, hdr.tunnelId⟩ = some r ∧
      (T.tunnelTable r).remoteIp = remoteIpAddr ∧ (T.tunnelTable r).tunnelType = .drb)

/-- The packet is no UDP packet, or too short for one, or has such a message in it. -/
def Disposes (tables : LinkTables D) (T : TunnelTable D) (wkr : WorkerInfo D.mbuf)
    (g : GtpTable D) (pkt : D.mbuf.Mbuf) : Prop :=
  RteMbuf.byte pkt (etherHdrSize + nextProtoIdOff) ≠ PfmProtocol.udp.number ∨
    RteMbuf.dataLen pkt < udpFrameHdrSize ∨
    udpFrameHdrSize + gtpHdrSize ≤ RteMbuf.dataLen pkt ∧
      ∃ gtpEntry, DisposedGtp tables T wkr g (RteMbuf.ntohl pkt (etherHdrSize + srcAddrOff))
        (RteMbuf.ntohl pkt (etherHdrSize + dstAddrOff)) (gtpHdrAt pkt) gtpEntry

/-! ### Sending -/

section send

variable {tables : LinkTables D} {w : Fin maxWorkers} {wkr : WorkerInfo D.mbuf}

/-- A packet that has room for its headers is freed or queued, but for a full queue. -/
theorem serveDataReq_disposed_iff {req : DataReq D.mbuf}
    (hroom : udpFrameHdrSize ≤ RteMbuf.headroom req.mbuf) :
    (∃ disposal, (serveDataReq tables w wkr req).1 = [disposal]) ↔
      (srcMacAddrGet tables req.localIpAddr = none ∨
        dstMacAddrGet tables req.remoteIpAddr = none ∨ ¬ wkr.Full) := by
  unfold serveDataReq
  cases hrun : req.run tables w wkr with
  | freed mbuf arps =>
      refine iff_of_true ⟨_, rfl⟩ ?_
      by_contra hsent
      rw [not_or, not_or] at hsent
      obtain ⟨smac, hsrc⟩ := Option.ne_none_iff_exists'.mp hsent.1
      obtain ⟨⟨dmac, linkId⟩, hdst⟩ := Option.ne_none_iff_exists'.mp hsent.2.1
      obtain ⟨frame, csum, hreq, -⟩ := pfmDataReq_carries tables (lcoreWorker + w.val) wkr
        req.protocol req.localPortNo req.remotePortNo hroom hsrc hdst
      rw [DataReq.run, hreq] at hrun
      cases hrun
  | queued mbuf wkr' =>
      obtain ⟨smac, dmac, linkId, m, hsrc, hdst, -⟩ := pfmDataReq_frame hrun
      simp only [hsrc, hdst, reduceCtorEq, false_or]
      by_cases hfull : wkr.Full
      · rw [if_pos hfull]
        exact iff_of_false (by simp) (not_not.mpr hfull)
      · rw [if_neg hfull]
        exact iff_of_true ⟨_, rfl⟩ hfull

/-- What the PDCP layer hands up is never put away: `gtp_data_req` faults or returns. -/
theorem not_ulPktDisposed (g : GtpTable D) (T : TunnelTable D) (drbTunnel : Tunnel)
    (mbuf : D.mbuf.Mbuf) : ¬ UlPktDisposed tables w wkr g T drbTunnel mbuf := by
  intro h
  obtain ⟨disposal, wkr', hserve⟩ := h
  obtain ⟨out, -, hserve⟩ := Option.bind_eq_some_iff.mp hserve
  cases out with
  | returned m => cases hserve
  | gtpDataReq pdusTunnel flowId m =>
      simp only [serveGtpDataReq] at hserve
      cases hreq : gtpDataReq g (T.tunnelTable pdusTunnel) flowId m with
      | returned m' =>
          rw [hreq] at hserve
          cases hserve
      | fault =>
          rw [hreq] at hserve
          cases hserve
      | dataReq req => exact gtpDataReq_ne_dataReq _ _ _ _ _ hreq

end send

/-! ### One packet -/

section packet

variable {tables : LinkTables D} {w : Fin maxWorkers} {T : TunnelTable D}
  {wkr : WorkerInfo D.mbuf} {S : GtpState D}

/-- What `pfm_data_ind` does with an echo request. -/
theorem serveDataInd_echoRequest (tables : LinkTables D) (w : Fin maxWorkers)
    (wkr : WorkerInfo D.mbuf) {ind : DataInd D.mbuf} {gtpEntry : GtpPathInfo}
    {mbuf : D.mbuf.Mbuf} (h : pfmDataInd S.table T ind = .gtpEchoResponseSend gtpEntry mbuf)
    (hroom : udpFrameHdrSize ≤ RteMbuf.headroom mbuf) :
    (∃ served disposal, serveDataInd tables w T wkr S ind = some served ∧
        served.disposals = [disposal]) ↔
      (srcMacAddrGet tables gtpEntry.localIp = none ∨
        dstMacAddrGet tables gtpEntry.remoteIp = none ∨ ¬ wkr.Full) := by
  have hreply : udpFrameHdrSize ≤ RteMbuf.headroom (gtpEchoResponseSend gtpEntry mbuf).mbuf := by
    rw [gtpEchoResponseSend, RteMbuf.headroom, D.mbuf.view_store]
    exact hroom
  have hiff : (∃ disposal, (serveDataReq tables w wkr (gtpEchoResponseSend gtpEntry mbuf)).1 =
      [disposal]) ↔ (srcMacAddrGet tables gtpEntry.localIp = none ∨
        dstMacAddrGet tables gtpEntry.remoteIp = none ∨ ¬ wkr.Full) :=
    serveDataReq_disposed_iff hreply
  refine Iff.trans ?_ hiff
  simp only [serveDataInd, h, Option.some.injEq, ↓existsAndEq, true_and]

/-- What is put away of what `pfm_data_ind` gets. -/
theorem serveDataInd_disposed_iff {ind : DataInd D.mbuf}
    (hroom : udpFrameHdrSize ≤ RteMbuf.headroom ind.mbuf) :
    (∃ served disposal, serveDataInd tables w T wkr S ind = some served ∧
        served.disposals = [disposal]) ↔
      gtpHdrSize ≤ RteMbuf.dataLen ind.mbuf ∧
        ∃ gtpEntry, DisposedGtp tables T wkr S.table ind.remoteIpAddr ind.localIpAddr
          (gtpHdrOf ind.mbuf) gtpEntry := by
  have hpath {gtpEntry e : GtpPathInfo} {mbuf : D.mbuf.Mbuf}
      (hrec : GtpReceived S.table ind gtpEntry mbuf)
      (he : DisposedGtp tables T wkr S.table ind.remoteIpAddr ind.localIpAddr
        (gtpHdrOf ind.mbuf) e) : e = gtpEntry :=
    Option.some.inj (he.path.symm.trans hrec.path)
  have hout := pfmDataInd_cases S.table T ind
  unfold serveDataInd
  generalize hend : pfmDataInd S.table T ind = out at hout ⊢
  cases hout with
  | malformed mbuf hno =>
      refine iff_of_false (by simp) fun h => ?_
      obtain ⟨hlen, e, he⟩ := h
      obtain ⟨m, hadj, -⟩ := D.mbuf.adj_some ind.mbuf gtpHdrSize hlen
      exact hno e m ⟨hlen, he.flags, he.path, hadj⟩
  | unknown gtpEntry mbuf hrec htype =>
      refine iff_of_false (by simp) fun h => ?_
      obtain ⟨hlen, e, he⟩ := h
      rcases he.message with ⟨h1, -⟩ | ⟨h3, -⟩
      · exact htype.1 h1
      · exact htype.2.2 h3
  | echoRequest gtpEntry mbuf hrec htype =>
      obtain ⟨m, hadj, hview⟩ := D.mbuf.adj_some ind.mbuf gtpHdrSize hrec.headers
      obtain rfl : m = mbuf := Option.some.inj (hadj.symm.trans hrec.adj)
      have hmore : udpFrameHdrSize ≤ RteMbuf.headroom m := by
        rw [RteMbuf.headroom, hview]
        exact Nat.le_add_right_of_le hroom
      have hsent := serveDataInd_echoRequest tables w wkr hend hmore
      rw [serveDataInd, hend] at hsent
      refine hsent.trans ⟨fun hmac => ?_, fun h => ?_⟩
      · exact ⟨hrec.headers, gtpEntry, hrec.flags, hrec.path, Or.inl ⟨htype, hmac⟩⟩
      · obtain ⟨-, e, he⟩ := h
        obtain rfl := hpath hrec he
        rcases he.message with ⟨-, hmac⟩ | ⟨h3, -⟩
        · exact hmac
        · rw [htype] at h3
          cases h3
  | echoResponse gtpEntry mbuf hrec htype =>
      refine iff_of_false ?_ fun h => ?_
      · intro h
        obtain ⟨served, disposal, hserved, hdisposal⟩ := h
        obtain ⟨reset, -, hreset⟩ := Option.bind_eq_some_iff.mp hserved
        obtain rfl := Option.some.inj hreset
        cases hdisposal
      · obtain ⟨-, e, he⟩ := h
        rcases he.message with ⟨h1, -⟩ | ⟨h3, -⟩
        · rw [htype] at h1
          cases h1
        · rw [htype] at h3
          cases h3
  | noTunnel gtpEntry mbuf hrec htype hno =>
      refine iff_of_false (by simp) fun h => ?_
      obtain ⟨-, e, he⟩ := h
      rcases he.message with ⟨h1, -⟩ | ⟨-, r, hget, hremote, -⟩
      · rw [htype] at h1
        cases h1
      · exact hno r ⟨hget, hremote⟩
  | pdus gtpEntry mbuf r hrec htype htunnel hpdus =>
      -- flow 10 is read behind the flows of the PDU session
      have hfault : gtpSdapDataInd T (T.tunnelTable r) 10 mbuf = none :=
        (sdap_flow_outside hend).2
      refine iff_of_false ?_ fun h => ?_
      · simp [hfault]
      · obtain ⟨-, e, he⟩ := h
        rcases he.message with ⟨h1, -⟩ | ⟨-, r', hget, hremote, hdrb⟩
        · rw [htype] at h1
          cases h1
        · obtain rfl := htunnel.unique ⟨hget, hremote⟩
          rw [hpdus] at hdrb
          cases hdrb
  | drb gtpEntry mbuf r hrec htype htunnel hdrb =>
      refine iff_of_true ⟨_, _, rfl, rfl⟩ ⟨hrec.headers, gtpEntry, hrec.flags, hrec.path,
        Or.inr ⟨htype, r, htunnel.1, htunnel.2, hdrb⟩⟩

/-- `worker_loop` by packet: freed, or handed on without its first headers. -/
theorem workerPkt_cases {M : RteMbuf} (pkt : M.Mbuf) :
    ((RteMbuf.byte pkt (etherHdrSize + nextProtoIdOff) ≠ PfmProtocol.udp.number ∨
        RteMbuf.dataLen pkt < udpFrameHdrSize) ∧ workerPkt pkt = .freed pkt) ∨
      (RteMbuf.byte pkt (etherHdrSize + nextProtoIdOff) = PfmProtocol.udp.number ∧
        udpFrameHdrSize ≤ RteMbuf.dataLen pkt ∧ ∃ ind, workerPkt pkt = .dataInd ind ∧
          ind.remoteIpAddr = RteMbuf.ntohl pkt (etherHdrSize + srcAddrOff) ∧
          ind.localIpAddr = RteMbuf.ntohl pkt (etherHdrSize + dstAddrOff) ∧
          M.view ind.mbuf = (M.view pkt).adj udpFrameHdrSize) := by
  unfold workerPkt
  dsimp only
  split
  · rename_i hproto
    rcases Nat.lt_or_ge (RteMbuf.dataLen pkt) udpFrameHdrSize with hshort | hlen
    · rw [M.adj_none pkt _ hshort]
      exact Or.inl ⟨Or.inr hshort, rfl⟩
    · obtain ⟨mbuf, hadj, hview⟩ := M.adj_some pkt _ hlen
      rw [hadj]
      exact Or.inr ⟨hproto, hlen, _, rfl, rfl, rfl, hview⟩
  · rename_i hproto
    exact Or.inl ⟨Or.inl hproto, rfl⟩

/-- The GTP header is found where it was. -/
theorem gtpHdrOf_of_adj {M : RteMbuf} {pkt mbuf : M.Mbuf}
    (h : M.view mbuf = (M.view pkt).adj udpFrameHdrSize) : gtpHdrOf mbuf = gtpHdrAt pkt := by
  have hslice (off n : Nat) : slice (M.view mbuf).byte off n =
      slice (M.view pkt).byte ((udpFrameHdrSize + off : Nat) : Int) n := by
    apply slice_congr
    intro i _
    rw [h]
    simp only [MbufView.adj]
    congr 1
    omega
  have hbyte (off : Nat) : RteMbuf.byte mbuf off = RteMbuf.byte pkt (udpFrameHdrSize + off) := by
    have hone := hslice off 1
    rw [slice_one, slice_one] at hone
    exact List.head_eq_of_cons_eq hone
  simp only [gtpHdrOf, gtpHdrAt, hbyte, RteMbuf.ntohs, RteMbuf.ntohl, hslice, Nat.add_zero]

end packet

/-- **Which packets are put away.**  A received packet is freed, queued or handed to PDCP,
once, exactly when it disposes itself so; what comes up from PDCP never is. -/
theorem pktDisposed_iff (tables : LinkTables D) (w : Fin maxWorkers) (T : TunnelTable D)
    (wkr : WorkerInfo D.mbuf) (S : GtpState D) (pkt : D.mbuf.Mbuf) (drbTunnel : Tunnel) :
    (PktDisposed tables w T wkr S pkt ↔ Disposes tables T wkr S.table pkt) ∧
      ¬ UlPktDisposed tables w wkr S.table T drbTunnel pkt := by
  refine ⟨?_, not_ulPktDisposed S.table T drbTunnel pkt⟩
  unfold PktDisposed serveWorkerPkt Disposes
  rcases workerPkt_cases pkt with ⟨hfreed, hpkt⟩ | ⟨hproto, hlen, ind, hpkt, hremote, hlocal, hview⟩
  · rw [hpkt]
    exact iff_of_true ⟨_, _, rfl, rfl⟩ (hfreed.imp_right Or.inl)
  · have hroom : udpFrameHdrSize ≤ RteMbuf.headroom ind.mbuf := by
      rw [RteMbuf.headroom, hview]
      exact Nat.le_add_left _ _
    have hdata : RteMbuf.dataLen ind.mbuf = RteMbuf.dataLen pkt - udpFrameHdrSize := by
      rw [RteMbuf.dataLen, hview]
      rfl
    rw [hpkt]
    dsimp only
    rw [serveDataInd_disposed_iff hroom, hremote, hlocal, gtpHdrOf_of_adj hview, hdata]
    constructor
    · intro h
      obtain ⟨hhdr, hmsg⟩ := h
      exact Or.inr (Or.inr ⟨by omega, hmsg⟩)
    · intro h
      rcases h with hno | hshort | ⟨hhdr, hmsg⟩
      · exact absurd hproto hno
      · omega
      · exact ⟨by omega, hmsg⟩

/-- A UDP packet whose message is not GTP. -/
def strayPkt : listDpdk.mbuf.Mbuf :=
  ⟨{ shortMbuf.val with dataLen := 60, byte := fun i => if i = 23 then 17 else 0 },
    shortMbuf_room⟩

/-- It is forgotten. -/
theorem strayPkt_not_disposed :
    ¬ PktDisposed peerLinks ⟨0, by decide⟩ (TunnelTable.init listDpdk) idleWorker
        (GtpState.init listDpdk) strayPkt := by
  intro h
  obtain ⟨served, disposal, hserved, hdisposal⟩ := h
  have hlost : serveWorkerPkt peerLinks ⟨0, by decide⟩ (TunnelTable.init listDpdk) idleWorker
      (GtpState.init listDpdk) strayPkt = some ⟨[], idleWorker, GtpState.init listDpdk⟩ := rfl
  obtain rfl := Option.some.inj (hserved.symm.trans hlost)
  cases hdisposal

end Pfm
