import Pfm.Tunnel
import Pfm.WorkerLoop

/-!
# The GTP data path

`gtp.c` between the tunnels and the worker: `gtpDataReq` wraps a packet for the
remote end of a tunnel, and `pfmDataInd` unwraps a packet that was received and
finds the tunnel it belongs to.

A path is in the table when the hash has its remote address, and its row is the
hash position.
-/

namespace Pfm

open BoundedLoop ByteBuffer

/-- `GTP_HDR_SIZE`. -/
abbrev gtpHdrSize : Nat := 8

/-- `gtp_path_info_t`. -/
structure GtpPathInfo where
  remoteIp : PfmIpAddr
  remotePortNo : UInt16
  localIp : PfmIpAddr
  localPortNo : UInt16
  tunnelCount : UInt16
  retryCount : UInt16

/-- The statics of `gtp.c` without the timers. -/
structure GtpTable (D : Dpdk) where
  gtpTable : CArray maxGtpPath GtpPathInfo
  gtpTableHash : Option D.gtpHash.Table

/-- The arguments of a call of `pfm_data_req`. -/
structure DataReq (M : RteMbuf) where
  localIpAddr : PfmIpAddr
  remoteIpAddr : PfmIpAddr
  protocol : PfmProtocol
  localPortNo : Int
  remotePortNo : Int
  mbuf : M.Mbuf

/-- How `gtp_data_req` ends: with an early return, which leaves the packet
behind, with a store that faults, or with the call of `pfm_data_req`. -/
inductive GtpDataReqEnd (M : RteMbuf) where
  | returned (mbuf : M.Mbuf)
  | fault
  | dataReq (req : DataReq M)

/-- What `pfm_data_ind` reads of a GTP header. -/
structure GtpHdr where
  flags : UInt8
  messageType : UInt8
  gtpPloadLen : UInt16
  tunnelId : UInt32

/-- How `pfm_data_ind` ends: with an early return or a message type it has no
case for, or with the call it makes. -/
inductive DataIndEnd (M : RteMbuf) where
  | returned (mbuf : M.Mbuf)
  | gtpEchoResponseSend (gtpEntry : GtpPathInfo) (mbuf : M.Mbuf)
  | gtpPathTimerReset (gtpEntry : GtpPathInfo) (mbuf : M.Mbuf)
  | gtpSdapDataInd (tunnelEntry : TunnelIdx) (flowId : UInt32) (mbuf : M.Mbuf)
  | gtpPdcpDataInd (tunnelEntry : TunnelIdx) (flowId : UInt32) (mbuf : M.Mbuf)

variable {D : Dpdk} {M : RteMbuf}

def gtpPathGet (g : GtpTable D) (remoteIp : PfmIpAddr) : Option GtpPathInfo :=
  let ret := (D.gtpHash.lookup g.gtpTableHash remoteIp).1
  if ret < 0 then none else g.gtpTable.get? ret.toNat

/-- The length and the tunnel id are stored through pointers made of the values
of two bytes of the packet, `(uint16_t*)packet[2]` and `(uint32_t*)packet[5]`. -/
def gtpDataReq (g : GtpTable D) (t : Tunnel) (_flowId : UInt32) (mbuf : D.mbuf.Mbuf) :
    GtpDataReqEnd D.mbuf :=
  let pktLen := RteMbuf.pktLen mbuf
  match gtpPathGet g t.remoteIp with
  | none => .returned mbuf
  | some gtpEntry =>
      match D.mbuf.prepend mbuf gtpHdrSize with
      | none => .returned mbuf
      | some mbuf =>
          let gtpLen := (RteMbuf.byte mbuf 2).toNat
          let tunnelId := (RteMbuf.byte mbuf 5).toNat
          let mbuf := D.mbuf.store mbuf 0 [0x30]
          let mbuf := D.mbuf.store mbuf 1 [0xFF]
          match RteMbuf.storeAt mbuf gtpLen (bigEndian 2 pktLen) with
          | none => .fault
          | some mbuf =>
              match RteMbuf.storeAt mbuf tunnelId (bigEndian 4 t.remoteTeId.toNat) with
              | none => .fault
              | some mbuf =>
                  .dataReq
                    { localIpAddr := t.key.ipAddr
                      remoteIpAddr := t.remoteIp
                      protocol := .udp
                      localPortNo := gtpEntry.localPortNo.toNat
                      remotePortNo := gtpEntry.remotePortNo.toNat
                      mbuf := mbuf }

/-- The header as `pfm_data_ind` decodes it. -/
def gtpHdrOf (mbuf : M.Mbuf) : GtpHdr where
  flags := RteMbuf.byte mbuf 0
  messageType := RteMbuf.byte mbuf 1
  gtpPloadLen := RteMbuf.ntohs mbuf 2
  tunnelId := RteMbuf.ntohl mbuf 4

def pfmDataInd (g : GtpTable D) (T : TunnelTable D) (ind : DataInd D.mbuf) :
    DataIndEnd D.mbuf :=
  let hdr := gtpHdrOf ind.mbuf
  if hdr.flags ≠ 0x30 then .returned ind.mbuf
  else match D.mbuf.adj ind.mbuf gtpHdrSize with
    | none => .returned ind.mbuf
    | some mbuf =>
        match gtpPathGet g ind.remoteIpAddr with
        | none => .returned mbuf
        | some gtpEntry =>
            if hdr.messageType = 0x01 then .gtpEchoResponseSend gtpEntry mbuf
            else if hdr.messageType = 0x02 then .gtpPathTimerReset gtpEntry mbuf
            else if hdr.messageType = 0xFF then
              match tunnelGet T ⟨ind.localIpAddr, hdr.tunnelId⟩ with
              | none => .returned mbuf
              | some tunnelEntry =>
                  if ind.remoteIpAddr ≠ (T.tunnelTable tunnelEntry).remoteIp then .returned mbuf
                  else match (T.tunnelTable tunnelEntry).tunnelType with
                    | .pdus => .gtpSdapDataInd tunnelEntry 10 mbuf
                    | .drb => .gtpPdcpDataInd tunnelEntry 10 mbuf
            else .returned mbuf

/-! ### What `pfm_data_ind` does -/

/-- The packet has a GTP header, which is cut off, and comes from the other end of a path. -/
structure GtpReceived (g : GtpTable D) (ind : DataInd D.mbuf) (gtpEntry : GtpPathInfo)
    (mbuf : D.mbuf.Mbuf) : Prop where
  headers : gtpHdrSize ≤ RteMbuf.dataLen ind.mbuf
  flags : (gtpHdrOf ind.mbuf).flags = 0x30
  path : gtpPathGet g ind.remoteIpAddr = some gtpEntry
  adj : D.mbuf.adj ind.mbuf gtpHdrSize = some mbuf

/-- The tunnel a T-PDU is for. -/
def TPduTunnel (T : TunnelTable D) (ind : DataInd D.mbuf) (r : TunnelIdx) : Prop :=
  tunnelGet T ⟨ind.localIpAddr, (gtpHdrOf ind.mbuf).tunnelId⟩ = some r ∧
    (T.tunnelTable r).remoteIp = ind.remoteIpAddr

/-- `pfm_data_ind` by message. -/
inductive DataIndOutcome (g : GtpTable D) (T : TunnelTable D) (ind : DataInd D.mbuf) :
    DataIndEnd D.mbuf → Prop
  | malformed (mbuf : D.mbuf.Mbuf) (none : ∀ e m, ¬ GtpReceived g ind e m) :
      DataIndOutcome g T ind (.returned mbuf)
  | unknown (gtpEntry : GtpPathInfo) (mbuf : D.mbuf.Mbuf)
      (received : GtpReceived g ind gtpEntry mbuf)
      (type : (gtpHdrOf ind.mbuf).messageType ≠ 0x01 ∧ (gtpHdrOf ind.mbuf).messageType ≠ 0x02 ∧
        (gtpHdrOf ind.mbuf).messageType ≠ 0xFF) : DataIndOutcome g T ind (.returned mbuf)
  | echoRequest (gtpEntry : GtpPathInfo) (mbuf : D.mbuf.Mbuf)
      (received : GtpReceived g ind gtpEntry mbuf)
      (type : (gtpHdrOf ind.mbuf).messageType = 0x01) :
      DataIndOutcome g T ind (.gtpEchoResponseSend gtpEntry mbuf)
  | echoResponse (gtpEntry : GtpPathInfo) (mbuf : D.mbuf.Mbuf)
      (received : GtpReceived g ind gtpEntry mbuf)
      (type : (gtpHdrOf ind.mbuf).messageType = 0x02) :
      DataIndOutcome g T ind (.gtpPathTimerReset gtpEntry mbuf)
  | noTunnel (gtpEntry : GtpPathInfo) (mbuf : D.mbuf.Mbuf)
      (received : GtpReceived g ind gtpEntry mbuf)
      (type : (gtpHdrOf ind.mbuf).messageType = 0xFF) (none : ∀ r, ¬ TPduTunnel T ind r) :
      DataIndOutcome g T ind (.returned mbuf)
  | pdus (gtpEntry : GtpPathInfo) (mbuf : D.mbuf.Mbuf) (r : TunnelIdx)
      (received : GtpReceived g ind gtpEntry mbuf)
      (type : (gtpHdrOf ind.mbuf).messageType = 0xFF) (tunnel : TPduTunnel T ind r)
      (tunnelType : (T.tunnelTable r).tunnelType = .pdus) :
      DataIndOutcome g T ind (.gtpSdapDataInd r 10 mbuf)
  | drb (gtpEntry : GtpPathInfo) (mbuf : D.mbuf.Mbuf) (r : TunnelIdx)
      (received : GtpReceived g ind gtpEntry mbuf)
      (type : (gtpHdrOf ind.mbuf).messageType = 0xFF) (tunnel : TPduTunnel T ind r)
      (tunnelType : (T.tunnelTable r).tunnelType = .drb) :
      DataIndOutcome g T ind (.gtpPdcpDataInd r 10 mbuf)

theorem TPduTunnel.unique {T : TunnelTable D} {ind : DataInd D.mbuf} {r r' : TunnelIdx}
    (h : TPduTunnel T ind r) (h' : TPduTunnel T ind r') : r = r' :=
  Option.some.inj (h.1.symm.trans h'.1)

/-- Where a T-PDU goes. -/
theorem DataIndOutcome.tPdu {g : GtpTable D} {T : TunnelTable D} {ind : DataInd D.mbuf}
    {gtpEntry : GtpPathInfo} {mbuf : D.mbuf.Mbuf} (received : GtpReceived g ind gtpEntry mbuf)
    (type : (gtpHdrOf ind.mbuf).messageType = 0xFF) :
    DataIndOutcome g T ind
      (match tunnelGet T ⟨ind.localIpAddr, (gtpHdrOf ind.mbuf).tunnelId⟩ with
      | none => .returned mbuf
      | some tunnelEntry =>
          if ind.remoteIpAddr ≠ (T.tunnelTable tunnelEntry).remoteIp then .returned mbuf
          else match (T.tunnelTable tunnelEntry).tunnelType with
            | .pdus => .gtpSdapDataInd tunnelEntry 10 mbuf
            | .drb => .gtpPdcpDataInd tunnelEntry 10 mbuf) := by
  cases hget : tunnelGet T ⟨ind.localIpAddr, (gtpHdrOf ind.mbuf).tunnelId⟩ with
  | none =>
      refine .noTunnel gtpEntry mbuf received type fun r hr => ?_
      rw [TPduTunnel, hget] at hr
      cases hr.1
  | some r =>
      dsimp only
      split
      · rename_i hne
        refine .noTunnel gtpEntry mbuf received type fun r' hr' => ?_
        obtain rfl : r = r' := Option.some.inj (hget.symm.trans hr'.1)
        exact hne hr'.2.symm
      · rename_i heq
        have htunnel : TPduTunnel T ind r := ⟨hget, (not_not.mp heq).symm⟩
        cases htype : (T.tunnelTable r).tunnelType with
        | pdus => exact .pdus gtpEntry mbuf r received type htunnel htype
        | drb => exact .drb gtpEntry mbuf r received type htunnel htype

theorem pfmDataInd_cases (g : GtpTable D) (T : TunnelTable D) (ind : DataInd D.mbuf) :
    DataIndOutcome g T ind (pfmDataInd g T ind) := by
  unfold pfmDataInd
  dsimp only
  split
  · rename_i hflags
    exact .malformed _ fun e m h => hflags h.flags
  · rename_i hflags
    cases hadj : D.mbuf.adj ind.mbuf gtpHdrSize with
    | none =>
        refine .malformed _ fun e m h => ?_
        rw [h.adj] at hadj
        cases hadj
    | some mbuf =>
        have hlen : gtpHdrSize ≤ RteMbuf.dataLen ind.mbuf := by
          by_contra hshort
          rw [D.mbuf.adj_none _ _ (Nat.not_le.mp hshort)] at hadj
          cases hadj
        cases hpath : gtpPathGet g ind.remoteIpAddr with
        | none =>
            refine .malformed _ fun e m h => ?_
            rw [h.path] at hpath
            cases hpath
        | some gtpEntry =>
            have hreceived : GtpReceived g ind gtpEntry mbuf :=
              ⟨hlen, not_not.mp hflags, hpath, hadj⟩
            dsimp only
            split
            · rename_i htype
              exact .echoRequest gtpEntry mbuf hreceived htype
            split
            · rename_i htype
              exact .echoResponse gtpEntry mbuf hreceived htype
            split
            · rename_i htype
              exact .tPdu hreceived htype
            · rename_i h1 h2 h3
              exact .unknown gtpEntry mbuf hreceived ⟨h1, h2, h3⟩

/-- The table at program start. -/
def GtpTable.init (D : Dpdk) : GtpTable D :=
  ⟨fun _ => ⟨0, 0, 0, 0, 0, 0⟩, none⟩

end Pfm
