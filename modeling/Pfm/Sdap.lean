import Pfm.Gtp

/-!
# The SDAP layer

`sdap.c` between the PDU-session and the DRB tunnels: `pdcpDataInd` takes a packet up from
a DRB to the tunnel of its PDU session, `gtpSdapDataInd` takes one down from the PDU session
to a DRB.  `gtp_pdcp_data_ind` and `pdcp_data_req` of `pdcp.c` do nothing.

Reading outside `flow_list` or `tunnel_table_g`, or through a NULL tunnel, is `none`.
-/

namespace Pfm

open BoundedLoop

/-- `SDAP_HDR_SIZE`. -/
abbrev sdapHdrSize : Nat := 1

/-- How `pdcp_data_ind` ends: with an error and an early return, or with the call of
`gtp_data_req`. -/
inductive PdcpDataIndEnd (M : RteMbuf) where
  | returned (mbuf : M.Mbuf)
  | gtpDataReq (pdusTunnel : TunnelIdx) (flowId : UInt32) (mbuf : M.Mbuf)

/-- How `gtp_sdap_data_ind` ends: with an error and an early return, or with the call of
`pdcp_data_req`. -/
inductive GtpSdapDataIndEnd (M : RteMbuf) where
  | returned (mbuf : M.Mbuf)
  | pdcpDataReq (drbTunnel : TunnelIdx) (flowId : UInt32) (mbuf : M.Mbuf)

variable {D : Dpdk}

/-- The index is not compared with the size of the table; the inner `none` is NULL. -/
def tunnelGetWithIdx (T : TunnelTable D) (tunnelIdx : UInt32) : Option (Option TunnelIdx) :=
  if T.tunnelHashtable.isNone then some none
  else do
    let entry ← CArray.index? maxTunnelCount tunnelIdx.toNat
    some (if T.used entry then some entry else none)

/-- The flow of an uplink packet, and the packet without the SDAP header. -/
def ulFlow (drbTunnel : Tunnel) (mbuf : D.mbuf.Mbuf) : UInt32 × D.mbuf.Mbuf :=
  if drbTunnel.info.isUlSdapHdrEnabled then
    ((RteMbuf.byte mbuf 0 &&& 0x3F).toUInt32, (D.mbuf.adj mbuf sdapHdrSize).getD mbuf)
  else (drbTunnel.info.mappedFlowIdx, mbuf)

def pdcpDataInd (T : TunnelTable D) (drbTunnel : Tunnel) (mbuf : D.mbuf.Mbuf) :
    Option (PdcpDataIndEnd D.mbuf) := do
  match ← tunnelGetWithIdx T drbTunnel.info.mappedPdusIdx with
  | none => some (.returned mbuf)
  | some pdusTunnel =>
      let (drbFlowIdx, mbuf) := ulFlow drbTunnel mbuf
      let flowInfo ← (T.tunnelTable pdusTunnel).info.flowList.get? drbFlowIdx.toNat
      if flowInfo.flowType ≠ .ul ∧ flowInfo.flowType ≠ .ulDl then some (.returned mbuf)
      else some (.gtpDataReq pdusTunnel drbFlowIdx mbuf)

/-- The message for a DRB tunnel that is NULL reads its key. -/
def gtpSdapDataInd (T : TunnelTable D) (pdusTunnel : Tunnel) (flowId : UInt32)
    (mbuf : D.mbuf.Mbuf) : Option (GtpSdapDataIndEnd D.mbuf) := do
  let flowInfo ← pdusTunnel.info.flowList.get? flowId.toNat
  if flowInfo.flowType ≠ .dl ∧ flowInfo.flowType ≠ .ulDl then some (.returned mbuf)
  else
    let drbTunnel ← ← tunnelGetWithIdx T flowInfo.mappedDrbIdx
    if (T.tunnelTable drbTunnel).info.isDlSdapHdrEnabled then
      match D.mbuf.prepend mbuf sdapHdrSize with
      | none => some (.returned mbuf)
      | some mbuf =>
          some (.pdcpDataReq drbTunnel flowId (D.mbuf.store mbuf 0 [flowId.toUInt8]))
    else some (.pdcpDataReq drbTunnel flowId mbuf)

end Pfm
