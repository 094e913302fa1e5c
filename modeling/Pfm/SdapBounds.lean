import Pfm.GtpHeader
import Pfm.Sdap

/-!
# Which indices the SDAP layer uses

The flow of an uplink packet comes from the packet or from the DRB, the flow of a downlink
packet from the GTP layer, and the tunnels they lead to from table rows.  None of these
indices is compared with a bound, so each function stays inside its tables exactly when
the indices it is given do.

`pfm_data_ind` passes flow 10 where a PDU session has room for four.
-/

namespace Pfm

open BoundedLoop

variable {D : Dpdk}

/-- A row pointer can be made of the index. -/
def RowIdxInTable (T : TunnelTable D) (tunnelIdx : UInt32) : Prop :=
  T.tunnelHashtable.isSome → tunnelIdx.toNat < maxTunnelCount

/-- The row of an index inside the table. -/
def tunnelIdxOf (tunnelIdx : UInt32) (h : tunnelIdx.toNat < maxTunnelCount) : TunnelIdx :=
  ⟨tunnelIdx.toNat, h⟩

/-- The index is that of a used row of a table that is up. -/
def LeadsToRow (T : TunnelTable D) (tunnelIdx : UInt32) : Prop :=
  T.tunnelHashtable.isSome ∧ ∃ h : tunnelIdx.toNat < maxTunnelCount,
    T.used (tunnelIdxOf tunnelIdx h) = true

/-- What an uplink packet needs: a PDU session index inside the table and, where that row is
used, a flow the PDU session has. -/
structure UlInBounds (T : TunnelTable D) (drbTunnel : Tunnel) (mbuf : D.mbuf.Mbuf) : Prop where
  row : RowIdxInTable T drbTunnel.info.mappedPdusIdx
  flow : LeadsToRow T drbTunnel.info.mappedPdusIdx →
    (ulFlow drbTunnel mbuf).1.toNat < maxFlowsPerPdus

/-- The packets of a flow go down to a DRB. -/
def FlowInfo.CarriesDl (f : FlowInfo) : Prop := f.flowType = .dl ∨ f.flowType = .ulDl

/-- What a downlink packet needs: a flow the PDU session has and, where that goes down, a
used row for its DRB. -/
def DlInBounds (T : TunnelTable D) (pdusTunnel : Tunnel) (flowId : UInt32) : Prop :=
  ∃ h : flowId.toNat < maxFlowsPerPdus,
    (pdusTunnel.info.flowList ⟨flowId.toNat, h⟩).CarriesDl →
      LeadsToRow T (pdusTunnel.info.flowList ⟨flowId.toNat, h⟩).mappedDrbIdx

section lookup

variable {T : TunnelTable D} {tunnelIdx : UInt32}

theorem tunnelGetWithIdx_down (h : T.tunnelHashtable.isNone) :
    tunnelGetWithIdx T tunnelIdx = some none := if_pos h

theorem tunnelGetWithIdx_outside (hup : T.tunnelHashtable.isSome)
    (h : maxTunnelCount ≤ tunnelIdx.toNat) : tunnelGetWithIdx T tunnelIdx = none := by
  have hidx : CArray.index? maxTunnelCount (tunnelIdx.toNat : Int) = none :=
    dif_neg (by omega)
  rw [tunnelGetWithIdx, if_neg (by simp [Option.isSome_iff_ne_none.mp hup]), hidx]
  rfl

theorem tunnelGetWithIdx_inside (hup : T.tunnelHashtable.isSome)
    (h : tunnelIdx.toNat < maxTunnelCount) :
    tunnelGetWithIdx T tunnelIdx =
      some (if T.used (tunnelIdxOf tunnelIdx h) then some (tunnelIdxOf tunnelIdx h)
        else none) := by
  have hidx : CArray.index? maxTunnelCount (tunnelIdx.toNat : Int) =
      some (tunnelIdxOf tunnelIdx h) := CArray.index?_of_val rfl
  rw [tunnelGetWithIdx, if_neg (by simp [Option.isSome_iff_ne_none.mp hup]), hidx]
  rfl

theorem tunnelGetWithIdx_isSome_iff :
    (tunnelGetWithIdx T tunnelIdx).isSome ↔ RowIdxInTable T tunnelIdx := by
  cases hup : T.tunnelHashtable.isSome with
  | false =>
      rw [tunnelGetWithIdx_down (by simpa using hup)]
      exact iff_of_true rfl fun h => by simp [hup] at h
  | true =>
      rcases Nat.lt_or_ge tunnelIdx.toNat maxTunnelCount with hlt | hge
      · rw [tunnelGetWithIdx_inside hup hlt]
        exact iff_of_true rfl fun _ => hlt
      · rw [tunnelGetWithIdx_outside hup hge]
        exact iff_of_false (by simp) fun h => absurd (h hup) (Nat.not_lt.mpr hge)

theorem tunnelGetWithIdx_found {r : TunnelIdx} (h : tunnelGetWithIdx T tunnelIdx = some (some r)) :
    LeadsToRow T tunnelIdx := by
  cases hup : T.tunnelHashtable.isSome with
  | false =>
      rw [tunnelGetWithIdx_down (by simpa using hup)] at h
      cases h
  | true =>
      rcases Nat.lt_or_ge tunnelIdx.toNat maxTunnelCount with hlt | hge
      · rw [tunnelGetWithIdx_inside hup hlt] at h
        refine ⟨hup, hlt, ?_⟩
        by_contra hunused
        rw [if_neg hunused] at h
        cases h
      · rw [tunnelGetWithIdx_outside hup hge] at h
        cases h

theorem LeadsToRow.found (h : LeadsToRow T tunnelIdx) :
    ∃ r, tunnelGetWithIdx T tunnelIdx = some (some r) := by
  obtain ⟨hup, hlt, hused⟩ := h
  rw [tunnelGetWithIdx_inside hup hlt, if_pos hused]
  exact ⟨_, rfl⟩

end lookup

/-- An element of an array that is read is there. -/
theorem get?_isSome_iff {n : Nat} {α : Type} (a : CArray n α) (i : Nat) :
    (a.get? i).isSome ↔ i < n := by
  unfold CArray.get?
  split <;> simp [*]

theorem pdcpDataInd_isSome_iff (T : TunnelTable D) (drbTunnel : Tunnel) (mbuf : D.mbuf.Mbuf) :
    (pdcpDataInd T drbTunnel mbuf).isSome ↔ UlInBounds T drbTunnel mbuf := by
  unfold pdcpDataInd
  cases hget : tunnelGetWithIdx T drbTunnel.info.mappedPdusIdx with
  | none =>
      refine iff_of_false (by simp) fun h => ?_
      have hsome := tunnelGetWithIdx_isSome_iff.mpr h.row
      rw [hget] at hsome
      cases hsome
  | some entry =>
      have hrow := tunnelGetWithIdx_isSome_iff.mp (by rw [hget]; rfl)
      cases entry with
      | none =>
          refine iff_of_true rfl ⟨hrow, fun hlead => ?_⟩
          obtain ⟨r, hr⟩ := hlead.found
          rw [hget] at hr
          cases hr
      | some pdusTunnel =>
          have hlead := tunnelGetWithIdx_found hget
          have hflow : UlInBounds T drbTunnel mbuf ↔
              (ulFlow drbTunnel mbuf).1.toNat < maxFlowsPerPdus :=
            ⟨fun h => h.flow hlead, fun h => ⟨hrow, fun _ => h⟩⟩
          rw [hflow, ← get?_isSome_iff (T.tunnelTable pdusTunnel).info.flowList]
          simp only [Option.bind_eq_bind, Option.bind_some]
          cases (T.tunnelTable pdusTunnel).info.flowList.get? (ulFlow drbTunnel mbuf).1.toNat with
          | none => rfl
          | some flowInfo =>
              simp only [Option.bind_some]
              split <;> rfl

theorem gtpSdapDataInd_isSome_iff (T : TunnelTable D) (pdusTunnel : Tunnel) (flowId : UInt32)
    (mbuf : D.mbuf.Mbuf) :
    (gtpSdapDataInd T pdusTunnel flowId mbuf).isSome ↔ DlInBounds T pdusTunnel flowId := by
  unfold gtpSdapDataInd
  rcases Nat.lt_or_ge flowId.toNat maxFlowsPerPdus with hlt | hge
  · rw [CArray.get?_of_lt _ hlt, Option.bind_eq_bind, Option.bind_some]
    have hflow : DlInBounds T pdusTunnel flowId ↔
        ((pdusTunnel.info.flowList ⟨flowId.toNat, hlt⟩).CarriesDl →
          LeadsToRow T (pdusTunnel.info.flowList ⟨flowId.toNat, hlt⟩).mappedDrbIdx) :=
      ⟨fun h => h.2, fun h => ⟨hlt, h⟩⟩
    rw [hflow]
    split
    · rename_i htype
      exact iff_of_true rfl fun hdl => absurd hdl (not_or.mpr htype)
    · rename_i htype
      have hdl : (pdusTunnel.info.flowList ⟨flowId.toNat, hlt⟩).CarriesDl := by
        simpa only [FlowInfo.CarriesDl, not_and_or, not_not] using htype
      cases hget : tunnelGetWithIdx T
          (pdusTunnel.info.flowList ⟨flowId.toNat, hlt⟩).mappedDrbIdx with
      | none =>
          refine iff_of_false (by simp) fun h => ?_
          obtain ⟨r, hr⟩ := (h hdl).found
          rw [hget] at hr
          cases hr
      | some entry =>
          cases entry with
          | none =>
              refine iff_of_false (by simp) fun h => ?_
              obtain ⟨r, hr⟩ := (h hdl).found
              rw [hget] at hr
              cases hr
          | some drbTunnel =>
              refine iff_of_true ?_ fun _ => tunnelGetWithIdx_found hget
              simp only [Option.bind_eq_bind, Option.bind_some]
              split
              · split <;> rfl
              · rfl
  · have hnone : pdusTunnel.info.flowList.get? flowId.toNat = none := dif_neg (by omega)
    rw [hnone]
    exact iff_of_false (by simp) fun h => absurd h.1 (by omega)

/-- The flow that `pfm_data_ind` passes is none a PDU session has. -/
theorem sdap_flow_outside {g : GtpTable D} {T : TunnelTable D} {ind : DataInd D.mbuf}
    {tunnelEntry : TunnelIdx} {flowId : UInt32} {mbuf : D.mbuf.Mbuf}
    (h : pfmDataInd g T ind = .gtpSdapDataInd tunnelEntry flowId mbuf) :
    flowId = 10 ∧ gtpSdapDataInd T (T.tunnelTable tunnelEntry) flowId mbuf = none := by
  have hout := pfmDataInd_cases g T ind
  rw [h] at hout
  cases hout
  refine ⟨rfl, ?_⟩
  rw [← Option.not_isSome_iff_eq_none, gtpSdapDataInd_isSome_iff]
  intro hin
  obtain ⟨hlt, -⟩ := hin
  exact absurd hlt (by decide)

/-- **The exact bounds.**  A row pointer is made, and an uplink or a downlink packet is
served, inside the tables exactly when the indices are; what `pfm_data_ind` hands down never
is. -/
theorem sdap_inBounds_iff (T : TunnelTable D) (tunnelIdx : UInt32) (drbTunnel pdusTunnel : Tunnel)
    (flowId : UInt32) (mbuf : D.mbuf.Mbuf) :
    ((tunnelGetWithIdx T tunnelIdx).isSome ↔ RowIdxInTable T tunnelIdx) ∧
      ((pdcpDataInd T drbTunnel mbuf).isSome ↔ UlInBounds T drbTunnel mbuf) ∧
      ((gtpSdapDataInd T pdusTunnel flowId mbuf).isSome ↔ DlInBounds T pdusTunnel flowId) ∧
      ∀ g ind entry flow m, pfmDataInd g T ind = .gtpSdapDataInd entry flow m →
        gtpSdapDataInd T (T.tunnelTable entry) flow m = none := by
  refine ⟨tunnelGetWithIdx_isSome_iff, pdcpDataInd_isSome_iff T drbTunnel mbuf,
    gtpSdapDataInd_isSome_iff T pdusTunnel flowId mbuf, ?_⟩
  intro g ind entry flow m hind
  exact (sdap_flow_outside hind).2

theorem maxTunnelCount_pos : 0 < maxTunnelCount := by decide

/-- A table that is up, with one used row. -/
def pdusTable : TunnelTable listDpdk :=
  ((TunnelTable.init listDpdk).withHash listDpdk.tunnelHash.empty).setUsed
    ⟨0, maxTunnelCount_pos⟩ true

/-- A DRB of that row with the SDAP header in its uplink packets. -/
def sdapDrb : Tunnel :=
  { Tunnel.zero with info := { Tunnel.zero.info with isUlSdapHdrEnabled := true } }

/-- An uplink packet of flow 9. -/
def flow9Mbuf : listDpdk.mbuf.Mbuf :=
  ⟨{ shortMbuf.val with byte := fun _ => 9 }, shortMbuf_room⟩

/-- Flow 9 is read behind the four of the PDU session. -/
theorem flow9_out_of_bounds : pdcpDataInd pdusTable sdapDrb flow9Mbuf = none := by
  rw [← Option.not_isSome_iff_eq_none, pdcpDataInd_isSome_iff]
  intro h
  have hlead : LeadsToRow pdusTable sdapDrb.info.mappedPdusIdx := ⟨rfl, by decide, rfl⟩
  exact absurd (h.flow hlead) (by decide)

end Pfm
