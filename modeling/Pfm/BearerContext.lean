import Pfm.Bearer
import Pfm.StepSystem

/-!
# Bearer-context procedures

`e1ap_bearer_setup.c`, `e1ap_bearer_modify.c` and `e1ap_bearer_release.c` on both
tables, and the system that serves their requests one after the other.

Every procedure gives its return value, its response and the tables, or nothing
when serving the request ends in undefined behaviour.
-/

namespace Pfm

open BoundedLoop StepSystem

variable {D : Dpdk}

/-- `e1ap_bearer_setup_fail`. -/
def e1apBearerSetupFail (cucpUeId cuupUeId : UInt32) (cause : E1apFailCause)
    (rsp : E1apBearerCtxSetupRsp) : E1apBearerCtxSetupRsp :=
  { rsp with
    cuupUeId := cuupUeId
    cucpUeId := cucpUeId
    cause := cause
    pdusSetupSuccCount := 0 }

/-- The tables and the response while the items of a request are served. -/
structure CtxWork (D : Dpdk) (ρ : Type) where
  tun : TunnelTable D
  ctx : UeCtx
  rsp : ρ

/-- One turn of the loop over the PDU sessions to set up. -/
def e1apSetupPdus (env : Env D) (req : E1apBearerCtxSetupReq) (i : Nat)
    (w : CtxWork D E1apBearerCtxSetupRsp) : Option (CtxWork D E1apBearerCtxSetupRsp) := do
  let item ← req.pdusList.get? i
  let slot ← w.rsp.pdusSuccList.get? w.rsp.pdusSetupSuccCount
  let served ← pdusSetup env w.tun w.ctx item slot
  let succList ← w.rsp.pdusSuccList.set? w.rsp.pdusSetupSuccCount served.succ
  match served.fail with
  | some fail => do
      let failList ← w.rsp.pdusFailList.set? w.rsp.pdusSetupFailCount fail
      some ⟨served.tun, served.ctx, { w.rsp with
        pdusSuccList := succList
        pdusFailList := failList
        pdusSetupFailCount := w.rsp.pdusSetupFailCount + 1 }⟩
  | none =>
      some ⟨served.tun, served.ctx, { w.rsp with
        pdusSuccList := succList
        pdusSetupSuccCount := w.rsp.pdusSetupSuccCount + 1 }⟩

/-- The row of a new UE. -/
def UeCtx.fill (c : UeCtx) (cucpUeId : UInt32) : UeCtx :=
  { c with
    cucpUeId := cucpUeId
    pdusCount := 0
    drbCount := 0
    newUlFlowDetectedCount := 0 }

/-- `MAX_UE_COUNT`, given as the id when none was allocated. -/
def noUeId : UInt32 := UInt32.ofNat maxUeCount

def e1apBearerCtxSetup (env : Env D) (S : Cuup D) (req : E1apBearerCtxSetupReq)
    (rsp : E1apBearerCtxSetupRsp) :
    Option (PfmRetval × E1apBearerCtxSetupRsp × Cuup D) :=
  match ueCtxIdAlloc env S.ue with
  | (none, U) =>
      some (.failed, e1apBearerSetupFail req.cucpUeId noUeId .rnlResourceUnavail rsp,
        { S with ue := U })
  | (some id, U) =>
      match ueCtxAdd env U id with
      | (none, U) =>
          some (.failed, e1apBearerSetupFail req.cucpUeId noUeId .rnlResourceUnavail rsp,
            { S with ue := U })
      | (some n, U) => do
          let ctx := (U.ueCtxTable n).fill req.cucpUeId
          let w ← forRange (e1apSetupPdus env req) req.pdusCount
            ⟨S.tun, ctx, { rsp with
              cuupUeId := ctx.cuupUeId
              cucpUeId := ctx.cucpUeId
              cause := .none
              pdusSetupSuccCount := 0
              pdusSetupFailCount := 0 }⟩
          let S : Cuup D := ⟨w.tun, U.setRow n w.ctx⟩
          if w.rsp.pdusSetupSuccCount = 0 then do
            let (_, S) ← ueCtxRemove S id
            let (_, S) ← ueCtxCommit S (some n)
            some (.failed, e1apBearerSetupFail req.cucpUeId
              (S.ue.ueCtxTable n).cucpUeId .rnlUnspecified w.rsp, S)
          else do
            let (ret, S) ← ueCtxCommit S (some n)
            if ret = .failed then do
              let (_, S) ← ueCtxRollback S n
              let (_, S) ← ueCtxCommit S (some n)
              some (ret, e1apBearerSetupFail req.cucpUeId id .rnlUnspecified w.rsp, S)
            else some (ret, w.rsp, S)

/-- `bearer_modify_failure`. -/
def bearerModifyFailure (cucpUeId cuupUeId : UInt32) (cause : E1apFailCause)
    (rsp : E1apBearerCtxModifyRsp) : E1apBearerCtxModifyRsp :=
  { rsp with
    cause := cause
    cucpUeId := cucpUeId
    cuupUeId := cuupUeId
    pdusSetupSuccCount := 0
    pdusModifySuccCount := 0 }

/-- What the remove and modify loops carry: `ret` is the variable of that name,
which a turn that finds no tunnel leaves as it was. -/
structure ModifyWork (D : Dpdk) extends CtxWork D E1apBearerCtxModifyRsp where
  ret : PfmRetval

/-- One turn of the loop over the PDU sessions to remove. -/
def e1apModifyRemovePdus (req : E1apBearerCtxModifyReq) (i : Nat) (w : ModifyWork D) :
    Option (ModifyWork D) := do
  let found ← firstIndex (fun j => do
    let nt ← w.ctx.pdusTunnelList.deref? j
    let item ← req.pdusRemoveList.get? i
    some ((w.tun.tunnelTable nt).info.pdusId == item.pdusId)) w.ctx.pdusCount
  match found with
  | none => some w
  | some j => do
      let nt ← w.ctx.pdusTunnelList.deref? j
      let removed := tunnelRemove w.tun (w.tun.tunnelTable nt).key
      some { w with ret := removed.1, tun := removed.2 }

/-- One turn of the loop over the PDU sessions to modify. -/
def e1apModifyModifyPdus (env : Env D) (req : E1apBearerCtxModifyReq) (i : Nat)
    (w : ModifyWork D) : Option (ModifyWork D) := do
  let found ← firstIndex (fun j => do
    let nt ← w.ctx.pdusTunnelList.deref? j
    let item ← req.pdusModifyList.get? i
    some ((w.tun.tunnelTable nt).info.pdusId == item.pdusId)) w.ctx.pdusCount
  match found with
  | none =>
      -- No call was made, so an earlier failure is taken for this one.
      if w.ret = .failed then
        some { w with rsp := { w.rsp with
          pdusModifyFailCount := w.rsp.pdusModifyFailCount + 1 } }
      else do
        let item ← req.pdusModifyList.get? i
        let list ← w.rsp.pdusModifyFailList.set? w.rsp.pdusModifyFailCount
          (pdusModifyFailRspCreate item .rnlUnknownPdusId)
        some { w with rsp := { w.rsp with
          pdusModifyFailList := list
          pdusModifyFailCount := w.rsp.pdusModifyFailCount + 1 } }
  | some j => do
      let item ← req.pdusModifyList.get? i
      let slot ← w.rsp.pdusModifySuccList.get? w.rsp.pdusModifySuccCount
      let served ← pdusModify env w.tun w.ctx item slot j
      let succList ← w.rsp.pdusModifySuccList.set? w.rsp.pdusModifySuccCount served.succ
      match served.fail with
      | some fail => do
          let failList ← w.rsp.pdusModifyFailList.set? w.rsp.pdusModifyFailCount fail
          some ⟨⟨served.tun, served.ctx, { w.rsp with
            pdusModifySuccList := succList
            pdusModifyFailList := failList
            pdusModifyFailCount := w.rsp.pdusModifyFailCount + 1 }⟩, .failed⟩
      | none =>
          some ⟨⟨served.tun, served.ctx, { w.rsp with
            pdusModifySuccList := succList
            pdusModifySuccCount := w.rsp.pdusModifySuccCount + 1 }⟩, .success⟩

/-- One turn of the loop over the PDU sessions to set up. -/
def e1apModifySetupPdus (env : Env D) (req : E1apBearerCtxModifyReq) (i : Nat)
    (w : CtxWork D E1apBearerCtxModifyRsp) :
    Option (CtxWork D E1apBearerCtxModifyRsp) := do
  let item ← req.pdusSetupList.get? i
  let slot ← w.rsp.pdusSetupSuccList.get? w.rsp.pdusSetupSuccCount
  let served ← pdusSetup env w.tun w.ctx item slot
  let succList ← w.rsp.pdusSetupSuccList.set? w.rsp.pdusSetupSuccCount served.succ
  match served.fail with
  | some fail => do
      let failList ← w.rsp.pdusSetupFailList.set? w.rsp.pdusSetupFailCount fail
      some ⟨served.tun, served.ctx, { w.rsp with
        pdusSetupSuccList := succList
        pdusSetupFailList := failList
        pdusSetupFailCount := w.rsp.pdusSetupFailCount + 1 }⟩
  | none =>
      some ⟨served.tun, served.ctx, { w.rsp with
        pdusSetupSuccList := succList
        pdusSetupSuccCount := w.rsp.pdusSetupSuccCount + 1 }⟩

/-- The three loops: remove, then modify, then set up. -/
def e1apModifyItems (env : Env D) (req : E1apBearerCtxModifyReq)
    (w : CtxWork D E1apBearerCtxModifyRsp) : Option (CtxWork D E1apBearerCtxModifyRsp) := do
  let w ← forRange (e1apModifyRemovePdus req) req.pdusRemoveCount ⟨w, .failed⟩
  let w ← forRange (e1apModifyModifyPdus env req) req.pdusModifyCount w
  forRange (e1apModifySetupPdus env req) req.pdusSetupCount w.toCtxWork

def e1apBearerCtxModify (env : Env D) (S : Cuup D) (req : E1apBearerCtxModifyReq)
    (rsp : E1apBearerCtxModifyRsp) :
    Option (PfmRetval × E1apBearerCtxModifyRsp × Cuup D) := do
  match ← ueCtxModify S.ue req.cuupUeId with
  | (none, U) =>
      some (.failed, bearerModifyFailure req.cucpUeId req.cuupUeId .rnlUnknownCuupId rsp,
        { S with ue := U })
  | (some n, U) =>
      let ctx := U.ueCtxTable n
      if ctx.cucpUeId ≠ req.cucpUeId then do
        let (_, S) ← ueCtxRollback { S with ue := U } n
        some (.failed, bearerModifyFailure req.cucpUeId req.cuupUeId .rnlUnknownCuIdPair rsp, S)
      else do
        let w ← e1apModifyItems env req ⟨S.tun, ctx, { rsp with
          cucpUeId := req.cucpUeId
          cuupUeId := req.cuupUeId
          cause := .none
          pdusSetupSuccCount := 0
          pdusSetupFailCount := 0
          pdusModifySuccCount := 0
          pdusModifyFailCount := 0 }⟩
        let (ret, S) ← ueCtxCommit ⟨w.tun, U.setRow n w.ctx⟩ (some n)
        if ret = .failed then do
          let (_, S) ← ueCtxRollback S n
          some (.failed, bearerModifyFailure req.cucpUeId req.cuupUeId .rnlUnspecified w.rsp, S)
        else some (.success, w.rsp, S)

def e1apBearerCtxRelease (S : Cuup D) (req : E1apBearerCtxReleaseCmd) :
    Option (PfmRetval × Cuup D) := do
  let (ret, S) ← ueCtxRemove S req.cuupUeId
  if ret ≠ .success then some (.failed, S)
  else do
    let (ret, S) ← ueCtxCommit S (ueCtxGet S.ue req.cuupUeId)
    if ret ≠ .success then some (.failed, S) else some (.success, S)

/-! ### The system -/

/-- One request, with the environment it is served in and the response structure
the caller hands over. -/
inductive E1apCall (D : Dpdk) where
  | setup (env : Env D) (req : E1apBearerCtxSetupReq) (rsp : E1apBearerCtxSetupRsp)
  | modify (env : Env D) (req : E1apBearerCtxModifyReq) (rsp : E1apBearerCtxModifyRsp)
  | release (req : E1apBearerCtxReleaseCmd)

/-- The tables after a request. -/
def e1apStep (S : Cuup D) : E1apCall D → Option (Cuup D)
  | .setup env req rsp => (e1apBearerCtxSetup env S req rsp).map fun out => out.2.2
  | .modify env req rsp => (e1apBearerCtxModify env S req rsp).map fun out => out.2.2
  | .release req => (e1apBearerCtxRelease S req).map Prod.snd

/-- A state the system can be in after some requests. -/
abbrev CuupReachable (S : Cuup D) : Prop := Reachable e1apStep (Cuup.init D) S

end Pfm
