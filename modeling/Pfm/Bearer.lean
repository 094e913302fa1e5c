import Pfm.E1ap
import Pfm.UeCtx

/-!
# DRBs and PDU sessions

`drb.c` and `pdus.c`: one DRB or one PDU session of a request is served on the
tunnel table and the UE context being built.  Nothing is committed here, except
that a PDU session all of whose DRBs failed is removed and committed at once.

The context is passed by value; the callers write it back to its row.  A
response slot is an argument where the callee builds on what it holds, and a
result where it is only written.
-/

namespace Pfm

open BoundedLoop

variable {D : Dpdk}

/-- `tunnel_key_alloc` followed by `tunnel_add`, as `pdus_setup` and `drb_setup`
call them: both fail alike on either. -/
def tunnelOpen (env : Env D) (T : TunnelTable D) (remoteIp : PfmIpAddr)
    (ttype : TunnelType) : Option (TunnelKey × TunnelIdx) × TunnelTable D :=
  match tunnelKeyAlloc env T remoteIp ttype with
  | (none, T) => (none, T)
  | (some key, T) =>
      match tunnelAdd env T key with
      | (none, T) => (none, T)
      | (some r, T) => (some (key, r), T)

/-- The bits of `drb_id` that a row keeps. -/
def TunnelInfo.drbIdByte (i : TunnelInfo) : UInt8 := UInt8.ofNat i.drbId.toNat

/-- The first tunnel of a list whose DRB id is `id`. -/
def findDrb (T : TunnelTable D) (ctx : UeCtx) (id : UInt8) : Option (Option Nat) :=
  firstIndex (fun i => do
    let nt ← ctx.drbTunnelList.deref? i
    some ((T.tunnelTable nt).info.drbIdByte == id)) ctx.drbCount

/-- The first tunnel of a list whose PDU-session id is `id`. -/
def findPdus (T : TunnelTable D) (ctx : UeCtx) (id : UInt8) : Option (Option Nat) :=
  firstIndex (fun i => do
    let nt ← ctx.pdusTunnelList.deref? i
    some ((T.tunnelTable nt).info.pdusId == id)) ctx.pdusCount

/-- What serving one DRB leaves: the table, the context, and the response slot
it wrote. -/
structure DrbServed (D : Dpdk) where
  tun : TunnelTable D
  ctx : UeCtx
  rsp : Except DrbSetupFailRspInfo DrbSetupSuccRspInfo

/-- `drb_setup_succ_rsp_create` and `drb_modify_succ_rsp_create`. -/
def drbSetupSuccRspCreate (t : Tunnel) : DrbSetupSuccRspInfo :=
  ⟨t.info.drbIdByte, t.key.ipAddr, t.key.teId⟩

/-- `drb_setup_fail_rsp_create`. -/
def drbSetupFailRspCreate (req : DrbSetupReqInfo) (cause : E1apFailCause) :
    DrbSetupFailRspInfo :=
  ⟨req.drbId, cause⟩

/-- `drb_modify_fail_rsp_create`. -/
def drbModifyFailRspCreate (req : DrbModifyReqInfo) (cause : E1apFailCause) :
    DrbSetupFailRspInfo :=
  ⟨req.drbId, cause⟩

/-- The row of a new DRB. -/
def Tunnel.fillDrb (t : Tunnel) (req : DrbSetupReqInfo) : Tunnel :=
  { t with
    remoteIp := req.drbDlIpAddr
    remoteTeId := req.drbDlTeid
    tunnelType := .drb
    info := t.info.setDrbId req.drbId }

def drbSetup (env : Env D) (T : TunnelTable D) (ctx : UeCtx) (req : DrbSetupReqInfo) :
    Option (DrbServed D) :=
  if ctx.drbCount = maxDrbPerUe then
    some ⟨T, ctx, .error (drbSetupFailRspCreate req .rnlResourceUnavail)⟩
  else do
    match ← findDrb T ctx req.drbId with
    | some _ => some ⟨T, ctx, .error (drbSetupFailRspCreate req .rnlMultipleDrbId)⟩
    | none =>
        match tunnelOpen env T req.drbDlIpAddr .drb with
        | (none, T) =>
            some ⟨T, ctx, .error (drbSetupFailRspCreate req .rnlResourceUnavail)⟩
        | (some (_, r), T) => do
            let T := T.setRow r ((T.tunnelTable r).fillDrb req)
            let list ← ctx.drbTunnelList.set? ctx.drbCount (some r)
            some ⟨T, { ctx with drbTunnelList := list, drbCount := ctx.drbCount + 1 },
              .ok (drbSetupSuccRspCreate (T.tunnelTable r))⟩

/-- The `memcpy` copies the whole old row, its used flag included. -/
def drbModify (T : TunnelTable D) (ctx : UeCtx) (req : DrbModifyReqInfo) (idx : Nat) :
    Option (DrbServed D) := do
  let old ← ctx.drbTunnelList.deref? idx
  match tunnelModify T (T.tunnelTable old).key with
  | (none, T) => some ⟨T, ctx, .error (drbModifyFailRspCreate req .rnlUnknownDrbId)⟩
  | (some r, T) => do
      let T := T.setRow r (T.tunnelTable old)
      let list ← ctx.drbTunnelList.set? idx (some r)
      some ⟨T, { ctx with drbTunnelList := list },
        .ok (drbSetupSuccRspCreate (T.tunnelTable r))⟩

/-- The tables and the success slot while a PDU session is served. -/
structure PdusWork (D : Dpdk) (ρ : Type) where
  tun : TunnelTable D
  ctx : UeCtx
  succ : ρ

/-- What serving one PDU session leaves: the table, the context, the success
slot, and on failure what the failure slot holds. -/
structure PdusServed (D : Dpdk) (ρ : Type) where
  tun : TunnelTable D
  ctx : UeCtx
  succ : ρ
  fail : Option PdusSetupFailRspInfo

/-- `pdus_setup_succ_rsp_create`: the two lists keep what they hold. -/
def pdusSetupSuccRspCreate (t : Tunnel) (succ : PdusSetupSuccRspInfo) :
    PdusSetupSuccRspInfo :=
  { succ with
    pdusId := t.info.pdusId
    drbSetupSuccCount := 0
    drbSetupFailCount := 0
    pdusDlIpAddr := t.key.ipAddr
    pdusDlTeid := t.key.teId }

/-- `pdus_setup_fail_rsp_create`. -/
def pdusSetupFailRspCreate (req : PdusSetupReqInfo) (cause : E1apFailCause) :
    PdusSetupFailRspInfo :=
  ⟨req.pdusId, cause⟩

/-- `pdus_modify_fail_rsp_create`. -/
def pdusModifyFailRspCreate (req : PdusModifyReqInfo) (cause : E1apFailCause) :
    PdusSetupFailRspInfo :=
  ⟨req.pdusId, cause⟩

/-- The row of a new PDU session. -/
def Tunnel.fillPdus (t : Tunnel) (req : PdusSetupReqInfo) : Tunnel :=
  { t with
    remoteIp := req.pdusUlIpAddr
    remoteTeId := req.pdusUlTeid
    tunnelType := .pdus
    info := t.info.setPdusId req.pdusId }

/-- One turn of the loop over the DRBs of a PDU session. -/
def pdusSetupDrb (env : Env D) (req : PdusSetupReqInfo) (i : Nat)
    (w : PdusWork D PdusSetupSuccRspInfo) : Option (PdusWork D PdusSetupSuccRspInfo) := do
  let drbReq ← req.drbList.get? i
  let served ← drbSetup env w.tun w.ctx drbReq
  match served.rsp with
  | .error fail => do
      let list ← w.succ.drbFailList.set? w.succ.drbSetupFailCount fail
      some ⟨served.tun, served.ctx, { w.succ with
        drbFailList := list, drbSetupFailCount := w.succ.drbSetupFailCount + 1 }⟩
  | .ok succ => do
      let list ← w.succ.drbSuccList.set? w.succ.drbSetupSuccCount succ
      some ⟨served.tun, served.ctx, { w.succ with
        drbSuccList := list, drbSetupSuccCount := w.succ.drbSetupSuccCount + 1 }⟩

/-- The log message for a session all of whose DRBs failed prints `pdus_id` with `%s`.  The id
is followed as a pointer; only 0, the null pointer, is printed as a text of its own. -/
def logAllDrbsFailed (pdusId : UInt8) : Option Unit := if pdusId = 0 then some () else none

def pdusSetup (env : Env D) (T : TunnelTable D) (ctx : UeCtx) (req : PdusSetupReqInfo)
    (succ : PdusSetupSuccRspInfo) : Option (PdusServed D PdusSetupSuccRspInfo) :=
  if ctx.pdusCount = maxPdusPerUe then
    some ⟨T, ctx, succ, some (pdusSetupFailRspCreate req .rnlResourceUnavail)⟩
  else do
    match ← findPdus T ctx req.pdusId with
    | some _ => some ⟨T, ctx, succ, some (pdusSetupFailRspCreate req .rnlMultiplePdusId)⟩
    | none =>
        match tunnelOpen env T req.pdusUlIpAddr .pdus with
        | (none, T) =>
            some ⟨T, ctx, succ, some (pdusSetupFailRspCreate req .rnlResourceUnavail)⟩
        | (some (key, r), T) => do
            let T := T.setRow r ((T.tunnelTable r).fillPdus req)
            let w ← forRange (pdusSetupDrb env req) req.drbCount
              ⟨T, ctx, pdusSetupSuccRspCreate (T.tunnelTable r) succ⟩
            if w.succ.drbSetupFailCount = req.drbCount then do
              logAllDrbsFailed req.pdusId
              -- All DRBs failed.  The key was never committed, so the removal
              -- finds nothing and the commit enters it.
              let T := (tunnelRemove w.tun key).2
              let T := (tunnelCommit T (some r)).2
              some ⟨T, w.ctx, w.succ, some (pdusSetupFailRspCreate req .rnlResourceUnavail)⟩
            else do
              let list ← w.ctx.pdusTunnelList.set? w.ctx.pdusCount (some r)
              some ⟨w.tun, { w.ctx with
                pdusTunnelList := list, pdusCount := w.ctx.pdusCount + 1 }, w.succ, none⟩

/-- `pdus_modify_succ_rsp_create`. -/
def pdusModifySuccRspCreate (t : Tunnel) (succ : PdusModifySuccRspInfo) :
    PdusModifySuccRspInfo :=
  { succ with
    pdusId := t.info.pdusId
    drbSetupSuccCount := 0
    drbSetupFailCount := 0
    drbModifySuccCount := 0
    drbModifyFailCount := 0
    pdusDlIpAddr := t.key.ipAddr
    pdusDlTeid := t.key.teId }

/-- One turn of the loop over the DRBs to remove.  The search compares the
`i`-th tunnel of the context with the `j`-th item of the request. -/
def pdusModifyRemoveDrb (req : PdusModifyReqInfo) (ctx : UeCtx) (i : Nat)
    (T : TunnelTable D) : Option (TunnelTable D) := do
  let found ← firstIndex (fun j => do
    let nt ← ctx.drbTunnelList.deref? i
    let item ← req.drbRemoveList.get? j
    some ((T.tunnelTable nt).info.drbIdByte == item.drbId)) ctx.drbCount
  match found with
  | none => some T
  | some _ => do
      let nt ← ctx.drbTunnelList.deref? i
      some (tunnelRemove T (T.tunnelTable nt).key).2

/-- One turn of the loop over the DRBs to modify.  The slots are chosen, and a
success is counted, by the counters of the setup phase. -/
def pdusModifyModifyDrb (req : PdusModifyReqInfo) (i : Nat)
    (w : PdusWork D PdusModifySuccRspInfo) :
    Option (PdusWork D PdusModifySuccRspInfo) := do
  let found ← firstIndex (fun j => do
    let nt ← w.ctx.drbTunnelList.deref? j
    let item ← req.drbModifyList.get? i
    some ((w.tun.tunnelTable nt).info.drbIdByte == item.drbId)) w.ctx.drbCount
  let item ← req.drbModifyList.get? i
  let served : DrbServed D ← match found with
    | none => some ⟨w.tun, w.ctx, .error (drbModifyFailRspCreate item .rnlUnspecified)⟩
    | some j => drbModify w.tun w.ctx item j
  match served.rsp with
  | .error fail => do
      let list ← w.succ.drbModifyFailList.set? w.succ.drbSetupFailCount fail
      some ⟨served.tun, served.ctx, { w.succ with
        drbModifyFailList := list, drbModifyFailCount := w.succ.drbModifyFailCount + 1 }⟩
  | .ok succ => do
      let list ← w.succ.drbModifySuccList.set? w.succ.drbSetupSuccCount succ
      some ⟨served.tun, served.ctx, { w.succ with
        drbModifySuccList := list, drbSetupSuccCount := w.succ.drbSetupSuccCount + 1 }⟩

/-- One turn of the loop over the DRBs to set up. -/
def pdusModifySetupDrb (env : Env D) (req : PdusModifyReqInfo) (i : Nat)
    (w : PdusWork D PdusModifySuccRspInfo) :
    Option (PdusWork D PdusModifySuccRspInfo) := do
  let drbReq ← req.drbSetupList.get? i
  let served ← drbSetup env w.tun w.ctx drbReq
  match served.rsp with
  | .error fail => do
      let list ← w.succ.drbSetupFailList.set? w.succ.drbSetupFailCount fail
      some ⟨served.tun, served.ctx, { w.succ with
        drbSetupFailList := list, drbSetupFailCount := w.succ.drbSetupFailCount + 1 }⟩
  | .ok succ => do
      let list ← w.succ.drbSetupSuccList.set? w.succ.drbSetupSuccCount succ
      some ⟨served.tun, served.ctx, { w.succ with
        drbSetupSuccList := list, drbSetupSuccCount := w.succ.drbSetupSuccCount + 1 }⟩

/-- The row that takes over from the row of a PDU session. -/
def Tunnel.copyPdus (t old : Tunnel) : Tunnel :=
  { t with
    remoteIp := old.remoteIp
    remoteTeId := old.remoteTeId
    tunnelType := old.tunnelType
    info := t.info.setPdusId old.info.pdusId }

def pdusModify (env : Env D) (T : TunnelTable D) (ctx : UeCtx) (req : PdusModifyReqInfo)
    (succ : PdusModifySuccRspInfo) (idx : Nat) :
    Option (PdusServed D PdusModifySuccRspInfo) := do
  let old ← ctx.pdusTunnelList.deref? idx
  match tunnelModify T (T.tunnelTable old).key with
  | (none, T) => some ⟨T, ctx, succ, some (pdusModifyFailRspCreate req .rnlUnknownPdusId)⟩
  | (some r, T) => do
      let T := T.setRow r ((T.tunnelTable r).copyPdus (T.tunnelTable old))
      let succ := pdusModifySuccRspCreate (T.tunnelTable r) succ
      let T ← forRange (pdusModifyRemoveDrb req ctx) req.drbRemoveCount T
      let w ← forRange (pdusModifyModifyDrb req) req.drbModifyCount ⟨T, ctx, succ⟩
      let w ← forRange (pdusModifySetupDrb env req) req.drbSetupCount w
      let list ← w.ctx.pdusTunnelList.set? idx (some r)
      some ⟨w.tun, { w.ctx with pdusTunnelList := list }, w.succ, none⟩

end Pfm
