import Pfm.BearerResidue
import Pfm.DrbAccounting
import Pfm.ModifySessions
import Pfm.SetupAdvertised

/-!
# The sessions a bearer modification reports

`e1ap_bearer_ctx_modify` keeps the result of its last call in one variable and tests it
before it asks whether the session of an item was found.  An item that names no session is
then counted as refused without its refusal being written, when the call before it, for
another item or in another phase, failed.

* `SessionsAccounted` : every item is reported once, in order, with its own result;
* `sessionStep` : what serving an item does, without the response;
* `sessionAccounting_iff` : when the response is right.
-/

namespace Pfm

open BoundedLoop ServeInOrder StepSystem TwoRuns

variable {D : Dpdk} {env : Env D} {T T' : TunnelTable D} {ctx ctx' : UeCtx}

/-! ### What the success slot holds makes no difference -/

/-- Two states of the DRB loops that differ in what their slots hold. -/
def SameButSlots (w v : PdusWork D PdusModifySuccRspInfo) : Prop :=
  w.tun = v.tun ∧ w.ctx = v.ctx ∧ w.succ.drbSetupSuccCount = v.succ.drbSetupSuccCount ∧
    w.succ.drbSetupFailCount = v.succ.drbSetupFailCount

theorem SameButSlots.drbs {w v : PdusWork D PdusModifySuccRspInfo} (h : SameButSlots w v) :
    w.drbs = v.drbs :=
  Prod.ext h.1 h.2.1

theorem pdusModifyModifyDrb_slots {req : PdusModifyReqInfo} {i : Nat}
    {w v : PdusWork D PdusModifySuccRspInfo} (h : SameButSlots w v) :
    Option.Rel SameButSlots (pdusModifyModifyDrb req i w) (pdusModifyModifyDrb req i v) := by
  rw [pdusModifyModifyDrb_eq, pdusModifyModifyDrb_eq, h.drbs]
  apply rel_bind_same
  intro item _
  apply rel_bind_same
  intro answer _
  obtain ⟨-, -, hsucc, hfail⟩ := h
  obtain ⟨s, r⟩ := answer
  cases r with
  | error fail =>
      simp only [PdusWork.noteModify, hfail]
      apply rel_bind (set?_rel _ _ _ _)
      intro list list' _
      exact .some ⟨rfl, rfl, hsucc, rfl⟩
  | ok b =>
      simp only [PdusWork.noteModify, hsucc]
      apply rel_bind (set?_rel _ _ _ _)
      intro list list' _
      exact .some ⟨rfl, rfl, rfl, hfail⟩

theorem pdusModifySetupDrb_slots {req : PdusModifyReqInfo} {i : Nat}
    {w v : PdusWork D PdusModifySuccRspInfo} (h : SameButSlots w v) :
    Option.Rel SameButSlots (pdusModifySetupDrb env req i w) (pdusModifySetupDrb env req i v) := by
  rw [pdusModifySetupDrb_eq, pdusModifySetupDrb_eq, h.drbs]
  apply rel_bind_same
  intro item _
  apply rel_bind_same
  intro answer _
  obtain ⟨-, -, hsucc, hfail⟩ := h
  obtain ⟨s, r⟩ := answer
  cases r with
  | error fail =>
      simp only [PdusWork.noteSetup, hfail]
      apply rel_bind (set?_rel _ _ _ _)
      intro list list' _
      exact .some ⟨rfl, rfl, hsucc, rfl⟩
  | ok b =>
      simp only [PdusWork.noteSetup, hsucc]
      apply rel_bind (set?_rel _ _ _ _)
      intro list list' _
      exact .some ⟨rfl, rfl, rfl, hfail⟩

/-- Two results of `pdus_modify` that differ in what it wrote to its success slot. -/
def SameButSucc (out out' : PdusServed D PdusModifySuccRspInfo) : Prop :=
  out.tun = out'.tun ∧ out.ctx = out'.ctx ∧ out.fail = out'.fail

theorem pdusModify_slots (env : Env D) (T : TunnelTable D) (ctx : UeCtx)
    (req : PdusModifyReqInfo) (slot slot' : PdusModifySuccRspInfo) (idx : Nat) :
    Option.Rel SameButSucc (pdusModify env T ctx req slot idx)
      (pdusModify env T ctx req slot' idx) := by
  unfold pdusModify
  apply rel_bind_same
  intro old _
  cases tunnelModify T (T.tunnelTable old).key with
  | mk got T₁ =>
      cases got with
      | none => exact .some ⟨rfl, rfl, rfl⟩
      | some r =>
          apply rel_bind_same
          intro T₂ _
          refine rel_bind (forRange_rel (fun _ => SameButSlots) ⟨rfl, rfl, rfl, rfl⟩
            fun i w v _ h => pdusModifyModifyDrb_slots h) ?_
          intro w v h
          refine rel_bind (forRange_rel (fun _ => SameButSlots) h
            fun i w v _ h => pdusModifySetupDrb_slots h) ?_
          intro w' v' h'
          rw [h'.2.1]
          apply rel_bind_same
          intro list _
          exact .some ⟨h'.1, rfl, rfl⟩

/-! ### Every response names its session -/

theorem tunnelModify_info {key : TunnelKey} {r : TunnelIdx}
    (h : tunnelModify T key = (some r, T')) (x : TunnelIdx) :
    (T'.tunnelTable x).info = (T.tunnelTable x).info := by
  obtain ⟨-, -, rfl⟩ := tunnelModify_some h
  by_cases hx : x = r
  · subst hx
    rw [TunnelTable.takeRow_row]
  · rw [TunnelTable.takeRow_of_ne hx]

/-- A session that is modified reports the id that the tunnel at its index has. -/
theorem pdusModify_pdusId {req : PdusModifyReqInfo} {slot : PdusModifySuccRspInfo} {idx : Nat}
    {old : TunnelIdx} {out : PdusServed D PdusModifySuccRspInfo}
    (hold : ctx.pdusTunnelList.deref? idx = some old)
    (h : pdusModify env T ctx req slot idx = some out) :
    (∀ fail, out.fail = some fail → fail.pdusId = req.pdusId) ∧
      (out.fail = none → out.succ.pdusId = (T.tunnelTable old).info.pdusId) := by
  obtain ⟨old', hold', hcase⟩ := pdusModify_cases h
  obtain rfl := Option.some.inj (hold.symm.trans hold')
  cases hcase with
  | noTunnel T₁ modified =>
      refine ⟨?_, fun hno => absurd hno (by simp)⟩
      intro fail hfail
      obtain rfl := Option.some.inj hfail
      rfl
  | served r T₁ T₂ w w' list modified removes modifies setups listed =>
      refine ⟨fun fail hfail => absurd hfail (by simp), ?_⟩
      intro _
      have hkept := pdusModifyModifyDrbs_kept modifies
      have hsame := pdusModifySetupDrbs_sameModify setups
      calc w'.succ.pdusId = w.succ.pdusId := hsame.pdusId
        _ = ((T₁.tunnelTable r).copyPdus (T₁.tunnelTable old)).info.pdusId := hkept.pdusId
        _ = (T₁.tunnelTable old).info.pdusId := TunnelInfo.pdusId_setPdusId _ _
        _ = (T.tunnelTable old).info.pdusId := by rw [tunnelModify_info modified]

theorem pdusSetupDrbs_pdusId {req : PdusSetupReqInfo} {n : Nat}
    {w w' : PdusWork D PdusSetupSuccRspInfo}
    (h : forRange (pdusSetupDrb env req) n w = some w') : w'.succ.pdusId = w.succ.pdusId := by
  refine forRange_invariant (fun _ w' => w'.succ.pdusId = w.succ.pdusId) rfl ?_ h
  intro i w₁ w₂ _ hsame hturn
  obtain ⟨item, -, hturn⟩ := Option.bind_eq_some_iff.mp hturn
  obtain ⟨out, -, hturn⟩ := Option.bind_eq_some_iff.mp hturn
  cases hrsp : out.rsp with
  | error fail =>
      simp only [hrsp] at hturn
      obtain ⟨list, -, hturn⟩ := Option.bind_eq_some_iff.mp hturn
      obtain rfl := Option.some.inj hturn
      exact hsame
  | ok succ =>
      simp only [hrsp] at hturn
      obtain ⟨list, -, hturn⟩ := Option.bind_eq_some_iff.mp hturn
      obtain rfl := Option.some.inj hturn
      exact hsame

/-- A session that is set up, or refused, is reported by its id. -/
theorem pdusSetup_pdusId {req : PdusSetupReqInfo} {slot : PdusSetupSuccRspInfo}
    {out : PdusServed D PdusSetupSuccRspInfo}
    (h : pdusSetup env T ctx req slot = some out) :
    (∀ fail, out.fail = some fail → fail.pdusId = req.pdusId) ∧
      (out.fail = none → out.succ.pdusId = req.pdusId) := by
  have hrefused {fail : PdusSetupFailRspInfo} (cause : E1apFailCause)
      (hfail : some (⟨req.pdusId, cause⟩ : PdusSetupFailRspInfo) = some fail) :
      fail.pdusId = req.pdusId := by
    obtain rfl := Option.some.inj hfail
    rfl
  cases pdusSetup_cases h with
  | refused cause why => exact ⟨fun _ => hrefused cause, fun hno => absurd hno (by simp)⟩
  | noTunnel T' cause opened => exact ⟨fun _ => hrefused cause, fun hno => absurd hno (by simp)⟩
  | noDrb key r T' w cause opened drbs all =>
      exact ⟨fun _ => hrefused cause, fun hno => absurd hno (by simp)⟩
  | served key r T' w list opened drbs some_served listed =>
      refine ⟨fun fail hfail => absurd hfail (by simp), ?_⟩
      intro _
      calc w.succ.pdusId = (pdusSetupStart T' ctx req slot r).succ.pdusId :=
            pdusSetupDrbs_pdusId drbs
        _ = req.pdusId := TunnelInfo.pdusId_setPdusId _ _

/-! ### The answers of the sessions -/

/-- What `pdus_modify` and `pdus_setup` leave and answer. -/
def PdusServed.answer {ρ : Type} (out : PdusServed D ρ) :
    DrbState D × Except PdusSetupFailRspInfo ρ :=
  ((out.tun, out.ctx),
    match out.fail with
    | some fail => .error fail
    | none => .ok out.succ)

/-- An item to modify names no session of the context and is refused for that, or is
answered, under its own id, by its own call of `pdus_modify`. -/
inductive ModifyAnswers (env : Env D) (s : DrbState D) (item : PdusModifyReqInfo) :
    DrbState D × Except PdusSetupFailRspInfo PdusModifySuccRspInfo → Prop
  | unknown (unknown : findPdus s.1 s.2 item.pdusId = some none) :
      ModifyAnswers env s item (s, .error (pdusModifyFailRspCreate item .rnlUnknownPdusId))
  | called (j : Nat) (slot : PdusModifySuccRspInfo)
      (out : PdusServed D PdusModifySuccRspInfo)
      (found : findPdus s.1 s.2 item.pdusId = some (some j))
      (call : pdusModify env s.1 s.2 item slot j = some out)
      (ownFail : ∀ fail, out.fail = some fail → fail.pdusId = item.pdusId)
      (own : out.fail = none → out.succ.pdusId = item.pdusId) :
      ModifyAnswers env s item out.answer

/-- An item to set up is answered, under its own id, by its own call of `pdus_setup`. -/
inductive SetupAnswers (env : Env D) (s : DrbState D) (item : PdusSetupReqInfo) :
    DrbState D × Except PdusSetupFailRspInfo PdusSetupSuccRspInfo → Prop
  | called (slot : PdusSetupSuccRspInfo) (out : PdusServed D PdusSetupSuccRspInfo)
      (call : pdusSetup env s.1 s.2 item slot = some out)
      (ownFail : ∀ fail, out.fail = some fail → fail.pdusId = item.pdusId)
      (own : out.fail = none → out.succ.pdusId = item.pdusId) :
      SetupAnswers env s item out.answer

/-- The response on the sessions of a request whose items are served from the state `s`. -/
def SessionsAccounted (env : Env D) (s : DrbState D) (req : E1apBearerCtxModifyReq)
    (rsp : E1apBearerCtxModifyRsp) : Prop :=
  ∃ modified setup,
    Answered (ModifyAnswers env) s (req.pdusModifyList.firstN req.pdusModifyCount) modified ∧
    Answered (SetupAnswers env) modified.state (req.pdusSetupList.firstN req.pdusSetupCount)
      setup ∧
    Holds rsp.pdusModifySuccList rsp.pdusModifySuccCount modified.succs ∧
    Holds rsp.pdusModifyFailList rsp.pdusModifyFailCount modified.fails ∧
    Holds rsp.pdusSetupSuccList rsp.pdusSetupSuccCount setup.succs ∧
    Holds rsp.pdusSetupFailList rsp.pdusSetupFailCount setup.fails

/-- The tables while the sessions to modify are served, with the result of the last call
for one of the sessions and the number of items refused. -/
structure SessionState (D : Dpdk) where
  tun : TunnelTable D
  ctx : UeCtx
  last : PfmRetval
  refused : Nat

/-- One item to modify.  What the success slot holds is of no matter. -/
def sessionStep (env : Env D) (s : SessionState D) (item : PdusModifyReqInfo) :
    Option (SessionState D) := do
  let found ← findPdus s.tun s.ctx item.pdusId
  match found with
  | none => some { s with refused := s.refused + 1 }
  | some j => do
      let out ← pdusModify env s.tun s.ctx item (pdusModifyRspFrom ⟨0, .rnlUnspecified⟩) j
      match out.fail with
      | some _ => some ⟨out.tun, out.ctx, .failed, s.refused + 1⟩
      | none => some ⟨out.tun, out.ctx, .success, s.refused⟩

/-- An item that names no session comes behind a call that succeeded, or finds in its slot
what is not written there. -/
def RefusalInPlace (rsp : E1apBearerCtxModifyRsp) (s : SessionState D)
    (item : PdusModifyReqInfo) : Prop :=
  findPdus s.tun s.ctx item.pdusId = some none → s.last = .failed →
    rsp.pdusModifyFailList.get? s.refused =
      some (pdusModifyFailRspCreate item .rnlUnknownPdusId)

/-- The answer to an item is determined but for what its success slot held. -/
theorem modifyAnswers_unique (env : Env D) (s : DrbState D) (item : PdusModifyReqInfo)
    (x y : DrbState D × Except PdusSetupFailRspInfo PdusModifySuccRspInfo)
    (hx : ModifyAnswers env s item x) (hy : ModifyAnswers env s item y) :
    x.1 = y.1 ∧ ∀ c, x.2 = .error c ↔ y.2 = .error c := by
  cases hx with
  | unknown unknown =>
      cases hy with
      | unknown unknown' => exact ⟨rfl, fun _ => Iff.rfl⟩
      | called j slot out found call ownFail own =>
          rw [unknown] at found
          cases found
  | called j slot out found call ownFail own =>
      cases hy with
      | unknown unknown =>
          rw [unknown] at found
          cases found
      | called j' slot' out' found' call' ownFail' own' =>
          obtain rfl := Option.some.inj (Option.some.inj (found.symm.trans found'))
          have hrel := pdusModify_slots env s.1 s.2 item slot slot' j
          rw [call, call'] at hrel
          cases hrel with
          | some h =>
              obtain ⟨htun, hctx, hfail⟩ := h
              refine ⟨Prod.ext htun hctx, ?_⟩
              intro c
              simp only [PdusServed.answer, hfail]
              cases out'.fail with
              | some fail => exact Iff.rfl
              | none => exact iff_of_false (by simp) (by simp)

/-! ### The loop over the sessions to modify -/

/-- One turn of the loop over the sessions to modify, by what becomes of its item. -/
inductive ModifyTurn (env : Env D) (item : PdusModifyReqInfo) (w : ModifyWork D) :
    ModifyWork D → Prop
  | stale (unknown : findPdus w.tun w.ctx item.pdusId = some none) (stale : w.ret = .failed) :
      ModifyTurn env item w { w with rsp := { w.rsp with
        pdusModifyFailCount := w.rsp.pdusModifyFailCount + 1 } }
  | refused (list : CArray maxPdusPerUe PdusSetupFailRspInfo)
      (unknown : findPdus w.tun w.ctx item.pdusId = some none) (fresh : w.ret ≠ .failed)
      (written : w.rsp.pdusModifyFailList.set? w.rsp.pdusModifyFailCount
        (pdusModifyFailRspCreate item .rnlUnknownPdusId) = some list) :
      ModifyTurn env item w { w with rsp := { w.rsp with
        pdusModifyFailList := list
        pdusModifyFailCount := w.rsp.pdusModifyFailCount + 1 } }
  | failed (j : Nat) (slot : PdusModifySuccRspInfo)
      (out : PdusServed D PdusModifySuccRspInfo) (fail : PdusSetupFailRspInfo)
      (succList : CArray maxPdusPerUe PdusModifySuccRspInfo)
      (failList : CArray maxPdusPerUe PdusSetupFailRspInfo)
      (found : findPdus w.tun w.ctx item.pdusId = some (some j))
      (call : pdusModify env w.tun w.ctx item slot j = some out) (fails : out.fail = some fail)
      (slotWritten : w.rsp.pdusModifySuccList.set? w.rsp.pdusModifySuccCount out.succ =
        some succList)
      (written : w.rsp.pdusModifyFailList.set? w.rsp.pdusModifyFailCount fail =
        some failList) :
      ModifyTurn env item w ⟨⟨out.tun, out.ctx, { w.rsp with
        pdusModifySuccList := succList
        pdusModifyFailList := failList
        pdusModifyFailCount := w.rsp.pdusModifyFailCount + 1 }⟩, .failed⟩
  | modified (j : Nat) (slot : PdusModifySuccRspInfo)
      (out : PdusServed D PdusModifySuccRspInfo)
      (succList : CArray maxPdusPerUe PdusModifySuccRspInfo)
      (found : findPdus w.tun w.ctx item.pdusId = some (some j))
      (call : pdusModify env w.tun w.ctx item slot j = some out) (serves : out.fail = none)
      (written : w.rsp.pdusModifySuccList.set? w.rsp.pdusModifySuccCount out.succ =
        some succList) :
      ModifyTurn env item w ⟨⟨out.tun, out.ctx, { w.rsp with
        pdusModifySuccList := succList
        pdusModifySuccCount := w.rsp.pdusModifySuccCount + 1 }⟩, .success⟩

theorem e1apModifyModifyPdus_turn {req : E1apBearerCtxModifyReq} {i : Nat}
    {item : PdusModifyReqInfo} {w w' : ModifyWork D}
    (hitem : req.pdusModifyList.get? i = some item)
    (h : e1apModifyModifyPdus env req i w = some w') : ModifyTurn env item w w' := by
  unfold e1apModifyModifyPdus at h
  simp only [hitem, Option.bind_eq_bind, Option.bind_some] at h
  obtain ⟨found, hfound, h⟩ := Option.bind_eq_some_iff.mp h
  have hsearch : findPdus w.tun w.ctx item.pdusId = some found := hfound
  cases found with
  | none =>
      simp only at h
      split at h
      · rename_i hstale
        obtain rfl := Option.some.inj h
        exact .stale hsearch hstale
      · rename_i hfresh
        obtain ⟨list, hlist, h⟩ := Option.bind_eq_some_iff.mp h
        obtain rfl := Option.some.inj h
        exact .refused list hsearch hfresh hlist
  | some j =>
      obtain ⟨slot, -, h⟩ := Option.bind_eq_some_iff.mp h
      obtain ⟨out, hout, h⟩ := Option.bind_eq_some_iff.mp h
      obtain ⟨succList, hsucc, h⟩ := Option.bind_eq_some_iff.mp h
      cases hfail : out.fail with
      | some fail =>
          simp only [hfail] at h
          obtain ⟨failList, hlist, h⟩ := Option.bind_eq_some_iff.mp h
          obtain rfl := Option.some.inj h
          exact .failed j slot out fail succList failList hsearch hout hfail hsucc hlist
      | none =>
          simp only [hfail] at h
          obtain rfl := Option.some.inj h
          exact .modified j slot out succList hsearch hout hfail hsucc

theorem findPdus_found {id : UInt8} {j : Nat} (h : findPdus T ctx id = some (some j)) :
    ∃ nt, ctx.pdusTunnelList.deref? j = some nt ∧ (T.tunnelTable nt).info.pdusId = id := by
  obtain ⟨-, htest, -⟩ := firstIndex_eq_some_iff.mp h
  obtain ⟨nt, hnt, htest⟩ := Option.bind_eq_some_iff.mp htest
  exact ⟨nt, hnt, by simpa using htest⟩

/-- The call for an item that names a session answers it under its own id. -/
theorem modifyAnswers_of_call {item : PdusModifyReqInfo} {j : Nat}
    {slot : PdusModifySuccRspInfo} {out : PdusServed D PdusModifySuccRspInfo}
    (hfound : findPdus T ctx item.pdusId = some (some j))
    (hcall : pdusModify env T ctx item slot j = some out) :
    ModifyAnswers env (T, ctx) item out.answer := by
  obtain ⟨nt, hnt, hid⟩ := findPdus_found hfound
  obtain ⟨hfail, hsucc⟩ := pdusModify_pdusId hnt hcall
  exact .called j slot out hfound hcall hfail fun hno => (hsucc hno).trans hid

theorem sessionStep_of_unknown {item : PdusModifyReqInfo} {last : PfmRetval} {k : Nat}
    (hunknown : findPdus T ctx item.pdusId = some none) :
    sessionStep env ⟨T, ctx, last, k⟩ item = some ⟨T, ctx, last, k + 1⟩ := by
  simp only [sessionStep, hunknown, Option.bind_eq_bind, Option.bind_some]

theorem sessionStep_of_call {item : PdusModifyReqInfo} {last : PfmRetval} {j k : Nat}
    {slot : PdusModifySuccRspInfo} {out : PdusServed D PdusModifySuccRspInfo}
    (hfound : findPdus T ctx item.pdusId = some (some j))
    (hcall : pdusModify env T ctx item slot j = some out) :
    (∀ fail, out.fail = some fail →
      sessionStep env ⟨T, ctx, last, k⟩ item = some ⟨out.tun, out.ctx, .failed, k + 1⟩) ∧
    (out.fail = none →
      sessionStep env ⟨T, ctx, last, k⟩ item = some ⟨out.tun, out.ctx, .success, k⟩) := by
  have hrel := pdusModify_slots env T ctx item slot (pdusModifyRspFrom ⟨0, .rnlUnspecified⟩) j
  rw [hcall] at hrel
  generalize hcall' : pdusModify env T ctx item (pdusModifyRspFrom ⟨0, .rnlUnspecified⟩) j = got
    at hrel
  cases hrel with
  | some h =>
      obtain ⟨htun, hctx, hfail⟩ := h
      refine ⟨?_, ?_⟩
      · intro fail hf
        rw [hfail] at hf
        simp only [sessionStep, hfound, hcall', Option.bind_eq_bind, Option.bind_some, hf, htun,
          hctx]
      · intro hf
        rw [hfail] at hf
        simp only [sessionStep, hfound, hcall', Option.bind_eq_bind, Option.bind_some, hf, htun,
          hctx]

/-- What has been answered in the loop over the sessions to modify, which starts in `s`
with the response `rsp`. -/
structure ModifyLoop (env : Env D) (req : E1apBearerCtxModifyReq) (rsp : E1apBearerCtxModifyRsp)
    (s : SessionState D) (i : Nat) (w : ModifyWork D)
    (served : Served (DrbState D) PdusModifySuccRspInfo PdusSetupFailRspInfo) : Prop where
  state : served.state = (w.tun, w.ctx)
  run : exec (sessionStep env) s (req.pdusModifyList.firstN i) =
    some ⟨w.tun, w.ctx, w.ret, w.rsp.pdusModifyFailCount⟩
  succs : Holds w.rsp.pdusModifySuccList w.rsp.pdusModifySuccCount served.succs
  count : w.rsp.pdusModifyFailCount = served.fails.length
  fails : w.rsp.pdusModifyFailList.firstN w.rsp.pdusModifyFailCount = served.fails ↔
    Along (sessionStep env) (RefusalInPlace rsp) s (req.pdusModifyList.firstN i)
  rest : ∀ k, w.rsp.pdusModifyFailCount ≤ k →
    w.rsp.pdusModifyFailList.get? k = rsp.pdusModifyFailList.get? k

theorem ModifyLoop.turn {req : E1apBearerCtxModifyReq} {rsp : E1apBearerCtxModifyRsp}
    {s : SessionState D} {i : Nat} {item : PdusModifyReqInfo} {w w' : ModifyWork D}
    {served : Served (DrbState D) PdusModifySuccRspInfo PdusSetupFailRspInfo}
    (h : ModifyLoop env req rsp s i w served)
    (hitem : req.pdusModifyList.get? i = some item) (hlen : served.fails.length < maxPdusPerUe)
    (hturn : ModifyTurn env item w w') :
    ∃ answer, ModifyAnswers env served.state item answer ∧
      ModifyLoop env req rsp s (i + 1) w' (served.add answer) := by
  have hfirst := CArray.firstN_succ hitem
  have hrun {t : SessionState D}
      (ht : sessionStep env ⟨w.tun, w.ctx, w.ret, w.rsp.pdusModifyFailCount⟩ item = some t) :
      exec (sessionStep env) s (req.pdusModifyList.firstN (i + 1)) = some t := by
    rw [hfirst, exec_append, h.run, Option.bind_some, exec_cons, ht]
    rfl
  have halong : Along (sessionStep env) (RefusalInPlace rsp) s
        (req.pdusModifyList.firstN (i + 1)) ↔
      Along (sessionStep env) (RefusalInPlace rsp) s (req.pdusModifyList.firstN i) ∧
        RefusalInPlace rsp ⟨w.tun, w.ctx, w.ret, w.rsp.pdusModifyFailCount⟩ item := by
    rw [hfirst, along_concat, h.run]
    exact and_congr_right fun _ => ⟨fun hall => hall _ rfl, fun hplace t ht =>
      Option.some.inj ht ▸ hplace⟩
  -- A slot that is written holds what it should, so only the items before it matter.
  have hwritten {c : PdusSetupFailRspInfo} {list : CArray maxPdusPerUe PdusSetupFailRspInfo}
      (hset : w.rsp.pdusModifyFailList.set? w.rsp.pdusModifyFailCount c = some list)
      (hplace : RefusalInPlace rsp ⟨w.tun, w.ctx, w.ret, w.rsp.pdusModifyFailCount⟩ item) :
      (list.firstN (w.rsp.pdusModifyFailCount + 1) = served.fails ++ [c] ↔
        Along (sessionStep env) (RefusalInPlace rsp) s (req.pdusModifyList.firstN (i + 1))) ∧
      ∀ k, w.rsp.pdusModifyFailCount + 1 ≤ k → list.get? k = rsp.pdusModifyFailList.get? k := by
    refine ⟨?_, ?_⟩
    · rw [CArray.firstN_succ_set? hset, List.append_left_inj, h.fails, halong,
        and_iff_left hplace]
    · intro k hk
      rw [CArray.get?_set? hset, if_neg (by omega), h.rest k (by omega)]
  have hcount : w.rsp.pdusModifyFailCount + 1 =
      (served.fails ++ [pdusModifyFailRspCreate item .rnlUnknownPdusId]).length := by
    rw [List.length_append, List.length_singleton, h.count]
  cases hturn with
  | stale unknown stale =>
      refine ⟨_, .unknown (h.state ▸ unknown), h.state, hrun (sessionStep_of_unknown unknown),
        h.succs, hcount, ?_, fun k hk => h.rest k (Nat.le_of_succ_le hk)⟩
      obtain ⟨y, hy⟩ : ∃ y, w.rsp.pdusModifyFailList.get? w.rsp.pdusModifyFailCount = some y :=
        ⟨_, CArray.get?_of_lt _ (h.count ▸ hlen)⟩
      have hplace : RefusalInPlace rsp ⟨w.tun, w.ctx, w.ret, w.rsp.pdusModifyFailCount⟩ item ↔
          y = pdusModifyFailRspCreate item .rnlUnknownPdusId := by
        rw [RefusalInPlace, ← h.rest _ (Nat.le_refl _), hy, Option.some.injEq]
        exact ⟨fun hall => hall unknown stale, fun heq _ _ => heq⟩
      change w.rsp.pdusModifyFailList.firstN (w.rsp.pdusModifyFailCount + 1) = _ ↔ _
      rw [CArray.firstN_succ hy, halong, hplace, ← h.fails]
      exact List.append_singleton_inj
  | refused list unknown fresh written =>
      obtain ⟨hfails, hrest⟩ := hwritten written fun _ hlast => absurd hlast fresh
      exact ⟨_, .unknown (h.state ▸ unknown), h.state, hrun (sessionStep_of_unknown unknown),
        h.succs, hcount, hfails, hrest⟩
  | failed j slot out fail succList failList found call fails slotWritten written =>
      have hnot : findPdus w.tun w.ctx item.pdusId ≠ some none := by simp [found]
      obtain ⟨hfails, hrest⟩ := hwritten written fun hno _ => absurd hno hnot
      have hadd : served.add out.answer =
          ⟨(out.tun, out.ctx), served.succs, served.fails ++ [fail]⟩ := by
        simp only [Served.add, PdusServed.answer, fails]
      refine ⟨out.answer, h.state ▸ modifyAnswers_of_call found call, ?_⟩
      rw [hadd]
      refine ⟨rfl, hrun ((sessionStep_of_call found call).1 fail fails), ?_, ?_, hfails, hrest⟩
      · exact ⟨h.succs.1, (CArray.firstN_set? slotWritten (Nat.le_refl _)).trans h.succs.2⟩
      · simp only [List.length_append, List.length_singleton, h.count]
  | modified j slot out succList found call serves written =>
      have hnot : findPdus w.tun w.ctx item.pdusId ≠ some none := by simp [found]
      have hadd : served.add out.answer =
          ⟨(out.tun, out.ctx), served.succs ++ [out.succ], served.fails⟩ := by
        simp only [Served.add, PdusServed.answer, serves]
      refine ⟨out.answer, h.state ▸ modifyAnswers_of_call found call, ?_⟩
      rw [hadd]
      refine ⟨rfl, hrun ((sessionStep_of_call found call).2 serves), h.succs.push written,
        h.count, ?_, h.rest⟩
      have hplace : RefusalInPlace rsp ⟨w.tun, w.ctx, w.ret, w.rsp.pdusModifyFailCount⟩ item :=
        fun hno _ => absurd hno hnot
      rw [halong, and_iff_left hplace]
      exact h.fails

/-- The loop as a whole. -/
theorem e1apModifyModifyPdus_run {req : E1apBearerCtxModifyReq} {w w' : ModifyWork D}
    (hcount : req.pdusModifyCount ≤ maxPdusPerUe)
    (hsucc : w.rsp.pdusModifySuccCount = 0) (hfail : w.rsp.pdusModifyFailCount = 0)
    (hrun : forRange (e1apModifyModifyPdus env req) req.pdusModifyCount w = some w') :
    ∃ served, Answered (ModifyAnswers env) (w.tun, w.ctx)
        (req.pdusModifyList.firstN req.pdusModifyCount) served ∧
      ModifyLoop env req w.rsp ⟨w.tun, w.ctx, w.ret, 0⟩ req.pdusModifyCount w' served := by
  have h0 : ModifyLoop env req w.rsp ⟨w.tun, w.ctx, w.ret, 0⟩ 0 w ⟨(w.tun, w.ctx), [], []⟩ := by
    refine ⟨rfl, ?_, hsucc ▸ holds_nil _, hfail, ?_, fun _ _ => rfl⟩
    · rw [hfail]
      rfl
    · rw [hfail]
      exact iff_of_true rfl trivial
  refine forRange_answered (ModifyLoop env req w.rsp ⟨w.tun, w.ctx, w.ret, 0⟩) h0 hcount ?_ hrun
  intro i item w₁ w₂ served hitem hi hanswered hloop hturn
  have hlen := hanswered.length
  rw [length_firstN _ (by omega)] at hlen
  exact hloop.turn hitem (by omega) (e1apModifyModifyPdus_turn hitem hturn)

/-! ### The loop over the sessions to set up -/

/-- The loop over the modifications leaves its counters alone. -/
theorem e1apModifyModifyPdus_setupCounts {req : E1apBearerCtxModifyReq}
    {n : Nat} {w w' : ModifyWork D}
    (hrun : forRange (e1apModifyModifyPdus env req) n w = some w') (hn : n ≤ maxPdusPerUe) :
    w'.rsp.pdusSetupSuccCount = w.rsp.pdusSetupSuccCount ∧
      w'.rsp.pdusSetupFailCount = w.rsp.pdusSetupFailCount := by
  refine forRange_invariant (fun _ w' => w'.rsp.pdusSetupSuccCount = w.rsp.pdusSetupSuccCount ∧
    w'.rsp.pdusSetupFailCount = w.rsp.pdusSetupFailCount) ⟨rfl, rfl⟩ ?_ hrun
  intro i w₁ w₂ hi hsame hturn
  have hitem := req.pdusModifyList.get?_of_lt (Nat.lt_of_lt_of_le hi hn)
  cases e1apModifyModifyPdus_turn hitem hturn with
  | stale unknown stale => exact hsame
  | refused list unknown fresh written => exact hsame
  | failed j slot out fail succList failList found call fails slotWritten written => exact hsame
  | modified j slot out succList found call serves written => exact hsame

/-- What has been answered in the loop over the sessions to set up, which starts with the
response `rsp`. -/
structure SetupLoop (rsp : E1apBearerCtxModifyRsp) (w : CtxWork D E1apBearerCtxModifyRsp)
    (served : Served (DrbState D) PdusSetupSuccRspInfo PdusSetupFailRspInfo) : Prop where
  state : served.state = (w.tun, w.ctx)
  succs : Holds w.rsp.pdusSetupSuccList w.rsp.pdusSetupSuccCount served.succs
  fails : Holds w.rsp.pdusSetupFailList w.rsp.pdusSetupFailCount served.fails
  modifySuccs : w.rsp.pdusModifySuccList = rsp.pdusModifySuccList ∧
    w.rsp.pdusModifySuccCount = rsp.pdusModifySuccCount
  modifyFails : w.rsp.pdusModifyFailList = rsp.pdusModifyFailList ∧
    w.rsp.pdusModifyFailCount = rsp.pdusModifyFailCount

theorem SetupLoop.turn {req : E1apBearerCtxModifyReq} {rsp : E1apBearerCtxModifyRsp} {i : Nat}
    {item : PdusSetupReqInfo} {w w' : CtxWork D E1apBearerCtxModifyRsp}
    {served : Served (DrbState D) PdusSetupSuccRspInfo PdusSetupFailRspInfo}
    (h : SetupLoop rsp w served) (hitem : req.pdusSetupList.get? i = some item)
    (hturn : e1apModifySetupPdus env req i w = some w') :
    ∃ answer, SetupAnswers env served.state item answer ∧ SetupLoop rsp w' (served.add answer) := by
  unfold e1apModifySetupPdus at hturn
  simp only [hitem, Option.bind_eq_bind, Option.bind_some] at hturn
  obtain ⟨slot, -, hturn⟩ := Option.bind_eq_some_iff.mp hturn
  obtain ⟨out, hcall, hturn⟩ := Option.bind_eq_some_iff.mp hturn
  obtain ⟨succList, hslot, hturn⟩ := Option.bind_eq_some_iff.mp hturn
  obtain ⟨hownFail, hown⟩ := pdusSetup_pdusId hcall
  refine ⟨out.answer, h.state ▸ .called slot out hcall hownFail hown, ?_⟩
  cases hfail : out.fail with
  | some fail =>
      simp only [hfail] at hturn
      obtain ⟨failList, hset, hturn⟩ := Option.bind_eq_some_iff.mp hturn
      obtain rfl := Option.some.inj hturn
      have hadd : served.add out.answer =
          ⟨(out.tun, out.ctx), served.succs, served.fails ++ [fail]⟩ := by
        simp only [Served.add, PdusServed.answer, hfail]
      rw [hadd]
      refine ⟨rfl, ?_, h.fails.push hset, h.modifySuccs, h.modifyFails⟩
      exact ⟨h.succs.1, (CArray.firstN_set? hslot (Nat.le_refl _)).trans h.succs.2⟩
  | none =>
      simp only [hfail] at hturn
      obtain rfl := Option.some.inj hturn
      have hadd : served.add out.answer =
          ⟨(out.tun, out.ctx), served.succs ++ [out.succ], served.fails⟩ := by
        simp only [Served.add, PdusServed.answer, hfail]
      rw [hadd]
      exact ⟨rfl, h.succs.push hslot, h.fails, h.modifySuccs, h.modifyFails⟩

theorem e1apModifySetupPdus_run {req : E1apBearerCtxModifyReq}
    {w w' : CtxWork D E1apBearerCtxModifyRsp} (hcount : req.pdusSetupCount ≤ maxPdusPerUe)
    (hsucc : w.rsp.pdusSetupSuccCount = 0) (hfail : w.rsp.pdusSetupFailCount = 0)
    (hrun : forRange (e1apModifySetupPdus env req) req.pdusSetupCount w = some w') :
    ∃ served, Answered (SetupAnswers env) (w.tun, w.ctx)
        (req.pdusSetupList.firstN req.pdusSetupCount) served ∧ SetupLoop w.rsp w' served := by
  have h0 : SetupLoop w.rsp w ⟨(w.tun, w.ctx), [], []⟩ :=
    ⟨rfl, hsucc ▸ holds_nil _, hfail ▸ holds_nil _, ⟨rfl, rfl⟩, rfl, rfl⟩
  refine forRange_answered (fun _ w served => SetupLoop _ w served) h0 hcount ?_ hrun
  intro i item w₁ w₂ served hitem hi _ hloop hturn
  exact hloop.turn hitem hturn

/-! ### The whole modification -/

theorem e1apModifyRemovePdus_rsp {req : E1apBearerCtxModifyReq} {n : Nat} {w w' : ModifyWork D}
    (h : forRange (e1apModifyRemovePdus req) n w = some w') : w'.rsp = w.rsp := by
  refine forRange_invariant (fun _ w' => w'.rsp = w.rsp) rfl ?_ h
  intro i w₁ w₂ _ hsame hturn
  obtain ⟨found, -, hturn⟩ := Option.bind_eq_some_iff.mp hturn
  cases found with
  | none =>
      obtain rfl := Option.some.inj hturn
      exact hsame
  | some j =>
      obtain ⟨nt, -, hturn⟩ := Option.bind_eq_some_iff.mp hturn
      obtain rfl := Option.some.inj hturn
      exact hsame

/-- **The sessions a bearer modification reports.**  A modification that succeeds reports
every item once, in request order and by its own result, exactly when each item that names
no session comes behind a call that succeeded, or finds its refusal in its slot. -/
theorem sessionAccounting_iff {S S' : Cuup D} {req : E1apBearerCtxModifyReq}
    {rsp rsp' : E1apBearerCtxModifyRsp} (hM : req.pdusModifyCount ≤ maxPdusPerUe)
    (hN : req.pdusSetupCount ≤ maxPdusPerUe)
    (h : e1apBearerCtxModify env S req rsp = some (.success, rsp', S')) :
    ∃ n U w, ueCtxModify S.ue req.cuupUeId = some (some n, U) ∧
      forRange (e1apModifyRemovePdus req) req.pdusRemoveCount
        ⟨modifyStart S.tun U n req rsp, .failed⟩ = some w ∧
      (SessionsAccounted env (w.tun, w.ctx) req rsp' ↔
        Along (sessionStep env) (RefusalInPlace rsp) ⟨w.tun, w.ctx, w.ret, 0⟩
          (req.pdusModifyList.firstN req.pdusModifyCount)) := by
  generalize hret : PfmRetval.success = ret at h
  cases e1apBearerCtxModify_cases h with
  | noRow U rsp' modify => cases hret
  | otherCucp U n ret₁ S₁ rsp' modify differ rollback => cases hret
  | rolledBack U n w ret₂ S₁ S₂ rsp' modify same serve commit rollback => cases hret
  | committed U n w₂ ret S₁ modify same serve commit done =>
      obtain ⟨w, hremove, serve⟩ := Option.bind_eq_some_iff.mp serve
      obtain ⟨w₁, hmodify, hsetup⟩ := Option.bind_eq_some_iff.mp serve
      have hrsp := e1apModifyRemovePdus_rsp hremove
      obtain ⟨modified, hmodified, hloop⟩ := e1apModifyModifyPdus_run hM
        (congrArg E1apBearerCtxModifyRsp.pdusModifySuccCount hrsp)
        (congrArg E1apBearerCtxModifyRsp.pdusModifyFailCount hrsp) hmodify
      obtain ⟨hsucc, hfail⟩ := e1apModifyModifyPdus_setupCounts hmodify hM
      rw [hrsp] at hsucc hfail
      obtain ⟨setup, hanswered, hsetups⟩ := e1apModifySetupPdus_run hN hsucc hfail hsetup
      obtain ⟨hsuccList, hsuccCount⟩ := hsetups.modifySuccs
      obtain ⟨hfailList, hfailCount⟩ := hsetups.modifyFails
      have hplace : @RefusalInPlace D w.rsp = RefusalInPlace rsp := by
        rw [hrsp]
        rfl
      refine ⟨n, U, w, modify, hremove, ?_⟩
      rw [← hplace, ← hloop.fails, ← hfailList, ← hfailCount]
      constructor
      · intro haccounted
        obtain ⟨modified', setup', hmodified', -, -, hfails, -⟩ := haccounted
        have hunique := Answered.unique (modifyAnswers_unique env) hmodified hmodified'
        rw [hunique.2]
        exact hfails.2
      · intro hheld
        refine ⟨modified, setup, hmodified, hloop.state ▸ hanswered, ?_, ⟨?_, hheld⟩,
          hsetups.succs, hsetups.fails⟩
        · rw [hsuccList, hsuccCount]
          exact hloop.succs
        · rw [hfailCount]
          exact hloop.count

/-- A request to modify session 9 of UE 1 and nothing else. -/
def modifySessionReq : E1apBearerCtxModifyReq :=
  { addSessionReq with
    pdusSetupCount := 0
    pdusModifyCount := 1
    pdusModifyList := fun _ => { modifyDrbReq with pdusId := 9 } }

/-- The UE has no session 9. -/
theorem sessionAccounting_iff_unknown : ∃ S rsp' S',
    exec e1apStep (Cuup.init listDpdk) [zeroSetup, zeroSetup] = some S ∧
      e1apBearerCtxModify upfEnv S modifySessionReq modifyRsp = some (.success, rsp', S') ∧
      ∃ n U w, ueCtxModify S.ue 1 = some (some n, U) ∧
        forRange (e1apModifyRemovePdus modifySessionReq) 0
          ⟨modifyStart S.tun U n modifySessionReq modifyRsp, .failed⟩ = some w ∧
        (SessionsAccounted upfEnv (w.tun, w.ctx) modifySessionReq rsp' ↔
          Along (sessionStep upfEnv) (RefusalInPlace modifyRsp) ⟨w.tun, w.ctx, w.ret, 0⟩
            (modifySessionReq.pdusModifyList.firstN 1)) := by
  have hdec : ((exec e1apStep (Cuup.init listDpdk) [zeroSetup, zeroSetup]).bind fun S =>
      (e1apBearerCtxModify upfEnv S modifySessionReq modifyRsp).map fun out =>
        decide (out.1 = .success)) = some true := by
    decide
  obtain ⟨S, hS, hdec⟩ := Option.bind_eq_some_iff.mp hdec
  obtain ⟨⟨ret, rsp', S'⟩, hmodify, hret⟩ := Option.map_eq_some_iff.mp hdec
  obtain rfl : ret = .success := of_decide_eq_true hret
  obtain ⟨n, U, w, hrow, hremove, hiff⟩ :=
    sessionAccounting_iff (by decide) (by decide) hmodify
  exact ⟨S, rsp', S', hS, hmodify, n, U, w, hrow, hremove, hiff⟩

/-- Session 9 is counted as refused and its refusal is not written: no call was made
before, and the status starts as `PFM_FAILED`. -/
theorem unknown_session_not_reported :
    ¬ ∀ calls S, exec e1apStep (Cuup.init listDpdk) calls = some S →
      ∀ env req rsp rsp' S' n U w, req.pdusModifyCount ≤ maxPdusPerUe →
        req.pdusSetupCount ≤ maxPdusPerUe →
        e1apBearerCtxModify env S req rsp = some (.success, rsp', S') →
        ueCtxModify S.ue req.cuupUeId = some (some n, U) →
        forRange (e1apModifyRemovePdus req) req.pdusRemoveCount
          ⟨modifyStart S.tun U n req rsp, .failed⟩ = some w →
        SessionsAccounted env (w.tun, w.ctx) req rsp' := by
  intro h
  have hdec : ((exec e1apStep (Cuup.init listDpdk) [zeroSetup, zeroSetup]).bind fun S =>
      (e1apBearerCtxModify upfEnv S modifySessionReq modifyRsp).bind fun out =>
        (ueCtxModify S.ue 1).bind fun modified =>
          modified.1.map fun _ =>
            decide (out.1 = .success ∧ out.2.1.pdusModifyFailCount = 1 ∧
              (out.2.1.pdusModifyFailList.get? 0).map PdusSetupFailRspInfo.pdusId =
                some 0)) = some true := by
    decide
  obtain ⟨S, hS, hdec⟩ := Option.bind_eq_some_iff.mp hdec
  obtain ⟨⟨ret, rsp', S'⟩, hmodify, hdec⟩ := Option.bind_eq_some_iff.mp hdec
  obtain ⟨⟨got, U⟩, hrow, hdec⟩ := Option.bind_eq_some_iff.mp hdec
  obtain ⟨n, rfl, hfacts⟩ := Option.map_eq_some_iff.mp hdec
  obtain ⟨rfl, hcount, hid⟩ := of_decide_eq_true hfacts
  obtain ⟨slot, hslot, hzero⟩ := Option.map_eq_some_iff.mp hid
  obtain ⟨modified, -, hanswered, -, -, hfails, -⟩ :=
    h _ S hS upfEnv modifySessionReq modifyRsp rsp' S' n U _ (by decide) (by decide) hmodify
      hrow rfl
  have hlist : modified.fails = [slot] := by
    rw [← hfails.2, hcount, CArray.firstN_succ hslot]
    rfl
  have hone : Answered (ModifyAnswers upfEnv) (S.tun, U.ueCtxTable n)
      ([] ++ [{ modifyDrbReq with pdusId := 9 }]) modified := hanswered
  obtain ⟨before, answer, hbefore, hanswer, rfl⟩ := answered_concat hone
  obtain rfl := answered_nil hbefore
  have hnamed : slot.pdusId = 9 := by
    cases hanswer with
    | unknown unknown =>
        obtain rfl := (List.cons.inj hlist).1
        rfl
    | called j slot' out found call ownFail own =>
        simp only [Served.add, PdusServed.answer] at hlist
        cases hfail : out.fail with
        | some fail =>
            simp only [hfail] at hlist
            obtain rfl := (List.cons.inj hlist).1
            exact ownFail fail hfail
        | none =>
            simp only [hfail] at hlist
            cases hlist
  rw [hzero] at hnamed
  cases hnamed

end Pfm
