import Pfm.BearerContext
import Pfm.BearerSpec
import Pfm.UeCtxSpec

/-!
# What each bearer-context procedure does

The turns of the service loops and the procedures themselves, by outcome.
-/

namespace Pfm

open BoundedLoop

variable {D : Dpdk} {env : Env D} {S S' : Cuup D} {ret : PfmRetval}

/-- One PDU session of a setup request by outcome: its failure or its success is
the next entry of the response. -/
theorem e1apSetupPdus_cases {req : E1apBearerCtxSetupReq} {i : Nat}
    {w w' : CtxWork D E1apBearerCtxSetupRsp} (h : e1apSetupPdus env req i w = some w') :
    ∃ item slot out list, req.pdusList.get? i = some item ∧
      pdusSetup env w.tun w.ctx item slot = some out ∧
      w.rsp.pdusSuccList.set? w.rsp.pdusSetupSuccCount out.succ = some list ∧
      w'.tun = out.tun ∧ w'.ctx = out.ctx ∧
      ((∃ fail failList, out.fail = some fail ∧
          w.rsp.pdusFailList.set? w.rsp.pdusSetupFailCount fail = some failList ∧
          w'.rsp = { w.rsp with
            pdusSuccList := list
            pdusFailList := failList
            pdusSetupFailCount := w.rsp.pdusSetupFailCount + 1 }) ∨
       (out.fail = none ∧ w'.rsp = { w.rsp with
          pdusSuccList := list
          pdusSetupSuccCount := w.rsp.pdusSetupSuccCount + 1 })) := by
  unfold e1apSetupPdus at h
  obtain ⟨item, hitem, h⟩ := Option.bind_eq_some_iff.mp h
  obtain ⟨slot, _, h⟩ := Option.bind_eq_some_iff.mp h
  obtain ⟨out, hout, h⟩ := Option.bind_eq_some_iff.mp h
  obtain ⟨list, hlist, h⟩ := Option.bind_eq_some_iff.mp h
  cases hfail : out.fail with
  | some fail =>
      simp only [hfail] at h
      obtain ⟨failList, hset, h⟩ := Option.bind_eq_some_iff.mp h
      obtain rfl := Option.some.inj h
      exact ⟨item, slot, out, list, hitem, hout, hlist, rfl, rfl,
        Or.inl ⟨fail, failList, hfail, hset, rfl⟩⟩
  | none =>
      simp only [hfail] at h
      obtain rfl := Option.some.inj h
      exact ⟨item, slot, out, list, hitem, hout, hlist, rfl, rfl, Or.inr ⟨hfail, rfl⟩⟩

/-- The state the service loop of a setup request starts in, with UE row `n`. -/
def setupStart (T : TunnelTable D) (U : UeCtxTable D) (n : UeIdx)
    (req : E1apBearerCtxSetupReq) (rsp : E1apBearerCtxSetupRsp) :
    CtxWork D E1apBearerCtxSetupRsp :=
  let ctx := (U.ueCtxTable n).fill req.cucpUeId
  ⟨T, ctx, { rsp with
    cuupUeId := ctx.cuupUeId
    cucpUeId := ctx.cucpUeId
    cause := .none
    pdusSetupSuccCount := 0
    pdusSetupFailCount := 0 }⟩

/-- The tables once the sessions have been served. -/
def CtxWork.tables {ρ : Type} (w : CtxWork D ρ) (U : UeCtxTable D) (n : UeIdx) : Cuup D :=
  ⟨w.tun, U.setRow n w.ctx⟩

/-- `e1ap_bearer_ctx_setup` by outcome: no id, no row, no session served, the
context committed, or the commit failed. -/
inductive SetupOutcome (env : Env D) (S : Cuup D) (req : E1apBearerCtxSetupReq)
    (rsp : E1apBearerCtxSetupRsp) : PfmRetval → E1apBearerCtxSetupRsp → Cuup D → Prop
  | noId (U : UeCtxTable D) (rsp' : E1apBearerCtxSetupRsp)
      (alloc : ueCtxIdAlloc env S.ue = (none, U)) :
      SetupOutcome env S req rsp .failed rsp' { S with ue := U }
  | noRow (id : UInt32) (U U' : UeCtxTable D) (rsp' : E1apBearerCtxSetupRsp)
      (alloc : ueCtxIdAlloc env S.ue = (some id, U))
      (add : ueCtxAdd env U id = (none, U')) :
      SetupOutcome env S req rsp .failed rsp' { S with ue := U' }
  | noneServed (id : UInt32) (U U' : UeCtxTable D) (n : UeIdx)
      (w : CtxWork D E1apBearerCtxSetupRsp) (ret₁ ret₂ : PfmRetval) (S₁ S₂ : Cuup D)
      (rsp' : E1apBearerCtxSetupRsp)
      (alloc : ueCtxIdAlloc env S.ue = (some id, U))
      (add : ueCtxAdd env U id = (some n, U'))
      (serve : forRange (e1apSetupPdus env req) req.pdusCount
        (setupStart S.tun U' n req rsp) = some w)
      (none_served : w.rsp.pdusSetupSuccCount = 0)
      (remove : ueCtxRemove (w.tables U' n) id = some (ret₁, S₁))
      (commit : ueCtxCommit S₁ (some n) = some (ret₂, S₂)) :
      SetupOutcome env S req rsp .failed rsp' S₂
  | committed (id : UInt32) (U U' : UeCtxTable D) (n : UeIdx)
      (w : CtxWork D E1apBearerCtxSetupRsp) (ret : PfmRetval) (S₁ : Cuup D)
      (alloc : ueCtxIdAlloc env S.ue = (some id, U))
      (add : ueCtxAdd env U id = (some n, U'))
      (serve : forRange (e1apSetupPdus env req) req.pdusCount
        (setupStart S.tun U' n req rsp) = some w)
      (some_served : w.rsp.pdusSetupSuccCount ≠ 0)
      (commit : ueCtxCommit (w.tables U' n) (some n) = some (ret, S₁))
      (done : ret ≠ .failed) :
      SetupOutcome env S req rsp ret w.rsp S₁
  | rolledBack (id : UInt32) (U U' : UeCtxTable D) (n : UeIdx)
      (w : CtxWork D E1apBearerCtxSetupRsp) (ret₂ ret₃ : PfmRetval) (S₁ S₂ S₃ : Cuup D)
      (rsp' : E1apBearerCtxSetupRsp)
      (alloc : ueCtxIdAlloc env S.ue = (some id, U))
      (add : ueCtxAdd env U id = (some n, U'))
      (serve : forRange (e1apSetupPdus env req) req.pdusCount
        (setupStart S.tun U' n req rsp) = some w)
      (some_served : w.rsp.pdusSetupSuccCount ≠ 0)
      (commit : ueCtxCommit (w.tables U' n) (some n) = some (.failed, S₁))
      (rollback : ueCtxRollback S₁ n = some (ret₂, S₂))
      (recommit : ueCtxCommit S₂ (some n) = some (ret₃, S₃)) :
      SetupOutcome env S req rsp .failed rsp' S₃

theorem e1apBearerCtxSetup_cases {req : E1apBearerCtxSetupReq}
    {rsp rsp' : E1apBearerCtxSetupRsp}
    (h : e1apBearerCtxSetup env S req rsp = some (ret, rsp', S')) :
    SetupOutcome env S req rsp ret rsp' S' := by
  unfold e1apBearerCtxSetup at h
  cases halloc : ueCtxIdAlloc env S.ue with
  | mk got U =>
      simp only [halloc] at h
      cases got with
      | none =>
          simp only [Option.some.injEq, Prod.mk.injEq] at h
          obtain ⟨rfl, rfl, rfl⟩ := h
          exact .noId U _ halloc
      | some id =>
          cases hadd : ueCtxAdd env U id with
          | mk got' U' =>
              simp only [hadd] at h
              cases got' with
              | none =>
                  simp only [Option.some.injEq, Prod.mk.injEq] at h
                  obtain ⟨rfl, rfl, rfl⟩ := h
                  exact .noRow id U U' _ halloc hadd
              | some n =>
                  obtain ⟨w, hw, h⟩ := Option.bind_eq_some_iff.mp h
                  split at h
                  · rename_i hzero
                    obtain ⟨⟨ret₁, S₁⟩, hremove, h⟩ := Option.bind_eq_some_iff.mp h
                    obtain ⟨⟨ret₂, S₂⟩, hcommit, h⟩ := Option.bind_eq_some_iff.mp h
                    simp only [Option.some.injEq, Prod.mk.injEq] at h
                    obtain ⟨rfl, rfl, rfl⟩ := h
                    exact .noneServed id U U' n w ret₁ ret₂ S₁ S₂ _ halloc hadd hw hzero
                      hremove hcommit
                  · rename_i hserved
                    obtain ⟨⟨ret₁, S₁⟩, hcommit, h⟩ := Option.bind_eq_some_iff.mp h
                    split at h
                    · rename_i hfailed
                      subst hfailed
                      obtain ⟨⟨ret₂, S₂⟩, hroll, h⟩ := Option.bind_eq_some_iff.mp h
                      obtain ⟨⟨ret₃, S₃⟩, hcommit', h⟩ := Option.bind_eq_some_iff.mp h
                      simp only [Option.some.injEq, Prod.mk.injEq] at h
                      obtain ⟨rfl, rfl, rfl⟩ := h
                      exact .rolledBack id U U' n w ret₂ ret₃ S₁ S₂ S₃ _ halloc hadd hw
                        hserved hcommit hroll hcommit'
                    · rename_i hdone
                      simp only [Option.some.injEq, Prod.mk.injEq] at h
                      obtain ⟨rfl, rfl, rfl⟩ := h
                      exact .committed id U U' n w ret₁ S₁ halloc hadd hw hserved hcommit hdone

/-- One PDU session to remove: nothing, or the tunnel of some key is removed. -/
theorem e1apModifyRemovePdus_cases {req : E1apBearerCtxModifyReq} {i : Nat}
    {w w' : ModifyWork D} (h : e1apModifyRemovePdus req i w = some w') :
    w'.ctx = w.ctx ∧ (w'.tun = w.tun ∨ ∃ key, w'.tun = (tunnelRemove w.tun key).2) := by
  unfold e1apModifyRemovePdus at h
  obtain ⟨found, _, h⟩ := Option.bind_eq_some_iff.mp h
  cases found with
  | none =>
      obtain rfl := Option.some.inj h
      exact ⟨rfl, Or.inl rfl⟩
  | some j =>
      obtain ⟨nt, _, h⟩ := Option.bind_eq_some_iff.mp h
      obtain rfl := Option.some.inj h
      exact ⟨rfl, Or.inr ⟨_, rfl⟩⟩

/-- One PDU session to modify: it is not found, or `pdus_modify` is called. -/
theorem e1apModifyModifyPdus_cases {req : E1apBearerCtxModifyReq} {i : Nat}
    {w w' : ModifyWork D} (h : e1apModifyModifyPdus env req i w = some w') :
    (w'.tun = w.tun ∧ w'.ctx = w.ctx) ∨
    ∃ item slot j out, pdusModify env w.tun w.ctx item slot j = some out ∧
      w'.tun = out.tun ∧ w'.ctx = out.ctx := by
  unfold e1apModifyModifyPdus at h
  obtain ⟨found, _, h⟩ := Option.bind_eq_some_iff.mp h
  cases found with
  | none =>
      simp only at h
      split at h
      · obtain rfl := Option.some.inj h
        exact Or.inl ⟨rfl, rfl⟩
      · obtain ⟨item, _, h⟩ := Option.bind_eq_some_iff.mp h
        obtain ⟨list, _, h⟩ := Option.bind_eq_some_iff.mp h
        obtain rfl := Option.some.inj h
        exact Or.inl ⟨rfl, rfl⟩
  | some j =>
      obtain ⟨item, _, h⟩ := Option.bind_eq_some_iff.mp h
      obtain ⟨slot, _, h⟩ := Option.bind_eq_some_iff.mp h
      obtain ⟨out, hout, h⟩ := Option.bind_eq_some_iff.mp h
      obtain ⟨list, _, h⟩ := Option.bind_eq_some_iff.mp h
      refine Or.inr ⟨item, slot, j, out, hout, ?_⟩
      cases hfail : out.fail with
      | some fail =>
          simp only [hfail] at h
          obtain ⟨failList, _, h⟩ := Option.bind_eq_some_iff.mp h
          obtain rfl := Option.some.inj h
          exact ⟨rfl, rfl⟩
      | none =>
          simp only [hfail] at h
          obtain rfl := Option.some.inj h
          exact ⟨rfl, rfl⟩

/-- One PDU session to set up. -/
theorem e1apModifySetupPdus_cases {req : E1apBearerCtxModifyReq} {i : Nat}
    {w w' : CtxWork D E1apBearerCtxModifyRsp}
    (h : e1apModifySetupPdus env req i w = some w') :
    ∃ item slot out, pdusSetup env w.tun w.ctx item slot = some out ∧
      w'.tun = out.tun ∧ w'.ctx = out.ctx := by
  unfold e1apModifySetupPdus at h
  obtain ⟨item, _, h⟩ := Option.bind_eq_some_iff.mp h
  obtain ⟨slot, _, h⟩ := Option.bind_eq_some_iff.mp h
  obtain ⟨out, hout, h⟩ := Option.bind_eq_some_iff.mp h
  obtain ⟨list, _, h⟩ := Option.bind_eq_some_iff.mp h
  refine ⟨item, slot, out, hout, ?_⟩
  cases hfail : out.fail with
  | some fail =>
      simp only [hfail] at h
      obtain ⟨failList, _, h⟩ := Option.bind_eq_some_iff.mp h
      obtain rfl := Option.some.inj h
      exact ⟨rfl, rfl⟩
  | none =>
      simp only [hfail] at h
      obtain rfl := Option.some.inj h
      exact ⟨rfl, rfl⟩

/-- The state the loops of a modify request start in, with UE row `n`. -/
def modifyStart (T : TunnelTable D) (U : UeCtxTable D) (n : UeIdx)
    (req : E1apBearerCtxModifyReq) (rsp : E1apBearerCtxModifyRsp) :
    CtxWork D E1apBearerCtxModifyRsp :=
  ⟨T, U.ueCtxTable n, { rsp with
    cucpUeId := req.cucpUeId
    cuupUeId := req.cuupUeId
    cause := .none
    pdusSetupSuccCount := 0
    pdusSetupFailCount := 0
    pdusModifySuccCount := 0
    pdusModifyFailCount := 0 }⟩

/-- `e1ap_bearer_ctx_modify` by outcome: no row for the change, another CU-CP id,
the change committed, or the commit failed. -/
inductive ModifyOutcome (env : Env D) (S : Cuup D) (req : E1apBearerCtxModifyReq)
    (rsp : E1apBearerCtxModifyRsp) : PfmRetval → E1apBearerCtxModifyRsp → Cuup D → Prop
  | noRow (U : UeCtxTable D) (rsp' : E1apBearerCtxModifyRsp)
      (modify : ueCtxModify S.ue req.cuupUeId = some (none, U)) :
      ModifyOutcome env S req rsp .failed rsp' { S with ue := U }
  | otherCucp (U : UeCtxTable D) (n : UeIdx) (ret₁ : PfmRetval) (S₁ : Cuup D)
      (rsp' : E1apBearerCtxModifyRsp)
      (modify : ueCtxModify S.ue req.cuupUeId = some (some n, U))
      (differ : (U.ueCtxTable n).cucpUeId ≠ req.cucpUeId)
      (rollback : ueCtxRollback { S with ue := U } n = some (ret₁, S₁)) :
      ModifyOutcome env S req rsp .failed rsp' S₁
  | committed (U : UeCtxTable D) (n : UeIdx) (w : CtxWork D E1apBearerCtxModifyRsp)
      (ret : PfmRetval) (S₁ : Cuup D)
      (modify : ueCtxModify S.ue req.cuupUeId = some (some n, U))
      (same : (U.ueCtxTable n).cucpUeId = req.cucpUeId)
      (serve : e1apModifyItems env req (modifyStart S.tun U n req rsp) = some w)
      (commit : ueCtxCommit (w.tables U n) (some n) = some (ret, S₁))
      (done : ret ≠ .failed) :
      ModifyOutcome env S req rsp .success w.rsp S₁
  | rolledBack (U : UeCtxTable D) (n : UeIdx) (w : CtxWork D E1apBearerCtxModifyRsp)
      (ret₂ : PfmRetval) (S₁ S₂ : Cuup D) (rsp' : E1apBearerCtxModifyRsp)
      (modify : ueCtxModify S.ue req.cuupUeId = some (some n, U))
      (same : (U.ueCtxTable n).cucpUeId = req.cucpUeId)
      (serve : e1apModifyItems env req (modifyStart S.tun U n req rsp) = some w)
      (commit : ueCtxCommit (w.tables U n) (some n) = some (.failed, S₁))
      (rollback : ueCtxRollback S₁ n = some (ret₂, S₂)) :
      ModifyOutcome env S req rsp .failed rsp' S₂

theorem e1apBearerCtxModify_cases {req : E1apBearerCtxModifyReq}
    {rsp rsp' : E1apBearerCtxModifyRsp}
    (h : e1apBearerCtxModify env S req rsp = some (ret, rsp', S')) :
    ModifyOutcome env S req rsp ret rsp' S' := by
  unfold e1apBearerCtxModify at h
  obtain ⟨⟨got, U⟩, hmodify, h⟩ := Option.bind_eq_some_iff.mp h
  cases got with
  | none =>
      simp only [Option.some.injEq, Prod.mk.injEq] at h
      obtain ⟨rfl, rfl, rfl⟩ := h
      exact .noRow U _ hmodify
  | some n =>
      simp only at h
      split at h
      · rename_i hdiffer
        obtain ⟨⟨ret₁, S₁⟩, hroll, h⟩ := Option.bind_eq_some_iff.mp h
        simp only [Option.some.injEq, Prod.mk.injEq] at h
        obtain ⟨rfl, rfl, rfl⟩ := h
        exact .otherCucp U n ret₁ S₁ _ hmodify hdiffer hroll
      · rename_i hsame
        obtain ⟨w, hw, h⟩ := Option.bind_eq_some_iff.mp h
        obtain ⟨⟨ret₁, S₁⟩, hcommit, h⟩ := Option.bind_eq_some_iff.mp h
        split at h
        · rename_i hfailed
          subst hfailed
          obtain ⟨⟨ret₂, S₂⟩, hroll, h⟩ := Option.bind_eq_some_iff.mp h
          simp only [Option.some.injEq, Prod.mk.injEq] at h
          obtain ⟨rfl, rfl, rfl⟩ := h
          exact .rolledBack U n w ret₂ S₁ S₂ _ hmodify (not_not.mp hsame) hw hcommit hroll
        · rename_i hdone
          simp only [Option.some.injEq, Prod.mk.injEq] at h
          obtain ⟨rfl, rfl, rfl⟩ := h
          exact .committed U n w ret₁ S₁ hmodify (not_not.mp hsame) hw hcommit hdone

/-- `e1ap_bearer_ctx_release` by outcome: the id is not committed, or its context
is removed and what `ue_ctx_get` then finds is committed. -/
inductive ReleaseOutcome (S : Cuup D) (req : E1apBearerCtxReleaseCmd) :
    PfmRetval → Cuup D → Prop
  | unknown (absent : S.ue.rowOf req.cuupUeId = none) : ReleaseOutcome S req .failed S
  | committed (ret : PfmRetval) (S₁ S₂ : Cuup D)
      (remove : ueCtxRemove S req.cuupUeId = some (.success, S₁))
      (commit : ueCtxCommit S₁ (ueCtxGet S₁.ue req.cuupUeId) = some (ret, S₂)) :
      ReleaseOutcome S req (if ret = .success then .success else .failed) S₂

theorem e1apBearerCtxRelease_cases {req : E1apBearerCtxReleaseCmd}
    (h : e1apBearerCtxRelease S req = some (ret, S')) : ReleaseOutcome S req ret S' := by
  unfold e1apBearerCtxRelease at h
  obtain ⟨⟨ret₁, S₁⟩, hremove, h⟩ := Option.bind_eq_some_iff.mp h
  simp only at h
  split at h
  · rename_i hne
    simp only [Option.some.injEq, Prod.mk.injEq] at h
    obtain ⟨rfl, rfl⟩ := h
    rcases ueCtxRemove_cases hremove with ⟨_, habs, rfl⟩ | ⟨_, _, hret, _⟩
    · exact .unknown habs
    · exact absurd hret hne
  · rename_i hsucc
    obtain rfl : ret₁ = .success := not_not.mp hsucc
    obtain ⟨⟨ret₂, S₂⟩, hcommit, h⟩ := Option.bind_eq_some_iff.mp h
    have hout := ReleaseOutcome.committed ret₂ S₁ S₂ hremove hcommit
    by_cases hret : ret₂ = .success
    · simp only [hret, ne_eq, not_true_eq_false, if_false, Option.some.injEq,
        Prod.mk.injEq] at h
      obtain ⟨rfl, rfl⟩ := h
      rwa [if_pos hret] at hout
    · simp only [hret, ne_eq, not_false_eq_true, if_true, Option.some.injEq,
        Prod.mk.injEq] at h
      obtain ⟨rfl, rfl⟩ := h
      rwa [if_neg hret] at hout

end Pfm
