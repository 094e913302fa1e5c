import Pfm.LookupAgreement
import Pfm.SessionRefusal

/-!
# The PDU sessions of a context after a modify request

* `SessionsModified` : what a modify request is to do to the sessions of a context;
* `SetsUpNothing` : it finds no tunnels in the context and sets none up;
* `sessions_modified_of_setsUpNothing` : then it does what it is to do;
* `added_session_not_listed` : a session it reports as set up is not in the list,
  because the list of the DRBs was packed over it.
-/

namespace Pfm

open BoundedLoop StepSystem TunnelTable

variable {D : Dpdk} {env : Env D} {S S' : Cuup D} {T : TunnelTable D} {ctx : UeCtx}
  {n : UeIdx}

/-- Some entry of the PDU-session list has the id. -/
def UeCtx.HasSession (T : TunnelTable D) (ctx : UeCtx) (id : UInt8) : Prop :=
  ∃ i r, i < ctx.pdusCount ∧ ctx.pdusTunnelList.deref? i = some r ∧
    (T.tunnelTable r).info.pdusId = id

/-- Every entry of the PDU-session list is a committed PDU-session tunnel. -/
def UeCtx.SessionsCommitted (T : TunnelTable D) (ctx : UeCtx) : Prop :=
  ∀ i, i < ctx.pdusCount → ∃ r, ctx.pdusTunnelList.deref? i = some r ∧
    (T.tunnelTable r).tunnelType = .pdus ∧ T.rowOf (T.keyAt r) = some r

/-- The ids the response reports as set up. -/
def E1apBearerCtxModifyRsp.setupIds (rsp : E1apBearerCtxModifyRsp) : List UInt8 :=
  (rsp.pdusSetupSuccList.firstN rsp.pdusSetupSuccCount).map PdusSetupSuccRspInfo.pdusId

/-- The ids the request asks to remove. -/
def E1apBearerCtxModifyReq.removeIds (req : E1apBearerCtxModifyReq) : List UInt8 :=
  (req.pdusRemoveList.firstN req.pdusRemoveCount).map PdusRemoveReqInfo.pdusId

/-- From the context in row `n` to the one committed afterwards: the sessions that
were there without those removed, and those set up. -/
def SessionsModified (S : Cuup D) (n : UeIdx) (req : E1apBearerCtxModifyReq)
    (rsp : E1apBearerCtxModifyRsp) (S' : Cuup D) : Prop :=
  ∃ n', S'.ue.rowOf req.cuupUeId = some n' ∧
    (S'.ue.ueCtxTable n').SessionsCommitted S'.tun ∧
    ∀ id, (S'.ue.ueCtxTable n').HasSession S'.tun id ↔
      ((S.ue.ueCtxTable n).HasSession S.tun id ∧ id ∉ req.removeIds) ∨ id ∈ rsp.setupIds

/-- A modify request for a committed id that succeeds has modified the sessions. -/
def ModifiesSessions (S : Cuup D) : E1apCall D → Prop
  | .modify env req rsp => ∀ n rsp' S', S.ue.rowOf req.cuupUeId = some n →
      e1apBearerCtxModify env S req rsp = some (.success, rsp', S') →
      SessionsModified S n req rsp' S'
  | _ => True

/-- The request is not served (no row is free, or the row taken has another CU-CP
id), or the context lists no tunnel and all sessions to set up are refused. -/
def SetsUpNothing (S : Cuup D) : E1apCall D → Prop
  | .modify env req _ =>
      (∀ n U, ueCtxModify S.ue req.cuupUeId = some (some n, U) →
        (U.ueCtxTable n).cucpUeId ≠ req.cucpUeId) ∨
      (∀ n, S.ue.rowOf req.cuupUeId = some n → (S.ue.ueCtxTable n).Bare) ∧
        (sessionsRefused env req.pdusSetupList req.pdusSetupCount S.tun).isSome = true
  | _ => True

theorem UeCtx.Bare.hasSession_iff (h : ctx.Bare) (id : UInt8) :
    ctx.HasSession T id ↔ False := by
  simp only [HasSession, iff_false, not_exists, not_and]
  intro i r hi
  rw [h.pdus] at hi
  omega

theorem UeCtx.Bare.sessionsCommitted (h : ctx.Bare) : ctx.SessionsCommitted T := by
  intro i hi
  rw [h.pdus] at hi
  omega

/-- The row `ue_ctx_modify` takes for a context without tunnels is a copy without
tunnels. -/
theorem ueCtxModify_of_bare {U U' : UeCtxTable D} {id : UInt32} {n n' : UeIdx}
    (hn : U.rowOf id = some n) (hbare : (U.ueCtxTable n).Bare)
    (hmodify : ueCtxModify U id = some (some n', U')) :
    (U'.ueCtxTable n').Bare ∧ (U'.ueCtxTable n').cuupUeId = id ∧
      (U'.ueCtxTable n').isRowUsed = true ∧ U'.rowOf id = some n := by
  obtain ⟨hgot, _⟩ | ⟨n₁, old, pdusList, drbList, hgot, hold, _, _, _, hU⟩ :=
    ueCtxModify_cases hmodify
  · cases hgot
  obtain rfl := Option.some.inj hgot
  obtain rfl : n = old := Option.some.inj (hn.symm.trans hold)
  have hold : ((U.takeRow n' id).ueCtxTable n).Bare := by
    by_cases hsame : n = n'
    · subst hsame
      rw [UeCtxTable.takeRow_self]
      exact ⟨hbare.pdus, hbare.drb⟩
    · rw [UeCtxTable.takeRow_of_ne hsame]
      exact hbare
  have hcopy : (U'.ueCtxTable n').cuupUeId = ((U.takeRow n' id).ueCtxTable n').cuupUeId ∧
      (U'.ueCtxTable n').isRowUsed = ((U.takeRow n' id).ueCtxTable n').isRowUsed := by
    rw [hU, UeCtxTable.setRow_self]
    exact ⟨rfl, rfl⟩
  rw [UeCtxTable.takeRow_self] at hcopy
  refine ⟨?_, hcopy.1, hcopy.2, ?_⟩
  · rw [hU, UeCtxTable.setRow_self]
    constructor
    · simp only [UeCtx.copied, hold.pdus, ite_self]
    · simp only [UeCtx.copied, hold.drb, ite_self]
  · rw [hU]
    exact hn

/-- Committing a used row without tunnels for an id that is mapped maps the id to
that row. -/
theorem ueCtxCommit_of_bare_mapped {S S' : Cuup D} {ret : PfmRetval} {n n' : UeIdx}
    (hbare : (S.ue.ueCtxTable n').Bare) (hused : (S.ue.ueCtxTable n').isRowUsed = true)
    (hmapped : S.ue.rowOf (S.ue.ueCtxTable n').cuupUeId = some n)
    (hcommit : ueCtxCommit S n' = some (ret, S')) :
    S'.ue.rowOf (S.ue.ueCtxTable n').cuupUeId = some n' ∧ (S'.ue.ueCtxTable n').Bare := by
  rw [ueCtxCommit_of_bare (UeCtxTable.up_of_rowOf hmapped) hbare] at hcommit
  obtain ⟨_, hrowOf, hkept⟩ := ueCtxCommitEntry_of_mapped hmapped hused
  simp only [Option.some.injEq, Prod.mk.injEq] at hcommit
  obtain ⟨_, rfl⟩ := hcommit
  refine ⟨hrowOf, ?_⟩
  rw [hkept]
  exact hbare

/-- **One modify request.** -/
theorem modifiesSessions_of_setsUpNothing (S : Cuup D) (call : E1apCall D)
    (h : SetsUpNothing S call) : ModifiesSessions S call := by
  cases call with
  | setup | release => trivial
  | modify env req rsp =>
      intro n rsp' S' hn hmodify
      have hcases := e1apBearerCtxModify_cases hmodify
      generalize hret : PfmRetval.success = ret at hcases
      cases hcases with
      | noRow | otherCucp | rolledBack => cases hret
      | committed U n' w ret' _ modify same serve commit done =>
          rcases h with hno | ⟨hbare, href⟩
          · exact absurd same (hno n' U modify)
          · obtain ⟨T', href⟩ := Option.isSome_iff_exists.mp href
            obtain ⟨hnew, hid, hused, hrowU⟩ := ueCtxModify_of_bare hn (hbare n hn) modify
            obtain ⟨_, hctx, hsucc⟩ := e1apModifyItems_of_refused
              (w := modifyStart S.tun U n' req rsp) hnew rfl rfl href serve
            have hrow : (w.tables U n').ue.ueCtxTable n' = U.ueCtxTable n' :=
              (UeCtxTable.setRow_self _).trans hctx
            have hmapped : (w.tables U n').ue.rowOf
                ((w.tables U n').ue.ueCtxTable n').cuupUeId = some n := by
              rw [hrow, hid]
              exact hrowU
            obtain ⟨hrowOf, hafter⟩ := ueCtxCommit_of_bare_mapped (by rw [hrow]; exact hnew)
              (by rw [hrow]; exact hused) hmapped commit
            refine ⟨n', ?_, hafter.sessionsCommitted, fun id => ?_⟩
            · rw [hrow, hid] at hrowOf
              exact hrowOf
            · rw [hafter.hasSession_iff, (hbare n hn).hasSession_iff]
              simp [E1apBearerCtxModifyRsp.setupIds, hsucc]

/-- **Every run.**  When no modify request of a run sets anything up, each of them
modifies the sessions as asked. -/
theorem sessions_modified_of_setsUpNothing (D : Dpdk) (calls : List (E1apCall D))
    (h : Along e1apStep SetsUpNothing (Cuup.init D) calls) :
    Along e1apStep ModifiesSessions (Cuup.init D) calls :=
  h.imp modifiesSessions_of_setsUpNothing

/-! ### A session added to a UE that has one -/

def modifyRsp : E1apBearerCtxModifyRsp where
  cucpUeId := 0
  cuupUeId := 0
  cause := .none
  pdusSetupSuccCount := 0
  pdusSetupFailCount := 0
  pdusModifySuccCount := 0
  pdusModifyFailCount := 0
  pdusSetupSuccList := setupRsp.pdusSuccList
  pdusSetupFailList := setupRsp.pdusFailList
  pdusModifySuccList _ := ⟨0, 0, 0, 0, 0, 0, 0, fun _ => ⟨0, 0, 0⟩, fun _ => ⟨0, .none⟩,
    fun _ => ⟨0, 0, 0⟩, fun _ => ⟨0, .none⟩⟩
  pdusModifyFailList _ := ⟨0, .none⟩

/-- The request of `oneSetup` under CU-CP id 0, the one a row starts with. -/
def zeroSetup : E1apCall listDpdk := .setup upfEnv { oneSetupReq with cucpUeId := 0 } setupRsp

/-- Session 7 with DRB 2, to be set up for UE 1. -/
def addSessionReq : E1apBearerCtxModifyReq where
  cucpUeId := 0
  cuupUeId := 1
  pdusSetupCount := 1
  pdusModifyCount := 0
  pdusRemoveCount := 0
  pdusSetupList _ := ⟨7, 1, upfIp, 81, fun _ => ⟨2, upfIp, 71⟩⟩
  pdusModifyList _ := ⟨0, 0, 0, 0, fun _ => oneDrb, fun _ => ⟨0⟩, fun _ => ⟨0⟩⟩
  pdusRemoveList _ := ⟨0⟩

/-- Sessions to remove and to modify that the UE does not have, and two to set up: session 7 at
a peer without a route, and session 0 without a DRB. -/
def refusedItemsReq : E1apBearerCtxModifyReq where
  cucpUeId := 0
  cuupUeId := 1
  pdusSetupCount := 2
  pdusModifyCount := 1
  pdusRemoveCount := 1
  pdusSetupList i := if i.val = 0 then ⟨7, 1, 1, 81, fun _ => ⟨2, upfIp, 71⟩⟩
    else ⟨0, 0, upfIp, 82, fun _ => oneDrb⟩
  pdusModifyList _ := ⟨8, 0, 0, 0, fun _ => oneDrb, fun _ => ⟨0⟩, fun _ => ⟨0⟩⟩
  pdusRemoveList _ := ⟨9⟩

/-- UE 1 is set up without sessions. -/
def setupWithoutSessions : List (E1apCall listDpdk) :=
  [zeroSetup, .setup upfEnv ⟨0, 0, fun _ => onePdus⟩ setupRsp]

/-- The request is served, and none of its items changes the sessions of the UE. -/
theorem sessions_modified_refusedItems :
    Along e1apStep ModifiesSessions (Cuup.init listDpdk)
        (setupWithoutSessions ++ [.modify upfEnv refusedItemsReq modifyRsp]) ∧
      ∃ S n rsp' S', exec e1apStep (Cuup.init listDpdk) setupWithoutSessions = some S ∧
        S.ue.rowOf 1 = some n ∧
        e1apBearerCtxModify upfEnv S refusedItemsReq modifyRsp = some (.success, rsp', S') ∧
        rsp'.pdusModifyFailCount = 1 ∧ rsp'.pdusSetupFailCount = 2 := by
  have hdec : ((exec e1apStep (Cuup.init listDpdk) setupWithoutSessions).bind fun S =>
      (S.ue.rowOf 1).bind fun n =>
        (e1apBearerCtxModify upfEnv S refusedItemsReq modifyRsp).map fun out =>
          decide ((S.ue.ueCtxTable n).pdusCount = 0 ∧ (S.ue.ueCtxTable n).drbCount = 0 ∧
            (sessionsRefused upfEnv refusedItemsReq.pdusSetupList 2 S.tun).isSome = true ∧
            out.1 = .success ∧ out.2.1.pdusModifyFailCount = 1 ∧
            out.2.1.pdusSetupFailCount = 2)) = some true := by
    decide
  obtain ⟨S, hS, hdec⟩ := Option.bind_eq_some_iff.mp hdec
  obtain ⟨n, hn, hdec⟩ := Option.bind_eq_some_iff.mp hdec
  obtain ⟨⟨ret, rsp', S'⟩, hmodify, hfacts⟩ := Option.map_eq_some_iff.mp hdec
  obtain ⟨hpdus, hdrb, hrefused, rfl, hfails, hfails'⟩ := of_decide_eq_true hfacts
  refine ⟨sessions_modified_of_setsUpNothing listDpdk _ ?_,
    ⟨S, n, rsp', S', hS, hn, hmodify, hfails, hfails'⟩⟩
  rw [along_concat]
  refine ⟨⟨trivial, fun _ _ => ⟨trivial, fun _ _ => trivial⟩⟩, fun S₁ hS₁ => Or.inr ⟨?_, ?_⟩⟩
  · obtain rfl := Option.some.inj (hS.symm.trans hS₁)
    intro m hm
    obtain rfl := Option.some.inj (hn.symm.trans hm)
    exact ⟨hpdus, hdrb⟩
  · obtain rfl := Option.some.inj (hS.symm.trans hS₁)
    exact hrefused

/-- Session 7 is reported as set up and is not in the list afterwards. -/
theorem added_session_not_listed :
    ¬ ∀ calls S, exec e1apStep (Cuup.init listDpdk) calls = some S →
      ∀ call, ModifiesSessions S call := by
  intro h
  have hdec : ((exec e1apStep (Cuup.init listDpdk) [zeroSetup, zeroSetup]).bind fun S =>
      (S.ue.rowOf 1).bind fun _ =>
        (e1apBearerCtxModify upfEnv S addSessionReq modifyRsp).bind fun out =>
          (out.2.2.ue.rowOf 1).map fun n =>
            decide (out.1 = .success ∧ 7 ∈ out.2.1.setupIds ∧
              (out.2.2.ue.ueCtxTable n).pdusCount = 2 ∧
              ((out.2.2.ue.ueCtxTable n).pdusTunnelList.deref? 0).map
                (fun r => (out.2.2.tun.tunnelTable r).info.pdusId) = some 1 ∧
              ((out.2.2.ue.ueCtxTable n).pdusTunnelList.deref? 1).map
                (fun r => (out.2.2.tun.tunnelTable r).info.pdusId) = some 2)) = some true := by
    decide
  obtain ⟨S, hS, hdec⟩ := Option.bind_eq_some_iff.mp hdec
  obtain ⟨n, hn, hdec⟩ := Option.bind_eq_some_iff.mp hdec
  obtain ⟨⟨ret, rsp', S'⟩, hmodify, hdec⟩ := Option.bind_eq_some_iff.mp hdec
  obtain ⟨n', hn', hfacts⟩ := Option.map_eq_some_iff.mp hdec
  obtain ⟨rfl, hreported, hcount, hfirst, hsecond⟩ := of_decide_eq_true hfacts
  obtain ⟨n₁, hn₁, _, hsessions⟩ :=
    h _ S hS (.modify upfEnv addSessionReq modifyRsp) n rsp' S' hn hmodify
  obtain rfl : n' = n₁ := Option.some.inj (hn'.symm.trans hn₁)
  obtain ⟨i, r, hi, hr, hid⟩ := (hsessions 7).mpr (Or.inr hreported)
  have hlt : i < 2 := hcount ▸ hi
  have hcases : i = 0 ∨ i = 1 := by omega
  rcases hcases with rfl | rfl
  · rw [hr, Option.map_some, hid] at hfirst
    cases hfirst
  · rw [hr, Option.map_some, hid] at hsecond
    cases hsecond

end Pfm
