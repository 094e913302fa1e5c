import Pfm.BearerContextSpec

/-!
# What every request keeps of the UE table

Serving the items of a request writes the two lists of a context and never the id
stored in it.  So every id ever stored in a row or committed is one that the search
for ids can give, and there are `maxUeCount` of these.

* `UeTableValid` : the invariant;
* `UeTableValid.step` : every request keeps it;
* `CuupReachable.ueTableValid` : it holds in every reachable state.
-/

namespace Pfm

open BoundedLoop StepSystem UeCtxTable

variable {D : Dpdk} {env : Env D} {S S' : Cuup D} {U U' : UeCtxTable D} {T : TunnelTable D}
  {ctx : UeCtx} {id : UInt32} {n : UeIdx} {ret : PfmRetval}

/-! ### The context being served -/

/-- The counts of a context are within its lists. -/
def UeCtx.CountsFit (ctx : UeCtx) : Prop :=
  ctx.pdusCount ≤ maxPdusPerUe ∧ ctx.drbCount ≤ maxDrbPerUe

/-- Serving items keeps the two ids of a context, and its counts within its lists. -/
structure UeCtx.HeadKept (ctx ctx' : UeCtx) : Prop where
  cuupUeId : ctx'.cuupUeId = ctx.cuupUeId
  cucpUeId : ctx'.cucpUeId = ctx.cucpUeId
  fit : ctx.CountsFit → ctx'.CountsFit

theorem UeCtx.HeadKept.refl (ctx : UeCtx) : ctx.HeadKept ctx := ⟨rfl, rfl, fun h => h⟩

theorem UeCtx.HeadKept.trans {c₁ c₂ c₃ : UeCtx} (h : c₁.HeadKept c₂) (h' : c₂.HeadKept c₃) :
    c₁.HeadKept c₃ :=
  ⟨h'.cuupUeId.trans h.cuupUeId, h'.cucpUeId.trans h.cucpUeId, fun hfit => h'.fit (h.fit hfit)⟩

theorem drbSetup_head {req : DrbSetupReqInfo} {out : DrbServed D}
    (h : drbSetup env T ctx req = some out) : ctx.HeadKept out.ctx := by
  rcases drbSetup_cases h with ⟨hctx, _⟩ | ⟨_, _, _, _, _, hset, rfl⟩
  · rw [hctx]
    exact .refl ctx
  · exact ⟨rfl, rfl, fun hfit => ⟨hfit.1, CArray.lt_of_set? hset⟩⟩

theorem drbModify_head {req : DrbModifyReqInfo} {idx : Nat} {out : DrbServed D}
    (h : drbModify T ctx req idx = some out) : ctx.HeadKept out.ctx := by
  obtain ⟨_, _, hcases⟩ := drbModify_cases h
  rcases hcases with ⟨_, _, _, hctx⟩ | ⟨_, _, _, _, _, _, hctx⟩
  · rw [hctx]
    exact .refl ctx
  · rw [hctx]
    exact ⟨rfl, rfl, fun hfit => hfit⟩

theorem pdusSetupDrbs_head {req : PdusSetupReqInfo} {n : Nat}
    {w w' : PdusWork D PdusSetupSuccRspInfo}
    (h : forRange (pdusSetupDrb env req) n w = some w') : w.ctx.HeadKept w'.ctx := by
  refine forRange_invariant (fun _ (v : PdusWork D PdusSetupSuccRspInfo) =>
    w.ctx.HeadKept v.ctx) (.refl _) ?_ h
  intro i v v' _ hv hturn
  obtain ⟨_, _, _, hout, _, hctx, _⟩ := pdusSetupDrb_cases hturn
  rw [hctx]
  exact hv.trans (drbSetup_head hout)

theorem pdusSetup_head {req : PdusSetupReqInfo} {succ : PdusSetupSuccRspInfo}
    {out : PdusServed D PdusSetupSuccRspInfo}
    (h : pdusSetup env T ctx req succ = some out) : ctx.HeadKept out.ctx := by
  cases pdusSetup_cases h with
  | refused | noTunnel => exact .refl ctx
  | noDrb key r T' w cause opened drbs =>
      have hdrbs := pdusSetupDrbs_head drbs
      exact ⟨hdrbs.cuupUeId, hdrbs.cucpUeId, hdrbs.fit⟩
  | served key r T' w list opened drbs some_served listed =>
      have hdrbs := pdusSetupDrbs_head drbs
      exact ⟨hdrbs.cuupUeId, hdrbs.cucpUeId,
        fun hfit => ⟨CArray.lt_of_set? listed, (hdrbs.fit hfit).2⟩⟩

theorem pdusModifyModifyDrb_head {req : PdusModifyReqInfo} {i : Nat}
    {w w' : PdusWork D PdusModifySuccRspInfo} (h : pdusModifyModifyDrb req i w = some w') :
    w.ctx.HeadKept w'.ctx := by
  rcases pdusModifyModifyDrb_cases h with ⟨_, hctx⟩ | ⟨_, _, _, hout, _, hctx⟩
  · rw [hctx]
    exact .refl _
  · rw [hctx]
    exact drbModify_head hout

theorem pdusModifySetupDrb_head {req : PdusModifyReqInfo} {i : Nat}
    {w w' : PdusWork D PdusModifySuccRspInfo}
    (h : pdusModifySetupDrb env req i w = some w') : w.ctx.HeadKept w'.ctx := by
  obtain ⟨_, _, hout, _, hctx⟩ := pdusModifySetupDrb_cases h
  rw [hctx]
  exact drbSetup_head hout

theorem pdusModify_head {req : PdusModifyReqInfo} {succ : PdusModifySuccRspInfo}
    {idx : Nat} {out : PdusServed D PdusModifySuccRspInfo}
    (h : pdusModify env T ctx req succ idx = some out) : ctx.HeadKept out.ctx := by
  obtain ⟨_, _, hcases⟩ := pdusModify_cases h
  cases hcases with
  | noTunnel => exact .refl ctx
  | served r T₁ T₂ w w' list _ _ hmodifies hsetups =>
      have hw : ctx.HeadKept w.ctx :=
        forRange_invariant (fun _ (v : PdusWork D PdusModifySuccRspInfo) =>
          ctx.HeadKept v.ctx) (.refl ctx)
          (fun _ _ _ _ hv hturn => hv.trans (pdusModifyModifyDrb_head hturn)) hmodifies
      have hw' : ctx.HeadKept w'.ctx :=
        forRange_invariant (fun _ (v : PdusWork D PdusModifySuccRspInfo) =>
          ctx.HeadKept v.ctx) hw
          (fun _ _ _ _ hv hturn => hv.trans (pdusModifySetupDrb_head hturn)) hsetups
      exact ⟨hw'.cuupUeId, hw'.cucpUeId, hw'.fit⟩

/-- The service loop of a setup request. -/
theorem e1apSetupPdus_head {req : E1apBearerCtxSetupReq} {k : Nat}
    {w w' : CtxWork D E1apBearerCtxSetupRsp}
    (h : forRange (e1apSetupPdus env req) k w = some w') : w.ctx.HeadKept w'.ctx := by
  refine forRange_invariant (fun _ (v : CtxWork D E1apBearerCtxSetupRsp) =>
    w.ctx.HeadKept v.ctx) (.refl _) ?_ h
  intro i v v' _ hv hturn
  obtain ⟨_, _, _, _, _, hout, _, _, hctx, _⟩ := e1apSetupPdus_cases hturn
  rw [hctx]
  exact hv.trans (pdusSetup_head hout)

theorem e1apModifyRemovePdus_head {req : E1apBearerCtxModifyReq} {i : Nat}
    {w w' : ModifyWork D} (h : e1apModifyRemovePdus req i w = some w') :
    w.ctx.HeadKept w'.ctx := by
  rw [(e1apModifyRemovePdus_cases h).1]
  exact .refl _

theorem e1apModifyModifyPdus_head {req : E1apBearerCtxModifyReq} {i : Nat}
    {w w' : ModifyWork D} (h : e1apModifyModifyPdus env req i w = some w') :
    w.ctx.HeadKept w'.ctx := by
  rcases e1apModifyModifyPdus_cases h with ⟨_, hctx⟩ | ⟨_, _, _, _, hout, _, hctx⟩
  · rw [hctx]
    exact .refl _
  · rw [hctx]
    exact pdusModify_head hout

theorem e1apModifySetupPdus_head {req : E1apBearerCtxModifyReq} {i : Nat}
    {w w' : CtxWork D E1apBearerCtxModifyRsp}
    (h : e1apModifySetupPdus env req i w = some w') : w.ctx.HeadKept w'.ctx := by
  obtain ⟨_, _, _, hout, _, hctx⟩ := e1apModifySetupPdus_cases h
  rw [hctx]
  exact pdusSetup_head hout

/-- The three loops of a modify request. -/
theorem e1apModifyItems_head {req : E1apBearerCtxModifyReq}
    {w w' : CtxWork D E1apBearerCtxModifyRsp}
    (h : e1apModifyItems env req w = some w') : w.ctx.HeadKept w'.ctx := by
  unfold e1apModifyItems at h
  obtain ⟨w₁, hremove, h⟩ := Option.bind_eq_some_iff.mp h
  obtain ⟨w₂, hmodify, h⟩ := Option.bind_eq_some_iff.mp h
  have h₁ : w.ctx.HeadKept w₁.ctx :=
    forRange_invariant (fun _ (v : ModifyWork D) => w.ctx.HeadKept v.ctx) (.refl _)
      (fun _ _ _ _ hv hturn => hv.trans (e1apModifyRemovePdus_head hturn)) hremove
  have h₂ : w.ctx.HeadKept w₂.ctx :=
    forRange_invariant (fun _ (v : ModifyWork D) => w.ctx.HeadKept v.ctx) h₁
      (fun _ _ _ _ hv hturn => hv.trans (e1apModifyModifyPdus_head hturn)) hmodify
  exact forRange_invariant (fun _ (v : CtxWork D E1apBearerCtxModifyRsp) =>
    w.ctx.HeadKept v.ctx) h₂
    (fun _ _ _ _ hv hturn => hv.trans (e1apModifySetupPdus_head hturn)) h

/-! ### The invariant -/

/-- An id the search can give. -/
def IsUeId (id : UInt32) : Prop := ∃ i, id = ueId i

/-- Every id stored or committed can be given by the search, and a table that is
not up has no used row. -/
structure UeTableValid (U : UeCtxTable D) : Prop where
  rows : ∀ n, IsUeId (U.ueCtxTable n).cuupUeId
  keys : ∀ id, (U.rowOf id).isSome = true → IsUeId id
  down : U.ueCtxHashtable = none → ∀ n, U.used n = false

theorem UeTableValid.init (D : Dpdk) : UeTableValid (UeCtxTable.init D) where
  rows _ := ⟨⟨0, by decide⟩, rfl⟩
  keys id h := by
    have : (UeCtxTable.init D).rowOf id = none := rowOf_of_down rfl
    simp [this] at h
  down _ _ := rfl

theorem UeTableValid.cleared (h : UeTableValid U) : UeTableValid U.cleared where
  rows n := h.rows n
  keys id hid := by simp at hid
  down _ _ := rfl

theorem UeTableValid.setRow (h : UeTableValid U) (hup : U.ueCtxHashtable.isSome = true)
    (hid : IsUeId ctx.cuupUeId) : UeTableValid (U.setRow n ctx) where
  rows n' := by
    by_cases hn : n' = n
    · subst hn
      rw [setRow_self]
      exact hid
    · rw [setRow_of_ne ctx hn]
      exact h.rows n'
  keys := h.keys
  down hdown := by
    rw [setRow_hash] at hdown
    simp [hdown] at hup

theorem UeTableValid.setUsed (h : UeTableValid U) (hup : U.ueCtxHashtable.isSome = true)
    (b : Bool) : UeTableValid (U.setUsed n b) :=
  h.setRow hup (h.rows n)

theorem UeTableValid.takeRow (h : UeTableValid U) (hup : U.ueCtxHashtable.isSome = true)
    (hid : IsUeId id) : UeTableValid (U.takeRow n id) where
  rows := (h.setRow hup hid).rows
  keys := h.keys
  down := (h.setRow hup hid).down

/-- A hash that maps only ids of the right form, behind the same rows. -/
theorem UeTableValid.setHash (h : UeTableValid U) {t : D.ueHash.Table}
    (hkeys : ∀ id, (D.ueHash.entry (some t) id).isSome = true → IsUeId id) :
    UeTableValid { U with ueCtxHashtable := some t } where
  rows := h.rows
  keys id hid := by
    refine hkeys id ?_
    rw [rowOf, Option.isSome_map] at hid
    exact hid
  down hdown := by cases hdown

/-- The ids of a hash after one was written. -/
theorem UeTableValid.update (h : UeTableValid U) {t : D.ueHash.Table} {e : Option _}
    (hash : D.ueHash.entry (some t) = Function.update U.entry id e) (hid : IsUeId id) :
    UeTableValid { U with ueCtxHashtable := some t } := by
  refine h.setHash fun id' hid' => ?_
  rw [hash] at hid'
  by_cases heq : id' = id
  · rw [heq]
    exact hid
  · rw [Function.update_of_ne heq] at hid'
    refine h.keys id' ?_
    rw [rowOf, Option.isSome_map]
    exact hid'

/-! ### One function -/

/-- After `ue_ctx_id_alloc`; an id is given only when the table was up. -/
theorem UeTableValid.idAlloc (h : UeTableValid U) {got : Option UInt32}
    (ha : ueCtxIdAlloc env U = (got, U')) :
    UeTableValid U' ∧ ∀ id, got = some id →
      U'.ueCtxHashtable.isSome = true ∧ IsUeId id ∧ U'.rowOf id = none := by
  rcases ueCtxIdAlloc_cases env U with ⟨_, he | he⟩ | ⟨hup, he⟩
  · rw [he] at ha
    cases ha
    exact ⟨h, fun id hid => by cases hid⟩
  · rw [he] at ha
    cases ha
    exact ⟨h.cleared, fun id hid => by cases hid⟩
  · rw [he] at ha
    rcases ueCtxIdSearch_cases hup with ⟨_, hs⟩ | ⟨i, hfree, _, hs⟩
    · rw [hs] at ha
      cases ha
      exact ⟨h, fun id hid => by cases hid⟩
    · rw [hs] at ha
      cases ha
      refine ⟨⟨h.rows, h.keys, h.down⟩, fun id hid => ?_⟩
      cases hid
      exact ⟨hup, ⟨i, rfl⟩, hfree⟩

/-- After `ue_ctx_add` of an id that was given; a row is handed out under it. -/
theorem UeTableValid.add (h : UeTableValid U) {got : Option UeIdx}
    (hup : U.ueCtxHashtable.isSome = true) (hid : IsUeId id) (habs : U.rowOf id = none)
    (ha : ueCtxAdd env U id = (got, U')) :
    UeTableValid U' ∧ U'.ueCtxHashtable.isSome = true ∧
      ∀ n, got = some n → U.used n = false ∧ U' = U.takeRow n id := by
  rw [ueCtxAdd_of_absent hup habs] at ha
  rcases ueCtxAlloc_cases U id with ⟨_, he⟩ | ⟨n, hun, _, he⟩
  · rw [he] at ha
    cases ha
    exact ⟨h, hup, fun n hn => by cases hn⟩
  · rw [he] at ha
    cases ha
    refine ⟨h.takeRow hup hid, hup, fun n' hn => ?_⟩
    cases hn
    exact ⟨hun, rfl⟩

theorem UeTableValid.remove (h : UeTableValid S.ue) (hr : ueCtxRemove S id = some (ret, S')) :
    UeTableValid S'.ue := by
  rcases ueCtxRemove_cases hr with ⟨_, _, rfl⟩ | ⟨n, _, _, hmapped, _, _, hue⟩
  · exact h
  · rw [hue]
    exact h.setUsed (up_of_rowOf hmapped) false

theorem UeTableValid.modify (h : UeTableValid U) {got : Option UeIdx}
    (hm : ueCtxModify U id = some (got, U')) :
    UeTableValid U' ∧ ∀ n, got = some n → U'.ueCtxHashtable.isSome = true := by
  rcases ueCtxModify_cases hm with ⟨rfl, rfl⟩ | ⟨n, old, _, _, rfl, hmapped, _, _, _, rfl⟩
  · exact ⟨h, fun n hn => by cases hn⟩
  · have hup := up_of_rowOf hmapped
    have hid := h.keys id (by rw [hmapped]; rfl)
    have htaken := h.takeRow (n := n) hup hid
    exact ⟨htaken.setRow hup (htaken.rows n), fun _ _ => hup⟩

theorem UeTableValid.commitEntry (h : UeTableValid U) (n : UeIdx) :
    UeTableValid (ueCtxCommitEntry U n).2 := by
  have hid := h.rows n
  have hcases := ueCtxCommitEntry_cases U n
  generalize ueCtxCommitEntry U n = res at hcases ⊢
  obtain ⟨ret, U'⟩ := res
  simp only at hcases ⊢
  cases hcases with
  | down | kept => exact h
  | inserted t p absent hash => exact h.update hash hid
  | refused t absent hash full =>
      refine h.setHash fun id hid' => h.keys id ?_
      rw [hash] at hid'
      rw [rowOf, Option.isSome_map]
      exact hid'
  | deleted t p mapped unused hash => exact h.update hash hid
  | replaced t p old mapped ne hash =>
      have hup : U.ueCtxHashtable.isSome = true :=
        up_of_rowOf (rowOf_eq_some_iff.mpr ⟨p, mapped⟩)
      exact (h.setUsed (n := old) hup false).update hash hid

theorem UeTableValid.commit (h : UeTableValid S.ue) {newCtx : Option UeIdx}
    (hc : ueCtxCommit S newCtx = some (ret, S')) : UeTableValid S'.ue := by
  rcases ueCtxCommit_split hc with ⟨_, rfl⟩ | ⟨n, rfl, hup⟩
  · exact h
  · obtain ⟨hc⟩ := ueCtxCommit_cases hup hc
    have hpacked : UeTableValid (S.ue.setRow n ((S.ue.ueCtxTable n).packed hc.drbList
        hc.drbCount hc.pdusList)) := h.setRow hup (h.rows n)
    have hdone := hpacked.commitEntry n
    rw [hc.entry] at hdone
    exact hdone

/-- `ue_ctx_rollback` by outcome: it fails and changes nothing, or tunnels are
rolled back and at most one row changes its flag. -/
theorem ueCtxRollback_cases (h : ueCtxRollback S n = some (ret, S')) :
    S' = S ∨ S.ue.ueCtxHashtable.isSome = true ∧ ∃ m k b,
      (S.ue.ueCtxTable m).rollback S.tun = some S'.tun ∧ S'.ue = S.ue.setUsed k b := by
  unfold ueCtxRollback at h
  cases hh : S.ue.ueCtxHashtable with
  | none =>
      simp only [hh, Option.isNone_none, if_true, Option.some.injEq, Prod.mk.injEq] at h
      exact Or.inl h.2.symm
  | some t =>
      simp only [hh, Option.isNone_some, Bool.false_eq_true, if_false] at h
      have done : ∀ {m k : UeIdx} {b : Bool},
          ((S.ue.ueCtxTable m).rollback S.tun).bind (fun T =>
            some (PfmRetval.success, (⟨T, S.ue.setUsed k b⟩ : Cuup D))) = some (ret, S') →
          S' = S ∨ (some t).isSome = true ∧ ∃ m k b,
            (S.ue.ueCtxTable m).rollback S.tun = some S'.tun ∧ S'.ue = S.ue.setUsed k b := by
        intro m k b h
        obtain ⟨T, hT, h⟩ := Option.bind_eq_some_iff.mp h
        simp only [Option.some.injEq, Prod.mk.injEq] at h
        obtain ⟨rfl, rfl⟩ := h
        exact Or.inr ⟨rfl, m, k, b, hT, rfl⟩
      have same : ∀ {r : PfmRetval}, some (r, S) = some (ret, S') →
          S' = S ∨ (some t).isSome = true ∧ ∃ m k b,
            (S.ue.ueCtxTable m).rollback S.tun = some S'.tun ∧ S'.ue = S.ue.setUsed k b := by
        intro r h
        simp only [Option.some.injEq, Prod.mk.injEq] at h
        exact Or.inl h.2.symm
      split at h
      · split at h
        · split at h
          · exact done h
          · exact same h
        · exact same h
      · split at h
        · exact same h
        · split at h
          · split at h
            · exact same h
            · exact done h
          · split at h
            · exact done h
            · exact same h

theorem UeTableValid.rollback (h : UeTableValid S.ue)
    (hr : ueCtxRollback S n = some (ret, S')) : UeTableValid S'.ue := by
  rcases ueCtxRollback_cases hr with rfl | ⟨hup, m, k, b, _, hue⟩
  · exact h
  · rw [hue]
    exact h.setUsed hup b

/-! ### One request -/

theorem UeTableValid.setup {req : E1apBearerCtxSetupReq} {rsp rsp' : E1apBearerCtxSetupRsp}
    (h : UeTableValid S.ue) (hs : e1apBearerCtxSetup env S req rsp = some (ret, rsp', S')) :
    UeTableValid S'.ue := by
  -- The row the sessions are served in still holds the id it was handed out under.
  have served : ∀ {id : UInt32} {U U' : UeCtxTable D} {n : UeIdx}
      {w : CtxWork D E1apBearerCtxSetupRsp}, ueCtxIdAlloc env S.ue = (some id, U) →
      ueCtxAdd env U id = (some n, U') →
      forRange (e1apSetupPdus env req) req.pdusCount (setupStart S.tun U' n req rsp) =
        some w → UeTableValid (w.tables U' n).ue := by
    intro id U U' n w halloc hadd hserve
    obtain ⟨hU, hgot⟩ := h.idAlloc halloc
    obtain ⟨hup, hid, habs⟩ := hgot id rfl
    obtain ⟨hU', hup', _⟩ := hU.add hup hid habs hadd
    refine hU'.setRow hup' ?_
    rw [(e1apSetupPdus_head hserve).cuupUeId]
    exact hU'.rows n
  cases e1apBearerCtxSetup_cases hs with
  | noId U _ alloc => exact (h.idAlloc alloc).1
  | noRow id U U' _ alloc add =>
      obtain ⟨hU, hgot⟩ := h.idAlloc alloc
      obtain ⟨hup, hid, habs⟩ := hgot id rfl
      exact (hU.add hup hid habs add).1
  | noneServed id U U' n w ret₁ ret₂ S₁ S₂ _ alloc add serve _ remove commit =>
      exact ((served alloc add serve).remove remove).commit commit
  | committed id U U' n w _ S₁ alloc add serve _ commit _ =>
      exact (served alloc add serve).commit commit
  | rolledBack id U U' n w ret₂ ret₃ S₁ S₂ S₃ _ alloc add serve _ commit rollback recommit =>
      exact (((served alloc add serve).commit commit).rollback rollback).commit recommit

theorem UeTableValid.modifyReq {req : E1apBearerCtxModifyReq}
    {rsp rsp' : E1apBearerCtxModifyRsp} (h : UeTableValid S.ue)
    (hs : e1apBearerCtxModify env S req rsp = some (ret, rsp', S')) :
    UeTableValid S'.ue := by
  have served : ∀ {U : UeCtxTable D} {n : UeIdx} {w : CtxWork D E1apBearerCtxModifyRsp},
      ueCtxModify S.ue req.cuupUeId = some (some n, U) →
      e1apModifyItems env req (modifyStart S.tun U n req rsp) = some w →
      UeTableValid (w.tables U n).ue := by
    intro U n w hm hserve
    obtain ⟨hU, hup⟩ := h.modify hm
    refine hU.setRow (hup n rfl) ?_
    rw [(e1apModifyItems_head hserve).cuupUeId]
    exact hU.rows n
  cases e1apBearerCtxModify_cases hs with
  | noRow U _ modify => exact (h.modify modify).1
  | otherCucp U n _ S₁ _ modify _ rollback =>
      exact UeTableValid.rollback (S := { S with ue := U }) (h.modify modify).1 rollback
  | committed U n w _ S₁ modify _ serve commit _ => exact (served modify serve).commit commit
  | rolledBack U n w _ S₁ S₂ _ modify _ serve commit rollback =>
      exact ((served modify serve).commit commit).rollback rollback

theorem UeTableValid.release {req : E1apBearerCtxReleaseCmd} (h : UeTableValid S.ue)
    (hs : e1apBearerCtxRelease S req = some (ret, S')) : UeTableValid S'.ue := by
  cases e1apBearerCtxRelease_cases hs with
  | unknown => exact h
  | committed _ S₁ _ remove commit => exact (h.remove remove).commit commit

/-- **Every request keeps the UE table valid.** -/
theorem UeTableValid.step {call : E1apCall D} (h : UeTableValid S.ue)
    (hs : e1apStep S call = some S') : UeTableValid S'.ue := by
  cases call with
  | setup env req rsp =>
      obtain ⟨out, hout, rfl⟩ := Option.map_eq_some_iff.mp hs
      exact h.setup hout
  | modify env req rsp =>
      obtain ⟨out, hout, rfl⟩ := Option.map_eq_some_iff.mp hs
      exact h.modifyReq hout
  | release req =>
      obtain ⟨out, hout, rfl⟩ := Option.map_eq_some_iff.mp hs
      exact h.release hout

theorem CuupReachable.ueTableValid (h : CuupReachable S) : UeTableValid S.ue :=
  Reachable.invariant (fun S => UeTableValid S.ue) h (UeTableValid.init D)
    fun _ _ _ hS hstep => hS.step hstep

end Pfm
