import Pfm.BearerContextSpec
import Pfm.ContextResidue

/-!
# Requests on tables with different free rows

`e1ap_bearer_ctx_setup` and `e1ap_bearer_ctx_modify` served on two states that are
alike give the same response, and states that are alike again.  The set of rows
the tables agree on grows with every row that is filled in.
-/

namespace Pfm

open BoundedLoop TwoRuns UeCtxTable

variable {D : Dpdk} {env : Env D} {T T' : TunnelTable D} {U U' : UeCtxTable D}
  {S S' : Cuup D} {A B : Set TunnelIdx} {n : UeIdx}

/-! ### The items of a request -/

/-- Two stages of serving the items, with the same response. -/
def CtxWorkAlike {ρ : Type} (A : Set TunnelIdx) (w w' : CtxWork D ρ) : Prop :=
  w'.rsp = w.rsp ∧ ServedAlike A w.tun w'.tun w.ctx w'.ctx

theorem e1apSetupPdus_alike {w w' : CtxWork D E1apBearerCtxSetupRsp}
    (hw : CtxWorkAlike A w w') (env : Env D) (req : E1apBearerCtxSetupReq) (i : Nat) :
    Option.Rel (CtxWorkAlike A) (e1apSetupPdus env req i w) (e1apSetupPdus env req i w') := by
  obtain ⟨hrsp, B, hAB, htun, hctx⟩ := hw
  unfold e1apSetupPdus
  rw [hrsp]
  apply rel_bind_same
  intro item _
  apply rel_bind_same
  intro slot _
  apply rel_bind (pdusSetup_alike htun hctx env item slot)
  intro out out' hout
  obtain ⟨hsucc, hfail, hserved⟩ := hout
  rw [hsucc, hfail]
  apply rel_bind_same
  intro succList _
  cases out.fail with
  | some fail => exact rel_bind_same fun failList _ => .some ⟨rfl, hserved.mono hAB⟩
  | none => exact .some ⟨rfl, hserved.mono hAB⟩

theorem e1apModifySetupPdus_alike {w w' : CtxWork D E1apBearerCtxModifyRsp}
    (hw : CtxWorkAlike A w w') (env : Env D) (req : E1apBearerCtxModifyReq) (i : Nat) :
    Option.Rel (CtxWorkAlike A) (e1apModifySetupPdus env req i w)
      (e1apModifySetupPdus env req i w') := by
  obtain ⟨hrsp, B, hAB, htun, hctx⟩ := hw
  unfold e1apModifySetupPdus
  rw [hrsp]
  apply rel_bind_same
  intro item _
  apply rel_bind_same
  intro slot _
  apply rel_bind (pdusSetup_alike htun hctx env item slot)
  intro out out' hout
  obtain ⟨hsucc, hfail, hserved⟩ := hout
  rw [hsucc, hfail]
  apply rel_bind_same
  intro succList _
  cases out.fail with
  | some fail => exact rel_bind_same fun failList _ => .some ⟨rfl, hserved.mono hAB⟩
  | none => exact .some ⟨rfl, hserved.mono hAB⟩

/-- Two stages of the remove and modify loops, with the same response and return
value. -/
def ModifyWorkAlike (A : Set TunnelIdx) (w w' : ModifyWork D) : Prop :=
  w'.ret = w.ret ∧ CtxWorkAlike A w.toCtxWork w'.toCtxWork

theorem e1apModifyRemovePdus_alike {w w' : ModifyWork D} (hw : ModifyWorkAlike A w w')
    (req : E1apBearerCtxModifyReq) (i : Nat) :
    Option.Rel (ModifyWorkAlike A) (e1apModifyRemovePdus req i w)
      (e1apModifyRemovePdus req i w') := by
  obtain ⟨hret, hrsp, B, hAB, htun, hctx⟩ := hw
  unfold e1apModifyRemovePdus
  rw [hctx.pdusCount]
  refine rel_bind_eq (firstIndex_congr fun j hj =>
    pdus_test_congr htun hctx (fun t => (req.pdusRemoveList.get? i).bind fun item =>
      some (t.info.pdusId == item.pdusId)) hj) fun found hfound => ?_
  cases found with
  | none => exact .some ⟨hret, hrsp, B, hAB, htun, hctx⟩
  | some j =>
      have hj : j < w.ctx.pdusCount := firstIndex_lt hfound
      simp only [hctx.pdus_deref hj]
      apply rel_bind_same
      intro nt hnt
      apply Option.Rel.some
      rw [htun.agree nt (hctx.pdusIn j nt hj hnt)]
      have hremove := tunnelRemove_alike htun (w.tun.tunnelTable nt).key
      exact ⟨hremove.1.symm, hrsp, B, hAB, hremove.2, hctx⟩

theorem e1apModifyModifyPdus_alike {w w' : ModifyWork D} (hw : ModifyWorkAlike A w w')
    (env : Env D) (req : E1apBearerCtxModifyReq) (i : Nat) :
    Option.Rel (ModifyWorkAlike A) (e1apModifyModifyPdus env req i w)
      (e1apModifyModifyPdus env req i w') := by
  obtain ⟨hret, hrsp, B, hAB, htun, hctx⟩ := hw
  unfold e1apModifyModifyPdus
  rw [hctx.pdusCount]
  refine rel_bind_eq (firstIndex_congr fun j hj =>
    pdus_test_congr htun hctx (fun t => (req.pdusModifyList.get? i).bind fun item =>
      some (t.info.pdusId == item.pdusId)) hj) fun found hfound => ?_
  cases found with
  | none =>
      simp only [hret, hrsp]
      split
      · exact .some ⟨rfl, rfl, B, hAB, htun, hctx⟩
      · apply rel_bind_same
        intro item _
        apply rel_bind_same
        intro list _
        exact .some ⟨rfl, rfl, B, hAB, htun, hctx⟩
  | some j =>
      have hj : j < w.ctx.pdusCount := firstIndex_lt hfound
      simp only [hrsp]
      apply rel_bind_same
      intro item _
      apply rel_bind_same
      intro slot _
      apply rel_bind (pdusModify_alike htun hctx env item slot hj)
      intro out out' hout
      obtain ⟨hsucc, hfail, hserved⟩ := hout
      rw [hsucc, hfail]
      apply rel_bind_same
      intro succList _
      cases out.fail with
      | some fail =>
          exact rel_bind_same fun failList _ => .some ⟨rfl, rfl, hserved.mono hAB⟩
      | none => exact .some ⟨rfl, rfl, hserved.mono hAB⟩

theorem e1apModifyItems_alike {w w' : CtxWork D E1apBearerCtxModifyRsp}
    (hw : CtxWorkAlike A w w') (env : Env D) (req : E1apBearerCtxModifyReq) :
    Option.Rel (CtxWorkAlike A) (e1apModifyItems env req w) (e1apModifyItems env req w') := by
  have hstart : ModifyWorkAlike A (⟨w, .failed⟩ : ModifyWork D) ⟨w', .failed⟩ := ⟨rfl, hw⟩
  unfold e1apModifyItems
  refine rel_bind (forRange_rel (fun _ => ModifyWorkAlike A) hstart
    fun i v v' _ hv => e1apModifyRemovePdus_alike hv req i) fun v v' hv => ?_
  refine rel_bind (forRange_rel (fun _ => ModifyWorkAlike A) hv
    fun i v v' _ hv => e1apModifyModifyPdus_alike hv env req i) fun v v' hv => ?_
  exact forRange_rel (fun _ => CtxWorkAlike A) hv.2
    fun i v v' _ hv => e1apModifySetupPdus_alike hv env req i

/-! ### The procedures -/

/-- Both tables of two sides, alike on a set of rows that holds `A`. -/
def CuupsAlike (A : Set TunnelIdx) (S S' : Cuup D) : Prop := ∃ B, A ⊆ B ∧ CuupAlike B S S'

theorem CuupRowAlike.widen (h : CuupRowAlike B n S S') (hAB : A ⊆ B) : CuupsAlike A S S' :=
  ⟨B, hAB, h.toCuupAlike⟩

/-- The response and the tables of two sides. -/
def AnswerAlike {ρ : Type} (A : Set TunnelIdx) (x y : PfmRetval × ρ × Cuup D) : Prop :=
  y.1 = x.1 ∧ y.2.1 = x.2.1 ∧ CuupsAlike A x.2.2 y.2.2

/-- The row of a new UE: what is filled in and the residue make up the whole row, as
far as it counts. -/
theorem UeCtx.fill_alike {c c' : UeCtx} (hid : c'.cuupUeId = c.cuupUeId)
    (hused : c'.isRowUsed = c.isRowUsed) (hres : c'.residue = c.residue)
    (hin : ∀ i r, c.drbTunnelList.deref? i = some r → r ∈ A) (cucpUeId : UInt32) :
    CtxAlike A (c.fill cucpUeId) (c'.fill cucpUeId) where
  cuupUeId := hid
  cucpUeId := rfl
  pdusCount := rfl
  drbCount := rfl
  newUl := rfl
  isRowUsed := hused
  drbList := (UeCtx.residue_eq_iff.mp hres).2.2
  pdusList _ hi := absurd hi (Nat.not_lt_zero _)
  drbIn := hin
  pdusIn _ _ hi := absurd hi (Nat.not_lt_zero _)

/-- The tables with the row served written back. -/
theorem CuupRowAlike.of_served (htun : TunnelsAlike B T T') {ctx ctx' : UeCtx}
    (hctx : CtxAlike B ctx ctx') (hue : UesAlike B U U') (n : UeIdx) :
    CuupRowAlike B n (⟨T, U.setRow n ctx⟩ : Cuup D) ⟨T', U'.setRow n ctx'⟩ where
  tun := htun
  ue := hue.setRow n hctx
  row := RowAlike.of_setRow n hctx

theorem e1apBearerCtxSetup_alike (h : CuupAlike A S S') (env : Env D)
    (req : E1apBearerCtxSetupReq) (rsp : E1apBearerCtxSetupRsp) :
    Option.Rel (AnswerAlike A) (e1apBearerCtxSetup env S req rsp)
      (e1apBearerCtxSetup env S' req rsp) := by
  have halloc := ueCtxIdAlloc_alike h.ue env
  unfold e1apBearerCtxSetup
  generalize ueCtxIdAlloc env S.ue = x, ueCtxIdAlloc env S'.ue = y at halloc ⊢
  obtain ⟨got, U⟩ := x
  obtain ⟨got', U'⟩ := y
  obtain ⟨rfl : got = got', hU⟩ := halloc
  cases got with
  | none => exact .some ⟨rfl, rfl, A, subset_rfl, h.tun, hU⟩
  | some id =>
      obtain ⟨hadd, hid⟩ := ueCtxAdd_alike hU env id
      simp only
      generalize ueCtxAdd env U id = x, ueCtxAdd env U' id = y at hadd hid ⊢
      obtain ⟨got, U₁⟩ := x
      obtain ⟨got', U₁'⟩ := y
      obtain ⟨rfl : got = got', h₁⟩ := hadd
      cases got with
      | none => exact .some ⟨rfl, rfl, A, subset_rfl, h.tun, h₁⟩
      | some n =>
          have hctx := UeCtx.fill_alike (hid n rfl) (h₁.used n) (h₁.residue n) (h₁.drbIn n)
            req.cucpUeId
          simp only [hctx.cuupUeId, hctx.cucpUeId]
          refine rel_bind (forRange_rel (fun _ => CtxWorkAlike A)
            ⟨rfl, .of_same h.tun hctx⟩
            fun i w w' _ hw => e1apSetupPdus_alike hw env req i) fun w w' hw => ?_
          obtain ⟨hrsp, B, hAB, htun, hctx'⟩ := hw
          have hserved := CuupRowAlike.of_served htun hctx' (h₁.mono hAB) n
          rw [hrsp]
          split
          · apply rel_bind (ueCtxRemove_alike hserved id)
            intro out out' hout
            apply rel_bind (ueCtxCommit_alike hout.2)
            intro out out' hout
            have hcucp := CtxAlike.cucpUeId hout.2.row
            exact .some ⟨rfl, by rw [hcucp], hout.2.widen hAB⟩
          · apply rel_bind (ueCtxCommit_alike hserved)
            intro out out' hout
            obtain ⟨hret, hout⟩ := hout
            rw [← hret]
            split
            · apply rel_bind (ueCtxRollback_alike hout)
              intro out out' hout
              apply rel_bind (ueCtxCommit_alike hout.2)
              intro out out' hout
              exact .some ⟨rfl, rfl, hout.2.widen hAB⟩
            · exact .some ⟨rfl, rfl, hout.widen hAB⟩

theorem e1apBearerCtxModify_alike (h : CuupAlike A S S') (env : Env D)
    (req : E1apBearerCtxModifyReq) (rsp : E1apBearerCtxModifyRsp) :
    Option.Rel (AnswerAlike A) (e1apBearerCtxModify env S req rsp)
      (e1apBearerCtxModify env S' req rsp) := by
  unfold e1apBearerCtxModify
  apply rel_bind (ueCtxModify_alike h.ue req.cuupUeId)
  intro x y hmodify
  obtain ⟨got, U⟩ := x
  obtain ⟨got', U'⟩ := y
  obtain ⟨⟨rfl : got = got', hU⟩, hrow⟩ := hmodify
  cases got with
  | none => exact .some ⟨rfl, rfl, A, subset_rfl, h.tun, hU⟩
  | some n =>
      have hctx : CtxAlike A (U.ueCtxTable n) (U'.ueCtxTable n) := hrow n rfl
      simp only [hctx.cucpUeId]
      split
      · have hn : CuupRowAlike A n { S with ue := U } { S' with ue := U' } :=
          ⟨⟨h.tun, hU⟩, hctx⟩
        apply rel_bind (ueCtxRollback_alike hn)
        intro out out' hout
        exact .some ⟨rfl, rfl, hout.2.widen subset_rfl⟩
      · have hstart : CtxWorkAlike A (modifyStart S.tun U n req rsp)
            (modifyStart S'.tun U' n req rsp) := ⟨rfl, .of_same h.tun hctx⟩
        apply rel_bind (e1apModifyItems_alike hstart env req)
        intro w w' hw
        obtain ⟨hrsp, B, hAB, htun, hctx'⟩ := hw
        have hserved := CuupRowAlike.of_served htun hctx' (hU.mono hAB) n
        apply rel_bind (ueCtxCommit_alike hserved)
        intro out out' hout
        obtain ⟨hret, hout⟩ := hout
        simp only [← hret, hrsp]
        split
        · apply rel_bind (ueCtxRollback_alike hout)
          intro out out' hout
          exact .some ⟨rfl, rfl, hout.2.widen hAB⟩
        · exact .some ⟨rfl, rfl, hout.widen hAB⟩

end Pfm
