import Pfm.SetupTrace

/-!
# The ids in the rows of UEs

What a request does to the two ids of each row and to the rows that ids lead to.

* `CommitsRow` : at most one entry is changed;
* `TakesRow` : a row is handed out besides, and has the ids it is taken for;
* `e1apBearerCtxSetup_takes`, `e1apBearerCtxModify_takes`, `e1apBearerCtxRelease_commits` :
  the three procedures.
-/

namespace Pfm

open BoundedLoop CircularScan UeCtxTable

variable {D : Dpdk} {env : Env D} {S S' : Cuup D} {U U' V : UeCtxTable D} {id cucp : UInt32}
  {n : UeIdx} {ret : PfmRetval}

/-! ### Steps on the ids of the table -/

/-- At most the entry of `id` changes, which then leads nowhere or to row `n`. -/
structure CommitsRow (id : UInt32) (n : UeIdx) (U U' : UeCtxTable D) : Prop where
  head : ∀ m, (U.ueCtxTable m).HeadKept (U'.ueCtxTable m)
  others : ∀ id', id' ≠ id → U'.rowOf id' = U.rowOf id'
  own : U'.rowOf id = U.rowOf id ∨ U'.rowOf id = none ∨ U'.rowOf id = some n

/-- Row `n` is taken for the UE `id` with the CU-CP id `cucp`. -/
structure TakesRow (id : UInt32) (n : UeIdx) (cucp : UInt32) (U U' : UeCtxTable D) : Prop where
  head : ∀ m, m ≠ n → (U.ueCtxTable m).HeadKept (U'.ueCtxTable m)
  cuup : (U'.ueCtxTable n).cuupUeId = id
  cucp : (U'.ueCtxTable n).cucpUeId = cucp
  fit : (∀ m, (U.ueCtxTable m).CountsFit) → (U'.ueCtxTable n).CountsFit
  others : ∀ id', id' ≠ id → U'.rowOf id' = U.rowOf id'
  own : U'.rowOf id = U.rowOf id ∨ U'.rowOf id = none ∨ U'.rowOf id = some n

theorem CommitsRow.refl (id : UInt32) (n : UeIdx) (U : UeCtxTable D) : CommitsRow id n U U :=
  ⟨fun _ => .refl _, fun _ _ => rfl, Or.inl rfl⟩

theorem own_trans (h : V.rowOf id = U.rowOf id ∨ V.rowOf id = none ∨ V.rowOf id = some n)
    (h' : U'.rowOf id = V.rowOf id ∨ U'.rowOf id = none ∨ U'.rowOf id = some n) :
    U'.rowOf id = U.rowOf id ∨ U'.rowOf id = none ∨ U'.rowOf id = some n := by
  rcases h' with heq | hnone | hrow
  · rw [heq]
    exact h
  · exact Or.inr (Or.inl hnone)
  · exact Or.inr (Or.inr hrow)

theorem CommitsRow.trans (h : CommitsRow id n U V) (h' : CommitsRow id n V U') :
    CommitsRow id n U U' where
  head m := (h.head m).trans (h'.head m)
  others id' hne := (h'.others id' hne).trans (h.others id' hne)
  own := own_trans h.own h'.own

/-- Committing the row an id leads to gives no id another row. -/
theorem CommitsRow.row_before (h : CommitsRow id n U U') (hn : U.rowOf id = some n)
    {id' : UInt32} {m : UeIdx} (hm : U'.rowOf id' = some m) : U.rowOf id' = some m := by
  by_cases hid : id' = id
  · rw [hid] at hm ⊢
    rcases h.own with heq | hnone | hrow
    · rw [← heq]
      exact hm
    · rw [hnone] at hm
      cases hm
    · rw [← hm, hrow]
      exact hn
  · rw [← h.others id' hid]
    exact hm

theorem TakesRow.commits (h : TakesRow id n cucp U V) (h' : CommitsRow id n V U') :
    TakesRow id n cucp U U' where
  head m hne := (h.head m hne).trans (h'.head m)
  cuup := (h'.head n).cuupUeId.trans h.cuup
  cucp := (h'.head n).cucpUeId.trans h.cucp
  fit hfit := (h'.head n).fit (h.fit hfit)
  others id' hne := (h'.others id' hne).trans (h.others id' hne)
  own := own_trans h.own h'.own

theorem TakesRow.congr (h : TakesRow id n cucp U V) (hrows : U'.ueCtxTable = U.ueCtxTable)
    (hkeys : U'.rowOf = U.rowOf) : TakesRow id n cucp U' V where
  head m hne := by
    rw [hrows]
    exact h.head m hne
  cuup := h.cuup
  cucp := h.cucp
  fit hfit := by
    rw [hrows] at hfit
    exact h.fit hfit
  others id' hne := by rw [h.others id' hne, hkeys]
  own := by
    rw [hkeys]
    exact h.own

/-- A row whose ids and counts are kept is written. -/
theorem commitsRow_setRow {m : UeIdx} {ctx : UeCtx} (h : (U.ueCtxTable m).HeadKept ctx) :
    CommitsRow id n U (U.setRow m ctx) := by
  refine ⟨?_, fun _ _ => rfl, Or.inl rfl⟩
  intro k
  by_cases hk : k = m
  · subst hk
    rw [setRow_self]
    exact h
  · rw [setRow_of_ne ctx hk]
    exact .refl _

theorem commitsRow_setUsed (m : UeIdx) (b : Bool) : CommitsRow id n U (U.setUsed m b) :=
  commitsRow_setRow ⟨rfl, rfl, fun h => h⟩

theorem commitsRow_update {t : D.ueHash.Table} {e : Option (Fin maxUeCount × UeIdx)}
    (hash : D.ueHash.entry (some t) = Function.update U.entry id e)
    (he : e = none ∨ ∃ p, e = some (p, n)) :
    CommitsRow id n U { U with ueCtxHashtable := some t } := by
  have hrow (id' : UInt32) : ({ U with ueCtxHashtable := some t } : UeCtxTable D).rowOf id' =
      (Function.update U.entry id e id').map Prod.snd := by
    rw [← hash]
    rfl
  refine ⟨fun _ => .refl _, ?_, Or.inr ?_⟩
  · intro id' hne
    rw [hrow, Function.update_of_ne hne]
    rfl
  · rw [hrow, Function.update_self]
    rcases he with rfl | ⟨p, rfl⟩
    · exact Or.inl rfl
    · exact Or.inr rfl

theorem ueCtxCommitEntry_commits (U : UeCtxTable D) (n : UeIdx) :
    CommitsRow (U.ueCtxTable n).cuupUeId n U (ueCtxCommitEntry U n).2 := by
  have hcases := ueCtxCommitEntry_cases U n
  generalize ueCtxCommitEntry U n = res at hcases ⊢
  obtain ⟨ret, U'⟩ := res
  simp only at hcases ⊢
  cases hcases with
  | down | kept => exact .refl _ _ U
  | inserted t p absent hash => exact commitsRow_update hash (Or.inr ⟨p, rfl⟩)
  | refused t absent hash full =>
      have hsame := commitsRow_update (U := U) (n := n) (e := none)
        (hash.trans (Function.update_eq_self_iff.mpr absent.symm).symm) (Or.inl rfl)
      exact hsame
  | deleted t p mapped unused hash => exact commitsRow_update hash (Or.inl rfl)
  | replaced t p old mapped ne hash =>
      exact (commitsRow_setUsed old false).trans (commitsRow_update hash (Or.inr ⟨p, rfl⟩))

theorem packTunnels_count_le {m k count j : Nat}
    {source : CArray k (Option TunnelIdx) → CArray m (Option TunnelIdx)}
    {list list' : CArray k (Option TunnelIdx)}
    (h : packTunnels source count list = some (list', j)) : j ≤ k := by
  refine forRange_invariant (fun _ (s : CArray k (Option TunnelIdx) × Nat) => s.2 ≤ k)
    (Nat.zero_le k) ?_ h
  intro i s s' _ hs hturn
  obtain ⟨got, -, hturn⟩ := Option.bind_eq_some_iff.mp hturn
  cases got with
  | none =>
      obtain rfl := Option.some.inj hturn
      exact hs
  | some nt =>
      obtain ⟨l, hset, hturn⟩ := Option.bind_eq_some_iff.mp hturn
      obtain rfl := Option.some.inj hturn
      exact CArray.lt_of_set? hset

theorem ueCtxCommit_commits (h : ueCtxCommit S (some n) = some (ret, S')) :
    CommitsRow (S.ue.ueCtxTable n).cuupUeId n S.ue S'.ue := by
  rcases ueCtxCommit_split h with ⟨-, rfl⟩ | ⟨m, hm, hup⟩
  · exact .refl _ _ _
  · obtain rfl := Option.some.inj hm
    obtain ⟨hc⟩ := ueCtxCommit_cases hup h
    have hpacked : (S.ue.ueCtxTable n).HeadKept
        ((S.ue.ueCtxTable n).packed hc.drbList hc.drbCount hc.pdusList) :=
      ⟨rfl, rfl, fun hfit => ⟨hfit.1, packTunnels_count_le hc.packDrb⟩⟩
    have hentry := ueCtxCommitEntry_commits (S.ue.setRow n
      ((S.ue.ueCtxTable n).packed hc.drbList hc.drbCount hc.pdusList)) n
    rw [setRow_self, hc.entry] at hentry
    exact (commitsRow_setRow hpacked).trans hentry

theorem ueCtxRollback_commits {m : UeIdx} (h : ueCtxRollback S m = some (ret, S')) :
    CommitsRow id n S.ue S'.ue := by
  rcases ueCtxRollback_cases h with rfl | ⟨-, k, j, b, -, hue⟩
  · exact .refl _ _ _
  · rw [hue]
    exact commitsRow_setUsed j b

theorem ueCtxRemove_commits {id' : UInt32} (h : ueCtxRemove S id' = some (ret, S')) :
    CommitsRow id n S.ue S'.ue := by
  rcases ueCtxRemove_cases h with ⟨-, -, rfl⟩ | ⟨m, T₁, -, -, -, -, hue⟩
  · exact .refl _ _ _
  · rw [hue]
    exact commitsRow_setUsed m false

/-! ### The three procedures -/

/-- The row the next request gets that needs one. -/
def nextUeRow (U : UeCtxTable D) : Option UeIdx :=
  scan (fun i => rowProbe (U.used i)) U.lastAllocatedSlot

theorem ueCtxAlloc_of_some (h : nextUeRow U = some n) (id : UInt32) :
    ueCtxAlloc U id = (some n, U.takeRow n id) := by
  rw [nextUeRow] at h
  simp only [ueCtxAlloc, h]

theorem ueCtxAlloc_of_none (h : nextUeRow U = none) (id : UInt32) :
    ueCtxAlloc U id = (none, U) := by
  rw [nextUeRow] at h
  simp only [ueCtxAlloc, h]

theorem nextUeRow_unused (h : nextUeRow U = some n) : U.used n = false :=
  rowProbe_eq_take_iff.mp (scan_take h)

/-- Row `n` once it has been taken and a context has been built in it. -/
theorem takesRow_of_built {ctx : UeCtx} (hcuup : ctx.cuupUeId = id) (hcucp : ctx.cucpUeId = cucp)
    (hfit : (∀ m, (U.ueCtxTable m).CountsFit) → ctx.CountsFit) :
    TakesRow id n cucp U ((U.takeRow n id).setRow n ctx) where
  head m hne := by
    rw [setRow_of_ne ctx hne, takeRow_of_ne hne]
    exact .refl _
  cuup := by rw [setRow_self, hcuup]
  cucp := by rw [setRow_self, hcucp]
  fit hall := by
    rw [setRow_self]
    exact hfit hall
  others _ _ := rfl
  own := Or.inl rfl

/-- A setup leaves the ids as they are, or takes the next row for an id that is not
committed. -/
theorem e1apBearerCtxSetup_takes {req : E1apBearerCtxSetupReq} {rsp rsp' : E1apBearerCtxSetupRsp}
    (h : e1apBearerCtxSetup env S req rsp = some (ret, rsp', S')) :
    ((∀ m, (S.ue.ueCtxTable m).HeadKept (S'.ue.ueCtxTable m)) ∧ S'.ue.rowOf = S.ue.rowOf) ∨
      ∃ id n, nextUeRow S.ue = some n ∧ S.ue.rowOf id = none ∧
        TakesRow id n req.cucpUeId S.ue S'.ue := by
  -- The row is taken, and the sessions are served in it.
  have served {id : UInt32} {U U' : UeCtxTable D} {n : UeIdx}
      {w : CtxWork D E1apBearerCtxSetupRsp} (halloc : ueCtxIdAlloc env S.ue = (some id, U))
      (hadd : ueCtxAdd env U id = (some n, U'))
      (hserve : forRange (e1apSetupPdus env req) req.pdusCount
        (setupStart S.tun U' n req rsp) = some w) :
      nextUeRow S.ue = some n ∧ S.ue.rowOf id = none ∧
        TakesRow id n req.cucpUeId S.ue (w.tables U' n).ue := by
    obtain ⟨hup, -, habs, -, i, hU⟩ := ueCtxIdAlloc_some halloc
    have hnext' : nextUeRow U = nextUeRow S.ue := by
      rw [hU]
      rfl
    rw [ueCtxAdd_of_absent (by rw [hU]; exact hup) (by rw [hU]; exact habs)] at hadd
    have hnext : nextUeRow U = some n := by
      cases hrow : nextUeRow U with
      | none =>
          rw [ueCtxAlloc_of_none hrow] at hadd
          cases hadd
      | some m =>
          rw [ueCtxAlloc_of_some hrow] at hadd
          exact (Prod.mk.inj hadd).1
    rw [ueCtxAlloc_of_some hnext] at hadd
    obtain rfl := (Prod.mk.inj hadd).2
    have hhead := e1apSetupPdus_head hserve
    have hcuup : w.ctx.cuupUeId = id := by
      rw [hhead.cuupUeId]
      simp [setupStart, UeCtx.fill, takeRow, setRow]
    have hbuilt : TakesRow id n req.cucpUeId U (w.tables (U.takeRow n id) n).ue :=
      takesRow_of_built hcuup hhead.cucpUeId fun _ => hhead.fit ⟨Nat.zero_le _, Nat.zero_le _⟩
    refine ⟨hnext'.symm.trans hnext, habs, hbuilt.congr ?_ ?_⟩
    · rw [hU]
    · rw [hU]
      rfl
  cases e1apBearerCtxSetup_cases h with
  | noId U _ alloc =>
      left
      rcases ueCtxIdAlloc_cases env S.ue with ⟨hdown, he | he⟩ | ⟨hup, he⟩
      · rw [he] at alloc
        cases alloc
        exact ⟨fun _ => .refl _, rfl⟩
      · rw [he] at alloc
        cases alloc
        refine ⟨fun _ => ⟨rfl, rfl, fun h => h⟩, ?_⟩
        funext id
        exact cleared_rowOf.trans (rowOf_of_down hdown).symm
      · rw [he] at alloc
        rcases ueCtxIdSearch_cases hup with ⟨-, hs⟩ | ⟨i, -, -, hs⟩
        · rw [hs] at alloc
          cases alloc
          exact ⟨fun _ => .refl _, rfl⟩
        · rw [hs] at alloc
          cases alloc
  | noRow id U U' _ alloc add =>
      obtain ⟨hup, -, habs, -, i, hU⟩ := ueCtxIdAlloc_some alloc
      obtain rfl := ueCtxAdd_none (by rw [hU]; exact hup) (by rw [hU]; exact habs) add
      rw [hU]
      exact Or.inl ⟨fun _ => .refl _, rfl⟩
  | noneServed id U U' n w ret₁ ret₂ S₁ S₂ _ alloc add serve _ remove commit =>
      obtain ⟨hnext, habs, htakes⟩ := served alloc add serve
      have hremoved := htakes.commits (ueCtxRemove_commits remove)
      have hcommit := ueCtxCommit_commits commit
      rw [hremoved.cuup] at hcommit
      exact Or.inr ⟨id, n, hnext, habs, hremoved.commits hcommit⟩
  | committed id U U' n w _ S₁ alloc add serve _ commit _ =>
      obtain ⟨hnext, habs, htakes⟩ := served alloc add serve
      have hcommit := ueCtxCommit_commits commit
      rw [htakes.cuup] at hcommit
      exact Or.inr ⟨id, n, hnext, habs, htakes.commits hcommit⟩
  | rolledBack id U U' n w ret₂ ret₃ S₁ S₂ S₃ _ alloc add serve _ commit rollback recommit =>
      obtain ⟨hnext, habs, htakes⟩ := served alloc add serve
      have hcommit := ueCtxCommit_commits commit
      rw [htakes.cuup] at hcommit
      have hrolled := (htakes.commits hcommit).commits (ueCtxRollback_commits rollback)
      have hrecommit := ueCtxCommit_commits recommit
      rw [hrolled.cuup] at hrecommit
      exact Or.inr ⟨id, n, hnext, habs, hrolled.commits hrecommit⟩

theorem copyTunnels_isSome {m : Nat} (old new : CArray m (Option TunnelIdx)) {count : Nat}
    (h : count ≤ m) : ∃ l, copyTunnels old new count = some l := by
  have hturn (i : Nat) (l : CArray m (Option TunnelIdx)) (hi : i < count) (_ : True) :
      ∃ l', (old.get? i).bind (l.set? i) = some l' ∧ True := by
    have hlt := Nat.lt_of_lt_of_le hi h
    exact ⟨_, by rw [CArray.get?_of_lt old hlt, Option.bind_some, CArray.set?_of_lt l hlt],
      trivial⟩
  obtain ⟨l, hl, -⟩ := forRange_isSome (fun _ _ => True) trivial hturn
  exact ⟨l, hl⟩

/-- `ue_ctx_modify` of a UE takes the next row, which keeps the CU-CP id it has. -/
theorem ueCtxModify_takes {old : UeIdx} (hk : U.rowOf id = some old)
    (hfit : (U.ueCtxTable old).CountsFit) (hnext : nextUeRow U = some n) :
    ∃ U', ueCtxModify U id = some (some n, U') ∧ U'.rowOf = U.rowOf ∧
      TakesRow id n (U.ueCtxTable n).cucpUeId U U' := by
  obtain ⟨p, hl⟩ := UeCtxTable.lookup_of_rowOf hk
  have hup := UeCtxTable.not_isNone_of_up (up_of_rowOf hk)
  have hcounts : ((U.takeRow n id).ueCtxTable old).CountsFit := by
    by_cases hn : old = n
    · subst hn
      rw [takeRow_self]
      exact hfit
    · rw [takeRow_of_ne hn]
      exact hfit
  have hpdusCount : (if n = old then 0 else ((U.takeRow n id).ueCtxTable old).pdusCount) ≤
      maxPdusPerUe := by
    split
    · exact Nat.zero_le _
    · exact hcounts.1
  have hdrbCount : (if n = old then 0 else ((U.takeRow n id).ueCtxTable old).drbCount) ≤
      maxDrbPerUe := by
    split
    · exact Nat.zero_le _
    · exact hcounts.2
  obtain ⟨pdusList, hpdus⟩ := copyTunnels_isSome
    ((U.takeRow n id).ueCtxTable old).pdusTunnelList
    ((U.takeRow n id).ueCtxTable n).pdusTunnelList hpdusCount
  obtain ⟨drbList, hdrb⟩ := copyTunnels_isSome
    ((U.takeRow n id).ueCtxTable old).drbTunnelList
    ((U.takeRow n id).ueCtxTable n).drbTunnelList hdrbCount
  refine ⟨(U.takeRow n id).setRow n (((U.takeRow n id).ueCtxTable n).copied
    ((U.takeRow n id).ueCtxTable old) (n = old) pdusList drbList), ?_, rfl, ?_⟩
  · unfold ueCtxModify
    rw [if_neg hup]
    simp only [hl]
    rw [if_neg (by omega)]
    simp only [ueCtxAlloc_of_some hnext, hpdus, hdrb, Option.bind_eq_bind, Option.bind_some]
    rfl
  · refine takesRow_of_built ?_ ?_ fun _ => ⟨hpdusCount, hdrbCount⟩
    · rw [UeCtx.copied, takeRow_self]
    · rw [UeCtx.copied, takeRow_self]

theorem ueCtxModify_of_full (hnext : nextUeRow U = none) (id : UInt32) :
    ueCtxModify U id = some (none, U) := by
  unfold ueCtxModify
  simp only [ueCtxAlloc_of_none hnext]
  split
  · rfl
  · split
    · rfl
    · split
      · rfl
      · rfl

/-- A modification leaves the table as it is, or takes the next row for its UE, and gives it
to the UE only when the CU-CP id found there is the one asked for. -/
theorem e1apBearerCtxModify_takes {req : E1apBearerCtxModifyReq}
    {rsp rsp' : E1apBearerCtxModifyRsp} (hfit : ∀ m, (S.ue.ueCtxTable m).CountsFit)
    (h : e1apBearerCtxModify env S req rsp = some (ret, rsp', S')) :
    S' = S ∨ ∃ old n, S.ue.rowOf req.cuupUeId = some old ∧ nextUeRow S.ue = some n ∧
      TakesRow req.cuupUeId n (S.ue.ueCtxTable n).cucpUeId S.ue S'.ue ∧
      ((S.ue.ueCtxTable n).cucpUeId ≠ req.cucpUeId → S'.ue.rowOf = S.ue.rowOf) := by
  cases hk : S.ue.rowOf req.cuupUeId with
  | none =>
      left
      simp only [e1apBearerCtxModify, ueCtxModify_of_absent hk, Option.bind_eq_bind,
        Option.bind_some, Option.some.injEq, Prod.mk.injEq] at h
      exact h.2.2.symm
  | some old =>
      cases hnext : nextUeRow S.ue with
      | none =>
          left
          simp only [e1apBearerCtxModify, ueCtxModify_of_full hnext, Option.bind_eq_bind,
            Option.bind_some, Option.some.injEq, Prod.mk.injEq] at h
          exact h.2.2.symm
      | some n =>
          obtain ⟨V, hmodify, hkeys, htakes⟩ := ueCtxModify_takes hk (hfit old) hnext
          have hV {U : UeCtxTable D} {k : UeIdx}
              (hgot : ueCtxModify S.ue req.cuupUeId = some (some k, U)) : k = n ∧ U = V := by
            obtain ⟨hk, hU⟩ := Prod.mk.inj (Option.some.inj (hgot.symm.trans hmodify))
            exact ⟨Option.some.inj hk, hU⟩
          have served {w : CtxWork D E1apBearerCtxModifyRsp}
              (hserve : e1apModifyItems env req (modifyStart S.tun V n req rsp) = some w) :
              TakesRow req.cuupUeId n (S.ue.ueCtxTable n).cucpUeId S.ue (w.tables V n).ue :=
            htakes.commits (commitsRow_setRow (e1apModifyItems_head hserve))
          refine Or.inr ⟨old, n, rfl, rfl, ?_⟩
          cases e1apBearerCtxModify_cases h with
          | noRow U _ modify =>
              rw [hmodify] at modify
              cases modify
          | otherCucp U k _ S₁ _ modify differ rollback =>
              obtain ⟨rfl, rfl⟩ := hV modify
              refine ⟨htakes.commits (ueCtxRollback_commits rollback), ?_⟩
              intro _
              rcases ueCtxRollback_cases rollback with rfl | ⟨-, m, j, b, -, hue⟩
              · exact hkeys
              · rw [hue]
                exact hkeys
          | committed U k w _ S₁ modify same serve commit _ =>
              obtain ⟨rfl, rfl⟩ := hV modify
              have hcommit := ueCtxCommit_commits commit
              rw [(served serve).cuup] at hcommit
              refine ⟨(served serve).commits hcommit, ?_⟩
              intro hne
              exact absurd (htakes.cucp.symm.trans same) hne
          | rolledBack U k w _ S₁ S₂ _ modify same serve commit rollback =>
              obtain ⟨rfl, rfl⟩ := hV modify
              have hcommit := ueCtxCommit_commits commit
              rw [(served serve).cuup] at hcommit
              refine ⟨((served serve).commits hcommit).commits (ueCtxRollback_commits rollback),
                ?_⟩
              intro hne
              exact absurd (htakes.cucp.symm.trans same) hne

/-- A release commits at most the row of its UE. -/
theorem e1apBearerCtxRelease_commits {req : E1apBearerCtxReleaseCmd}
    (hown : ∀ n, S.ue.rowOf req.cuupUeId = some n →
      (S.ue.ueCtxTable n).cuupUeId = req.cuupUeId)
    (h : e1apBearerCtxRelease S req = some (ret, S')) :
    S' = S ∨ ∃ n, S.ue.rowOf req.cuupUeId = some n ∧
      CommitsRow req.cuupUeId n S.ue S'.ue := by
  cases e1apBearerCtxRelease_cases h with
  | unknown => exact Or.inl rfl
  | committed ret₂ S₁ S₂ remove commit =>
      right
      rcases ueCtxRemove_cases remove with ⟨hret, -, -⟩ | ⟨n, T₁, -, hk, -, -, hue⟩
      · exact absurd rfl hret
      have hremoved : CommitsRow req.cuupUeId n S.ue S₁.ue := ueCtxRemove_commits remove
      refine ⟨n, hk, hremoved.trans ?_⟩
      cases hget : ueCtxGet S₁.ue req.cuupUeId with
      | none =>
          rw [hget] at commit
          rcases ueCtxCommit_split commit with ⟨-, rfl⟩ | ⟨m, hm, -⟩
          · exact .refl _ _ _
          · cases hm
      | some m =>
          obtain ⟨p, hp, -⟩ := ueCtxGet_eq_some_iff.mp hget
          have hm : S₁.ue.rowOf req.cuupUeId = some m := rowOf_eq_some_iff.mpr ⟨p, hp⟩
          rw [hue] at hm
          obtain rfl := Option.some.inj (hk.symm.trans hm)
          rw [hget] at commit
          have hcommit := ueCtxCommit_commits commit
          have hstored := (hremoved.head n).cuupUeId
          rw [hstored, hown n hk] at hcommit
          exact hcommit

end Pfm
