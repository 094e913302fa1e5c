import Pfm.ModifySessions
import Pfm.UeRows

/-!
# The CU-CP id of a UE

A request to modify a UE names it by two ids, and is refused unless both are those of its
context.  `e1ap_bearer_ctx_modify` compares the second one with the row `ue_ctx_modify` has
just taken, into which that id was not copied: it compares with what an earlier user left.

* `IdentityRun` : the states of the program with the ids that UEs were set up with;
* `ueIdentity_iff` : when every identity check of a run is right.
-/

namespace Pfm

open BoundedLoop CircularScan StepSystem UeCtxTable

variable {D : Dpdk} {env : Env D} {S' : Cuup D} {U U' : UeCtxTable D} {id cucp : UInt32}
  {n : UeIdx}

/-! ### Runs with the ids that UEs were set up with -/

/-- The program, and for every id the CU-CP id in the request that committed it. -/
structure IdentityRun (D : Dpdk) where
  cuup : Cuup D
  setUpWith : UInt32 → Option UInt32

def IdentityRun.start (D : Dpdk) : IdentityRun D := ⟨Cuup.init D, fun _ => none⟩

/-- A setup is recorded under the id it commits. -/
def IdentityRun.recorded (R : IdentityRun D) (S' : Cuup D) :
    E1apCall D → UInt32 → Option UInt32
  | .setup _ req _ => fun id =>
      if R.cuup.ue.rowOf id = none ∧ S'.ue.rowOf id ≠ none then some req.cucpUeId
      else R.setUpWith id
  | .modify _ _ _ => R.setUpWith
  | .release _ => R.setUpWith

def identityStep (R : IdentityRun D) (call : E1apCall D) : Option (IdentityRun D) :=
  (e1apStep R.cuup call).map fun S' => ⟨S', R.recorded S' call⟩

/-- Every committed context has the CU-CP id it was set up with. -/
def CucpKept (R : IdentityRun D) : Prop :=
  ∀ id n, R.cuup.ue.rowOf id = some n →
    R.setUpWith id = some (R.cuup.ue.ueCtxTable n).cucpUeId

/-- The request is refused neither for its CU-UP id nor for its CU-CP id. -/
def PastIdentity (S : Cuup D) (req : E1apBearerCtxModifyReq) : Prop :=
  ∃ n U, ueCtxModify S.ue req.cuupUeId = some (some n, U) ∧
    (U.ueCtxTable n).cucpUeId = req.cucpUeId

/-- Where a row is free, a modification gets past the checks exactly when its UE is
committed and was set up with its CU-CP id. -/
def IdentityChecked (R : IdentityRun D) : E1apCall D → Prop
  | .modify _ req _ => (∃ n, R.cuup.ue.used n = false) →
      (PastIdentity R.cuup req ↔ (R.cuup.ue.rowOf req.cuupUeId).isSome = true ∧
        R.setUpWith req.cuupUeId = some req.cucpUeId)
  | .setup _ _ _ => True
  | .release _ => True

/-- Where a row is free, a row is handed out for the UE and the CU-CP id left in it is the
one asked for, exactly when that of the UE's own row is. -/
def LeftoverFits (R : IdentityRun D) : E1apCall D → Prop
  | .modify _ req _ => ∀ old, R.cuup.ue.rowOf req.cuupUeId = some old →
      (∃ n, R.cuup.ue.used n = false) →
      ((∃ n, nextUeRow R.cuup.ue = some n ∧
          (R.cuup.ue.ueCtxTable n).cucpUeId = req.cucpUeId) ↔
        (R.cuup.ue.ueCtxTable old).cucpUeId = req.cucpUeId)
  | .setup _ _ _ => True
  | .release _ => True

/-- No row is handed out while another UE is committed to it. -/
def RowsUnshared (R : IdentityRun D) : E1apCall D → Prop
  | .setup _ _ _ => ∀ n, nextUeRow R.cuup.ue = some n → ∀ id, R.cuup.ue.rowOf id ≠ some n
  | .modify _ req _ => ∀ n, nextUeRow R.cuup.ue = some n →
      ∀ id, R.cuup.ue.rowOf id = some n → id = req.cuupUeId
  | .release _ => True

/-! ### What the ids are in every state -/

/-- The counts of the contexts fit their lists, and an id leads to a row that stores it. -/
structure UeCtxTable.KeysStored (U : UeCtxTable D) : Prop where
  fit : ∀ n, (U.ueCtxTable n).CountsFit
  stored : ∀ id n, U.rowOf id = some n → (U.ueCtxTable n).cuupUeId = id

theorem UeCtxTable.KeysStored.init (D : Dpdk) : (UeCtxTable.init D).KeysStored where
  fit _ := ⟨Nat.zero_le _, Nat.zero_le _⟩
  stored _ _ h := nomatch h

theorem UeCtxTable.KeysStored.heads (h : U.KeysStored)
    (hheads : ∀ m, (U.ueCtxTable m).HeadKept (U'.ueCtxTable m)) (hkeys : U'.rowOf = U.rowOf) :
    U'.KeysStored where
  fit m := (hheads m).fit (h.fit m)
  stored id' m hm := by
    rw [hkeys] at hm
    exact (hheads m).cuupUeId.trans (h.stored id' m hm)

theorem UeCtxTable.KeysStored.commits (h : U.KeysStored) (hcommits : CommitsRow id n U U')
    (hn : U.rowOf id = some n) : U'.KeysStored where
  fit m := (hcommits.head m).fit (h.fit m)
  stored id' m hm :=
    (hcommits.head m).cuupUeId.trans (h.stored id' m (hcommits.row_before hn hm))

theorem UeCtxTable.KeysStored.takes (h : U.KeysStored) (htakes : TakesRow id n cucp U U')
    (hunshared : ∀ id', U.rowOf id' = some n → id' = id) : U'.KeysStored where
  fit m := by
    by_cases hm : m = n
    · subst hm
      exact htakes.fit h.fit
    · exact (htakes.head m hm).fit (h.fit m)
  stored id' m hm := by
    by_cases hmn : m = n
    · subst hmn
      rw [htakes.cuup]
      by_contra hid
      rw [htakes.others id' (Ne.symm hid)] at hm
      exact hid (hunshared id' hm).symm
    · refine (htakes.head m hmn).cuupUeId.trans (h.stored id' m ?_)
      by_cases hid : id' = id
      · subst hid
        rcases htakes.own with heq | hnone | hrow
        · rw [← heq]
          exact hm
        · rw [hnone] at hm
          cases hm
        · rw [hrow] at hm
          exact absurd (Option.some.inj hm).symm hmn
      · rw [← htakes.others id' hid]
        exact hm

/-! ### One call -/

section Step

variable {R R' : IdentityRun D} {call : E1apCall D}

theorem cucpKept_of_heads (h : CucpKept R) {record : UInt32 → Option UInt32}
    (hheads : ∀ m, (R.cuup.ue.ueCtxTable m).HeadKept (S'.ue.ueCtxTable m))
    (hrows : ∀ id m, S'.ue.rowOf id = some m → R.cuup.ue.rowOf id = some m)
    (hrecord : ∀ id, R.cuup.ue.rowOf id ≠ none → record id = R.setUpWith id) :
    CucpKept ⟨S', record⟩ := by
  intro id m hm
  have hold := hrows id m hm
  change record id = some (S'.ue.ueCtxTable m).cucpUeId
  rw [hrecord id (by rw [hold]; exact Option.some_ne_none m), (hheads m).cucpUeId]
  exact h id m hold

/-- Where a row is taken for `id`, only what is recorded for `id` can be at stake. -/
theorem cucpKept_of_takes (h : CucpKept R) {record : UInt32 → Option UInt32}
    (htakes : TakesRow id n cucp R.cuup.ue S'.ue)
    (hunshared : ∀ id', R.cuup.ue.rowOf id' = some n → id' = id)
    (hrecord : ∀ id', id' ≠ id → record id' = R.setUpWith id')
    (hown : ∀ m, S'.ue.rowOf id = some m → record id = some (S'.ue.ueCtxTable m).cucpUeId) :
    CucpKept ⟨S', record⟩ := by
  intro id' m hm
  by_cases hid : id' = id
  · rw [hid] at hm ⊢
    exact hown m hm
  · have hold : R.cuup.ue.rowOf id' = some m := (htakes.others id' hid).symm.trans hm
    have hmn : m ≠ n := by
      rintro rfl
      exact hid (hunshared id' hold)
    change record id' = some (S'.ue.ueCtxTable m).cucpUeId
    rw [hrecord id' hid, (htakes.head m hmn).cucpUeId]
    exact h id' m hold

theorem identityStep_keysStored (hinv : R.cuup.ue.KeysStored) (hrows : RowsUnshared R call)
    (h : identityStep R call = some R') : R'.cuup.ue.KeysStored := by
  obtain ⟨S', hstep, rfl⟩ := Option.map_eq_some_iff.mp h
  cases call with
  | setup env req rsp =>
      obtain ⟨⟨ret, rsp', S'⟩, hsetup, rfl⟩ := Option.map_eq_some_iff.mp hstep
      rcases e1apBearerCtxSetup_takes hsetup with ⟨hheads, hkeys⟩ | ⟨id, n, hnext, -, htakes⟩
      · exact hinv.heads hheads hkeys
      · exact hinv.takes htakes fun id' hid' => absurd hid' (hrows n hnext id')
  | modify env req rsp =>
      obtain ⟨⟨ret, rsp', S'⟩, hmodify, rfl⟩ := Option.map_eq_some_iff.mp hstep
      rcases e1apBearerCtxModify_takes hinv.fit hmodify with rfl | ⟨-, n, -, hnext, htakes, -⟩
      · exact hinv
      · exact hinv.takes htakes (hrows n hnext)
  | release req =>
      obtain ⟨⟨ret, S'⟩, hrelease, rfl⟩ := Option.map_eq_some_iff.mp hstep
      rcases e1apBearerCtxRelease_commits (hinv.stored _) hrelease with rfl | ⟨n, hn, hcommits⟩
      · exact hinv
      · exact hinv.commits hcommits hn

/-- The UE set up by a request is recorded with the CU-CP id its row has. -/
theorem setup_cucpKept {req : E1apBearerCtxSetupReq} {rsp : E1apBearerCtxSetupRsp}
    (hkept : CucpKept R) (hrows : RowsUnshared R (.setup env req rsp))
    (h : identityStep R (.setup env req rsp) = some R') : CucpKept R' := by
  obtain ⟨S', hstep, rfl⟩ := Option.map_eq_some_iff.mp h
  obtain ⟨⟨ret, rsp', S'⟩, hsetup, rfl⟩ := Option.map_eq_some_iff.mp hstep
  rcases e1apBearerCtxSetup_takes hsetup with ⟨hheads, hkeys⟩ | ⟨id, n, hnext, habs, htakes⟩
  · refine cucpKept_of_heads hkept hheads ?_ fun id hid => if_neg fun hnew => hid hnew.1
    intro id m hm
    rw [← hkeys]
    exact hm
  · refine cucpKept_of_takes hkept htakes (fun id' hid' => absurd hid' (hrows n hnext id')) ?_ ?_
    · intro id' hid
      refine if_neg fun hnew => hnew.2 ?_
      rw [htakes.others id' hid]
      exact hnew.1
    · intro m hm
      have hrow : m = n := by
        rcases htakes.own with heq | hnone | hrow
        · rw [heq, habs] at hm
          cases hm
        · rw [hnone] at hm
          cases hm
        · exact Option.some.inj (hm.symm.trans hrow)
      subst hrow
      rw [htakes.cucp]
      exact if_pos ⟨habs, by rw [hm]; exact Option.some_ne_none m⟩

theorem release_cucpKept {req : E1apBearerCtxReleaseCmd} (hinv : R.cuup.ue.KeysStored)
    (hkept : CucpKept R) (h : identityStep R (.release req) = some R') : CucpKept R' := by
  obtain ⟨S', hstep, rfl⟩ := Option.map_eq_some_iff.mp h
  obtain ⟨⟨ret, S'⟩, hrelease, rfl⟩ := Option.map_eq_some_iff.mp hstep
  rcases e1apBearerCtxRelease_commits (hinv.stored _) hrelease with rfl | ⟨n, hn, hcommits⟩
  · exact hkept
  · exact cucpKept_of_heads hkept hcommits.head (fun _ _ hm => hcommits.row_before hn hm)
      fun _ _ => rfl

/-- What the two checks come to for a UE that is committed. -/
theorem pastIdentity_iff {S : Cuup D} {req : E1apBearerCtxModifyReq} {old : UeIdx}
    (hk : S.ue.rowOf req.cuupUeId = some old) (hfit : (S.ue.ueCtxTable old).CountsFit) :
    PastIdentity S req ↔
      ∃ n, nextUeRow S.ue = some n ∧ (S.ue.ueCtxTable n).cucpUeId = req.cucpUeId := by
  cases hnext : nextUeRow S.ue with
  | none =>
      constructor
      · rintro ⟨n, U, hmodify, -⟩
        rw [ueCtxModify_of_full hnext] at hmodify
        cases hmodify
      · rintro ⟨n, hn, -⟩
        cases hn
  | some n =>
      obtain ⟨V, hmodify, -, htakes⟩ := ueCtxModify_takes hk hfit hnext
      constructor
      · rintro ⟨m, U, hgot, hsame⟩
        obtain ⟨hm, rfl⟩ := Prod.mk.inj (Option.some.inj (hgot.symm.trans hmodify))
        obtain rfl := Option.some.inj hm
        exact ⟨m, rfl, htakes.cucp.symm.trans hsame⟩
      · rintro ⟨m, hm, hsame⟩
        obtain rfl := Option.some.inj hm
        exact ⟨n, V, hmodify, htakes.cucp.trans hsame⟩

theorem not_pastIdentity {S : Cuup D} {req : E1apBearerCtxModifyReq}
    (hk : S.ue.rowOf req.cuupUeId = none) : ¬ PastIdentity S req := by
  rintro ⟨n, U, hmodify, -⟩
  rw [ueCtxModify_of_absent hk] at hmodify
  cases hmodify

/-- While contexts have the ids they were set up with, the checks are right exactly when the
leftover id fits. -/
theorem identityChecked_iff {req : E1apBearerCtxModifyReq} {rsp : E1apBearerCtxModifyRsp}
    (hinv : R.cuup.ue.KeysStored) (hkept : CucpKept R) :
    IdentityChecked R (.modify env req rsp) ↔ LeftoverFits R (.modify env req rsp) := by
  cases hk : R.cuup.ue.rowOf req.cuupUeId with
  | none =>
      constructor
      · intro _ old hold
        rw [hk] at hold
        cases hold
      · intro _ _
        refine iff_of_false (not_pastIdentity hk) ?_
        rw [hk]
        exact fun h => nomatch h.1
  | some old =>
      have hset : R.setUpWith req.cuupUeId = some req.cucpUeId ↔
          (R.cuup.ue.ueCtxTable old).cucpUeId = req.cucpUeId := by
        rw [hkept _ _ hk]
        exact ⟨Option.some.inj, congrArg some⟩
      have hpast := pastIdentity_iff hk (hinv.fit old)
      constructor
      · intro h old' hold' hfree
        obtain rfl := Option.some.inj (hk.symm.trans hold')
        have hchecked := h hfree
        rw [hpast, hset, hk] at hchecked
        exact hchecked.trans (and_iff_right rfl)
      · intro h hfree
        rw [hpast, hset, hk]
        exact (h old hk hfree).trans (and_iff_right rfl).symm

theorem modify_cucpKept {req : E1apBearerCtxModifyReq} {rsp : E1apBearerCtxModifyRsp}
    (hinv : R.cuup.ue.KeysStored) (hkept : CucpKept R)
    (hrows : RowsUnshared R (.modify env req rsp))
    (hchecked : IdentityChecked R (.modify env req rsp))
    (h : identityStep R (.modify env req rsp) = some R') : CucpKept R' := by
  obtain ⟨S', hstep, rfl⟩ := Option.map_eq_some_iff.mp h
  obtain ⟨⟨ret, rsp', S'⟩, hmodify, rfl⟩ := Option.map_eq_some_iff.mp hstep
  rcases e1apBearerCtxModify_takes hinv.fit hmodify with
    rfl | ⟨old, n, hold, hnext, htakes, hrefused⟩
  · exact hkept
  refine cucpKept_of_takes hkept htakes (hrows n hnext) (fun _ _ => rfl) ?_
  intro m hm
  change R.setUpWith req.cuupUeId = some (S'.ue.ueCtxTable m).cucpUeId
  -- The row the UE had, and the row it is given.
  have stays (hm : R.cuup.ue.rowOf req.cuupUeId = some m) :
      R.setUpWith req.cuupUeId = some (S'.ue.ueCtxTable m).cucpUeId := by
    rw [hkept _ _ hm]
    by_cases hmn : m = n
    · subst hmn
      rw [htakes.cucp]
    · rw [(htakes.head m hmn).cucpUeId]
  by_cases hsame : (R.cuup.ue.ueCtxTable n).cucpUeId = req.cucpUeId
  · rcases htakes.own with heq | hnone | hrow
    · exact stays (heq.symm.trans hm)
    · rw [hnone] at hm
      cases hm
    · obtain rfl := Option.some.inj (hrow.symm.trans hm)
      have hpast := (pastIdentity_iff hold (hinv.fit old)).mpr ⟨n, hnext, hsame⟩
      rw [((hchecked ⟨n, nextUeRow_unused hnext⟩).mp hpast).2, htakes.cucp, hsame]
  · rw [hrefused hsame] at hm
    exact stays hm

/-- What one call keeps and checks. -/
theorem identityStep_iff (hinv : R.cuup.ue.KeysStored) (hrows : RowsUnshared R call)
    (hkept : CucpKept R) :
    (IdentityChecked R call ∧ ∀ R', identityStep R call = some R' → CucpKept R') ↔
      LeftoverFits R call := by
  cases call with
  | setup env req rsp =>
      exact iff_of_true ⟨trivial, fun _ h => setup_cucpKept hkept hrows h⟩ trivial
  | modify env req rsp =>
      rw [← identityChecked_iff hinv hkept]
      exact and_iff_left_of_imp fun hchecked _ h => modify_cucpKept hinv hkept hrows hchecked h
  | release req =>
      exact iff_of_true ⟨trivial, fun _ h => release_cucpKept hinv hkept h⟩ trivial

end Step

/-! ### Every run -/

/-- While no row is handed out that another UE is committed to, every identity check of a run
is right and every UE keeps its CU-CP id exactly when, at every modification, the id left in
the row that is handed out fits as the UE's own does. -/
theorem ueIdentity_iff (D : Dpdk) (calls : List (E1apCall D))
    (h : Along identityStep RowsUnshared (IdentityRun.start D) calls) :
    (Always identityStep CucpKept (IdentityRun.start D) calls ∧
        Along identityStep IdentityChecked (IdentityRun.start D) calls) ↔
      Along identityStep LeftoverFits (IdentityRun.start D) calls :=
  always_along_iff_of_inv (fun _ _ _ hinv hrows hstep => identityStep_keysStored hinv hrows hstep)
    (fun _ _ hinv hrows hkept => identityStep_iff hinv hrows hkept)
    (UeCtxTable.KeysStored.init D) (fun _ _ hn => nomatch hn) h

/-- A UE is set up under CU-CP id 0, which is the one left in a row nobody has used, and is
modified. -/
theorem ueIdentity_iff_zero :
    Always identityStep CucpKept (IdentityRun.start listDpdk)
        [zeroSetup, zeroSetup, .modify upfEnv addSessionReq modifyRsp] ∧
      Along identityStep IdentityChecked (IdentityRun.start listDpdk)
        [zeroSetup, zeroSetup, .modify upfEnv addSessionReq modifyRsp] := by
  have hdec : ((e1apStep (Cuup.init listDpdk) zeroSetup).bind fun S₁ =>
      (e1apStep S₁ zeroSetup).bind fun S₂ => (S₂.ue.rowOf 1).bind fun old =>
        (nextUeRow S₂.ue).map fun n => decide ((S₂.ue.ueCtxTable old).cucpUeId = 0 ∧
          (S₂.ue.ueCtxTable n).cucpUeId = 0)) = some true := by
    decide
  obtain ⟨S₁, h₁, hdec⟩ := Option.bind_eq_some_iff.mp hdec
  obtain ⟨S₂, h₂, hdec⟩ := Option.bind_eq_some_iff.mp hdec
  obtain ⟨old, hold, hdec⟩ := Option.bind_eq_some_iff.mp hdec
  obtain ⟨n, hn, hdec⟩ := Option.map_eq_some_iff.mp hdec
  obtain ⟨hcucp, hleft⟩ := of_decide_eq_true hdec
  -- The first setup is refused; the second one commits UE 1 and no other.
  have hempty (id : UInt32) : S₁.ue.rowOf id = none := by
    have hrefused : e1apStep (Cuup.init listDpdk) zeroSetup =
        some ⟨TunnelTable.init listDpdk, (UeCtxTable.init listDpdk).cleared⟩ := rfl
    obtain rfl := Option.some.inj (hrefused.symm.trans h₁)
    exact cleared_rowOf
  have honly (id : UInt32) (m : UeIdx) (hid : S₂.ue.rowOf id = some m) : id = 1 := by
    obtain ⟨⟨ret, rsp', S'⟩, hsetup, rfl⟩ := Option.map_eq_some_iff.mp h₂
    rcases e1apBearerCtxSetup_takes hsetup with ⟨-, hkeys⟩ | ⟨id', k, -, -, htakes⟩
    · rw [hkeys, hempty] at hid
      cases hid
    · have hnew (j : UInt32) (i : UeIdx) (hj : S'.ue.rowOf j = some i) : j = id' := by
        by_contra hne
        rw [htakes.others j hne, hempty] at hj
        cases hj
      exact (hnew id m hid).trans (hnew 1 old hold).symm
  have run {P : IdentityRun listDpdk → E1apCall listDpdk → Prop}
      (hfirst : P (IdentityRun.start listDpdk) zeroSetup)
      (hsecond : ∀ R : IdentityRun listDpdk, R.cuup = S₁ → P R zeroSetup)
      (hthird : ∀ R : IdentityRun listDpdk, R.cuup = S₂ →
        P R (.modify upfEnv addSessionReq modifyRsp)) :
      Along identityStep P (IdentityRun.start listDpdk)
        [zeroSetup, zeroSetup, .modify upfEnv addSessionReq modifyRsp] := by
    refine ⟨hfirst, ?_⟩
    intro R₁ hR₁
    obtain ⟨S, hS, rfl⟩ := Option.map_eq_some_iff.mp hR₁
    obtain rfl := Option.some.inj (h₁.symm.trans hS)
    refine ⟨hsecond _ rfl, ?_⟩
    intro R₂ hR₂
    obtain ⟨S, hS, rfl⟩ := Option.map_eq_some_iff.mp hR₂
    obtain rfl := Option.some.inj (h₂.symm.trans hS)
    exact ⟨hthird _ rfl, fun _ _ => trivial⟩
  refine (ueIdentity_iff listDpdk _ (run ?_ ?_ ?_)).mpr (run trivial (fun _ _ => trivial) ?_)
  · intro m _ id hid
    cases hid
  · intro R hR m _ id hid
    rw [hR, hempty] at hid
    cases hid
  · intro R hR m _ id hid
    rw [hR] at hid
    exact honly id m hid
  · intro R hR old' hold' _
    rw [hR] at hold' ⊢
    obtain rfl := Option.some.inj (hold.symm.trans hold')
    exact iff_of_true ⟨n, hn, hleft⟩ hcucp

/-- A modification of UE 1 that names it by the CU-CP id of `oneSetup`. -/
def ownCucpReq : E1apBearerCtxModifyReq := { addSessionReq with cucpUeId := 9 }

/-- UE 1 is set up under CU-CP id 9, and a modification that names it by both ids is refused:
it is compared with a row that nobody has used. -/
theorem own_cucp_id_refused :
    ¬ ∀ calls, Always identityStep CucpKept (IdentityRun.start listDpdk) calls ∧
      Along identityStep IdentityChecked (IdentityRun.start listDpdk) calls := by
  intro h
  have hdec : ((exec identityStep (IdentityRun.start listDpdk) [oneSetup, oneSetup]).bind fun R =>
      (R.cuup.ue.rowOf 1).bind fun _ => (nextUeRow R.cuup.ue).bind fun _ =>
        (ueCtxModify R.cuup.ue 1).bind fun out => out.1.map fun n =>
          decide (R.setUpWith 1 = some 9 ∧ (out.2.ueCtxTable n).cucpUeId = 0)) = some true := by
    decide
  obtain ⟨R, hR, hdec⟩ := Option.bind_eq_some_iff.mp hdec
  obtain ⟨old, hold, hdec⟩ := Option.bind_eq_some_iff.mp hdec
  obtain ⟨free, hfree, hdec⟩ := Option.bind_eq_some_iff.mp hdec
  obtain ⟨⟨got, U⟩, hmodify, hdec⟩ := Option.bind_eq_some_iff.mp hdec
  obtain ⟨n, rfl, hdec⟩ := Option.map_eq_some_iff.mp hdec
  obtain ⟨hset, hleft⟩ := of_decide_eq_true hdec
  have hcommitted : (R.cuup.ue.rowOf 1).isSome = true := by
    rw [hold]
    rfl
  have hchecked : IdentityChecked R (.modify upfEnv ownCucpReq modifyRsp) :=
    ((h ([oneSetup, oneSetup] ++ [.modify upfEnv ownCucpReq modifyRsp])).2.drop hR).1
  obtain ⟨m, U', hmodify', hsame⟩ :=
    (hchecked ⟨free, nextUeRow_unused hfree⟩).mpr ⟨hcommitted, hset⟩
  obtain ⟨hm, rfl⟩ := Prod.mk.inj (Option.some.inj (hmodify.symm.trans hmodify'))
  obtain rfl := Option.some.inj hm
  rw [hleft] at hsame
  cases hsame

end Pfm
