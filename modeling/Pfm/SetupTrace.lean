import Pfm.LookupAgreement
import Pfm.SessionRefusal
import Pfm.UeCtxInvariant

/-!
# The trace of a failed setup

A setup request that finds no id or no row for the UE fails and leaves no trace.
One that has them and sets no PDU session up commits the context it was to give
up: the removal finds no entry to undo, and the commit that follows makes one.

* `SameFootprint` : the ids and keys committed and the flags of all rows agree;
* `RefusedAtOnce` : no id or no row for the UE;
* `setup_no_trace_iff` : when a failed setup leaves no trace.
-/

namespace Pfm

open BoundedLoop StepSystem UeCtxTable

variable {D : Dpdk} {env : Env D} {S S' : Cuup D} {U U' : UeCtxTable D} {id : UInt32}
  {n : UeIdx}

/-- The same ids and keys are committed, and every row has the same used flag. -/
structure SameFootprint (S S' : Cuup D) : Prop where
  ids : ∀ id, (S'.ue.rowOf id).isSome = (S.ue.rowOf id).isSome
  keys : ∀ k, (S'.tun.rowOf k).isSome = (S.tun.rowOf k).isSome
  ueRows : ∀ n, S'.ue.used n = S.ue.used n
  tunnelRows : ∀ r, S'.tun.used r = S.tun.used r

/-- The table is not up yet, or has no id or no row for one more UE. -/
def RefusedAtOnce (U : UeCtxTable D) : Prop :=
  U.ueCtxHashtable = none ∨ NoUeId U ∨ NoUeRow U

/-- A free id leaves room in the hash. -/
theorem UeTableValid.room (h : UeTableValid U) {t : D.ueHash.Table}
    (hup : U.ueCtxHashtable = some t) (hid : IsUeId id) (habs : U.rowOf id = none) :
    (D.ueHash.keys t).card < maxUeCount := by
  obtain ⟨i, rfl⟩ := hid
  have hsub : D.ueHash.keys t ⊆ (Finset.univ.erase i).image ueId := by
    intro k hk
    have hkey : (U.rowOf k).isSome = true := by
      rw [rowOf, Option.isSome_map, entry, hup]
      exact (D.ueHash.mem_keys t k).mp hk
    obtain ⟨j, rfl⟩ := h.keys k hkey
    refine Finset.mem_image.mpr ⟨j, Finset.mem_erase.mpr ⟨?_, Finset.mem_univ j⟩, rfl⟩
    intro hij
    rw [hij, habs] at hkey
    cases hkey
  calc (D.ueHash.keys t).card
      ≤ ((Finset.univ.erase i).image ueId).card := Finset.card_le_card hsub
    _ ≤ (Finset.univ.erase i).card := Finset.card_image_le
    _ < (Finset.univ : Finset (Fin maxUeCount)).card :=
        Finset.card_erase_lt_of_mem (Finset.mem_univ i)
    _ = maxUeCount := Finset.card_fin maxUeCount

/-- Committing a context under an id that is not committed does not fail: there is
room for the id. -/
theorem UeTableValid.commit_new (h : UeTableValid S.ue) (hacc : D.ueHash.Accepts)
    (hup : S.ue.ueCtxHashtable.isSome = true)
    (habs : S.ue.rowOf (S.ue.ueCtxTable n).cuupUeId = none) {ret : PfmRetval}
    (hc : ueCtxCommit S (some n) = some (ret, S')) : ret ≠ .failed := by
  obtain ⟨hc⟩ := ueCtxCommit_cases hup hc
  have hcases := ueCtxCommitEntry_cases (S.ue.setRow n
    ((S.ue.ueCtxTable n).packed hc.drbList hc.drbCount hc.pdusList)) n
  rw [hc.entry, setRow_self] at hcases
  have hentry : S.ue.entry (S.ue.ueCtxTable n).cuupUeId = none := rowOf_eq_none_iff.mp habs
  simp only at hcases
  generalize S'.ue = U' at hcases
  cases hcases with
  | down hash =>
      rw [setRow_hash] at hash
      simp [hash] at hup
  | inserted | kept | replaced => simp
  | refused _ _ _ full =>
      obtain ⟨t, ht, hfull⟩ := full hacc
      exact absurd hfull (Nat.not_le.mpr (h.room ht (h.rows n) habs))
  | deleted _ _ mapped =>
      rw [setRow_entry] at mapped
      exact absurd (hentry.symm.trans mapped) (by simp)

/-- The row handed out for a new UE keeps its id and its flag while it is served. -/
theorem setupStart_row (U : UeCtxTable D) (n : UeIdx) (id : UInt32) (T : TunnelTable D)
    (req : E1apBearerCtxSetupReq) (rsp : E1apBearerCtxSetupRsp) :
    (setupStart T (U.takeRow n id) n req rsp).ctx.cuupUeId = id ∧
      (setupStart T (U.takeRow n id) n req rsp).ctx.isRowUsed = true ∧
      (setupStart T (U.takeRow n id) n req rsp).ctx.Bare := by
  refine ⟨?_, ?_, ⟨rfl, rfl⟩⟩
  · change ((U.takeRow n id).ueCtxTable n).cuupUeId = id
    rw [takeRow_self]
  · change ((U.takeRow n id).ueCtxTable n).isRowUsed = true
    rw [takeRow_self]

/-- A request that is not refused at once is given an id and a row. -/
theorem alloc_add_of_not_refused (env : Env D) (hcond : ¬ RefusedAtOnce U) :
    ∃ id U₁ n, ueCtxIdAlloc env U = (some id, U₁) ∧
      ueCtxAdd env U₁ id = (some n, U₁.takeRow n id) ∧ U₁.ueCtxHashtable = U.ueCtxHashtable ∧
      U₁.ueCtxTable = U.ueCtxTable ∧ U.rowOf id = none ∧ IsUeId id ∧ U.used n = false := by
  have hup : U.ueCtxHashtable.isSome = true :=
    Option.isSome_iff_ne_none.mpr fun hdown => hcond (Or.inl hdown)
  rcases ueCtxIdAlloc_cases env U with ⟨hdown, _⟩ | ⟨_, he⟩
  · exact absurd (Or.inl hdown) hcond
  · rcases ueCtxIdSearch_cases hup with ⟨hno, _⟩ | ⟨i, hfree, _, hs⟩
    · exact absurd (Or.inr (Or.inl hno)) hcond
    · let U₁ : UeCtxTable D := { U with lastAssignedId := i }
      have hadd : ueCtxAdd env U₁ (ueId i) = ueCtxAlloc U₁ (ueId i) :=
        ueCtxAdd_of_absent hup hfree
      rcases ueCtxAlloc_cases U₁ (ueId i) with ⟨hno, _⟩ | ⟨n, hun, _, ha⟩
      · exact absurd (Or.inr (Or.inr hno)) hcond
      · exact ⟨ueId i, U₁, n, he.trans hs, hadd.trans ha, rfl, rfl, hfree, ⟨i, rfl⟩, hun⟩

/-- **The trace.**  With an id and a row, and no session set up, the setup fails and
the row it took is used afterwards. -/
theorem setup_trace_of_refused (hcond : ¬ RefusedAtOnce S.ue)
    {req : E1apBearerCtxSetupReq} {T' : TunnelTable D}
    (href : sessionsRefused env req.pdusList req.pdusCount S.tun = some T')
    (rsp : E1apBearerCtxSetupRsp) :
    ∃ rsp' S' n, e1apBearerCtxSetup env S req rsp = some (.failed, rsp', S') ∧
      S.ue.used n = false ∧ S'.ue.used n = true := by
  obtain ⟨id, U₁, n, halloc, hadd, hhash, _, habs, _, hun⟩ :=
    alloc_add_of_not_refused env hcond
  obtain ⟨hstored, hused, hbare⟩ := setupStart_row U₁ n id S.tun req rsp
  obtain ⟨w, hserve, rfl, hctx, hsucc, _⟩ :=
    e1apSetupPdus_of_refused (w := setupStart S.tun (U₁.takeRow n id) n req rsp) hbare rfl rfl
      href
  let S₁ : Cuup D := w.tables (U₁.takeRow n id) n
  have hrow : S₁.ue.ueCtxTable n = w.ctx := setRow_self _
  have hup : S₁.ue.ueCtxHashtable.isSome = true := by
    change U₁.ueCtxHashtable.isSome = true
    rw [hhash]
    exact Option.isSome_iff_ne_none.mpr fun hdown => hcond (Or.inl hdown)
  have habs₁ : S₁.ue.rowOf id = none := by
    change U₁.rowOf id = none
    rw [rowOf, entry, hhash]
    exact habs
  obtain ⟨ret₁, _, hremove⟩ := ueCtxRemove_of_absent habs₁
  have hcommit := ueCtxCommit_of_bare (n := n) hup (by rw [hrow, hctx]; exact hbare)
  have hkept : (ueCtxCommitEntry S₁.ue n).2.ueCtxTable = S₁.ue.ueCtxTable := by
    refine ueCtxCommitEntry_of_absent ?_
    rw [hrow, hctx, hstored]
    exact habs₁
  refine ⟨e1apBearerSetupFail req.cucpUeId
    ((ueCtxCommitEntry S₁.ue n).2.ueCtxTable n).cucpUeId .rnlUnspecified w.rsp,
    ⟨S₁.tun, (ueCtxCommitEntry S₁.ue n).2⟩, n, ?_, hun, ?_⟩
  · have hserve' : forRange (e1apSetupPdus env req) req.pdusCount
        ⟨S.tun, ((U₁.takeRow n id).ueCtxTable n).fill req.cucpUeId, { rsp with
          cuupUeId := (((U₁.takeRow n id).ueCtxTable n).fill req.cucpUeId).cuupUeId
          cucpUeId := (((U₁.takeRow n id).ueCtxTable n).fill req.cucpUeId).cucpUeId
          cause := .none
          pdusSetupSuccCount := 0
          pdusSetupFailCount := 0 }⟩ = some w := hserve
    have hremove' : ueCtxRemove ⟨w.tun, (U₁.takeRow n id).setRow n w.ctx⟩ id =
        some (ret₁, S₁) := hremove
    simp only [e1apBearerCtxSetup, halloc, hadd, hserve', hsucc, hremove', hcommit,
      Option.bind_eq_bind, Option.bind_some, if_true]
  · rw [used, hkept, hrow, hctx, hused]

/-- An id is given by a table that is up and has one. -/
theorem ueCtxIdAlloc_some {U₁ : UeCtxTable D} (h : ueCtxIdAlloc env U = (some id, U₁)) :
    U.ueCtxHashtable.isSome = true ∧ ¬ NoUeId U ∧ U.rowOf id = none ∧ IsUeId id ∧
      ∃ i, U₁ = { U with lastAssignedId := i } := by
  rcases ueCtxIdAlloc_cases env U with ⟨_, he | he⟩ | ⟨hup, he⟩
  · rw [he] at h
    cases h
  · rw [he] at h
    cases h
  · rw [he] at h
    rcases ueCtxIdSearch_cases hup with ⟨_, hs⟩ | ⟨i, hfree, hne, hs⟩
    · rw [hs] at h
      cases h
    · rw [hs] at h
      cases h
      exact ⟨hup, fun hno => hno i hne hfree, hfree, ⟨i, rfl⟩, i, rfl⟩

/-- A row is handed out by a table that has one. -/
theorem ueCtxAdd_some {U₁ : UeCtxTable D} (hup : U.ueCtxHashtable.isSome = true)
    (habs : U.rowOf id = none) (h : ueCtxAdd env U id = (some n, U₁)) :
    ¬ NoUeRow U ∧ U₁ = U.takeRow n id := by
  rw [ueCtxAdd_of_absent hup habs] at h
  rcases ueCtxAlloc_cases U id with ⟨_, he⟩ | ⟨n', hun, hne, he⟩
  · rw [he] at h
    cases h
  · rw [he] at h
    cases h
    refine ⟨fun hno => ?_, rfl⟩
    have hu := hno n hne
    simp [hun] at hu

theorem ueCtxAdd_none {U₁ : UeCtxTable D} (hup : U.ueCtxHashtable.isSome = true)
    (habs : U.rowOf id = none) (h : ueCtxAdd env U id = (none, U₁)) : U₁ = U := by
  rw [ueCtxAdd_of_absent hup habs] at h
  rcases ueCtxAlloc_cases U id with ⟨_, he⟩ | ⟨n', _, _, he⟩
  · rw [he] at h
    cases h
    rfl
  · rw [he] at h
    cases h

/-- The failures that leave no trace. -/
theorem UeTableValid.setup_no_trace (h : UeTableValid S.ue) (hacc : D.ueHash.Accepts)
    {req : E1apBearerCtxSetupReq} {rsp rsp' : E1apBearerCtxSetupRsp}
    (hcond : RefusedAtOnce S.ue ∨
      sessionsRefused env req.pdusList req.pdusCount S.tun = none)
    (hsetup : e1apBearerCtxSetup env S req rsp = some (.failed, rsp', S')) :
    SameFootprint S S' := by
  have hcases := e1apBearerCtxSetup_cases hsetup
  generalize hret : PfmRetval.failed = ret at hcases
  cases hcases with
  | noId U _ alloc =>
      rcases ueCtxIdAlloc_cases env S.ue with ⟨hdown, he | he⟩ | ⟨hup, he⟩
      · rw [he] at alloc
        cases alloc
        exact ⟨fun _ => rfl, fun _ => rfl, fun _ => rfl, fun _ => rfl⟩
      · rw [he] at alloc
        cases alloc
        refine ⟨fun id => ?_, fun _ => rfl, fun n => ?_, fun _ => rfl⟩
        · rw [cleared_rowOf, rowOf_of_down hdown]
        · rw [h.down hdown n]
          rfl
      · rw [he] at alloc
        rcases ueCtxIdSearch_cases hup with ⟨_, hs⟩ | ⟨i, _, _, hs⟩
        · rw [hs] at alloc
          cases alloc
          exact ⟨fun _ => rfl, fun _ => rfl, fun _ => rfl, fun _ => rfl⟩
        · rw [hs] at alloc
          cases alloc
  | noRow id U U' _ alloc add =>
      obtain ⟨hup, _, habs, _, i, rfl⟩ := ueCtxIdAlloc_some alloc
      obtain rfl := ueCtxAdd_none (U := { S.ue with lastAssignedId := i }) hup habs add
      exact ⟨fun _ => rfl, fun _ => rfl, fun _ => rfl, fun _ => rfl⟩
  | noneServed id U U' n w ret₁ ret₂ S₁ S₂ _ alloc add serve none_served remove commit =>
      obtain ⟨hup, hid, habs, _, i, rfl⟩ := ueCtxIdAlloc_some alloc
      obtain ⟨hrow, rfl⟩ :=
        ueCtxAdd_some (U := { S.ue with lastAssignedId := i }) hup habs add
      obtain ⟨_, _, hbare⟩ :=
        setupStart_row { S.ue with lastAssignedId := i } n id S.tun req rsp
      obtain ⟨href, _⟩ := refused_of_e1apSetupPdus hbare serve none_served
      rcases hcond with (hdown | hno | hno) | hnone
      · simp [hdown] at hup
      · exact absurd hno hid
      · exact absurd hno hrow
      · exact absurd (hnone.symm.trans href) (by simp)
  | committed id U U' n w _ S₁ alloc add serve some_served commit done =>
      exact absurd hret.symm done
  | rolledBack id U U' n w ret₂ ret₃ S₁ S₂ S₃ _ alloc add serve some_served commit =>
      obtain ⟨hup, _, habs, hid, i, rfl⟩ := ueCtxIdAlloc_some alloc
      obtain ⟨_, rfl⟩ :=
        ueCtxAdd_some (U := { S.ue with lastAssignedId := i }) hup habs add
      obtain ⟨hstored, _⟩ :=
        setupStart_row { S.ue with lastAssignedId := i } n id S.tun req rsp
      have hctx := (e1apSetupPdus_head serve).cuupUeId.trans hstored
      have hvalid : UeTableValid (w.tables
          (UeCtxTable.takeRow { S.ue with lastAssignedId := i } n id) n).ue := by
        have hU : UeTableValid ({ S.ue with lastAssignedId := i } : UeCtxTable D) :=
          ⟨h.rows, h.keys, h.down⟩
        exact (hU.takeRow hup hid).setRow hup (hctx ▸ hid)
      refine absurd rfl (hvalid.commit_new hacc hup ?_ commit)
      have hrow : (w.tables (UeCtxTable.takeRow { S.ue with lastAssignedId := i } n id)
          n).ue.ueCtxTable n = w.ctx := setRow_self _
      rw [hrow, hctx]
      exact habs

/-- **When a failed setup leaves no trace.**  In every reachable state: exactly when
the request is refused before its sessions are looked at, or one of them is set up
and it does not fail. -/
theorem setup_no_trace_iff (hreach : CuupReachable S) (hacc : D.ueHash.Accepts)
    (env : Env D) (req : E1apBearerCtxSetupReq) (rsp : E1apBearerCtxSetupRsp) :
    (∀ rsp' S', e1apBearerCtxSetup env S req rsp = some (.failed, rsp', S') →
      SameFootprint S S') ↔
    RefusedAtOnce S.ue ∨ sessionsRefused env req.pdusList req.pdusCount S.tun = none := by
  constructor
  · intro hprop
    by_contra hcond
    obtain ⟨hnot, hsome⟩ := not_or.mp hcond
    obtain ⟨T', href⟩ := Option.ne_none_iff_exists'.mp hsome
    obtain ⟨rsp', S', n, hsetup, hun, hused⟩ := setup_trace_of_refused hnot href rsp
    have hsame := (hprop rsp' S' hsetup).ueRows n
    rw [hun, hused] at hsame
    cases hsame
  · intro hcond rsp' S' hsetup
    exact hreach.ueTableValid.setup_no_trace hacc hcond hsetup

/-- A setup request for one PDU session towards an address without a route. -/
def unroutedReq : E1apBearerCtxSetupReq := ⟨9, 1, fun _ => { onePdus with pdusUlIpAddr := 1 }⟩

/-- A refused session, and one that is set up. -/
def halfRoutedReq : E1apBearerCtxSetupReq :=
  ⟨9, 2, fun i => if i.val = 0 then { onePdus with pdusUlIpAddr := 1 } else onePdus⟩

/-- A session without DRBs, whose id is 5 in the one request and 0 in the other. -/
def noDrbReq (pdusId : UInt8) : E1apBearerCtxSetupReq :=
  ⟨9, 1, fun _ => { onePdus with pdusId := pdusId, drbCount := 0 }⟩

/-- With a UE and its tunnels committed: a request that is refused, one that is served, and one
whose session is given up with either id. -/
theorem setup_no_trace_iff_served :
    ∃ S : Cuup listDpdk, exec e1apStep (Cuup.init listDpdk) [oneSetup, oneSetup] = some S ∧
      ∀ req ∈ [unroutedReq, halfRoutedReq, noDrbReq 5, noDrbReq 0],
        ((∀ rsp' S', e1apBearerCtxSetup upfEnv S req setupRsp = some (.failed, rsp', S') →
            SameFootprint S S') ↔
          RefusedAtOnce S.ue ∨ sessionsRefused upfEnv req.pdusList req.pdusCount S.tun = none) := by
  have hrun : (exec e1apStep (Cuup.init listDpdk) [oneSetup, oneSetup]).isSome = true := by
    decide
  obtain ⟨S, hS⟩ := Option.isSome_iff_exists.mp hrun
  refine ⟨S, hS, fun req _ => ?_⟩
  exact setup_no_trace_iff ⟨_, hS⟩ (listHash_accepts UInt32 UeIdx maxUeCount) upfEnv req setupRsp

/-- The request fails, and UE id 1 is committed afterwards. -/
theorem unrouted_setup_leaves_ue :
    ¬ ∀ S : Cuup listDpdk, CuupReachable S → ∀ env req rsp rsp' S',
      e1apBearerCtxSetup env S req rsp = some (.failed, rsp', S') → SameFootprint S S' := by
  intro h
  have hdec : ((exec e1apStep (Cuup.init listDpdk) [oneSetup]).bind fun S =>
      (e1apBearerCtxSetup upfEnv S unroutedReq setupRsp).map fun out =>
        decide (out.1 = .failed ∧ (S.ue.rowOf 1).isSome = false ∧
          (out.2.2.ue.rowOf 1).isSome = true)) = some true := by
    decide
  obtain ⟨S, hS, hout⟩ := Option.bind_eq_some_iff.mp hdec
  obtain ⟨⟨ret, rsp', S'⟩, hsetup, hfacts⟩ := Option.map_eq_some_iff.mp hout
  obtain ⟨rfl, hbefore, hafter⟩ : ret = .failed ∧ (S.ue.rowOf 1).isSome = false ∧
      (S'.ue.rowOf 1).isSome = true := of_decide_eq_true hfacts
  have hsame := (h S ⟨[oneSetup], hS⟩ upfEnv unroutedReq setupRsp rsp' S' hsetup).ids 1
  rw [hbefore, hafter] at hsame
  cases hsame

end Pfm
