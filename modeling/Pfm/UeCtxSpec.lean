import Pfm.TunnelSpec
import Pfm.UeCtx

/-!
# What each UE-context function does

One lemma for each function of `ue_ctx.c` that works on the table and its hash,
by outcome, as `TunnelSpec` has them for `tunnel.c`.
-/

namespace Pfm

open BoundedLoop CircularScan

variable {D : Dpdk} {env : Env D} {U U' : UeCtxTable D} {id : UInt32} {n n' : UeIdx}

namespace UeCtxTable

@[simp] theorem setRow_hash (c : UeCtx) :
    (U.setRow n c).ueCtxHashtable = U.ueCtxHashtable := rfl

@[simp] theorem setRow_entry (c : UeCtx) : (U.setRow n c).entry = U.entry := rfl

@[simp] theorem setRow_rowOf (c : UeCtx) : (U.setRow n c).rowOf = U.rowOf := rfl

@[simp] theorem setRow_self (c : UeCtx) : (U.setRow n c).ueCtxTable n = c := by
  simp [setRow]

theorem setRow_of_ne (c : UeCtx) (h : n' ≠ n) :
    (U.setRow n c).ueCtxTable n' = U.ueCtxTable n' := by
  simp [setRow, h]

@[simp] theorem setUsed_hash (b : Bool) :
    (U.setUsed n b).ueCtxHashtable = U.ueCtxHashtable := rfl

@[simp] theorem setUsed_entry (b : Bool) : (U.setUsed n b).entry = U.entry := rfl

@[simp] theorem setUsed_rowOf (b : Bool) : (U.setUsed n b).rowOf = U.rowOf := rfl

theorem setUsed_self (b : Bool) : (U.setUsed n b).ueCtxTable n =
    { U.ueCtxTable n with isRowUsed := b } := by
  simp [setUsed]

theorem setUsed_of_ne (b : Bool) (h : n' ≠ n) :
    (U.setUsed n b).ueCtxTable n' = U.ueCtxTable n' :=
  setRow_of_ne _ h

@[simp] theorem takeRow_hash :
    (U.takeRow n id).ueCtxHashtable = U.ueCtxHashtable := rfl

@[simp] theorem takeRow_entry : (U.takeRow n id).entry = U.entry := rfl

@[simp] theorem takeRow_rowOf : (U.takeRow n id).rowOf = U.rowOf := rfl

theorem takeRow_self : (U.takeRow n id).ueCtxTable n =
    { U.ueCtxTable n with cuupUeId := id, isRowUsed := true } := by
  simp [takeRow, setRow]

theorem takeRow_of_ne (h : n' ≠ n) :
    (U.takeRow n id).ueCtxTable n' = U.ueCtxTable n' := by
  simp [takeRow, setRow, h]

@[simp] theorem cleared_entry : U.cleared.entry id = none := by
  simp [entry, cleared]

@[simp] theorem cleared_rowOf : U.cleared.rowOf id = none := by
  simp [rowOf]

theorem entry_of_down (h : U.ueCtxHashtable = none) : U.entry id = none := by
  simp [entry, h]

theorem rowOf_of_down (h : U.ueCtxHashtable = none) : U.rowOf id = none := by
  simp [rowOf, entry_of_down h]

theorem rowOf_eq_some_iff : U.rowOf id = some n ↔ ∃ p, U.entry id = some (p, n) := by
  simp only [rowOf, Option.map_eq_some_iff]
  constructor
  · intro hex
    obtain ⟨⟨p, n'⟩, h, rfl⟩ := hex
    exact ⟨p, h⟩
  · intro hex
    obtain ⟨p, h⟩ := hex
    exact ⟨(p, n), h, rfl⟩

theorem rowOf_eq_none_iff : U.rowOf id = none ↔ U.entry id = none := by
  simp [rowOf]

theorem up_of_rowOf (h : U.rowOf id = some n) : U.ueCtxHashtable.isSome = true := by
  cases hh : U.ueCtxHashtable with
  | none => simp [rowOf_of_down hh] at h
  | some _ => rfl

theorem not_isNone_of_up (h : U.ueCtxHashtable.isSome = true) :
    ¬ U.ueCtxHashtable.isNone = true := by
  rw [Option.isNone_iff_eq_none]
  exact Option.isSome_iff_ne_none.mp h

/-- The lookup of a committed id gives its position and its row. -/
theorem lookup_of_rowOf (h : U.rowOf id = some n) :
    ∃ p : Fin maxUeCount, D.ueHash.lookup U.ueCtxHashtable id = ((p.val : Int), some n) := by
  obtain ⟨p, hp⟩ := rowOf_eq_some_iff.mp h
  exact ⟨p, RteHash.lookup_of_entry hp⟩

end UeCtxTable

open UeCtxTable

/-- No id but the one under the cursor is free. -/
def NoUeId (U : UeCtxTable D) : Prop :=
  ∀ i, i ≠ U.lastAssignedId → U.rowOf (ueId i) ≠ none

/-- No row but the one under the cursor is free. -/
def NoUeRow (U : UeCtxTable D) : Prop :=
  ∀ n, n ≠ U.lastAllocatedSlot → U.used n = true

/-- The search for an id in a table that is up. -/
theorem ueCtxIdSearch_cases (hup : U.ueCtxHashtable.isSome = true) :
    (NoUeId U ∧ ueCtxIdSearch U = (none, U)) ∨
    ∃ i, U.rowOf (ueId i) = none ∧ i ≠ U.lastAssignedId ∧
      ueCtxIdSearch U = (some (ueId i), { U with lastAssignedId := i }) := by
  have hstop : ∀ j, idProbe (D.ueHash.lookup U.ueCtxHashtable (ueId j)).1 ≠ .stop := by
    intro j
    cases he : U.entry (ueId j) with
    | none => simp [idProbe_eq_take_iff.mpr ⟨hup, he⟩]
    | some x =>
        have : (D.ueHash.entry U.ueCtxHashtable (ueId j)).isSome := by
          rw [← UeCtxTable.entry, he]
          rfl
        simp [idProbe_eq_next_iff.mpr this]
  unfold ueCtxIdSearch
  cases hs : scan (fun i => idProbe (D.ueHash.lookup U.ueCtxHashtable (ueId i)).1)
      U.lastAssignedId with
  | none =>
      refine Or.inl ⟨fun i hi hnone => ?_, rfl⟩
      have := idProbe_eq_next_iff.mp ((scan_eq_none_iff hstop).mp hs i hi)
      rw [← UeCtxTable.entry, rowOf_eq_none_iff.mp hnone] at this
      cases this
  | some i =>
      refine Or.inr ⟨i, rowOf_eq_none_iff.mpr ?_, scan_ne_last hs, rfl⟩
      exact (idProbe_eq_take_iff.mp (scan_take hs)).2

/-- `ue_ctx_id_alloc` by outcome.  A table that is not up is set up, or not, and
either way no id is given. -/
theorem ueCtxIdAlloc_cases (env : Env D) (U : UeCtxTable D) :
    (U.ueCtxHashtable = none ∧ (ueCtxIdAlloc env U = (none, U) ∨
      ueCtxIdAlloc env U = (none, U.cleared))) ∨
    (U.ueCtxHashtable.isSome = true ∧ ueCtxIdAlloc env U = ueCtxIdSearch U) := by
  cases hh : U.ueCtxHashtable with
  | some h => exact Or.inr ⟨rfl, by simp [ueCtxIdAlloc, hh]⟩
  | none =>
      left
      refine ⟨rfl, ?_⟩
      cases hc : env.ueHashCreate with
      | true => exact Or.inr (by simp [ueCtxIdAlloc, ueCtxTableInit, hh, hc])
      | false =>
          left
          have hsearch : ueCtxIdSearch U = (none, U) := by
            have hstop : (fun i => idProbe
                (D.ueHash.lookup U.ueCtxHashtable (ueId i)).1) = fun _ => Probe.stop := by
              funext i
              simp [hh, idProbe, ENOENT, EINVAL]
            simp only [ueCtxIdSearch, hstop, scan_all_stop]
          have hsame : ({ U with ueCtxHashtable := none } : UeCtxTable D) = U := by
            cases U
            simp_all
          simp [ueCtxIdAlloc, ueCtxTableInit, hh, hc, hsame, hsearch]

/-- `ue_ctx_alloc` by outcome. -/
theorem ueCtxAlloc_cases (U : UeCtxTable D) (id : UInt32) :
    (NoUeRow U ∧ ueCtxAlloc U id = (none, U)) ∨
    ∃ n, U.used n = false ∧ n ≠ U.lastAllocatedSlot ∧
      ueCtxAlloc U id = (some n, U.takeRow n id) := by
  unfold ueCtxAlloc
  cases hs : scan (fun i => rowProbe (U.used i)) U.lastAllocatedSlot with
  | none =>
      refine Or.inl ⟨fun n hn => ?_, rfl⟩
      exact rowProbe_eq_next_iff.mp ((scan_eq_none_iff fun _ => rowProbe_ne_stop _).mp hs n hn)
  | some n => exact Or.inr ⟨n, rowProbe_eq_take_iff.mp (scan_take hs), scan_ne_last hs, rfl⟩

theorem ueCtxAlloc_none_iff : (ueCtxAlloc U id).1 = none ↔ NoUeRow U := by
  rcases ueCtxAlloc_cases U id with ⟨hno, he⟩ | ⟨n, hun, hne, he⟩
  · simp [he, hno]
  · simp only [he, reduceCtorEq, false_iff]
    intro hno
    simp [hno n hne] at hun

/-- `ue_ctx_add` of an id that is not committed, in a table that is up. -/
theorem ueCtxAdd_of_absent (hup : U.ueCtxHashtable.isSome = true)
    (habs : U.rowOf id = none) : ueCtxAdd env U id = ueCtxAlloc U id := by
  obtain ⟨h, hh⟩ := Option.isSome_iff_exists.mp hup
  have hl : D.ueHash.lookup U.ueCtxHashtable id = (-ENOENT, none) := by
    rw [hh]
    refine RteHash.lookup_of_absent ?_
    rw [← hh, ← UeCtxTable.entry]
    exact rowOf_eq_none_iff.mp habs
  simp [ueCtxAdd, hup, hl, ENOENT]

/-- `ue_ctx_remove` by outcome, up to the removal of the tunnels. -/
theorem ueCtxRemove_of_absent {S : Cuup D} (habs : S.ue.rowOf id = none) :
    ∃ ret, ret ≠ .success ∧ ueCtxRemove S id = some (ret, S) := by
  unfold ueCtxRemove
  cases hh : S.ue.ueCtxHashtable with
  | none => exact ⟨.failed, by simp, rfl⟩
  | some h =>
      have hl := RteHash.lookup_of_absent
        (H := D.ueHash) (t := h) (k := id) (by
          have := rowOf_eq_none_iff.mp habs
          rwa [UeCtxTable.entry, hh] at this)
      exact ⟨.notFound, by simp, by simp [hl, ENOENT]⟩

/-- A copy has the slots copied, and the rest of the list copied to. -/
theorem copyTunnels_get? {m count : Nat} {old new l : CArray m (Option TunnelIdx)}
    (h : copyTunnels old new count = some l) (i : Nat) :
    l.get? i = if i < count then old.get? i else new.get? i := by
  refine forRange_invariant (fun j l => l.get? i = if i < j then old.get? i else new.get? i)
    rfl ?_ h
  intro j k k' _ hk hturn
  obtain ⟨nt, hnt, hset⟩ := Option.bind_eq_some_iff.mp hturn
  rw [CArray.get?_set? hset]
  by_cases hij : i = j
  · rw [if_pos hij, if_pos (by omega), hij, hnt]
  · rw [if_neg hij, hk]
    by_cases hlt : i < j
    · rw [if_pos hlt, if_pos (by omega)]
    · rw [if_neg hlt, if_neg (by omega)]

/-- The row `ue_ctx_modify` builds: the tunnels of the old row `old`, or none when
it is the old row itself that was handed out. -/
def UeCtx.copied (ctx old : UeCtx) (same : Prop) [Decidable same]
    (pdusList : CArray maxPdusPerUe (Option TunnelIdx))
    (drbList : CArray maxDrbPerUe (Option TunnelIdx)) : UeCtx :=
  { ctx with
    pdusCount := if same then 0 else old.pdusCount
    pdusTunnelList := pdusList
    drbCount := if same then 0 else old.drbCount
    drbTunnelList := drbList }

/-- `ue_ctx_modify` of an id that is not committed. -/
theorem ueCtxModify_of_absent (habs : U.rowOf id = none) :
    ueCtxModify U id = some (none, U) := by
  have hl : (D.ueHash.lookup U.ueCtxHashtable id).2 = none := by
    rw [RteHash.lookup_data_eq]
    exact habs
  simp only [ueCtxModify, hl, ite_self]

/-- `ue_ctx_modify` by outcome: the id is not committed, or no row is free, or a
free row takes a copy of the committed one. -/
theorem ueCtxModify_cases {got : Option UeIdx} (h : ueCtxModify U id = some (got, U')) :
    (got = none ∧ U' = U) ∨
    ∃ n old pdusList drbList, got = some n ∧ U.rowOf id = some old ∧ U.used n = false ∧
      copyTunnels ((U.takeRow n id).ueCtxTable old).pdusTunnelList
        ((U.takeRow n id).ueCtxTable n).pdusTunnelList
        (if n = old then 0 else ((U.takeRow n id).ueCtxTable old).pdusCount) = some pdusList ∧
      copyTunnels ((U.takeRow n id).ueCtxTable old).drbTunnelList
        ((U.takeRow n id).ueCtxTable n).drbTunnelList
        (if n = old then 0 else ((U.takeRow n id).ueCtxTable old).drbCount) = some drbList ∧
      U' = (U.takeRow n id).setRow n (((U.takeRow n id).ueCtxTable n).copied
        ((U.takeRow n id).ueCtxTable old) (n = old) pdusList drbList) := by
  cases hk : U.rowOf id with
  | none =>
      rw [ueCtxModify_of_absent hk] at h
      simp only [Option.some.injEq, Prod.mk.injEq] at h
      exact Or.inl ⟨h.1.symm, h.2.symm⟩
  | some old =>
      unfold ueCtxModify at h
      obtain ⟨p, hl⟩ := lookup_of_rowOf hk
      have hup := not_isNone_of_up (up_of_rowOf hk)
      rw [if_neg hup] at h
      simp only [hl] at h
      rw [if_neg (by omega)] at h
      rcases ueCtxAlloc_cases U id with ⟨_, he⟩ | ⟨n, hun, _, he⟩
      · simp only [he, Option.some.injEq, Prod.mk.injEq] at h
        exact Or.inl ⟨h.1.symm, h.2.symm⟩
      · simp only [he] at h
        obtain ⟨pdusList, hpdus, h⟩ := Option.bind_eq_some_iff.mp h
        obtain ⟨drbList, hdrb, h⟩ := Option.bind_eq_some_iff.mp h
        simp only [Option.some.injEq, Prod.mk.injEq] at h
        exact Or.inr ⟨n, old, pdusList, drbList, h.1.symm, rfl, hun, hpdus, hdrb, h.2.symm⟩

/-- `ue_ctx_remove` by outcome: the id is not committed, or its tunnels are removed
and its row is marked free. -/
theorem ueCtxRemove_cases {S S' : Cuup D} {ret : PfmRetval}
    (h : ueCtxRemove S id = some (ret, S')) :
    (ret ≠ .success ∧ S.ue.rowOf id = none ∧ S' = S) ∨
    ∃ n T₁, ret = .success ∧ S.ue.rowOf id = some n ∧
      removeTunnels (S.ue.ueCtxTable n).pdusTunnelList (S.ue.ueCtxTable n).pdusCount
        S.tun = some T₁ ∧
      removeTunnels (S.ue.ueCtxTable n).drbTunnelList (S.ue.ueCtxTable n).drbCount
        T₁ = some S'.tun ∧
      S'.ue = S.ue.setUsed n false := by
  cases hk : S.ue.rowOf id with
  | none =>
      obtain ⟨ret', hret, he⟩ := ueCtxRemove_of_absent hk
      rw [he] at h
      simp only [Option.some.injEq, Prod.mk.injEq] at h
      exact Or.inl ⟨h.1 ▸ hret, rfl, h.2.symm⟩
  | some n =>
      right
      obtain ⟨p, hl⟩ := lookup_of_rowOf hk
      have hup := not_isNone_of_up (up_of_rowOf hk)
      unfold ueCtxRemove at h
      rw [if_neg hup] at h
      simp only [hl] at h
      rw [if_neg (by omega)] at h
      obtain ⟨T₁, hpdus, h⟩ := Option.bind_eq_some_iff.mp h
      obtain ⟨T₂, hdrb, h⟩ := Option.bind_eq_some_iff.mp h
      simp only [Option.some.injEq, Prod.mk.injEq] at h
      obtain ⟨rfl, rfl⟩ := h
      exact ⟨n, T₁, rfl, rfl, hpdus, hdrb, rfl⟩

/-- The end of `ue_ctx_commit` by outcome.  `id` is the id stored in the row. -/
inductive UeCommitOutcome (U : UeCtxTable D) (n : UeIdx) (id : UInt32) :
    PfmRetval → UeCtxTable D → Prop
  | down (hash : U.ueCtxHashtable = none) : UeCommitOutcome U n id .failed U
  | inserted (h : D.ueHash.Table) (p : Fin maxUeCount) (absent : U.entry id = none)
      (hash : D.ueHash.entry (some h) = Function.update U.entry id (some (p, n))) :
      UeCommitOutcome U n id .success { U with ueCtxHashtable := some h }
  | refused (h : D.ueHash.Table) (absent : U.entry id = none)
      (hash : D.ueHash.entry (some h) = U.entry)
      (full : D.ueHash.Accepts → ∃ t, U.ueCtxHashtable = some t ∧
        maxUeCount ≤ (D.ueHash.keys t).card) :
      UeCommitOutcome U n id .failed { U with ueCtxHashtable := some h }
  | kept (mapped : U.rowOf id = some n) (used : U.used n = true) :
      UeCommitOutcome U n id .success U
  | deleted (h : D.ueHash.Table) (p : Fin maxUeCount)
      (mapped : U.entry id = some (p, n)) (unused : U.used n = false)
      (hash : D.ueHash.entry (some h) = Function.update U.entry id none) :
      UeCommitOutcome U n id (if p.val = 0 then .success else .failed)
        { U with ueCtxHashtable := some h }
  | replaced (h : D.ueHash.Table) (p : Fin maxUeCount) (old : UeIdx)
      (mapped : U.entry id = some (p, old)) (ne : old ≠ n)
      (hash : D.ueHash.entry (some h) = Function.update U.entry id (some (p, n))) :
      UeCommitOutcome U n id .success
        { U.setUsed old false with ueCtxHashtable := some h }

theorem ueCtxCommitEntry_cases (U : UeCtxTable D) (n : UeIdx) :
    UeCommitOutcome U n (U.ueCtxTable n).cuupUeId
      (ueCtxCommitEntry U n).1 (ueCtxCommitEntry U n).2 := by
  unfold ueCtxCommitEntry
  cases hh : U.ueCtxHashtable with
  | none =>
      have hl : D.ueHash.lookup none (U.ueCtxTable n).cuupUeId = (-EINVAL, none) := rfl
      simp only [hl]
      exact .down hh
  | some h =>
      have hU : U.entry = D.ueHash.entry (some h) := by
        funext id
        rw [UeCtxTable.entry, hh]
      cases hk : U.entry (U.ueCtxTable n).cuupUeId with
      | none =>
          have habs := (congrFun hU _).symm.trans hk
          rcases RteHash.add_of_absent n habs with ⟨hcode, p, hadd⟩ | ⟨hcode, hadd⟩
          · simp only [RteHash.lookup_of_absent habs, hcode]
            exact .inserted _ p hk (by rw [hU]; exact hadd)
          · simp only [RteHash.lookup_of_absent habs, hcode]
            refine .refused _ hk (by rw [hU]; exact hadd) fun hacc => ⟨h, hh, ?_⟩
            by_contra hlt
            have h0 := hacc h (U.ueCtxTable n).cuupUeId n (by omega)
            simp only [RteHash.add, h0] at hcode
            omega
      | some x =>
          obtain ⟨p, old⟩ := x
          have hpres := (congrFun hU _).symm.trans hk
          simp only [RteHash.lookup_of_entry hpres]
          rw [if_neg (by omega)]
          by_cases hne : old = n
          · subst hne
            rw [if_pos rfl]
            cases hu : U.used old with
            | true => exact .kept (rowOf_eq_some_iff.mpr ⟨p, hk⟩) hu
            | false =>
                obtain ⟨hcode, hdel⟩ := RteHash.del_of_entry hpres
                have hret : (if (D.ueHash.del (some h) (U.ueCtxTable old).cuupUeId).1 ≠ 0
                    then PfmRetval.failed else .success) =
                    if p.val = 0 then .success else .failed := by
                  rw [hcode]
                  by_cases hp : p.val = 0 <;> simp [hp]
                simp only [Bool.false_eq_true, if_false, hret]
                exact .deleted _ p hk hu (by rw [hU]; exact hdel)
          · rw [if_neg hne]
            obtain ⟨hcode, hadd⟩ := RteHash.add_of_entry (d := n) hpres
            simp only [setUsed_hash, hh, hcode, ne_eq, not_true_eq_false, if_false]
            exact .replaced _ p old hk hne (by rw [hU]; exact hadd)

/-- The end of the commit leaves the row of the context as it is. -/
theorem ueCtxCommitEntry_row (U : UeCtxTable D) (n : UeIdx) :
    (ueCtxCommitEntry U n).2.ueCtxTable n = U.ueCtxTable n := by
  have hout := ueCtxCommitEntry_cases U n
  revert hout
  generalize (ueCtxCommitEntry U n).1 = ret
  generalize (ueCtxCommitEntry U n).2 = U'
  intro hout
  cases hout with
  | down | inserted | refused | kept | deleted => rfl
  | replaced h p old mapped ne hash => exact setUsed_of_ne _ (Ne.symm ne)

/-- The row of a context once its lists have been committed and packed. -/
def UeCtx.packed (ctx : UeCtx) (drbList : CArray maxDrbPerUe (Option TunnelIdx))
    (drbCount : Nat) (pdusList : CArray maxPdusPerUe (Option TunnelIdx)) : UeCtx :=
  { ctx with
    drbTunnelList := drbList
    drbCount := drbCount
    pdusTunnelList := pdusList }

/-- What `ue_ctx_commit` of row `n` did: the two lists committed and packed, one
after the other, and the row written back and committed. -/
structure UeCommitted (S : Cuup D) (n : UeIdx) (ret : PfmRetval) (S' : Cuup D) where
  tun₁ : TunnelTable D
  drbList₁ : CArray maxDrbPerUe (Option TunnelIdx)
  drbList : CArray maxDrbPerUe (Option TunnelIdx)
  drbCount : Nat
  pdusList₁ : CArray maxPdusPerUe (Option TunnelIdx)
  pdusList : CArray maxPdusPerUe (Option TunnelIdx)
  packedCount : Nat
  commitDrb : commitTunnels (S.ue.ueCtxTable n).drbCount
    (S.tun, (S.ue.ueCtxTable n).drbTunnelList) = some (tun₁, drbList₁)
  packDrb : packTunnels (fun l => l) (S.ue.ueCtxTable n).drbCount drbList₁ =
    some (drbList, drbCount)
  commitPdus : commitTunnels (S.ue.ueCtxTable n).pdusCount
    (tun₁, (S.ue.ueCtxTable n).pdusTunnelList) = some (S'.tun, pdusList₁)
  packPdus : packTunnels (fun _ => drbList) (S.ue.ueCtxTable n).pdusCount pdusList₁ =
    some (pdusList, packedCount)
  entry : ueCtxCommitEntry
    (S.ue.setRow n ((S.ue.ueCtxTable n).packed drbList drbCount pdusList)) n = (ret, S'.ue)

/-- `ue_ctx_commit` fails at once, or it is given a row and the table is up. -/
theorem ueCtxCommit_split {S S' : Cuup D} {ret : PfmRetval} {newCtx : Option UeIdx}
    (h : ueCtxCommit S newCtx = some (ret, S')) :
    (ret = .failed ∧ S' = S) ∨
      ∃ n, newCtx = some n ∧ S.ue.ueCtxHashtable.isSome = true := by
  cases hh : S.ue.ueCtxHashtable with
  | none =>
      simp only [ueCtxCommit, hh, Option.isNone_none, if_true, Option.some.injEq,
        Prod.mk.injEq] at h
      exact Or.inl ⟨h.1.symm, h.2.symm⟩
  | some t =>
      cases newCtx with
      | none =>
          simp only [ueCtxCommit, hh, Option.isNone_some, Bool.false_eq_true, if_false,
            Option.some.injEq, Prod.mk.injEq] at h
          exact Or.inl ⟨h.1.symm, h.2.symm⟩
      | some n => exact Or.inr ⟨n, rfl, rfl⟩

theorem ueCtxCommit_cases {S S' : Cuup D} {ret : PfmRetval}
    (hup : S.ue.ueCtxHashtable.isSome = true)
    (h : ueCtxCommit S (some n) = some (ret, S')) : Nonempty (UeCommitted S n ret S') := by
  have hdown := not_isNone_of_up hup
  unfold ueCtxCommit at h
  rw [if_neg hdown] at h
  simp only at h
  obtain ⟨⟨T₁, drbList₁⟩, hdrb, h⟩ := Option.bind_eq_some_iff.mp h
  obtain ⟨⟨drbList, drbCount⟩, hpack, h⟩ := Option.bind_eq_some_iff.mp h
  obtain ⟨⟨T₂, pdusList₁⟩, hpdus, h⟩ := Option.bind_eq_some_iff.mp h
  obtain ⟨⟨pdusList, count⟩, hpack', h⟩ := Option.bind_eq_some_iff.mp h
  simp only [Option.some.injEq, Prod.mk.injEq] at h
  obtain ⟨rfl, rfl⟩ := h
  exact ⟨⟨T₁, drbList₁, drbList, drbCount, pdusList₁, pdusList, count, hdrb, hpack, hpdus,
    hpack', rfl⟩⟩

/-- The commit of a context, from its parts. -/
theorem UeCommitted.run {S S' : Cuup D} {ret : PfmRetval} (hc : UeCommitted S n ret S')
    (hup : S.ue.ueCtxHashtable.isSome = true) : ueCtxCommit S (some n) = some (ret, S') := by
  have hdown := not_isNone_of_up hup
  have hentry := hc.entry
  unfold ueCtxCommit
  rw [if_neg hdown]
  refine Option.bind_eq_some_iff.mpr ⟨_, hc.commitDrb, ?_⟩
  refine Option.bind_eq_some_iff.mpr ⟨_, hc.packDrb, ?_⟩
  refine Option.bind_eq_some_iff.mpr ⟨_, hc.commitPdus, ?_⟩
  refine Option.bind_eq_some_iff.mpr ⟨_, hc.packPdus, ?_⟩
  change some ((ueCtxCommitEntry (S.ue.setRow n ((S.ue.ueCtxTable n).packed hc.drbList
    hc.drbCount hc.pdusList)) n).1, (⟨S'.tun, (ueCtxCommitEntry (S.ue.setRow n
      ((S.ue.ueCtxTable n).packed hc.drbList hc.drbCount hc.pdusList)) n).2⟩ : Cuup D)) = _
  rw [hentry]

/-- Committing a used row under a committed id makes it the row of that id. -/
theorem ueCtxCommitEntry_of_mapped {old : UeIdx}
    (hmapped : U.rowOf (U.ueCtxTable n).cuupUeId = some old) (hused : U.used n = true) :
    (ueCtxCommitEntry U n).1 = .success ∧
      (ueCtxCommitEntry U n).2.rowOf (U.ueCtxTable n).cuupUeId = some n ∧
      (ueCtxCommitEntry U n).2.ueCtxTable n = U.ueCtxTable n := by
  have hcases := ueCtxCommitEntry_cases U n
  obtain ⟨p, hp⟩ := rowOf_eq_some_iff.mp hmapped
  generalize hid : (U.ueCtxTable n).cuupUeId = id at hcases hp ⊢
  generalize ueCtxCommitEntry U n = res at hcases ⊢
  obtain ⟨ret, U'⟩ := res
  simp only at hcases ⊢
  cases hcases with
  | down hash => simp [entry_of_down hash] at hp
  | inserted t q absent => simp [absent] at hp
  | refused t absent => simp [absent] at hp
  | kept mapped used => exact ⟨rfl, mapped, rfl⟩
  | deleted t q mapped unused => simp [hused] at unused
  | replaced t q old' mapped ne hash =>
      refine ⟨rfl, ?_, setUsed_of_ne false ne.symm⟩
      rw [rowOf, entry, hash, Function.update_self]
      rfl

/-! ### The tunnels a context lists -/

/-- The row is in one of the two lists. -/
def UeCtx.Lists (ctx : UeCtx) (x : TunnelIdx) : Prop :=
  (∃ i, i < ctx.pdusCount ∧ ctx.pdusTunnelList.deref? i = some x) ∨
    ∃ i, i < ctx.drbCount ∧ ctx.drbTunnelList.deref? i = some x

/-- No NULL in either list. -/
structure UeCtx.Full (ctx : UeCtx) : Prop where
  pdus : ∀ i, i < ctx.pdusCount → ∃ x, ctx.pdusTunnelList.deref? i = some x
  drb : ∀ i, i < ctx.drbCount → ∃ x, ctx.drbTunnelList.deref? i = some x

/-! ### Contexts without tunnels -/

/-- Neither list has an entry. -/
structure UeCtx.Bare (ctx : UeCtx) : Prop where
  pdus : ctx.pdusCount = 0
  drb : ctx.drbCount = 0

/-- Committing a row without tunnels only makes it the one its id maps to. -/
theorem ueCtxCommit_of_bare {S : Cuup D} (hup : S.ue.ueCtxHashtable.isSome = true)
    (hb : (S.ue.ueCtxTable n).Bare) :
    ueCtxCommit S (some n) =
      some ((ueCtxCommitEntry S.ue n).1, ⟨S.tun, (ueCtxCommitEntry S.ue n).2⟩) := by
  have hdown := not_isNone_of_up hup
  have hrow : S.ue.setRow n { S.ue.ueCtxTable n with drbCount := 0 } = S.ue := by
    rw [← hb.drb]
    exact congrArg (fun t => { S.ue with ueCtxTable := t }) (Function.update_eq_self n _)
  have hcommit : ueCtxCommit S (some n) = some (
      (ueCtxCommitEntry (S.ue.setRow n { S.ue.ueCtxTable n with drbCount := 0 }) n).1,
      ⟨S.tun, (ueCtxCommitEntry
        (S.ue.setRow n { S.ue.ueCtxTable n with drbCount := 0 }) n).2⟩) := by
    simp [ueCtxCommit, hdown, hb.pdus, hb.drb, commitTunnels, packTunnels]
  rw [hcommit, hrow]

/-- Committing a row whose id is not committed changes no row. -/
theorem ueCtxCommitEntry_of_absent (habs : U.rowOf (U.ueCtxTable n).cuupUeId = none) :
    (ueCtxCommitEntry U n).2.ueCtxTable = U.ueCtxTable := by
  have hcases := ueCtxCommitEntry_cases U n
  have hentry := rowOf_eq_none_iff.mp habs
  generalize ueCtxCommitEntry U n = res at hcases ⊢
  obtain ⟨ret, U'⟩ := res
  simp only at hcases ⊢
  cases hcases with
  | down | inserted | refused => rfl
  | kept mapped => simp [habs] at mapped
  | deleted _ _ mapped => simp [hentry] at mapped
  | replaced _ _ _ mapped => simp [hentry] at mapped

end Pfm
