import Pfm.PdusTrace

/-!
# What the allocators find

Rows and ids are searched for from behind a cursor round to the cursor, and the entry
under the cursor itself is never looked at.

* `AllocatorsComplete` : an allocator fails only when nothing is free, and hands out
  only what is;
* `CursorsCovered` : no cursor stands on the only free entry;
* `allocators_complete_iff` : these are the same, in every state of every run;
* `Filled` : a table whose rows are taken one after the other, until the cursor is back
  where it started.
-/

namespace Pfm

open BoundedLoop CircularScan StepSystem TunnelTable

variable {D : Dpdk} {env : Env D}

/-- The four allocators fail only when everything is taken, and hand out only what is
free. -/
structure AllocatorsComplete (env : Env D) (S : Cuup D) : Prop where
  tunnelRow_none : ∀ key, (tunnelAlloc S.tun key).1 = none → ∀ r, S.tun.used r = true
  tunnelRow_some : ∀ key r, (tunnelAlloc S.tun key).1 = some r → S.tun.used r = false
  ueRow_none : ∀ id, (ueCtxAlloc S.ue id).1 = none → ∀ n, S.ue.used n = true
  ueRow_some : ∀ id n, (ueCtxAlloc S.ue id).1 = some n → S.ue.used n = false
  tunnelId_none : S.tun.tunnelHashtable.isSome = true → ∀ remoteIp ttype ip,
    tunnelLocalIp env remoteIp ttype = some ip →
      (tunnelKeyAlloc env S.tun remoteIp ttype).1 = none →
        ∀ i, (S.tun.entry (teKey ip i)).isSome = true
  tunnelId_some : S.tun.tunnelHashtable.isSome = true → ∀ remoteIp ttype key,
    (tunnelKeyAlloc env S.tun remoteIp ttype).1 = some key → S.tun.entry key = none
  ueId_none : S.ue.ueCtxHashtable.isSome = true → (ueCtxIdAlloc env S.ue).1 = none →
    ∀ i, S.ue.rowOf (ueId i) ≠ none
  ueId_some : S.ue.ueCtxHashtable.isSome = true → ∀ id,
    (ueCtxIdAlloc env S.ue).1 = some id → S.ue.rowOf id = none

/-- The entry under each cursor is taken, or another entry of its table is free. -/
structure CursorsCovered (env : Env D) (S : Cuup D) : Prop where
  tunnelRow : S.tun.used S.tun.lastAllocatedSlot = true ∨
    ∃ r, r ≠ S.tun.lastAllocatedSlot ∧ ¬ S.tun.used r = true
  ueRow : S.ue.used S.ue.lastAllocatedSlot = true ∨
    ∃ n, n ≠ S.ue.lastAllocatedSlot ∧ ¬ S.ue.used n = true
  tunnelId : S.tun.tunnelHashtable.isSome = true → ∀ remoteIp ttype ip,
    tunnelLocalIp env remoteIp ttype = some ip →
      (S.tun.entry (teKey ip S.tun.lastAssignedId)).isSome = true ∨
        ∃ i, i ≠ S.tun.lastAssignedId ∧ ¬ (S.tun.entry (teKey ip i)).isSome = true
  ueId : S.ue.ueCtxHashtable.isSome = true →
    S.ue.rowOf (ueId S.ue.lastAssignedId) ≠ none ∨
      ∃ i, i ≠ S.ue.lastAssignedId ∧ ¬ S.ue.rowOf (ueId i) ≠ none

/-! ### One search each -/

theorem tunnelRow_complete_iff (T : TunnelTable D) :
    (∀ key, (tunnelAlloc T key).1 = none → ∀ r, T.used r = true) ↔
      T.used T.lastAllocatedSlot = true ∨
        ∃ r, r ≠ T.lastAllocatedSlot ∧ ¬ T.used r = true := by
  rw [← complete_iff_covered (P := fun r => T.used r = true)]
  constructor
  · intro h hall
    exact h ⟨0, 0⟩ (tunnelAlloc_none_iff.mpr hall)
  · intro h key hnone
    exact h (tunnelAlloc_none_iff.mp hnone)

theorem ueRow_complete_iff (U : UeCtxTable D) :
    (∀ id, (ueCtxAlloc U id).1 = none → ∀ n, U.used n = true) ↔
      U.used U.lastAllocatedSlot = true ∨
        ∃ n, n ≠ U.lastAllocatedSlot ∧ ¬ U.used n = true := by
  rw [← complete_iff_covered (P := fun n => U.used n = true)]
  constructor
  · intro h hall
    exact h 0 (ueCtxAlloc_none_iff.mpr hall)
  · intro h id hnone
    exact h (ueCtxAlloc_none_iff.mp hnone)

theorem tunnelId_complete_iff {T : TunnelTable D} (hup : T.tunnelHashtable.isSome = true)
    {remoteIp : PfmIpAddr} {ttype : TunnelType} {ip : PfmIpAddr}
    (hip : tunnelLocalIp env remoteIp ttype = some ip) :
    ((tunnelKeyAlloc env T remoteIp ttype).1 = none →
        ∀ i, (T.entry (teKey ip i)).isSome = true) ↔
      (T.entry (teKey ip T.lastAssignedId)).isSome = true ∨
        ∃ i, i ≠ T.lastAssignedId ∧ ¬ (T.entry (teKey ip i)).isSome = true := by
  rw [← complete_iff_covered (P := fun i => (T.entry (teKey ip i)).isSome = true),
    tunnelKeyAlloc_none_iff hup]
  simp only [hip, Option.some.injEq, forall_eq']

theorem ueCtxIdAlloc_none_iff {U : UeCtxTable D} (hup : U.ueCtxHashtable.isSome = true) :
    (ueCtxIdAlloc env U).1 = none ↔ NoUeId U := by
  have hsearch : ueCtxIdAlloc env U = ueCtxIdSearch U := if_pos hup
  rw [hsearch]
  rcases ueCtxIdSearch_cases hup with ⟨hno, he⟩ | ⟨i, hfree, hne, he⟩
  · simp [he, hno]
  · simp only [he, reduceCtorEq, false_iff]
    intro hno
    exact hno i hne hfree

theorem ueId_complete_iff {U : UeCtxTable D} (hup : U.ueCtxHashtable.isSome = true) :
    ((ueCtxIdAlloc env U).1 = none → ∀ i, U.rowOf (ueId i) ≠ none) ↔
      U.rowOf (ueId U.lastAssignedId) ≠ none ∨
        ∃ i, i ≠ U.lastAssignedId ∧ ¬ U.rowOf (ueId i) ≠ none := by
  rw [← complete_iff_covered (P := fun i => U.rowOf (ueId i) ≠ none), ueCtxIdAlloc_none_iff hup]
  rfl

/-! ### What is handed out -/

theorem ueCtxAlloc_unused {U : UeCtxTable D} {id : UInt32} {n : UeIdx}
    (h : (ueCtxAlloc U id).1 = some n) : U.used n = false := by
  rcases ueCtxAlloc_cases U id with ⟨-, he⟩ | ⟨n', hun, -, he⟩
  · rw [he] at h
    cases h
  · rw [he] at h
    obtain rfl := Option.some.inj h
    exact hun

theorem tunnelAlloc_unused {T : TunnelTable D} {key : TunnelKey} {r : TunnelIdx}
    (h : (tunnelAlloc T key).1 = some r) : T.used r = false := by
  rcases tunnelAlloc_cases T key with he | ⟨r', -, hun, -, he⟩
  · rw [he] at h
    cases h
  · rw [he] at h
    obtain rfl := Option.some.inj h
    exact hun

theorem tunnelKeyAlloc_uncommitted {T : TunnelTable D} (hup : T.tunnelHashtable.isSome = true)
    {remoteIp : PfmIpAddr} {ttype : TunnelType} {key : TunnelKey}
    (h : (tunnelKeyAlloc env T remoteIp ttype).1 = some key) : T.entry key = none := by
  have hensure : tunnelTableEnsureUp env T = some T := if_pos hup
  rcases tunnelKeyAlloc_cases env T remoteIp ttype with
    ⟨-, he⟩ | ⟨T₁, h₁, he | ⟨ip, i, d, -, hfree, he⟩⟩
  · rw [he] at h
    cases h
  · rw [he] at h
    cases h
  · obtain rfl := Option.some.inj (hensure.symm.trans h₁)
    rw [he] at h
    obtain rfl := Option.some.inj h
    exact hfree.free

theorem ueCtxIdAlloc_uncommitted {U : UeCtxTable D} (hup : U.ueCtxHashtable.isSome = true)
    {id : UInt32} (h : (ueCtxIdAlloc env U).1 = some id) : U.rowOf id = none := by
  have hsearch : ueCtxIdAlloc env U = ueCtxIdSearch U := if_pos hup
  rw [hsearch] at h
  rcases ueCtxIdSearch_cases hup with ⟨-, he⟩ | ⟨i, hfree, -, he⟩
  · rw [he] at h
    cases h
  · rw [he] at h
    obtain rfl := Option.some.inj h
    exact hfree

/-! ### All of them -/

theorem allocatorsComplete_iff (env : Env D) (S : Cuup D) :
    AllocatorsComplete env S ↔ CursorsCovered env S := by
  constructor
  · intro h
    refine ⟨(tunnelRow_complete_iff S.tun).mp h.tunnelRow_none,
      (ueRow_complete_iff S.ue).mp h.ueRow_none, ?_, ?_⟩
    · intro hup remoteIp ttype ip hip
      exact (tunnelId_complete_iff hup hip).mp (h.tunnelId_none hup remoteIp ttype ip hip)
    · intro hup
      exact (ueId_complete_iff hup).mp (h.ueId_none hup)
  · intro h
    exact
      { tunnelRow_none := (tunnelRow_complete_iff S.tun).mpr h.tunnelRow
        tunnelRow_some := fun _ _ => tunnelAlloc_unused
        ueRow_none := (ueRow_complete_iff S.ue).mpr h.ueRow
        ueRow_some := fun _ _ => ueCtxAlloc_unused
        tunnelId_none := fun hup remoteIp ttype ip hip =>
          (tunnelId_complete_iff hup hip).mpr (h.tunnelId hup remoteIp ttype ip hip)
        tunnelId_some := fun hup _ _ _ => tunnelKeyAlloc_uncommitted hup
        ueId_none := fun hup => (ueId_complete_iff hup).mpr (h.ueId hup)
        ueId_some := fun hup _ => ueCtxIdAlloc_uncommitted hup }

/-- **The allocators are complete as long as no cursor stands on the only free entry.**
In whatever steps the two tables are operated: in every state of a run. -/
theorem allocators_complete_iff {ι : Type} (step : Cuup D → ι → Option (Cuup D)) (env : Env D)
    (S : Cuup D) (calls : List ι) :
    Always step (AllocatorsComplete env) S calls ↔ Always step (CursorsCovered env) S calls :=
  ⟨Always.imp fun S => (allocatorsComplete_iff env S).mp,
    Always.imp fun S => (allocatorsComplete_iff env S).mpr⟩

/-! ### Filling the table -/

/-- The rows from behind `start` up to the cursor, `n` of them, are used and the others
are free; no key is committed. -/
structure Filled (start : TunnelIdx) (n : Nat) (T : TunnelTable D) : Prop where
  up : T.tunnelHashtable.isSome = true
  entry : ∀ k, T.entry k = none
  cursor : T.lastAllocatedSlot = ahead start n
  taken : ∀ d, 0 < d → d ≤ n → T.used (ahead start d) = true
  free : ∀ d, n < d → d ≤ maxTunnelCount → T.used (ahead start d) = false

namespace Filled

variable {start : TunnelIdx} {n : Nat} {T : TunnelTable D}

/-- `tunnel_add` takes the row behind the cursor. -/
theorem add (h : Filled start n T) (hn : n < maxTunnelCount) (env : Env D) (key : TunnelKey) :
    Filled start (n + 1) (tunnelAdd env T key).2 := by
  have hnext : ahead T.lastAllocatedSlot 1 = ahead start (n + 1) := by
    rw [h.cursor, ahead_ahead]
  have hfree : T.used (ahead T.lastAllocatedSlot 1) = false := by
    rw [hnext]
    exact h.free (n + 1) (Nat.lt_succ_self n) hn
  have halloc : tunnelAlloc T key =
      (some (ahead start (n + 1)), T.takeRow (ahead start (n + 1)) key) := by
    have hscan : scan (fun i => rowProbe (T.used i)) T.lastAllocatedSlot =
        some (ahead T.lastAllocatedSlot 1) :=
      scan_next (by decide) (rowProbe_eq_take_iff.mpr hfree)
    simp only [tunnelAlloc, hscan, hnext]
  have hadd : tunnelAdd env T key = tunnelAlloc T key := by
    rcases tunnelAdd_cases env T key with ⟨hno, -⟩ | ⟨T₁, h₁, hcase⟩
    · rw [tunnelTableEnsureUp, if_pos h.up] at hno
      cases hno
    · rw [tunnelTableEnsureUp, if_pos h.up] at h₁
      obtain rfl := Option.some.inj h₁
      rcases hcase with ⟨hpres, -⟩ | ⟨-, hadd⟩
      · rw [h.entry] at hpres
        cases hpres
      · exact hadd
  have hne {d : Nat} (h0 : 0 < d) (hd : d ≤ maxTunnelCount) (hdn : d ≠ n + 1) :
      ahead start d ≠ ahead start (n + 1) := by
    intro heq
    exact hdn (ahead_inj_pos start h0 hd (Nat.succ_pos n) hn heq)
  rw [hadd, halloc]
  refine ⟨h.up, h.entry, rfl, ?_, ?_⟩
  · intro d h0 hd
    rw [used_takeRow]
    split
    · rfl
    · rename_i hdne
      have hdn : d ≠ n + 1 := fun heq => hdne (heq ▸ rfl)
      exact h.taken d h0 (by omega)
  · intro d hd hmax
    rw [used_takeRow, if_neg (hne (by omega) hmax (by omega))]
    exact h.free d (by omega) hmax

/-- As many calls of `tunnel_add` as there are free rows. -/
theorem adds (env : Env D) (key : TunnelKey) {m : Nat} (h : Filled start n T)
    (hm : n + m ≤ maxTunnelCount) :
    ∃ T', exec tunnelOpStep T (List.replicate m (env, .add key)) = some T' ∧
      Filled start (n + m) T' := by
  induction m generalizing n T with
  | zero => exact ⟨T, rfl, h⟩
  | succ m ih =>
      obtain ⟨T', hrun, hfilled⟩ := ih (h.add (by omega) env key) (by omega)
      rw [Nat.add_right_comm] at hfilled
      exact ⟨T', hrun, hfilled⟩

theorem used_of_full (h : Filled start maxTunnelCount T) (r : TunnelIdx) : T.used r = true := by
  obtain ⟨d, h0, hd, rfl⟩ := exists_ahead_eq start r
  exact h.taken d h0 hd

/-- In a full table the cursor is back where it started. -/
theorem cursor_of_full (h : Filled start maxTunnelCount T) : T.lastAllocatedSlot = start :=
  h.cursor.trans (ahead_self start)

/-- Giving a row back when no key is committed. -/
theorem rollback (h : Filled start n T) {r : TunnelIdx} (hr : T.used r = true) :
    (tunnelRollback T (some r)).2 = T.setUsed r false := by
  have habsent (k : TunnelKey) : T.rowOf k ≠ some r ∧ ∀ old, T.rowOf k ≠ some old := by
    have hnone : T.rowOf k = none := rowOf_eq_none_iff.mpr (h.entry k)
    simp [hnone]
  have hcases := tunnelRollback_cases T r
  generalize (tunnelRollback T (some r)).1 = ret at hcases
  generalize (tunnelRollback T (some r)).2 = T' at hcases ⊢
  cases hcases with
  | down hash =>
      have hup := h.up
      rw [hash] at hup
      cases hup
  | abandoned => rfl
  | invalid absent unused => exact absurd hr (by simp [unused])
  | kept mapped => exact absurd mapped (habsent _).1
  | restored mapped => exact absurd mapped (habsent _).1
  | dropped old mapped => exact absurd mapped ((habsent _).2 old)
  | stuck old mapped => exact absurd mapped ((habsent _).2 old)

end Filled

/-- One call before a run and one behind it. -/
theorem exec_between {T T' : TunnelTable D} {c l : Env D × TunnelOp}
    {calls : List (Env D × TunnelOp)}
    (h : exec tunnelOpStep (tunnelOpNext T c) calls = some T') :
    exec tunnelOpStep T (c :: (calls ++ [l])) = some (tunnelOpNext T' l) := by
  change exec tunnelOpStep (tunnelOpNext T c) (calls ++ [l]) = _
  rw [exec_append, h]
  rfl

/-- After `tunnel_key_alloc` for an address without a route the table is set up. -/
theorem init_filled : Filled (TunnelTable.init listDpdk).lastAllocatedSlot 0
    (tunnelOpNext (TunnelTable.init listDpdk) (upfEnv, .keyAlloc 1 .pdus)) := by
  have hkey : tunnelOpNext (TunnelTable.init listDpdk) (upfEnv, .keyAlloc 1 .pdus) =
      (TunnelTable.init listDpdk).cleared := rfl
  rw [hkey]
  exact ⟨rfl, fun _ => cleared_entry, rfl, fun d h0 hd => by omega, fun _ _ _ => rfl⟩

/-- All rows are taken, the last one is given back, and no row is found. -/
theorem last_row_not_found :
    ¬ ∀ (calls : List (Env listDpdk × TunnelOp)) T,
      exec tunnelOpStep (TunnelTable.init listDpdk) calls = some T →
        ∀ env U, AllocatorsComplete env ⟨T, U⟩ := by
  intro h
  let start := (TunnelTable.init listDpdk).lastAllocatedSlot
  obtain ⟨T, hrun, hfull⟩ := init_filled.adds upfEnv ⟨cuupIp, 1⟩
    (show 0 + maxTunnelCount ≤ maxTunnelCount by omega)
  rw [Nat.zero_add] at hfull
  have hback := hfull.rollback (hfull.used_of_full start)
  have hrun' := exec_between (l := (upfEnv, .rollback start)) hrun
  rw [show tunnelOpNext T (upfEnv, .rollback start) = T.setUsed start false from hback] at hrun'
  have hcomplete := h _ _ hrun' upfEnv (UeCtxTable.init listDpdk)
  have hnone : (tunnelAlloc (T.setUsed start false) ⟨cuupIp, 1⟩).1 = none := by
    rw [tunnelAlloc_none_iff]
    intro r hr
    rw [setUsed_lastAllocatedSlot, hfull.cursor_of_full] at hr
    rw [used_setUsed, if_neg hr]
    exact hfull.used_of_full r
  have hused := hcomplete.tunnelRow_none _ hnone start
  rw [used_setUsed, if_pos rfl] at hused
  cases hused

end Pfm
