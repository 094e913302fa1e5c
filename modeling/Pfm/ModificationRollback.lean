import Pfm.ModificationLeak
import Pfm.ModifySessions

/-!
# Rolling back a modification

The rollback gives back what was removed in a modification.  The rows handed out in between
are in the working copy alone, and stay used.

* `modification_rolled_back` : the rollback undoes every run of calls that leave no row, and
  no other run that hands out only rows no key maps to.
-/

namespace Pfm

open BoundedLoop StepSystem TunnelTable

variable {D : Dpdk} {env : Env D} {T T' T₀ : TunnelTable D} {S : Cuup D} {ctx c₀ : UeCtx}
  {id : UInt32} {old n : UeIdx} {U : UeCtxTable D} {M : Modification D}
  {call : ModificationCall D} {calls : List (ModificationCall D)}

/-! ### Rolling back -/

theorem Leaked.rolledBack (h : Leaked T₀ T) {x : TunnelIdx} (hx : T₀.used x = true) :
    Leaked T₀ (tunnelRollback T (some x)).2 := by
  rcases h with ⟨k, habs, hpres⟩ | ⟨r, t, hfree, hrow⟩
  · refine Or.inl ⟨k, habs, ?_⟩
    rcases tunnelRollback_marks T (some x) with he | ⟨y, b, -, -, he⟩
    · rw [he]
      exact hpres
    · rw [he]
      exact hpres
  · have hne : r ≠ x := by
      rintro rfl
      rw [hfree] at hx
      cases hx
    exact Or.inr ⟨r, t, hfree, hrow.rolledBack hne⟩

/-- Rolling back tunnels whose rows were used before gives back none of what is left. -/
theorem Leaked.rollbackTunnels (h : Leaked T₀ T) {k count : Nat}
    {list : CArray k (Option TunnelIdx)}
    (hlist : ∀ i, i < count → ∃ x, list.deref? i = some x ∧ T₀.used x = true)
    (hback : rollbackTunnels list count T = some T') : Leaked T₀ T' := by
  refine forRange_invariant (fun _ V => Leaked T₀ V) h ?_ hback
  intro i V V' hi hV hturn
  obtain ⟨x, hx, hused⟩ := hlist i hi
  rw [CArray.deref?_eq_some_iff.mp hx] at hturn
  obtain rfl := Option.some.inj hturn
  exact hV.rolledBack hused

/-- From a state with a row that is left the rollback does not lead back. -/
theorem Leaked.not_undone (h : Leaked S.tun M.tun) (hcuup : M.ctx.cuupUeId = id)
    (hord : CommittedInOrder S old) (hk : S.ue.rowOf id = some old)
    (hmodify : ueCtxModify S.ue id = some (some n, U)) :
    ¬ RollbackUndoes S (M.tables U n) n := by
  obtain ⟨hne, -⟩ := ueCtxModify_lists hk hord.used hmodify
  obtain ⟨-, holdrow, hmapped⟩ := tables_of_modified hk hord.used hmodify hcuup
  rintro ⟨ret, S'', hback, htun, -, hused, -⟩
  have hleft : Leaked S.tun S''.tun := by
    rw [ueCtxRollback_of_modified hmapped hne] at hback
    split at hback
    · rw [holdrow] at hback
      obtain ⟨T', hroll, hS''⟩ := Option.map_eq_some_iff.mp hback
      obtain rfl := (Prod.mk.inj hS'').2
      obtain ⟨T₁, hpdus, hdrb⟩ := Option.bind_eq_some_iff.mp hroll
      have hafter : Leaked S.tun T₁ := by
        refine Leaked.rollbackTunnels (T := (M.tables U n).tun) h ?_ hpdus
        intro i hi
        obtain ⟨x, hx⟩ := hord.full.pdus i hi
        exact ⟨x, hx, hord.rows x (Or.inl ⟨i, hi, hx⟩)⟩
      refine hafter.rollbackTunnels ?_ hdrb
      intro i hi
      obtain ⟨x, hx⟩ := hord.full.drb i hi
      exact ⟨x, hx, hord.rows x (Or.inr ⟨i, hi, hx⟩)⟩
    · obtain rfl := (Prod.mk.inj (Option.some.inj hback)).2
      exact h
  rcases hleft with ⟨k, habs, hpres⟩ | ⟨r, t, hfree, hkept⟩
  · rw [htun] at hpres
    exact hpres habs
  · have hr := hused r
    rw [hfree, TunnelTable.used, hkept.row, hkept.used] at hr
    cases hr

theorem modificationStep_cuupUeId {M' : Modification D}
    (hs : modificationStep M call = some M') : M'.ctx.cuupUeId = M.ctx.cuupUeId := by
  cases call with
  | pdusSetup env req succ =>
      obtain ⟨out, hout, rfl⟩ := Option.map_eq_some_iff.mp hs
      exact (pdusSetup_head hout).cuupUeId
  | pdusModify env req succ idx =>
      obtain ⟨nt, -, hs⟩ := Option.bind_eq_some_iff.mp hs
      obtain ⟨out, hout, rfl⟩ := Option.map_eq_some_iff.mp hs
      exact (pdusModify_head hout).cuupUeId
  | drbSetup env req =>
      obtain ⟨out, hout, rfl⟩ := Option.map_eq_some_iff.mp hs
      exact (drbSetup_head hout).cuupUeId
  | drbModify req idx =>
      obtain ⟨nt, -, hs⟩ := Option.bind_eq_some_iff.mp hs
      obtain ⟨out, hout, rfl⟩ := Option.map_eq_some_iff.mp hs
      exact (drbModify_head hout).cuupUeId
  | pdusRemove idx =>
      obtain ⟨nt, -, hs⟩ := Option.bind_eq_some_iff.mp hs
      obtain rfl := Option.some.inj hs
      rfl
  | drbRemove idx =>
      obtain ⟨nt, -, hs⟩ := Option.bind_eq_some_iff.mp hs
      obtain rfl := Option.some.inj hs
      rfl

/-! ### Every run -/

/-- A run with a call that is not one of those ends with a row that is left. -/
theorem Unleaked.leaked_of_run {R : Modification D} (h : Unleaked S c₀ id M)
    (hown : ∀ x, c₀.Lists x → S.tun.rowOf (S.tun.keyAt x) = some x)
    (hnext : Along modificationStep NextRowUncommitted M calls)
    (hleaves : ¬ Along modificationStep LeavesNoRow M calls)
    (hrun : exec modificationStep M calls = some R) : Leaked S.tun R.tun := by
  induction calls generalizing M with
  | nil => exact absurd trivial hleaves
  | cons call calls ih =>
      obtain ⟨M', hstep, hrest⟩ := Option.bind_eq_some_iff.mp hrun
      by_cases hcall : LeavesNoRow M call
      · refine ih (h.step hown hcall hstep) (hnext.2 M' hstep) ?_ hrest
        intro hall
        exact hleaves ((along_cons hstep).mpr ⟨hcall, hall⟩)
      · exact exec_invariant (fun V _ V' (hV : Leaked S.tun V.tun) hs => hV.step hs)
          (h.leaks hown hnext.1 hcall hstep) hrest

/-- **Rolling a modification back.**  For a committed UE whose row and tunnels are in order,
the rollback undoes every run of calls that leave no row; and it undoes no other run, where
every row is handed out while no key maps to it. -/
theorem modification_rolled_back {D : Dpdk} {S : Cuup D} (hreach : CuupReachable S)
    {id : UInt32} {old n : UeIdx} (hk : S.ue.rowOf id = some old)
    (hord : CommittedInOrder S old) {U : UeCtxTable D}
    (hmodify : ueCtxModify S.ue id = some (some n, U)) (calls : List (ModificationCall D))
    {R : Modification D}
    (hrun : exec modificationStep (Modification.start S U n) calls = some R) :
    (Along modificationStep LeavesNoRow (Modification.start S U n) calls →
      RollbackUndoes S (R.tables U n) n) ∧
    (Along modificationStep NextRowUncommitted (Modification.start S U n) calls →
      RollbackUndoes S (R.tables U n) n →
      Along modificationStep LeavesNoRow (Modification.start S U n) calls) := by
  have hstart := Unleaked.start hreach.unusedWhileDown hord hk hmodify
  constructor
  · intro hleaves
    have hend : Unleaked S (S.ue.ueCtxTable old) id R :=
      exec_invariant_along (fun _ _ _ hV hcall hs => hV.step hord.own hcall hs) hstart hleaves
        hrun
    exact hend.rolledBack hord hk hmodify
  · intro hnext hundone
    by_contra hleaves
    have hcuup : R.ctx.cuupUeId = id :=
      exec_invariant (fun V _ V' (hV : V.ctx.cuupUeId = id) hs =>
        (modificationStep_cuupUeId hs).trans hV) hstart.cuupUeId hrun
    exact (hstart.leaked_of_run hord.own hnext hleaves hrun).not_undone hcuup hord hk hmodify
      hundone

/-- DRB 1 is set up a second time, which is refused, and then the tunnels are removed. -/
def removingCalls : List (ModificationCall listDpdk) :=
  [.drbSetup upfEnv oneDrb, .drbRemove 0, .pdusRemove 0]

/-- The rollback of such calls for a UE with one session and one DRB. -/
theorem modification_rolled_back_removing :
    ∃ (S : Cuup listDpdk) (n : UeIdx) (U : UeCtxTable listDpdk) (R : Modification listDpdk),
      CuupReachable S ∧ ueCtxModify S.ue 1 = some (some n, U) ∧
      exec modificationStep (Modification.start S U n) removingCalls = some R ∧
      RollbackUndoes S (R.tables U n) n := by
  have hdec : ((exec e1apStep (Cuup.init listDpdk) [zeroSetup, zeroSetup]).bind fun S =>
      (S.ue.rowOf 1).bind fun old =>
      ((S.ue.ueCtxTable old).pdusTunnelList.deref? 0).bind fun x =>
      ((S.ue.ueCtxTable old).drbTunnelList.deref? 0).bind fun y =>
      (ueCtxModify S.ue 1).bind fun out => out.1.bind fun n =>
      (findDrb S.tun (out.2.ueCtxTable n) 1).bind fun found => found.bind fun _ =>
      (exec modificationStep (Modification.start S out.2 n) removingCalls).map fun _ =>
        decide (S.ue.used old = true ∧ (S.ue.ueCtxTable old).pdusCount = 1 ∧
          (S.ue.ueCtxTable old).drbCount = 1 ∧
          (S.tun.rowOf (S.tun.keyAt x) = some x ∧ S.tun.used x = true) ∧
          S.tun.rowOf (S.tun.keyAt y) = some y ∧ S.tun.used y = true)) = some true := by
    decide
  obtain ⟨S, hS, hdec⟩ := Option.bind_eq_some_iff.mp hdec
  obtain ⟨old, hk, hdec⟩ := Option.bind_eq_some_iff.mp hdec
  obtain ⟨x, hx, hdec⟩ := Option.bind_eq_some_iff.mp hdec
  obtain ⟨y, hy, hdec⟩ := Option.bind_eq_some_iff.mp hdec
  obtain ⟨⟨got, U⟩, hmodify, hdec⟩ := Option.bind_eq_some_iff.mp hdec
  obtain ⟨n, rfl, hdec⟩ := Option.bind_eq_some_iff.mp hdec
  obtain ⟨found, hfound, hdec⟩ := Option.bind_eq_some_iff.mp hdec
  obtain ⟨j, rfl, hdec⟩ := Option.bind_eq_some_iff.mp hdec
  obtain ⟨R, hrun, hdec⟩ := Option.map_eq_some_iff.mp hdec
  obtain ⟨hused, hpdus, hdrb, hxrow, hyrow⟩ := of_decide_eq_true hdec
  have hreach : CuupReachable S := ⟨[zeroSetup, zeroSetup], hS⟩
  have hlists (z : TunnelIdx) (hz : (S.ue.ueCtxTable old).Lists z) : z = x ∨ z = y := by
    rcases hz with ⟨i, hi, hz⟩ | ⟨i, hi, hz⟩
    · obtain rfl : i = 0 := by omega
      exact Or.inl (Option.some.inj (hz.symm.trans hx))
    · obtain rfl : i = 0 := by omega
      exact Or.inr (Option.some.inj (hz.symm.trans hy))
  have hrows (z : TunnelIdx) (hz : (S.ue.ueCtxTable old).Lists z) :
      S.tun.rowOf (S.tun.keyAt z) = some z ∧ S.tun.used z = true := by
    rcases hlists z hz with rfl | rfl
    · exact hxrow
    · exact hyrow
  have hfull : (S.ue.ueCtxTable old).Full := by
    constructor
    · intro i hi
      obtain rfl : i = 0 := by omega
      exact ⟨x, hx⟩
    · intro i hi
      obtain rfl : i = 0 := by omega
      exact ⟨y, hy⟩
  have hord : CommittedInOrder S old :=
    ⟨hused, hfull, fun z hz => (hrows z hz).1, fun z hz => (hrows z hz).2⟩
  refine ⟨S, n, U, R, hreach, hmodify, hrun,
    (modification_rolled_back hreach hk hord hmodify removingCalls hrun).1 ?_⟩
  refine ⟨Or.inl (Or.inr ⟨j, hfound⟩), ?_⟩
  intro _ _
  exact ⟨trivial, fun _ _ => ⟨trivial, fun _ _ => trivial⟩⟩

/-- The row of a DRB that was set up stays used. -/
theorem new_drb_not_rolled_back :
    ¬ ∀ (S : Cuup listDpdk) (id : UInt32) (n : UeIdx) (U : UeCtxTable listDpdk)
      (calls : List (ModificationCall listDpdk)) (R : Modification listDpdk),
      CuupReachable S → ueCtxModify S.ue id = some (some n, U) →
      exec modificationStep (Modification.start S U n) calls = some R →
      RollbackUndoes S (R.tables U n) n := by
  intro h
  have hdec : ((exec e1apStep (Cuup.init listDpdk) [zeroSetup, zeroSetup]).bind fun S =>
      (ueCtxModify S.ue 1).bind fun out => out.1.bind fun n =>
      (exec modificationStep (Modification.start S out.2 n)
        [.drbSetup upfEnv { oneDrb with drbId := 2 }]).bind fun R =>
      (nextTunnelRow S.tun).bind fun r =>
      (ueCtxRollback (R.tables out.2 n) n).map fun back =>
        decide (S.tun.used r = false ∧ back.2.tun.used r = true)) = some true := by
    decide
  obtain ⟨S, hS, hdec⟩ := Option.bind_eq_some_iff.mp hdec
  obtain ⟨⟨got, U⟩, hmodify, hdec⟩ := Option.bind_eq_some_iff.mp hdec
  obtain ⟨n, rfl, hdec⟩ := Option.bind_eq_some_iff.mp hdec
  obtain ⟨R, hrun, hdec⟩ := Option.bind_eq_some_iff.mp hdec
  obtain ⟨r, -, hdec⟩ := Option.bind_eq_some_iff.mp hdec
  obtain ⟨⟨ret, S'⟩, hback, hdec⟩ := Option.map_eq_some_iff.mp hdec
  obtain ⟨hfree, hleft⟩ := of_decide_eq_true hdec
  obtain ⟨ret', S'', hback', -, -, hused, -⟩ :=
    h S 1 n U _ R ⟨[zeroSetup, zeroSetup], hS⟩ hmodify hrun
  obtain rfl := (Prod.mk.inj (Option.some.inj (hback.symm.trans hback'))).2
  have hr := hused r
  rw [hleft, hfree] at hr
  cases hr

end Pfm
