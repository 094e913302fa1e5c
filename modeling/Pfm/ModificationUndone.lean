import Pfm.Modification

/-!
# Modifications that are undone

The rollback of a working copy visits the tunnels of the committed context and marks their
rows used again.  Where the calls left no row, that is all there is to undo.
-/

namespace Pfm

open BoundedLoop CircularScan StepSystem TunnelTable

variable {D : Dpdk} {env : Env D} {T T' : TunnelTable D} {S : Cuup D} {ctx c₀ : UeCtx}
  {id : UInt32} {old n : UeIdx} {r nt : TunnelIdx}

/-! ### Runs that leave no row -/

/-- The keys and the used flags are as before `ue_ctx_modify`, those of the committed
context's tunnels `c₀` apart, which may be marked free; and every tunnel of the working copy
has the key of one of those. -/
structure Unleaked (S : Cuup D) (c₀ : UeCtx) (id : UInt32) (M : Modification D) : Prop where
  entry : M.tun.entry = S.tun.entry
  unused : M.tun.UnusedWhileDown
  keys : ∀ x, c₀.Lists x → M.tun.keyAt x = S.tun.keyAt x
  used : ∀ x, ¬ c₀.Lists x → M.tun.used x = S.tun.used x
  listed : ∀ x, M.ctx.Lists x → ∃ y, c₀.Lists y ∧ M.tun.rowOf (M.tun.keyAt x) = some y
  cuupUeId : M.ctx.cuupUeId = id
  isRowUsed : M.ctx.isRowUsed = true

section Unleaked

variable {M M' : Modification D}

theorem Unleaked.same (h : Unleaked S c₀ id M) (hsame : SameTunnels M.tun T') :
    Unleaked S c₀ id ⟨T', M.ctx⟩ := by
  have hkey (x : TunnelIdx) : T'.keyAt x = M.tun.keyAt x := by
    rw [keyAt, hsame.rows, keyAt]
  refine ⟨hsame.entry.trans h.entry, ?_, fun x hx => (hkey x).trans (h.keys x hx),
    fun x hx => (hsame.used x).trans (h.used x hx), ?_, h.cuupUeId, h.isRowUsed⟩
  · intro hdown x
    rw [hsame.used]
    exact h.unused (hsame.hash ▸ hdown) x
  · intro x hx
    obtain ⟨y, hy, hrow⟩ := h.listed x hx
    refine ⟨y, hy, ?_⟩
    change T'.rowOf (T'.keyAt x) = some y
    rw [hkey, rowOf, hsame.entry]
    exact hrow

/-- A table that is set up only now had no row used, and its context lists no tunnel. -/
theorem Unleaked.cleared (h : Unleaked S c₀ id M) (hdown : M.tun.tunnelHashtable = none) :
    Unleaked S c₀ id ⟨M.tun.cleared, M.ctx⟩ := by
  refine ⟨?_, unusedWhileDown_of_up rfl, h.keys, ?_, ?_, h.cuupUeId, h.isRowUsed⟩
  · rw [← h.entry]
    funext k
    exact cleared_entry.trans (entry_of_down hdown).symm
  · intro x hx
    rw [← h.used x hx]
    exact (h.unused hdown x).symm
  · intro x hx
    obtain ⟨y, -, hrow⟩ := h.listed x hx
    rw [rowOf_of_down hdown] at hrow
    cases hrow

theorem Unleaked.unopened (h : Unleaked S c₀ id M) {remoteIp : PfmIpAddr} {ttype : TunnelType}
    (ho : tunnelOpen env M.tun remoteIp ttype = (none, T')) : Unleaked S c₀ id ⟨T', M.ctx⟩ := by
  rcases tunnelOpen_none_tunnels ho with ⟨hsame, -⟩ | ⟨hdown, -, hsame⟩
  · exact h.same hsame
  · exact (h.cleared hdown).same hsame

/-- The row of one of the committed context's tunnels is marked free. -/
theorem Unleaked.removed (h : Unleaked S c₀ id M) (hnt : M.ctx.Lists nt) :
    Unleaked S c₀ id ⟨(tunnelRemove M.tun (M.tun.tunnelTable nt).key).2, M.ctx⟩ := by
  obtain ⟨y, hy, hrow⟩ := h.listed nt hnt
  rcases tunnelRemove_cases M.tun (M.tun.tunnelTable nt).key with ⟨z, hz, he⟩ | ⟨hz, -⟩
  · obtain rfl : y = z := Option.some.inj (hrow.symm.trans hz)
    rw [he]
    refine ⟨h.entry, unusedWhileDown_of_up (up_of_mapped hz), fun x hx => ?_, fun x hx => ?_,
      fun x hx => ?_, h.cuupUeId, h.isRowUsed⟩
    · exact (setUsed_key false).trans (h.keys x hx)
    · change (M.tun.setUsed y false).used x = S.tun.used x
      have hne : x ≠ y := fun heq => hx (heq ▸ hy)
      rw [used_setUsed, if_neg hne]
      exact h.used x hx
    · obtain ⟨z, hz, hrowx⟩ := h.listed x hx
      refine ⟨z, hz, ?_⟩
      change (M.tun.setUsed y false).rowOf ((M.tun.setUsed y false).tunnelTable x).key = some z
      rw [setUsed_key]
      exact hrowx
  · rw [show M.tun.keyAt nt = (M.tun.tunnelTable nt).key from rfl, hz] at hrow
    cases hrow

theorem pdusAt_eq_some_iff {idx : Nat} : ctx.pdusAt idx = some nt ↔
    idx < ctx.pdusCount ∧ ctx.pdusTunnelList.deref? idx = some nt := by
  simp [UeCtx.pdusAt]

theorem drbAt_eq_some_iff {idx : Nat} : ctx.drbAt idx = some nt ↔
    idx < ctx.drbCount ∧ ctx.drbTunnelList.deref? idx = some nt := by
  simp [UeCtx.drbAt]

theorem lists_of_pdusAt {idx : Nat} (h : ctx.pdusAt idx = some nt) : ctx.Lists nt :=
  Or.inl ⟨idx, pdusAt_eq_some_iff.mp h⟩

theorem lists_of_drbAt {idx : Nat} (h : ctx.drbAt idx = some nt) : ctx.Lists nt :=
  Or.inr ⟨idx, drbAt_eq_some_iff.mp h⟩

/-- A call that modifies a PDU session finds its row, and ends in one of the outcomes. -/
theorem pdusModify_of_step {req : PdusModifyReqInfo} {succ : PdusModifySuccRspInfo} {idx : Nat}
    (hs : modificationStep M (.pdusModify env req succ idx) = some M') :
    ∃ nt out, M.ctx.pdusAt idx = some nt ∧
      PdusModifyOutcome env M.tun M.ctx req succ idx nt out ∧ M' = ⟨out.tun, out.ctx⟩ := by
  obtain ⟨nt, hnt, hs⟩ := Option.bind_eq_some_iff.mp hs
  obtain ⟨out, hout, rfl⟩ := Option.map_eq_some_iff.mp hs
  obtain ⟨nt', hnt', houtcome⟩ := pdusModify_cases hout
  obtain rfl : nt = nt' :=
    Option.some.inj ((pdusAt_eq_some_iff.mp hnt).2.symm.trans hnt')
  exact ⟨nt, out, hnt, houtcome, rfl⟩

/-- A call that modifies a DRB finds its row, and is refused or writes the row it gets. -/
theorem drbModify_of_step {req : DrbModifyReqInfo} {idx : Nat}
    (hs : modificationStep M (.drbModify req idx) = some M') :
    ∃ nt, M.ctx.drbAt idx = some nt ∧
      ((∃ T₁, tunnelModify M.tun (M.tun.tunnelTable nt).key = (none, T₁) ∧
          M' = ⟨T₁, M.ctx⟩) ∨
        ∃ r T₁ list, tunnelModify M.tun (M.tun.tunnelTable nt).key = (some r, T₁) ∧
          M.ctx.drbTunnelList.set? idx (some r) = some list ∧
          M' = ⟨T₁.setRow r (T₁.tunnelTable nt), { M.ctx with drbTunnelList := list }⟩) := by
  obtain ⟨nt, hnt, hs⟩ := Option.bind_eq_some_iff.mp hs
  obtain ⟨out, hout, rfl⟩ := Option.map_eq_some_iff.mp hs
  obtain ⟨nt', hnt', houtcome⟩ := drbModify_cases hout
  obtain rfl : nt = nt' :=
    Option.some.inj ((drbAt_eq_some_iff.mp hnt).2.symm.trans hnt')
  refine ⟨nt, hnt, ?_⟩
  rcases houtcome with ⟨T₁, modified, htun, hctx⟩ | ⟨r, T₁, list, modified, hset, htun, hctx⟩
  · exact Or.inl ⟨T₁, modified, by rw [htun, hctx]⟩
  · exact Or.inr ⟨r, T₁, list, modified, hset, by rw [htun, hctx]⟩

/-- A row no key maps to takes over from a removed DRB, its used flag included. -/
theorem Unleaked.copied (h : Unleaked S c₀ id M)
    (hown : ∀ x, c₀.Lists x → S.tun.rowOf (S.tun.keyAt x) = some x)
    {idx : Nat} {list : CArray maxDrbPerUe (Option TunnelIdx)}
    (hnt : M.ctx.drbAt idx = some nt) (hfree : M.tun.used nt = false)
    (hr : nextTunnelRow M.tun = some r) (hrow : ∀ k, M.tun.rowOf k ≠ some r)
    (hset : M.ctx.drbTunnelList.set? idx (some r) = some list) :
    Unleaked S c₀ id ⟨(M.tun.takeRow r (M.tun.keyAt nt)).setRow r (M.tun.tunnelTable nt),
      { M.ctx with drbTunnelList := list }⟩ := by
  obtain ⟨y, hy, hmapped⟩ := h.listed nt (lists_of_drbAt hnt)
  -- The row is none of the committed context's.
  have hout : ¬ c₀.Lists r := by
    intro hin
    refine hrow (M.tun.keyAt r) ?_
    rw [h.keys r hin, rowOf, h.entry]
    exact hown r hin
  have hother {x : TunnelIdx} (hx : x ≠ r) :
      ((M.tun.takeRow r (M.tun.keyAt nt)).setRow r (M.tun.tunnelTable nt)).tunnelTable x =
        M.tun.tunnelTable x := by
    rw [setRow_of_ne _ hx, takeRow_of_ne hx]
  refine ⟨h.entry, unusedWhileDown_of_up (up_of_mapped hmapped), ?_, ?_, ?_, h.cuupUeId,
    h.isRowUsed⟩
  · intro x hx
    have hxr : x ≠ r := fun heq => hout (heq ▸ hx)
    rw [← h.keys x hx, keyAt, hother hxr, keyAt]
  · intro x hx
    by_cases hxr : x = r
    · rw [hxr] at hx ⊢
      rw [← h.used r hx, nextTunnelRow_unused hr, ← hfree, TunnelTable.used, setRow_self,
        TunnelTable.used]
    · rw [← h.used x hx, TunnelTable.used, hother hxr, TunnelTable.used]
  · intro x hx
    by_cases hxr : x = r
    · rw [hxr]
      have hkey : ((M.tun.takeRow r (M.tun.keyAt nt)).setRow r (M.tun.tunnelTable nt)).keyAt r =
          M.tun.keyAt nt := by
        rw [keyAt, setRow_self, keyAt]
      exact ⟨y, hy, (congrArg M.tun.rowOf hkey).trans hmapped⟩
    · have hin : M.ctx.Lists x := by
        rcases hx with hx | ⟨i, hi, hx⟩
        · exact Or.inl hx
        · change list.deref? i = some x at hx
          rw [CArray.deref?_set? hset] at hx
          split at hx
          · exact absurd (Option.some.inj hx).symm hxr
          · exact Or.inr ⟨i, hi, hx⟩
      obtain ⟨z, hz, hrowx⟩ := h.listed x hin
      exact ⟨z, hz, (congrArg (fun t : Tunnel => M.tun.rowOf t.key) (hother hxr)).trans hrowx⟩

/-- **One call.** -/
theorem Unleaked.step (h : Unleaked S c₀ id M)
    (hown : ∀ x, c₀.Lists x → S.tun.rowOf (S.tun.keyAt x) = some x)
    {call : ModificationCall D} (hleaves : LeavesNoRow M call)
    (hs : modificationStep M call = some M') : Unleaked S c₀ id M' := by
  cases call with
  | pdusSetup env req succ =>
      obtain ⟨out, hout, rfl⟩ := Option.map_eq_some_iff.mp hs
      rcases hleaves with href | hno
      · obtain ⟨htun, hctx⟩ := pdusSetup_of_refused_ctx href hout
        rw [htun, hctx]
        exact h
      · have hnone := (tunnelOpen_none_iff env M.tun req.pdusUlIpAddr .pdus).mpr hno
        cases pdusSetup_cases hout with
        | refused => exact h
        | noTunnel T' cause opened => exact h.unopened opened
        | noDrb key r T' w cause opened =>
            rw [opened] at hnone
            cases hnone
        | served key r T' w list opened =>
            rw [opened] at hnone
            cases hnone
  | pdusModify env req succ idx =>
      obtain ⟨nt, out, hnt, houtcome, rfl⟩ := pdusModify_of_step hs
      have hnone := tunnelModify_none (hleaves nt hnt)
      cases houtcome with
      | noTunnel T₁ modified =>
          obtain rfl := (Prod.mk.inj (hnone.symm.trans modified)).2
          exact h
      | served r T₁ T₂ w w' list modified =>
          rw [hnone] at modified
          cases modified
  | drbSetup env req =>
      obtain ⟨out, hout, rfl⟩ := Option.map_eq_some_iff.mp hs
      rcases hleaves with href | hno
      · obtain ⟨htun, hctx⟩ := drbSetup_of_refused_ctx href hout
        rw [htun, hctx]
        exact h
      · have hnone := (tunnelOpen_none_iff env M.tun req.drbDlIpAddr .drb).mpr hno
        rcases drbSetup_cases hout with
          ⟨hctx, -, htun | ⟨-, htun⟩⟩ | ⟨key, r, T₁, list, opened, -, -⟩
        · rw [htun, hctx]
          exact h
        · rw [htun, hctx]
          exact h.unopened (Prod.ext hnone rfl)
        · rw [opened] at hnone
          cases hnone
  | drbModify req idx =>
      obtain ⟨nt, hnt, houtcome⟩ := drbModify_of_step hs
      rcases hleaves nt hnt with hno | ⟨hfree, hnext⟩
      · have hnone := tunnelModify_none hno
        rcases houtcome with ⟨T₁, modified, rfl⟩ | ⟨r, T₁, list, modified, -⟩
        · obtain rfl := (Prod.mk.inj (hnone.symm.trans modified)).2
          exact h
        · rw [hnone] at modified
          cases modified
      · rcases houtcome with ⟨T₁, modified, rfl⟩ | ⟨r, T₁, list, modified, hset, rfl⟩
        · obtain rfl := (Prod.mk.inj ((tunnelModify_none
            (noRowFor_of_none modified)).symm.trans modified)).2
          exact h
        · obtain ⟨hr, -, rfl⟩ := tunnelModify_next modified
          obtain ⟨hne, hrow⟩ := hnext r hr
          rw [takeRow_of_ne hne.symm]
          exact h.copied hown hnt hfree hr hrow hset
  | pdusRemove idx =>
      obtain ⟨nt, hnt, hs⟩ := Option.bind_eq_some_iff.mp hs
      obtain rfl := Option.some.inj hs
      exact h.removed (lists_of_pdusAt hnt)
  | drbRemove idx =>
      obtain ⟨nt, hnt, hs⟩ := Option.bind_eq_some_iff.mp hs
      obtain rfl := Option.some.inj hs
      exact h.removed (lists_of_drbAt hnt)

end Unleaked

/-! ### The working copy and its rollback -/

/-- `ue_ctx_modify` of a UE whose row is used: a free row lists the tunnels of that row. -/
theorem ueCtxModify_lists {U U' : UeCtxTable D} (hk : U.rowOf id = some old)
    (hused : U.used old = true) (h : ueCtxModify U id = some (some n, U')) :
    n ≠ old ∧ U.used n = false ∧ U'.entry = U.entry ∧
      (∀ m, m ≠ n → U'.ueCtxTable m = U.ueCtxTable m) ∧
      (U'.ueCtxTable n).cuupUeId = id ∧ (U'.ueCtxTable n).isRowUsed = true ∧
      ∀ x, (U'.ueCtxTable n).Lists x ↔ (U.ueCtxTable old).Lists x := by
  rcases ueCtxModify_cases h with
    ⟨hgot, -⟩ | ⟨m, old', pdusList, drbList, hgot, hk', hfree, hpdus, hdrb, rfl⟩
  · cases hgot
  obtain rfl := Option.some.inj hgot
  obtain rfl : old = old' := Option.some.inj (hk.symm.trans hk')
  have hne : n ≠ old := by
    rintro rfl
    rw [hfree] at hused
    cases hused
  rw [if_neg hne, UeCtxTable.takeRow_of_ne hne.symm] at hpdus hdrb
  have hslot {k count : Nat} {source dest list : CArray k (Option TunnelIdx)}
      (hcopy : copyTunnels source dest count = some list) {i : Nat} (hi : i < count) :
      list.deref? i = source.deref? i := by
    rw [CArray.deref?, CArray.deref?, copyTunnels_get? hcopy, if_pos hi]
  refine ⟨hne, hfree, rfl, ?_, ?_, ?_, ?_⟩
  · intro m hm
    rw [UeCtxTable.setRow_of_ne _ hm, UeCtxTable.takeRow_of_ne hm]
  · rw [UeCtxTable.setRow_self, UeCtx.copied, UeCtxTable.takeRow_self]
  · rw [UeCtxTable.setRow_self, UeCtx.copied, UeCtxTable.takeRow_self]
  · intro x
    rw [UeCtxTable.setRow_self, UeCtxTable.takeRow_of_ne hne.symm]
    simp only [UeCtx.Lists, UeCtx.copied, if_neg hne]
    refine or_congr (exists_congr fun i => ?_) (exists_congr fun i => ?_)
    · exact and_congr_right fun hi => by rw [hslot hpdus hi]
    · exact and_congr_right fun hi => by rw [hslot hdrb hi]

/-- The rows in `done` are used besides those used before, and nothing else is changed. -/
structure Restored (T : TunnelTable D) (done : TunnelIdx → Prop) (T' : TunnelTable D) :
    Prop where
  entry : T'.entry = T.entry
  keys : ∀ x, T'.keyAt x = T.keyAt x
  used : ∀ x, T'.used x = true ↔ T.used x = true ∨ done x

theorem Restored.refl (T : TunnelTable D) {done : TunnelIdx → Prop} (hdone : ∀ x, ¬ done x) :
    Restored T done T :=
  ⟨rfl, fun _ => rfl, fun x => (or_iff_left (hdone x)).symm⟩

theorem Restored.trans {done done' both : TunnelIdx → Prop} (h : Restored T done T')
    {T'' : TunnelTable D} (h' : Restored T' done' T'')
    (hboth : ∀ x, both x ↔ done x ∨ done' x) : Restored T both T'' where
  entry := h'.entry.trans h.entry
  keys x := (h'.keys x).trans (h.keys x)
  used x := by rw [h'.used, h.used, hboth, or_assoc]

/-- Every tunnel of a list is rolled back to its own row. -/
theorem rollbackTunnels_restores {k count : Nat} {list : CArray k (Option TunnelIdx)}
    (hfull : ∀ i, i < count → ∃ x, list.deref? i = some x)
    (hown : ∀ i x, i < count → list.deref? i = some x → T.rowOf (T.keyAt x) = some x) :
    ∃ T', rollbackTunnels list count T = some T' ∧
      Restored T (fun x => ∃ i, i < count ∧ list.deref? i = some x) T' := by
  refine forRange_isSome
    (fun j V => Restored T (fun x => ∃ i, i < j ∧ list.deref? i = some x) V)
    (Restored.refl T fun _ hx => ?_) ?_
  · obtain ⟨i, hi, -⟩ := hx
    exact absurd hi (Nat.not_lt_zero i)
  · intro j V hj hV
    obtain ⟨x, hx⟩ := hfull j hj
    have hget := CArray.deref?_eq_some_iff.mp hx
    refine ⟨(tunnelRollback V (some x)).2, by rw [hget]; rfl, ?_⟩
    have hmapped : V.rowOf (V.keyAt x) = some x := by
      rw [hV.keys, rowOf, hV.entry]
      exact hown j x hj hx
    obtain ⟨hentry, hkeys, hused⟩ := tunnelRollback_own hmapped
    refine hV.trans ⟨hentry, hkeys, hused⟩ ?_
    intro y
    constructor
    · rintro ⟨i, hi, hy⟩
      by_cases hij : i = j
      · rw [hij, hx] at hy
        exact Or.inr (Option.some.inj hy).symm
      · exact Or.inl ⟨i, by omega, hy⟩
    · rintro (⟨i, hi, hy⟩ | rfl)
      · exact ⟨i, by omega, hy⟩
      · exact ⟨j, Nat.lt_succ_self j, hx⟩

theorem rollback_restores (hfull : ctx.Full)
    (hown : ∀ x, ctx.Lists x → T.rowOf (T.keyAt x) = some x) :
    ∃ T', ctx.rollback T = some T' ∧ Restored T ctx.Lists T' := by
  obtain ⟨T₁, hpdus, h₁⟩ := rollbackTunnels_restores hfull.pdus
    fun i x hi hx => hown x (Or.inl ⟨i, hi, hx⟩)
  have hown' (i : Nat) (x : TunnelIdx) (hi : i < ctx.drbCount)
      (hx : ctx.drbTunnelList.deref? i = some x) : T₁.rowOf (T₁.keyAt x) = some x := by
    rw [h₁.keys, rowOf, h₁.entry]
    exact hown x (Or.inr ⟨i, hi, hx⟩)
  obtain ⟨T₂, hdrb, h₂⟩ := rollbackTunnels_restores hfull.drb hown'
  exact ⟨T₂, Option.bind_eq_some_iff.mpr ⟨T₁, hpdus, hdrb⟩, h₁.trans h₂ fun x => Iff.rfl⟩

/-- The rollback of a working copy rolls the tunnels of the committed row back. -/
theorem ueCtxRollback_of_modified {S : Cuup D}
    (hk : S.ue.rowOf (S.ue.ueCtxTable n).cuupUeId = some old) (hne : n ≠ old) :
    ueCtxRollback S n = if (S.ue.ueCtxTable n).isRowUsed && S.ue.used old then
      ((S.ue.ueCtxTable old).rollback S.tun).map fun T => (.success, ⟨T, S.ue.setUsed n false⟩)
      else some (.failed, S) := by
  obtain ⟨p, hl⟩ := UeCtxTable.lookup_of_rowOf hk
  have hup := UeCtxTable.not_isNone_of_up (UeCtxTable.up_of_rowOf hk)
  unfold ueCtxRollback
  rw [if_neg hup]
  simp only [hl]
  rw [if_neg (by omega)]
  simp only [if_neg hne]
  split
  · cases (S.ue.ueCtxTable old).rollback S.tun <;> rfl
  · rfl

section Rollback

variable {U : UeCtxTable D} {M : Modification D}

/-- The working copy and the committed context in their rows, and where their id leads. -/
theorem tables_of_modified (hk : S.ue.rowOf id = some old) (hused : S.ue.used old = true)
    (hmodify : ueCtxModify S.ue id = some (some n, U)) (hcuup : M.ctx.cuupUeId = id) :
    (M.tables U n).ue.ueCtxTable n = M.ctx ∧
      (M.tables U n).ue.ueCtxTable old = S.ue.ueCtxTable old ∧
      (M.tables U n).ue.rowOf ((M.tables U n).ue.ueCtxTable n).cuupUeId = some old := by
  obtain ⟨hne, -, hentry, hothers, -, -, -⟩ := ueCtxModify_lists hk hused hmodify
  have hrow : (M.tables U n).ue.ueCtxTable n = M.ctx := UeCtxTable.setRow_self M.ctx
  refine ⟨hrow, ?_, ?_⟩
  · exact (UeCtxTable.setRow_of_ne M.ctx hne.symm).trans (hothers old hne.symm)
  · rw [hrow, hcuup]
    change (U.entry id).map Prod.snd = some old
    rw [hentry]
    exact hk

theorem Unleaked.start (hunused : S.tun.UnusedWhileDown) (hord : CommittedInOrder S old)
    (hk : S.ue.rowOf id = some old) (hmodify : ueCtxModify S.ue id = some (some n, U)) :
    Unleaked S (S.ue.ueCtxTable old) id (Modification.start S U n) := by
  obtain ⟨-, -, -, -, hcuup, htaken, hlists⟩ := ueCtxModify_lists hk hord.used hmodify
  refine ⟨rfl, hunused, fun _ _ => rfl, fun _ _ => rfl, ?_, hcuup, htaken⟩
  intro x hx
  have hold := (hlists x).mp hx
  exact ⟨x, hold, hord.own x hold⟩

/-- From such a state the rollback leads back. -/
theorem Unleaked.rolledBack (h : Unleaked S (S.ue.ueCtxTable old) id M)
    (hord : CommittedInOrder S old) (hk : S.ue.rowOf id = some old)
    (hmodify : ueCtxModify S.ue id = some (some n, U)) :
    RollbackUndoes S (M.tables U n) n := by
  obtain ⟨hne, hfree, hentry, hothers, -, -, -⟩ := ueCtxModify_lists hk hord.used hmodify
  obtain ⟨hrow, holdrow, hmapped⟩ := tables_of_modified hk hord.used hmodify h.cuupUeId
  have hown (x : TunnelIdx) (hx : (S.ue.ueCtxTable old).Lists x) :
      M.tun.rowOf (M.tun.keyAt x) = some x := by
    rw [h.keys x hx, rowOf, h.entry]
    exact hord.own x hx
  obtain ⟨T', hback, hrestored⟩ := rollback_restores hord.full hown
  refine ⟨.success, ⟨T', (M.tables U n).ue.setUsed n false⟩, ?_, ?_, hentry, ?_, ?_⟩
  · have hboth : (((M.tables U n).ue.ueCtxTable n).isRowUsed &&
        (M.tables U n).ue.used old) = true := by
      rw [hrow, h.isRowUsed, UeCtxTable.used, holdrow]
      exact hord.used
    rw [ueCtxRollback_of_modified hmapped hne, if_pos hboth, holdrow]
    change Option.map _ ((S.ue.ueCtxTable old).rollback M.tun) = _
    rw [hback]
    rfl
  · exact hrestored.entry.trans h.entry
  · intro x
    rw [Bool.eq_iff_iff, hrestored.used]
    by_cases hx : (S.ue.ueCtxTable old).Lists x
    · exact iff_of_true (Or.inr hx) (hord.rows x hx)
    · rw [h.used x hx]
      exact or_iff_left hx
  · intro m
    by_cases hm : m = n
    · rw [hm, hfree, UeCtxTable.used, UeCtxTable.setUsed_self]
    · rw [UeCtxTable.used, UeCtxTable.setUsed_of_ne false hm, UeCtxTable.used, ← hothers m hm]
      exact congrArg UeCtx.isRowUsed (UeCtxTable.setRow_of_ne M.ctx hm)

end Rollback

end Pfm
