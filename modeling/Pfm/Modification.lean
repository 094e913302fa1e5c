import Pfm.PdusTrace
import Pfm.TableInvariant

/-!
# Modifying a UE

`ue_ctx_modify` gives a working copy of a committed context, the sessions and DRBs of a
request are served in it, and `ue_ctx_rollback` is to undo all that.

* `Modification`, `modificationStep` : the tunnel table and the working copy, and the calls
  made on it;
* `RollbackUndoes` : both hashes and every used flag are as before `ue_ctx_modify`;
* `LeavesNoRow` : a call after which no more rows are used than before.
-/

namespace Pfm

open BoundedLoop CircularScan StepSystem TunnelTable

variable {D : Dpdk} {env : Env D} {T T' : TunnelTable D} {ctx : UeCtx} {r nt : TunnelIdx}

/-! ### The calls made on a working copy -/

/-- The tunnel table and the context that `ue_ctx_modify` returned. -/
structure Modification (D : Dpdk) where
  tun : TunnelTable D
  ctx : UeCtx

/-- `pdusRemove` and `drbRemove` are calls of `tunnel_remove` for a tunnel of the context. -/
inductive ModificationCall (D : Dpdk) where
  | pdusSetup (env : Env D) (req : PdusSetupReqInfo) (succ : PdusSetupSuccRspInfo)
  | pdusModify (env : Env D) (req : PdusModifyReqInfo) (succ : PdusModifySuccRspInfo)
      (idx : Nat)
  | drbSetup (env : Env D) (req : DrbSetupReqInfo)
  | drbModify (req : DrbModifyReqInfo) (idx : Nat)
  | pdusRemove (idx : Nat)
  | drbRemove (idx : Nat)

/-- The tunnel at a position of the PDU-session list, below the count. -/
def UeCtx.pdusAt (ctx : UeCtx) (idx : Nat) : Option TunnelIdx :=
  if idx < ctx.pdusCount then ctx.pdusTunnelList.deref? idx else none

/-- The tunnel at a position of the DRB list, below the count. -/
def UeCtx.drbAt (ctx : UeCtx) (idx : Nat) : Option TunnelIdx :=
  if idx < ctx.drbCount then ctx.drbTunnelList.deref? idx else none

/-- Positions are those of tunnels the context lists. -/
def modificationStep (M : Modification D) : ModificationCall D → Option (Modification D)
  | .pdusSetup env req succ =>
      (pdusSetup env M.tun M.ctx req succ).map fun out => ⟨out.tun, out.ctx⟩
  | .pdusModify env req succ idx => do
      let _ ← M.ctx.pdusAt idx
      (pdusModify env M.tun M.ctx req succ idx).map fun out => ⟨out.tun, out.ctx⟩
  | .drbSetup env req => (drbSetup env M.tun M.ctx req).map fun out => ⟨out.tun, out.ctx⟩
  | .drbModify req idx => do
      let _ ← M.ctx.drbAt idx
      (drbModify M.tun M.ctx req idx).map fun out => ⟨out.tun, out.ctx⟩
  | .pdusRemove idx => do
      let nt ← M.ctx.pdusAt idx
      some ⟨(tunnelRemove M.tun (M.tun.tunnelTable nt).key).2, M.ctx⟩
  | .drbRemove idx => do
      let nt ← M.ctx.drbAt idx
      some ⟨(tunnelRemove M.tun (M.tun.tunnelTable nt).key).2, M.ctx⟩

/-- What `ue_ctx_modify` returned row `n` of `U` for, before a call is made. -/
def Modification.start (S : Cuup D) (U : UeCtxTable D) (n : UeIdx) : Modification D :=
  ⟨S.tun, U.ueCtxTable n⟩

/-- The tables with the working copy in its row. -/
def Modification.tables (M : Modification D) (U : UeCtxTable D) (n : UeIdx) : Cuup D :=
  ⟨M.tun, U.setRow n M.ctx⟩

/-- `ue_ctx_rollback` of row `n` runs in `S'`, and leads back to the keys and the used flags
of `S`. -/
def RollbackUndoes (S S' : Cuup D) (n : UeIdx) : Prop :=
  ∃ ret S'', ueCtxRollback S' n = some (ret, S'') ∧
    S''.tun.entry = S.tun.entry ∧ S''.ue.entry = S.ue.entry ∧
    (∀ r, S''.tun.used r = S.tun.used r) ∧ ∀ m, S''.ue.used m = S.ue.used m

/-- The row of the UE is used, and so is that of every tunnel it lists, to which the key of
the tunnel maps. -/
structure CommittedInOrder (S : Cuup D) (old : UeIdx) : Prop where
  used : S.ue.used old = true
  full : (S.ue.ueCtxTable old).Full
  own : ∀ x, (S.ue.ueCtxTable old).Lists x → S.tun.rowOf (S.tun.keyAt x) = some x
  rows : ∀ x, (S.ue.ueCtxTable old).Lists x → S.tun.used x = true

/-! ### Calls that leave no row -/

/-- The DRB is refused by the context: the list is full, or has its id. -/
def DrbRefused (T : TunnelTable D) (ctx : UeCtx) (req : DrbSetupReqInfo) : Prop :=
  ctx.drbCount = maxDrbPerUe ∨ ∃ j, findDrb T ctx req.drbId = some (some j)

/-- `tunnel_modify` gives no row for the key of a tunnel. -/
def NoRowFor (T : TunnelTable D) (nt : TunnelIdx) : Prop :=
  T.rowOf (T.keyAt nt) = none ∨ NoRowFound T

/-- The row the next call gets that needs one. -/
def nextTunnelRow (T : TunnelTable D) : Option TunnelIdx :=
  scan (fun i => rowProbe (T.used i)) T.lastAllocatedSlot

/-- The call is refused before a row is taken; or it is to modify a DRB that was removed
before, and copies the used flag of that row into the one it takes. -/
def LeavesNoRow (M : Modification D) : ModificationCall D → Prop
  | .pdusSetup env req _ =>
      PdusRefused M.tun M.ctx req ∨ NoTunnel env M.tun req.pdusUlIpAddr .pdus
  | .pdusModify _ _ _ idx => ∀ nt, M.ctx.pdusAt idx = some nt → NoRowFor M.tun nt
  | .drbSetup env req =>
      DrbRefused M.tun M.ctx req ∨ NoTunnel env M.tun req.drbDlIpAddr .drb
  | .drbModify _ idx => ∀ nt, M.ctx.drbAt idx = some nt → NoRowFor M.tun nt ∨
      M.tun.used nt = false ∧ ∀ r, nextTunnelRow M.tun = some r →
        r ≠ nt ∧ ∀ k, M.tun.rowOf k ≠ some r
  | .pdusRemove _ => True
  | .drbRemove _ => True

/-- No key maps to the row that is handed out next. -/
def NextRowUncommitted (M : Modification D) (_ : ModificationCall D) : Prop :=
  ∀ r, nextTunnelRow M.tun = some r → ∀ k, M.tun.rowOf k ≠ some r

/-! ### The functions of the table -/

theorem tunnelAlloc_eq (T : TunnelTable D) (key : TunnelKey) :
    tunnelAlloc T key =
      (nextTunnelRow T, ((nextTunnelRow T).map fun r => T.takeRow r key).getD T) := by
  unfold tunnelAlloc nextTunnelRow
  cases scan (fun i => rowProbe (T.used i)) T.lastAllocatedSlot with
  | none => rfl
  | some r => rfl

theorem nextTunnelRow_unused (h : nextTunnelRow T = some r) : T.used r = false :=
  rowProbe_eq_take_iff.mp (scan_take h)

/-- A tunnel that is modified has been given the next row. -/
theorem tunnelModify_next {key : TunnelKey} (h : tunnelModify T key = (some r, T')) :
    nextTunnelRow T = some r ∧ T.rowOf key ≠ none ∧ T' = T.takeRow r key := by
  obtain ⟨hentry, -, htaken⟩ := tunnelModify_some h
  refine ⟨?_, ?_, htaken⟩
  · rcases tunnelModify_cases T key with ⟨-, he⟩ | ⟨-, he⟩
    · rw [h] at he
      cases he
    · rw [h, tunnelAlloc_eq] at he
      exact (Prod.mk.inj he).1.symm
  · rw [Ne, rowOf_eq_none_iff]
    exact Option.isSome_iff_ne_none.mp hentry

/-- A tunnel that is opened has been given the next row. -/
theorem tunnelOpen_next {remoteIp : PfmIpAddr} {ttype : TunnelType} {key : TunnelKey}
    (h : tunnelOpen env T remoteIp ttype = (some (key, r), T')) :
    ∃ T₁, tunnelTableEnsureUp env T = some T₁ ∧ nextTunnelRow T₁ = some r ∧
      T'.tunnelHashtable = T₁.tunnelHashtable ∧ T'.used r = true := by
  unfold tunnelOpen at h
  rcases tunnelKeyAlloc_cases env T remoteIp ttype with
    ⟨-, he⟩ | ⟨T₁, h₁, he | ⟨ip, i, d, -, -, he⟩⟩
  · simp only [he] at h
    cases h
  · simp only [he] at h
    cases h
  · simp only [he] at h
    refine ⟨T₁, h₁, ?_⟩
    have hup : T₁.tunnelHashtable.isSome = true := tunnelTableEnsureUp_up h₁
    rcases tunnelAdd_cases env { T₁ with lastAssignedId := i } (teKey ip i) with
      ⟨-, hadd⟩ | ⟨T₂, h₂, ⟨-, hadd⟩ | ⟨-, hadd⟩⟩
    · simp only [hadd] at h
      cases h
    · simp only [hadd] at h
      cases h
    · have hensure : tunnelTableEnsureUp env { T₁ with lastAssignedId := i } =
          some { T₁ with lastAssignedId := i } := if_pos hup
      obtain rfl := Option.some.inj (hensure.symm.trans h₂)
      have hsame : nextTunnelRow { T₁ with lastAssignedId := i } = nextTunnelRow T₁ := rfl
      simp only [hadd, tunnelAlloc_eq, hsame] at h
      cases hnext : nextTunnelRow T₁ with
      | none =>
          simp only [hnext] at h
          cases h
      | some x =>
          simp only [hnext, Option.map_some, Option.getD_some] at h
          obtain ⟨hx, rfl⟩ := Prod.mk.inj h
          obtain rfl := (Prod.mk.inj (Option.some.inj hx)).2
          refine ⟨rfl, rfl, ?_⟩
          rw [used_takeRow, if_pos rfl]

theorem tunnelModify_none (h : NoRowFor T nt) :
    tunnelModify T (T.tunnelTable nt).key = (none, T) := by
  rcases tunnelModify_cases T (T.tunnelTable nt).key with ⟨-, he⟩ | ⟨hentry, he⟩
  · exact he
  · rcases h with habs | hfull
    · rw [rowOf_eq_none_iff] at habs
      rw [show T.keyAt nt = (T.tunnelTable nt).key from rfl] at habs
      rw [habs] at hentry
      cases hentry
    · rw [he]
      rcases tunnelAlloc_cases T (T.tunnelTable nt).key with hnone | ⟨r, d, hfree, hpass, -⟩
      · exact hnone
      · have hused := hfull r (hpass.eq ▸ ahead_ne_self _ hpass.pos hpass.lt)
        rw [hfree] at hused
        cases hused

theorem noRowFor_of_none (h : tunnelModify T (T.tunnelTable nt).key = (none, T')) :
    NoRowFor T nt := by
  rcases tunnelModify_cases T (T.tunnelTable nt).key with ⟨habs, -⟩ | ⟨-, he⟩
  · exact Or.inl (rowOf_eq_none_iff.mpr habs)
  · rw [h] at he
    exact Or.inr (tunnelAlloc_none_iff.mp (congrArg Prod.fst he).symm)

theorem drbSetup_of_refused_ctx {req : DrbSetupReqInfo} {out : DrbServed D}
    (href : DrbRefused T ctx req) (h : drbSetup env T ctx req = some out) :
    out.tun = T ∧ out.ctx = ctx := by
  unfold drbSetup at h
  split at h
  · obtain rfl := Option.some.inj h
    exact ⟨rfl, rfl⟩
  · rename_i hmax
    obtain ⟨j, hfind⟩ := href.resolve_left hmax
    rw [hfind] at h
    obtain rfl := Option.some.inj h
    exact ⟨rfl, rfl⟩

/-- A DRB the context does not refuse is set up in a row if one is handed out. -/
theorem drbSetup_of_admitted {req : DrbSetupReqInfo} {out : DrbServed D}
    (hadm : ¬ DrbRefused T ctx req) (h : drbSetup env T ctx req = some out) :
    (tunnelOpen env T req.drbDlIpAddr .drb).1 = none ∨
      ∃ key r T₁, tunnelOpen env T req.drbDlIpAddr .drb = (some (key, r), T₁) ∧
        out.tun = T₁.setRow r ((T₁.tunnelTable r).fillDrb req) := by
  unfold drbSetup at h
  rw [if_neg fun hmax => hadm (Or.inl hmax)] at h
  obtain ⟨found, hfound, h⟩ := Option.bind_eq_some_iff.mp h
  cases found with
  | some j => exact absurd (Or.inr ⟨j, hfound⟩) hadm
  | none =>
      cases hopen : tunnelOpen env T req.drbDlIpAddr .drb with
      | mk got T₁ =>
          cases got with
          | none => exact Or.inl rfl
          | some kr =>
              obtain ⟨key, r⟩ := kr
              simp only [hopen] at h
              obtain ⟨list, -, h⟩ := Option.bind_eq_some_iff.mp h
              obtain rfl := Option.some.inj h
              exact Or.inr ⟨key, r, T₁, rfl, rfl⟩

/-- Rolling back a tunnel under whose key its row is committed marks that row used. -/
theorem tunnelRollback_own (h : T.rowOf (T.keyAt nt) = some nt) :
    (tunnelRollback T (some nt)).2.entry = T.entry ∧
      (∀ x, (tunnelRollback T (some nt)).2.keyAt x = T.keyAt x) ∧
      ∀ x, (tunnelRollback T (some nt)).2.used x = true ↔ T.used x = true ∨ x = nt := by
  have hmapped : T.rowOf (T.tunnelTable nt).key = some nt := h
  have hout := tunnelRollback_cases T nt
  generalize (tunnelRollback T (some nt)).1 = ret, (tunnelRollback T (some nt)).2 = T₁ at hout ⊢
  cases hout with
  | down hash =>
      rw [rowOf_of_down hash] at hmapped
      cases hmapped
  | abandoned absent | invalid absent =>
      rw [absent] at hmapped
      cases hmapped
  | dropped x mapped ne | stuck x mapped ne =>
      exact absurd (Option.some.inj (hmapped.symm.trans mapped)) ne
  | kept _ used =>
      refine ⟨rfl, fun _ => rfl, ?_⟩
      intro x
      constructor
      · exact Or.inl
      · rintro (hx | rfl)
        · exact hx
        · exact used
  | restored _ unused =>
      refine ⟨rfl, fun _ => setUsed_key true, ?_⟩
      intro x
      rw [used_setUsed]
      by_cases hx : x = nt
      · simp [hx]
      · simp [hx]

end Pfm
