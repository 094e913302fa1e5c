import Pfm.FlowResidue
import Pfm.ModificationUndone

/-!
# Modifications that leave a row

A row that is handed out to the working copy is in no list of the committed context and no key
maps to it, so no later call marks it free again.  A session whose DRBs all failed has its key
entered in the hash instead, where it stays.
-/

namespace Pfm

open BoundedLoop CircularScan StepSystem TunnelTable

variable {D : Dpdk} {env : Env D} {T T' T₀ : TunnelTable D} {S : Cuup D} {ctx c₀ : UeCtx}
  {id : UInt32} {r nt : TunnelIdx}

/-! ### A row that is left -/

section RowKept

variable {t : Tunnel}

theorem RowKept.withEntries (h : RowKept r t T) {t' : D.tunnelHash.Table}
    (hash : (T.withHash t').entry = T.entry) : RowKept r t (T.withHash t') where
  row := h.row
  used := h.used
  up := rfl
  unmapped k := by
    rw [rowOf, hash]
    exact h.unmapped k

theorem RowKept.withHash (h : RowKept r t T) {t' : D.tunnelHash.Table} {key : TunnelKey}
    {e : Option (Fin maxTunnelCount × TunnelIdx)}
    (hash : (T.withHash t').entry = Function.update T.entry key e)
    (he : e.map Prod.snd ≠ some r) : RowKept r t (T.withHash t') where
  row := h.row
  used := h.used
  up := rfl
  unmapped k := by
    rw [rowOf, hash]
    by_cases hk : k = key
    · rw [hk, Function.update_self]
      exact he
    · rw [Function.update_of_ne hk]
      exact h.unmapped k

theorem RowKept.setUsed (h : RowKept r t T) {x : TunnelIdx} (hne : r ≠ x) (b : Bool) :
    RowKept r t (T.setUsed x b) :=
  h.setRow hne _

/-- Another row is committed. -/
theorem RowKept.committed (h : RowKept r t T) {x : TunnelIdx} (hne : r ≠ x) :
    RowKept r t (tunnelCommit T (some x)).2 := by
  have hother {p : Fin maxTunnelCount} : (some (p, x)).map Prod.snd ≠ some r :=
    fun heq => hne (Option.some.inj heq).symm
  have hout := tunnelCommit_cases T x
  generalize (tunnelCommit T (some x)).1 = ret, (tunnelCommit T (some x)).2 = T₁ at hout ⊢
  cases hout with
  | down | kept => exact h
  | inserted t' p absent hash => exact h.withHash hash hother
  | refused t' absent hash => exact h.withEntries hash
  | deleted t' p mapped unused hash => exact h.withHash hash (Option.some_ne_none r).symm
  | replaced t' p old mapped ne hash =>
      have hold : r ≠ old := by
        rintro rfl
        exact h.unmapped _ (rowOf_eq_some_iff.mpr ⟨p, mapped⟩)
      exact (h.setUsed hold false).withHash hash hother

theorem RowKept.rolledBack (h : RowKept r t T) {x : TunnelIdx} (hne : r ≠ x) :
    RowKept r t (tunnelRollback T (some x)).2 := by
  rcases tunnelRollback_marks T (some x) with he | ⟨y, b, hy, -, he⟩
  · rw [he]
    exact h
  · obtain rfl := Option.some.inj hy
    rw [he]
    exact h.setUsed hne b

theorem RowKept.pdusSetupDrbs (h : RowKept r t T) {req : PdusSetupReqInfo}
    {w w' : PdusWork D PdusSetupSuccRspInfo} {m : Nat} (hw : w.tun = T)
    (hrun : forRange (pdusSetupDrb env req) m w = some w') : RowKept r t w'.tun := by
  refine forRange_invariant (fun _ (v : PdusWork D PdusSetupSuccRspInfo) => RowKept r t v.tun)
    (hw ▸ h) ?_ hrun
  intro i v v' _ hv hturn
  obtain ⟨_, _, _, hout, htun, _⟩ := pdusSetupDrb_cases hturn
  rw [htun]
  exact hv.drbSetup hout

theorem RowKept.pdusSetup (h : RowKept r t T) {req : PdusSetupReqInfo}
    {succ : PdusSetupSuccRspInfo} {out : PdusServed D PdusSetupSuccRspInfo}
    (hs : pdusSetup env T ctx req succ = some out) : RowKept r t out.tun := by
  cases pdusSetup_cases hs with
  | refused => exact h
  | noTunnel T₁ cause opened => exact (h.opened opened).1
  | noDrb key x T₁ w cause opened drbs =>
      obtain ⟨h₁, hne⟩ := h.opened opened
      have hdrbs := (h₁.setRow (hne key x rfl) _).pdusSetupDrbs rfl drbs
      exact (hdrbs.removed key).committed (hne key x rfl)
  | served key x T₁ w list opened drbs =>
      obtain ⟨h₁, hne⟩ := h.opened opened
      exact (h₁.setRow (hne key x rfl) _).pdusSetupDrbs rfl drbs

theorem RowKept.pdusModify (h : RowKept r t T) {req : PdusModifyReqInfo}
    {succ : PdusModifySuccRspInfo} {idx : Nat} {out : PdusServed D PdusModifySuccRspInfo}
    (hs : pdusModify env T ctx req succ idx = some out) : RowKept r t out.tun := by
  obtain ⟨_, _, hcases⟩ := pdusModify_cases hs
  cases hcases with
  | noTunnel T₁ modified => exact (h.modified modified).1
  | served x T₁ T₂ w w' list modified removes modifies setups =>
      obtain ⟨h₁, hne⟩ := h.modified modified
      exact (h₁.setRow (hne x rfl) _).pdusModifyDrbs removes modifies setups

end RowKept

/-- A key that is committed stays so until the next commit. -/
theorem keyPresent_workInvariant (D : Dpdk) (k : TunnelKey) :
    WorkInvariant (D := D) (fun T => T.entry k ≠ none) where
  opened env T remoteIp ttype h := by
    have hup : T.tunnelHashtable.isSome = true := by
      obtain ⟨x, hx⟩ := Option.ne_none_iff_exists'.mp h
      exact up_of_entry hx
    have hensure : tunnelTableEnsureUp env T = some T := if_pos hup
    rcases tunnelOpen_cases env T remoteIp ttype with ⟨_, he⟩ | ⟨T₁, h₁, hopen⟩
    · rw [he]
      exact h
    · obtain rfl : T = T₁ := Option.some.inj (hensure.symm.trans h₁)
      rcases hopen with he | ⟨ip, i, _, _, _, ⟨_, he⟩ | ⟨r, _, _, he⟩⟩
      · rw [he]
        exact h
      · rw [he]
        exact h
      · rw [he]
        exact h
  modified {T} key h := by
    rcases tunnelModify_cases T key with ⟨_, he⟩ | ⟨_, he⟩
    · rw [he]
      exact h
    · rw [he]
      rcases tunnelAlloc_cases T key with ha | ⟨r, _, _, _, ha⟩
      · rw [ha]
        exact h
      · rw [ha]
        exact h
  removed {T} key h := by
    rcases tunnelRemove_cases T key with ⟨r, _, he⟩ | ⟨_, _, _, he⟩
    · rw [he]
      exact h
    · rw [he]
      exact h
  fillDrb _ _ h := h
  fillPdus _ _ h := h
  copyDrb _ _ h := h
  copyPdus _ _ h := h

/-- More is committed than in `T₀`, or a row not used there is used without a key that maps
to it. -/
def Leaked (T₀ T : TunnelTable D) : Prop :=
  (∃ k, T₀.entry k = none ∧ T.entry k ≠ none) ∨ ∃ r t, T₀.used r = false ∧ RowKept r t T

/-- What a session leaves committed when all its DRBs failed. -/
theorem Leaked.pdusSetup (h : Leaked T₀ T) {req : PdusSetupReqInfo}
    {succ : PdusSetupSuccRspInfo} {out : PdusServed D PdusSetupSuccRspInfo}
    (hs : pdusSetup env T ctx req succ = some out) : Leaked T₀ out.tun := by
  rcases h with ⟨k, habs, hpres⟩ | ⟨r, t, hfree, hrow⟩
  · have hI := keyPresent_workInvariant D k
    refine Or.inl ⟨k, habs, ?_⟩
    cases pdusSetup_cases hs with
    | refused => exact hpres
    | noTunnel T₁ cause opened => exact hI.of_opened hpres opened
    | served key x T₁ w list opened drbs => exact hI.pdusSetupDrbs hpres opened drbs
    | noDrb key x T₁ w cause opened drbs all =>
        have hkey := hI.pdusSetupDrbs hpres opened drbs
        obtain ⟨-, -, -, -, -, hkeyAt, hnone, hremove⟩ := noDrb_table opened drbs all
        change (tunnelCommit (tunnelRemove w.tun key).2 (some x)).2.entry k ≠ none
        rw [hremove]
        rw [← hkeyAt] at hnone
        rcases tunnelCommit_of_new hnone with he | ⟨t, he, hsame | ⟨p, hash⟩⟩
        · rw [he]
          exact hkey
        · rw [he, hsame]
          exact hkey
        · have hne : k ≠ w.tun.keyAt x := by
            rintro rfl
            exact hkey (rowOf_eq_none_iff.mp hnone)
          rw [he, hash, Function.update_of_ne hne]
          exact hkey
  · exact Or.inr ⟨r, t, hfree, hrow.pdusSetup hs⟩

/-- What is left stays left, whatever is called. -/
theorem Leaked.step {M M' : Modification D} {call : ModificationCall D}
    (h : Leaked T₀ M.tun) (hs : modificationStep M call = some M') : Leaked T₀ M'.tun := by
  have work {T' : TunnelTable D} (hkey : ∀ k, M.tun.entry k ≠ none → T'.entry k ≠ none)
      (hrow : ∀ r t, RowKept r t M.tun → RowKept r t T') : Leaked T₀ T' := by
    rcases h with ⟨k, habs, hpres⟩ | ⟨r, t, hfree, hkept⟩
    · exact Or.inl ⟨k, habs, hkey k hpres⟩
    · exact Or.inr ⟨r, t, hfree, hrow r t hkept⟩
  cases call with
  | pdusSetup env req succ =>
      obtain ⟨out, hout, rfl⟩ := Option.map_eq_some_iff.mp hs
      exact h.pdusSetup hout
  | pdusModify env req succ idx =>
      obtain ⟨nt, -, hs⟩ := Option.bind_eq_some_iff.mp hs
      obtain ⟨out, hout, rfl⟩ := Option.map_eq_some_iff.mp hs
      exact work (fun k hk => (keyPresent_workInvariant D k).pdusModify hk hout)
        fun _ _ hrow => hrow.pdusModify hout
  | drbSetup env req =>
      obtain ⟨out, hout, rfl⟩ := Option.map_eq_some_iff.mp hs
      exact work (fun k hk => (keyPresent_workInvariant D k).drbSetup hk hout)
        fun _ _ hrow => hrow.drbSetup hout
  | drbModify req idx =>
      obtain ⟨nt, -, hs⟩ := Option.bind_eq_some_iff.mp hs
      obtain ⟨out, hout, rfl⟩ := Option.map_eq_some_iff.mp hs
      exact work (fun k hk => (keyPresent_workInvariant D k).drbModify hk hout)
        fun _ _ hrow => hrow.drbModify hout
  | pdusRemove idx =>
      obtain ⟨nt, -, hs⟩ := Option.bind_eq_some_iff.mp hs
      obtain rfl := Option.some.inj hs
      exact work (fun k hk => (keyPresent_workInvariant D k).removed _ hk)
        fun _ _ hrow => hrow.removed _
  | drbRemove idx =>
      obtain ⟨nt, -, hs⟩ := Option.bind_eq_some_iff.mp hs
      obtain rfl := Option.some.inj hs
      exact work (fun k hk => (keyPresent_workInvariant D k).removed _ hk)
        fun _ _ hrow => hrow.removed _

/-! ### The first call that leaves a row -/

section Leaks

variable {M M' : Modification D} {call : ModificationCall D}

/-- The row a key maps to is one of the committed context's, or was free before. -/
theorem Unleaked.free_of_unmapped (h : Unleaked S c₀ id M)
    (hown : ∀ x, c₀.Lists x → S.tun.rowOf (S.tun.keyAt x) = some x)
    (hrow : ∀ k, M.tun.rowOf k ≠ some r) (hfree : M.tun.used r = false) :
    S.tun.used r = false := by
  rw [← h.used r ?_]
  · exact hfree
  · intro hin
    refine hrow (M.tun.keyAt r) ?_
    rw [h.keys r hin, rowOf, h.entry]
    exact hown r hin

/-- A row that is handed out for a new tunnel. -/
theorem Unleaked.opened (h : Unleaked S c₀ id M)
    (hown : ∀ x, c₀.Lists x → S.tun.rowOf (S.tun.keyAt x) = some x)
    (hnext : NextRowUncommitted M call) {remoteIp : PfmIpAddr} {ttype : TunnelType}
    {key : TunnelKey} (ho : tunnelOpen env M.tun remoteIp ttype = (some (key, r), T')) :
    S.tun.used r = false ∧
      ∀ t, t.isRowUsed = T'.used r → RowKept r t (T'.setRow r t) := by
  obtain ⟨T₁, h₁, hr, hhash, hused⟩ := tunnelOpen_next ho
  have hfree := nextTunnelRow_unused hr
  have hup : T'.tunnelHashtable.isSome = true := by
    rw [hhash]
    exact tunnelTableEnsureUp_up h₁
  have hcases : S.tun.used r = false ∧ ∀ k, T₁.rowOf k ≠ some r := by
    rcases tunnelTableEnsureUp_cases env M.tun with
      ⟨-, he⟩ | ⟨hdown, -, he⟩ | ⟨-, -, he⟩
    · obtain rfl := Option.some.inj (he.symm.trans h₁)
      exact ⟨h.free_of_unmapped hown (hnext r hr) hfree, hnext r hr⟩
    · obtain rfl := Option.some.inj (he.symm.trans h₁)
      have hnone (k : TunnelKey) : M.tun.rowOf k ≠ some r := by
        rw [rowOf_of_down hdown]
        exact (Option.some_ne_none r).symm
      refine ⟨h.free_of_unmapped hown hnone (h.unused hdown r), ?_⟩
      intro k
      rw [rowOf, cleared_entry]
      exact (Option.some_ne_none r).symm
    · rw [he] at h₁
      cases h₁
  refine ⟨hcases.1, ?_⟩
  intro t ht
  refine ⟨setRow_self t, ht.trans hused, hup, ?_⟩
  intro k
  have hentry : (T'.setRow r t).rowOf k = T₁.rowOf k := by
    rw [rowOf, TunnelTable.entry, setRow_hash, hhash, rowOf, TunnelTable.entry]
  rw [hentry]
  exact hcases.2 k

theorem Unleaked.leaks_pdusSetup (h : Unleaked S c₀ id M)
    (hown : ∀ x, c₀.Lists x → S.tun.rowOf (S.tun.keyAt x) = some x)
    (hnext : NextRowUncommitted M call) {req : PdusSetupReqInfo} {succ : PdusSetupSuccRspInfo}
    {out : PdusServed D PdusSetupSuccRspInfo} (hadm : ¬ PdusRefused M.tun M.ctx req)
    (hopens : ¬ NoTunnel env M.tun req.pdusUlIpAddr .pdus)
    (hs : pdusSetup env M.tun M.ctx req succ = some out) : Leaked S.tun out.tun := by
  cases pdusSetup_cases hs with
  | refused cause why => exact absurd why hadm
  | noTunnel T' cause opened =>
      refine absurd ((tunnelOpen_none_iff env M.tun req.pdusUlIpAddr .pdus).mp ?_) hopens
      rw [opened]
  | served key r T' w list opened drbs =>
      obtain ⟨hfree, hkept⟩ := h.opened hown hnext opened
      have hstart := hkept ((T'.tunnelTable r).fillPdus req) rfl
      exact Or.inr ⟨r, _, hfree, hstart.pdusSetupDrbs rfl drbs⟩
  | noDrb key r T' w cause opened drbs all =>
      obtain ⟨hfree, hkept⟩ := h.opened hown hnext opened
      have hstart := hkept ((T'.tunnelTable r).fillPdus req) rfl
      have hrow := hstart.pdusSetupDrbs rfl drbs
      obtain ⟨T₁, h₁, -, hhash, -, hkeyAt, hnone, hremove⟩ := noDrb_table opened drbs all
      have habs : S.tun.entry key = none := by
        rw [← h.entry]
        rw [rowOf_eq_none_iff, TunnelTable.entry, hhash] at hnone
        rcases tunnelTableEnsureUp_cases env M.tun with
          ⟨-, he⟩ | ⟨hdown, -, -⟩ | ⟨-, -, he⟩
        · obtain rfl := Option.some.inj (he.symm.trans h₁)
          exact hnone
        · exact entry_of_down hdown
        · rw [he] at h₁
          cases h₁
      change Leaked S.tun (tunnelCommit (tunnelRemove w.tun key).2 (some r)).2
      rw [hremove]
      rw [← hkeyAt] at hnone habs
      rcases tunnelCommit_of_new hnone with he | ⟨t, he, hsame | ⟨p, hash⟩⟩
      · rw [he]
        exact Or.inr ⟨r, _, hfree, hrow⟩
      · rw [he]
        exact Or.inr ⟨r, _, hfree, hrow.withEntries hsame⟩
      · refine Or.inl ⟨w.tun.keyAt r, habs, ?_⟩
        rw [he, hash, Function.update_self]
        exact Option.some_ne_none _

/-- **The first call that is not one of those.** -/
theorem Unleaked.leaks (h : Unleaked S c₀ id M)
    (hown : ∀ x, c₀.Lists x → S.tun.rowOf (S.tun.keyAt x) = some x)
    (hnext : NextRowUncommitted M call) (hleaves : ¬ LeavesNoRow M call)
    (hs : modificationStep M call = some M') : Leaked S.tun M'.tun := by
  -- The row that `tunnel_modify` gives, once it is written.
  have written {key : TunnelKey} {r : TunnelIdx} {T₁ : TunnelTable D}
      (modified : tunnelModify M.tun key = (some r, T₁)) {t : Tunnel}
      (ht : t.isRowUsed = true) : S.tun.used r = false ∧ RowKept r t (T₁.setRow r t) := by
    obtain ⟨hr, hmapped, rfl⟩ := tunnelModify_next modified
    obtain ⟨y, hy⟩ := Option.ne_none_iff_exists'.mp hmapped
    exact ⟨h.free_of_unmapped hown (hnext r hr) (nextTunnelRow_unused hr),
      setRow_self t, ht, up_of_mapped hy, hnext r hr⟩
  cases call with
  | pdusSetup env req succ =>
      obtain ⟨out, hout, rfl⟩ := Option.map_eq_some_iff.mp hs
      exact h.leaks_pdusSetup hown hnext (fun href => hleaves (Or.inl href))
        (fun hno => hleaves (Or.inr hno)) hout
  | drbSetup env req =>
      obtain ⟨out, hout, rfl⟩ := Option.map_eq_some_iff.mp hs
      rcases drbSetup_of_admitted (fun href => hleaves (Or.inl href)) hout with
        hnone | ⟨key, r, T₁, opened, htun⟩
      · exact absurd (Or.inr ((tunnelOpen_none_iff env M.tun req.drbDlIpAddr .drb).mp hnone))
          hleaves
      · obtain ⟨hfree, hkept⟩ := h.opened hown hnext opened
        have hrow := hkept ((T₁.tunnelTable r).fillDrb req) rfl
        rw [← htun] at hrow
        exact Or.inr ⟨r, _, hfree, hrow⟩
  | pdusModify env req succ idx =>
      obtain ⟨nt, out, hnt, houtcome, rfl⟩ := pdusModify_of_step hs
      cases houtcome with
      | noTunnel T₁ modified =>
          refine absurd ?_ hleaves
          intro x hx
          obtain rfl := Option.some.inj (hnt.symm.trans hx)
          exact noRowFor_of_none modified
      | served r T₁ T₂ w w' list modified removes modifies setups =>
          have hused : (T₁.tunnelTable r).isRowUsed = true := by
            rw [(tunnelModify_next modified).2.2, takeRow_row]
          obtain ⟨hfree, hkept⟩ := written modified
            (t := (T₁.tunnelTable r).copyPdus (T₁.tunnelTable nt)) hused
          exact Or.inr ⟨r, _, hfree, hkept.pdusModifyDrbs removes modifies setups⟩
  | drbModify req idx =>
      obtain ⟨nt, hnt, houtcome⟩ := drbModify_of_step hs
      have hnot : ¬ (NoRowFor M.tun nt ∨ M.tun.used nt = false ∧
          ∀ r, nextTunnelRow M.tun = some r → r ≠ nt ∧ ∀ k, M.tun.rowOf k ≠ some r) := by
        intro hor
        refine hleaves ?_
        intro x hx
        obtain rfl := Option.some.inj (hnt.symm.trans hx)
        exact hor
      rcases houtcome with ⟨T₁, modified, -⟩ | ⟨r, T₁, list, modified, -, rfl⟩
      · exact absurd (Or.inl (noRowFor_of_none modified)) hnot
      · obtain ⟨hr, -, htaken⟩ := tunnelModify_next modified
        have hused : (T₁.tunnelTable nt).isRowUsed = true := by
          rw [htaken]
          by_cases heq : nt = r
          · rw [heq, takeRow_row]
          · rw [takeRow_of_ne heq]
            by_contra hne
            refine hnot (Or.inr ⟨Bool.eq_false_iff.mpr hne, ?_⟩)
            intro x hx
            obtain rfl := Option.some.inj (hr.symm.trans hx)
            exact ⟨Ne.symm heq, hnext r hr⟩
        obtain ⟨hfree, hkept⟩ := written modified hused
        exact Or.inr ⟨r, _, hfree, hkept⟩
  | pdusRemove idx => exact absurd trivial hleaves
  | drbRemove idx => exact absurd trivial hleaves

end Leaks

end Pfm
