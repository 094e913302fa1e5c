import Pfm.UeCtxInvariant

/-!
# Invariants of the tunnel table

The requests change the tunnel table through five functions of `tunnel.c` and by writing
the row they were just given.  A property that these keep is kept by every request.

* `WorkInvariant`, `TableInvariant` : what a property has to be kept by, before the commit
  and with it;
* `TableInvariant.step` : it is kept by every request;
* `CuupReachable.unusedWhileDown` : no row is used before the table is set up.
-/

namespace Pfm

open BoundedLoop StepSystem TunnelTable

variable {D : Dpdk} {env : Env D} {T T' : TunnelTable D} {S S' : Cuup D} {ctx : UeCtx}
  {n : UeIdx} {id : UInt32} {ret : PfmRetval} {Inv : TunnelTable D → Prop}

/-- Handing rows out, marking them free and writing them keeps `Inv`. -/
structure WorkInvariant (Inv : TunnelTable D → Prop) : Prop where
  opened : ∀ env {T} remoteIp ttype, Inv T → Inv (tunnelOpen env T remoteIp ttype).2
  modified : ∀ {T} key, Inv T → Inv (tunnelModify T key).2
  removed : ∀ {T} key, Inv T → Inv (tunnelRemove T key).2
  fillDrb : ∀ {T} r req, Inv T → Inv (T.setRow r ((T.tunnelTable r).fillDrb req))
  fillPdus : ∀ {T} r req, Inv T → Inv (T.setRow r ((T.tunnelTable r).fillPdus req))
  copyDrb : ∀ {T} r old, Inv T → Inv (T.setRow r (T.tunnelTable old))
  copyPdus : ∀ {T} r old, Inv T →
    Inv (T.setRow r ((T.tunnelTable r).copyPdus (T.tunnelTable old)))

/-- Every function of the table keeps `Inv`, and so does every write to a row. -/
structure TableInvariant (Inv : TunnelTable D → Prop) : Prop extends WorkInvariant Inv where
  committed : ∀ {T} nt, Inv T → Inv (tunnelCommit T (some nt)).2
  rolledBack : ∀ {T} nt, Inv T → Inv (tunnelRollback T nt).2

namespace WorkInvariant

/-! ### DRBs and PDU sessions -/

theorem of_opened (hI : WorkInvariant Inv) (h : Inv T) {remoteIp : PfmIpAddr}
    {ttype : TunnelType} {got : Option (TunnelKey × TunnelIdx)}
    (ho : tunnelOpen env T remoteIp ttype = (got, T')) : Inv T' := by
  have hopened := hI.opened env remoteIp ttype h
  rw [ho] at hopened
  exact hopened

theorem of_modified (hI : WorkInvariant Inv) (h : Inv T) {key : TunnelKey}
    {got : Option TunnelIdx} (hm : tunnelModify T key = (got, T')) : Inv T' := by
  have hmodified := hI.modified key h
  rw [hm] at hmodified
  exact hmodified

theorem drbSetup (hI : WorkInvariant Inv) (h : Inv T) {req : DrbSetupReqInfo}
    {out : DrbServed D} (hs : drbSetup env T ctx req = some out) : Inv out.tun := by
  rcases drbSetup_cases hs with ⟨_, _, htun | ⟨_, htun⟩⟩ | ⟨_, r, T₁, _, hopen, _, rfl⟩
  · rw [htun]
    exact h
  · rw [htun]
    exact hI.opened env req.drbDlIpAddr .drb h
  · exact hI.fillDrb r req (hI.of_opened h hopen)

theorem drbModify (hI : WorkInvariant Inv) (h : Inv T) {req : DrbModifyReqInfo} {idx : Nat}
    {out : DrbServed D} (hs : drbModify T ctx req idx = some out) : Inv out.tun := by
  obtain ⟨old, _, hcases⟩ := drbModify_cases hs
  rcases hcases with ⟨T₁, hm, htun, _⟩ | ⟨r, T₁, _, hm, _, htun, _⟩
  · rw [htun]
    exact hI.of_modified h hm
  · rw [htun]
    exact hI.copyDrb r old (hI.of_modified h hm)

theorem pdusSetupDrbs (hI : WorkInvariant Inv) (h : Inv T) {req : PdusSetupReqInfo}
    {succ : PdusSetupSuccRspInfo} {key : TunnelKey} {r : TunnelIdx} {m : Nat}
    {w : PdusWork D PdusSetupSuccRspInfo}
    (hopen : tunnelOpen env T req.pdusUlIpAddr .pdus = (some (key, r), T'))
    (hrun : forRange (pdusSetupDrb env req) m (pdusSetupStart T' ctx req succ r) = some w) :
    Inv w.tun := by
  refine forRange_invariant (fun _ (v : PdusWork D PdusSetupSuccRspInfo) => Inv v.tun)
    (s := pdusSetupStart T' ctx req succ r) (hI.fillPdus r req (hI.of_opened h hopen)) ?_ hrun
  intro i v v' _ hv hturn
  obtain ⟨_, _, _, hout, htun, _⟩ := pdusSetupDrb_cases hturn
  rw [htun]
  exact hI.drbSetup hv hout

theorem pdusModify (hI : WorkInvariant Inv) (h : Inv T) {req : PdusModifyReqInfo}
    {succ : PdusModifySuccRspInfo} {idx : Nat} {out : PdusServed D PdusModifySuccRspInfo}
    (hs : pdusModify env T ctx req succ idx = some out) : Inv out.tun := by
  obtain ⟨old, _, hcases⟩ := pdusModify_cases hs
  cases hcases with
  | noTunnel T₁ hm => exact hI.of_modified h hm
  | served r T₁ T₂ w w' list hm removes modifies setups =>
      have h₂ : Inv T₂ := by
        refine forRange_invariant (fun _ T => Inv T)
          (hI.copyPdus r old (hI.of_modified h hm)) ?_ removes
        intro i V V' _ hV hturn
        rcases pdusModifyRemoveDrb_cases hturn with rfl | ⟨key, rfl⟩
        · exact hV
        · exact hI.removed key hV
      have hw : Inv w.tun := by
        refine forRange_invariant (fun _ (v : PdusWork D PdusModifySuccRspInfo) => Inv v.tun)
          h₂ ?_ modifies
        intro i v v' _ hv hturn
        rcases pdusModifyModifyDrb_cases hturn with ⟨htun, _⟩ | ⟨_, _, _, hout, htun, _⟩
        · rw [htun]
          exact hv
        · rw [htun]
          exact hI.drbModify hv hout
      refine forRange_invariant (fun _ (v : PdusWork D PdusModifySuccRspInfo) => Inv v.tun)
        hw ?_ setups
      intro i v v' _ hv hturn
      obtain ⟨_, _, hout, htun, _⟩ := pdusModifySetupDrb_cases hturn
      rw [htun]
      exact hI.drbSetup hv hout

end WorkInvariant

namespace TableInvariant

theorem pdusSetup (hI : TableInvariant Inv) (h : Inv T) {req : PdusSetupReqInfo}
    {succ : PdusSetupSuccRspInfo} {out : PdusServed D PdusSetupSuccRspInfo}
    (hs : pdusSetup env T ctx req succ = some out) : Inv out.tun := by
  cases pdusSetup_cases hs with
  | refused => exact h
  | noTunnel T₁ cause hopen => exact hI.of_opened h hopen
  | noDrb key r T₁ w cause hopen drbs =>
      exact hI.committed r (hI.removed key (hI.pdusSetupDrbs h hopen drbs))
  | served key r T₁ w list hopen drbs => exact hI.pdusSetupDrbs h hopen drbs

/-! ### Contexts and procedures -/

theorem removeTunnels (hI : TableInvariant Inv) (h : Inv T) {m count : Nat}
    {l : CArray m (Option TunnelIdx)} (hr : removeTunnels l count T = some T') : Inv T' := by
  refine forRange_invariant (fun _ T => Inv T) h ?_ hr
  intro i V V' _ hV hturn
  obtain ⟨nt, _, hturn⟩ := Option.bind_eq_some_iff.mp hturn
  obtain rfl := Option.some.inj hturn
  exact hI.removed _ hV

theorem rollbackTunnels (hI : TableInvariant Inv) (h : Inv T) {m count : Nat}
    {l : CArray m (Option TunnelIdx)} (hr : rollbackTunnels l count T = some T') :
    Inv T' := by
  refine forRange_invariant (fun _ T => Inv T) h ?_ hr
  intro i V V' _ hV hturn
  obtain ⟨nt, _, hturn⟩ := Option.bind_eq_some_iff.mp hturn
  obtain rfl := Option.some.inj hturn
  exact hI.rolledBack nt hV

theorem commitTunnels (hI : TableInvariant Inv) {m count : Nat}
    {s s' : TunnelTable D × CArray m (Option TunnelIdx)} (h : Inv s.1)
    (hr : commitTunnels count s = some s') : Inv s'.1 := by
  refine forRange_invariant (fun _ (s : TunnelTable D × CArray m (Option TunnelIdx)) =>
    Inv s.1) h ?_ hr
  intro i v v' _ hv hturn
  obtain ⟨nt, _, hturn⟩ := Option.bind_eq_some_iff.mp hturn
  simp only at hturn
  split at hturn
  · obtain rfl := Option.some.inj hturn
    exact hI.committed nt hv
  · obtain ⟨list, _, hturn⟩ := Option.bind_eq_some_iff.mp hturn
    obtain rfl := Option.some.inj hturn
    exact hI.committed nt hv

theorem ueCtxRemove (hI : TableInvariant Inv) (h : Inv S.tun)
    (hr : ueCtxRemove S id = some (ret, S')) : Inv S'.tun := by
  rcases ueCtxRemove_cases hr with ⟨_, _, rfl⟩ | ⟨_, _, _, _, hpdus, hdrb, _⟩
  · exact h
  · exact hI.removeTunnels (hI.removeTunnels h hpdus) hdrb

theorem ueCtxCommit (hI : TableInvariant Inv) (h : Inv S.tun) {newCtx : Option UeIdx}
    (hc : ueCtxCommit S newCtx = some (ret, S')) : Inv S'.tun := by
  rcases ueCtxCommit_split hc with ⟨_, rfl⟩ | ⟨n, rfl, hup⟩
  · exact h
  · obtain ⟨hdone⟩ := ueCtxCommit_cases hup hc
    have h₁ : Inv hdone.tun₁ := hI.commitTunnels (s := (S.tun, _)) h hdone.commitDrb
    exact hI.commitTunnels (s := (hdone.tun₁, _)) h₁ hdone.commitPdus

theorem ueCtxRollback (hI : TableInvariant Inv) (h : Inv S.tun)
    (hr : ueCtxRollback S n = some (ret, S')) : Inv S'.tun := by
  rcases ueCtxRollback_cases hr with rfl | ⟨_, m, k, b, hroll, _⟩
  · exact h
  · obtain ⟨T₁, hpdus, hdrb⟩ := Option.bind_eq_some_iff.mp hroll
    exact hI.rollbackTunnels (hI.rollbackTunnels h hpdus) hdrb

theorem setup (hI : TableInvariant Inv) (h : Inv S.tun) {req : E1apBearerCtxSetupReq}
    {rsp rsp' : E1apBearerCtxSetupRsp}
    (hs : e1apBearerCtxSetup env S req rsp = some (ret, rsp', S')) : Inv S'.tun := by
  have served : ∀ {U : UeCtxTable D} {n : UeIdx} {w : CtxWork D E1apBearerCtxSetupRsp},
      forRange (e1apSetupPdus env req) req.pdusCount (setupStart S.tun U n req rsp) = some w →
      Inv w.tun := by
    intro U n w hrun
    refine forRange_invariant (fun _ (v : CtxWork D E1apBearerCtxSetupRsp) => Inv v.tun)
      (s := setupStart S.tun U n req rsp) h ?_ hrun
    intro i v v' _ hv hturn
    obtain ⟨_, _, _, _, _, hout, _, htun, _⟩ := e1apSetupPdus_cases hturn
    rw [htun]
    exact hI.pdusSetup hv hout
  cases e1apBearerCtxSetup_cases hs with
  | noId | noRow => exact h
  | noneServed id U U' n w ret₁ ret₂ S₁ S₂ _ _ _ serve _ remove commit =>
      exact hI.ueCtxCommit (hI.ueCtxRemove (S := w.tables U' n) (served serve) remove) commit
  | committed id U U' n w ret S₁ _ _ serve _ commit _ =>
      exact hI.ueCtxCommit (S := w.tables U' n) (served serve) commit
  | rolledBack id U U' n w ret₂ ret₃ S₁ S₂ S₃ _ _ _ serve _ commit rollback recommit =>
      have h₁ := hI.ueCtxCommit (S := w.tables U' n) (served serve) commit
      exact hI.ueCtxCommit (hI.ueCtxRollback h₁ rollback) recommit

theorem modify (hI : TableInvariant Inv) (h : Inv S.tun) {req : E1apBearerCtxModifyReq}
    {rsp rsp' : E1apBearerCtxModifyRsp}
    (hs : e1apBearerCtxModify env S req rsp = some (ret, rsp', S')) : Inv S'.tun := by
  have served : ∀ {U : UeCtxTable D} {n : UeIdx} {w : CtxWork D E1apBearerCtxModifyRsp},
      e1apModifyItems env req (modifyStart S.tun U n req rsp) = some w → Inv w.tun := by
    intro U n w hitems
    obtain ⟨w₁, hremove, hitems⟩ := Option.bind_eq_some_iff.mp hitems
    obtain ⟨w₂, hmodify, hsetup⟩ := Option.bind_eq_some_iff.mp hitems
    have h₁ : Inv w₁.tun := by
      refine forRange_invariant (fun _ (v : ModifyWork D) => Inv v.tun)
        (s := ⟨modifyStart S.tun U n req rsp, .failed⟩) h ?_ hremove
      intro i v v' _ hv hturn
      rcases (e1apModifyRemovePdus_cases hturn).2 with htun | ⟨key, htun⟩
      · rw [htun]
        exact hv
      · rw [htun]
        exact hI.removed key hv
    have h₂ : Inv w₂.tun := by
      refine forRange_invariant (fun _ (v : ModifyWork D) => Inv v.tun) h₁ ?_ hmodify
      intro i v v' _ hv hturn
      rcases e1apModifyModifyPdus_cases hturn with ⟨htun, _⟩ | ⟨_, _, _, _, hout, htun, _⟩
      · rw [htun]
        exact hv
      · rw [htun]
        exact hI.pdusModify hv hout
    refine forRange_invariant (fun _ (v : CtxWork D E1apBearerCtxModifyRsp) => Inv v.tun)
      h₂ ?_ hsetup
    intro i v v' _ hv hturn
    obtain ⟨_, _, _, hout, htun, _⟩ := e1apModifySetupPdus_cases hturn
    rw [htun]
    exact hI.pdusSetup hv hout
  cases e1apBearerCtxModify_cases hs with
  | noRow => exact h
  | otherCucp U n ret₁ S₁ _ _ _ rollback =>
      exact hI.ueCtxRollback (S := { S with ue := U }) h rollback
  | committed U n w _ S₁ _ _ serve commit _ =>
      exact hI.ueCtxCommit (S := w.tables U n) (served serve) commit
  | rolledBack U n w ret₂ S₁ S₂ _ _ _ serve commit rollback =>
      have h₁ := hI.ueCtxCommit (S := w.tables U n) (served serve) commit
      exact hI.ueCtxRollback h₁ rollback

theorem release (hI : TableInvariant Inv) (h : Inv S.tun) {req : E1apBearerCtxReleaseCmd}
    (hs : e1apBearerCtxRelease S req = some (ret, S')) : Inv S'.tun := by
  cases e1apBearerCtxRelease_cases hs with
  | unknown => exact h
  | committed _ S₁ _ remove commit => exact hI.ueCtxCommit (hI.ueCtxRemove h remove) commit

/-- **One request.** -/
theorem step (hI : TableInvariant Inv) (h : Inv S.tun) {call : E1apCall D}
    (hs : e1apStep S call = some S') : Inv S'.tun := by
  cases call with
  | setup env req rsp =>
      obtain ⟨out, hout, rfl⟩ := Option.map_eq_some_iff.mp hs
      exact hI.setup h hout
  | modify env req rsp =>
      obtain ⟨out, hout, rfl⟩ := Option.map_eq_some_iff.mp hs
      exact hI.modify h hout
  | release req =>
      obtain ⟨out, hout, rfl⟩ := Option.map_eq_some_iff.mp hs
      exact hI.release h hout

/-- **Every run.** -/
theorem reachable (hI : TableInvariant Inv) (h : Inv (TunnelTable.init D))
    (hS : CuupReachable S) : Inv S.tun :=
  hS.invariant (fun S => Inv S.tun) h fun _ _ _ hV hstep => hI.step hV hstep

end TableInvariant

/-! ### A table that is not set up -/

/-- While the table has no hash, no row is used. -/
def TunnelTable.UnusedWhileDown (T : TunnelTable D) : Prop :=
  T.tunnelHashtable = none → ∀ r, T.used r = false

theorem unusedWhileDown_of_up (h : T.tunnelHashtable.isSome = true) : T.UnusedWhileDown := by
  intro hdown
  rw [hdown] at h
  cases h

/-- A row is written without marking it. -/
theorem TunnelTable.UnusedWhileDown.setRow (h : T.UnusedWhileDown) (r : TunnelIdx) {t : Tunnel}
    (ht : ∃ x, t.isRowUsed = T.used x) : (T.setRow r t).UnusedWhileDown := by
  intro hdown r'
  by_cases hr : r' = r
  · obtain ⟨x, hx⟩ := ht
    rw [hr, TunnelTable.used, setRow_self, hx]
    exact h hdown x
  · rw [TunnelTable.used, setRow_of_ne t hr]
    exact h hdown r'

theorem unusedWhileDown_tableInvariant (D : Dpdk) :
    TableInvariant (D := D) TunnelTable.UnusedWhileDown where
  opened env T remoteIp ttype h := by
    rcases tunnelOpen_cases env T remoteIp ttype with ⟨_, he⟩ | ⟨T₁, hensure, hopen⟩
    · rw [he]
      exact h
    · have hup : T₁.tunnelHashtable.isSome = true := tunnelTableEnsureUp_up hensure
      rcases hopen with he | ⟨ip, i, _, _, _, ⟨_, he⟩ | ⟨r, _, _, he⟩⟩
      · rw [he]
        exact unusedWhileDown_of_up hup
      · rw [he]
        exact unusedWhileDown_of_up hup
      · rw [he]
        exact unusedWhileDown_of_up hup
  modified {T} key h := by
    rcases tunnelModify_cases T key with ⟨_, he⟩ | ⟨hentry, he⟩
    · rw [he]
      exact h
    · obtain ⟨x, hx⟩ := Option.isSome_iff_exists.mp hentry
      have hup := up_of_entry hx
      rw [he]
      rcases tunnelAlloc_cases T key with ha | ⟨r, _, _, _, ha⟩
      · rw [ha]
        exact h
      · rw [ha]
        exact unusedWhileDown_of_up hup
  removed {T} key h := by
    rcases tunnelRemove_cases T key with ⟨r, hr, he⟩ | ⟨_, _, _, he⟩
    · rw [he]
      exact unusedWhileDown_of_up (up_of_mapped hr)
    · rw [he]
      exact h
  committed {T} nt h := by
    have hout := tunnelCommit_cases T nt
    generalize (tunnelCommit T (some nt)).1 = ret, (tunnelCommit T (some nt)).2 = T₁ at hout ⊢
    cases hout with
    | down | kept => exact h
    | inserted | refused | deleted | replaced => exact unusedWhileDown_of_up rfl
  rolledBack {T} nt h := by
    rcases tunnelRollback_marks T nt with he | ⟨r, b, _, hup, he⟩
    · rw [he]
      exact h
    · rw [he]
      exact unusedWhileDown_of_up hup
  fillDrb r req h := h.setRow r ⟨r, rfl⟩
  fillPdus r req h := h.setRow r ⟨r, rfl⟩
  copyDrb r old h := h.setRow r ⟨old, rfl⟩
  copyPdus r old h := h.setRow r ⟨r, rfl⟩

theorem CuupReachable.unusedWhileDown (h : CuupReachable S) : S.tun.UnusedWhileDown :=
  (unusedWhileDown_tableInvariant D).reachable (fun _ _ => rfl) h

end Pfm
