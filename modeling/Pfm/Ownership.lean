import Pfm.LookupAgreement
import Pfm.SessionRefusal
import Pfm.SetupTrace
import Pfm.SetupWork

/-!
# Which UE owns a tunnel

* `Owned` : every committed tunnel is listed by one committed context, in the list
  of its kind, and every entry of these lists is such a tunnel;
* `OpensNoTunnel` : the request gets no tunnel for any PDU session;
* `NoTunnels` : the states reached while no request has got one;
* `owned_of_opensNoTunnel` : `Owned` holds along every run of such requests.
-/

namespace Pfm

open BoundedLoop StepSystem TunnelTable

variable {D : Dpdk} {env : Env D} {S S' : Cuup D} {U U' : UeCtxTable D} {T T' : TunnelTable D}
  {ctx : UeCtx} {id : UInt32} {n : UeIdx} {ret : PfmRetval}

/-! ### Ownership -/

/-- The context lists the row, in the list of its kind. -/
def UeCtx.Owns (T : TunnelTable D) (ctx : UeCtx) (r : TunnelIdx) : Prop :=
  match (T.tunnelTable r).tunnelType with
  | .pdus => ∃ i, i < ctx.pdusCount ∧ ctx.pdusTunnelList.deref? i = some r
  | .drb => ∃ i, i < ctx.drbCount ∧ ctx.drbTunnelList.deref? i = some r

/-- A list entry is a pointer to a used row of the kind, which its key maps to. -/
def OwnedEntry (T : TunnelTable D) (ttype : TunnelType) (entry : Option TunnelIdx) : Prop :=
  ∃ r, entry = some r ∧ T.used r = true ∧ (T.tunnelTable r).tunnelType = ttype ∧
    T.rowOf (T.keyAt r) = some r

/-- No committed tunnel leaks, and no committed context lists anything else. -/
structure Owned (S : Cuup D) : Prop where
  owner : ∀ k r, S.tun.rowOf k = some r →
    ∃! id, ∃ n, S.ue.rowOf id = some n ∧ (S.ue.ueCtxTable n).Owns S.tun r
  pdus : ∀ id n i, S.ue.rowOf id = some n → i < (S.ue.ueCtxTable n).pdusCount →
    OwnedEntry S.tun .pdus ((S.ue.ueCtxTable n).pdusTunnelList.deref? i)
  drb : ∀ id n i, S.ue.rowOf id = some n → i < (S.ue.ueCtxTable n).drbCount →
    OwnedEntry S.tun .drb ((S.ue.ueCtxTable n).drbTunnelList.deref? i)

/-! ### States without tunnels -/

/-- No row of the UE table lists a tunnel. -/
def BareRows (U : UeCtxTable D) : Prop := ∀ n, (U.ueCtxTable n).Bare

/-- Nothing is committed in the tunnel table, no row of it was handed out, and no
context lists anything. -/
structure NoTunnels (S : Cuup D) : Prop where
  keys : ∀ k, S.tun.rowOf k = none
  free : ∀ r, S.tun.used r = false
  bare : BareRows S.ue

theorem NoTunnels.init (D : Dpdk) : NoTunnels (Cuup.init D) where
  keys _ := TunnelTable.rowOf_eq_none_iff.mpr (TunnelTable.entry_of_down rfl)
  free _ := rfl
  bare _ := ⟨rfl, rfl⟩

theorem NoTunnels.owned (h : NoTunnels S) : Owned S where
  owner k r hk := by simp [h.keys k] at hk
  pdus id n i _ hi := by
    rw [(h.bare n).pdus] at hi
    omega
  drb id n i _ hi := by
    rw [(h.bare n).drb] at hi
    omega

theorem BareRows.setRow (h : BareRows U) (hc : ctx.Bare) : BareRows (U.setRow n ctx) := by
  intro n'
  by_cases hn : n' = n
  · subst hn
    rw [UeCtxTable.setRow_self]
    exact hc
  · rw [UeCtxTable.setRow_of_ne ctx hn]
    exact h n'

theorem BareRows.setUsed (h : BareRows U) (b : Bool) : BareRows (U.setUsed n b) :=
  h.setRow ⟨(h n).pdus, (h n).drb⟩

theorem BareRows.takeRow (h : BareRows U) : BareRows (U.takeRow n id) := by
  have hset : BareRows (U.setRow n { U.ueCtxTable n with cuupUeId := id, isRowUsed := true }) :=
    h.setRow ⟨(h n).pdus, (h n).drb⟩
  exact hset

theorem BareRows.idAlloc (h : BareRows U) : BareRows (ueCtxIdAlloc env U).2 := by
  rcases ueCtxIdAlloc_cases env U with ⟨_, he | he⟩ | ⟨hup, he⟩
  · rw [he]
    exact h
  · rw [he]
    exact fun n => ⟨(h n).pdus, (h n).drb⟩
  · rcases ueCtxIdSearch_cases hup with ⟨_, hs⟩ | ⟨i, _, _, hs⟩
    · rw [he, hs]
      exact h
    · rw [he, hs]
      exact h

theorem BareRows.modify (h : BareRows U) {got : Option UeIdx}
    (hm : ueCtxModify U id = some (got, U')) : BareRows U' := by
  rcases ueCtxModify_cases hm with ⟨_, rfl⟩ | ⟨n, old, _, _, _, _, _, _, _, rfl⟩
  · exact h
  · have htaken : BareRows (U.takeRow n id) := h.takeRow
    refine htaken.setRow ⟨?_, ?_⟩
    · simp only [UeCtx.copied, (htaken old).pdus, ite_self]
    · simp only [UeCtx.copied, (htaken old).drb, ite_self]

theorem BareRows.commitEntry (h : BareRows U) (n : UeIdx) :
    BareRows (ueCtxCommitEntry U n).2 := by
  have hcases := ueCtxCommitEntry_cases U n
  generalize ueCtxCommitEntry U n = res at hcases ⊢
  obtain ⟨ret, U'⟩ := res
  simp only at hcases ⊢
  cases hcases with
  | down | kept | inserted | refused | deleted => exact h
  | replaced t p old => exact h.setUsed (n := old) false

/-- `ue_ctx_commit` touches no tunnel then. -/
theorem NoTunnels.commit (h : NoTunnels S) {newCtx : Option UeIdx}
    (hc : ueCtxCommit S newCtx = some (ret, S')) : NoTunnels S' := by
  rcases ueCtxCommit_split hc with ⟨_, rfl⟩ | ⟨n, rfl, hup⟩
  · exact h
  · rw [ueCtxCommit_of_bare hup (h.bare n)] at hc
    simp only [Option.some.injEq, Prod.mk.injEq] at hc
    rw [← hc.2]
    exact ⟨h.keys, h.free, h.bare.commitEntry n⟩

/-- Nor does `ue_ctx_remove`. -/
theorem NoTunnels.remove (h : NoTunnels S) (hr : ueCtxRemove S id = some (ret, S')) :
    NoTunnels S' := by
  rcases ueCtxRemove_cases hr with ⟨_, _, rfl⟩ | ⟨n, T₁, _, _, hpdus, hdrb, hue⟩
  · exact h
  · rw [(h.bare n).pdus] at hpdus
    rw [(h.bare n).drb] at hdrb
    obtain rfl : S.tun = T₁ := Option.some.inj hpdus
    have htun : S.tun = S'.tun := Option.some.inj hdrb
    exact ⟨htun ▸ h.keys, htun ▸ h.free, hue ▸ h.bare.setUsed false⟩

/-- Nor does `ue_ctx_rollback`. -/
theorem NoTunnels.rollback (h : NoTunnels S) (hr : ueCtxRollback S n = some (ret, S')) :
    NoTunnels S' := by
  rcases ueCtxRollback_cases hr with rfl | ⟨_, m, k, b, hroll, hue⟩
  · exact h
  · unfold UeCtx.rollback at hroll
    rw [(h.bare m).pdus, (h.bare m).drb] at hroll
    have htun : S.tun = S'.tun := Option.some.inj hroll
    exact ⟨htun ▸ h.keys, htun ▸ h.free, hue ▸ h.bare.setUsed b⟩

/-- Setting the tunnel table up puts nothing into it. -/
theorem noKeys_of_ensureUp (hkeys : ∀ k, T.rowOf k = none) (hfree : ∀ r, T.used r = false)
    (h : T' = T ∨ tunnelTableEnsureUp env T = some T') :
    (∀ k, T'.rowOf k = none) ∧ ∀ r, T'.used r = false := by
  rcases h with rfl | hup
  · exact ⟨hkeys, hfree⟩
  · refine ⟨fun k => by rw [rowOf_ensureUp hup, hkeys], fun r => ?_⟩
    rcases tunnelTableEnsureUp_cases env T with ⟨_, he⟩ | ⟨_, _, he⟩ | ⟨_, _, he⟩
    · obtain rfl := Option.some.inj (he.symm.trans hup)
      exact hfree r
    · obtain rfl := Option.some.inj (he.symm.trans hup)
      rfl
    · simp [he] at hup

/-! ### One request -/

/-- The request gets no tunnel for any PDU session: it is refused before, or none
of its sessions can get one. -/
def OpensNoTunnel (S : Cuup D) : E1apCall D → Prop
  | .setup env req _ =>
      RefusedAtOnce S.ue ∨ NoSessionOpens env S.tun req.pdusList req.pdusCount
  | .modify env req _ =>
      (∀ n U, ueCtxModify S.ue req.cuupUeId = some (some n, U) →
        (U.ueCtxTable n).cucpUeId ≠ req.cucpUeId) ∨
      NoSessionOpens env S.tun req.pdusSetupList req.pdusSetupCount
  | .release _ => True

theorem NoTunnels.setup (h : NoTunnels S) {req : E1apBearerCtxSetupReq}
    {rsp rsp' : E1apBearerCtxSetupRsp} (hopen : OpensNoTunnel S (.setup env req rsp))
    (hs : e1apBearerCtxSetup env S req rsp = some (ret, rsp', S')) : NoTunnels S' := by
  have served : ∀ {id : UInt32} {U U' : UeCtxTable D} {n : UeIdx}
      {w : CtxWork D E1apBearerCtxSetupRsp}, ueCtxIdAlloc env S.ue = (some id, U) →
      ueCtxAdd env U id = (some n, U') →
      forRange (e1apSetupPdus env req) req.pdusCount (setupStart S.tun U' n req rsp) =
        some w → NoTunnels (w.tables U' n) := by
    intro id U U' n w halloc hadd hserve
    obtain ⟨hup, hid, habs, _, i, rfl⟩ := ueCtxIdAlloc_some halloc
    obtain ⟨hrow, rfl⟩ := ueCtxAdd_some (U := { S.ue with lastAssignedId := i }) hup habs hadd
    obtain ⟨_, _, hbare⟩ :=
      setupStart_row { S.ue with lastAssignedId := i } n id S.tun req rsp
    have hclosed : NoSessionOpens env S.tun req.pdusList req.pdusCount := by
      rcases hopen with (hdown | hno | hno) | hclosed
      · simp [hdown] at hup
      · exact absurd hno hid
      · exact absurd hno hrow
      · exact hclosed
    have hcount : req.pdusCount ≤ maxPdusPerUe := by
      by_contra hlt
      obtain ⟨_, _, hturn⟩ := forRange_turn hserve (Nat.lt_of_not_le hlt)
      obtain ⟨_, _, _, _, hget, _⟩ := e1apSetupPdus_cases hturn
      exact absurd (CArray.lt_of_get? hget) (Nat.lt_irrefl _)
    obtain ⟨T', href, hT'⟩ := sessionsRefused_of_noSessionOpens hclosed hcount
    obtain ⟨w', hrun, rfl, hctx, _, _⟩ := e1apSetupPdus_of_refused
      (w := setupStart S.tun (UeCtxTable.takeRow { S.ue with lastAssignedId := i } n id) n
        req rsp) hbare rfl rfl href
    obtain rfl := Option.some.inj (hrun.symm.trans hserve)
    obtain ⟨hkeys, hfree⟩ := noKeys_of_ensureUp h.keys h.free hT'
    have htaken : BareRows (UeCtxTable.takeRow { S.ue with lastAssignedId := i } n id) :=
      BareRows.takeRow (U := { S.ue with lastAssignedId := i }) h.bare
    exact ⟨hkeys, hfree, htaken.setRow (hctx ▸ hbare)⟩
  cases e1apBearerCtxSetup_cases hs with
  | noId U _ alloc =>
      have hU : BareRows (ueCtxIdAlloc env S.ue).2 := h.bare.idAlloc
      rw [alloc] at hU
      exact ⟨h.keys, h.free, hU⟩
  | noRow id U U' _ alloc add =>
      obtain ⟨hup, _, habs, _, i, rfl⟩ := ueCtxIdAlloc_some alloc
      obtain rfl := ueCtxAdd_none (U := { S.ue with lastAssignedId := i }) hup habs add
      exact ⟨h.keys, h.free, h.bare⟩
  | noneServed id U U' n w ret₁ ret₂ S₁ S₂ _ alloc add serve _ remove commit =>
      exact ((served alloc add serve).remove remove).commit commit
  | committed id U U' n w _ S₁ alloc add serve _ commit _ =>
      exact (served alloc add serve).commit commit
  | rolledBack id U U' n w ret₂ ret₃ S₁ S₂ S₃ _ alloc add serve _ commit rollback recommit =>
      exact (((served alloc add serve).commit commit).rollback rollback).commit recommit

theorem NoTunnels.modify (h : NoTunnels S) {req : E1apBearerCtxModifyReq}
    {rsp rsp' : E1apBearerCtxModifyRsp} (hopen : OpensNoTunnel S (.modify env req rsp))
    (hs : e1apBearerCtxModify env S req rsp = some (ret, rsp', S')) : NoTunnels S' := by
  have served : ∀ {U : UeCtxTable D} {n : UeIdx} {w : CtxWork D E1apBearerCtxModifyRsp},
      ueCtxModify S.ue req.cuupUeId = some (some n, U) →
      (U.ueCtxTable n).cucpUeId = req.cucpUeId →
      e1apModifyItems env req (modifyStart S.tun U n req rsp) = some w →
      NoTunnels (w.tables U n) := by
    intro U n w hm hsame hserve
    have hU : BareRows U := h.bare.modify hm
    have hclosed := hopen.resolve_left fun hno => hno n U hm hsame
    have hcount : req.pdusSetupCount ≤ maxPdusPerUe := by
      by_contra hlt
      unfold e1apModifyItems at hserve
      obtain ⟨_, _, hserve⟩ := Option.bind_eq_some_iff.mp hserve
      obtain ⟨_, _, hserve⟩ := Option.bind_eq_some_iff.mp hserve
      obtain ⟨_, _, hturn⟩ := forRange_turn hserve (Nat.lt_of_not_le hlt)
      unfold e1apModifySetupPdus at hturn
      obtain ⟨_, hget, _⟩ := Option.bind_eq_some_iff.mp hturn
      exact absurd (CArray.lt_of_get? hget) (Nat.lt_irrefl _)
    obtain ⟨T', href, hT'⟩ := sessionsRefused_of_noSessionOpens hclosed hcount
    obtain ⟨htun, hctx, _⟩ := e1apModifyItems_of_refused
      (w := modifyStart S.tun U n req rsp) (hU n) rfl rfl href hserve
    obtain ⟨hkeys, hfree⟩ := noKeys_of_ensureUp h.keys h.free hT'
    exact ⟨by rw [← htun] at hkeys; exact hkeys, by rw [← htun] at hfree; exact hfree,
      hU.setRow (hctx ▸ hU n)⟩
  cases e1apBearerCtxModify_cases hs with
  | noRow U _ modify => exact ⟨h.keys, h.free, h.bare.modify modify⟩
  | otherCucp U n _ S₁ _ modify _ rollback =>
      exact NoTunnels.rollback (S := { S with ue := U })
        ⟨h.keys, h.free, h.bare.modify modify⟩ rollback
  | committed U n w _ S₁ modify same serve commit _ =>
      exact (served modify same serve).commit commit
  | rolledBack U n w _ S₁ S₂ _ modify same serve commit rollback =>
      exact ((served modify same serve).commit commit).rollback rollback

theorem NoTunnels.release (h : NoTunnels S) {req : E1apBearerCtxReleaseCmd}
    (hs : e1apBearerCtxRelease S req = some (ret, S')) : NoTunnels S' := by
  cases e1apBearerCtxRelease_cases hs with
  | unknown => exact h
  | committed _ S₁ _ remove commit => exact (h.remove remove).commit commit

/-- **One request.**  While no request gets a tunnel there is none. -/
theorem NoTunnels.step (h : NoTunnels S) {call : E1apCall D} (hopen : OpensNoTunnel S call)
    (hs : e1apStep S call = some S') : NoTunnels S' := by
  cases call with
  | setup env req rsp =>
      obtain ⟨out, hout, rfl⟩ := Option.map_eq_some_iff.mp hs
      exact h.setup hopen hout
  | modify env req rsp =>
      obtain ⟨out, hout, rfl⟩ := Option.map_eq_some_iff.mp hs
      exact h.modify hopen hout
  | release req =>
      obtain ⟨out, hout, rfl⟩ := Option.map_eq_some_iff.mp hs
      exact h.release hout

/-- **Every run.** -/
theorem owned_of_opensNoTunnel (D : Dpdk) (calls : List (E1apCall D))
    (h : Along e1apStep OpensNoTunnel (Cuup.init D) calls) :
    Always e1apStep Owned (Cuup.init D) calls :=
  (always_of_along (fun _ _ _ hS hopen hstep => hS.step hopen hstep) (NoTunnels.init D) h).imp
    fun _ hS => hS.owned

/-- Two requests: one sets the UE table up, one reaches no peer. -/
theorem owned_unrouted :
    Always e1apStep Owned (Cuup.init listDpdk)
      [oneSetup, .setup upfEnv unroutedReq setupRsp] := by
  refine owned_of_opensNoTunnel listDpdk _
    ⟨Or.inl (Or.inl rfl), fun S _ => ⟨Or.inr (Or.inr ?_), fun _ _ => trivial⟩⟩
  intro i item _ hget
  obtain ⟨_, rfl⟩ := CArray.get?_eq_some_iff.mp hget
  change tunnelLocalIp upfEnv 1 .pdus = none
  decide

/-- After one served setup the PDU-session list holds the tunnel of the DRB. -/
theorem oneSetup_not_owned :
    ¬ ∀ calls S, exec e1apStep (Cuup.init listDpdk) calls = some S → Owned S := by
  intro h
  have hdec : ((exec e1apStep (Cuup.init listDpdk) [oneSetup, oneSetup]).bind fun S =>
      (S.ue.rowOf 1).bind fun n =>
        ((S.ue.ueCtxTable n).pdusTunnelList.deref? 0).map fun r =>
          decide (0 < (S.ue.ueCtxTable n).pdusCount ∧
            (S.tun.tunnelTable r).tunnelType = .drb)) = some true := by
    decide
  obtain ⟨S, hS, hrest⟩ := Option.bind_eq_some_iff.mp hdec
  obtain ⟨n, hn, hrest⟩ := Option.bind_eq_some_iff.mp hrest
  obtain ⟨r, hr, hfacts⟩ := Option.map_eq_some_iff.mp hrest
  obtain ⟨hcount, hdrb⟩ := of_decide_eq_true hfacts
  obtain ⟨r', hr', _, hpdus, _⟩ := (h _ S hS).pdus 1 n 0 hn hcount
  obtain rfl := Option.some.inj (hr.symm.trans hr')
  rw [hdrb] at hpdus
  cases hpdus

end Pfm
