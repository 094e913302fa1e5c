import Pfm.FlowResidue
import Pfm.LookupAgreement
import Pfm.ProcedureResidue

/-!
# Residue of earlier users of a row

Two states that differ only in free rows are served the same requests.

* `SameButFree` : the two states;
* `SameRuns` : the responses and the committed contents are the same;
* `SameLeftovers` : the free rows differ at most in what filling a row writes;
* `runs_ignore_free_rows` : then every run is the same, and a new row starts with the
  flow and mapping fields every row has.
-/

namespace Pfm

open BoundedLoop StepSystem TwoRuns TunnelTable

variable {D : Dpdk} {S S' : Cuup D} {A : Set TunnelIdx} {n : UeIdx} {id : UInt32}

/-! ### Runs of set-up and modify requests -/

/-- A request to set up or to modify a bearer context. -/
inductive BearerCall (D : Dpdk) where
  | setup (env : Env D) (req : E1apBearerCtxSetupReq) (rsp : E1apBearerCtxSetupRsp)
  | modify (env : Env D) (req : E1apBearerCtxModifyReq) (rsp : E1apBearerCtxModifyRsp)

/-- Its return value and response. -/
inductive BearerAnswer where
  | setup (ret : PfmRetval) (rsp : E1apBearerCtxSetupRsp)
  | modify (ret : PfmRetval) (rsp : E1apBearerCtxModifyRsp)

def serveBearer (S : Cuup D) : BearerCall D → Option (BearerAnswer × Cuup D)
  | .setup env req rsp => (e1apBearerCtxSetup env S req rsp).map fun out =>
      (.setup out.1 out.2.1, out.2.2)
  | .modify env req rsp => (e1apBearerCtxModify env S req rsp).map fun out =>
      (.modify out.1 out.2.1, out.2.2)

/-- The same context, as far as its lists are filled. -/
structure SameContext (c c' : UeCtx) : Prop where
  cuupUeId : c'.cuupUeId = c.cuupUeId
  cucpUeId : c'.cucpUeId = c.cucpUeId
  pdusCount : c'.pdusCount = c.pdusCount
  drbCount : c'.drbCount = c.drbCount
  newUl : c'.newUlFlowDetectedCount = c.newUlFlowDetectedCount
  isRowUsed : c'.isRowUsed = c.isRowUsed
  pdus : ∀ i, i < c.pdusCount → c'.pdusTunnelList.get? i = c.pdusTunnelList.get? i
  drb : ∀ i, i < c.drbCount → c'.drbTunnelList.get? i = c.drbTunnelList.get? i

/-- The same committed contexts, and the same contents in every tunnel that is
committed or listed by one. -/
structure SameCommitted (S S' : Cuup D) : Prop where
  ids : S'.ue.rowOf = S.ue.rowOf
  contexts : ∀ id n, S.ue.rowOf id = some n →
    SameContext (S.ue.ueCtxTable n) (S'.ue.ueCtxTable n)
  keys : S'.tun.rowOf = S.tun.rowOf
  tunnels : ∀ k r, S.tun.rowOf k = some r → S'.tun.tunnelTable r = S.tun.tunnelTable r
  listed : ∀ id n r, S.ue.rowOf id = some n → (S.ue.ueCtxTable n).Lists r →
    S'.tun.tunnelTable r = S.tun.tunnelTable r

/-- Both states answer the requests alike and are left with the same contents. -/
def SameRuns (S S' : Cuup D) (calls : List (BearerCall D)) : Prop :=
  Option.Rel (fun out out' => out'.1 = out.1 ∧ SameCommitted out.2 out'.2)
    (answers serveBearer S calls) (answers serveBearer S' calls)

/-- The states differ only in the contents of rows that are free in both. -/
structure SameButFree (S S' : Cuup D) : Prop where
  tunnelHash : S'.tun.tunnelHashtable = S.tun.tunnelHashtable
  tunnelSlot : S'.tun.lastAllocatedSlot = S.tun.lastAllocatedSlot
  tunnelId : S'.tun.lastAssignedId = S.tun.lastAssignedId
  tunnels : ∀ r, S'.tun.tunnelTable r = S.tun.tunnelTable r ∨
    S.tun.used r = false ∧ S'.tun.used r = false
  ueHash : S'.ue.ueCtxHashtable = S.ue.ueCtxHashtable
  ueSlot : S'.ue.lastAllocatedSlot = S.ue.lastAllocatedSlot
  ueId : S'.ue.lastAssignedId = S.ue.lastAssignedId
  ues : ∀ n, S'.ue.ueCtxTable n = S.ue.ueCtxTable n ∨
    S.ue.used n = false ∧ S'.ue.used n = false

/-! ### When the free rows make no difference -/

/-- A row of the tunnel table that something leads to: a key, a slot of a DRB list, or
a PDU session of a committed context. -/
inductive Cuup.LeadsTo (S : Cuup D) : TunnelIdx → Prop
  | key (k : TunnelKey) (r : TunnelIdx) (mapped : S.tun.rowOf k = some r) : LeadsTo S r
  | drb (n : UeIdx) (i : Nat) (r : TunnelIdx)
      (slot : (S.ue.ueCtxTable n).drbTunnelList.deref? i = some r) : LeadsTo S r
  | pdus (id : UInt32) (n : UeIdx) (i : Nat) (r : TunnelIdx)
      (mapped : S.ue.rowOf id = some n) (lt : i < (S.ue.ueCtxTable n).pdusCount)
      (slot : (S.ue.ueCtxTable n).pdusTunnelList.deref? i = some r) : LeadsTo S r

/-- The rows differ only where filling them writes, and rows that something leads to
do not differ. -/
structure SameLeftovers (S S' : Cuup D) : Prop where
  tunnels : ∀ r, (S'.tun.tunnelTable r).residue = (S.tun.tunnelTable r).residue
  led : ∀ r, S.LeadsTo r → S'.tun.tunnelTable r = S.tun.tunnelTable r
  ues : ∀ n, (S'.ue.ueCtxTable n).residue = (S.ue.ueCtxTable n).residue
  mapped : ∀ id n, S.ue.rowOf id = some n → S'.ue.ueCtxTable n = S.ue.ueCtxTable n

theorem SameButFree.tunnel_used (h : SameButFree S S') (r : TunnelIdx) :
    S'.tun.used r = S.tun.used r := by
  rcases h.tunnels r with heq | ⟨hfree, hfree'⟩
  · rw [TunnelTable.used, heq, TunnelTable.used]
  · rw [hfree, hfree']

theorem SameButFree.ue_used (h : SameButFree S S') (n : UeIdx) :
    S'.ue.used n = S.ue.used n := by
  rcases h.ues n with heq | ⟨hfree, hfree'⟩
  · rw [UeCtxTable.used, heq, UeCtxTable.used]
  · rw [hfree, hfree']

theorem CtxAlike.refl {ctx : UeCtx}
    (hdrb : ∀ i r, ctx.drbTunnelList.deref? i = some r → r ∈ A)
    (hpdus : ∀ i r, i < ctx.pdusCount → ctx.pdusTunnelList.deref? i = some r → r ∈ A) :
    CtxAlike A ctx ctx where
  cuupUeId := rfl
  cucpUeId := rfl
  pdusCount := rfl
  drbCount := rfl
  newUl := rfl
  isRowUsed := rfl
  drbList := rfl
  pdusList _ _ := rfl
  drbIn := hdrb
  pdusIn := hpdus

/-- The tables agree on the rows that something leads to. -/
theorem SameLeftovers.alike (hleft : SameLeftovers S S') (hfree : SameButFree S S') :
    CuupAlike {r | S.LeadsTo r} S S' where
  tun :=
    { hash := hfree.tunnelHash
      slot := hfree.tunnelSlot
      id := hfree.tunnelId
      used := hfree.tunnel_used
      residue := hleft.tunnels
      agree := hleft.led
      mapped := fun k r hk => .key k r hk }
  ue :=
    { hash := hfree.ueHash
      slot := hfree.ueSlot
      id := hfree.ueId
      used := hfree.ue_used
      residue := hleft.ues
      drbIn := fun n i r hi => .drb n i r hi
      mapped := fun id n hn => by
        rw [hleft.mapped id n hn]
        exact .refl (fun i r hi => .drb n i r hi) fun i r hi hr => .pdus id n i r hn hi hr }

theorem CtxAlike.sameContext {c c' : UeCtx} (h : CtxAlike A c c') : SameContext c c' where
  cuupUeId := h.cuupUeId
  cucpUeId := h.cucpUeId
  pdusCount := h.pdusCount
  drbCount := h.drbCount
  newUl := h.newUl
  isRowUsed := h.isRowUsed
  pdus := h.pdusList
  drb i _ := by rw [h.drbList]

theorem CuupAlike.sameCommitted (h : CuupAlike A S S') : SameCommitted S S' where
  ids := by
    funext id
    rw [UeCtxTable.rowOf, h.ue.entry, UeCtxTable.rowOf]
  contexts id n hn := (h.ue.mapped id n hn).sameContext
  keys := h.tun.rowOf
  tunnels k r hk := h.tun.agree r (h.tun.mapped k r hk)
  listed id n r hn hr := by
    have hctx := h.ue.mapped id n hn
    rcases hr with ⟨i, hi, hr⟩ | ⟨i, _, hr⟩
    · exact h.tun.agree r (hctx.pdusIn i r hi hr)
    · exact h.tun.agree r (hctx.drbIn i r hr)

/-- **One request.**  States that are alike answer alike and stay alike. -/
theorem serveBearer_alike (h : CuupsAlike A S S') (call : BearerCall D) :
    Option.Rel (SameResult (CuupsAlike A)) (serveBearer S call) (serveBearer S' call) := by
  obtain ⟨B, hAB, h⟩ := h
  have widen : ∀ {V V' : Cuup D}, CuupsAlike B V V' → CuupsAlike A V V' := by
    intro V V' hV
    obtain ⟨C, hBC, hV⟩ := hV
    exact ⟨C, hAB.trans hBC, hV⟩
  cases call with
  | setup env req rsp =>
      apply rel_map (e1apBearerCtxSetup_alike h env req rsp)
      intro out out' hout
      obtain ⟨hret, hrsp, hS⟩ := hout
      exact ⟨by rw [hret, hrsp], widen hS⟩
  | modify env req rsp =>
      apply rel_map (e1apBearerCtxModify_alike h env req rsp)
      intro out out' hout
      obtain ⟨hret, hrsp, hS⟩ := hout
      exact ⟨by rw [hret, hrsp], widen hS⟩

/-- **Every run.** -/
theorem SameLeftovers.sameRuns (hleft : SameLeftovers S S') (hfree : SameButFree S S')
    (calls : List (BearerCall D)) : SameRuns S S' calls := by
  have halike : CuupsAlike {r | S.LeadsTo r} S S' := ⟨_, subset_rfl, hleft.alike hfree⟩
  have hrun := answers_rel (fun _ _ call hV => serveBearer_alike hV call) halike calls
  apply rel_imp hrun
  intro out out' hout
  obtain ⟨hrsp, B, _, hS⟩ := hout
  exact ⟨hrsp.symm, hS.sameCommitted⟩

/-- **Free rows make no difference** where they differ at most in what filling a row
writes; where the flow and mapping fields of every row are unset they are so along every
run, in the rows handed out on the way too, and modifying a PDU session keeps them and
everything else in its row. -/
theorem runs_ignore_free_rows (D : Dpdk) :
    (∀ S S' : Cuup D, SameButFree S S' → SameLeftovers S S' →
      ∀ calls, SameRuns S S' calls) ∧
    (∀ (S : Cuup D) (calls : List (E1apCall D)), EveryRow TunnelInfo.FlowsUnset S.tun →
      Always e1apStep (fun S => EveryRow TunnelInfo.FlowsUnset S.tun) S calls) ∧
    ∀ T : TunnelTable D, EveryRow TunnelInfo.FlowsUnset T →
      (∀ k r, T.rowOf k = some r → T.used r = true) → ModifyKeeps T := by
  refine ⟨fun S S' hfree hleft calls => hleft.sameRuns hfree calls, ?_, ?_⟩
  · intro S calls hflows
    exact always_of_along (P := fun _ _ => True)
      (fun V call V' hV _ hstep => hV.step flowsUnset_ignoresIds hstep) hflows
      (along_true S calls)
  · intro T hflows hmapped
    exact modifyKeeps_of_flowsUnset hflows hmapped

/-! ### A row used before

Both tables are up and every row is free.  On the other side one row of the tunnel
table was used before: once by a tunnel of which only what filling writes is left, and
once by a PDU session whose id 64 lies over a header flag of a DRB. -/

def upState : Cuup listDpdk :=
  ⟨(TunnelTable.init listDpdk).cleared, (UeCtxTable.init listDpdk).cleared⟩

def usedBefore (r : TunnelIdx) (t : Tunnel) : Cuup listDpdk :=
  { upState with tun := upState.tun.setRow r t }

def endpointLeft : Tunnel :=
  { Tunnel.zero with key := ⟨cuupIp, 7⟩, remoteIp := upfIp, remoteTeId := 80 }

def sessionLeft : Tunnel := { Tunnel.zero with info := Tunnel.zero.info.setPdusId 64 }

def setupCall : BearerCall listDpdk := .setup upfEnv oneSetupReq setupRsp

theorem upState_sameButFree {r : TunnelIdx} {t : Tunnel} (ht : t.isRowUsed = false) :
    SameButFree upState (usedBefore r t) where
  tunnelHash := rfl
  tunnelSlot := rfl
  tunnelId := rfl
  tunnels r' := by
    by_cases hr : r' = r
    · subst hr
      refine Or.inr ⟨rfl, ?_⟩
      simp only [TunnelTable.used, usedBefore, setRow_self, ht]
    · exact Or.inl (setRow_of_ne t hr)
  ueHash := rfl
  ueSlot := rfl
  ueId := rfl
  ues _ := Or.inl rfl

theorem upState_leads (r : TunnelIdx) : ¬ upState.LeadsTo r := by
  intro h
  cases h with
  | key k _ mapped => exact absurd mapped (by simp [upState, TunnelTable.rowOf])
  | drb n i _ slot =>
      obtain ⟨_, hget⟩ := CArray.get?_eq_some_iff.mp (CArray.deref?_eq_some_iff.mp slot)
      cases hget
  | pdus id n i _ mapped => exact absurd mapped (by simp [upState])

theorem upState_sameLeftovers {r : TunnelIdx} {t : Tunnel}
    (ht : t.residue = Tunnel.zero.residue) : SameLeftovers upState (usedBefore r t) where
  tunnels r' := by
    by_cases hr : r' = r
    · subst hr
      simp only [usedBefore, setRow_self, ht]
      rfl
    · simp only [usedBefore, setRow_of_ne t hr]
  led r' hr := absurd hr (upState_leads r')
  ues _ := rfl
  mapped _ _ _ := rfl

/-- A table with one committed tunnel. -/
def oneTunnel (r : TunnelIdx) : TunnelTable listDpdk :=
  (tunnelCommit ((TunnelTable.init listDpdk).cleared.takeRow r ⟨cuupIp, 1⟩) (some r)).2

theorem oneTunnel_flowsUnset (r : TunnelIdx) :
    EveryRow TunnelInfo.FlowsUnset (oneTunnel r) := by
  have hclear : EveryRow TunnelInfo.FlowsUnset (TunnelTable.init listDpdk).cleared :=
    fun _ => ⟨rfl, rfl, rfl, rfl⟩
  exact (EveryRow.tableInvariant flowsUnset_ignoresIds).committed r (hclear.takeRow r _)

theorem oneTunnel_used :
    ∀ k r, (oneTunnel 1).rowOf k = some r → (oneTunnel 1).used r = true := by
  intro k r hk
  have hempty : ∀ k r, ((TunnelTable.init listDpdk).cleared.takeRow 1
      ⟨cuupIp, 1⟩).rowOf k = some r → r ∈ ({1} : Set TunnelIdx) := by
    intro k r hk
    simp [TunnelTable.rowOf] at hk
  obtain rfl : r = 1 := tunnelCommit_mapped hempty rfl k hk
  decide

theorem runs_ignore_free_rows_endpointLeft :
    SameRuns upState (usedBefore 2 endpointLeft) [setupCall, setupCall] ∧
    Always e1apStep (fun S => EveryRow TunnelInfo.FlowsUnset S.tun)
      (Cuup.init listDpdk) [oneSetup, oneSetup] ∧ ModifyKeeps (oneTunnel 1) :=
  ⟨(runs_ignore_free_rows listDpdk).1 upState (usedBefore 2 endpointLeft)
      (upState_sameButFree rfl) (upState_sameLeftovers rfl) [setupCall, setupCall],
    (runs_ignore_free_rows listDpdk).2.1 _ _ (flowsUnset_init listDpdk),
    (runs_ignore_free_rows listDpdk).2.2 _ (oneTunnel_flowsUnset 1) oneTunnel_used⟩

/-- The DRB that takes over a row used by PDU session 64 has its downlink header flag
set. -/
theorem leftover_flag_committed :
    ¬ ∀ (S S' : Cuup listDpdk) (calls : List (BearerCall listDpdk)),
      SameButFree S S' → SameRuns S S' calls := by
  intro h
  have hruns := h upState (usedBefore 2 sessionLeft) [setupCall] (upState_sameButFree rfl)
  have hS : ((answers serveBearer upState [setupCall]).map fun out =>
      decide (out.2.tun.rowOf ⟨f1uLocalIp, 2⟩ = some 2 ∧
        (out.2.tun.tunnelTable 2).info.isDlSdapHdrEnabled = false)) = some true := by
    decide
  have hS' : ((answers serveBearer (usedBefore 2 sessionLeft) [setupCall]).map fun out =>
      decide ((out.2.tun.tunnelTable 2).info.isDlSdapHdrEnabled = true)) = some true := by
    decide
  obtain ⟨out, hout, hfacts⟩ := Option.map_eq_some_iff.mp hS
  obtain ⟨out', hout', hflag'⟩ := Option.map_eq_some_iff.mp hS'
  obtain ⟨hrow, hflag⟩ := of_decide_eq_true hfacts
  rw [SameRuns, hout, hout'] at hruns
  cases hruns with
  | some hsame =>
      rw [hsame.2.tunnels _ 2 hrow, hflag] at hflag'
      exact absurd hflag' (by decide)

end Pfm
