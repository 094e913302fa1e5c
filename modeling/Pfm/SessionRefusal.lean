import Pfm.BearerContextSpec

/-!
# Requests none of whose PDU sessions is set up

A context without tunnels gives no reason to refuse a PDU session, so there a
session is refused by the tunnel table alone: it gets no tunnel, or none of its
DRBs does.  Then the context stays as it was.  The table does not: the tunnel of
the session was handed out, and is committed by the path that gives it up.

* `sessionRefused`, `sessionsRefused` : the table these refusals leave, or nothing
  when a session is set up or its refusal does not return;
* `pdusSetup_of_refused`, `sessionRefused_of_pdusSetup` : they are the failures of
  `pdusSetup`;
* `e1apSetupPdus_of_refused`, `refused_of_e1apSetupPdus` : and those of a request.
-/

namespace Pfm

open BoundedLoop

variable {D : Dpdk} {env : Env D} {T T' : TunnelTable D} {ctx : UeCtx}

/-- The DRBs of a session asked for one after the other, as long as none gets a
tunnel. -/
def drbsRefused (env : Env D) (item : PdusSetupReqInfo) (n : Nat) (T : TunnelTable D) :
    Option (TunnelTable D) :=
  forRange (fun i T => do
    let drb ← item.drbList.get? i
    match tunnelOpen env T drb.drbDlIpAddr .drb with
    | (none, T) => some T
    | (some _, _) => none) n T

/-- A session that gets no tunnel, or none for any of its DRBs and whose id the log can then
print. -/
def sessionRefused (env : Env D) (T : TunnelTable D) (item : PdusSetupReqInfo) :
    Option (TunnelTable D) :=
  match tunnelOpen env T item.pdusUlIpAddr .pdus with
  | (none, T) => some T
  | (some (key, r), T) => do
      let T ← drbsRefused env item item.drbCount
        (T.setRow r ((T.tunnelTable r).fillPdus item))
      logAllDrbsFailed item.pdusId
      some (tunnelCommit (tunnelRemove T key).2 (some r)).2

/-- The first `n` items, every one of them refused. -/
def sessionsRefused (env : Env D) (items : CArray maxPdusPerUe PdusSetupReqInfo) (n : Nat)
    (T : TunnelTable D) : Option (TunnelTable D) :=
  forRange (fun i T => do
    let item ← items.get? i
    sessionRefused env T item) n T

/-! ### DRBs -/

/-- With no DRB listed, `drb_setup` fails when the tunnel table gives nothing, and
only then. -/
theorem drbSetup_of_noDrb (env : Env D) (T : TunnelTable D) (h : ctx.drbCount = 0)
    (req : DrbSetupReqInfo) :
    (∃ T', tunnelOpen env T req.drbDlIpAddr .drb = (none, T') ∧
      drbSetup env T ctx req =
        some ⟨T', ctx, .error (drbSetupFailRspCreate req .rnlResourceUnavail)⟩) ∨
    (∃ kr T', tunnelOpen env T req.drbDlIpAddr .drb = (some kr, T')) ∧
      ∀ out, drbSetup env T ctx req = some out → ∃ s, out.rsp = .ok s := by
  have hmax : ¬ ctx.drbCount = maxDrbPerUe := by
    rw [h]
    decide
  have hfind : findDrb T ctx req.drbId = some none := by rw [findDrb, h, firstIndex_zero]
  cases hopen : tunnelOpen env T req.drbDlIpAddr .drb with
  | mk got T' =>
      cases got with
      | none =>
          left
          exact ⟨T', rfl, by simp [drbSetup, hmax, hfind, hopen]⟩
      | some kr =>
          right
          refine ⟨⟨kr, T', rfl⟩, fun out hout => ?_⟩
          simp only [drbSetup, hmax, if_false, hfind, hopen, Option.bind_eq_bind,
            Option.bind_some] at hout
          obtain ⟨list, _, hout⟩ := Option.bind_eq_some_iff.mp hout
          obtain rfl := Option.some.inj hout
          exact ⟨_, rfl⟩

/-- A refusal of every DRB is a run of the DRB loop in which all fail. -/
theorem pdusSetupDrbs_of_refused {item : PdusSetupReqInfo} {n : Nat}
    {w : PdusWork D PdusSetupSuccRspInfo} (hdrb : w.ctx.drbCount = 0)
    (hfail : w.succ.drbSetupFailCount = 0) (h : drbsRefused env item n w.tun = some T') :
    ∃ w', forRange (pdusSetupDrb env item) n w = some w' ∧ w'.tun = T' ∧
      w'.ctx = w.ctx ∧ w'.succ.drbSetupFailCount = n := by
  refine forRange_simulates (fun i T (w' : PdusWork D PdusSetupSuccRspInfo) =>
    w'.tun = T ∧ w'.ctx = w.ctx ∧ w'.succ.drbSetupFailCount = i) ⟨rfl, rfl, hfail⟩ ?_ h
  intro i T₁ w₁ T₂ hR hturn
  obtain ⟨rfl, hctx, hcount⟩ := hR
  obtain ⟨drb, hget, hturn⟩ := Option.bind_eq_some_iff.mp hturn
  have hlt : i < maxDrbPerPdus := CArray.lt_of_get? hget
  rcases drbSetup_of_noDrb env w₁.tun (hctx ▸ hdrb) drb with
    ⟨T₃, hopen, hout⟩ | ⟨⟨kr, T₃, hopen⟩, _⟩
  · obtain rfl : T₃ = T₂ := by simpa [hopen] using hturn
    obtain ⟨list, hset⟩ : ∃ list, w₁.succ.drbFailList.set? w₁.succ.drbSetupFailCount
        (drbSetupFailRspCreate drb .rnlResourceUnavail) = some list :=
      ⟨_, CArray.set?_of_lt _ (hcount ▸ hlt) _⟩
    refine ⟨⟨T₃, w₁.ctx, { w₁.succ with
      drbFailList := list
      drbSetupFailCount := w₁.succ.drbSetupFailCount + 1 }⟩, ?_, rfl, hctx, ?_⟩
    · simp [pdusSetupDrb, hget, hout, hset]
    · simp [hcount]
  · simp [hopen] at hturn

/-- In the DRB loop every turn counts one failure or one success. -/
theorem pdusSetupDrb_counts {item : PdusSetupReqInfo} {i : Nat}
    {w w' : PdusWork D PdusSetupSuccRspInfo} (h : pdusSetupDrb env item i w = some w') :
    (w'.succ.drbSetupFailCount = w.succ.drbSetupFailCount + 1 ∧
      w'.succ.drbSetupSuccCount = w.succ.drbSetupSuccCount) ∨
    w'.succ.drbSetupFailCount = w.succ.drbSetupFailCount ∧
      w'.succ.drbSetupSuccCount = w.succ.drbSetupSuccCount + 1 := by
  obtain ⟨_, _, _, _, _, _, ⟨_, _, _, _, hw⟩ | ⟨_, _, _, _, hw⟩⟩ := pdusSetupDrb_cases h
  · rw [hw]
    exact Or.inl ⟨rfl, rfl⟩
  · rw [hw]
    exact Or.inr ⟨rfl, rfl⟩

/-- **A DRB loop in which all fail.**  What every failing DRB carries on holds after
the loop. -/
theorem pdusSetupDrbs_of_all_failed (Inv : Nat → PdusWork D PdusSetupSuccRspInfo → Prop)
    {item : PdusSetupReqInfo} {n : Nat} {w w' : PdusWork D PdusSetupSuccRspInfo}
    (hzero : w.succ.drbSetupFailCount = 0) (h0 : Inv 0 w)
    (hstep : ∀ i w₁ w₂ drb out fail, Inv i w₁ → item.drbList.get? i = some drb →
      drbSetup env w₁.tun w₁.ctx drb = some out → out.rsp = .error fail →
      w₂.tun = out.tun → w₂.ctx = out.ctx → Inv (i + 1) w₂)
    (hrun : forRange (pdusSetupDrb env item) n w = some w')
    (hall : w'.succ.drbSetupFailCount = n) : Inv n w' := by
  -- The failures are at most the turns, so all having failed none ever succeeded.
  have hinv := forRange_invariant (fun i w' => w'.succ.drbSetupFailCount ≤ i ∧
    (w'.succ.drbSetupFailCount = i → Inv i w')) ⟨Nat.le_of_eq hzero, fun _ => h0⟩ ?_ hrun
  · exact hinv.2 hall
  · intro i w₁ w₂ _ hinv hturn
    have hcounts := pdusSetupDrb_counts hturn
    refine ⟨by omega, fun hcount => ?_⟩
    have hprev : w₁.succ.drbSetupFailCount = i := by omega
    obtain ⟨drb, out, hget, hout, htun, hctx, hcases⟩ := pdusSetupDrb_cases hturn
    rcases hcases with ⟨fail, _, hfail, _, _⟩ | ⟨_, _, _, _, hw⟩
    · exact hstep i w₁ w₂ drb out fail (hinv.2 hprev) hget hout hfail htun hctx
    · rw [hw] at hcount
      simp only at hcount
      omega

/-- A run of the DRB loop in which all fail is a refusal of every DRB. -/
theorem drbsRefused_of_pdusSetupDrbs {item : PdusSetupReqInfo} {n : Nat}
    {w w' : PdusWork D PdusSetupSuccRspInfo} (hdrb : w.ctx.drbCount = 0)
    (hfail : w.succ.drbSetupFailCount = 0)
    (hrun : forRange (pdusSetupDrb env item) n w = some w')
    (hall : w'.succ.drbSetupFailCount = n) :
    drbsRefused env item n w.tun = some w'.tun ∧ w'.ctx = w.ctx := by
  refine pdusSetupDrbs_of_all_failed (fun i w' =>
    drbsRefused env item i w.tun = some w'.tun ∧ w'.ctx = w.ctx) hfail ⟨rfl, rfl⟩ ?_ hrun hall
  intro i w₁ w₂ drb out fail hinv hget hout herr htun hctx
  obtain ⟨hrefused, hsame⟩ := hinv
  rcases drbSetup_of_noDrb env w₁.tun (hsame ▸ hdrb) drb with
    ⟨T₃, hopen, hserved⟩ | ⟨_, hok⟩
  · obtain rfl := Option.some.inj (hserved.symm.trans hout)
    refine ⟨?_, hctx.trans hsame⟩
    rw [drbsRefused, forRange_succ, ← drbsRefused, hrefused, Option.bind_some, hget]
    simp [hopen, htun]
  · obtain ⟨s, hs⟩ := hok out hout
    simp [hs] at herr

/-! ### PDU sessions -/

theorem pdusSetup_of_refused {item : PdusSetupReqInfo} (hb : ctx.Bare)
    (h : sessionRefused env T item = some T') (slot : PdusSetupSuccRspInfo) :
    ∃ out cause, pdusSetup env T ctx item slot = some out ∧ out.tun = T' ∧ out.ctx = ctx ∧
      out.fail = some ⟨item.pdusId, cause⟩ := by
  have hmax : ¬ ctx.pdusCount = maxPdusPerUe := by
    rw [hb.pdus]
    decide
  have hfind : findPdus T ctx item.pdusId = some none := by
    rw [findPdus, hb.pdus, firstIndex_zero]
  cases hopen : tunnelOpen env T item.pdusUlIpAddr .pdus with
  | mk got T₁ =>
      simp only [sessionRefused, hopen] at h
      cases got with
      | none =>
          obtain rfl := Option.some.inj h
          exact ⟨⟨T₁, ctx, slot, some (pdusSetupFailRspCreate item .rnlResourceUnavail)⟩, _,
            by simp [pdusSetup, hmax, hfind, hopen], rfl, rfl, rfl⟩
      | some kr =>
          obtain ⟨key, r⟩ := kr
          obtain ⟨T₂, hdrbs, h⟩ := Option.bind_eq_some_iff.mp h
          obtain ⟨_, hlogged, h⟩ := Option.bind_eq_some_iff.mp h
          obtain rfl := Option.some.inj h
          obtain ⟨w, hrun, rfl, hctx, hall⟩ := pdusSetupDrbs_of_refused
            (w := pdusSetupStart T₁ ctx item slot r) hb.drb rfl hdrbs
          refine ⟨⟨(tunnelCommit (tunnelRemove w.tun key).2 (some r)).2, w.ctx, w.succ,
            some (pdusSetupFailRspCreate item .rnlResourceUnavail)⟩, _, ?_, rfl, hctx, rfl⟩
          have hrun' : forRange (pdusSetupDrb env item) item.drbCount
              ⟨T₁.setRow r ((T₁.tunnelTable r).fillPdus item), ctx,
                pdusSetupSuccRspCreate ((T₁.setRow r
                  ((T₁.tunnelTable r).fillPdus item)).tunnelTable r) slot⟩ = some w := by
            rw [TunnelTable.setRow_self]
            exact hrun
          simp [pdusSetup, hmax, hfind, hopen, hrun', hall, hlogged]

theorem sessionRefused_of_pdusSetup {item : PdusSetupReqInfo} {slot : PdusSetupSuccRspInfo}
    {out : PdusServed D PdusSetupSuccRspInfo} (hb : ctx.Bare)
    (h : pdusSetup env T ctx item slot = some out) (hfail : out.fail.isSome = true) :
    sessionRefused env T item = some out.tun ∧ out.ctx = ctx := by
  cases pdusSetup_cases h with
  | refused cause why =>
      rcases why with hmax | ⟨j, hfind⟩
      · rw [hb.pdus] at hmax
        exact absurd hmax (by decide)
      · rw [findPdus, hb.pdus, firstIndex_zero] at hfind
        cases hfind
  | noTunnel T' cause hopen => exact ⟨by simp [sessionRefused, hopen], rfl⟩
  | noDrb key r T' w cause hopen hdrbs hall hlogged =>
      obtain ⟨hrefused, hctx⟩ := drbsRefused_of_pdusSetupDrbs hb.drb rfl hdrbs hall
      refine ⟨?_, hctx⟩
      simp only [sessionRefused, hopen]
      rw [show drbsRefused env item item.drbCount
        (T'.setRow r ((T'.tunnelTable r).fillPdus item)) = some w.tun from hrefused]
      simp [logAllDrbsFailed, hlogged]
  | served => cases hfail

/-! ### The service loops -/

/-- When all its sessions are refused a setup request counts no success. -/
theorem e1apSetupPdus_of_refused {req : E1apBearerCtxSetupReq} {n : Nat}
    {w : CtxWork D E1apBearerCtxSetupRsp} (hb : w.ctx.Bare)
    (hsucc : w.rsp.pdusSetupSuccCount = 0) (hfail : w.rsp.pdusSetupFailCount = 0)
    (h : sessionsRefused env req.pdusList n w.tun = some T') :
    ∃ w', forRange (e1apSetupPdus env req) n w = some w' ∧ w'.tun = T' ∧ w'.ctx = w.ctx ∧
      w'.rsp.pdusSetupSuccCount = 0 ∧ w'.rsp.pdusSetupFailCount = n := by
  refine forRange_simulates (fun i T (w' : CtxWork D E1apBearerCtxSetupRsp) =>
    w'.tun = T ∧ w'.ctx = w.ctx ∧ w'.rsp.pdusSetupSuccCount = 0 ∧
      w'.rsp.pdusSetupFailCount = i) ⟨rfl, rfl, hsucc, hfail⟩ ?_ h
  intro i T₁ w₁ T₂ hR hturn
  obtain ⟨rfl, hctx, hsucc₁, hfail₁⟩ := hR
  obtain ⟨item, hget, hturn⟩ := Option.bind_eq_some_iff.mp hturn
  have hlt : i < maxPdusPerUe := CArray.lt_of_get? hget
  obtain ⟨slot, hslot⟩ : ∃ slot, w₁.rsp.pdusSuccList.get? 0 = some slot :=
    ⟨_, CArray.get?_of_lt _ (by decide)⟩
  obtain ⟨out, cause, hout, htun, hctx', hno⟩ :=
    pdusSetup_of_refused (hctx ▸ hb) hturn slot
  obtain ⟨list, hset⟩ : ∃ list, w₁.rsp.pdusSuccList.set? 0 out.succ = some list :=
    ⟨_, CArray.set?_of_lt _ (by decide) _⟩
  obtain ⟨failList, hset'⟩ : ∃ list, w₁.rsp.pdusFailList.set? w₁.rsp.pdusSetupFailCount
      ⟨item.pdusId, cause⟩ = some list :=
    ⟨_, CArray.set?_of_lt _ (hfail₁ ▸ hlt) _⟩
  refine ⟨⟨out.tun, out.ctx, { w₁.rsp with
    pdusSuccList := list
    pdusFailList := failList
    pdusSetupFailCount := w₁.rsp.pdusSetupFailCount + 1 }⟩, ?_, htun, hctx'.trans hctx,
    hsucc₁, ?_⟩
  · simp [e1apSetupPdus, hget, hsucc₁, hslot, hout, hset, hno, hset']
  · simp [hfail₁]

/-- A setup request that counts no success had all its sessions refused. -/
theorem refused_of_e1apSetupPdus {req : E1apBearerCtxSetupReq} {n : Nat}
    {w w' : CtxWork D E1apBearerCtxSetupRsp} (hb : w.ctx.Bare)
    (hrun : forRange (e1apSetupPdus env req) n w = some w')
    (hsucc : w'.rsp.pdusSetupSuccCount = 0) :
    sessionsRefused env req.pdusList n w.tun = some w'.tun ∧ w'.ctx = w.ctx := by
  refine forRange_invariant (fun i w' => w'.rsp.pdusSetupSuccCount = 0 →
    sessionsRefused env req.pdusList i w.tun = some w'.tun ∧ w'.ctx = w.ctx)
    (fun _ => ⟨rfl, rfl⟩) ?_ hrun hsucc
  intro i w₁ w₂ hi hinv hturn hsucc₂
  obtain ⟨item, slot, out, list, hget, hout, _, htun, hctx, hcases⟩ :=
    e1apSetupPdus_cases hturn
  rcases hcases with ⟨fail, _, hfail, _, hrsp⟩ | ⟨_, hrsp⟩
  · have hsucc₁ : w₁.rsp.pdusSetupSuccCount = 0 := by
      rw [hrsp] at hsucc₂
      exact hsucc₂
    obtain ⟨hrefused, hsame⟩ := hinv hsucc₁
    obtain ⟨hsession, hctx'⟩ := sessionRefused_of_pdusSetup (hsame ▸ hb) hout
      (by rw [hfail]; rfl)
    refine ⟨?_, hctx.trans (hctx'.trans hsame)⟩
    rw [sessionsRefused, forRange_succ, ← sessionsRefused, hrefused, Option.bind_some, hget,
      htun]
    exact hsession
  · rw [hrsp] at hsucc₂
    simp at hsucc₂

/-- When all its sessions to set up are refused, the setup phase of a modify
request counts no success. -/
theorem e1apModifySetupPdus_of_refused {req : E1apBearerCtxModifyReq} {n : Nat}
    {w : CtxWork D E1apBearerCtxModifyRsp} (hb : w.ctx.Bare)
    (hsucc : w.rsp.pdusSetupSuccCount = 0) (hfail : w.rsp.pdusSetupFailCount = 0)
    (h : sessionsRefused env req.pdusSetupList n w.tun = some T') :
    ∃ w', forRange (e1apModifySetupPdus env req) n w = some w' ∧ w'.tun = T' ∧
      w'.ctx = w.ctx ∧ w'.rsp.pdusSetupSuccCount = 0 ∧ w'.rsp.pdusSetupFailCount = n := by
  refine forRange_simulates (fun i T (w' : CtxWork D E1apBearerCtxModifyRsp) =>
    w'.tun = T ∧ w'.ctx = w.ctx ∧ w'.rsp.pdusSetupSuccCount = 0 ∧
      w'.rsp.pdusSetupFailCount = i) ⟨rfl, rfl, hsucc, hfail⟩ ?_ h
  intro i T₁ w₁ T₂ hR hturn
  obtain ⟨rfl, hctx, hsucc₁, hfail₁⟩ := hR
  obtain ⟨item, hget, hturn⟩ := Option.bind_eq_some_iff.mp hturn
  have hlt : i < maxPdusPerUe := CArray.lt_of_get? hget
  obtain ⟨slot, hslot⟩ : ∃ slot, w₁.rsp.pdusSetupSuccList.get? 0 = some slot :=
    ⟨_, CArray.get?_of_lt _ (by decide)⟩
  obtain ⟨out, cause, hout, htun, hctx', hno⟩ :=
    pdusSetup_of_refused (hctx ▸ hb) hturn slot
  obtain ⟨list, hset⟩ : ∃ list, w₁.rsp.pdusSetupSuccList.set? 0 out.succ = some list :=
    ⟨_, CArray.set?_of_lt _ (by decide) _⟩
  obtain ⟨failList, hset'⟩ : ∃ list, w₁.rsp.pdusSetupFailList.set?
      w₁.rsp.pdusSetupFailCount ⟨item.pdusId, cause⟩ = some list :=
    ⟨_, CArray.set?_of_lt _ (hfail₁ ▸ hlt) _⟩
  refine ⟨⟨out.tun, out.ctx, { w₁.rsp with
    pdusSetupSuccList := list
    pdusSetupFailList := failList
    pdusSetupFailCount := w₁.rsp.pdusSetupFailCount + 1 }⟩, ?_, htun, hctx'.trans hctx,
    hsucc₁, ?_⟩
  · simp [e1apModifySetupPdus, hget, hsucc₁, hslot, hout, hset, hno, hset']
  · simp [hfail₁]

/-- On a context without PDU sessions the remove and modify loops find nothing. -/
theorem e1apModifyRemovePdus_of_none {req : E1apBearerCtxModifyReq} {i : Nat}
    {w w' : ModifyWork D} (hpdus : w.ctx.pdusCount = 0)
    (h : e1apModifyRemovePdus req i w = some w') : w' = w := by
  simp only [e1apModifyRemovePdus, hpdus, firstIndex_zero, Option.bind_eq_bind,
    Option.bind_some] at h
  exact (Option.some.inj h).symm

theorem e1apModifyModifyPdus_of_none {req : E1apBearerCtxModifyReq} {i : Nat}
    {w w' : ModifyWork D} (hpdus : w.ctx.pdusCount = 0)
    (h : e1apModifyModifyPdus env req i w = some w') :
    w'.tun = w.tun ∧ w'.ctx = w.ctx ∧
      w'.rsp.pdusSetupSuccCount = w.rsp.pdusSetupSuccCount ∧
      w'.rsp.pdusSetupFailCount = w.rsp.pdusSetupFailCount := by
  simp only [e1apModifyModifyPdus, hpdus, firstIndex_zero, Option.bind_eq_bind,
    Option.bind_some] at h
  split at h
  · obtain rfl := Option.some.inj h
    exact ⟨rfl, rfl, rfl, rfl⟩
  · obtain ⟨item, _, h⟩ := Option.bind_eq_some_iff.mp h
    obtain ⟨list, _, h⟩ := Option.bind_eq_some_iff.mp h
    obtain rfl := Option.some.inj h
    exact ⟨rfl, rfl, rfl, rfl⟩

/-- On a context without tunnels a modify request whose sessions to set up are all
refused leaves the context as it was. -/
theorem e1apModifyItems_of_refused {req : E1apBearerCtxModifyReq}
    {w w' : CtxWork D E1apBearerCtxModifyRsp} (hb : w.ctx.Bare)
    (hsucc : w.rsp.pdusSetupSuccCount = 0) (hfail : w.rsp.pdusSetupFailCount = 0)
    (href : sessionsRefused env req.pdusSetupList req.pdusSetupCount w.tun = some T')
    (h : e1apModifyItems env req w = some w') :
    w'.tun = T' ∧ w'.ctx = w.ctx ∧ w'.rsp.pdusSetupSuccCount = 0 := by
  unfold e1apModifyItems at h
  obtain ⟨w₁, hremove, h⟩ := Option.bind_eq_some_iff.mp h
  obtain ⟨w₂, hmodify, hsetup⟩ := Option.bind_eq_some_iff.mp h
  have h₁ : w₁ = ⟨w, .failed⟩ := by
    refine forRange_invariant (fun _ v => v = (⟨w, .failed⟩ : ModifyWork D)) rfl ?_ hremove
    intro i v v' _ hv hturn
    subst hv
    exact e1apModifyRemovePdus_of_none hb.pdus hturn
  subst h₁
  obtain ⟨htun, hctx, hsucc₂, hfail₂⟩ : w₂.tun = w.tun ∧ w₂.ctx = w.ctx ∧
      w₂.rsp.pdusSetupSuccCount = w.rsp.pdusSetupSuccCount ∧
      w₂.rsp.pdusSetupFailCount = w.rsp.pdusSetupFailCount := by
    refine forRange_invariant (fun _ (v : ModifyWork D) => v.tun = w.tun ∧ v.ctx = w.ctx ∧
      v.rsp.pdusSetupSuccCount = w.rsp.pdusSetupSuccCount ∧
      v.rsp.pdusSetupFailCount = w.rsp.pdusSetupFailCount) ⟨rfl, rfl, rfl, rfl⟩ ?_ hmodify
    intro i v v' _ hv hturn
    obtain ⟨htun, hctx, hs, hf⟩ := hv
    obtain ⟨htun', hctx', hs', hf'⟩ :=
      e1apModifyModifyPdus_of_none (by rw [hctx]; exact hb.pdus) hturn
    exact ⟨htun'.trans htun, hctx'.trans hctx, hs'.trans hs, hf'.trans hf⟩
  obtain ⟨w₃, hrun, htun₃, hctx₃, hsucc₃, _⟩ := e1apModifySetupPdus_of_refused
    (w := w₂.toCtxWork) (hctx ▸ hb) (hsucc₂.trans hsucc) (hfail₂.trans hfail) (htun ▸ href)
  obtain rfl := Option.some.inj (hrun.symm.trans hsetup)
  exact ⟨htun₃, hctx₃.trans hctx, hsucc₃⟩

/-! ### Sessions that get no tunnel -/

/-- No session of the list gets a tunnel: the table cannot be set up, or none of
the peers can be reached. -/
def NoSessionOpens (env : Env D) (T : TunnelTable D)
    (items : CArray maxPdusPerUe PdusSetupReqInfo) (n : Nat) : Prop :=
  tunnelTableEnsureUp env T = none ∨
    ∀ i item, i < n → items.get? i = some item →
      tunnelLocalIp env item.pdusUlIpAddr .pdus = none

/-- Then at most the table is set up. -/
theorem sessionsRefused_of_noSessionOpens {items : CArray maxPdusPerUe PdusSetupReqInfo}
    {n : Nat} (h : NoSessionOpens env T items n) (hn : n ≤ maxPdusPerUe) :
    ∃ T', sessionsRefused env items n T = some T' ∧
      (T' = T ∨ tunnelTableEnsureUp env T = some T') := by
  refine forRange_isSome (fun _ T' => T' = T ∨ tunnelTableEnsureUp env T = some T')
    (Or.inl rfl) ?_
  intro i T₁ hi hT₁
  have hget := CArray.get?_of_lt items (Nat.lt_of_lt_of_le hi hn)
  have hclosed : tunnelTableEnsureUp env T₁ = none ∨
      tunnelLocalIp env (items ⟨i, Nat.lt_of_lt_of_le hi hn⟩).pdusUlIpAddr .pdus = none := by
    rcases h with hdown | hnone
    · rcases hT₁ with rfl | hup
      · exact Or.inl hdown
      · simp [hdown] at hup
    · exact Or.inr (hnone i _ hi hget)
  rcases tunnelOpen_cases env T₁ (items ⟨i, Nat.lt_of_lt_of_le hi hn⟩).pdusUlIpAddr .pdus with
    ⟨_, hopen⟩ | ⟨T₂, hup, hopen | ⟨ip, _, _, hip, _⟩⟩
  · exact ⟨T₁, by simp [hget, sessionRefused, hopen], hT₁⟩
  · refine ⟨T₂, by simp [hget, sessionRefused, hopen], ?_⟩
    rcases hT₁ with rfl | hup₁
    · exact Or.inr hup
    · have hsame : tunnelTableEnsureUp env T₁ = some T₁ := if_pos (tunnelTableEnsureUp_up hup₁)
      obtain rfl := Option.some.inj (hsame.symm.trans hup)
      exact Or.inr hup₁
  · rcases hclosed with hdown | hnone
    · simp [hdown] at hup
    · simp [hnone] at hip

end Pfm
