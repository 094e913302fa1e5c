import Pfm.BearerSpec
import Pfm.LookupAgreement
import Pfm.ServeInOrder

/-!
# The DRBs a session modification reports

`pdus_modify` reports on its DRBs in four lists with a counter each.  The loop over the
DRBs to modify takes its slots, and counts its successes, by the counters of the DRBs to
set up.

* `drbModifyItem`, `drbSetupItem` : what serving one item does, without the slots;
* `DrbsAccounted` : the four lists hold the answers of the items, in order;
* `pdusModifySetupDrbs_runs` : the loop over the setups reports what it should;
* `drbAccounting_iff` : when the response as a whole is right.
-/

namespace Pfm

open BoundedLoop ServeInOrder StepSystem TunnelTable

variable {D : Dpdk} {env : Env D} {T T' : TunnelTable D} {ctx ctx' : UeCtx}
  {req : PdusModifyReqInfo}

/-- The state DRBs are served on. -/
abbrev DrbState (D : Dpdk) := TunnelTable D × UeCtx

/-- The answer of `drb_modify` and `drb_setup`. -/
abbrev DrbAnswer (D : Dpdk) := DrbState D × Except DrbSetupFailRspInfo DrbSetupSuccRspInfo

def DrbServed.answer (out : DrbServed D) : DrbAnswer D := ((out.tun, out.ctx), out.rsp)

/-- One DRB to modify: it is looked for and, when it is found, modified. -/
def drbModifyItem (s : DrbState D) (item : DrbModifyReqInfo) : Option (DrbAnswer D) := do
  let found ← findDrb s.1 s.2 item.drbId
  match found with
  | none => some (s, .error (drbModifyFailRspCreate item .rnlUnspecified))
  | some j => (drbModify s.1 s.2 item j).map DrbServed.answer

/-- One DRB to set up. -/
def drbSetupItem (env : Env D) (s : DrbState D) (item : DrbSetupReqInfo) :
    Option (DrbAnswer D) :=
  (drbSetup env s.1 s.2 item).map DrbServed.answer

/-- The response on the DRBs of a request whose phases start with the table `T` and the
context `ctx`. -/
structure DrbsAccounted (env : Env D) (T : TunnelTable D) (ctx : UeCtx)
    (req : PdusModifyReqInfo) (rsp : PdusModifySuccRspInfo) : Prop where
  modifyCount : rsp.drbModifySuccCount + rsp.drbModifyFailCount = req.drbModifyCount
  setupCount : rsp.drbSetupSuccCount + rsp.drbSetupFailCount = req.drbSetupCount
  lists : ∃ modified setup,
    serveAll drbModifyItem (T, ctx) (req.drbModifyList.firstN req.drbModifyCount) =
      some modified ∧
    serveAll (drbSetupItem env) modified.state (req.drbSetupList.firstN req.drbSetupCount) =
      some setup ∧
    Holds rsp.drbModifySuccList rsp.drbModifySuccCount modified.succs ∧
    Holds rsp.drbModifyFailList rsp.drbModifyFailCount modified.fails ∧
    Holds rsp.drbSetupSuccList rsp.drbSetupSuccCount setup.succs ∧
    Holds rsp.drbSetupFailList rsp.drbSetupFailCount setup.fails

/-- No DRB is asked to be modified, or a single one, which the context does not have or
for which `tunnel_modify` gives no row. -/
def ModifyAccountFits (T : TunnelTable D) (ctx : UeCtx) (req : PdusModifyReqInfo) : Prop :=
  req.drbModifyCount = 0 ∨
  req.drbModifyCount = 1 ∧ ∀ item, req.drbModifyList.get? 0 = some item →
    findDrb T ctx item.drbId = some none ∨
    ∃ j old, findDrb T ctx item.drbId = some (some j) ∧
      ctx.drbTunnelList.deref? j = some old ∧
      (tunnelModify T (T.tunnelTable old).key).1 = none

/-! ### Serving never faults -/

theorem drbSetup_runs (h : ctx.DrbsListed) (env : Env D) (T : TunnelTable D)
    (item : DrbSetupReqInfo) :
    ∃ out, drbSetup env T ctx item = some out ∧ out.ctx.DrbsListed := by
  by_cases hfull : ctx.drbCount = maxDrbPerUe
  · exact ⟨_, by rw [drbSetup, if_pos hfull], h⟩
  obtain ⟨found, hfound⟩ := findDrb_isSome h T item.drbId
  cases found with
  | some j => exact ⟨_, by rw [drbSetup, if_neg hfull, hfound]; rfl, h⟩
  | none =>
      cases ho : tunnelOpen env T item.drbDlIpAddr .drb with
      | mk got T' =>
          cases got with
          | none => exact ⟨_, by rw [drbSetup, if_neg hfull, hfound]; simp [ho]; rfl, h⟩
          | some kr =>
              have hset := ctx.drbTunnelList.set?_of_lt
                (Nat.lt_of_le_of_ne h.count_le hfull) (some kr.2)
              exact ⟨_, by rw [drbSetup, if_neg hfull, hfound]; simp [ho, hset]; rfl,
                h.addDrb hset⟩

theorem drbModify_runs (h : ctx.DrbsListed) (T : TunnelTable D) (item : DrbModifyReqInfo)
    {j : Nat} (hj : j < ctx.drbCount) :
    ∃ out, drbModify T ctx item j = some out ∧ out.ctx.DrbsListed := by
  obtain ⟨old, hold⟩ := Option.isSome_iff_exists.mp (h j hj)
  cases hm : tunnelModify T (T.tunnelTable old).key with
  | mk got T' =>
      cases got with
      | none => exact ⟨_, by rw [drbModify, hold]; simp [hm]; rfl, h⟩
      | some r =>
          have hset := ctx.drbTunnelList.set?_of_lt
            (Nat.lt_of_lt_of_le hj h.count_le) (some r)
          exact ⟨_, by rw [drbModify, hold]; simp [hm, hset]; rfl, h.set hset⟩

theorem drbModifyItem_runs {s : DrbState D} (h : s.2.DrbsListed) (item : DrbModifyReqInfo) :
    ∃ answer, drbModifyItem s item = some answer ∧ answer.1.2.DrbsListed := by
  obtain ⟨found, hfound⟩ := findDrb_isSome h s.1 item.drbId
  cases found with
  | none => exact ⟨_, by rw [drbModifyItem, hfound]; rfl, h⟩
  | some j =>
      obtain ⟨out, hout, hlisted⟩ := drbModify_runs h s.1 item (firstIndex_lt hfound)
      exact ⟨out.answer, by rw [drbModifyItem, hfound]; simp [hout], hlisted⟩

/-! ### A turn serves an item and notes its answer -/

/-- The state of the loops, as the items see it. -/
def PdusWork.drbs {ρ : Type} (w : PdusWork D ρ) : DrbState D := (w.tun, w.ctx)

/-- What a turn of the loop over the modifications does with an answer. -/
def PdusWork.noteModify (w : PdusWork D PdusModifySuccRspInfo) (answer : DrbAnswer D) :
    Option (PdusWork D PdusModifySuccRspInfo) :=
  match answer.2 with
  | .error fail => do
      let list ← w.succ.drbModifyFailList.set? w.succ.drbSetupFailCount fail
      some ⟨answer.1.1, answer.1.2, { w.succ with
        drbModifyFailList := list, drbModifyFailCount := w.succ.drbModifyFailCount + 1 }⟩
  | .ok succ => do
      let list ← w.succ.drbModifySuccList.set? w.succ.drbSetupSuccCount succ
      some ⟨answer.1.1, answer.1.2, { w.succ with
        drbModifySuccList := list, drbSetupSuccCount := w.succ.drbSetupSuccCount + 1 }⟩

/-- What a turn of the loop over the setups does with an answer. -/
def PdusWork.noteSetup (w : PdusWork D PdusModifySuccRspInfo) (answer : DrbAnswer D) :
    Option (PdusWork D PdusModifySuccRspInfo) :=
  match answer.2 with
  | .error fail => do
      let list ← w.succ.drbSetupFailList.set? w.succ.drbSetupFailCount fail
      some ⟨answer.1.1, answer.1.2, { w.succ with
        drbSetupFailList := list, drbSetupFailCount := w.succ.drbSetupFailCount + 1 }⟩
  | .ok succ => do
      let list ← w.succ.drbSetupSuccList.set? w.succ.drbSetupSuccCount succ
      some ⟨answer.1.1, answer.1.2, { w.succ with
        drbSetupSuccList := list, drbSetupSuccCount := w.succ.drbSetupSuccCount + 1 }⟩

theorem pdusModifyModifyDrb_eq (req : PdusModifyReqInfo) (i : Nat)
    (w : PdusWork D PdusModifySuccRspInfo) :
    pdusModifyModifyDrb req i w = (req.drbModifyList.get? i).bind fun item =>
      (drbModifyItem w.drbs item).bind w.noteModify := by
  unfold pdusModifyModifyDrb
  cases req.drbModifyList.get? i with
  | none =>
      simp only [Option.bind_eq_bind, Option.bind_none]
      cases firstIndex _ w.ctx.drbCount with
      | none => rfl
      | some found => rfl
  | some item =>
      simp only [Option.bind_eq_bind, Option.bind_some, drbModifyItem, findDrb, PdusWork.drbs]
      cases firstIndex _ w.ctx.drbCount with
      | none => rfl
      | some found =>
          cases found with
          | none => rfl
          | some j =>
              simp only [Option.bind_some]
              cases drbModify w.tun w.ctx item j with
              | none => rfl
              | some served => rfl

theorem pdusModifySetupDrb_eq (env : Env D) (req : PdusModifyReqInfo) (i : Nat)
    (w : PdusWork D PdusModifySuccRspInfo) :
    pdusModifySetupDrb env req i w = (req.drbSetupList.get? i).bind fun item =>
      (drbSetupItem env w.drbs item).bind w.noteSetup := by
  unfold pdusModifySetupDrb drbSetupItem PdusWork.drbs
  cases req.drbSetupList.get? i with
  | none => rfl
  | some item =>
      simp only [Option.bind_eq_bind, Option.bind_some]
      cases drbSetup env w.tun w.ctx item with
      | none => rfl
      | some served => rfl

/-! ### The loop over the setups -/

/-- One turn of it. -/
theorem pdusModifySetupDrb_serves {i : Nat} {item : DrbSetupReqInfo}
    {w : PdusWork D PdusModifySuccRspInfo} {bs : List DrbSetupSuccRspInfo}
    {cs : List DrbSetupFailRspInfo} (hitem : req.drbSetupList.get? i = some item)
    (hi : bs.length + cs.length < maxDrbPerPdus) (hlisted : w.ctx.DrbsListed)
    (hsuccs : Holds w.succ.drbSetupSuccList w.succ.drbSetupSuccCount bs)
    (hfails : Holds w.succ.drbSetupFailList w.succ.drbSetupFailCount cs) :
    ∃ answer w', drbSetupItem env w.drbs item = some answer ∧
      pdusModifySetupDrb env req i w = some w' ∧ w'.drbs = answer.1 ∧ w'.ctx.DrbsListed ∧
      ((∃ b, answer.2 = .ok b ∧
          Holds w'.succ.drbSetupSuccList w'.succ.drbSetupSuccCount (bs ++ [b]) ∧
          Holds w'.succ.drbSetupFailList w'.succ.drbSetupFailCount cs) ∨
        ∃ c, answer.2 = .error c ∧
          Holds w'.succ.drbSetupSuccList w'.succ.drbSetupSuccCount bs ∧
          Holds w'.succ.drbSetupFailList w'.succ.drbSetupFailCount (cs ++ [c])) := by
  obtain ⟨out, hout, hlisted'⟩ := drbSetup_runs hlisted env w.tun item
  have hserve : drbSetupItem env w.drbs item = some out.answer := by
    rw [drbSetupItem, PdusWork.drbs, hout]
    rfl
  cases hrsp : out.rsp with
  | ok b =>
      obtain ⟨list, hset⟩ : ∃ list,
          w.succ.drbSetupSuccList.set? w.succ.drbSetupSuccCount b = some list :=
        ⟨_, CArray.set?_of_lt _ (by rw [hsuccs.1]; omega) _⟩
      let w' : PdusWork D PdusModifySuccRspInfo := ⟨out.tun, out.ctx, { w.succ with
        drbSetupSuccList := list, drbSetupSuccCount := w.succ.drbSetupSuccCount + 1 }⟩
      refine ⟨out.answer, w', hserve, ?_, rfl, hlisted',
        Or.inl ⟨b, hrsp, hsuccs.push hset, hfails⟩⟩
      rw [pdusModifySetupDrb_eq, hitem, Option.bind_some, hserve, Option.bind_some]
      simp only [PdusWork.noteSetup, DrbServed.answer, hrsp, hset, Option.bind_eq_bind,
        Option.bind_some, w']
  | error c =>
      obtain ⟨list, hset⟩ : ∃ list,
          w.succ.drbSetupFailList.set? w.succ.drbSetupFailCount c = some list :=
        ⟨_, CArray.set?_of_lt _ (by rw [hfails.1]; omega) _⟩
      let w' : PdusWork D PdusModifySuccRspInfo := ⟨out.tun, out.ctx, { w.succ with
        drbSetupFailList := list, drbSetupFailCount := w.succ.drbSetupFailCount + 1 }⟩
      refine ⟨out.answer, w', hserve, ?_, rfl, hlisted',
        Or.inr ⟨c, hrsp, hsuccs, hfails.push hset⟩⟩
      rw [pdusModifySetupDrb_eq, hitem, Option.bind_some, hserve, Option.bind_some]
      simp only [PdusWork.noteSetup, DrbServed.answer, hrsp, hset, Option.bind_eq_bind,
        Option.bind_some, w']

/-- **The loop over the setups** is right when it starts with its counters at zero. -/
theorem pdusModifySetupDrbs_runs {w : PdusWork D PdusModifySuccRspInfo}
    (hcount : req.drbSetupCount ≤ maxDrbPerPdus) (hlisted : w.ctx.DrbsListed)
    (hsucc : w.succ.drbSetupSuccCount = 0) (hfail : w.succ.drbSetupFailCount = 0) :
    ∃ w' setup, forRange (pdusModifySetupDrb env req) req.drbSetupCount w = some w' ∧
      serveAll (drbSetupItem env) w.drbs (req.drbSetupList.firstN req.drbSetupCount) =
        some setup ∧
      Holds w'.succ.drbSetupSuccList w'.succ.drbSetupSuccCount setup.succs ∧
      Holds w'.succ.drbSetupFailList w'.succ.drbSetupFailCount setup.fails := by
  let Rep (w' : PdusWork D PdusModifySuccRspInfo) (bs : List DrbSetupSuccRspInfo)
      (cs : List DrbSetupFailRspInfo) : Prop :=
    w'.ctx.DrbsListed ∧ Holds w'.succ.drbSetupSuccList w'.succ.drbSetupSuccCount bs ∧
      Holds w'.succ.drbSetupFailList w'.succ.drbSetupFailCount cs
  have h0 : Rep w [] [] :=
    ⟨hlisted, hsucc ▸ holds_nil _, hfail ▸ holds_nil _⟩
  have hloop := forRange_serves (drbSetupItem env) req.drbSetupList (pdusModifySetupDrb env req)
    PdusWork.drbs Rep h0 hcount
  obtain ⟨w', setup, hrun, hserved, -, -, hrep⟩ := hloop (by
    intro i item w₁ bs cs hitem hi hlen hrep
    obtain ⟨hlisted₁, hsuccs, hfails⟩ := hrep
    obtain ⟨answer, w₂, hanswer, hbody, hstate, hlisted₂, hcase⟩ :=
      pdusModifySetupDrb_serves hitem (by omega) hlisted₁ hsuccs hfails
    refine ⟨answer, w₂, hanswer, hbody, hstate, ?_⟩
    rcases hcase with ⟨b, hb, hheld⟩ | ⟨c, hc, hheld⟩
    · exact Or.inl ⟨b, hb, hlisted₂, hheld⟩
    · exact Or.inr ⟨c, hc, hlisted₂, hheld⟩)
  exact ⟨w', setup, hrun, hserved, hrep⟩

/-- What the loop over the setups leaves alone of a response. -/
structure SameModifyLists (rsp rsp' : PdusModifySuccRspInfo) : Prop where
  pdusId : rsp'.pdusId = rsp.pdusId
  succCount : rsp'.drbModifySuccCount = rsp.drbModifySuccCount
  failCount : rsp'.drbModifyFailCount = rsp.drbModifyFailCount
  succList : rsp'.drbModifySuccList = rsp.drbModifySuccList
  failList : rsp'.drbModifyFailList = rsp.drbModifyFailList

theorem noteSetup_sameModify {w w' : PdusWork D PdusModifySuccRspInfo} {answer : DrbAnswer D}
    (h : w.noteSetup answer = some w') : SameModifyLists w.succ w'.succ := by
  obtain ⟨s, r⟩ := answer
  cases r with
  | error fail =>
      obtain ⟨list, -, h⟩ := Option.bind_eq_some_iff.mp h
      obtain rfl := Option.some.inj h
      exact ⟨rfl, rfl, rfl, rfl, rfl⟩
  | ok succ =>
      obtain ⟨list, -, h⟩ := Option.bind_eq_some_iff.mp h
      obtain rfl := Option.some.inj h
      exact ⟨rfl, rfl, rfl, rfl, rfl⟩

theorem pdusModifySetupDrbs_sameModify {n : Nat} {w w' : PdusWork D PdusModifySuccRspInfo}
    (h : forRange (pdusModifySetupDrb env req) n w = some w') :
    SameModifyLists w.succ w'.succ := by
  apply forRange_invariant (fun _ w' => SameModifyLists w.succ w'.succ)
    ⟨rfl, rfl, rfl, rfl, rfl⟩ _ h
  intro i w₁ w₂ _ hsame hturn
  rw [pdusModifySetupDrb_eq] at hturn
  obtain ⟨item, -, hturn⟩ := Option.bind_eq_some_iff.mp hturn
  obtain ⟨answer, -, hturn⟩ := Option.bind_eq_some_iff.mp hturn
  have hturn' := noteSetup_sameModify hturn
  exact ⟨hturn'.pdusId.trans hsame.pdusId, hturn'.succCount.trans hsame.succCount,
    hturn'.failCount.trans hsame.failCount, hturn'.succList.trans hsame.succList,
    hturn'.failList.trans hsame.failList⟩

/-! ### The loop over the modifications -/

/-- It never counts a success as one, and writes a single slot of the failures. -/
structure ModifyCountsKept (rsp rsp' : PdusModifySuccRspInfo) : Prop where
  pdusId : rsp'.pdusId = rsp.pdusId
  succCount : rsp'.drbModifySuccCount = rsp.drbModifySuccCount
  failSlot : rsp'.drbSetupFailCount = rsp.drbSetupFailCount
  failList : ∀ j, j ≠ rsp.drbSetupFailCount →
    rsp'.drbModifyFailList.get? j = rsp.drbModifyFailList.get? j

theorem noteModify_kept {w w' : PdusWork D PdusModifySuccRspInfo} {answer : DrbAnswer D}
    (h : w.noteModify answer = some w') : ModifyCountsKept w.succ w'.succ := by
  obtain ⟨s, r⟩ := answer
  cases r with
  | error fail =>
      obtain ⟨list, hset, h⟩ := Option.bind_eq_some_iff.mp h
      obtain rfl := Option.some.inj h
      refine ⟨rfl, rfl, rfl, ?_⟩
      intro j hj
      exact (CArray.get?_set? hset j).trans (if_neg hj)
  | ok succ =>
      obtain ⟨list, -, h⟩ := Option.bind_eq_some_iff.mp h
      obtain rfl := Option.some.inj h
      exact ⟨rfl, rfl, rfl, fun _ _ => rfl⟩

theorem pdusModifyModifyDrbs_kept {n : Nat} {w w' : PdusWork D PdusModifySuccRspInfo}
    (h : forRange (pdusModifyModifyDrb req) n w = some w') :
    ModifyCountsKept w.succ w'.succ := by
  apply forRange_invariant (fun _ w' => ModifyCountsKept w.succ w'.succ)
    ⟨rfl, rfl, rfl, fun _ _ => rfl⟩ _ h
  intro i w₁ w₂ _ hkept hturn
  rw [pdusModifyModifyDrb_eq] at hturn
  obtain ⟨item, -, hturn⟩ := Option.bind_eq_some_iff.mp hturn
  obtain ⟨answer, -, hturn⟩ := Option.bind_eq_some_iff.mp hturn
  have hturn' := noteModify_kept hturn
  refine ⟨hturn'.pdusId.trans hkept.pdusId, hturn'.succCount.trans hkept.succCount,
    hturn'.failSlot.trans hkept.failSlot, ?_⟩
  intro j hj
  rw [hturn'.failList j (hkept.failSlot ▸ hj), hkept.failList j hj]

/-- A turn for an item that fails. -/
theorem pdusModifyModifyDrb_of_error {i : Nat} {item : DrbModifyReqInfo}
    {w : PdusWork D PdusModifySuccRspInfo} {s : DrbState D} {c : DrbSetupFailRspInfo}
    {list : CArray maxDrbPerPdus DrbSetupFailRspInfo}
    (hitem : req.drbModifyList.get? i = some item)
    (hanswer : drbModifyItem w.drbs item = some (s, .error c))
    (hset : w.succ.drbModifyFailList.set? w.succ.drbSetupFailCount c = some list) :
    pdusModifyModifyDrb req i w = some ⟨s.1, s.2, { w.succ with
      drbModifyFailList := list, drbModifyFailCount := w.succ.drbModifyFailCount + 1 }⟩ := by
  rw [pdusModifyModifyDrb_eq, hitem, Option.bind_some, hanswer, Option.bind_some,
    PdusWork.noteModify]
  simp only [hset, Option.bind_eq_bind, Option.bind_some]

/-- An item fails when the context has no such DRB, or no row is found for it. -/
theorem drbModifyItem_error_iff (hlisted : ctx.DrbsListed) (T : TunnelTable D)
    (item : DrbModifyReqInfo) :
    (∃ s c, drbModifyItem (T, ctx) item = some (s, .error c)) ↔
      findDrb T ctx item.drbId = some none ∨
      ∃ j old, findDrb T ctx item.drbId = some (some j) ∧
        ctx.drbTunnelList.deref? j = some old ∧
        (tunnelModify T (T.tunnelTable old).key).1 = none := by
  obtain ⟨found, hfound⟩ := findDrb_isSome hlisted T item.drbId
  cases found with
  | none =>
      refine iff_of_true ?_ (Or.inl hfound)
      exact ⟨_, _, by simp only [drbModifyItem, hfound]; rfl⟩
  | some j =>
      obtain ⟨old, hold⟩ := Option.isSome_iff_exists.mp (hlisted j (firstIndex_lt hfound))
      have hitem : drbModifyItem (T, ctx) item =
          (drbModify T ctx item j).map DrbServed.answer := by
        simp only [drbModifyItem, hfound]
        rfl
      have hright : (findDrb T ctx item.drbId = some none ∨
          ∃ j old, findDrb T ctx item.drbId = some (some j) ∧
            ctx.drbTunnelList.deref? j = some old ∧
            (tunnelModify T (T.tunnelTable old).key).1 = none) ↔
          (tunnelModify T (T.tunnelTable old).key).1 = none := by
        simp [hfound, hold]
      rw [hitem, hright]
      cases hm : tunnelModify T (T.tunnelTable old).key with
      | mk got T' =>
          cases got with
          | none =>
              refine iff_of_true ?_ rfl
              exact ⟨_, _, by
                simp only [drbModify, hold, hm, Option.bind_eq_bind, Option.bind_some]
                rfl⟩
          | some r =>
              refine iff_of_false ?_ (by simp)
              intro herror
              obtain ⟨s, c, herror⟩ := herror
              obtain ⟨out, hout, hanswer⟩ := Option.map_eq_some_iff.mp herror
              simp only [drbModify, hold, hm, Option.bind_eq_bind, Option.bind_some] at hout
              obtain ⟨list, -, hout⟩ := Option.bind_eq_some_iff.mp hout
              obtain rfl := Option.some.inj hout
              cases hanswer

/-! ### The whole modification -/

/-- The phases of a `pdus_modify` that succeeds. -/
theorem pdusModify_of_phases {succ : PdusModifySuccRspInfo} {idx : Nat} {old r : TunnelIdx}
    {T₁ T₂ : TunnelTable D} {w₁ w₂ : PdusWork D PdusModifySuccRspInfo}
    (hold : ctx.pdusTunnelList.deref? idx = some old)
    (hmod : tunnelModify T (T.tunnelTable old).key = (some r, T₁))
    (hrem : forRange (pdusModifyRemoveDrb req ctx) req.drbRemoveCount
      (T₁.setRow r ((T₁.tunnelTable r).copyPdus (T₁.tunnelTable old))) = some T₂)
    (hrun₁ : forRange (pdusModifyModifyDrb req) req.drbModifyCount ⟨T₂, ctx,
      pdusModifySuccRspCreate ((T₁.tunnelTable r).copyPdus (T₁.tunnelTable old)) succ⟩ = some w₁)
    (hrun₂ : forRange (pdusModifySetupDrb env req) req.drbSetupCount w₁ = some w₂) :
    ∃ out, pdusModify env T ctx req succ idx = some out ∧ out.fail = none ∧
      out.succ = w₂.succ := by
  have hlt : idx < maxPdusPerUe := CArray.lt_of_get? (CArray.deref?_eq_some_iff.mp hold)
  obtain ⟨list, hset⟩ : ∃ list, w₂.ctx.pdusTunnelList.set? idx (some r) = some list :=
    ⟨_, CArray.set?_of_lt _ hlt _⟩
  refine ⟨⟨w₂.tun, { w₂.ctx with pdusTunnelList := list }, w₂.succ, none⟩, ?_, rfl, rfl⟩
  simp only [pdusModify, hold, hmod, setRow_self, hrem, hrun₁, hrun₂, hset,
    Option.bind_eq_bind, Option.bind_some]

theorem pdusModify_phases {succ : PdusModifySuccRspInfo} {idx : Nat} {old r : TunnelIdx}
    {T₁ T₂ : TunnelTable D} {out : PdusServed D PdusModifySuccRspInfo}
    (hold : ctx.pdusTunnelList.deref? idx = some old)
    (hmod : tunnelModify T (T.tunnelTable old).key = (some r, T₁))
    (hrem : forRange (pdusModifyRemoveDrb req ctx) req.drbRemoveCount
      (T₁.setRow r ((T₁.tunnelTable r).copyPdus (T₁.tunnelTable old))) = some T₂)
    (h : pdusModify env T ctx req succ idx = some out) :
    ∃ w₁ w₂, forRange (pdusModifyModifyDrb req) req.drbModifyCount ⟨T₂, ctx,
        pdusModifySuccRspCreate ((T₁.tunnelTable r).copyPdus (T₁.tunnelTable old)) succ⟩ =
          some w₁ ∧
      forRange (pdusModifySetupDrb env req) req.drbSetupCount w₁ = some w₂ ∧
      out.succ = w₂.succ := by
  simp only [pdusModify, hold, hmod, setRow_self, hrem, Option.bind_eq_bind,
    Option.bind_some] at h
  obtain ⟨w₁, hrun₁, h⟩ := Option.bind_eq_some_iff.mp h
  obtain ⟨w₂, hrun₂, h⟩ := Option.bind_eq_some_iff.mp h
  obtain ⟨list, -, h⟩ := Option.bind_eq_some_iff.mp h
  obtain rfl := Option.some.inj h
  exact ⟨w₁, w₂, hrun₁, hrun₂, rfl⟩

/-- Of the list of failed modifications only the first slot is written. -/
theorem pdusModify_modifyLists {succ : PdusModifySuccRspInfo} {idx : Nat} {old r : TunnelIdx}
    {T₁ T₂ : TunnelTable D} {out : PdusServed D PdusModifySuccRspInfo}
    (hold : ctx.pdusTunnelList.deref? idx = some old)
    (hmod : tunnelModify T (T.tunnelTable old).key = (some r, T₁))
    (hrem : forRange (pdusModifyRemoveDrb req ctx) req.drbRemoveCount
      (T₁.setRow r ((T₁.tunnelTable r).copyPdus (T₁.tunnelTable old))) = some T₂)
    (h : pdusModify env T ctx req succ idx = some out) :
    out.succ.drbModifySuccCount = 0 ∧
      ∀ j, j ≠ 0 → out.succ.drbModifyFailList.get? j = succ.drbModifyFailList.get? j := by
  obtain ⟨w₁, w₂, hrun₁, hrun₂, hsucc⟩ := pdusModify_phases hold hmod hrem h
  have hkept := pdusModifyModifyDrbs_kept hrun₁
  have hsame := pdusModifySetupDrbs_sameModify hrun₂
  refine ⟨?_, ?_⟩
  · rw [hsucc, hsame.succCount, hkept.succCount]
    rfl
  · intro j hj
    rw [hsucc, hsame.failList]
    exact hkept.failList j hj

/-- A response whose slots for failed modifications start as `fail`. -/
def pdusModifyRspFrom (fail : DrbSetupFailRspInfo) : PdusModifySuccRspInfo where
  pdusId := 0
  drbSetupSuccCount := 0
  drbSetupFailCount := 0
  drbModifySuccCount := 0
  drbModifyFailCount := 0
  pdusDlIpAddr := 0
  pdusDlTeid := 0
  drbSetupSuccList _ := ⟨0, 0, 0⟩
  drbSetupFailList _ := fail
  drbModifySuccList _ := ⟨0, 0, 0⟩
  drbModifyFailList _ := fail

/-- Two items to modify: the slot of the second is left as it was. -/
theorem modifyCount_le_one {idx : Nat} {old r : TunnelIdx} {T₁ T₂ : TunnelTable D}
    (hM : req.drbModifyCount ≤ maxDrbPerPdus)
    (hold : ctx.pdusTunnelList.deref? idx = some old)
    (hmod : tunnelModify T (T.tunnelTable old).key = (some r, T₁))
    (hrem : forRange (pdusModifyRemoveDrb req ctx) req.drbRemoveCount
      (T₁.setRow r ((T₁.tunnelTable r).copyPdus (T₁.tunnelTable old))) = some T₂)
    (h : ∀ succ, ∃ out, pdusModify env T ctx req succ idx = some out ∧ out.fail = none ∧
      DrbsAccounted env T₂ ctx req out.succ) : req.drbModifyCount ≤ 1 := by
  by_contra hgt
  have hslot : ∀ fail, ∃ modified,
      serveAll drbModifyItem (T₂, ctx) (req.drbModifyList.firstN req.drbModifyCount) =
        some modified ∧ modified.fails[1]? = some fail := by
    intro fail
    obtain ⟨out, hout, -, hacc⟩ := h (pdusModifyRspFrom fail)
    obtain ⟨hzero, hkept⟩ := pdusModify_modifyLists hold hmod hrem hout
    obtain ⟨modified, -, hserved, -, -, hheld, -⟩ := hacc.lists
    have hcount := hacc.modifyCount
    have hget := hheld.get? (i := 1) (by omega) (by omega)
    refine ⟨modified, hserved, ?_⟩
    rw [← hget, hkept 1 (by decide)]
    rfl
  obtain ⟨modified, hserved, hfirst⟩ := hslot ⟨0, .rnlUnspecified⟩
  obtain ⟨modified', hserved', hsecond⟩ := hslot ⟨1, .rnlUnspecified⟩
  obtain rfl := Option.some.inj (hserved.symm.trans hserved')
  have hid := congrArg DrbSetupFailRspInfo.drbId (Option.some.inj (hfirst.symm.trans hsecond))
  exact absurd hid (by decide)

/-- The loop over the modifications is right for no item and for one that fails. -/
theorem pdusModifyModifyDrbs_fits {w : PdusWork D PdusModifySuccRspInfo}
    (hlisted : w.ctx.DrbsListed) (hsetup : w.succ.drbSetupSuccCount = 0)
    (hfail : w.succ.drbSetupFailCount = 0) (hsucc : w.succ.drbModifySuccCount = 0)
    (hcount : w.succ.drbModifyFailCount = 0) (hfits : ModifyAccountFits w.tun w.ctx req) :
    ∃ w' modified, forRange (pdusModifyModifyDrb req) req.drbModifyCount w = some w' ∧
      serveAll drbModifyItem w.drbs (req.drbModifyList.firstN req.drbModifyCount) =
        some modified ∧
      w'.drbs = modified.state ∧ w'.ctx.DrbsListed ∧
      w'.succ.drbSetupSuccCount = 0 ∧ w'.succ.drbSetupFailCount = 0 ∧
      Holds w'.succ.drbModifySuccList w'.succ.drbModifySuccCount modified.succs ∧
      Holds w'.succ.drbModifyFailList w'.succ.drbModifyFailCount modified.fails := by
  rcases hfits with hM | ⟨hM, hitem⟩
  · rw [hM]
    exact ⟨w, ⟨w.drbs, [], []⟩, rfl, rfl, rfl, hlisted, hsetup, hfail,
      hsucc ▸ holds_nil _, hcount ▸ holds_nil _⟩
  · obtain ⟨item, hget⟩ : ∃ item, req.drbModifyList.get? 0 = some item :=
      ⟨_, CArray.get?_of_lt _ (by decide)⟩
    obtain ⟨s, c, herror⟩ := (drbModifyItem_error_iff hlisted w.tun item).mpr (hitem item hget)
    obtain ⟨answer, hanswer, hlisted'⟩ := drbModifyItem_runs (s := w.drbs) hlisted item
    obtain rfl := Option.some.inj (hanswer.symm.trans herror)
    obtain ⟨list, hset⟩ : ∃ list,
        w.succ.drbModifyFailList.set? w.succ.drbSetupFailCount c = some list :=
      ⟨_, CArray.set?_of_lt _ (by rw [hfail]; decide) _⟩
    have hturn := pdusModifyModifyDrb_of_error hget hanswer hset
    have hheld : Holds list (0 + 1) ([] ++ [c]) :=
      (holds_nil w.succ.drbModifyFailList).push (hfail ▸ hset)
    rw [hM]
    refine ⟨⟨s.1, s.2, { w.succ with
      drbModifyFailList := list, drbModifyFailCount := w.succ.drbModifyFailCount + 1 }⟩,
      ⟨s, [], [c]⟩, ?_, ?_, rfl, hlisted', hsetup, hfail, hsucc ▸ holds_nil _, ?_⟩
    · rw [forRange_succ]
      exact hturn
    · rw [CArray.firstN_succ hget, serveAll_concat, CArray.firstN_zero, serveAll_nil,
        Option.bind_some, hanswer]
      rfl
    · rw [hcount]
      exact hheld

/-- **The DRBs a session modification reports.**  Where `pdus_modify` succeeds, its
response is right, whatever it held before, exactly when no DRB is asked to be modified or
a single one that fails. -/
theorem drbAccounting_iff {idx : Nat} {old r : TunnelIdx} {T₁ T₂ : TunnelTable D}
    (hlisted : ctx.DrbsListed) (hM : req.drbModifyCount ≤ maxDrbPerPdus)
    (hN : req.drbSetupCount ≤ maxDrbPerPdus) (hold : ctx.pdusTunnelList.deref? idx = some old)
    (hmod : tunnelModify T (T.tunnelTable old).key = (some r, T₁))
    (hrem : forRange (pdusModifyRemoveDrb req ctx) req.drbRemoveCount
      (T₁.setRow r ((T₁.tunnelTable r).copyPdus (T₁.tunnelTable old))) = some T₂) :
    (∀ succ, ∃ out, pdusModify env T ctx req succ idx = some out ∧ out.fail = none ∧
      DrbsAccounted env T₂ ctx req out.succ) ↔ ModifyAccountFits T₂ ctx req := by
  constructor
  · intro h
    have hle := modifyCount_le_one hM hold hmod hrem h
    rcases Nat.eq_zero_or_pos req.drbModifyCount with hM0 | hpos
    · exact Or.inl hM0
    obtain ⟨out, hout, -, hacc⟩ := h (pdusModifyRspFrom ⟨0, .rnlUnspecified⟩)
    obtain ⟨hzero, -⟩ := pdusModify_modifyLists hold hmod hrem hout
    obtain ⟨modified, -, hserved, -, hsuccs, -⟩ := hacc.lists
    have hM1 : req.drbModifyCount = 1 := by omega
    refine Or.inr ⟨hM1, ?_⟩
    intro item hitem
    refine (drbModifyItem_error_iff hlisted T₂ item).mp ?_
    rw [hM1, CArray.firstN_succ hitem, serveAll_concat, CArray.firstN_zero, serveAll_nil,
      Option.bind_some] at hserved
    obtain ⟨answer, hanswer, rfl⟩ := Option.map_eq_some_iff.mp hserved
    cases hres : answer.2 with
    | error c => exact ⟨answer.1, c, hanswer.trans (by rw [← hres])⟩
    | ok b =>
        have hlen := hsuccs.1
        rw [hzero, Served.add, hres] at hlen
        exact absurd hlen (by simp)
  · intro hfits succ
    obtain ⟨w₁, modified, hrun₁, hserved₁, hstate, hlisted₁, hsetup, hfail, hsuccs, hfails⟩ :=
      pdusModifyModifyDrbs_fits (w := ⟨T₂, ctx,
        pdusModifySuccRspCreate ((T₁.tunnelTable r).copyPdus (T₁.tunnelTable old)) succ⟩)
        hlisted rfl rfl rfl rfl hfits
    obtain ⟨w₂, setup, hrun₂, hserved₂, hsuccs', hfails'⟩ :=
      pdusModifySetupDrbs_runs hN hlisted₁ hsetup hfail
    obtain ⟨out, hout, hok, hsucc⟩ := pdusModify_of_phases hold hmod hrem hrun₁ hrun₂
    have hsame := pdusModifySetupDrbs_sameModify hrun₂
    rw [← hsame.succCount, ← hsame.succList] at hsuccs
    rw [← hsame.failCount, ← hsame.failList] at hfails
    refine ⟨out, hout, hok, ?_, ?_, modified, setup, hserved₁, hstate ▸ hserved₂, ?_⟩
    · rw [hsucc, hsuccs.1, hfails.1, serveAll_length hserved₁, length_firstN _ hM]
    · rw [hsucc, hsuccs'.1, hfails'.1, serveAll_length hserved₂, length_firstN _ hN]
    · rw [hsucc]
      exact ⟨hsuccs, hfails, hsuccs', hfails'⟩

/-- A request to modify DRB 1 and nothing else. -/
def modifyDrbReq : PdusModifyReqInfo where
  pdusId := 5
  drbSetupCount := 0
  drbModifyCount := 1
  drbRemoveCount := 0
  drbSetupList _ := oneDrb
  drbModifyList _ := ⟨1⟩
  drbRemoveList _ := ⟨0⟩

/-- The condition is evaluated for a session of a UE that was set up. -/
theorem drbAccounting_iff_one : ∃ S old r T₁ T₂,
    exec e1apStep (Cuup.init listDpdk) [oneSetup, oneSetup] = some S ∧
      tunnelModify S.tun (S.tun.tunnelTable old).key = (some r, T₁) ∧
      ((∀ succ, ∃ out,
          pdusModify upfEnv S.tun (S.ue.ueCtxTable 1) modifyDrbReq succ 0 = some out ∧
          out.fail = none ∧
          DrbsAccounted upfEnv T₂ (S.ue.ueCtxTable 1) modifyDrbReq out.succ) ↔
        ModifyAccountFits T₂ (S.ue.ueCtxTable 1) modifyDrbReq) := by
  have hdec : ((exec e1apStep (Cuup.init listDpdk) [oneSetup, oneSetup]).bind fun S =>
      ((S.ue.ueCtxTable 1).pdusTunnelList.deref? 0).map fun old =>
        decide ((S.ue.ueCtxTable 1).DrbsListed ∧
          (tunnelModify S.tun (S.tun.tunnelTable old).key).1.isSome = true)) = some true := by
    decide
  obtain ⟨S, hS, hfacts⟩ := Option.bind_eq_some_iff.mp hdec
  obtain ⟨old, hold, hfacts⟩ := Option.map_eq_some_iff.mp hfacts
  obtain ⟨hlisted, hsome⟩ := of_decide_eq_true hfacts
  obtain ⟨r, hr⟩ := Option.isSome_iff_exists.mp hsome
  have hmod : tunnelModify S.tun (S.tun.tunnelTable old).key =
      (some r, (tunnelModify S.tun (S.tun.tunnelTable old).key).2) :=
    Prod.ext hr rfl
  exact ⟨S, old, r, _, _, hS, hmod,
    drbAccounting_iff hlisted (by decide) (by decide) hold hmod rfl⟩

/-- A session of a UE is modified, and its DRB with it: the response counts neither a
modified DRB nor one that failed. -/
theorem modifiedDrb_not_reported :
    ¬ ∀ (T T₁ T₂ : TunnelTable listDpdk) (ctx : UeCtx) (req : PdusModifyReqInfo)
        (succ : PdusModifySuccRspInfo) (idx : Nat) (old r : TunnelIdx)
        (out : PdusServed listDpdk PdusModifySuccRspInfo),
      ctx.DrbsListed → req.drbModifyCount ≤ maxDrbPerPdus → req.drbSetupCount ≤ maxDrbPerPdus →
        ctx.pdusTunnelList.deref? idx = some old →
        tunnelModify T (T.tunnelTable old).key = (some r, T₁) →
        forRange (pdusModifyRemoveDrb req ctx) req.drbRemoveCount
          (T₁.setRow r ((T₁.tunnelTable r).copyPdus (T₁.tunnelTable old))) = some T₂ →
        pdusModify upfEnv T ctx req succ idx = some out → out.fail = none →
        DrbsAccounted upfEnv T₂ ctx req out.succ := by
  intro h
  have hdec : ((exec e1apStep (Cuup.init listDpdk) [oneSetup, oneSetup]).bind fun S =>
      ((S.ue.ueCtxTable 1).pdusTunnelList.deref? 0).bind fun old =>
        (pdusModify upfEnv S.tun (S.ue.ueCtxTable 1) modifyDrbReq
          (pdusModifyRspFrom ⟨0, .rnlUnspecified⟩) 0).map fun out =>
        decide ((S.ue.ueCtxTable 1).DrbsListed ∧
          (tunnelModify S.tun (S.tun.tunnelTable old).key).1.isSome = true ∧
          out.fail.isNone = true ∧
          out.succ.drbModifySuccCount + out.succ.drbModifyFailCount = 0)) = some true := by
    decide
  obtain ⟨S, -, hfacts⟩ := Option.bind_eq_some_iff.mp hdec
  obtain ⟨old, hold, hfacts⟩ := Option.bind_eq_some_iff.mp hfacts
  obtain ⟨out, hout, hfacts⟩ := Option.map_eq_some_iff.mp hfacts
  obtain ⟨hlisted, hsome, hfail, hzero⟩ := of_decide_eq_true hfacts
  obtain ⟨r, hr⟩ := Option.isSome_iff_exists.mp hsome
  have hmod : tunnelModify S.tun (S.tun.tunnelTable old).key =
      (some r, (tunnelModify S.tun (S.tun.tunnelTable old).key).2) :=
    Prod.ext hr rfl
  have hcount := (h S.tun _ _ _ modifyDrbReq _ 0 old r out hlisted (by decide) (by decide) hold
    hmod rfl hout (Option.isNone_iff_eq_none.mp hfail)).modifyCount
  rw [hzero] at hcount
  cases hcount

end Pfm
