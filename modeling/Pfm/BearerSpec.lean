import Pfm.Bearer
import Pfm.TunnelSpec

/-!
# What serving a DRB or a PDU session does

One lemma for each of `tunnelOpen`, `drbSetup` and `pdusSetup`, by outcome.
-/

namespace Pfm

open BoundedLoop CircularScan

variable {D : Dpdk} {env : Env D} {T T' : TunnelTable D} {ctx : UeCtx}

/-- `tunnel_key_alloc` and `tunnel_add` by outcome: the table cannot be set up, no
id or no row is found, or a row is handed out for the first free id. -/
theorem tunnelOpen_cases (env : Env D) (T : TunnelTable D) (remoteIp : PfmIpAddr)
    (ttype : TunnelType) :
    (tunnelTableEnsureUp env T = none ∧ tunnelOpen env T remoteIp ttype = (none, T)) ∨
    ∃ T₁, tunnelTableEnsureUp env T = some T₁ ∧
      (tunnelOpen env T remoteIp ttype = (none, T₁) ∨
       ∃ ip i d, tunnelLocalIp env remoteIp ttype = some ip ∧ FirstFreeId T₁ ip i d ∧
        (((∀ r, r ≠ T₁.lastAllocatedSlot → T₁.used r = true) ∧
          tunnelOpen env T remoteIp ttype = (none, { T₁ with lastAssignedId := i })) ∨
         ∃ r, T₁.used r = false ∧ r ≠ T₁.lastAllocatedSlot ∧
          tunnelOpen env T remoteIp ttype = (some (teKey ip i, r),
            TunnelTable.takeRow { T₁ with lastAssignedId := i } r (teKey ip i)))) := by
  unfold tunnelOpen
  rcases tunnelKeyAlloc_cases env T remoteIp ttype with
    ⟨hno, he⟩ | ⟨T₁, hup, he | ⟨ip, i, d, hip, hfree, he⟩⟩
  · exact Or.inl ⟨hno, by simp only [he]⟩
  · exact Or.inr ⟨T₁, hup, Or.inl (by simp only [he])⟩
  · refine Or.inr ⟨T₁, hup, Or.inr ⟨ip, i, d, hip, hfree, ?_⟩⟩
    let T₂ : TunnelTable D := { T₁ with lastAssignedId := i }
    have hup₁ : T₁.tunnelHashtable.isSome = true := tunnelTableEnsureUp_up hup
    have hensure : tunnelTableEnsureUp env T₂ = some T₂ := if_pos hup₁
    have hadd : tunnelAdd env { T₁ with lastAssignedId := i } (teKey ip i) =
        tunnelAlloc { T₁ with lastAssignedId := i } (teKey ip i) := by
      change tunnelAdd env T₂ (teKey ip i) = tunnelAlloc T₂ (teKey ip i)
      rcases tunnelAdd_cases env T₂ (teKey ip i) with ⟨h, _⟩ | ⟨T₃, h, hcase⟩
      · simp [hensure] at h
      · obtain rfl : T₂ = T₃ := by simpa [hensure] using h
        rcases hcase with ⟨hpres, _⟩ | ⟨_, hadd⟩
        · have habs : T₂.entry (teKey ip i) = none := hfree.free
          simp [habs] at hpres
        · exact hadd
    simp only [he, hadd]
    cases hal : tunnelAlloc T₂ (teKey ip i) with
    | mk found T₃ =>
        cases found with
        | none =>
            left
            have hno := tunnelAlloc_none_iff.mp (congrArg Prod.fst hal)
            obtain rfl : T₂ = T₃ := by
              rcases tunnelAlloc_cases T₂ (teKey ip i) with h | ⟨r, d, _, _, h⟩
              · rw [hal] at h
                exact (congrArg Prod.snd h).symm
              · rw [hal] at h
                cases h
            exact ⟨hno, rfl⟩
        | some r =>
            right
            obtain ⟨hun, hne, rfl⟩ := tunnelAlloc_some hal
            exact ⟨r, hun, hne, rfl⟩

/-- The context with a new DRB tunnel at the end of its list. -/
def UeCtx.addDrb (ctx : UeCtx) (list : CArray maxDrbPerUe (Option TunnelIdx)) : UeCtx :=
  { ctx with drbTunnelList := list, drbCount := ctx.drbCount + 1 }

/-- The context with a new PDU-session tunnel at the end of its list. -/
def UeCtx.addPdus (ctx : UeCtx) (list : CArray maxPdusPerUe (Option TunnelIdx)) : UeCtx :=
  { ctx with pdusTunnelList := list, pdusCount := ctx.pdusCount + 1 }

/-- No NULL below the count of the DRB list. -/
def UeCtx.DrbsListed (ctx : UeCtx) : Prop :=
  ∀ i, i < ctx.drbCount → (ctx.drbTunnelList.deref? i).isSome = true

instance (ctx : UeCtx) : Decidable ctx.DrbsListed :=
  inferInstanceAs (Decidable (∀ i, i < ctx.drbCount → (ctx.drbTunnelList.deref? i).isSome = true))

theorem findDrb_isSome (h : ctx.DrbsListed) (T : TunnelTable D) (id : UInt8) :
    ∃ found, findDrb T ctx id = some found := by
  apply firstIndex_isSome
  intro i hi
  obtain ⟨x, hx⟩ := Option.isSome_iff_exists.mp (h i hi)
  exact ⟨_, by rw [hx]; rfl⟩

theorem UeCtx.DrbsListed.count_le (h : ctx.DrbsListed) : ctx.drbCount ≤ maxDrbPerUe := by
  by_contra hlt
  obtain ⟨x, hx⟩ := Option.isSome_iff_exists.mp (h maxDrbPerUe (by omega))
  have hin := CArray.lt_of_get? (CArray.deref?_eq_some_iff.mp hx)
  exact absurd hin (by decide)

/-- Another tunnel at a place of the list. -/
theorem UeCtx.DrbsListed.set (h : ctx.DrbsListed) {j : Nat} {r : TunnelIdx}
    {list : CArray maxDrbPerUe (Option TunnelIdx)}
    (hset : ctx.drbTunnelList.set? j (some r) = some list) :
    ({ ctx with drbTunnelList := list } : UeCtx).DrbsListed := by
  intro i hi
  change (list.deref? i).isSome = true
  rw [CArray.deref?_set? hset]
  split
  · rfl
  · exact h i hi

theorem UeCtx.DrbsListed.addDrb (h : ctx.DrbsListed) {r : TunnelIdx}
    {list : CArray maxDrbPerUe (Option TunnelIdx)}
    (hset : ctx.drbTunnelList.set? ctx.drbCount (some r) = some list) :
    (ctx.addDrb list).DrbsListed := by
  intro i hi
  change (list.deref? i).isSome = true
  rw [CArray.deref?_set? hset]
  split
  · rfl
  · rename_i hne
    change i < ctx.drbCount + 1 at hi
    exact h i (by omega)

/-- `drb_setup` by outcome: refused with nothing done, refused by the tunnel
table, or set up in the row handed out. -/
theorem drbSetup_cases {req : DrbSetupReqInfo} {out : DrbServed D}
    (h : drbSetup env T ctx req = some out) :
    (out.ctx = ctx ∧ (∃ cause, out.rsp = .error ⟨req.drbId, cause⟩) ∧
      (out.tun = T ∨
        ((tunnelOpen env T req.drbDlIpAddr .drb).1 = none ∧
          out.tun = (tunnelOpen env T req.drbDlIpAddr .drb).2))) ∨
    ∃ key r T₁ list, tunnelOpen env T req.drbDlIpAddr .drb = (some (key, r), T₁) ∧
      ctx.drbTunnelList.set? ctx.drbCount (some r) = some list ∧
      out = ⟨T₁.setRow r ((T₁.tunnelTable r).fillDrb req), ctx.addDrb list,
        .ok (drbSetupSuccRspCreate ((T₁.tunnelTable r).fillDrb req))⟩ := by
  unfold drbSetup at h
  split at h
  · obtain rfl := Option.some.inj h
    exact Or.inl ⟨rfl, ⟨_, rfl⟩, Or.inl rfl⟩
  · obtain ⟨found, hfound, h⟩ := Option.bind_eq_some_iff.mp h
    cases found with
    | some j =>
        obtain rfl := Option.some.inj h
        exact Or.inl ⟨rfl, ⟨_, rfl⟩, Or.inl rfl⟩
    | none =>
        cases hopen : tunnelOpen env T req.drbDlIpAddr .drb with
        | mk got T₁ =>
            simp only [hopen] at h
            cases got with
            | none =>
                obtain rfl := Option.some.inj h
                exact Or.inl ⟨rfl, ⟨_, rfl⟩, Or.inr ⟨rfl, rfl⟩⟩
            | some kr =>
                obtain ⟨key, r⟩ := kr
                obtain ⟨list, hlist, h⟩ := Option.bind_eq_some_iff.mp h
                obtain rfl := Option.some.inj h
                refine Or.inr ⟨key, r, T₁, list, rfl, hlist, ?_⟩
                simp [UeCtx.addDrb, TunnelTable.setRow_self]

/-- The state the loop over the DRBs of a PDU session starts in. -/
def pdusSetupStart (T : TunnelTable D) (ctx : UeCtx) (req : PdusSetupReqInfo)
    (succ : PdusSetupSuccRspInfo) (r : TunnelIdx) : PdusWork D PdusSetupSuccRspInfo :=
  ⟨T.setRow r ((T.tunnelTable r).fillPdus req), ctx,
    pdusSetupSuccRspCreate ((T.tunnelTable r).fillPdus req) succ⟩

theorem logAllDrbsFailed_eq_some_iff {id : UInt8} {u : Unit} :
    logAllDrbsFailed id = some u ↔ id = 0 := by
  simp [logAllDrbsFailed]

/-- `pdus_setup` by outcome: refused with nothing done, refused by the tunnel
table, failed because all its DRBs did, or set up. -/
inductive PdusSetupOutcome (env : Env D) (T : TunnelTable D) (ctx : UeCtx)
    (req : PdusSetupReqInfo) (succ : PdusSetupSuccRspInfo) :
    PdusServed D PdusSetupSuccRspInfo → Prop
  | refused (cause : E1apFailCause)
      (why : ctx.pdusCount = maxPdusPerUe ∨
        ∃ j, findPdus T ctx req.pdusId = some (some j)) :
      PdusSetupOutcome env T ctx req succ ⟨T, ctx, succ, some ⟨req.pdusId, cause⟩⟩
  | noTunnel (T' : TunnelTable D) (cause : E1apFailCause)
      (opened : tunnelOpen env T req.pdusUlIpAddr .pdus = (none, T')) :
      PdusSetupOutcome env T ctx req succ ⟨T', ctx, succ, some ⟨req.pdusId, cause⟩⟩
  | noDrb (key : TunnelKey) (r : TunnelIdx) (T' : TunnelTable D)
      (w : PdusWork D PdusSetupSuccRspInfo) (cause : E1apFailCause)
      (opened : tunnelOpen env T req.pdusUlIpAddr .pdus = (some (key, r), T'))
      (drbs : forRange (pdusSetupDrb env req) req.drbCount
        (pdusSetupStart T' ctx req succ r) = some w)
      (all : w.succ.drbSetupFailCount = req.drbCount) (logged : req.pdusId = 0) :
      PdusSetupOutcome env T ctx req succ
        ⟨(tunnelCommit (tunnelRemove w.tun key).2 (some r)).2, w.ctx, w.succ,
          some ⟨req.pdusId, cause⟩⟩
  | served (key : TunnelKey) (r : TunnelIdx) (T' : TunnelTable D)
      (w : PdusWork D PdusSetupSuccRspInfo)
      (list : CArray maxPdusPerUe (Option TunnelIdx))
      (opened : tunnelOpen env T req.pdusUlIpAddr .pdus = (some (key, r), T'))
      (drbs : forRange (pdusSetupDrb env req) req.drbCount
        (pdusSetupStart T' ctx req succ r) = some w)
      (some_served : w.succ.drbSetupFailCount ≠ req.drbCount)
      (listed : w.ctx.pdusTunnelList.set? w.ctx.pdusCount (some r) = some list) :
      PdusSetupOutcome env T ctx req succ ⟨w.tun, w.ctx.addPdus list, w.succ, none⟩

theorem pdusSetup_cases {req : PdusSetupReqInfo} {succ : PdusSetupSuccRspInfo}
    {out : PdusServed D PdusSetupSuccRspInfo}
    (h : pdusSetup env T ctx req succ = some out) :
    PdusSetupOutcome env T ctx req succ out := by
  unfold pdusSetup at h
  split at h
  · rename_i hmax
    obtain rfl := Option.some.inj h
    exact .refused _ (Or.inl hmax)
  · obtain ⟨found, hfound, h⟩ := Option.bind_eq_some_iff.mp h
    cases found with
    | some j =>
        obtain rfl := Option.some.inj h
        exact .refused _ (Or.inr ⟨j, hfound⟩)
    | none =>
        cases hopen : tunnelOpen env T req.pdusUlIpAddr .pdus with
        | mk got T₁ =>
            simp only [hopen] at h
            cases got with
            | none =>
                obtain rfl := Option.some.inj h
                exact .noTunnel _ _ hopen
            | some kr =>
                obtain ⟨key, r⟩ := kr
                obtain ⟨w, hw, h⟩ := Option.bind_eq_some_iff.mp h
                have hdrbs : forRange (pdusSetupDrb env req) req.drbCount
                    (pdusSetupStart T₁ ctx req succ r) = some w := by
                  simpa [pdusSetupStart, TunnelTable.setRow_self] using hw
                split at h
                · rename_i hall
                  obtain ⟨_, hlogged, h⟩ := Option.bind_eq_some_iff.mp h
                  obtain rfl := Option.some.inj h
                  exact .noDrb key r T₁ w _ hopen hdrbs hall
                    (logAllDrbsFailed_eq_some_iff.mp hlogged)
                · rename_i hsome
                  obtain ⟨list, hlist, h⟩ := Option.bind_eq_some_iff.mp h
                  obtain rfl := Option.some.inj h
                  exact .served key r T₁ w list hopen hdrbs hsome hlist

/-- One DRB of a PDU session by outcome: its failure or its success is the next
entry of the response. -/
theorem pdusSetupDrb_cases {req : PdusSetupReqInfo} {i : Nat}
    {w w' : PdusWork D PdusSetupSuccRspInfo} (h : pdusSetupDrb env req i w = some w') :
    ∃ item out, req.drbList.get? i = some item ∧
      drbSetup env w.tun w.ctx item = some out ∧ w'.tun = out.tun ∧ w'.ctx = out.ctx ∧
      ((∃ fail list, out.rsp = .error fail ∧
          w.succ.drbFailList.set? w.succ.drbSetupFailCount fail = some list ∧
          w'.succ = { w.succ with
            drbFailList := list, drbSetupFailCount := w.succ.drbSetupFailCount + 1 }) ∨
       (∃ succ list, out.rsp = .ok succ ∧
          w.succ.drbSuccList.set? w.succ.drbSetupSuccCount succ = some list ∧
          w'.succ = { w.succ with
            drbSuccList := list, drbSetupSuccCount := w.succ.drbSetupSuccCount + 1 })) := by
  unfold pdusSetupDrb at h
  obtain ⟨item, hitem, h⟩ := Option.bind_eq_some_iff.mp h
  obtain ⟨out, hout, h⟩ := Option.bind_eq_some_iff.mp h
  cases hrsp : out.rsp with
  | error fail =>
      simp only [hrsp] at h
      obtain ⟨list, hlist, h⟩ := Option.bind_eq_some_iff.mp h
      obtain rfl := Option.some.inj h
      exact ⟨item, out, hitem, hout, rfl, rfl, Or.inl ⟨fail, list, hrsp, hlist, rfl⟩⟩
  | ok succ =>
      simp only [hrsp] at h
      obtain ⟨list, hlist, h⟩ := Option.bind_eq_some_iff.mp h
      obtain rfl := Option.some.inj h
      exact ⟨item, out, hitem, hout, rfl, rfl, Or.inr ⟨succ, list, hrsp, hlist, rfl⟩⟩

/-! ### Modifying a PDU session -/

/-- `drb_modify` by outcome: no row is handed out, or the old row is copied into the
one that is. -/
theorem drbModify_cases {req : DrbModifyReqInfo} {idx : Nat} {out : DrbServed D}
    (h : drbModify T ctx req idx = some out) :
    ∃ old, ctx.drbTunnelList.deref? idx = some old ∧
      ((∃ T₁, tunnelModify T (T.tunnelTable old).key = (none, T₁) ∧ out.tun = T₁ ∧
          out.ctx = ctx) ∨
       ∃ r T₁ list, tunnelModify T (T.tunnelTable old).key = (some r, T₁) ∧
        ctx.drbTunnelList.set? idx (some r) = some list ∧
        out.tun = T₁.setRow r (T₁.tunnelTable old) ∧
        out.ctx = { ctx with drbTunnelList := list }) := by
  unfold drbModify at h
  obtain ⟨old, hold, h⟩ := Option.bind_eq_some_iff.mp h
  refine ⟨old, hold, ?_⟩
  cases hm : tunnelModify T (T.tunnelTable old).key with
  | mk got T₁ =>
      simp only [hm] at h
      cases got with
      | none =>
          obtain rfl := Option.some.inj h
          exact Or.inl ⟨T₁, rfl, rfl, rfl⟩
      | some r =>
          obtain ⟨list, hlist, h⟩ := Option.bind_eq_some_iff.mp h
          obtain rfl := Option.some.inj h
          exact Or.inr ⟨r, T₁, list, rfl, hlist, rfl, rfl⟩

/-- One DRB to remove: nothing, or the tunnel of some key is removed. -/
theorem pdusModifyRemoveDrb_cases {req : PdusModifyReqInfo} {i : Nat}
    (h : pdusModifyRemoveDrb req ctx i T = some T') :
    T' = T ∨ ∃ key, T' = (tunnelRemove T key).2 := by
  unfold pdusModifyRemoveDrb at h
  obtain ⟨found, _, h⟩ := Option.bind_eq_some_iff.mp h
  cases found with
  | none => exact Or.inl (Option.some.inj h).symm
  | some j =>
      obtain ⟨nt, _, h⟩ := Option.bind_eq_some_iff.mp h
      exact Or.inr ⟨_, (Option.some.inj h).symm⟩

/-- One DRB to modify: it is not found, or `drb_modify` is called. -/
theorem pdusModifyModifyDrb_cases {req : PdusModifyReqInfo} {i : Nat}
    {w w' : PdusWork D PdusModifySuccRspInfo} (h : pdusModifyModifyDrb req i w = some w') :
    (w'.tun = w.tun ∧ w'.ctx = w.ctx) ∨
    ∃ item j out, drbModify w.tun w.ctx item j = some out ∧ w'.tun = out.tun ∧
      w'.ctx = out.ctx := by
  unfold pdusModifyModifyDrb at h
  obtain ⟨found, _, h⟩ := Option.bind_eq_some_iff.mp h
  obtain ⟨item, _, h⟩ := Option.bind_eq_some_iff.mp h
  cases found with
  | none =>
      obtain ⟨out, hout, h⟩ := Option.bind_eq_some_iff.mp h
      obtain rfl := Option.some.inj hout
      obtain ⟨list, _, h⟩ := Option.bind_eq_some_iff.mp h
      obtain rfl := Option.some.inj h
      exact Or.inl ⟨rfl, rfl⟩
  | some j =>
      obtain ⟨out, hout, h⟩ := Option.bind_eq_some_iff.mp h
      refine Or.inr ⟨item, j, out, hout, ?_⟩
      cases hrsp : out.rsp with
      | error fail =>
          simp only [hrsp] at h
          obtain ⟨list, _, h⟩ := Option.bind_eq_some_iff.mp h
          obtain rfl := Option.some.inj h
          exact ⟨rfl, rfl⟩
      | ok succ =>
          simp only [hrsp] at h
          obtain ⟨list, _, h⟩ := Option.bind_eq_some_iff.mp h
          obtain rfl := Option.some.inj h
          exact ⟨rfl, rfl⟩

/-- One DRB to set up. -/
theorem pdusModifySetupDrb_cases {req : PdusModifyReqInfo} {i : Nat}
    {w w' : PdusWork D PdusModifySuccRspInfo}
    (h : pdusModifySetupDrb env req i w = some w') :
    ∃ item out, drbSetup env w.tun w.ctx item = some out ∧ w'.tun = out.tun ∧
      w'.ctx = out.ctx := by
  unfold pdusModifySetupDrb at h
  obtain ⟨item, _, h⟩ := Option.bind_eq_some_iff.mp h
  obtain ⟨out, hout, h⟩ := Option.bind_eq_some_iff.mp h
  refine ⟨item, out, hout, ?_⟩
  cases hrsp : out.rsp with
  | error fail =>
      simp only [hrsp] at h
      obtain ⟨list, _, h⟩ := Option.bind_eq_some_iff.mp h
      obtain rfl := Option.some.inj h
      exact ⟨rfl, rfl⟩
  | ok succ =>
      simp only [hrsp] at h
      obtain ⟨list, _, h⟩ := Option.bind_eq_some_iff.mp h
      obtain rfl := Option.some.inj h
      exact ⟨rfl, rfl⟩

/-- `pdus_modify` by outcome: no row is handed out for the old key, or the row handed
out takes over from the old one, and the DRBs are removed, modified and set up. -/
inductive PdusModifyOutcome (env : Env D) (T : TunnelTable D) (ctx : UeCtx)
    (req : PdusModifyReqInfo) (succ : PdusModifySuccRspInfo) (idx : Nat) (old : TunnelIdx) :
    PdusServed D PdusModifySuccRspInfo → Prop
  | noTunnel (T₁ : TunnelTable D)
      (modified : tunnelModify T (T.tunnelTable old).key = (none, T₁)) :
      PdusModifyOutcome env T ctx req succ idx old
        ⟨T₁, ctx, succ, some ⟨req.pdusId, .rnlUnknownPdusId⟩⟩
  | served (r : TunnelIdx) (T₁ T₂ : TunnelTable D)
      (w w' : PdusWork D PdusModifySuccRspInfo)
      (list : CArray maxPdusPerUe (Option TunnelIdx))
      (modified : tunnelModify T (T.tunnelTable old).key = (some r, T₁))
      (removes : forRange (pdusModifyRemoveDrb req ctx) req.drbRemoveCount
        (T₁.setRow r ((T₁.tunnelTable r).copyPdus (T₁.tunnelTable old))) = some T₂)
      (modifies : forRange (pdusModifyModifyDrb req) req.drbModifyCount
        ⟨T₂, ctx, pdusModifySuccRspCreate
          ((T₁.tunnelTable r).copyPdus (T₁.tunnelTable old)) succ⟩ = some w)
      (setups : forRange (pdusModifySetupDrb env req) req.drbSetupCount w = some w')
      (listed : w'.ctx.pdusTunnelList.set? idx (some r) = some list) :
      PdusModifyOutcome env T ctx req succ idx old
        ⟨w'.tun, { w'.ctx with pdusTunnelList := list }, w'.succ, none⟩

theorem pdusModify_cases {req : PdusModifyReqInfo} {succ : PdusModifySuccRspInfo}
    {idx : Nat} {out : PdusServed D PdusModifySuccRspInfo}
    (h : pdusModify env T ctx req succ idx = some out) :
    ∃ old, ctx.pdusTunnelList.deref? idx = some old ∧
      PdusModifyOutcome env T ctx req succ idx old out := by
  unfold pdusModify at h
  obtain ⟨old, hold, h⟩ := Option.bind_eq_some_iff.mp h
  refine ⟨old, hold, ?_⟩
  cases hm : tunnelModify T (T.tunnelTable old).key with
  | mk got T₁ =>
      simp only [hm] at h
      cases got with
      | none =>
          obtain rfl := Option.some.inj h
          exact .noTunnel T₁ hm
      | some r =>
          obtain ⟨T₂, hremoves, h⟩ := Option.bind_eq_some_iff.mp h
          obtain ⟨w, hmodifies, h⟩ := Option.bind_eq_some_iff.mp h
          obtain ⟨w', hsetups, h⟩ := Option.bind_eq_some_iff.mp h
          obtain ⟨list, hlist, h⟩ := Option.bind_eq_some_iff.mp h
          obtain rfl := Option.some.inj h
          rw [TunnelTable.setRow_self] at hmodifies
          exact .served r T₁ T₂ w w' list hm hremoves hmodifies hsetups hlist

end Pfm
