import Pfm.Bearer
import Pfm.RowResidue

/-!
# Serving a bearer on tables with different free rows

Two contexts are alike when they are the same below the counts and their pointers are
rows the tables agree on; of the DRB list every slot counts, as `ue_ctx_commit` reads
past the count.  A DRB or a PDU session served on both sides is answered alike, and
the row it took is one more the tables agree on: what it is filled with and the
residue make up the whole row.
-/

namespace Pfm

open BoundedLoop TwoRuns TunnelTable

variable {D : Dpdk} {env : Env D} {T T' : TunnelTable D} {A B : Set TunnelIdx}
  {ctx ctx' : UeCtx} {r : TunnelIdx}

/-- The same context up to the PDU-session slots past the count, with its pointers in
`A`. -/
structure CtxAlike (A : Set TunnelIdx) (ctx ctx' : UeCtx) : Prop where
  cuupUeId : ctx'.cuupUeId = ctx.cuupUeId
  cucpUeId : ctx'.cucpUeId = ctx.cucpUeId
  pdusCount : ctx'.pdusCount = ctx.pdusCount
  drbCount : ctx'.drbCount = ctx.drbCount
  newUl : ctx'.newUlFlowDetectedCount = ctx.newUlFlowDetectedCount
  isRowUsed : ctx'.isRowUsed = ctx.isRowUsed
  drbList : ctx'.drbTunnelList = ctx.drbTunnelList
  pdusList : ∀ i, i < ctx.pdusCount → ctx'.pdusTunnelList.get? i = ctx.pdusTunnelList.get? i
  drbIn : ∀ i r, ctx.drbTunnelList.deref? i = some r → r ∈ A
  pdusIn : ∀ i r, i < ctx.pdusCount → ctx.pdusTunnelList.deref? i = some r → r ∈ A

theorem CtxAlike.mono (h : CtxAlike A ctx ctx') (hAB : A ⊆ B) : CtxAlike B ctx ctx' :=
  { h with
    drbIn := fun i r hi => hAB (h.drbIn i r hi)
    pdusIn := fun i r hi hr => hAB (h.pdusIn i r hi hr) }

theorem CtxAlike.pdus_deref (h : CtxAlike A ctx ctx') {i : Nat} (hi : i < ctx.pdusCount) :
    ctx'.pdusTunnelList.deref? i = ctx.pdusTunnelList.deref? i := by
  rw [CArray.deref?, h.pdusList i hi, CArray.deref?]

/-- The tables and the contexts of two sides, alike on a set of rows that holds `A`. -/
def ServedAlike (A : Set TunnelIdx) (T T' : TunnelTable D) (ctx ctx' : UeCtx) : Prop :=
  ∃ B, A ⊆ B ∧ TunnelsAlike B T T' ∧ CtxAlike B ctx ctx'

theorem ServedAlike.of_same (h : TunnelsAlike A T T') (hctx : CtxAlike A ctx ctx') :
    ServedAlike A T T' ctx ctx' :=
  ⟨A, subset_rfl, h, hctx⟩

theorem ServedAlike.mono (h : ServedAlike B T T' ctx ctx') (hAB : A ⊆ B) :
    ServedAlike A T T' ctx ctx' := by
  obtain ⟨C, hBC, htun, hctx⟩ := h
  exact ⟨C, hAB.trans hBC, htun, hctx⟩

/-! ### The row that is filled -/

/-- A row is its key, its flag, its residue and what `drb_setup` fills in. -/
theorem Tunnel.fillDrb_congr {t t' : Tunnel} (hkey : t'.key = t.key)
    (hused : t'.isRowUsed = t.isRowUsed) (hres : t'.residue = t.residue)
    (req : DrbSetupReqInfo) : t'.fillDrb req = t.fillDrb req := by
  obtain ⟨_, _, _, _, _, info⟩ := t
  obtain ⟨_, _, _, _, _, info'⟩ := t'
  obtain ⟨⟩ := info
  obtain ⟨⟩ := info'
  simp_all [Tunnel.fillDrb, TunnelInfo.setDrbId, Tunnel.residue]

theorem Tunnel.fillPdus_congr {t t' : Tunnel} (hkey : t'.key = t.key)
    (hused : t'.isRowUsed = t.isRowUsed) (hres : t'.residue = t.residue)
    (req : PdusSetupReqInfo) : t'.fillPdus req = t.fillPdus req := by
  obtain ⟨_, _, _, _, _, info⟩ := t
  obtain ⟨_, _, _, _, _, info'⟩ := t'
  obtain ⟨⟩ := info
  obtain ⟨⟩ := info'
  simp_all [Tunnel.fillPdus, TunnelInfo.setPdusId, Tunnel.residue]

theorem Tunnel.copyPdus_congr {t t' : Tunnel} (hkey : t'.key = t.key)
    (hused : t'.isRowUsed = t.isRowUsed) (hres : t'.residue = t.residue) (old : Tunnel) :
    t'.copyPdus old = t.copyPdus old := by
  obtain ⟨_, _, _, _, _, info⟩ := t
  obtain ⟨_, _, _, _, _, info'⟩ := t'
  obtain ⟨⟩ := info
  obtain ⟨⟩ := info'
  simp_all [Tunnel.copyPdus, TunnelInfo.setPdusId, Tunnel.residue]

/-- The row handed out by `tunnelOpen`. -/
theorem tunnelOpen_alike (h : TunnelsAlike A T T') (env : Env D) (remoteIp : PfmIpAddr)
    (ttype : TunnelType) :
    SameResult (TunnelsAlike A) (tunnelOpen env T remoteIp ttype)
        (tunnelOpen env T' remoteIp ttype) ∧
      ∀ key r, (tunnelOpen env T remoteIp ttype).1 = some (key, r) →
        ((tunnelOpen env T' remoteIp ttype).2.tunnelTable r).key =
          ((tunnelOpen env T remoteIp ttype).2.tunnelTable r).key := by
  have hkey := tunnelKeyAlloc_alike h env remoteIp ttype
  unfold tunnelOpen
  generalize tunnelKeyAlloc env T remoteIp ttype = x,
    tunnelKeyAlloc env T' remoteIp ttype = y at hkey ⊢
  obtain ⟨got, T₁⟩ := x
  obtain ⟨got', T₁'⟩ := y
  obtain ⟨rfl : got = got', h₁⟩ := hkey
  cases got with
  | none => exact ⟨⟨rfl, h₁⟩, fun _ _ hr => by cases hr⟩
  | some key =>
      have hadd := tunnelAdd_alike h₁ env key
      simp only
      generalize tunnelAdd env T₁ key = x, tunnelAdd env T₁' key = y at hadd ⊢
      obtain ⟨row, T₂⟩ := x
      obtain ⟨row', T₂'⟩ := y
      obtain ⟨⟨rfl : row = row', h₂⟩, hrow⟩ := hadd
      cases row with
      | none => exact ⟨⟨rfl, h₂⟩, fun _ _ hr => by cases hr⟩
      | some r =>
          refine ⟨⟨rfl, h₂⟩, fun key' r' hr => ?_⟩
          obtain ⟨_, rfl⟩ := Prod.mk.inj (Option.some.inj hr)
          exact hrow r rfl

/-! ### DRBs -/

/-- A test of the tunnel in a slot of the DRB list. -/
theorem drb_test_congr (h : TunnelsAlike A T T') (hctx : CtxAlike A ctx ctx')
    {α : Type} (f : Tunnel → Option α) (i : Nat) :
    ((ctx.drbTunnelList.deref? i).bind fun nt => f (T.tunnelTable nt)) =
      (ctx'.drbTunnelList.deref? i).bind fun nt => f (T'.tunnelTable nt) := by
  rw [hctx.drbList]
  cases hi : ctx.drbTunnelList.deref? i with
  | none => rfl
  | some nt => rw [Option.bind_some, Option.bind_some, h.agree nt (hctx.drbIn i nt hi)]

theorem pdus_test_congr (h : TunnelsAlike A T T') (hctx : CtxAlike A ctx ctx')
    {α : Type} (f : Tunnel → Option α) {i : Nat} (hi : i < ctx.pdusCount) :
    ((ctx.pdusTunnelList.deref? i).bind fun nt => f (T.tunnelTable nt)) =
      (ctx'.pdusTunnelList.deref? i).bind fun nt => f (T'.tunnelTable nt) := by
  rw [hctx.pdus_deref hi]
  cases hnt : ctx.pdusTunnelList.deref? i with
  | none => rfl
  | some nt => rw [Option.bind_some, Option.bind_some, h.agree nt (hctx.pdusIn i nt hi hnt)]

theorem findDrb_alike (h : TunnelsAlike A T T') (hctx : CtxAlike A ctx ctx') (id : UInt8) :
    findDrb T ctx id = findDrb T' ctx' id := by
  unfold findDrb
  rw [hctx.drbCount]
  exact firstIndex_congr fun i _ =>
    drb_test_congr h hctx (fun t => some (t.info.drbIdByte == id)) i

theorem findPdus_alike (h : TunnelsAlike A T T') (hctx : CtxAlike A ctx ctx') (id : UInt8) :
    findPdus T ctx id = findPdus T' ctx' id := by
  unfold findPdus
  rw [hctx.pdusCount]
  exact firstIndex_congr fun i hi =>
    pdus_test_congr h hctx (fun t => some (t.info.pdusId == id)) hi

/-- The same row written to the same slot of both DRB lists. -/
theorem CtxAlike.setDrb (h : CtxAlike A ctx ctx') {i : Nat}
    {list : CArray maxDrbPerUe (Option TunnelIdx)} (hr : r ∈ A)
    (hlist : ctx.drbTunnelList.set? i (some r) = some list) :
    CtxAlike A { ctx with drbTunnelList := list } { ctx' with drbTunnelList := list } :=
  { h with
    drbList := rfl
    drbIn := by
      intro j r' hj
      rw [CArray.deref?_set? hlist] at hj
      split at hj
      · obtain rfl := Option.some.inj hj
        exact hr
      · exact h.drbIn j r' hj }

theorem CtxAlike.setDrbCount (h : CtxAlike A ctx ctx') (count : Nat) :
    CtxAlike A { ctx with drbCount := count } { ctx' with drbCount := count } :=
  { h with drbCount := rfl }

/-- The same row written to the same slot of both PDU-session lists. -/
theorem CtxAlike.setPdus (h : CtxAlike A ctx ctx') {i count : Nat}
    {list list' : CArray maxPdusPerUe (Option TunnelIdx)} (hr : r ∈ A)
    (hlist : ctx.pdusTunnelList.set? i (some r) = some list)
    (hlist' : ctx'.pdusTunnelList.set? i (some r) = some list')
    (hcount : ∀ j, j < count → j = i ∨ j < ctx.pdusCount) :
    CtxAlike A { ctx with pdusTunnelList := list, pdusCount := count }
      { ctx' with pdusTunnelList := list', pdusCount := count } :=
  { h with
    pdusCount := rfl
    pdusList := by
      intro j hj
      change list'.get? j = list.get? j
      rw [CArray.get?_set? hlist, CArray.get?_set? hlist']
      split
      · rfl
      · rename_i hne
        exact h.pdusList j ((hcount j hj).resolve_left hne)
    pdusIn := by
      intro j r' hj hr'
      rw [CArray.deref?_set? hlist] at hr'
      split at hr'
      · obtain rfl := Option.some.inj hr'
        exact hr
      · rename_i hne
        exact h.pdusIn j r' ((hcount j hj).resolve_left hne) hr' }

/-- The same row in the place of another. -/
theorem CtxAlike.replacePdus (h : CtxAlike A ctx ctx') {i : Nat}
    {list list' : CArray maxPdusPerUe (Option TunnelIdx)} (hr : r ∈ A)
    (hlist : ctx.pdusTunnelList.set? i (some r) = some list)
    (hlist' : ctx'.pdusTunnelList.set? i (some r) = some list') :
    CtxAlike A { ctx with pdusTunnelList := list } { ctx' with pdusTunnelList := list' } :=
  { h.setPdus hr hlist hlist' fun _ hj => Or.inr hj with pdusCount := h.pdusCount }

/-- Writing to a slot of two arrays. -/
theorem set?_rel {n : Nat} {α : Type} (a b : CArray n α) (i : Nat) (x : α) :
    Option.Rel (fun l l' => a.set? i x = some l ∧ b.set? i x = some l') (a.set? i x)
      (b.set? i x) := by
  by_cases hi : i < n
  · rw [CArray.set?_of_lt a hi, CArray.set?_of_lt b hi]
    exact .some ⟨rfl, rfl⟩
  · simp only [CArray.set?, hi, dite_false]
    exact .none

/-- Two ways a DRB was served, with the same answer. -/
def DrbAlike (A : Set TunnelIdx) (out out' : DrbServed D) : Prop :=
  out'.rsp = out.rsp ∧ ServedAlike A out.tun out'.tun out.ctx out'.ctx

theorem drbSetup_alike (h : TunnelsAlike A T T') (hctx : CtxAlike A ctx ctx')
    (env : Env D) (req : DrbSetupReqInfo) :
    Option.Rel (DrbAlike A) (drbSetup env T ctx req) (drbSetup env T' ctx' req) := by
  unfold drbSetup
  rw [hctx.drbCount]
  split
  · exact .some ⟨rfl, .of_same h hctx⟩
  · rw [← findDrb_alike h hctx]
    apply rel_bind_same
    intro found _
    cases found with
    | some j => exact .some ⟨rfl, .of_same h hctx⟩
    | none =>
        obtain ⟨hopen, hkey⟩ := tunnelOpen_alike h env req.drbDlIpAddr .drb
        simp only
        generalize tunnelOpen env T req.drbDlIpAddr .drb = x,
          tunnelOpen env T' req.drbDlIpAddr .drb = y at hopen hkey ⊢
        obtain ⟨got, T₁⟩ := x
        obtain ⟨got', T₁'⟩ := y
        obtain ⟨rfl : got = got', h₁⟩ := hopen
        cases got with
        | none => exact .some ⟨rfl, .of_same h₁ hctx⟩
        | some kr =>
            obtain ⟨key, r⟩ := kr
            have hfill := Tunnel.fillDrb_congr (hkey key r rfl) (h₁.used r) (h₁.residue r) req
            simp only [hfill, setRow_self, hctx.drbList]
            refine rel_bind_same fun list hlist => .some ⟨rfl, ?_⟩
            refine ⟨insert r A, Set.subset_insert r A, h₁.setRow r _, ?_⟩
            exact ((hctx.mono (Set.subset_insert r A)).setDrb (Set.mem_insert r A)
              hlist).setDrbCount _

theorem drbModify_alike (h : TunnelsAlike A T T') (hctx : CtxAlike A ctx ctx')
    (req : DrbModifyReqInfo) (idx : Nat) :
    Option.Rel (DrbAlike A) (drbModify T ctx req idx) (drbModify T' ctx' req idx) := by
  unfold drbModify
  rw [hctx.drbList]
  apply rel_bind_same
  intro old hold
  have hin := hctx.drbIn idx old hold
  rw [h.agree old hin]
  have hmodify := tunnelModify_alike h (T.tunnelTable old).key
  generalize tunnelModify T (T.tunnelTable old).key = x,
    tunnelModify T' (T.tunnelTable old).key = y at hmodify ⊢
  obtain ⟨got, T₁⟩ := x
  obtain ⟨got', T₁'⟩ := y
  obtain ⟨⟨rfl : got = got', h₁⟩, _⟩ := hmodify
  cases got with
  | none => exact .some ⟨rfl, .of_same h₁ hctx⟩
  | some r =>
      have hrow : T₁'.tunnelTable old = T₁.tunnelTable old := h₁.agree old hin
      simp only [hrow, setRow_self]
      refine rel_bind_same fun list hlist => .some ⟨rfl, ?_⟩
      refine ⟨insert r A, Set.subset_insert r A, h₁.setRow r _, ?_⟩
      exact (hctx.mono (Set.subset_insert r A)).setDrb (Set.mem_insert r A) hlist

/-! ### PDU sessions -/

/-- Two stages of serving a PDU session, with the same success slot. -/
def PdusWorkAlike {ρ : Type} (A : Set TunnelIdx) (w w' : PdusWork D ρ) : Prop :=
  w'.succ = w.succ ∧ ServedAlike A w.tun w'.tun w.ctx w'.ctx

/-- Two ways a PDU session was served, with the same answer. -/
def PdusAlike {ρ : Type} (A : Set TunnelIdx) (out out' : PdusServed D ρ) : Prop :=
  out'.succ = out.succ ∧ out'.fail = out.fail ∧
    ServedAlike A out.tun out'.tun out.ctx out'.ctx

/-- The answer to a DRB goes to one of two slots of the session's answer. -/
theorem drbAnswer_alike {ρ α β : Type} {out out' : DrbServed D} (hout : DrbAlike B out out')
    (hAB : A ⊆ B) (failSlot : DrbSetupFailRspInfo → Option α)
    (succSlot : DrbSetupSuccRspInfo → Option β) (failed : α → ρ) (served : β → ρ) :
    Option.Rel (PdusWorkAlike A)
      (match out.rsp with
        | .error fail => (failSlot fail).bind fun list =>
            some (⟨out.tun, out.ctx, failed list⟩ : PdusWork D ρ)
        | .ok succ => (succSlot succ).bind fun list => some ⟨out.tun, out.ctx, served list⟩)
      (match out'.rsp with
        | .error fail => (failSlot fail).bind fun list =>
            some ⟨out'.tun, out'.ctx, failed list⟩
        | .ok succ => (succSlot succ).bind fun list =>
            some ⟨out'.tun, out'.ctx, served list⟩) := by
  obtain ⟨hrsp, hserved⟩ := hout
  rw [hrsp]
  cases out.rsp with
  | error fail => exact rel_bind_same fun list _ => .some ⟨rfl, hserved.mono hAB⟩
  | ok succ => exact rel_bind_same fun list _ => .some ⟨rfl, hserved.mono hAB⟩

theorem pdusSetupDrb_alike {w w' : PdusWork D PdusSetupSuccRspInfo}
    (hw : PdusWorkAlike A w w') (env : Env D) (req : PdusSetupReqInfo) (i : Nat) :
    Option.Rel (PdusWorkAlike A) (pdusSetupDrb env req i w) (pdusSetupDrb env req i w') := by
  obtain ⟨hsucc, B, hAB, htun, hctx⟩ := hw
  unfold pdusSetupDrb
  apply rel_bind_same
  intro item _
  apply rel_bind (drbSetup_alike htun hctx env item)
  intro out out' hout
  rw [hsucc]
  exact drbAnswer_alike hout hAB _ _ _ _

theorem pdusSetup_alike (h : TunnelsAlike A T T') (hctx : CtxAlike A ctx ctx') (env : Env D)
    (req : PdusSetupReqInfo) (succ : PdusSetupSuccRspInfo) :
    Option.Rel (PdusAlike A) (pdusSetup env T ctx req succ) (pdusSetup env T' ctx' req succ) := by
  unfold pdusSetup
  rw [hctx.pdusCount]
  split
  · exact .some ⟨rfl, rfl, .of_same h hctx⟩
  · rw [← findPdus_alike h hctx]
    apply rel_bind_same
    intro found _
    cases found with
    | some j => exact .some ⟨rfl, rfl, .of_same h hctx⟩
    | none =>
        obtain ⟨hopen, hkey⟩ := tunnelOpen_alike h env req.pdusUlIpAddr .pdus
        simp only
        generalize tunnelOpen env T req.pdusUlIpAddr .pdus = x,
          tunnelOpen env T' req.pdusUlIpAddr .pdus = y at hopen hkey ⊢
        obtain ⟨got, T₁⟩ := x
        obtain ⟨got', T₁'⟩ := y
        obtain ⟨rfl : got = got', h₁⟩ := hopen
        cases got with
        | none => exact .some ⟨rfl, rfl, .of_same h₁ hctx⟩
        | some kr =>
            obtain ⟨key, r⟩ := kr
            have hfill := Tunnel.fillPdus_congr (hkey key r rfl) (h₁.used r) (h₁.residue r) req
            have hsub := Set.subset_insert r A
            simp only [hfill, setRow_self]
            have hstart : PdusWorkAlike (insert r A)
                (⟨T₁.setRow r ((T₁.tunnelTable r).fillPdus req), ctx,
                  pdusSetupSuccRspCreate ((T₁.tunnelTable r).fillPdus req) succ⟩ :
                  PdusWork D PdusSetupSuccRspInfo)
                ⟨T₁'.setRow r ((T₁.tunnelTable r).fillPdus req), ctx',
                  pdusSetupSuccRspCreate ((T₁.tunnelTable r).fillPdus req) succ⟩ :=
              ⟨rfl, .of_same (h₁.setRow r _) (hctx.mono hsub)⟩
            refine rel_bind (forRange_rel (fun _ => PdusWorkAlike (insert r A)) hstart
              fun i w w' _ hw => pdusSetupDrb_alike hw env req i) fun w w' hw => ?_
            obtain ⟨hsucc, B, hB, htun, hctx'⟩ := hw
            have hr : r ∈ B := hB (Set.mem_insert r A)
            rw [hsucc]
            split
            · apply rel_bind_same
              intro _ _
              refine .some ⟨rfl, rfl, B, hsub.trans hB, ?_, hctx'⟩
              exact (tunnelCommit_alike (tunnelRemove_alike htun key).2 hr).2
            · rw [hctx'.pdusCount]
              apply rel_bind (set?_rel _ _ _ _)
              intro list list' hlist
              refine .some ⟨rfl, rfl, B, hsub.trans hB, htun, ?_⟩
              exact hctx'.setPdus hr hlist.1 hlist.2 fun j hj => by omega

theorem pdusModifyRemoveDrb_alike (h : TunnelsAlike A T T') (hctx : CtxAlike A ctx ctx')
    (req : PdusModifyReqInfo) (i : Nat) :
    Option.Rel (TunnelsAlike A) (pdusModifyRemoveDrb req ctx i T)
      (pdusModifyRemoveDrb req ctx' i T') := by
  unfold pdusModifyRemoveDrb
  rw [hctx.drbCount]
  refine rel_bind_eq (firstIndex_congr fun j _ =>
    drb_test_congr h hctx (fun t => (req.drbRemoveList.get? j).bind fun item =>
      some (t.info.drbIdByte == item.drbId)) i) fun found _ => ?_
  cases found with
  | none => exact .some h
  | some j =>
      simp only [hctx.drbList]
      apply rel_bind_same
      intro nt hnt
      apply Option.Rel.some
      rw [h.agree nt (hctx.drbIn i nt hnt)]
      exact (tunnelRemove_alike h _).2

theorem pdusModifyModifyDrb_alike {w w' : PdusWork D PdusModifySuccRspInfo}
    (hw : PdusWorkAlike A w w') (req : PdusModifyReqInfo) (i : Nat) :
    Option.Rel (PdusWorkAlike A) (pdusModifyModifyDrb req i w)
      (pdusModifyModifyDrb req i w') := by
  obtain ⟨hsucc, B, hAB, htun, hctx⟩ := hw
  unfold pdusModifyModifyDrb
  rw [hctx.drbCount]
  refine rel_bind_eq (firstIndex_congr fun j _ =>
    drb_test_congr htun hctx (fun t => (req.drbModifyList.get? i).bind fun item =>
      some (t.info.drbIdByte == item.drbId)) j) fun found _ => ?_
  apply rel_bind_same
  intro item _
  rw [hsucc]
  cases found with
  | none =>
      have hnone : DrbAlike B
          ⟨w.tun, w.ctx, .error (drbModifyFailRspCreate item .rnlUnspecified)⟩
          ⟨w'.tun, w'.ctx, .error (drbModifyFailRspCreate item .rnlUnspecified)⟩ :=
        ⟨rfl, .of_same htun hctx⟩
      exact rel_bind (.some hnone) fun out out' hout => drbAnswer_alike hout hAB _ _ _ _
  | some j =>
      exact rel_bind (drbModify_alike htun hctx item j)
        fun out out' hout => drbAnswer_alike hout hAB _ _ _ _

theorem pdusModifySetupDrb_alike {w w' : PdusWork D PdusModifySuccRspInfo}
    (hw : PdusWorkAlike A w w') (env : Env D) (req : PdusModifyReqInfo) (i : Nat) :
    Option.Rel (PdusWorkAlike A) (pdusModifySetupDrb env req i w)
      (pdusModifySetupDrb env req i w') := by
  obtain ⟨hsucc, B, hAB, htun, hctx⟩ := hw
  unfold pdusModifySetupDrb
  apply rel_bind_same
  intro item _
  apply rel_bind (drbSetup_alike htun hctx env item)
  intro out out' hout
  rw [hsucc]
  exact drbAnswer_alike hout hAB _ _ _ _

theorem pdusModify_alike (h : TunnelsAlike A T T') (hctx : CtxAlike A ctx ctx') (env : Env D)
    (req : PdusModifyReqInfo) (succ : PdusModifySuccRspInfo) {idx : Nat}
    (hidx : idx < ctx.pdusCount) :
    Option.Rel (PdusAlike A) (pdusModify env T ctx req succ idx)
      (pdusModify env T' ctx' req succ idx) := by
  unfold pdusModify
  rw [hctx.pdus_deref hidx]
  apply rel_bind_same
  intro old hold
  have hin := hctx.pdusIn idx old hidx hold
  rw [h.agree old hin]
  have hmodify := tunnelModify_alike h (T.tunnelTable old).key
  generalize tunnelModify T (T.tunnelTable old).key = x,
    tunnelModify T' (T.tunnelTable old).key = y at hmodify ⊢
  obtain ⟨got, T₁⟩ := x
  obtain ⟨got', T₁'⟩ := y
  obtain ⟨⟨rfl : got = got', h₁⟩, hkey⟩ := hmodify
  cases got with
  | none => exact .some ⟨rfl, rfl, .of_same h₁ hctx⟩
  | some r =>
      have hrow : T₁'.tunnelTable old = T₁.tunnelTable old := h₁.agree old hin
      have hcopy := Tunnel.copyPdus_congr (hkey r rfl) (h₁.used r) (h₁.residue r)
        (T₁.tunnelTable old)
      have hsub := Set.subset_insert r A
      simp only [hrow, hcopy, setRow_self]
      refine rel_bind (forRange_rel (fun _ => TunnelsAlike (insert r A)) (h₁.setRow r _)
        fun i T₂ T₂' _ h₂ => pdusModifyRemoveDrb_alike h₂ (hctx.mono hsub) req i) ?_
      intro T₂ T₂' h₂
      have hstart : PdusWorkAlike (insert r A)
          (⟨T₂, ctx, pdusModifySuccRspCreate
            ((T₁.tunnelTable r).copyPdus (T₁.tunnelTable old)) succ⟩ :
            PdusWork D PdusModifySuccRspInfo)
          ⟨T₂', ctx', pdusModifySuccRspCreate
            ((T₁.tunnelTable r).copyPdus (T₁.tunnelTable old)) succ⟩ :=
        ⟨rfl, .of_same h₂ (hctx.mono hsub)⟩
      refine rel_bind (forRange_rel (fun _ => PdusWorkAlike (insert r A)) hstart
        fun i w w' _ hw => pdusModifyModifyDrb_alike hw req i) fun w w' hw => ?_
      refine rel_bind (forRange_rel (fun _ => PdusWorkAlike (insert r A)) hw
        fun i w w' _ hw => pdusModifySetupDrb_alike hw env req i) fun w w' hw => ?_
      obtain ⟨hsucc, B, hB, htun, hctx'⟩ := hw
      have hr : r ∈ B := hB (Set.mem_insert r A)
      apply rel_bind (set?_rel _ _ _ _)
      intro list list' hlist
      exact .some ⟨hsucc, rfl, B, hsub.trans hB, htun, hctx'.replacePdus hr hlist.1 hlist.2⟩

end Pfm
