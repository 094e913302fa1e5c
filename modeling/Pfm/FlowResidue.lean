import Pfm.TableInvariant

/-!
# What no request writes in a row

Filling a row writes the ids in its union and nothing else of it, and copying a row
copies the whole union.  So a property of the union that the ids do not matter for
holds of every row after a request when it held of every row before; and where every
row has the same flow and mapping fields, the row that `pdus_modify` copies four
fields into is the old row.
-/

namespace Pfm

open BoundedLoop StepSystem TunnelTable

variable {D : Dpdk} {env : Env D} {T T' : TunnelTable D} {S S' : Cuup D} {ctx : UeCtx}
  {r : TunnelIdx} {P : TunnelInfo → Prop}

/-- A property of the union that the two ids do not matter for. -/
structure IgnoresIds (P : TunnelInfo → Prop) : Prop where
  drbId : ∀ i id, P i → P (i.setDrbId id)
  pdusId : ∀ i id, P i → P (i.setPdusId id)

/-- Every row of the table has it. -/
def EveryRow (P : TunnelInfo → Prop) (T : TunnelTable D) : Prop :=
  ∀ r, P (T.tunnelTable r).info

namespace EveryRow

/-! ### The functions of the table -/

theorem of_infos (h : EveryRow P T)
    (hi : ∀ r, (T'.tunnelTable r).info = (T.tunnelTable r).info) : EveryRow P T' := by
  intro r
  rw [hi r]
  exact h r

theorem setRow (h : EveryRow P T) (r : TunnelIdx) {t : Tunnel} (ht : P t.info) :
    EveryRow P (T.setRow r t) := by
  intro r'
  by_cases hr : r' = r
  · rw [hr, setRow_self]
    exact ht
  · rw [setRow_of_ne t hr]
    exact h r'

theorem setUsed (h : EveryRow P T) (r : TunnelIdx) (b : Bool) : EveryRow P (T.setUsed r b) :=
  h.of_infos fun r' => by rw [setUsed_row]

theorem takeRow (h : EveryRow P T) (r : TunnelIdx) (key : TunnelKey) :
    EveryRow P (T.takeRow r key) :=
  h.setRow r (h r)

theorem ensureUp (h : EveryRow P T) (he : tunnelTableEnsureUp env T = some T') :
    EveryRow P T' := by
  rcases tunnelTableEnsureUp_cases env T with ⟨_, h'⟩ | ⟨_, _, h'⟩ | ⟨_, _, h'⟩
  · obtain rfl : T = T' := by simpa [h'] using he
    exact h
  · obtain rfl : T.cleared = T' := by simpa [h'] using he
    exact h
  · simp [h'] at he

/-- The functions of the table keep it. -/
theorem tableInvariant (hP : IgnoresIds P) : TableInvariant (D := D) (EveryRow P) where
  opened env T remoteIp ttype h := by
    rcases tunnelOpen_cases env T remoteIp ttype with
      ⟨_, he⟩ | ⟨T₁, hup, he | ⟨ip, i, _, _, _, ⟨_, he⟩ | ⟨r, _, _, he⟩⟩⟩
    · rw [he]
      exact h
    · rw [he]
      exact h.ensureUp hup
    · rw [he]
      exact (h.ensureUp hup).of_infos fun _ => rfl
    · rw [he]
      have h₁ : EveryRow P { T₁ with lastAssignedId := i } :=
        (h.ensureUp hup).of_infos fun _ => rfl
      exact h₁.takeRow r _
  modified {T} key h := by
    rcases tunnelModify_cases T key with ⟨_, he⟩ | ⟨_, he⟩
    · rw [he]
      exact h
    · rw [he]
      rcases tunnelAlloc_cases T key with ha | ⟨r, _, _, _, ha⟩
      · rw [ha]
        exact h
      · rw [ha]
        exact h.takeRow r key
  removed {T} key h := by
    rcases tunnelRemove_cases T key with ⟨r, _, he⟩ | ⟨_, _, _, he⟩
    · rw [he]
      exact h.setUsed r false
    · rw [he]
      exact h
  committed {T} nt h := by
    have hout := tunnelCommit_cases T nt
    generalize (tunnelCommit T (some nt)).1 = ret, (tunnelCommit T (some nt)).2 = T₁ at hout ⊢
    cases hout with
    | down | inserted | refused | kept | deleted => exact h
    | replaced t p old => exact h.setUsed old false
  rolledBack {T} nt h := by
    rcases tunnelRollback_marks T nt with he | ⟨r, b, _, _, he⟩
    · rw [he]
      exact h
    · rw [he]
      exact h.setUsed r b
  fillDrb r req h := h.setRow r (hP.drbId _ _ (h r))
  fillPdus r req h := h.setRow r (hP.pdusId _ _ (h r))
  copyDrb r old h := h.setRow r (h old)
  copyPdus r old h := h.setRow r (hP.pdusId _ _ (h r))

/-- **One request.** -/
theorem step (hP : IgnoresIds P) (h : EveryRow P S.tun) {call : E1apCall D}
    (hs : e1apStep S call = some S') : EveryRow P S'.tun :=
  (tableInvariant hP).step h hs

end EveryRow

/-! ### The flow and mapping fields -/

/-- The flow and mapping fields are as in a table that is still all zeros. -/
structure TunnelInfo.FlowsUnset (i : TunnelInfo) : Prop where
  flowCount : i.flowCount = 0
  mappedFlowIdx : i.mappedFlowIdx = 0
  bitMap : i.ulNewFlowDetectedBitMap = 0
  flowList : i.flowList = fun _ => ⟨.unused, 0, 0⟩

theorem flowsUnset_ignoresIds : IgnoresIds TunnelInfo.FlowsUnset where
  drbId _ _ h := ⟨h.flowCount, h.mappedFlowIdx, h.bitMap, h.flowList⟩
  pdusId _ _ h := ⟨h.flowCount, h.mappedFlowIdx, h.bitMap, h.flowList⟩

theorem flowsUnset_init (D : Dpdk) : EveryRow TunnelInfo.FlowsUnset (Cuup.init D).tun :=
  fun _ => ⟨rfl, rfl, rfl, rfl⟩

/-- The PDU-session id is the byte of the DRB id and the three flags. -/
theorem TunnelInfo.pdusId_toNat (i : TunnelInfo) : i.pdusId.toNat =
    i.drbId.toNat + 32 * i.isDefault.toNat + 64 * i.isDlSdapHdrEnabled.toNat +
      128 * i.isUlSdapHdrEnabled.toNat := by
  have hd : i.drbId.toNat < 32 := i.drbId.isLt
  have ha := i.isDefault.toNat_le
  have hb := i.isDlSdapHdrEnabled.toNat_le
  have hc := i.isUlSdapHdrEnabled.toNat_le
  rw [pdusId, UInt8.toNat_ofNat']
  exact Nat.mod_eq_of_lt (by omega)

theorem TunnelInfo.setPdusId_pdusId (i : TunnelInfo) : i.setPdusId i.pdusId = i := by
  have hbyte := i.pdusId_toNat
  obtain ⟨d, a, b, c, _, _, _, _⟩ := i
  have hd : d.toNat < 32 := d.isLt
  simp only at hbyte
  simp only [setPdusId, hbyte, TunnelInfo.mk.injEq, and_true]
  refine ⟨?_, ?_⟩
  · apply BitVec.eq_of_toNat_eq
    rw [BitVec.toNat_ofNat]
    omega
  · simp only [Nat.testBit_eq_decide_div_mod_eq]
    cases a <;> cases b <;> cases c <;> simp <;> omega

/-- Where the flow and mapping fields are unset on both sides, the id is all that the
union of the old row adds. -/
theorem TunnelInfo.FlowsUnset.setPdusId {i j : TunnelInfo} (hi : i.FlowsUnset)
    (hj : j.FlowsUnset) : i.setPdusId j.pdusId = j := by
  have hsame : i.setPdusId j.pdusId = j.setPdusId j.pdusId := by
    simp only [TunnelInfo.setPdusId, hi.flowCount, hj.flowCount, hi.mappedFlowIdx,
      hj.mappedFlowIdx, hi.bitMap, hj.bitMap, hi.flowList, hj.flowList]
  rw [hsame, TunnelInfo.setPdusId_pdusId]

/-! ### The row of a modified PDU session -/

/-- Row `r` holds `t`, is used, and no key maps to it. -/
structure RowKept (r : TunnelIdx) (t : Tunnel) (T : TunnelTable D) : Prop where
  row : T.tunnelTable r = t
  used : t.isRowUsed = true
  up : T.tunnelHashtable.isSome = true
  unmapped : ∀ k, T.rowOf k ≠ some r

section RowKept

variable {t : Tunnel}

theorem RowKept.of_same (h : RowKept r t T) (hrow : T'.tunnelTable r = T.tunnelTable r)
    (hhash : T'.tunnelHashtable = T.tunnelHashtable) : RowKept r t T' where
  row := hrow.trans h.row
  used := h.used
  up := hhash ▸ h.up
  unmapped k := by
    rw [TunnelTable.rowOf, TunnelTable.entry, hhash]
    exact h.unmapped k

/-- The rows handed out are not used, so they are others. -/
theorem RowKept.ne (h : RowKept r t T) {r' : TunnelIdx} (hr : T.used r' = false) : r ≠ r' := by
  intro heq
  subst heq
  rw [TunnelTable.used, h.row, h.used] at hr
  cases hr

theorem RowKept.removed (h : RowKept r t T) (key : TunnelKey) :
    RowKept r t (tunnelRemove T key).2 := by
  rcases tunnelRemove_cases T key with ⟨r', hr', he⟩ | ⟨_, _, _, he⟩
  · rw [he]
    have hne : r ≠ r' := fun heq => h.unmapped key (heq ▸ hr')
    refine h.of_same ?_ rfl
    rw [setUsed_row, if_neg hne, TunnelTable.used]
  · rw [he]
    exact h

theorem RowKept.modified (h : RowKept r t T) {key : TunnelKey} {got : Option TunnelIdx}
    (hm : tunnelModify T key = (got, T')) :
    RowKept r t T' ∧ ∀ r', got = some r' → r ≠ r' := by
  rcases tunnelModify_cases T key with ⟨_, he⟩ | ⟨_, he⟩
  · obtain ⟨rfl, rfl⟩ := Prod.mk.inj (he.symm.trans hm)
    exact ⟨h, fun r' hr' => by cases hr'⟩
  · rcases tunnelAlloc_cases T key with ha | ⟨r', _, hfree, _, ha⟩
    · obtain ⟨rfl, rfl⟩ := Prod.mk.inj (ha.symm.trans (he.symm.trans hm))
      exact ⟨h, fun r' hr' => by cases hr'⟩
    · obtain ⟨rfl, rfl⟩ := Prod.mk.inj (ha.symm.trans (he.symm.trans hm))
      have hne := h.ne hfree
      refine ⟨h.of_same (takeRow_of_ne hne) rfl, fun r'' hr'' => ?_⟩
      obtain rfl := Option.some.inj hr''
      exact hne

theorem RowKept.ensureUp (h : RowKept r t T) (he : tunnelTableEnsureUp env T = some T') :
    T' = T := by
  rcases tunnelTableEnsureUp_cases env T with ⟨_, h'⟩ | ⟨hdown, _, _⟩ | ⟨_, _, h'⟩
  · exact (by simpa [h'] using he : T = T').symm
  · have hup := h.up
    simp [hdown] at hup
  · simp [h'] at he

theorem RowKept.opened (h : RowKept r t T) {remoteIp : PfmIpAddr} {ttype : TunnelType}
    {got : Option (TunnelKey × TunnelIdx)}
    (ho : tunnelOpen env T remoteIp ttype = (got, T')) :
    RowKept r t T' ∧ ∀ key r', got = some (key, r') → r ≠ r' := by
  rcases tunnelOpen_cases env T remoteIp ttype with
    ⟨_, he⟩ | ⟨T₁, hup, he | ⟨ip, i, _, _, _, ⟨_, he⟩ | ⟨r', hfree, _, he⟩⟩⟩
  · obtain ⟨rfl, rfl⟩ := Prod.mk.inj (he.symm.trans ho)
    exact ⟨h, fun _ _ hr' => by cases hr'⟩
  · obtain rfl := h.ensureUp hup
    obtain ⟨rfl, rfl⟩ := Prod.mk.inj (he.symm.trans ho)
    exact ⟨h, fun _ _ hr' => by cases hr'⟩
  · obtain rfl := h.ensureUp hup
    obtain ⟨rfl, rfl⟩ := Prod.mk.inj (he.symm.trans ho)
    exact ⟨h.of_same rfl rfl, fun _ _ hr' => by cases hr'⟩
  · obtain rfl := h.ensureUp hup
    obtain ⟨rfl, rfl⟩ := Prod.mk.inj (he.symm.trans ho)
    have hne := h.ne hfree
    refine ⟨h.of_same (takeRow_of_ne hne) rfl, fun key' r'' hr'' => ?_⟩
    obtain ⟨_, rfl⟩ := Prod.mk.inj (Option.some.inj hr'')
    exact hne

theorem RowKept.setRow (h : RowKept r t T) {r' : TunnelIdx} (hne : r ≠ r') (t' : Tunnel) :
    RowKept r t (T.setRow r' t') :=
  h.of_same (setRow_of_ne t' hne) rfl

theorem RowKept.drbSetup (h : RowKept r t T) {req : DrbSetupReqInfo} {out : DrbServed D}
    (hs : drbSetup env T ctx req = some out) : RowKept r t out.tun := by
  rcases drbSetup_cases hs with ⟨_, _, htun | ⟨_, htun⟩⟩ | ⟨key, r', T₁, _, hopen, _, rfl⟩
  · rw [htun]
    exact h
  · rw [htun]
    exact (h.opened rfl).1
  · obtain ⟨h₁, hne⟩ := h.opened hopen
    exact h₁.setRow (hne key r' rfl) _

theorem RowKept.drbModify (h : RowKept r t T) {req : DrbModifyReqInfo} {idx : Nat}
    {out : DrbServed D} (hs : drbModify T ctx req idx = some out) : RowKept r t out.tun := by
  obtain ⟨old, _, hcases⟩ := drbModify_cases hs
  rcases hcases with ⟨T₁, hm, htun, _⟩ | ⟨r', T₁, _, hm, _, htun, _⟩
  · rw [htun]
    exact (h.modified hm).1
  · obtain ⟨h₁, hne⟩ := h.modified hm
    rw [htun]
    exact h₁.setRow (hne r' rfl) _

theorem RowKept.pdusModifyDrbs (h : RowKept r t T) {req : PdusModifyReqInfo} {T₂ : TunnelTable D}
    {succ : PdusModifySuccRspInfo} {w w' : PdusWork D PdusModifySuccRspInfo}
    (removes : forRange (pdusModifyRemoveDrb req ctx) req.drbRemoveCount T = some T₂)
    (modifies : forRange (pdusModifyModifyDrb req) req.drbModifyCount ⟨T₂, ctx, succ⟩ = some w)
    (setups : forRange (pdusModifySetupDrb env req) req.drbSetupCount w = some w') :
    RowKept r t w'.tun := by
  have h₂ : RowKept r t T₂ := by
    refine forRange_invariant (fun _ V => RowKept r t V) h ?_ removes
    intro i V V' _ hV hturn
    rcases pdusModifyRemoveDrb_cases hturn with rfl | ⟨key, rfl⟩
    · exact hV
    · exact hV.removed key
  have hw : RowKept r t w.tun := by
    refine forRange_invariant (fun _ (v : PdusWork D PdusModifySuccRspInfo) =>
      RowKept r t v.tun) h₂ ?_ modifies
    intro i v v' _ hv hturn
    rcases pdusModifyModifyDrb_cases hturn with ⟨htun, _⟩ | ⟨_, _, _, hout, htun, _⟩
    · rw [htun]
      exact hv
    · rw [htun]
      exact hv.drbModify hout
  refine forRange_invariant (fun _ (v : PdusWork D PdusModifySuccRspInfo) =>
    RowKept r t v.tun) hw ?_ setups
  intro i v v' _ hv hturn
  obtain ⟨_, _, hout, htun, _⟩ := pdusModifySetupDrb_cases hturn
  rw [htun]
  exact hv.drbSetup hout

end RowKept

/-- The copy of four fields into the row handed out for the old key is the old row. -/
theorem copyPdus_takeRow (hflows : EveryRow TunnelInfo.FlowsUnset T) (r old : TunnelIdx) :
    ((T.takeRow r (T.tunnelTable old).key).tunnelTable r).copyPdus
      ((T.takeRow r (T.tunnelTable old).key).tunnelTable old) =
        { T.tunnelTable old with isRowUsed := true } := by
  have hinfo := (hflows r).setPdusId (hflows old)
  rw [takeRow_row]
  by_cases ho : old = r
  · subst ho
    rw [takeRow_row]
    simp only [Tunnel.copyPdus, hinfo]
  · rw [takeRow_of_ne ho]
    simp only [Tunnel.copyPdus, hinfo]

/-- Modifying a PDU session gives it a row that holds everything the old one does. -/
def ModifyKeeps (T : TunnelTable D) : Prop :=
  ∀ (env : Env D) (ctx : UeCtx) (req : PdusModifyReqInfo) (succ : PdusModifySuccRspInfo)
    (idx : Nat) (out : PdusServed D PdusModifySuccRspInfo),
    pdusModify env T ctx req succ idx = some out → out.fail = none →
    ∃ old r, ctx.pdusTunnelList.deref? idx = some old ∧
      out.ctx.pdusTunnelList.deref? idx = some r ∧
      out.tun.tunnelTable r = { T.tunnelTable old with isRowUsed := true }

/-- **One PDU session modified.**  It does where the flow and mapping fields are unset
and no key maps to a free row. -/
theorem modifyKeeps_of_flowsUnset (hflows : EveryRow TunnelInfo.FlowsUnset T)
    (hmapped : ∀ k r, T.rowOf k = some r → T.used r = true) : ModifyKeeps T := by
  intro env ctx req succ idx out hs hserved
  obtain ⟨old, hold, hcases⟩ := pdusModify_cases hs
  cases hcases with
  | noTunnel => cases hserved
  | served r T₁ T₂ w w' list hm removes modifies setups listed =>
      refine ⟨old, r, hold, ?_, ?_⟩
      · rw [CArray.deref?_set? listed, if_pos rfl]
      rcases tunnelModify_cases T (T.tunnelTable old).key with ⟨_, he⟩ | ⟨hentry, he⟩
      · rw [he] at hm
        cases hm
      obtain ⟨hfree, _, rfl⟩ := tunnelAlloc_some (he.symm.trans hm)
      rw [copyPdus_takeRow hflows] at removes modifies
      obtain ⟨x, hx⟩ := Option.isSome_iff_exists.mp hentry
      have hstart : RowKept r { T.tunnelTable old with isRowUsed := true }
          ((T.takeRow r (T.tunnelTable old).key).setRow r
            { T.tunnelTable old with isRowUsed := true }) :=
        { row := setRow_self _
          used := rfl
          up := up_of_entry hx
          unmapped := fun k hk => by
            have hused := hmapped k r hk
            rw [hfree] at hused
            cases hused }
      exact (hstart.pdusModifyDrbs removes modifies setups).row

end Pfm
