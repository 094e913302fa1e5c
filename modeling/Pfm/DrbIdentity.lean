import Pfm.BearerSpec
import Pfm.LookupAgreement

/-!
# The identity of a DRB

A DRB is set up under an 8-bit id and found again by it.  Its row keeps five bits of
the id (`drbIdByte_setDrbId`), and the searches compare these with the eight bits of
a request.

A run of `drb_setup` calls goes with the list of the ids the DRBs of the context were
asked for, `DrbRun.names`.  `drbIdentity_iff` says for which runs the context keeps
them apart.
-/

namespace Pfm

open BoundedLoop StepSystem TunnelTable

variable {D : Dpdk} {env : Env D} {T T' : TunnelTable D} {ctx : UeCtx}

/-- The tunnel table, the context, and the ids its DRBs were set up under, in the order
of its list. -/
structure DrbRun (D : Dpdk) where
  tun : TunnelTable D
  ctx : UeCtx
  names : List UInt8

/-- A call of `drb_setup`. -/
def drbRunStep (S : DrbRun D) (c : Env D × DrbSetupReqInfo) : Option (DrbRun D) := do
  let out ← drbSetup c.1 S.tun S.ctx c.2
  match out.rsp with
  | .ok _ => some ⟨out.tun, out.ctx, S.names ++ [c.2.drbId]⟩
  | .error _ => some ⟨out.tun, out.ctx, S.names⟩

/-- Each DRB of the context is stored under its own id, so that two ids never become
equal, and a search for an id a DRB was set up under ends at one set up under it. -/
structure DrbsIdentified (S : DrbRun D) : Prop where
  count : S.names.length = S.ctx.drbCount
  stored : ∀ i id, S.names[i]? = some id →
    ∃ x, S.ctx.drbTunnelList.deref? i = some x ∧ (S.tun.tunnelTable x).info.drbIdByte = id
  reached : ∀ id, id ∈ S.names →
    ∃ j, findDrb S.tun S.ctx id = some (some j) ∧ S.names[j]? = some id

/-- A success reports the id asked for, and an id that a DRB of the context was set up
under is refused as a duplicate. -/
def AnswersIdentity (S : DrbRun D) (c : Env D × DrbSetupReqInfo) : Prop :=
  ∃ out, drbSetup c.1 S.tun S.ctx c.2 = some out ∧
    (∀ rsp, out.rsp = .ok rsp → rsp.drbId = c.2.drbId) ∧
    (c.2.drbId ∈ S.names → out.rsp = .error ⟨c.2.drbId, .rnlMultipleDrbId⟩)

/-- A full context is not asked for an id it has.  And a request that gets a tunnel has
an id of five bits, and gets a row that the context does not list already. -/
def IdentityFits (S : DrbRun D) (c : Env D × DrbSetupReqInfo) : Prop :=
  (S.ctx.drbCount = maxDrbPerUe → c.2.drbId ∉ S.names) ∧
  (S.ctx.drbCount ≠ maxDrbPerUe → c.2.drbId ∉ S.names →
    ∀ key r T', tunnelOpen c.1 S.tun c.2.drbDlIpAddr .drb = (some (key, r), T') →
      c.2.drbId < 32 ∧ ∀ i, i < S.ctx.drbCount → S.ctx.drbTunnelList.deref? i ≠ some r)

/-! ### Five bits -/

/-- The stored id is the id asked for modulo 32. -/
theorem drbIdByte_setDrbId (i : TunnelInfo) (id : UInt8) :
    (i.setDrbId id).drbIdByte.toNat = id.toNat % 32 := by
  simp only [TunnelInfo.drbIdByte, TunnelInfo.setDrbId, BitVec.toNat_ofNat]
  rw [UInt8.toNat_ofNat_of_lt' (Nat.lt_trans (Nat.mod_lt _ (by decide)) (by decide))]

theorem drbIdByte_setDrbId_iff (i : TunnelInfo) (id : UInt8) :
    (i.setDrbId id).drbIdByte = id ↔ id < 32 := by
  rw [← UInt8.toNat_inj, drbIdByte_setDrbId, UInt8.lt_iff_toNat_lt]
  change id.toNat % 32 = id.toNat ↔ id.toNat < 32
  omega

/-- Opening a tunnel writes no row's union. -/
theorem tunnelOpen_info {remoteIp : PfmIpAddr} {ttype : TunnelType}
    {got : Option (TunnelKey × TunnelIdx)} (ho : tunnelOpen env T remoteIp ttype = (got, T'))
    (x : TunnelIdx) : (T'.tunnelTable x).info = (T.tunnelTable x).info := by
  have hup {T₁ : TunnelTable D} (h : tunnelTableEnsureUp env T = some T₁) :
      (T₁.tunnelTable x).info = (T.tunnelTable x).info := by
    rcases tunnelTableEnsureUp_cases env T with ⟨_, h'⟩ | ⟨_, _, h'⟩ | ⟨_, _, h'⟩
    · obtain rfl : T = T₁ := by simpa [h'] using h
      rfl
    · obtain rfl : T.cleared = T₁ := by simpa [h'] using h
      rfl
    · simp [h'] at h
  rcases tunnelOpen_cases env T remoteIp ttype with
    ⟨_, he⟩ | ⟨T₁, h₁, he | ⟨ip, i, _, _, _, ⟨_, he⟩ | ⟨r, _, _, he⟩⟩⟩
  · obtain rfl : T = T' := congrArg Prod.snd (he.symm.trans ho)
    rfl
  · obtain rfl : T₁ = T' := congrArg Prod.snd (he.symm.trans ho)
    exact hup h₁
  · obtain rfl : { T₁ with lastAssignedId := i } = T' := congrArg Prod.snd (he.symm.trans ho)
    exact show (T₁.tunnelTable x).info = _ from hup h₁
  · obtain rfl : TunnelTable.takeRow { T₁ with lastAssignedId := i } r (teKey ip i) = T' :=
      congrArg Prod.snd (he.symm.trans ho)
    rw [← hup h₁]
    by_cases hx : x = r
    · rw [hx, takeRow_row]
    · rw [takeRow_of_ne hx]

/-! ### The search -/

/-- Where every DRB is stored under its id, a search finds exactly the ids it has. -/
theorem findDrb_of_stored {names : List UInt8} (hcount : names.length = ctx.drbCount)
    (hstored : ∀ i id, names[i]? = some id →
      ∃ x, ctx.drbTunnelList.deref? i = some x ∧ (T.tunnelTable x).info.drbIdByte = id)
    (id : UInt8) :
    (id ∈ names → ∃ j, findDrb T ctx id = some (some j) ∧ names[j]? = some id) ∧
      (id ∉ names → findDrb T ctx id = some none) := by
  let test (i : Nat) : Option Bool := do
    let nt ← ctx.drbTunnelList.deref? i
    some ((T.tunnelTable nt).info.drbIdByte == id)
  have htest {i : Nat} {name : UInt8} (hname : names[i]? = some name) :
      test i = some (name == id) := by
    obtain ⟨x, hx, hid⟩ := hstored i name hname
    simp [test, hx, hid]
  have hname {i : Nat} (hi : i < ctx.drbCount) : ∃ name, names[i]? = some name :=
    ⟨_, List.getElem?_eq_getElem (hcount ▸ hi)⟩
  obtain ⟨found, hfound⟩ : ∃ found, firstIndex test ctx.drbCount = some found := by
    apply firstIndex_isSome
    intro i hi
    obtain ⟨name, hi⟩ := hname hi
    exact ⟨_, htest hi⟩
  cases found with
  | none =>
      have hnone : id ∉ names := by
        intro hmem
        obtain ⟨i, hi⟩ := List.mem_iff_getElem?.mp hmem
        have hlt : i < ctx.drbCount := hcount ▸ (List.getElem?_eq_some_iff.mp hi).1
        have hfalse := firstIndex_eq_none_iff.mp hfound i hlt
        rw [htest hi, Option.some.injEq, beq_self_eq_true] at hfalse
        cases hfalse
      exact ⟨fun hmem => absurd hmem hnone, fun _ => hfound⟩
  | some j =>
      obtain ⟨hj, htrue, -⟩ := firstIndex_eq_some_iff.mp hfound
      obtain ⟨name, hj⟩ := hname hj
      rw [htest hj, Option.some.injEq, beq_iff_eq] at htrue
      subst htrue
      exact ⟨fun _ => ⟨j, hfound, hj⟩, fun hmem => absurd (List.mem_of_getElem? hj) hmem⟩

theorem DrbsIdentified.of_stored {S : DrbRun D} (hcount : S.names.length = S.ctx.drbCount)
    (hstored : ∀ i id, S.names[i]? = some id →
      ∃ x, S.ctx.drbTunnelList.deref? i = some x ∧
        (S.tun.tunnelTable x).info.drbIdByte = id) : DrbsIdentified S :=
  ⟨hcount, hstored, fun id hid => (findDrb_of_stored hcount hstored id).1 hid⟩

theorem DrbsIdentified.count_le {S : DrbRun D} (h : DrbsIdentified S) :
    S.ctx.drbCount ≤ maxDrbPerUe := by
  rcases Nat.eq_zero_or_pos S.ctx.drbCount with hzero | hpos
  · rw [hzero]
    exact Nat.zero_le _
  · obtain ⟨id, hid⟩ : ∃ id, S.names[S.ctx.drbCount - 1]? = some id :=
      ⟨_, List.getElem?_eq_getElem (by rw [h.count]; omega)⟩
    obtain ⟨x, hx, -⟩ := h.stored _ _ hid
    have hlt := CArray.lt_of_get? (CArray.deref?_eq_some_iff.mp hx)
    change _ < maxDrbPerUe at hlt
    omega

/-! ### One call -/

variable {S : DrbRun D} {c : Env D × DrbSetupReqInfo}

/-- A full context refuses every id alike. -/
theorem identity_full (hfull : S.ctx.drbCount = maxDrbPerUe) :
    drbRunStep S c = some S ∧ (AnswersIdentity S c ↔ IdentityFits S c) := by
  have hsetup : drbSetup c.1 S.tun S.ctx c.2 =
      some ⟨S.tun, S.ctx, .error ⟨c.2.drbId, .rnlResourceUnavail⟩⟩ := by
    rw [drbSetup, if_pos hfull]
    rfl
  refine ⟨by simp only [drbRunStep, hsetup]; rfl, ?_⟩
  constructor
  · intro hanswer
    obtain ⟨out, hout, -, hdup⟩ := hanswer
    obtain rfl := Option.some.inj (hsetup.symm.trans hout)
    refine ⟨fun _ hmem => ?_, fun hne => absurd hfull hne⟩
    have herr := hdup hmem
    simp at herr
  · intro hfits
    refine ⟨_, hsetup, ?_, fun hmem => absurd hmem (hfits.1 hfull)⟩
    intro rsp hrsp
    cases hrsp

/-- An id of the context is refused as a duplicate. -/
theorem identity_duplicate (h : DrbsIdentified S) (hroom : S.ctx.drbCount ≠ maxDrbPerUe)
    (hmem : c.2.drbId ∈ S.names) :
    drbRunStep S c = some S ∧ AnswersIdentity S c ∧ IdentityFits S c := by
  obtain ⟨j, hfind, -⟩ := h.reached _ hmem
  have hsetup : drbSetup c.1 S.tun S.ctx c.2 =
      some ⟨S.tun, S.ctx, .error ⟨c.2.drbId, .rnlMultipleDrbId⟩⟩ := by
    rw [drbSetup, if_neg hroom, hfind]
    rfl
  refine ⟨by simp only [drbRunStep, hsetup]; rfl, ⟨_, hsetup, ?_, fun _ => rfl⟩, ?_⟩
  · intro rsp hrsp
    cases hrsp
  · exact ⟨fun hfull => absurd hfull hroom, fun _ hnew => absurd hmem hnew⟩

/-- A new id for which no tunnel is opened. -/
theorem identity_noTunnel (h : DrbsIdentified S) (hroom : S.ctx.drbCount ≠ maxDrbPerUe)
    (hnew : c.2.drbId ∉ S.names)
    (ho : tunnelOpen c.1 S.tun c.2.drbDlIpAddr .drb = (none, T')) :
    drbRunStep S c = some ⟨T', S.ctx, S.names⟩ ∧ AnswersIdentity S c ∧
      DrbsIdentified ⟨T', S.ctx, S.names⟩ ∧ IdentityFits S c := by
  have hfind := (findDrb_of_stored h.count h.stored c.2.drbId).2 hnew
  have hsetup : drbSetup c.1 S.tun S.ctx c.2 =
      some ⟨T', S.ctx, .error ⟨c.2.drbId, .rnlResourceUnavail⟩⟩ := by
    simp only [drbSetup, if_neg hroom, hfind, ho]
    rfl
  refine ⟨by simp only [drbRunStep, hsetup]; rfl, ⟨_, hsetup, ?_, fun hmem => absurd hmem hnew⟩,
    .of_stored h.count ?_, fun hfull => absurd hfull hroom, ?_⟩
  · intro rsp hrsp
    cases hrsp
  · intro i id hi
    obtain ⟨x, hx, hid⟩ := h.stored i id hi
    exact ⟨x, hx, by rw [tunnelOpen_info ho, hid]⟩
  · intro _ _ key r T₁ ho'
    rw [ho] at ho'
    cases ho'

/-- **A new id with a tunnel.**  The context then lists the row handed out. -/
theorem identity_opened (h : DrbsIdentified S) (hroom : S.ctx.drbCount ≠ maxDrbPerUe)
    (hnew : c.2.drbId ∉ S.names) {key : TunnelKey} {r : TunnelIdx}
    (ho : tunnelOpen c.1 S.tun c.2.drbDlIpAddr .drb = (some (key, r), T')) :
    ∃ S', drbRunStep S c = some S' ∧
      ((AnswersIdentity S c ∧ DrbsIdentified S') ↔ IdentityFits S c) := by
  have hfind := (findDrb_of_stored h.count h.stored c.2.drbId).2 hnew
  obtain ⟨list, hset⟩ : ∃ list,
      S.ctx.drbTunnelList.set? S.ctx.drbCount (some r) = some list :=
    ⟨_, CArray.set?_of_lt _ (Nat.lt_of_le_of_ne h.count_le hroom) _⟩
  let row := (T'.tunnelTable r).fillDrb c.2
  have hsetup : drbSetup c.1 S.tun S.ctx c.2 =
      some ⟨T'.setRow r row, S.ctx.addDrb list, .ok (drbSetupSuccRspCreate row)⟩ := by
    simp only [drbSetup, if_neg hroom, hfind, ho, Option.bind_eq_bind, Option.bind_some, hset,
      setRow_self]
    rfl
  have hrow : row.info.drbIdByte = c.2.drbId ↔ c.2.drbId < 32 := drbIdByte_setDrbId_iff _ _
  have hnewest : (S.names ++ [c.2.drbId])[S.ctx.drbCount]? = some c.2.drbId := by
    rw [← h.count, List.getElem?_concat_length]
  have hearlier {i : Nat} {id : UInt8} (hi : S.names[i]? = some id) :
      i < S.ctx.drbCount ∧ (S.names ++ [c.2.drbId])[i]? = some id := by
    have hlt := (List.getElem?_eq_some_iff.mp hi).1
    exact ⟨h.count ▸ hlt, by rw [List.getElem?_append_left hlt, hi]⟩
  refine ⟨⟨T'.setRow r row, S.ctx.addDrb list, S.names ++ [c.2.drbId]⟩,
    by simp only [drbRunStep, hsetup]; rfl, ?_⟩
  constructor
  · intro hright
    obtain ⟨-, hnext⟩ := hright
    refine ⟨fun hfull => absurd hfull hroom, fun _ _ key' r' T₁ ho' => ?_⟩
    obtain ⟨hkr, -⟩ := Prod.mk.inj (ho.symm.trans ho')
    obtain ⟨-, rfl⟩ := Prod.mk.inj (Option.some.inj hkr)
    -- what the row handed out holds now is the new id
    have hself : row.info.drbIdByte = c.2.drbId := by
      obtain ⟨x, hx, hid⟩ := hnext.stored _ _ hnewest
      rw [UeCtx.addDrb, CArray.deref?_set? hset, if_pos rfl] at hx
      obtain rfl := Option.some.inj hx
      rwa [setRow_self] at hid
    refine ⟨hrow.mp hself, ?_⟩
    intro i hi hlisted
    obtain ⟨id, hid⟩ : ∃ id, S.names[i]? = some id :=
      ⟨_, List.getElem?_eq_getElem (h.count ▸ hi)⟩
    obtain ⟨x, hx, hstored⟩ := hnext.stored i id (hearlier hid).2
    rw [UeCtx.addDrb, CArray.deref?_set? hset, if_neg (by omega), hlisted] at hx
    obtain rfl := Option.some.inj hx
    rw [setRow_self, hself] at hstored
    exact hnew (hstored ▸ List.mem_of_getElem? hid)
  · intro hfits
    obtain ⟨hlt, hunlisted⟩ := hfits.2 hroom hnew key r T' ho
    refine ⟨⟨_, hsetup, ?_, fun hmem => absurd hmem hnew⟩, .of_stored ?_ ?_⟩
    · intro rsp hrsp
      obtain rfl := Except.ok.inj hrsp
      exact hrow.mpr hlt
    · simp [UeCtx.addDrb, h.count]
    · intro i id hi
      simp only [UeCtx.addDrb, CArray.deref?_set? hset]
      rcases Nat.lt_or_ge i S.names.length with hlt' | hge
      · rw [List.getElem?_append_left hlt'] at hi
        have hi' : i < S.ctx.drbCount := h.count ▸ hlt'
        obtain ⟨x, hx, hid⟩ := h.stored i id hi
        have hne : x ≠ r := fun hxr => hunlisted i hi' (hxr ▸ hx)
        exact ⟨x, by rw [if_neg (by omega), hx],
          by rw [setRow_of_ne _ hne, tunnelOpen_info ho, hid]⟩
      · obtain ⟨rfl, rfl⟩ : i = S.names.length ∧ id = c.2.drbId := by
          have hlen := (List.getElem?_eq_some_iff.mp hi).1
          rw [List.length_append, List.length_singleton] at hlen
          have hi' : i = S.names.length := by omega
          rw [hi', List.getElem?_concat_length] at hi
          exact ⟨hi', (Option.some.inj hi).symm⟩
        exact ⟨r, by rw [if_pos h.count], by rw [setRow_self]; exact hrow.mpr hlt⟩

/-- **One call of `drb_setup`.**  It keeps the DRBs apart exactly when it fits. -/
theorem identity_step (h : DrbsIdentified S) (c : Env D × DrbSetupReqInfo) :
    ∃ S', drbRunStep S c = some S' ∧
      ((AnswersIdentity S c ∧ DrbsIdentified S') ↔ IdentityFits S c) := by
  by_cases hfull : S.ctx.drbCount = maxDrbPerUe
  · obtain ⟨hstep, hiff⟩ := identity_full (c := c) hfull
    exact ⟨S, hstep, by rw [and_iff_left h, hiff]⟩
  by_cases hmem : c.2.drbId ∈ S.names
  · obtain ⟨hstep, hanswer, hfits⟩ := identity_duplicate h hfull hmem
    exact ⟨S, hstep, iff_of_true ⟨hanswer, h⟩ hfits⟩
  cases ho : tunnelOpen c.1 S.tun c.2.drbDlIpAddr .drb with
  | mk got T₁ =>
      cases got with
      | none =>
          obtain ⟨hstep, hanswer, hnext, hfits⟩ := identity_noTunnel h hfull hmem ho
          exact ⟨_, hstep, iff_of_true ⟨hanswer, hnext⟩ hfits⟩
      | some kr => exact identity_opened h hfull hmem ho

/-! ### Runs -/

/-- The ids that the rows of the first `n` DRBs of a context hold. -/
def drbIds (T : TunnelTable D) (ctx : UeCtx) (n : Nat) : List UInt8 :=
  (List.range n).filterMap fun i =>
    (ctx.drbTunnelList.deref? i).map fun x => (T.tunnelTable x).info.drbIdByte

/-- A context with its DRBs under the ids their rows hold. -/
def DrbRun.start (T : TunnelTable D) (ctx : UeCtx) : DrbRun D :=
  ⟨T, ctx, drbIds T ctx ctx.drbCount⟩

theorem drbIds_succ {n : Nat} {x : TunnelIdx} (h : ctx.drbTunnelList.deref? n = some x) :
    drbIds T ctx (n + 1) = drbIds T ctx n ++ [(T.tunnelTable x).info.drbIdByte] := by
  rw [drbIds, List.range_succ, List.filterMap_append, drbIds]
  simp [h]

theorem drbIds_getElem? {n : Nat}
    (hlisted : ∀ i, i < n → (ctx.drbTunnelList.deref? i).isSome = true) :
    (drbIds T ctx n).length = n ∧ ∀ i id, (drbIds T ctx n)[i]? = some id →
      ∃ x, ctx.drbTunnelList.deref? i = some x ∧ (T.tunnelTable x).info.drbIdByte = id := by
  induction n with
  | zero =>
      refine ⟨rfl, ?_⟩
      intro i id hi
      simp [drbIds] at hi
  | succ n ih =>
      obtain ⟨hlen, hstored⟩ := ih fun i hi => hlisted i (Nat.lt_succ_of_lt hi)
      obtain ⟨x, hx⟩ := Option.isSome_iff_exists.mp (hlisted n (Nat.lt_succ_self n))
      rw [drbIds_succ hx]
      refine ⟨by simp [hlen], ?_⟩
      intro i id hi
      rcases Nat.lt_or_ge i n with hlt | hge
      · rw [List.getElem?_append_left (by omega)] at hi
        exact hstored i id hi
      · have hend := (List.getElem?_eq_some_iff.mp hi).1
        simp only [List.length_append, hlen, List.length_singleton] at hend
        obtain rfl : i = n := by omega
        rw [List.getElem?_append_right (by omega), hlen, Nat.sub_self] at hi
        exact ⟨x, hx, Option.some.inj hi⟩

theorem DrbRun.start_identified (hlisted : ctx.DrbsListed) :
    DrbsIdentified (DrbRun.start T ctx) :=
  .of_stored (drbIds_getElem? hlisted).1 (drbIds_getElem? hlisted).2

/-- **The identity of DRBs.**  From any context without NULL pointers below its count and
any tunnel table, a sequence of `drb_setup` requests keeps the DRBs apart and is answered
accordingly exactly when each of its requests fits. -/
theorem drbIdentity_iff (hlisted : ctx.DrbsListed)
    (calls : List (Env D × DrbSetupReqInfo)) :
    (Always drbRunStep DrbsIdentified (DrbRun.start T ctx) calls ∧
      Along drbRunStep AnswersIdentity (DrbRun.start T ctx) calls) ↔
      Along drbRunStep IdentityFits (DrbRun.start T ctx) calls :=
  always_along_iff (fun _ c h => identity_step h c) (DrbRun.start_identified hlisted)

theorem drbIdentity_iff_zero :
    (Always drbRunStep DrbsIdentified (DrbRun.start (TunnelTable.init listDpdk) UeCtx.zero)
        [(upfEnv, oneDrb), (upfEnv, oneDrb)] ∧
      Along drbRunStep AnswersIdentity (DrbRun.start (TunnelTable.init listDpdk) UeCtx.zero)
        [(upfEnv, oneDrb), (upfEnv, oneDrb)]) ↔
      Along drbRunStep IdentityFits (DrbRun.start (TunnelTable.init listDpdk) UeCtx.zero)
        [(upfEnv, oneDrb), (upfEnv, oneDrb)] := by
  apply drbIdentity_iff
  intro i hi
  exact absurd hi (Nat.not_lt_zero i)

/-- DRB 32, which a peer may ask for, is set up and reported as DRB 0. -/
theorem drb32_reported_as_drb0 :
    ¬ ∀ (T : TunnelTable listDpdk) (ctx : UeCtx) (calls : List (Env listDpdk × DrbSetupReqInfo)),
      ctx.DrbsListed →
        Always drbRunStep DrbsIdentified (DrbRun.start T ctx) calls ∧
          Along drbRunStep AnswersIdentity (DrbRun.start T ctx) calls := by
  intro h
  obtain ⟨-, halong⟩ := h (TunnelTable.init listDpdk) UeCtx.zero
    [(upfEnv, { oneDrb with drbId := 32 })] fun i hi => absurd hi (Nat.not_lt_zero i)
  obtain ⟨out, hout, hreport, -⟩ := halong.1
  have hdec : ((drbSetup upfEnv (TunnelTable.init listDpdk) UeCtx.zero
      { oneDrb with drbId := 32 }).bind fun out => out.rsp.toOption).map
        DrbSetupSuccRspInfo.drbId = some 0 := by
    decide
  obtain ⟨rsp, hrsp, hid⟩ := Option.map_eq_some_iff.mp hdec
  obtain ⟨out', hout', hok⟩ := Option.bind_eq_some_iff.mp hrsp
  obtain rfl := Option.some.inj (hout'.symm.trans hout)
  cases hr : out'.rsp with
  | error fail => simp [hr, Except.toOption] at hok
  | ok rsp' =>
      simp only [hr, Except.toOption, Option.some.injEq] at hok
      have heq := hreport rsp' hr
      rw [hok, hid] at heq
      exact absurd heq (by decide)

end Pfm
