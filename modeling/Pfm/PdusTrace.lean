import Pfm.LookupAgreement
import Pfm.SessionRefusal
import Pfm.TunnelTransactions

/-!
# What a failed PDU session setup leaves

`pdus_setup` fails before it takes a row (the session limit, a duplicate id, no
key, no row), or after all its DRBs failed.  In the second case the row was handed
out but its key never committed, so `tunnel_remove` finds nothing to remove and
`tunnel_commit` enters the key: the row stays used.

* `NoTunnel` : when a tunnel cannot be opened, in terms of the table;
* `pdusSetupDrbs_all_failed` : DRBs that all fail change neither rows nor hash;
* `pdusSetup_noTrace_iff` : a failed setup leaves no trace exactly when it fails
  before it takes a row.
-/

namespace Pfm

open BoundedLoop CircularScan StepSystem TunnelTable

variable {D : Dpdk} {env : Env D} {T T' : TunnelTable D} {ctx : UeCtx}

/-- A failed `pdus_setup` as if it had not been called: the hash, the used flags,
and of the context the counts and the entries below them. -/
structure NoTrace (T T' : TunnelTable D) (ctx ctx' : UeCtx) : Prop where
  hash : T'.entry = T.entry
  used : ∀ r, T'.used r = T.used r
  pdusCount : ctx'.pdusCount = ctx.pdusCount
  drbCount : ctx'.drbCount = ctx.drbCount
  pdusList : ∀ i, i < ctx.pdusCount → ctx'.pdusTunnelList.get? i = ctx.pdusTunnelList.get? i
  drbList : ∀ i, i < ctx.drbCount → ctx'.drbTunnelList.get? i = ctx.drbTunnelList.get? i

theorem NoTrace.of_table (hash : T'.entry = T.entry) (used : ∀ r, T'.used r = T.used r) :
    NoTrace T T' ctx ctx :=
  ⟨hash, used, rfl, rfl, fun _ _ => rfl, fun _ _ => rfl⟩

/-- The session is refused by the context: the list is full, or has its id. -/
def PdusRefused (T : TunnelTable D) (ctx : UeCtx) (req : PdusSetupReqInfo) : Prop :=
  ctx.pdusCount = maxPdusPerUe ∨ ∃ j, findPdus T ctx req.pdusId = some (some j)

/-- No tunnel can be opened: the table cannot be set up, the peer has no local
address or no id is left for it, or no row is left. -/
def NoTunnel (env : Env D) (T : TunnelTable D) (remoteIp : PfmIpAddr)
    (ttype : TunnelType) : Prop :=
  (T.tunnelHashtable = none ∧ env.tunnelHashCreate = false) ∨
  (∀ ip, tunnelLocalIp env remoteIp ttype = some ip →
    ∀ i, i ≠ T.lastAssignedId → (T.entry (teKey ip i)).isSome) ∨
  (T.tunnelHashtable.isSome = true ∧ NoRowFound T)

/-! ### Opening a tunnel -/

/-- `tunnel_key_alloc` in a table that is up fails when every id but the one under
the cursor is taken. -/
theorem tunnelKeyAlloc_none_iff (hup : T.tunnelHashtable.isSome = true)
    (remoteIp : PfmIpAddr) (ttype : TunnelType) :
    (tunnelKeyAlloc env T remoteIp ttype).1 = none ↔
      ∀ ip, tunnelLocalIp env remoteIp ttype = some ip →
        ∀ i, i ≠ T.lastAssignedId → (T.entry (teKey ip i)).isSome := by
  have hensure : tunnelTableEnsureUp env T = some T := if_pos hup
  simp only [tunnelKeyAlloc, hensure]
  cases hip : tunnelLocalIp env remoteIp ttype with
  | none => simp
  | some ip =>
      have hstop : ∀ i, idProbe
          (D.tunnelHash.lookup T.tunnelHashtable (teKey ip i)).1 ≠ .stop := by
        intro i
        cases he : T.entry (teKey ip i) with
        | none => simp [idProbe_eq_take_iff.mpr ⟨hup, he⟩]
        | some x =>
            have hsome : (D.tunnelHash.entry T.tunnelHashtable (teKey ip i)).isSome := by
              rw [← TunnelTable.entry, he]
              rfl
            simp [idProbe_eq_next_iff.mpr hsome]
      have hscan : scan (fun i => idProbe
          (D.tunnelHash.lookup T.tunnelHashtable (teKey ip i)).1) T.lastAssignedId = none ↔
          ∀ i, i ≠ T.lastAssignedId → (T.entry (teKey ip i)).isSome := by
        rw [scan_eq_none_iff hstop]
        simp only [idProbe_eq_next_iff, TunnelTable.entry]
      simp only [Option.some.injEq, forall_eq']
      rw [← hscan]
      cases scan (fun i => idProbe
        (D.tunnelHash.lookup T.tunnelHashtable (teKey ip i)).1) T.lastAssignedId <;> simp

/-- Opening a tunnel first sets the table up. -/
theorem tunnelOpen_of_ensureUp {T₁ : TunnelTable D} (h : tunnelTableEnsureUp env T = some T₁)
    (remoteIp : PfmIpAddr) (ttype : TunnelType) :
    tunnelOpen env T remoteIp ttype = tunnelOpen env T₁ remoteIp ttype := by
  have hup : tunnelTableEnsureUp env T₁ = some T₁ := if_pos (tunnelTableEnsureUp_up h)
  have hkey : tunnelKeyAlloc env T remoteIp ttype = tunnelKeyAlloc env T₁ remoteIp ttype := by
    simp only [tunnelKeyAlloc, h, hup]
  simp only [tunnelOpen, hkey]

theorem tunnelOpen_none_iff_of_up (hup : T.tunnelHashtable.isSome = true)
    (remoteIp : PfmIpAddr) (ttype : TunnelType) :
    (tunnelOpen env T remoteIp ttype).1 = none ↔
      (tunnelKeyAlloc env T remoteIp ttype).1 = none ∨ NoRowFound T := by
  have hensure : tunnelTableEnsureUp env T = some T := if_pos hup
  rcases tunnelKeyAlloc_cases env T remoteIp ttype with
    ⟨hno, _⟩ | ⟨T₁, h₁, he | ⟨ip, i, d, _, hfree, he⟩⟩
  · rw [hensure] at hno
    cases hno
  · simp [tunnelOpen, he]
  · obtain rfl := Option.some.inj (hensure.symm.trans h₁)
    -- The id was free, so the key is not committed and only a row can be missing.
    have hadd : tunnelAdd env { T with lastAssignedId := i } (teKey ip i) =
        tunnelAlloc { T with lastAssignedId := i } (teKey ip i) := by
      have hup₂ : ({ T with lastAssignedId := i } : TunnelTable D).tunnelHashtable.isSome :=
        hup
      rcases tunnelAdd_cases env { T with lastAssignedId := i } (teKey ip i) with
        ⟨hno, _⟩ | ⟨T₂, h₂, ⟨hpres, _⟩ | ⟨_, hadd⟩⟩
      · rw [tunnelTableEnsureUp, if_pos hup₂] at hno
        cases hno
      · rw [tunnelTableEnsureUp, if_pos hup₂] at h₂
        obtain rfl := Option.some.inj h₂
        have habs : ({ T with lastAssignedId := i } : TunnelTable D).entry (teKey ip i) =
            none := hfree.free
        rw [habs] at hpres
        cases hpres
      · rw [tunnelTableEnsureUp, if_pos hup₂] at h₂
        obtain rfl := Option.some.inj h₂
        exact hadd
    have halloc : (tunnelAlloc ({ T with lastAssignedId := i } : TunnelTable D)
        (teKey ip i)).1 = none ↔ NoRowFound T := tunnelAlloc_none_iff
    simp only [tunnelOpen, he, hadd, reduceCtorEq, false_or]
    rw [← halloc]
    cases tunnelAlloc { T with lastAssignedId := i } (teKey ip i) with
    | mk got T₂ => cases got <;> simp

/-- `tunnelOpen` fails exactly when the table has no tunnel to give. -/
theorem tunnelOpen_none_iff (env : Env D) (T : TunnelTable D) (remoteIp : PfmIpAddr)
    (ttype : TunnelType) :
    (tunnelOpen env T remoteIp ttype).1 = none ↔ NoTunnel env T remoteIp ttype := by
  rcases tunnelTableEnsureUp_cases env T with
    ⟨hup, _⟩ | ⟨hdown, hcreate, hensure⟩ | ⟨hdown, hcreate, hensure⟩
  · rw [tunnelOpen_none_iff_of_up hup, tunnelKeyAlloc_none_iff hup, NoTunnel]
    have hnot : T.tunnelHashtable ≠ none := Option.isSome_iff_ne_none.mp hup
    simp [hnot, hup]
  · -- A table just set up has every id and every row free.
    have hrows : ¬ NoRowFound T.cleared := by
      intro hno
      have hne : ahead T.cleared.lastAllocatedSlot 1 ≠ T.cleared.lastAllocatedSlot :=
        ahead_ne_self _ Nat.one_pos (by decide)
      have hused := hno _ hne
      simp at hused
    rw [tunnelOpen_of_ensureUp hensure, tunnelOpen_none_iff_of_up rfl,
      tunnelKeyAlloc_none_iff rfl, NoTunnel]
    have hentry : T.entry = T.cleared.entry := by
      funext k
      rw [cleared_entry, entry_of_down hdown]
    have hcursor : T.cleared.lastAssignedId = T.lastAssignedId := rfl
    simp [hdown, hcreate, hrows, hentry, hcursor]
  · have hno : tunnelOpen env T remoteIp ttype = (none, T) := by
      simp [tunnelOpen, tunnelKeyAlloc, hensure]
    simp [hno, NoTunnel, hdown, hcreate]

/-- The tables differ at most in the cursor of the tunnel ids. -/
structure SameTunnels (T T' : TunnelTable D) : Prop where
  rows : T'.tunnelTable = T.tunnelTable
  hash : T'.tunnelHashtable = T.tunnelHashtable

theorem SameTunnels.trans {T₁ T₂ T₃ : TunnelTable D} (h : SameTunnels T₁ T₂)
    (h' : SameTunnels T₂ T₃) : SameTunnels T₁ T₃ :=
  ⟨h'.rows.trans h.rows, h'.hash.trans h.hash⟩

theorem SameTunnels.entry (h : SameTunnels T T') : T'.entry = T.entry := by
  funext k
  rw [TunnelTable.entry, h.hash, TunnelTable.entry]

theorem SameTunnels.used (h : SameTunnels T T') (r : TunnelIdx) : T'.used r = T.used r := by
  rw [TunnelTable.used, h.rows, TunnelTable.used]

/-- A tunnel that is not opened leaves the table as it was, or just set up. -/
theorem tunnelOpen_none_tunnels {remoteIp : PfmIpAddr} {ttype : TunnelType}
    (h : tunnelOpen env T remoteIp ttype = (none, T')) :
    (SameTunnels T T' ∧ (T.tunnelHashtable = none → env.tunnelHashCreate = false)) ∨
    (T.tunnelHashtable = none ∧ env.tunnelHashCreate = true ∧ SameTunnels T.cleared T') := by
  have hsame : (tunnelTableEnsureUp env T = none ∧ SameTunnels T T') ∨
      ∃ T₁, tunnelTableEnsureUp env T = some T₁ ∧ SameTunnels T₁ T' := by
    rcases tunnelOpen_cases env T remoteIp ttype with
      ⟨hno, he⟩ | ⟨T₁, h₁, he | ⟨ip, i, d, _, _, ⟨_, he⟩ | ⟨r, _, _, he⟩⟩⟩
    · rw [h] at he
      obtain rfl := (Prod.mk.inj he).2
      exact Or.inl ⟨hno, rfl, rfl⟩
    · rw [h] at he
      obtain rfl := (Prod.mk.inj he).2
      exact Or.inr ⟨T', h₁, rfl, rfl⟩
    · rw [h] at he
      obtain rfl := (Prod.mk.inj he).2
      exact Or.inr ⟨T₁, h₁, rfl, rfl⟩
    · rw [h] at he
      cases (Prod.mk.inj he).1
  rcases tunnelTableEnsureUp_cases env T with
    ⟨hup, he⟩ | ⟨hdown, hcreate, he⟩ | ⟨_, hcreate, he⟩
  · left
    have hnot : T.tunnelHashtable ≠ none := Option.isSome_iff_ne_none.mp hup
    simp only [he, reduceCtorEq, false_and, false_or, Option.some.injEq, exists_eq_left'] at hsame
    exact ⟨hsame, fun hdown => absurd hdown hnot⟩
  · right
    simp only [he, reduceCtorEq, false_and, false_or, Option.some.injEq, exists_eq_left'] at hsame
    exact ⟨hdown, hcreate, hsame⟩
  · left
    simp only [he, true_and, reduceCtorEq, false_and, exists_false, or_false] at hsame
    exact ⟨hsame, fun _ => hcreate⟩

/-! ### DRBs that all fail -/

/-- A DRB that fails in a table that is up changes nothing. -/
theorem drbSetup_failed {req : DrbSetupReqInfo} {out : DrbServed D}
    {fail : DrbSetupFailRspInfo} (hup : T.tunnelHashtable.isSome = true)
    (h : drbSetup env T ctx req = some out) (hfail : out.rsp = .error fail) :
    out.ctx = ctx ∧ SameTunnels T out.tun := by
  rcases drbSetup_cases h with ⟨hctx, _, htun | ⟨hnone, htun⟩⟩ | ⟨key, r, T₁, list, _, _, rfl⟩
  · exact ⟨hctx, by rw [htun]; exact ⟨rfl, rfl⟩⟩
  · refine ⟨hctx, ?_⟩
    rw [htun]
    rcases tunnelOpen_none_tunnels (Prod.ext hnone rfl) with ⟨hsame, _⟩ | ⟨hdown, _⟩
    · exact hsame
    · rw [hdown] at hup
      cases hup
  · cases hfail

/-- **All the DRBs failed.**  Then the loop over them changed neither the context
nor a row nor the hash. -/
theorem pdusSetupDrbs_all_failed {req : PdusSetupReqInfo} {n : Nat}
    {w w' : PdusWork D PdusSetupSuccRspInfo} (hup : w.tun.tunnelHashtable.isSome = true)
    (hzero : w.succ.drbSetupFailCount = 0)
    (hrun : forRange (pdusSetupDrb env req) n w = some w')
    (hall : w'.succ.drbSetupFailCount = n) :
    w'.ctx = w.ctx ∧ SameTunnels w.tun w'.tun := by
  refine pdusSetupDrbs_of_all_failed (fun _ w' => w'.ctx = w.ctx ∧ SameTunnels w.tun w'.tun)
    hzero ⟨rfl, rfl, rfl⟩ ?_ hrun hall
  intro i w₁ w₂ drb out fail hinv _ hout hfail htun hctx
  obtain ⟨hctx₁, hsame₁⟩ := hinv
  have hup₁ : w₁.tun.tunnelHashtable.isSome = true := by
    rw [hsame₁.hash]
    exact hup
  obtain ⟨hctx₂, hsame₂⟩ := drbSetup_failed hup₁ hout hfail
  rw [htun, hctx]
  exact ⟨hctx₂.trans hctx₁, hsame₁.trans hsame₂⟩

/-! ### The session -/

theorem pdusSetup_of_refused_ctx {req : PdusSetupReqInfo} {succ : PdusSetupSuccRspInfo}
    {out : PdusServed D PdusSetupSuccRspInfo} (href : PdusRefused T ctx req)
    (h : pdusSetup env T ctx req succ = some out) : out.tun = T ∧ out.ctx = ctx := by
  unfold pdusSetup at h
  split at h
  · obtain rfl := Option.some.inj h
    exact ⟨rfl, rfl⟩
  · rename_i hmax
    obtain ⟨j, hfind⟩ := href.resolve_left hmax
    rw [hfind] at h
    obtain rfl := Option.some.inj h
    exact ⟨rfl, rfl⟩

/-- The row of the session when the loop over its DRBs starts: used, and under a key
that is not committed. -/
theorem pdusSetupStart_row (ctx : UeCtx) (succ : PdusSetupSuccRspInfo)
    {req : PdusSetupReqInfo} {key : TunnelKey} {r : TunnelIdx}
    (hopen : tunnelOpen env T req.pdusUlIpAddr .pdus = (some (key, r), T')) :
    ∃ T₁, tunnelTableEnsureUp env T = some T₁ ∧ T₁.used r = false ∧ T₁.entry key = none ∧
      (pdusSetupStart T' ctx req succ r).tun.tunnelHashtable = T₁.tunnelHashtable ∧
      (pdusSetupStart T' ctx req succ r).tun.used r = true ∧
      (pdusSetupStart T' ctx req succ r).tun.keyAt r = key := by
  rcases tunnelOpen_cases env T req.pdusUlIpAddr .pdus with
    ⟨_, he⟩ | ⟨T₁, h₁, he | ⟨ip, i, d, _, hfree, ⟨_, he⟩ | ⟨r', hun, _, he⟩⟩⟩
  · rw [hopen] at he
    cases he
  · rw [hopen] at he
    cases he
  · rw [hopen] at he
    cases he
  · rw [hopen] at he
    obtain ⟨hkr, rfl⟩ := Prod.mk.inj he
    obtain ⟨rfl, rfl⟩ := Prod.mk.inj (Option.some.inj hkr)
    refine ⟨T₁, h₁, hun, hfree.free, rfl, ?_, ?_⟩
    · simp [pdusSetupStart, TunnelTable.used, Tunnel.fillPdus, takeRow, setRow]
    · simp [pdusSetupStart, TunnelTable.keyAt, Tunnel.fillPdus, takeRow, setRow]

/-- Committing a row whose key is absent changes no used flag. -/
theorem tunnelCommit_used_of_absent {r : TunnelIdx} (habs : T.rowOf (T.keyAt r) = none)
    (r' : TunnelIdx) : (tunnelCommit T (some r)).2.used r' = T.used r' := by
  rcases tunnelCommit_of_new habs with he | ⟨t, he, -⟩
  · rw [he]
  · rw [he]
    rfl

/-- The table when all DRBs of a session have failed: the row of the session is used, under
a key that is not committed, and the removal of that key finds no row. -/
theorem noDrb_table {req : PdusSetupReqInfo} {succ : PdusSetupSuccRspInfo} {key : TunnelKey}
    {r : TunnelIdx} {w : PdusWork D PdusSetupSuccRspInfo}
    (hopen : tunnelOpen env T req.pdusUlIpAddr .pdus = (some (key, r), T'))
    (hdrbs : forRange (pdusSetupDrb env req) req.drbCount (pdusSetupStart T' ctx req succ r) =
      some w)
    (hall : w.succ.drbSetupFailCount = req.drbCount) :
    ∃ T₁, tunnelTableEnsureUp env T = some T₁ ∧ T₁.used r = false ∧
      w.tun.tunnelHashtable = T₁.tunnelHashtable ∧ w.tun.used r = true ∧
      w.tun.keyAt r = key ∧ w.tun.rowOf key = none ∧ (tunnelRemove w.tun key).2 = w.tun := by
  obtain ⟨T₁, h₁, hun, habs, hhash, hused, hkey⟩ :=
    pdusSetupStart_row ctx succ hopen
  have hup₁ : T₁.tunnelHashtable.isSome = true := tunnelTableEnsureUp_up h₁
  obtain ⟨_, hsame⟩ := pdusSetupDrbs_all_failed (by rw [hhash]; exact hup₁) rfl hdrbs hall
  have hwhash : w.tun.tunnelHashtable = T₁.tunnelHashtable := hsame.hash.trans hhash
  have hwabs : w.tun.rowOf key = none := by
    rw [rowOf_eq_none_iff, TunnelTable.entry, hwhash]
    exact habs
  refine ⟨T₁, h₁, hun, hwhash, (hsame.used r).trans hused, ?_, hwabs, ?_⟩
  · rw [← hkey, TunnelTable.keyAt, hsame.rows, TunnelTable.keyAt]
  · rcases tunnelRemove_cases w.tun key with ⟨r', hrow, _⟩ | ⟨_, _, _, he⟩
    · rw [hwabs] at hrow
      cases hrow
    · rw [he]

/-- The late failure leaves the row of the session used, or, where that call set the
table up, its key committed. -/
theorem noDrb_trace (hacc : D.tunnelHash.Accepts) {req : PdusSetupReqInfo}
    {succ : PdusSetupSuccRspInfo} {key : TunnelKey} {r : TunnelIdx}
    {w : PdusWork D PdusSetupSuccRspInfo}
    (hopen : tunnelOpen env T req.pdusUlIpAddr .pdus = (some (key, r), T'))
    (hdrbs : forRange (pdusSetupDrb env req) req.drbCount (pdusSetupStart T' ctx req succ r) =
      some w)
    (hall : w.succ.drbSetupFailCount = req.drbCount) :
    ¬ NoTrace T (tunnelCommit (tunnelRemove w.tun key).2 (some r)).2 ctx w.ctx := by
  obtain ⟨T₁, h₁, hun, hwhash, hused, hwkey, hwabs, hremove⟩ := noDrb_table hopen hdrbs hall
  have hup₁ : T₁.tunnelHashtable.isSome = true := tunnelTableEnsureUp_up h₁
  have hkeyabs : w.tun.rowOf (w.tun.keyAt r) = none := by
    rw [hwkey]
    exact hwabs
  rw [hremove]
  intro htrace
  rcases tunnelTableEnsureUp_cases env T with ⟨_, he⟩ | ⟨hdown, _, he⟩ | ⟨_, _, he⟩
  · -- The table was up: the row was free before.
    obtain rfl := Option.some.inj (he.symm.trans h₁)
    have hr := htrace.used r
    rw [tunnelCommit_used_of_absent hkeyabs, hused, hun] at hr
    cases hr
  · -- The table was just set up: its empty hash takes the key.
    obtain rfl := Option.some.inj (he.symm.trans h₁)
    have hcount : w.tun.keyCount = 0 := by
      rw [← keyCount_cleared (T := T), TunnelTable.keyCount, hwhash, TunnelTable.keyCount]
    obtain ⟨h, p, hcommit, hentry⟩ := tunnelCommit_of_absent r hacc
      (by rw [hwhash]; exact hup₁) hkeyabs (by rw [hcount]; decide)
    rw [hcommit] at htrace
    have hk := congrFun (hentry.symm.trans htrace.hash) (w.tun.keyAt r)
    rw [show (w.tun.tunnelTable r).key = w.tun.keyAt r from rfl, Function.update_self,
      entry_of_down hdown] at hk
    cases hk
  · rw [he] at h₁
    cases h₁

/-- **When a failed session setup leaves no trace.**  For every table, context and
request: exactly when the session is refused by the context, or no tunnel can be
opened for it and the table was up or had no row marked used. -/
theorem pdusSetup_noTrace_iff (hacc : D.tunnelHash.Accepts) {req : PdusSetupReqInfo}
    {succ : PdusSetupSuccRspInfo} {out : PdusServed D PdusSetupSuccRspInfo}
    {fail : PdusSetupFailRspInfo} (h : pdusSetup env T ctx req succ = some out)
    (hfail : out.fail = some fail) :
    (NoTrace T out.tun ctx out.ctx ∧ fail.pdusId = req.pdusId) ↔
      PdusRefused T ctx req ∨
      (NoTunnel env T req.pdusUlIpAddr .pdus ∧
        (T.tunnelHashtable = none → env.tunnelHashCreate = true → ∀ r, T.used r = false)) := by
  by_cases href : PdusRefused T ctx req
  · obtain ⟨htun, hctx⟩ := pdusSetup_of_refused_ctx href h
    have hid : fail.pdusId = req.pdusId := by
      cases pdusSetup_cases h with
      | refused | noTunnel | noDrb =>
          obtain rfl := Option.some.inj hfail
          rfl
      | served => cases hfail
    rw [htun, hctx]
    exact ⟨fun _ => Or.inl href, fun _ => ⟨.of_table rfl fun _ => rfl, hid⟩⟩
  · rw [or_iff_right href]
    cases pdusSetup_cases h with
    | refused cause why => exact absurd why href
    | noTunnel T' cause hopen =>
        obtain rfl := Option.some.inj hfail
        have hno : NoTunnel env T req.pdusUlIpAddr .pdus :=
          (tunnelOpen_none_iff ..).mp (by rw [hopen])
        simp only [hno, true_and, and_true]
        rcases tunnelOpen_none_tunnels hopen with ⟨hsame, hcreate⟩ | ⟨hdown, hcreate, hsame⟩
        · refine ⟨fun _ hdown htrue => ?_, fun _ => .of_table hsame.entry hsame.used⟩
          rw [hcreate hdown] at htrue
          cases htrue
        · have hused : ∀ r, T'.used r = false := fun r => by
            rw [hsame.used]
            rfl
          constructor
          · intro htrace _ _ r
            rw [← htrace.used r]
            exact hused r
          · intro hfree
            refine .of_table ?_ fun r => ?_
            · funext k
              rw [hsame.entry, cleared_entry, entry_of_down hdown]
            · rw [hused r, hfree hdown hcreate r]
    | noDrb key r T' w cause hopen hdrbs hall =>
        have hno : ¬ NoTunnel env T req.pdusUlIpAddr .pdus := by
          rw [← tunnelOpen_none_iff, hopen]
          simp
        exact ⟨fun hprop => absurd hprop.1 (noDrb_trace hacc hopen hdrbs hall),
          fun hcond => absurd hcond.1 hno⟩
    | served => cases hfail

/-- A PDU session towards an address without a route. -/
def unroutedPdus : PdusSetupReqInfo := { onePdus with pdusUlIpAddr := 1 }

/-- A success slot that has not been written. -/
def pdusSlot : PdusSetupSuccRspInfo := ⟨0, 0, 0, 0, 0, fun _ => ⟨0, 0, 0⟩, fun _ => ⟨0, .none⟩⟩

/-- A UE with a session and a DRB asks for a session whose one DRB it has, for one it has, and for
one at an address without a route.  Each call fails. -/
theorem pdusSetup_noTrace_iff_served : ∃ S : Cuup listDpdk,
    exec e1apStep (Cuup.init listDpdk) [oneSetup, oneSetup] = some S ∧
    ∀ req ∈ [{ onePdus with pdusId := 0 }, { onePdus with pdusId := 1 }, unroutedPdus],
      ∃ out fail, pdusSetup upfEnv S.tun (S.ue.ueCtxTable 1) req pdusSlot = some out ∧
        out.fail = some fail ∧
        ((NoTrace S.tun out.tun (S.ue.ueCtxTable 1) out.ctx ∧ fail.pdusId = req.pdusId) ↔
          PdusRefused S.tun (S.ue.ueCtxTable 1) req ∨
          (NoTunnel upfEnv S.tun req.pdusUlIpAddr .pdus ∧
            (S.tun.tunnelHashtable = none → upfEnv.tunnelHashCreate = true →
              ∀ r, S.tun.used r = false))) := by
  have hdec : ((exec e1apStep (Cuup.init listDpdk) [oneSetup, oneSetup]).map fun S =>
      [{ onePdus with pdusId := 0 }, { onePdus with pdusId := 1 }, unroutedPdus].all fun req =>
        ((pdusSetup upfEnv S.tun (S.ue.ueCtxTable 1) req pdusSlot).bind
          PdusServed.fail).isSome) = some true := by
    decide
  obtain ⟨S, hS, hall⟩ := Option.map_eq_some_iff.mp hdec
  refine ⟨S, hS, fun req hreq => ?_⟩
  obtain ⟨fail, hbind⟩ := Option.isSome_iff_exists.mp (List.all_eq_true.mp hall req hreq)
  obtain ⟨out, hout, hfail⟩ := Option.bind_eq_some_iff.mp hbind
  exact ⟨out, fail, hout, hfail,
    pdusSetup_noTrace_iff (listHash_accepts TunnelKey TunnelIdx maxTunnelCount) hout hfail⟩

/-- A UE that has the DRB 1 asks for PDU session 0 with a DRB of that id.  The DRB is
refused, and the row taken for the session stays used. -/
theorem duplicateDrb_leaves_row :
    ¬ ∀ (env : Env listDpdk) T ctx req succ out fail,
      pdusSetup env T ctx req succ = some out → out.fail = some fail →
        NoTrace T out.tun ctx out.ctx ∧ fail.pdusId = req.pdusId := by
  intro h
  have hdec : ((exec e1apStep (Cuup.init listDpdk) [oneSetup, oneSetup]).bind fun S =>
      (pdusSetup upfEnv S.tun (S.ue.ueCtxTable 1) { onePdus with pdusId := 0 } pdusSlot).map
        fun out => decide (out.fail.isSome = true ∧ S.tun.used 3 = false ∧
          out.tun.used 3 = true)) = some true := by
    decide
  obtain ⟨S, _, hmap⟩ := Option.bind_eq_some_iff.mp hdec
  obtain ⟨out, hout, hfacts⟩ := Option.map_eq_some_iff.mp hmap
  obtain ⟨hsome, hbefore, hafter⟩ := of_decide_eq_true hfacts
  obtain ⟨fail, hfail⟩ := Option.isSome_iff_exists.mp hsome
  have hused := (h _ _ _ _ _ _ _ hout hfail).1.used 3
  rw [hbefore, hafter] at hused
  cases hused

end Pfm
