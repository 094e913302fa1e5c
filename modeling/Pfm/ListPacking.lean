import Pfm.LookupAgreement
import Pfm.ListCompaction
import Pfm.UeCtxSpec

/-!
# What a commit makes of the tunnel lists

`ue_ctx_commit` commits the tunnels of a list one after the other, leaves NULL for
each whose row is not used afterwards, and packs the list.  For the DRB list this
gives the tunnels still used, in order, and their count.  The loop over the
PDU-session list packs the pointers of the DRB list, and `pdus_count` stays.

* `stillUsed` : the tunnels still used after their commit;
* `ueCtxCommit_lists` : both lists and counts after `ue_ctx_commit`;
* `drbList_packed` : the DRB list is always right;
* `ueCtxCommit_packs_iff` : when both lists are.
-/

namespace Pfm

open BoundedLoop TunnelTable

variable {D : Dpdk} {T : TunnelTable D} {S S' : Cuup D} {n : UeIdx}

/-- The table after the tunnels of a list are committed one after the other. -/
def commitAll (T : TunnelTable D) : List TunnelIdx → TunnelTable D
  | [] => T
  | nt :: rest => commitAll (tunnelCommit T (some nt)).2 rest

/-- The slots of a list after that: NULL for a tunnel whose row is not used after its
commit. -/
def committedSlots (T : TunnelTable D) : List TunnelIdx → List (Option TunnelIdx)
  | [] => []
  | nt :: rest =>
      (if (tunnelCommit T (some nt)).2.used nt then some nt else none) ::
        committedSlots (tunnelCommit T (some nt)).2 rest

/-- The tunnels whose row is still used after their commit, in the order of the
list. -/
def stillUsed (T : TunnelTable D) (tunnels : List TunnelIdx) : List TunnelIdx :=
  (committedSlots T tunnels).reduceOption

/-- The tunnels of a context, below the counts. -/
def UeCtx.drbTunnels (ctx : UeCtx) : List TunnelIdx :=
  (ctx.drbTunnelList.firstN ctx.drbCount).reduceOption

def UeCtx.pdusTunnels (ctx : UeCtx) : List TunnelIdx :=
  (ctx.pdusTunnelList.firstN ctx.pdusCount).reduceOption

/-- The pointers below the counts are in the lists and not NULL. -/
structure UeCtx.Listed (ctx : UeCtx) : Prop where
  drb : ∀ i, i < ctx.drbCount → (ctx.drbTunnelList.deref? i).isSome = true
  pdus : ∀ i, i < ctx.pdusCount → (ctx.pdusTunnelList.deref? i).isSome = true

/-- A list and its count hold exactly these tunnels. -/
def HoldsTunnels {m : Nat} (list : CArray m (Option TunnelIdx)) (count : Nat)
    (tunnels : List TunnelIdx) : Prop :=
  count = tunnels.length ∧ list.firstN count = tunnels.map some

/-- Both lists of row `n` hold the tunnels still used. -/
structure CommitPacks (S : Cuup D) (n : UeIdx) (S' : Cuup D) : Prop where
  drb : HoldsTunnels (S'.ue.ueCtxTable n).drbTunnelList (S'.ue.ueCtxTable n).drbCount
    (stillUsed S.tun (S.ue.ueCtxTable n).drbTunnels)
  pdus : HoldsTunnels (S'.ue.ueCtxTable n).pdusTunnelList (S'.ue.ueCtxTable n).pdusCount
    (stillUsed (commitAll S.tun (S.ue.ueCtxTable n).drbTunnels)
      (S.ue.ueCtxTable n).pdusTunnels)

/-- The slots of the DRB list once it is packed: the tunnels still used, and behind
them what the slots held before. -/
def UeCtx.packedDrbSlots (T : TunnelTable D) (ctx : UeCtx) : List (Option TunnelIdx) :=
  overwrite ((stillUsed T ctx.drbTunnels).map some)
    (overwrite (committedSlots T ctx.drbTunnels) (List.ofFn ctx.drbTunnelList))

/-- Every PDU-session tunnel is still used, and the pointers in the first
`pdus_count` slots of the packed DRB list are the first of the PDU-session tunnels. -/
def PdusListSpared (T : TunnelTable D) (ctx : UeCtx) : Prop :=
  stillUsed (commitAll T ctx.drbTunnels) ctx.pdusTunnels = ctx.pdusTunnels ∧
  ((ctx.packedDrbSlots T).take ctx.pdusCount).reduceOption <+: ctx.pdusTunnels

/-! ### Committing a list -/

theorem commitAll_append (xs ys : List TunnelIdx) :
    commitAll T (xs ++ ys) = commitAll (commitAll T xs) ys := by
  induction xs generalizing T with
  | nil => rfl
  | cons nt rest ih => exact ih

theorem committedSlots_append (xs ys : List TunnelIdx) :
    committedSlots T (xs ++ ys) =
      committedSlots T xs ++ committedSlots (commitAll T xs) ys := by
  induction xs generalizing T with
  | nil => rfl
  | cons nt rest ih =>
      simp only [List.cons_append, committedSlots, commitAll]
      rw [ih]

@[simp] theorem length_committedSlots (xs : List TunnelIdx) :
    (committedSlots T xs).length = xs.length := by
  induction xs generalizing T with
  | nil => rfl
  | cons nt rest ih => simp [committedSlots, ih]

/-- Some of the tunnels, in their order. -/
theorem stillUsed_sublist (xs : List TunnelIdx) : (stillUsed T xs).Sublist xs := by
  induction xs generalizing T with
  | nil => exact .slnil
  | cons nt rest ih =>
      cases hu : (tunnelCommit T (some nt)).2.used nt with
      | true =>
          have hstep : stillUsed T (nt :: rest) =
              nt :: stillUsed (tunnelCommit T (some nt)).2 rest := by
            simp [stillUsed, committedSlots, hu]
          rw [hstep]
          exact ih.cons_cons nt
      | false =>
          have hstep : stillUsed T (nt :: rest) =
              stillUsed (tunnelCommit T (some nt)).2 rest := by
            simp [stillUsed, committedSlots, hu]
          rw [hstep]
          exact ih.cons nt

/-- No tunnel was dropped when as many are left. -/
theorem length_stillUsed_iff {xs : List TunnelIdx} :
    xs.length = (stillUsed T xs).length ↔ stillUsed T xs = xs := by
  constructor
  · intro h
    exact (stillUsed_sublist xs).eq_of_length h.symm
  · intro h
    rw [h]

theorem committedSlots_of_all_used {xs : List TunnelIdx} (h : stillUsed T xs = xs) :
    committedSlots T xs = xs.map some := by
  have hlen : (committedSlots T xs).reduceOption.length = (committedSlots T xs).length := by
    rw [length_committedSlots]
    exact congrArg List.length h
  rw [eq_map_some_of_length hlen]
  exact congrArg (List.map some) h

/-- **Committing a list.**  The loop leaves the slots of the tunnels, and the rest of
the array. -/
theorem commitTunnels_eq {m : Nat} (list : CArray m (Option TunnelIdx)) {count : Nat}
    {xs : List TunnelIdx} (hlist : list.firstN count = xs.map some) (hcount : count ≤ m) :
    ∃ out, commitTunnels count (T, list) = some (commitAll T xs, out) ∧
      List.ofFn out = overwrite (committedSlots T xs) (List.ofFn list) := by
  have hlen : xs.length = count := by
    have := congrArg List.length hlist
    simp only [CArray.firstN_eq_take, List.length_take, List.length_ofFn,
      List.length_map] at this
    omega
  have hrun : ∃ s, commitTunnels count (T, list) = some s ∧
      s.1 = commitAll T (xs.take count) ∧
      List.ofFn s.2 = overwrite (committedSlots T (xs.take count)) (List.ofFn list) := by
    refine forRange_isSome (fun i (s : TunnelTable D × CArray m (Option TunnelIdx)) =>
      s.1 = commitAll T (xs.take i) ∧
      List.ofFn s.2 = overwrite (committedSlots T (xs.take i)) (List.ofFn list))
      ⟨rfl, rfl⟩ ?_
    intro i s hi hinv
    obtain ⟨T₁, l⟩ := s
    obtain ⟨rfl, hl⟩ := hinv
    have hix : i < xs.length := by omega
    have hslots : (committedSlots T (xs.take i)).length = i := by
      rw [length_committedSlots, List.length_take]
      omega
    -- The slot of this turn has not been written yet.
    have hold : (List.ofFn list)[i]? = some (some xs[i]) := by
      have hi' : (list.firstN count)[i]? = some (some xs[i]) := by
        rw [hlist, List.getElem?_map, List.getElem?_eq_getElem hix]
        rfl
      rwa [CArray.firstN_eq_take, List.getElem?_take_of_lt hi] at hi'
    have hread : l.deref? i = some xs[i] := by
      rw [CArray.deref?_eq_some_iff, ← CArray.getElem?_ofFn, hl,
        getElem?_overwrite (by omega), hold]
    have htable : commitAll T (xs.take (i + 1)) =
        (tunnelCommit (commitAll T (xs.take i)) (some xs[i])).2 := by
      rw [List.take_succ_eq_append_getElem hix, commitAll_append]
      rfl
    have hslot : committedSlots T (xs.take (i + 1)) = committedSlots T (xs.take i) ++
        [if (commitAll T (xs.take (i + 1))).used xs[i] then some xs[i] else none] := by
      rw [htable, List.take_succ_eq_append_getElem hix, committedSlots_append]
      rfl
    cases hu : (commitAll T (xs.take (i + 1))).used xs[i] with
    | true =>
        refine ⟨(commitAll T (xs.take (i + 1)), l), ?_, rfl, ?_⟩
        · simp [hread, ← htable, hu]
        · rw [hslot, hu, if_pos rfl, overwrite_snoc_same (by rw [hslots, hold]), ← hl]
    | false =>
        have him : i < m := by omega
        refine ⟨(commitAll T (xs.take (i + 1)), Function.update l ⟨i, him⟩ none), ?_, rfl, ?_⟩
        · simp [hread, ← htable, hu, CArray.set?_of_lt l him]
        · have hroom : (committedSlots T (xs.take i)).length < (List.ofFn list).length := by
            rw [hslots, List.length_ofFn]
            exact him
          have hset := set_overwrite (x := none) hroom
          rw [hslots] at hset
          rw [CArray.ofFn_set? (CArray.set?_of_lt l him none), hl, hset, hslot, hu]
          rfl
  obtain ⟨⟨T₁, out⟩, hrun, htable, hout⟩ := hrun
  rw [← hlen, List.take_length] at htable hout
  obtain rfl : T₁ = commitAll T xs := htable
  exact ⟨out, hrun, hout⟩

/-! ### The commit of a context -/

theorem UeCtx.Listed.drbTunnels_eq {ctx : UeCtx} (h : ctx.Listed) :
    ctx.drbTunnelList.firstN ctx.drbCount = ctx.drbTunnels.map some ∧
      ctx.drbCount ≤ maxDrbPerUe :=
  ⟨CArray.firstN_eq_map_some h.drb, CArray.le_of_deref? h.drb⟩

theorem UeCtx.Listed.pdusTunnels_eq {ctx : UeCtx} (h : ctx.Listed) :
    ctx.pdusTunnelList.firstN ctx.pdusCount = ctx.pdusTunnels.map some ∧
      ctx.pdusCount ≤ maxPdusPerUe :=
  ⟨CArray.firstN_eq_map_some h.pdus, CArray.le_of_deref? h.pdus⟩

/-- What `ue_ctx_commit` of row `n` makes of the lists of the row. -/
structure ListsCommitted (T : TunnelTable D) (ctx ctx' : UeCtx) : Prop where
  drbCount : ctx'.drbCount = (stillUsed T ctx.drbTunnels).length
  pdusCount : ctx'.pdusCount = ctx.pdusCount
  drbList : List.ofFn ctx'.drbTunnelList = ctx.packedDrbSlots T
  pdusList : List.ofFn ctx'.pdusTunnelList =
    overwrite ((((ctx.packedDrbSlots T).take ctx.pdusCount).reduceOption).map some)
      (overwrite (committedSlots (commitAll T ctx.drbTunnels) ctx.pdusTunnels)
        (List.ofFn ctx.pdusTunnelList))

theorem packTunnels_eq {m k : Nat}
    (source : CArray k (Option TunnelIdx) → CArray m (Option TunnelIdx)) (count : Nat)
    (list : CArray k (Option TunnelIdx)) :
    packTunnels source count list = packFrom source count list := by
  unfold packTunnels packFrom
  congr 1
  funext i s
  cases (source s.1).get? i with
  | none => rfl
  | some p => cases p <;> rfl

/-- Committing and packing a list in place leaves the tunnels still used, and their
count. -/
theorem commit_pack_eq {m : Nat} (list : CArray m (Option TunnelIdx)) {count : Nat}
    {xs : List TunnelIdx} (hlist : list.firstN count = xs.map some) (hcount : count ≤ m) :
    ∃ l₁ l₂, commitTunnels count (T, list) = some (commitAll T xs, l₁) ∧
      packTunnels (fun l => l) count l₁ = some (l₂, (stillUsed T xs).length) ∧
      List.ofFn l₂ = overwrite ((stillUsed T xs).map some)
        (overwrite (committedSlots T xs) (List.ofFn list)) := by
  obtain ⟨l₁, hcommit, hl₁⟩ := commitTunnels_eq (T := T) list hlist hcount
  obtain ⟨l₂, hpack, hl₂⟩ := packFrom_self l₁ hcount
  have hslots : l₁.firstN count = committedSlots T xs := by
    have hlen : (committedSlots T xs).length = count := by
      have := congrArg List.length hlist
      simp only [CArray.firstN_eq_take, List.length_take, List.length_ofFn,
        List.length_map] at this
      rw [length_committedSlots]
      omega
    rw [CArray.firstN_eq_take, hl₁, ← hlen, take_length_overwrite]
  rw [hslots] at hpack hl₂
  rw [hl₁] at hl₂
  exact ⟨l₁, l₂, hcommit, (packTunnels_eq ..).trans hpack, hl₂⟩

/-- `ue_ctx_commit` from what its four loops give. -/
theorem ueCtxCommit_of_loops {T₁ T₂ : TunnelTable D}
    {drbs₁ drbs : CArray maxDrbPerUe (Option TunnelIdx)}
    {pdus₁ pdus : CArray maxPdusPerUe (Option TunnelIdx)} {drbCount packed : Nat}
    (hup : S.ue.ueCtxHashtable.isSome = true)
    (commitDrb : commitTunnels (S.ue.ueCtxTable n).drbCount
      (S.tun, (S.ue.ueCtxTable n).drbTunnelList) = some (T₁, drbs₁))
    (packDrb : packTunnels (fun l => l) (S.ue.ueCtxTable n).drbCount drbs₁ =
      some (drbs, drbCount))
    (commitPdus : commitTunnels (S.ue.ueCtxTable n).pdusCount
      (T₁, (S.ue.ueCtxTable n).pdusTunnelList) = some (T₂, pdus₁))
    (packPdus : packTunnels (fun _ => drbs) (S.ue.ueCtxTable n).pdusCount pdus₁ =
      some (pdus, packed)) :
    ∃ ret S', ueCtxCommit S (some n) = some (ret, S') ∧
      S'.ue.ueCtxTable n = (S.ue.ueCtxTable n).packed drbs drbCount pdus := by
  have hdown := UeCtxTable.not_isNone_of_up hup
  let U := S.ue.setRow n ((S.ue.ueCtxTable n).packed drbs drbCount pdus)
  refine ⟨(ueCtxCommitEntry U n).1, ⟨T₂, (ueCtxCommitEntry U n).2⟩, ?_, ?_⟩
  · have hid : packTunnels id (S.ue.ueCtxTable n).drbCount drbs₁ = some (drbs, drbCount) :=
      packDrb
    simp only [ueCtxCommit, hdown, commitDrb, hid, commitPdus, packPdus,
      Option.bind_eq_bind, Option.bind_some]
    rfl
  · rw [ueCtxCommitEntry_row, UeCtxTable.setRow_self]

/-- **The two loops of each list.**  `ue_ctx_commit` of a row whose pointers are all
there runs to its end. -/
theorem ueCtxCommit_lists (hup : S.ue.ueCtxHashtable.isSome = true)
    (hlisted : (S.ue.ueCtxTable n).Listed) :
    ∃ ret S', ueCtxCommit S (some n) = some (ret, S') ∧
      ListsCommitted S.tun (S.ue.ueCtxTable n) (S'.ue.ueCtxTable n) := by
  obtain ⟨hdrbs, hdrbMax⟩ := hlisted.drbTunnels_eq
  obtain ⟨hpdus, hpdusMax⟩ := hlisted.pdusTunnels_eq
  obtain ⟨drbs₁, drbs, hcommit, hpack, hdrbsEq⟩ := commit_pack_eq (T := S.tun) _ hdrbs hdrbMax
  obtain ⟨pdus₁, hcommit', hpdus₁⟩ := commitTunnels_eq
    (T := commitAll S.tun (S.ue.ueCtxTable n).drbTunnels) _ hpdus hpdusMax
  -- The slots read are those of the packed DRB list.
  obtain ⟨pdus, hpack', hpdusEq⟩ := packFrom_other drbs pdus₁ hpdusMax hpdusMax
  have hread : drbs.firstN (S.ue.ueCtxTable n).pdusCount =
      ((S.ue.ueCtxTable n).packedDrbSlots S.tun).take (S.ue.ueCtxTable n).pdusCount := by
    rw [CArray.firstN_eq_take, hdrbsEq, UeCtx.packedDrbSlots]
  rw [hread, hpdus₁] at hpdusEq
  obtain ⟨ret, S', hrun, hrow⟩ :=
    ueCtxCommit_of_loops hup hcommit hpack hcommit' ((packTunnels_eq ..).trans hpack')
  refine ⟨ret, S', hrun, ?_⟩
  rw [hrow]
  exact ⟨rfl, rfl, hdrbsEq, hpdusEq⟩

/-! ### When the lists come out right -/

/-- **The DRB list.**  It always holds the DRB tunnels still used. -/
theorem ListsCommitted.drbList_packed {ctx ctx' : UeCtx} (h : ListsCommitted T ctx ctx') :
    HoldsTunnels ctx'.drbTunnelList ctx'.drbCount (stillUsed T ctx.drbTunnels) := by
  refine ⟨h.drbCount, ?_⟩
  have hlen : ((stillUsed T ctx.drbTunnels).map some).length = ctx'.drbCount := by
    rw [List.length_map, h.drbCount]
  rw [CArray.firstN_eq_take, h.drbList, UeCtx.packedDrbSlots, ← hlen, take_length_overwrite]

/-- The PDU-session list holds the PDU-session tunnels still used exactly when the
packing loop has nothing to do and does nothing. -/
theorem ListsCommitted.pdusList_packed_iff {ctx ctx' : UeCtx} (h : ListsCommitted T ctx ctx')
    (hlisted : ctx.Listed) :
    HoldsTunnels ctx'.pdusTunnelList ctx'.pdusCount
        (stillUsed (commitAll T ctx.drbTunnels) ctx.pdusTunnels) ↔
      PdusListSpared T ctx := by
  obtain ⟨hpdus, hmax⟩ := hlisted.pdusTunnels_eq
  have hlen : ctx.pdusTunnels.length = ctx.pdusCount := by
    have := congrArg List.length hpdus
    simp only [CArray.firstN_eq_take, List.length_take, List.length_ofFn,
      List.length_map] at this
    omega
  rw [HoldsTunnels, PdusListSpared, h.pdusCount, ← hlen, length_stillUsed_iff]
  refine and_congr_right fun hall => ?_
  generalize hread : (((ctx.packedDrbSlots T).take ctx.pdusTunnels.length).reduceOption) = read
  have hfits : (read.map some).length ≤ ctx.pdusTunnels.length := by
    rw [List.length_map, ← hread]
    exact Nat.le_trans (List.reduceOption_length_le _) (List.length_take_le _ _)
  -- All the tunnels are still used, so their slots are as they were.
  have hslots := committedSlots_of_all_used hall
  have hfront : ctx'.pdusTunnelList.firstN ctx.pdusTunnels.length =
      overwrite (read.map some) (ctx.pdusTunnels.map some) := by
    rw [CArray.firstN_eq_take, h.pdusList, ← hlen, hread, take_overwrite hfits, hslots]
    congr 1
    rw [← List.length_map some, take_length_overwrite]
  rw [hfront, hall, overwrite_eq_self_iff,
    List.prefix_map_iff_of_injective (Option.some_injective _)]

/-- **When a commit packs both lists.**  For every context whose pointers are all
there: exactly when its PDU-session list is spared. -/
theorem ueCtxCommit_packs_iff (hup : S.ue.ueCtxHashtable.isSome = true)
    (hlisted : (S.ue.ueCtxTable n).Listed) :
    ∃ ret S', ueCtxCommit S (some n) = some (ret, S') ∧
      (CommitPacks S n S' ↔ PdusListSpared S.tun (S.ue.ueCtxTable n)) := by
  obtain ⟨ret, S', hrun, hlists⟩ := ueCtxCommit_lists hup hlisted
  refine ⟨ret, S', hrun, ?_⟩
  rw [← hlists.pdusList_packed_iff hlisted]
  exact ⟨fun h => h.pdus, fun h => ⟨hlists.drbList_packed, h⟩⟩

/-! ### The commit of a first session -/

/-- The tables when a first session is about to be committed: `served` is what
`pdus_setup` left, and `n` the row of the UE. -/
def beforeCommit (n : UeIdx) (served : PdusServed listDpdk PdusSetupSuccRspInfo) :
    Cuup listDpdk :=
  ⟨served.tun, (UeCtxTable.init listDpdk).cleared.setRow n served.ctx⟩

theorem ueCtxCommit_packs_iff_first : ∃ served,
    pdusSetup upfEnv (TunnelTable.init listDpdk) UeCtx.zero onePdus
      (setupRsp.pdusSuccList 0) = some served ∧
    ∃ ret S', ueCtxCommit (beforeCommit 1 served) (some 1) = some (ret, S') ∧
      (CommitPacks (beforeCommit 1 served) 1 S' ↔
        PdusListSpared (beforeCommit 1 served).tun ((beforeCommit 1 served).ue.ueCtxTable 1)) := by
  have hdec : ((pdusSetup upfEnv (TunnelTable.init listDpdk) UeCtx.zero onePdus
      (setupRsp.pdusSuccList 0)).map fun served =>
        decide ((∀ i, i < served.ctx.drbCount →
            (served.ctx.drbTunnelList.deref? i).isSome = true) ∧
          ∀ i, i < served.ctx.pdusCount →
            (served.ctx.pdusTunnelList.deref? i).isSome = true)) = some true := by
    decide
  obtain ⟨served, hserved, hfacts⟩ := Option.map_eq_some_iff.mp hdec
  obtain ⟨hdrb, hpdus⟩ := of_decide_eq_true hfacts
  have hrow : (beforeCommit 1 served).ue.ueCtxTable 1 = served.ctx := UeCtxTable.setRow_self _
  exact ⟨served, hserved, ueCtxCommit_packs_iff rfl (by rw [hrow]; exact ⟨hdrb, hpdus⟩)⟩

/-- The PDU-session list of the UE holds the tunnel of the DRB after its commit. -/
theorem first_session_not_packed :
    ¬ ∀ (S : Cuup listDpdk) n ret S', (S.ue.ueCtxTable n).Listed →
      ueCtxCommit S (some n) = some (ret, S') → CommitPacks S n S' := by
  intro h
  have hdec : ((pdusSetup upfEnv (TunnelTable.init listDpdk) UeCtx.zero onePdus
      (setupRsp.pdusSuccList 0)).bind fun served =>
        (ueCtxCommit (beforeCommit 1 served) (some 1)).map fun out =>
          decide ((∀ i, i < served.ctx.drbCount →
              (served.ctx.drbTunnelList.deref? i).isSome = true) ∧
            (∀ i, i < served.ctx.pdusCount →
              (served.ctx.pdusTunnelList.deref? i).isSome = true) ∧
            (out.2.ue.ueCtxTable 1).pdusTunnelList.firstN
                (out.2.ue.ueCtxTable 1).pdusCount ≠
              (stillUsed (commitAll served.tun served.ctx.drbTunnels)
                served.ctx.pdusTunnels).map some)) = some true := by
    decide
  obtain ⟨served, _, hmap⟩ := Option.bind_eq_some_iff.mp hdec
  obtain ⟨⟨ret, S'⟩, hcommit, hfacts⟩ := Option.map_eq_some_iff.mp hmap
  obtain ⟨hdrb, hpdus, hne⟩ := of_decide_eq_true hfacts
  have hrow : (beforeCommit 1 served).ue.ueCtxTable 1 = served.ctx := UeCtxTable.setRow_self _
  have hpacks := h (beforeCommit 1 served) 1 ret S' (by rw [hrow]; exact ⟨hdrb, hpdus⟩) hcommit
  have hlist := hpacks.pdus.2
  rw [hrow] at hlist
  exact hne hlist

end Pfm
