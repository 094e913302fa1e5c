import Pfm.ListPacking
import Pfm.SessionRefusal

/-!
# The DRBs a session modification removes

The two indices of the search in `pdus_modify` are the wrong way round: turn `i`
of the loop over the removals looks for the `i`-th tunnel of the context among the
first `drb_count` entries of the remove list.

* `guardedRemoveDrb` : the same turn, where a read at or behind a count faults;
* `removeDrbs_inv` : what the turns taken so far have marked;
* `drbRemoves_iff` : when exactly the tunnels asked for are marked.
-/

namespace Pfm

open BoundedLoop StepSystem TunnelTable

variable {D : Dpdk} {T W W' : TunnelTable D} {ctx : UeCtx} {req : PdusModifyReqInfo}

/-- The table with other used flags. -/
def TunnelTable.withUsed (T : TunnelTable D) (used : TunnelIdx → Bool) : TunnelTable D :=
  { T with tunnelTable := fun x => { T.tunnelTable x with isRowUsed := used x } }

/-- A turn of the loop over the removals, with the reads of the two lists as
parameters. -/
def removeDrbTurn (tunnel : Nat → Option TunnelIdx) (removal : Nat → Option DrbRemoveReqInfo)
    (drbCount i : Nat) (T : TunnelTable D) : Option (TunnelTable D) := do
  let found ← firstIndex (fun j => do
    let nt ← tunnel i
    let item ← removal j
    some ((T.tunnelTable nt).info.drbIdByte == item.drbId)) drbCount
  match found with
  | none => some T
  | some _ => do
      let nt ← tunnel i
      some (tunnelRemove T (T.tunnelTable nt).key).2

theorem pdusModifyRemoveDrb_eq (req : PdusModifyReqInfo) (ctx : UeCtx) (i : Nat)
    (T : TunnelTable D) : pdusModifyRemoveDrb req ctx i T =
      removeDrbTurn ctx.drbTunnelList.deref? req.drbRemoveList.get? ctx.drbCount i T := rfl

/-- The turn, where every read at or behind a count faults. -/
def guardedRemoveDrb (req : PdusModifyReqInfo) (ctx : UeCtx) (i : Nat) (T : TunnelTable D) :
    Option (TunnelTable D) :=
  removeDrbTurn (below ctx.drbCount ctx.drbTunnelList.deref?)
    (below req.drbRemoveCount req.drbRemoveList.get?) ctx.drbCount i T

/-- The request names the DRB of a tunnel among those to remove. -/
def DrbNamed (T : TunnelTable D) (req : PdusModifyReqInfo) (x : TunnelIdx) : Prop :=
  ∃ j item, j < req.drbRemoveCount ∧ req.drbRemoveList.get? j = some item ∧
    (T.tunnelTable x).info.drbIdByte = item.drbId

/-- A DRB tunnel of the context that the request names. -/
def DrbToRemove (T : TunnelTable D) (ctx : UeCtx) (req : PdusModifyReqInfo) (x : TunnelIdx) :
    Prop :=
  ∃ i, i < ctx.drbCount ∧ ctx.drbTunnelList.deref? i = some x ∧ DrbNamed T req x

/-- What the first `k` turns mark: the rows that the keys of named tunnels map to. -/
def MarkedBy (T : TunnelTable D) (ctx : UeCtx) (req : PdusModifyReqInfo) (k : Nat)
    (y : TunnelIdx) : Prop :=
  ∃ i x, i < k ∧ ctx.drbTunnelList.deref? i = some x ∧ DrbNamed T req x ∧
    T.rowOf (T.tunnelTable x).key = some y

/-- The phase reads nothing at or behind a count, marks exactly the tunnels to remove,
and changes nothing else. -/
def RemovesNamed (T : TunnelTable D) (ctx : UeCtx) (req : PdusModifyReqInfo) : Prop :=
  ∃ T', forRange (pdusModifyRemoveDrb req ctx) req.drbRemoveCount T = some T' ∧
    forRange (guardedRemoveDrb req ctx) req.drbRemoveCount T = some T' ∧
    T' = T.withUsed T'.used ∧
    ∀ x, T'.used x = true ↔ T.used x = true ∧ ¬ DrbToRemove T ctx req x

/-- The swapped indices do no harm. -/
def RemovalFits (T : TunnelTable D) (ctx : UeCtx) (req : PdusModifyReqInfo) : Prop :=
  ctx.drbCount = 0 ∨ req.drbRemoveCount = 0 ∨
  (req.drbRemoveCount ≤ ctx.drbCount ∧
    (req.drbRemoveCount < ctx.drbCount → ∀ i x, i < req.drbRemoveCount →
      ctx.drbTunnelList.deref? i = some x → DrbNamed T req x) ∧
    ∀ x, T.used x = true →
      (MarkedBy T ctx req req.drbRemoveCount x ↔ DrbToRemove T ctx req x))

/-! ### One removal -/

theorem tunnelRemove_used (T : TunnelTable D) (key : TunnelKey) (y : TunnelIdx) :
    (tunnelRemove T key).2.used y = true ↔ T.used y = true ∧ T.rowOf key ≠ some y := by
  rcases tunnelRemove_cases T key with ⟨r, hr, he⟩ | ⟨hr, ret, -, he⟩
  · rw [he, used_setUsed, hr]
    by_cases hy : y = r
    · simp [hy]
    · simp [hy, Ne.symm hy]
  · simp [he, hr]

theorem tunnelRemove_withUsed (T : TunnelTable D) (key : TunnelKey) :
    (tunnelRemove T key).2 = T.withUsed (tunnelRemove T key).2.used := by
  rcases tunnelRemove_cases T key with ⟨r, -, he⟩ | ⟨-, ret, -, he⟩
  · rw [he]
    simp only [withUsed, setUsed, setRow]
    congr 1
    funext y
    by_cases hy : y = r
    · subst hy
      simp [used]
    · simp [used, hy]
  · rw [he]
    rfl

/-! ### One turn -/

/-- A turn with reads that fault less often. -/
theorem removeDrbTurn_mono {tunnel tunnel' : Nat → Option TunnelIdx}
    {removal removal' : Nat → Option DrbRemoveReqInfo} {drbCount i : Nat}
    (htunnel : ∀ i x, tunnel i = some x → tunnel' i = some x)
    (hremoval : ∀ j item, removal j = some item → removal' j = some item)
    (h : removeDrbTurn tunnel removal drbCount i W = some W') :
    removeDrbTurn tunnel' removal' drbCount i W = some W' := by
  obtain ⟨found, hfound, h⟩ := Option.bind_eq_some_iff.mp h
  refine Option.bind_eq_some_iff.mpr ⟨found, ?_, ?_⟩
  · apply firstIndex_mono _ hfound
    intro j b hb
    obtain ⟨nt, hnt, hb⟩ := Option.bind_eq_some_iff.mp hb
    obtain ⟨item, hitem, hb⟩ := Option.bind_eq_some_iff.mp hb
    exact Option.bind_eq_some_iff.mpr ⟨nt, htunnel i nt hnt,
      Option.bind_eq_some_iff.mpr ⟨item, hremoval j item hitem, hb⟩⟩
  · cases found with
    | none => exact h
    | some j =>
        obtain ⟨nt, hnt, h⟩ := Option.bind_eq_some_iff.mp h
        exact Option.bind_eq_some_iff.mpr ⟨nt, htunnel i nt hnt, h⟩

/-- The turn of the code does what the guarded one does when that does not fault. -/
theorem pdusModifyRemoveDrb_of_guarded {i : Nat} (h : guardedRemoveDrb req ctx i W = some W') :
    pdusModifyRemoveDrb req ctx i W = some W' :=
  removeDrbTurn_mono (fun _ _ hx => (lt_of_below hx).2) (fun _ _ hx => (lt_of_below hx).2) h

/-- **The guarded turn.**  It removes the `i`-th tunnel when that is named; otherwise it
goes to the end of the remove list, which has to be as long as the tunnel list. -/
theorem guardedRemoveDrb_iff {i : Nat} {x : TunnelIdx} (hx : ctx.drbTunnelList.deref? i = some x)
    (hi : i < req.drbRemoveCount) (hle : req.drbRemoveCount ≤ ctx.drbCount)
    (hlist : req.drbRemoveCount ≤ maxDrbPerPdus) :
    guardedRemoveDrb req ctx i W = some W' ↔
      (DrbNamed W req x ∧ W' = (tunnelRemove W (W.tunnelTable x).key).2) ∨
      (¬ DrbNamed W req x ∧ req.drbRemoveCount = ctx.drbCount ∧ W' = W) := by
  let test (j : Nat) : Option Bool := do
    let item ← below req.drbRemoveCount req.drbRemoveList.get? j
    some ((W.tunnelTable x).info.drbIdByte == item.drbId)
  have hread : below ctx.drbCount ctx.drbTunnelList.deref? i = some x := by
    rw [below_of_lt _ (Nat.lt_of_lt_of_le hi hle), hx]
  have hturn : guardedRemoveDrb req ctx i W = (firstIndex test ctx.drbCount).bind fun found =>
      match found with
      | none => some W
      | some _ => some (tunnelRemove W (W.tunnelTable x).key).2 := by
    simp only [guardedRemoveDrb, removeDrbTurn, hread, Option.bind_eq_bind, Option.bind_some]
    rfl
  have htest {j : Nat} (hj : j < req.drbRemoveCount) : ∃ item,
      req.drbRemoveList.get? j = some item ∧
      test j = some ((W.tunnelTable x).info.drbIdByte == item.drbId) := by
    have hget := req.drbRemoveList.get?_of_lt (Nat.lt_of_lt_of_le hj hlist)
    exact ⟨_, hget, by simp [test, below_of_lt _ hj, hget]⟩
  have hfault {j : Nat} (hj : req.drbRemoveCount ≤ j) : test j = none := by
    simp [test, below, Nat.not_lt.mpr hj]
  have htrue {j : Nat} : test j = some true ↔ ∃ item, j < req.drbRemoveCount ∧
      req.drbRemoveList.get? j = some item ∧
      (W.tunnelTable x).info.drbIdByte = item.drbId := by
    constructor
    · intro h
      obtain ⟨item, hitem, h⟩ := Option.bind_eq_some_iff.mp h
      obtain ⟨hj, hget⟩ := lt_of_below hitem
      exact ⟨item, hj, hget, eq_of_beq (Option.some.inj h)⟩
    · intro h
      obtain ⟨item, hj, hget, heq⟩ := h
      simp [test, below_of_lt _ hj, hget, heq]
  -- below the count every read of the remove list succeeds, behind it none does
  have hread' {j : Nat} (hj : j < req.drbRemoveCount) : ∃ b, test j = some b := by
    have hget := req.drbRemoveList.get?_of_lt (Nat.lt_of_lt_of_le hj hlist)
    exact ⟨_, by simp [test, below_of_lt _ hj, hget]; rfl⟩
  have hfault {j : Nat} (hj : req.drbRemoveCount ≤ j) : test j = none := by
    simp [test, below, Nat.not_lt.mpr hj]
  rw [hturn, Option.bind_eq_some_iff]
  constructor
  · intro h
    obtain ⟨found, hfound, h⟩ := h
    cases found with
    | some j =>
        obtain ⟨item, hj, hget, heq⟩ := htrue.mp (firstIndex_eq_some_iff.mp hfound).2.1
        exact Or.inl ⟨⟨j, item, hj, hget, heq⟩, (Option.some.inj h).symm⟩
    | none =>
        have hfalse := firstIndex_eq_none_iff.mp hfound
        have hge : ctx.drbCount ≤ req.drbRemoveCount := by
          by_contra hlt
          have hend := hfalse req.drbRemoveCount (by omega)
          rw [hfault (Nat.le_refl _)] at hend
          cases hend
        refine Or.inr ⟨?_, by omega, (Option.some.inj h).symm⟩
        intro hnamed
        obtain ⟨j, item, hj, hget, heq⟩ := hnamed
        have hj' := hfalse j (by omega)
        rw [htrue.mpr ⟨item, hj, hget, heq⟩] at hj'
        cases hj'
  · intro h
    rcases h with ⟨⟨j, item, hj, hget, heq⟩, rfl⟩ | ⟨hnamed, hcount, rfl⟩
    · obtain ⟨found, hfound⟩ := firstIndex_isSome fun j hj => hread' (j := j) hj
      cases found with
      | none =>
          have hj' := firstIndex_eq_none_iff.mp hfound j hj
          rw [htrue.mpr ⟨item, hj, hget, heq⟩] at hj'
          cases hj'
      | some k =>
          obtain ⟨hk, hkt, hkf⟩ := firstIndex_eq_some_iff.mp hfound
          exact ⟨some k, firstIndex_eq_some_iff.mpr ⟨Nat.lt_of_lt_of_le hk hle, hkt, hkf⟩, rfl⟩
    · refine ⟨none, firstIndex_eq_none_iff.mpr ?_, rfl⟩
      intro j hj
      rw [← hcount] at hj
      obtain ⟨b, hb⟩ := hread' hj
      cases b with
      | false => exact hb
      | true =>
          obtain ⟨item, hj, hget, heq⟩ := htrue.mp hb
          exact absurd ⟨j, item, hj, hget, heq⟩ hnamed

/-! ### The loop -/

/-- What the first `k` turns have done. -/
structure RemovedUpTo (T : TunnelTable D) (ctx : UeCtx) (req : PdusModifyReqInfo) (k : Nat)
    (W : TunnelTable D) : Prop where
  rest : W = T.withUsed W.used
  flags : ∀ y, W.used y = true ↔ T.used y = true ∧ ¬ MarkedBy T ctx req k y
  named : req.drbRemoveCount < ctx.drbCount → ∀ i x, i < k →
    ctx.drbTunnelList.deref? i = some x → DrbNamed T req x

namespace RemovedUpTo

variable {i : Nat} {x : TunnelIdx}

theorem start : RemovedUpTo T ctx req 0 T where
  rest := rfl
  flags y := by
    constructor
    · intro h
      refine ⟨h, ?_⟩
      intro hmarked
      obtain ⟨i, x, hi, -⟩ := hmarked
      omega
    · intro h
      exact h.1
  named _ i x hi := by omega

/-- The keys, the ids and the hash are those of the start. -/
theorem key (h : RemovedUpTo T ctx req i W) : (W.tunnelTable x).key = (T.tunnelTable x).key := by
  rw [h.rest]
  rfl

theorem rowOf (h : RemovedUpTo T ctx req i W) (k : TunnelKey) : W.rowOf k = T.rowOf k := by
  rw [h.rest]
  rfl

theorem drbNamed_iff (h : RemovedUpTo T ctx req i W) : DrbNamed W req x ↔ DrbNamed T req x := by
  rw [h.rest]
  rfl

/-- One more turn. -/
theorem turn (h : RemovedUpTo T ctx req i W) (hx : ctx.drbTunnelList.deref? i = some x)
    (hi : i < req.drbRemoveCount) (hle : req.drbRemoveCount ≤ ctx.drbCount)
    (hlist : req.drbRemoveCount ≤ maxDrbPerPdus)
    (hturn : guardedRemoveDrb req ctx i W = some W') : RemovedUpTo T ctx req (i + 1) W' := by
  have hsplit (y : TunnelIdx) : MarkedBy T ctx req (i + 1) y ↔
      MarkedBy T ctx req i y ∨
        (DrbNamed T req x ∧ T.rowOf (T.tunnelTable x).key = some y) := by
    constructor
    · intro hmarked
      obtain ⟨i', x', hi', hx', hnamed, hrow⟩ := hmarked
      rcases Nat.lt_succ_iff_lt_or_eq.mp hi' with hlt | rfl
      · exact Or.inl ⟨i', x', hlt, hx', hnamed, hrow⟩
      · obtain rfl := Option.some.inj (hx'.symm.trans hx)
        exact Or.inr ⟨hnamed, hrow⟩
    · intro hmarked
      rcases hmarked with ⟨i', x', hi', hx', hnamed, hrow⟩ | ⟨hnamed, hrow⟩
      · exact ⟨i', x', Nat.lt_succ_of_lt hi', hx', hnamed, hrow⟩
      · exact ⟨i, x, Nat.lt_succ_self i, hx, hnamed, hrow⟩
  have hnamedUpTo (hcase : req.drbRemoveCount < ctx.drbCount → DrbNamed T req x) :
      req.drbRemoveCount < ctx.drbCount → ∀ i' x', i' < i + 1 →
        ctx.drbTunnelList.deref? i' = some x' → DrbNamed T req x' := by
    intro hlt i' x' hi' hx'
    rcases Nat.lt_succ_iff_lt_or_eq.mp hi' with hi' | rfl
    · exact h.named hlt i' x' hi' hx'
    · obtain rfl := Option.some.inj (hx'.symm.trans hx)
      exact hcase hlt
  rcases (guardedRemoveDrb_iff hx hi hle hlist).mp hturn with ⟨hnamed, hW'⟩ | ⟨hnamed, hcount, rfl⟩
  · rw [h.drbNamed_iff] at hnamed
    rw [h.key] at hW'
    refine ⟨?_, ?_, hnamedUpTo fun _ => hnamed⟩
    · have hself : W' = W.withUsed W'.used := by
        rw [hW']
        exact tunnelRemove_withUsed W _
      calc W' = W.withUsed W'.used := hself
        _ = (T.withUsed W.used).withUsed W'.used := by rw [← h.rest]
        _ = T.withUsed W'.used := rfl
    · intro y
      rw [hW', tunnelRemove_used, h.flags, h.rowOf, hsplit]
      constructor
      · intro hy
        exact ⟨hy.1.1, fun hmarked => hmarked.elim hy.1.2 fun hrow => hy.2 hrow.2⟩
      · intro hy
        exact ⟨⟨hy.1, fun hmarked => hy.2 (Or.inl hmarked)⟩,
          fun hrow => hy.2 (Or.inr ⟨hnamed, hrow⟩)⟩
  · rw [h.drbNamed_iff] at hnamed
    refine ⟨h.rest, ?_, hnamedUpTo fun hlt => by omega⟩
    intro y
    rw [h.flags, hsplit]
    constructor
    · intro hy
      exact ⟨hy.1, fun hmarked => hmarked.elim hy.2 fun hrow => hnamed hrow.1⟩
    · intro hy
      exact ⟨hy.1, fun hmarked => hy.2 (Or.inl hmarked)⟩

end RemovedUpTo

/-- Without DRBs nothing is looked for. -/
theorem guardedRemoveDrb_of_no_drb (h : ctx.drbCount = 0) (i : Nat) :
    guardedRemoveDrb req ctx i W = some W := by
  simp only [guardedRemoveDrb, removeDrbTurn, h, firstIndex_zero]
  rfl

theorem removesNamed_of_no_drb (h : ctx.drbCount = 0) : RemovesNamed T ctx req := by
  have hloop : ∃ T', forRange (guardedRemoveDrb req ctx) req.drbRemoveCount T = some T' ∧
      T' = T := by
    apply forRange_isSome (fun _ W => W = T) rfl
    intro i W _ hW
    exact ⟨W, guardedRemoveDrb_of_no_drb h i, hW⟩
  obtain ⟨T', hrun, rfl⟩ := hloop
  refine ⟨T', forRange_mono (fun _ _ _ => pdusModifyRemoveDrb_of_guarded) hrun, hrun, rfl, ?_⟩
  intro x
  refine (and_iff_left ?_).symm
  intro hremove
  obtain ⟨i, hi, -⟩ := hremove
  omega

theorem removesNamed_of_no_removal (h : req.drbRemoveCount = 0) : RemovesNamed T ctx req := by
  refine ⟨T, by rw [h]; rfl, by rw [h]; rfl, rfl, ?_⟩
  intro x
  refine (and_iff_left ?_).symm
  intro hremove
  obtain ⟨i, -, -, j, item, hj, -⟩ := hremove
  omega

/-- The last turn reads the tunnel at its index. -/
theorem removals_le_of_run {T' : TunnelTable D} (hC : 0 < ctx.drbCount)
    (hrun : forRange (guardedRemoveDrb req ctx) req.drbRemoveCount T = some T') :
    req.drbRemoveCount ≤ ctx.drbCount := by
  rcases Nat.eq_zero_or_pos req.drbRemoveCount with hR | hR
  · omega
  obtain ⟨u, v, hlast⟩ := forRange_turn hrun (i := req.drbRemoveCount - 1) (by omega)
  obtain ⟨found, hfound, -⟩ := Option.bind_eq_some_iff.mp hlast
  have hread : ∃ b, (do
      let nt ← below ctx.drbCount ctx.drbTunnelList.deref? (req.drbRemoveCount - 1)
      let item ← below req.drbRemoveCount req.drbRemoveList.get? 0
      some ((u.tunnelTable nt).info.drbIdByte == item.drbId)) = some b := by
    cases found with
    | none => exact ⟨false, firstIndex_eq_none_iff.mp hfound 0 hC⟩
    | some j =>
        obtain ⟨-, htrue, hfalse⟩ := firstIndex_eq_some_iff.mp hfound
        rcases Nat.eq_zero_or_pos j with rfl | hj
        · exact ⟨true, htrue⟩
        · exact ⟨false, hfalse 0 hj⟩
  obtain ⟨b, hb⟩ := hread
  obtain ⟨nt, hnt, -⟩ := Option.bind_eq_some_iff.mp hb
  have hlt := (lt_of_below hnt).1
  omega

/-- What the turns have done at the end of a run that does not fault. -/
theorem removedUpTo_of_run {T' : TunnelTable D} (hlisted : ctx.DrbsListed)
    (hle : req.drbRemoveCount ≤ ctx.drbCount)
    (hrun : forRange (guardedRemoveDrb req ctx) req.drbRemoveCount T = some T') :
    RemovedUpTo T ctx req req.drbRemoveCount T' := by
  apply forRange_invariant (RemovedUpTo T ctx req) .start _ hrun
  intro i W W' hi hW hturn
  obtain ⟨x, hx⟩ := Option.isSome_iff_exists.mp (hlisted i (Nat.lt_of_lt_of_le hi hle))
  exact hW.turn hx hi hle (Nat.le_trans hle (hlisted.count_le)) hturn

/-- The turns do not fault when every tunnel they look at is named, or the lists are
equally long. -/
theorem run_of_named (hlisted : ctx.DrbsListed)
    (hle : req.drbRemoveCount ≤ ctx.drbCount)
    (hnamed : req.drbRemoveCount < ctx.drbCount → ∀ i x, i < req.drbRemoveCount →
      ctx.drbTunnelList.deref? i = some x → DrbNamed T req x) :
    ∃ T', forRange (guardedRemoveDrb req ctx) req.drbRemoveCount T = some T' ∧
      RemovedUpTo T ctx req req.drbRemoveCount T' := by
  have hlist := Nat.le_trans hle (hlisted.count_le)
  apply forRange_isSome (RemovedUpTo T ctx req) .start
  intro i W hi hW
  obtain ⟨x, hx⟩ := Option.isSome_iff_exists.mp (hlisted i (Nat.lt_of_lt_of_le hi hle))
  have hturn : ∃ W', guardedRemoveDrb req ctx i W = some W' := by
    by_cases hx' : DrbNamed W req x
    · exact ⟨_, (guardedRemoveDrb_iff hx hi hle hlist).mpr (Or.inl ⟨hx', rfl⟩)⟩
    · have hcount : req.drbRemoveCount = ctx.drbCount := by
        by_contra hne
        exact hx' (hW.drbNamed_iff.mpr (hnamed (by omega) i x hi hx))
      exact ⟨_, (guardedRemoveDrb_iff hx hi hle hlist).mpr (Or.inr ⟨hx', hcount, rfl⟩)⟩
  obtain ⟨W', hturn⟩ := hturn
  exact ⟨W', hturn, hW.turn hx hi hle hlist hturn⟩

/-- **Removing DRBs.**  In a context with no NULL pointer below its count the phase marks
exactly the DRBs named, and reads nothing behind the counts, when there is nothing to
search or the swapped indices lead to the same tunnels. -/
theorem drbRemoves_iff (hlisted : ctx.DrbsListed) :
    RemovesNamed T ctx req ↔ RemovalFits T ctx req := by
  constructor
  · intro h
    rcases Nat.eq_zero_or_pos ctx.drbCount with hC | hC
    · exact Or.inl hC
    obtain ⟨T', -, hrun, -, hflags⟩ := h
    have hle := removals_le_of_run hC hrun
    have hinv := removedUpTo_of_run hlisted hle hrun
    refine Or.inr (Or.inr ⟨hle, hinv.named, ?_⟩)
    intro x hused
    have hflag := (hflags x).symm.trans (hinv.flags x)
    simp only [hused, true_and] at hflag
    exact (not_iff_not.mp hflag).symm
  · intro h
    rcases h with hC | hR | ⟨hle, hnamed, hmarked⟩
    · exact removesNamed_of_no_drb hC
    · exact removesNamed_of_no_removal hR
    · obtain ⟨T', hrun, hinv⟩ := run_of_named hlisted hle hnamed
      refine ⟨T', forRange_mono (fun _ _ _ => pdusModifyRemoveDrb_of_guarded) hrun, hrun,
        hinv.rest, ?_⟩
      intro x
      rw [hinv.flags x]
      constructor
      · intro hx
        exact ⟨hx.1, fun hremove => hx.2 ((hmarked x hx.1).mpr hremove)⟩
      · intro hx
        exact ⟨hx.1, fun hmark => hx.2 ((hmarked x hx.1).mp hmark)⟩

/-- A setup request for one PDU session with the DRBs 1 and 2. -/
def twoDrbSetup : E1apCall listDpdk :=
  .setup upfEnv ⟨9, 1, fun _ => ⟨5, 2, upfIp, 80, fun i => ⟨UInt8.ofNat (i.val + 1), upfIp, 70⟩⟩⟩
    setupRsp

/-- A request to remove `count` DRBs, the first of them `first` and the others `rest`. -/
def removeReq (count : Nat) (first rest : UInt8) : PdusModifyReqInfo where
  pdusId := 5
  drbSetupCount := 0
  drbModifyCount := 0
  drbRemoveCount := count
  drbSetupList _ := oneDrb
  drbModifyList _ := ⟨0⟩
  drbRemoveList i := if i.val = 0 then ⟨first⟩ else ⟨rest⟩

/-- Both DRBs are asked for, in either order. -/
theorem drbRemoves_iff_both : ∃ S,
    exec e1apStep (Cuup.init listDpdk) [twoDrbSetup, twoDrbSetup] = some S ∧
      (RemovesNamed S.tun (S.ue.ueCtxTable 1) (removeReq 2 2 1) ↔
        RemovalFits S.tun (S.ue.ueCtxTable 1) (removeReq 2 2 1)) := by
  have hdec : ((exec e1apStep (Cuup.init listDpdk) [twoDrbSetup, twoDrbSetup]).map fun S =>
      decide (S.ue.ueCtxTable 1).DrbsListed) = some true := by
    decide
  obtain ⟨S, hS, hlisted⟩ := Option.map_eq_some_iff.mp hdec
  exact ⟨S, hS, drbRemoves_iff (of_decide_eq_true hlisted)⟩

/-- A UE with the DRBs 1 and 2 is asked to remove DRB 2 alone: only the tunnel of DRB 1
is looked at, and the remove list is read behind its count. -/
theorem secondDrb_not_removed :
    ¬ ∀ (T : TunnelTable listDpdk) (ctx : UeCtx) (req : PdusModifyReqInfo),
      ctx.DrbsListed → RemovesNamed T ctx req := by
  intro h
  have hdec : ((exec e1apStep (Cuup.init listDpdk) [twoDrbSetup, twoDrbSetup]).map fun S =>
      decide ((S.ue.ueCtxTable 1).DrbsListed ∧
        (forRange (guardedRemoveDrb (removeReq 1 2 0) (S.ue.ueCtxTable 1)) 1 S.tun).isSome =
          false)) = some true := by
    decide
  obtain ⟨S, hS, hfacts⟩ := Option.map_eq_some_iff.mp hdec
  obtain ⟨hlisted, hfault⟩ := of_decide_eq_true hfacts
  obtain ⟨T', -, hrun, -⟩ := h S.tun (S.ue.ueCtxTable 1) (removeReq 1 2 0) hlisted
  have hsome : (forRange (guardedRemoveDrb (removeReq 1 2 0) (S.ue.ueCtxTable 1)) 1 S.tun).isSome =
      true := by
    change forRange _ 1 _ = _ at hrun
    rw [hrun]
    rfl
  rw [hfault] at hsome
  cases hsome

end Pfm
