import Pfm.BearerContext
import Pfm.BearerResidue
import Pfm.UeCtxSpec

/-!
# UE contexts on tables with different free rows

The UE tables are alike when their hash, cursors and used flags are the same, when
every row has the same residue, the fields that `ue_ctx_modify` leaves as they are in
the row it takes, and when the rows that an id maps to are alike as contexts.  Every
function of `ue_ctx.c` does the same on both sides.
-/

namespace Pfm

open BoundedLoop CircularScan TwoRuns UeCtxTable

variable {D : Dpdk} {env : Env D} {T T' : TunnelTable D} {U U' : UeCtxTable D}
  {S S' : Cuup D} {A B : Set TunnelIdx} {ctx ctx' : UeCtx} {n : UeIdx} {id : UInt32}

/-- What is left of a row when it is taken: the CU-CP id, the flow count, and the DRB
slots, of which those past the count stay. -/
def UeCtx.residue (c : UeCtx) : UeCtx :=
  { c with
    cuupUeId := 0
    pdusCount := 0
    drbCount := 0
    isRowUsed := false
    pdusTunnelList := fun _ => none }

theorem UeCtx.residue_eq_iff {c c' : UeCtx} : c'.residue = c.residue ↔
    c'.cucpUeId = c.cucpUeId ∧ c'.newUlFlowDetectedCount = c.newUlFlowDetectedCount ∧
      c'.drbTunnelList = c.drbTunnelList := by
  simp only [UeCtx.residue, UeCtx.mk.injEq, true_and]

theorem CtxAlike.residue (h : CtxAlike A ctx ctx') : ctx'.residue = ctx.residue :=
  UeCtx.residue_eq_iff.mpr ⟨h.cucpUeId, h.newUl, h.drbList⟩

/-- The UE tables of two sides. -/
structure UesAlike (A : Set TunnelIdx) (U U' : UeCtxTable D) : Prop where
  hash : U'.ueCtxHashtable = U.ueCtxHashtable
  slot : U'.lastAllocatedSlot = U.lastAllocatedSlot
  id : U'.lastAssignedId = U.lastAssignedId
  used : ∀ n, U'.used n = U.used n
  residue : ∀ n, (U'.ueCtxTable n).residue = (U.ueCtxTable n).residue
  drbIn : ∀ n i r, (U.ueCtxTable n).drbTunnelList.deref? i = some r → r ∈ A
  mapped : ∀ id n, U.rowOf id = some n → CtxAlike A (U.ueCtxTable n) (U'.ueCtxTable n)

/-- Both tables of two sides. -/
structure CuupAlike (A : Set TunnelIdx) (S S' : Cuup D) : Prop where
  tun : TunnelsAlike A S.tun S'.tun
  ue : UesAlike A S.ue S'.ue

/-- A context with another id and flag. -/
theorem CtxAlike.setHead (h : CtxAlike A ctx ctx') (id : UInt32) (b : Bool) :
    CtxAlike A { ctx with cuupUeId := id, isRowUsed := b }
      { ctx' with cuupUeId := id, isRowUsed := b } :=
  { h with
    cuupUeId := rfl
    isRowUsed := rfl }

theorem CtxAlike.setFlag (h : CtxAlike A ctx ctx') (b : Bool) :
    CtxAlike A { ctx with isRowUsed := b } { ctx' with isRowUsed := b } :=
  { h with isRowUsed := rfl }

namespace UesAlike

theorem mono (h : UesAlike A U U') (hAB : A ⊆ B) : UesAlike B U U' :=
  { h with
    drbIn := fun n i r hi => hAB (h.drbIn n i r hi)
    mapped := fun id n hn => (h.mapped id n hn).mono hAB }

/-- Two contexts written to the same row.  They must be alike as far as rows in general
are, and as contexts where an id maps to the row. -/
theorem updateRow (h : UesAlike A U U') (n : UeIdx) (hused : ctx'.isRowUsed = ctx.isRowUsed)
    (hres : ctx'.residue = ctx.residue)
    (hin : ∀ i r, ctx.drbTunnelList.deref? i = some r → r ∈ A)
    (hmapped : ∀ id, U.rowOf id = some n → CtxAlike A ctx ctx') :
    UesAlike A (U.setRow n ctx) (U'.setRow n ctx') where
  hash := h.hash
  slot := h.slot
  id := h.id
  used m := by
    by_cases hm : m = n
    · subst hm
      simpa [UeCtxTable.used] using hused
    · simpa [UeCtxTable.used, setRow_of_ne _ hm] using h.used m
  residue m := by
    by_cases hm : m = n
    · subst hm
      simpa using hres
    · rw [setRow_of_ne _ hm, setRow_of_ne _ hm, h.residue m]
  drbIn m i r hi := by
    by_cases hm : m = n
    · subst hm
      rw [setRow_self] at hi
      exact hin i r hi
    · rw [setRow_of_ne _ hm] at hi
      exact h.drbIn m i r hi
  mapped id m hm := by
    by_cases hmn : m = n
    · subst hmn
      rw [setRow_self, setRow_self]
      exact hmapped id hm
    · rw [setRow_of_ne _ hmn, setRow_of_ne _ hmn]
      exact h.mapped id m hm

theorem setRow (h : UesAlike A U U') (n : UeIdx) (hctx : CtxAlike A ctx ctx') :
    UesAlike A (U.setRow n ctx) (U'.setRow n ctx') :=
  h.updateRow n hctx.isRowUsed hctx.residue hctx.drbIn fun _ _ => hctx

theorem setUsed (h : UesAlike A U U') (n : UeIdx) (b : Bool) :
    UesAlike A (U.setUsed n b) (U'.setUsed n b) :=
  h.updateRow n rfl (h.residue n) (h.drbIn n) fun id hid => (h.mapped id n hid).setFlag b

theorem takeRow (h : UesAlike A U U') (n : UeIdx) (id : UInt32) :
    UesAlike A (U.takeRow n id) (U'.takeRow n id) := by
  have hrow : UesAlike A
      (U.setRow n { U.ueCtxTable n with cuupUeId := id, isRowUsed := true })
      (U'.setRow n { U'.ueCtxTable n with cuupUeId := id, isRowUsed := true }) :=
    h.updateRow n rfl (h.residue n) (h.drbIn n) fun id' hid =>
      (h.mapped id' n hid).setHead id true
  exact { hrow with slot := rfl }

theorem cleared (h : UesAlike A U U') : UesAlike A U.cleared U'.cleared where
  hash := rfl
  slot := h.slot
  id := h.id
  used _ := rfl
  residue n := h.residue n
  drbIn n i r hi := h.drbIn n i r hi
  mapped id n hn := by simp at hn

theorem setId (h : UesAlike A U U') (i : Fin maxUeCount) :
    UesAlike A { U with lastAssignedId := i } { U' with lastAssignedId := i } :=
  ⟨h.hash, h.slot, rfl, h.used, h.residue, h.drbIn, h.mapped⟩

theorem withHash (h : UesAlike A U U') (hash : Option D.ueHash.Table)
    (hmapped : ∀ id n, UeCtxTable.rowOf { U with ueCtxHashtable := hash } id = some n →
      CtxAlike A (U.ueCtxTable n) (U'.ueCtxTable n)) :
    UesAlike A { U with ueCtxHashtable := hash } { U' with ueCtxHashtable := hash } :=
  ⟨rfl, h.slot, h.id, h.used, h.residue, h.drbIn, hmapped⟩

theorem entry (h : UesAlike A U U') : U'.entry = U.entry := by
  funext id
  rw [UeCtxTable.entry, h.hash, UeCtxTable.entry]

end UesAlike

/-! ### Handing out and copying rows -/

theorem ueCtxTableInit_alike (h : UesAlike A U U') (env : Env D)
    (hdown : U.ueCtxHashtable = none) :
    SameResult (UesAlike A) (ueCtxTableInit env U) (ueCtxTableInit env U') := by
  unfold ueCtxTableInit
  split
  · exact ⟨rfl, h.cleared⟩
  · refine ⟨rfl, h.withHash none fun id n hn => ?_⟩
    rw [← hdown] at hn
    exact h.mapped id n hn

theorem ueCtxIdSearch_alike (h : UesAlike A U U') :
    SameResult (UesAlike A) (ueCtxIdSearch U) (ueCtxIdSearch U') := by
  unfold ueCtxIdSearch
  have hscan : scan (fun i => idProbe (D.ueHash.lookup U'.ueCtxHashtable (ueId i)).1)
      U'.lastAssignedId =
      scan (fun i => idProbe (D.ueHash.lookup U.ueCtxHashtable (ueId i)).1)
        U.lastAssignedId := by
    rw [h.hash, h.id]
  rw [hscan]
  cases scan (fun i => idProbe (D.ueHash.lookup U.ueCtxHashtable (ueId i)).1)
      U.lastAssignedId with
  | none => exact ⟨rfl, h⟩
  | some i => exact ⟨rfl, h.setId i⟩

theorem ueCtxIdAlloc_alike (h : UesAlike A U U') (env : Env D) :
    SameResult (UesAlike A) (ueCtxIdAlloc env U) (ueCtxIdAlloc env U') := by
  unfold ueCtxIdAlloc
  rw [h.hash]
  split
  · exact ueCtxIdSearch_alike h
  · rename_i hup
    have hdown : U.ueCtxHashtable = none := by simpa using hup
    have hinit := ueCtxTableInit_alike h env hdown
    generalize ueCtxTableInit env U = x, ueCtxTableInit env U' = y at hinit ⊢
    obtain ⟨ret, U₁⟩ := x
    obtain ⟨ret', U₁'⟩ := y
    obtain ⟨rfl : ret = ret', h₁⟩ := hinit
    cases ret with
    | failed => exact ueCtxIdSearch_alike h₁
    | success | notFound => exact ⟨rfl, h₁⟩

/-- A row handed out in both tables: the same row, for the same id. -/
structure UeHandedAlike (A : Set TunnelIdx) (x y : Option UeIdx × UeCtxTable D) : Prop where
  same : SameResult (UesAlike A) x y
  id : ∀ n, x.1 = some n → (y.2.ueCtxTable n).cuupUeId = (x.2.ueCtxTable n).cuupUeId

theorem UeHandedAlike.refuse (h : UesAlike A U U') : UeHandedAlike A (none, U) (none, U') :=
  ⟨⟨rfl, h⟩, fun _ hn => by cases hn⟩

theorem ueCtxAlloc_alike (h : UesAlike A U U') (id : UInt32) :
    UeHandedAlike A (ueCtxAlloc U id) (ueCtxAlloc U' id) := by
  have hused : U'.used = U.used := funext h.used
  unfold ueCtxAlloc
  rw [hused, h.slot]
  cases scan (fun i => rowProbe (U.used i)) U.lastAllocatedSlot with
  | none => exact .refuse h
  | some n =>
      refine ⟨⟨rfl, h.takeRow n id⟩, fun m hm => ?_⟩
      obtain rfl := Option.some.inj hm
      rw [takeRow_self, takeRow_self]

/-- `ue_ctx_add` once the table is up. -/
theorem ueCtxAdd_up_alike (h : UesAlike A U U') (id : UInt32) :
    UeHandedAlike A
      (if (D.ueHash.lookup U.ueCtxHashtable id).1 = 0 then (none, U) else ueCtxAlloc U id)
      (if (D.ueHash.lookup U'.ueCtxHashtable id).1 = 0 then (none, U')
        else ueCtxAlloc U' id) := by
  rw [h.hash]
  split
  · exact .refuse h
  · exact ueCtxAlloc_alike h id

theorem ueCtxAdd_alike (h : UesAlike A U U') (env : Env D) (id : UInt32) :
    UeHandedAlike A (ueCtxAdd env U id) (ueCtxAdd env U' id) := by
  unfold ueCtxAdd
  by_cases hup : U.ueCtxHashtable.isSome = true
  · have hup' : U'.ueCtxHashtable.isSome = true := by rw [h.hash, hup]
    simp only [hup, hup', if_true]
    exact ueCtxAdd_up_alike h id
  · have hup' : ¬ U'.ueCtxHashtable.isSome = true := by rwa [h.hash]
    have hdown : U.ueCtxHashtable = none := by simpa using hup
    have hinit := ueCtxTableInit_alike h env hdown
    simp only [if_neg hup, if_neg hup']
    generalize ueCtxTableInit env U = x, ueCtxTableInit env U' = y at hinit ⊢
    obtain ⟨ret, U₁⟩ := x
    obtain ⟨ret', U₁'⟩ := y
    obtain ⟨rfl : ret = ret', h₁⟩ := hinit
    cases ret with
    | success => exact ueCtxAdd_up_alike h₁ id
    | failed | notFound => exact .refuse h

/-! ### Lists of tunnels -/

/-- Two lists with the same pointers, all of them in `A`, in the slots `P`. -/
structure SlotsAlike {m : Nat} (A : Set TunnelIdx) (P : Nat → Prop)
    (l l' : CArray m (Option TunnelIdx)) : Prop where
  same : ∀ i, P i → l'.get? i = l.get? i
  inside : ∀ i r, P i → l.deref? i = some r → r ∈ A

section SlotsAlike

variable {m : Nat} {P : Nat → Prop} {l l' : CArray m (Option TunnelIdx)}

theorem SlotsAlike.deref (h : SlotsAlike A P l l') {i : Nat} (hi : P i) :
    l'.deref? i = l.deref? i := by
  rw [CArray.deref?, h.same i hi, CArray.deref?]

theorem SlotsAlike.set (h : SlotsAlike A P l l') {i : Nat} {x : Option TunnelIdx}
    {k k' : CArray m (Option TunnelIdx)} (hx : ∀ r, x = some r → r ∈ A)
    (hk : l.set? i x = some k) (hk' : l'.set? i x = some k') : SlotsAlike A P k k' where
  same j hj := by
    rw [CArray.get?_set? hk, CArray.get?_set? hk', h.same j hj]
  inside j r hj hr := by
    rw [CArray.deref?_set? hk] at hr
    split at hr
    · exact hx r hr
    · exact h.inside j r hj hr

theorem SlotsAlike.eq_of_all (h : SlotsAlike A (fun _ => True) l l') : l' = l := by
  funext i
  have hi := h.same i.val trivial
  rw [CArray.get?_of_lt l' i.isLt, CArray.get?_of_lt l i.isLt] at hi
  exact Option.some.inj hi

end SlotsAlike

theorem CtxAlike.drbSlots (h : CtxAlike A ctx ctx') :
    SlotsAlike A (fun _ => True) ctx.drbTunnelList ctx'.drbTunnelList :=
  ⟨fun i _ => by rw [h.drbList], fun i r _ hr => h.drbIn i r hr⟩

theorem CtxAlike.pdusSlots (h : CtxAlike A ctx ctx') :
    SlotsAlike A (fun i => i < ctx.pdusCount) ctx.pdusTunnelList ctx'.pdusTunnelList :=
  ⟨h.pdusList, fun i r hi hr => h.pdusIn i r hi hr⟩

theorem removeTunnels_alike {m count : Nat} {P : Nat → Prop}
    {l l' : CArray m (Option TunnelIdx)} (hl : SlotsAlike A P l l')
    (hP : ∀ i, i < count → P i) (h : TunnelsAlike A T T') :
    Option.Rel (TunnelsAlike A) (removeTunnels l count T) (removeTunnels l' count T') := by
  refine forRange_rel (fun _ => TunnelsAlike A) h fun i T₁ T₁' hi h₁ => ?_
  rw [hl.deref (hP i hi)]
  apply rel_bind_same
  intro nt hnt
  apply Option.Rel.some
  rw [h₁.agree nt (hl.inside i nt (hP i hi) hnt)]
  exact (tunnelRemove_alike h₁ _).2

theorem rollbackTunnels_alike {m count : Nat} {P : Nat → Prop}
    {l l' : CArray m (Option TunnelIdx)} (hl : SlotsAlike A P l l')
    (hP : ∀ i, i < count → P i) (h : TunnelsAlike A T T') :
    Option.Rel (TunnelsAlike A) (rollbackTunnels l count T) (rollbackTunnels l' count T') := by
  refine forRange_rel (fun _ => TunnelsAlike A) h fun i T₁ T₁' hi h₁ => ?_
  rw [hl.same i (hP i hi)]
  apply rel_bind_same
  intro nt hnt
  apply Option.Rel.some
  cases nt with
  | none =>
      simp only [tunnelRollback, h₁.hash]
      split
      · exact h₁
      · exact h₁
  | some r =>
      have hr := hl.inside i r (hP i hi) (CArray.deref?_eq_some_iff.mpr hnt)
      exact (tunnelRollback_alike h₁ hr).2

/-- Two stages of committing a list. -/
def CommitAlike {m : Nat} (A : Set TunnelIdx) (P : Nat → Prop)
    (s s' : TunnelTable D × CArray m (Option TunnelIdx)) : Prop :=
  TunnelsAlike A s.1 s'.1 ∧ SlotsAlike A P s.2 s'.2

theorem commitTunnels_alike {m count : Nat} {P : Nat → Prop}
    {l l' : CArray m (Option TunnelIdx)} (hl : SlotsAlike A P l l')
    (hP : ∀ i, i < count → P i) (h : TunnelsAlike A T T') :
    Option.Rel (CommitAlike A P) (commitTunnels count (T, l))
      (commitTunnels count (T', l')) := by
  refine forRange_rel (fun _ => CommitAlike A P) ⟨h, hl⟩ ?_
  intro i s s' hi hs
  obtain ⟨h₁, hl₁⟩ := hs
  rw [hl₁.deref (hP i hi)]
  apply rel_bind_same
  intro nt hnt
  have hcommit := (tunnelCommit_alike h₁ (hl₁.inside i nt (hP i hi) hnt)).2
  simp only [hcommit.used nt]
  split
  · exact .some ⟨hcommit, hl₁⟩
  · refine rel_bind (set?_rel s.2 s'.2 i none) fun k k' hk => .some ⟨hcommit, ?_⟩
    exact hl₁.set (fun r hr => by cases hr) hk.1 hk.2

/-- Two stages of packing a list. -/
def PackAlike {m : Nat} (A : Set TunnelIdx) (P : Nat → Prop)
    (s s' : CArray m (Option TunnelIdx) × Nat) : Prop :=
  s'.2 = s.2 ∧ SlotsAlike A P s.1 s'.1

/-- A packing loop whose reads are the same on both sides. -/
theorem packTunnels_alike {m k count : Nat} {P : Nat → Prop}
    {source source' : CArray k (Option TunnelIdx) → CArray m (Option TunnelIdx)}
    {l l' : CArray k (Option TunnelIdx)} (hl : SlotsAlike A P l l')
    (hread : ∀ l l', SlotsAlike A P l l' → ∀ i, i < count →
      (source' l').get? i = (source l).get? i ∧
        ∀ r, (source l).get? i = some (some r) → r ∈ A) :
    Option.Rel (PackAlike A P) (packTunnels source count l) (packTunnels source' count l') := by
  refine forRange_rel (fun _ => PackAlike A P) ⟨rfl, hl⟩ ?_
  intro i s s' hi hs
  obtain ⟨hj, hl₁⟩ := hs
  obtain ⟨hget, hin⟩ := hread s.1 s'.1 hl₁ i hi
  rw [hget, hj]
  apply rel_bind_same
  intro p hp
  cases p with
  | none => exact .some ⟨hj, hl₁⟩
  | some nt =>
      refine rel_bind (set?_rel s.1 s'.1 s.2 (some nt)) fun k k' hk => .some ⟨rfl, ?_⟩
      refine hl₁.set (fun r hr => ?_) hk.1 hk.2
      obtain rfl := Option.some.inj hr
      exact hin nt hp

/-- Two copies of as many slots both stay within the arrays, or neither. -/
theorem copyTunnels_rel {m : Nat} (old old' new new' : CArray m (Option TunnelIdx))
    (count : Nat) : Option.Rel (fun _ _ => True) (copyTunnels old new count)
      (copyTunnels old' new' count) := by
  refine forRange_rel (fun _ _ _ => True) trivial fun i l l' _ _ => ?_
  by_cases hi : i < m
  · rw [CArray.get?_of_lt old hi, CArray.get?_of_lt old' hi]
    simp only [Option.bind_eq_bind, Option.bind_some, CArray.set?_of_lt l hi,
      CArray.set?_of_lt l' hi]
    exact .some trivial
  · simp only [CArray.get?, hi, dite_false]
    exact .none

/-! ### The functions of a context -/

/-- A row of both tables that is alike as a context. -/
def RowAlike (A : Set TunnelIdx) (U U' : UeCtxTable D) (n : UeIdx) : Prop :=
  CtxAlike A (U.ueCtxTable n) (U'.ueCtxTable n)

/-- The row that `ue_ctx_modify` gives. -/
structure UeModifyAlike (A : Set TunnelIdx) (x y : Option UeIdx × UeCtxTable D) : Prop where
  same : SameResult (UesAlike A) x y
  row : ∀ n, x.1 = some n → RowAlike A x.2 y.2 n

theorem UeModifyAlike.refuse (h : UesAlike A U U') :
    UeModifyAlike A (none, U) (none, U') :=
  ⟨⟨rfl, h⟩, fun _ hn => by cases hn⟩

theorem ueCtxAlloc_rowOf {got : Option UeIdx} (h : ueCtxAlloc U id = (got, U')) :
    U'.rowOf = U.rowOf := by
  rcases ueCtxAlloc_cases U id with ⟨_, he⟩ | ⟨n, _, _, he⟩
  · rw [he] at h
    obtain rfl := (Prod.mk.inj h).2
    rfl
  · rw [he] at h
    obtain rfl := (Prod.mk.inj h).2
    rfl

/-- A row that takes over the tunnels of another. -/
theorem CtxAlike.copied {old old' : UeCtx} (hold : CtxAlike A old old')
    (hid : ctx'.cuupUeId = ctx.cuupUeId) (hused : ctx'.isRowUsed = ctx.isRowUsed)
    (hres : ctx'.residue = ctx.residue)
    (hin : ∀ i r, ctx.drbTunnelList.deref? i = some r → r ∈ A)
    {pdusCount drbCount : Nat} (hcount : pdusCount ≤ old.pdusCount)
    {pdusList pdusList' : CArray maxPdusPerUe (Option TunnelIdx)}
    (hpdus : copyTunnels old.pdusTunnelList ctx.pdusTunnelList pdusCount = some pdusList)
    (hpdus' : copyTunnels old'.pdusTunnelList ctx'.pdusTunnelList pdusCount = some pdusList')
    {drbList : CArray maxDrbPerUe (Option TunnelIdx)}
    (hdrb : copyTunnels old.drbTunnelList ctx.drbTunnelList drbCount = some drbList) :
    CtxAlike A
      { ctx with
        pdusCount := pdusCount
        pdusTunnelList := pdusList
        drbCount := drbCount
        drbTunnelList := drbList }
      { ctx' with
        pdusCount := pdusCount
        pdusTunnelList := pdusList'
        drbCount := drbCount
        drbTunnelList := drbList } where
  cuupUeId := hid
  cucpUeId := (UeCtx.residue_eq_iff.mp hres).1
  pdusCount := rfl
  drbCount := rfl
  newUl := (UeCtx.residue_eq_iff.mp hres).2.1
  isRowUsed := hused
  drbList := rfl
  pdusList i hi := by
    change pdusList'.get? i = pdusList.get? i
    have hlt : i < pdusCount := hi
    rw [copyTunnels_get? hpdus, copyTunnels_get? hpdus', if_pos hlt, if_pos hlt]
    exact hold.pdusList i (by omega)
  drbIn i r hi := by
    have hget := CArray.deref?_eq_some_iff.mp hi
    rw [copyTunnels_get? hdrb] at hget
    split at hget
    · exact hold.drbIn i r (CArray.deref?_eq_some_iff.mpr hget)
    · exact hin i r (CArray.deref?_eq_some_iff.mpr hget)
  pdusIn i r hi hr := by
    have hlt : i < pdusCount := hi
    have hget := CArray.deref?_eq_some_iff.mp hr
    rw [copyTunnels_get? hpdus, if_pos hlt] at hget
    exact hold.pdusIn i r (by omega) (CArray.deref?_eq_some_iff.mpr hget)

theorem ueCtxModify_alike (h : UesAlike A U U') (id : UInt32) :
    Option.Rel (UeModifyAlike A) (ueCtxModify U id) (ueCtxModify U' id) := by
  unfold ueCtxModify
  simp only [h.hash]
  split
  · exact .some (.refuse h)
  · split
    · exact .some (.refuse h)
    · have hdata : (D.ueHash.lookup U.ueCtxHashtable id).2 = U.rowOf id :=
        RteHash.lookup_data_eq
      rw [hdata]
      cases hrow : U.rowOf id with
      | none => exact .some (.refuse h)
      | some entry =>
          obtain ⟨halloc, hcuup⟩ := ueCtxAlloc_alike h id
          simp only
          generalize hx : ueCtxAlloc U id = x, ueCtxAlloc U' id = y at halloc hcuup ⊢
          obtain ⟨got, U₁⟩ := x
          obtain ⟨got', U₁'⟩ := y
          obtain ⟨rfl : got = got', h₁⟩ := halloc
          cases got with
          | none => exact .some (.refuse h₁)
          | some n =>
              have hold : CtxAlike A (U₁.ueCtxTable entry) (U₁'.ueCtxTable entry) :=
                h₁.mapped id entry (by rw [ueCtxAlloc_rowOf hx, hrow])
              have hdrbs : (U₁'.ueCtxTable n).drbTunnelList =
                  (U₁.ueCtxTable n).drbTunnelList :=
                (UeCtx.residue_eq_iff.mp (h₁.residue n)).2.2
              simp only [hold.pdusCount, hold.drbCount, hold.drbList, hdrbs]
              apply rel_bind (rel_both (copyTunnels_rel _ _ _ _ _))
              intro pdusList pdusList' hpdus
              apply rel_bind_same
              intro drbList hdrb
              have hcount : (if n = entry then 0 else (U₁.ueCtxTable entry).pdusCount) ≤
                  (U₁.ueCtxTable entry).pdusCount := by
                split
                · exact Nat.zero_le _
                · exact Nat.le_refl _
              have hctx := hold.copied (hcuup n rfl) (h₁.used n) (h₁.residue n) (h₁.drbIn n)
                hcount hpdus.2.1 hpdus.2.2 hdrb
              refine .some ⟨⟨rfl, h₁.setRow n hctx⟩, fun m hm => ?_⟩
              obtain rfl := Option.some.inj hm
              simp only [RowAlike, setRow_self]
              exact hctx

theorem RowAlike.setUsed (h : RowAlike A U U' n) (m : UeIdx) (b : Bool) :
    RowAlike A (U.setUsed m b) (U'.setUsed m b) n := by
  by_cases hn : n = m
  · subst hn
    simp only [RowAlike, setUsed_self]
    exact CtxAlike.setFlag h b
  · simpa [RowAlike, setUsed_of_ne _ hn] using h

/-- Both tables of two sides, and a row of both that is alike. -/
structure CuupRowAlike (A : Set TunnelIdx) (n : UeIdx) (S S' : Cuup D) : Prop
    extends CuupAlike A S S' where
  row : RowAlike A S.ue S'.ue n

theorem ueCtxRemove_alike (h : CuupRowAlike A n S S') (id : UInt32) :
    Option.Rel (SameResult (CuupRowAlike A n)) (ueCtxRemove S id) (ueCtxRemove S' id) := by
  unfold ueCtxRemove
  simp only [h.ue.hash]
  split
  · exact .some ⟨rfl, h⟩
  · split
    · split
      · exact .some ⟨rfl, h⟩
      · exact .some ⟨rfl, h⟩
    · have hdata : (D.ueHash.lookup S.ue.ueCtxHashtable id).2 = S.ue.rowOf id :=
        RteHash.lookup_data_eq
      rw [hdata]
      cases hrow : S.ue.rowOf id with
      | none => exact .some ⟨rfl, h⟩
      | some entry =>
          have hctx := h.ue.mapped id entry hrow
          simp only [hctx.pdusCount, hctx.drbCount]
          refine rel_bind (removeTunnels_alike hctx.pdusSlots (fun _ hi => hi) h.tun) ?_
          intro T₁ T₁' h₁
          refine rel_bind (removeTunnels_alike hctx.drbSlots (fun _ _ => trivial) h₁) ?_
          intro T₂ T₂' h₂
          exact .some ⟨rfl, ⟨h₂, h.ue.setUsed entry false⟩, h.row.setUsed entry false⟩

/-! ### The commit and the rollback of a context -/

/-- A commit maps ids to the rows they mapped to, or to the row committed. -/
theorem ueCtxCommitEntry_mapped {m : UeIdx}
    (hm : (ueCtxCommitEntry U n).2.rowOf id = some m) : U.rowOf id = some m ∨ m = n := by
  have hout := ueCtxCommitEntry_cases U n
  generalize (ueCtxCommitEntry U n).1 = ret, (ueCtxCommitEntry U n).2 = U₁ at hout hm
  have hold : U₁.entry id = U.entry id → U.rowOf id = some m := by
    intro he
    rw [UeCtxTable.rowOf, ← he]
    exact hm
  have hnew : ∀ p, U₁.entry = Function.update U.entry (U.ueCtxTable n).cuupUeId
      (some (p, n)) → U.rowOf id = some m ∨ m = n := by
    intro p he
    by_cases hkey : id = (U.ueCtxTable n).cuupUeId
    · rw [UeCtxTable.rowOf, he, hkey, Function.update_self] at hm
      exact Or.inr (Option.some.inj hm).symm
    · exact Or.inl (hold (by rw [he, Function.update_of_ne hkey]))
  cases hout with
  | down | kept => exact Or.inl hm
  | inserted h p _ hash => exact hnew p hash
  | refused h _ hash => exact Or.inl (hold (congrFun hash id))
  | replaced h p old _ _ hash => exact hnew p hash
  | deleted h p _ _ hash =>
      by_cases hkey : id = (U.ueCtxTable n).cuupUeId
      · have hentry : UeCtxTable.entry { U with ueCtxHashtable := some h } id = none := by
          rw [show UeCtxTable.entry { U with ueCtxHashtable := some h } = _ from hash, hkey,
            Function.update_self]
        rw [UeCtxTable.rowOf, hentry] at hm
        cases hm
      · refine Or.inl (hold ?_)
        rw [show UeCtxTable.entry { U with ueCtxHashtable := some h } = _ from hash,
          Function.update_of_ne hkey]

section commitEntry

variable {t : D.ueHash.Table} {p : Fin maxUeCount} {old : UeIdx}

/-! The end of `ue_ctx_commit` by what the hash holds under the id of the row. -/

theorem ueCtxCommitEntry_eq_add (hh : U.ueCtxHashtable = some t)
    (he : U.entry (U.ueCtxTable n).cuupUeId = none) :
    ueCtxCommitEntry U n =
      (if (D.ueHash.add (some t) (U.ueCtxTable n).cuupUeId n).1 < 0 then .failed
        else .success,
        { U with ueCtxHashtable :=
          (D.ueHash.add (some t) (U.ueCtxTable n).cuupUeId n).2 }) := by
  rw [UeCtxTable.entry, hh] at he
  simp [ueCtxCommitEntry, hh, RteHash.lookup_of_absent he, ENOENT]

theorem ueCtxCommitEntry_eq_same (hh : U.ueCtxHashtable = some t)
    (he : U.entry (U.ueCtxTable n).cuupUeId = some (p, n)) :
    ueCtxCommitEntry U n =
      if U.used n then (.success, U)
      else (if (D.ueHash.del (some t) (U.ueCtxTable n).cuupUeId).1 ≠ 0 then .failed
          else .success,
        { U with ueCtxHashtable :=
          (D.ueHash.del (some t) (U.ueCtxTable n).cuupUeId).2 }) := by
  rw [UeCtxTable.entry, hh] at he
  have hpos : ¬ (p.val : Int) < 0 := by omega
  simp [ueCtxCommitEntry, hh, RteHash.lookup_of_entry he, hpos]

theorem ueCtxCommitEntry_eq_replace (hh : U.ueCtxHashtable = some t)
    (he : U.entry (U.ueCtxTable n).cuupUeId = some (p, old)) (hne : old ≠ n) :
    ueCtxCommitEntry U n =
      (if (D.ueHash.add (some t) (U.ueCtxTable n).cuupUeId n).1 ≠ 0 then .failed
        else .success,
        { U.setUsed old false with ueCtxHashtable :=
          (D.ueHash.add (some t) (U.ueCtxTable n).cuupUeId n).2 }) := by
  rw [UeCtxTable.entry, hh] at he
  have hpos : ¬ (p.val : Int) < 0 := by omega
  simp [ueCtxCommitEntry, hh, RteHash.lookup_of_entry he, hpos, hne]

end commitEntry

theorem ueCtxCommitEntry_alike (h : UesAlike A U U') (hrow : RowAlike A U U' n) :
    SameResult (UesAlike A) (ueCtxCommitEntry U n) (ueCtxCommitEntry U' n) := by
  have hmapped : ∀ id m, (ueCtxCommitEntry U n).2.rowOf id = some m →
      U.rowOf id = some m ∨ m = n := fun _ _ hm => ueCtxCommitEntry_mapped hm
  have hid : (U'.ueCtxTable n).cuupUeId = (U.ueCtxTable n).cuupUeId := CtxAlike.cuupUeId hrow
  cases hh : U.ueCtxHashtable with
  | none =>
      have hh' := h.hash.trans hh
      have hl : ∀ id, D.ueHash.lookup none id = (-EINVAL, none) := fun _ => rfl
      simp only [ueCtxCommitEntry, hh, hh', hl]
      exact ⟨rfl, h⟩
  | some t =>
      have hh' := h.hash.trans hh
      have he' : U'.entry (U'.ueCtxTable n).cuupUeId = U.entry (U.ueCtxTable n).cuupUeId := by
        rw [h.entry, hid]
      have halike : ∀ {V V' : UeCtxTable D}, UesAlike A V V' → RowAlike A V V' n →
          V.rowOf = U.rowOf → ∀ id m, U.rowOf id = some m ∨ m = n →
            CtxAlike A (V.ueCtxTable m) (V'.ueCtxTable m) := by
        intro V V' hV hn hVU id m hor
        rcases hor with hm | rfl
        · exact hV.mapped id m (by rw [hVU, hm])
        · exact hn
      cases he : U.entry (U.ueCtxTable n).cuupUeId with
      | none =>
          rw [ueCtxCommitEntry_eq_add hh he] at hmapped ⊢
          rw [ueCtxCommitEntry_eq_add hh' (he'.trans he), hid]
          exact ⟨rfl, h.withHash _ fun id m hm => halike h hrow rfl id m (hmapped id m hm)⟩
      | some x =>
          obtain ⟨p, old⟩ := x
          by_cases hold : old = n
          · subst hold
            rw [ueCtxCommitEntry_eq_same hh he] at hmapped ⊢
            rw [ueCtxCommitEntry_eq_same hh' (he'.trans he), hid, h.used]
            cases hu : U.used old with
            | true => exact ⟨rfl, h⟩
            | false =>
                rw [hu] at hmapped
                exact ⟨rfl, h.withHash _ fun id m hm =>
                  halike h hrow rfl id m (hmapped id m hm)⟩
          · rw [ueCtxCommitEntry_eq_replace hh he hold] at hmapped ⊢
            rw [ueCtxCommitEntry_eq_replace hh' (he'.trans he) hold, hid]
            exact ⟨rfl, (h.setUsed old false).withHash _ fun id m hm =>
              halike (h.setUsed old false) (hrow.setUsed old false) rfl id m
                (hmapped id m hm)⟩

/-- The context a commit writes back. -/
theorem CtxAlike.committed (h : CtxAlike A ctx ctx')
    {drbList drbList' : CArray maxDrbPerUe (Option TunnelIdx)}
    {pdusList pdusList' : CArray maxPdusPerUe (Option TunnelIdx)}
    (hdrb : SlotsAlike A (fun _ => True) drbList drbList')
    (hpdus : SlotsAlike A (fun i => i < ctx.pdusCount) pdusList pdusList') (drbCount : Nat) :
    CtxAlike A
      { ctx with
        drbTunnelList := drbList
        drbCount := drbCount
        pdusTunnelList := pdusList }
      { ctx' with
        drbTunnelList := drbList'
        drbCount := drbCount
        pdusTunnelList := pdusList' } :=
  { h with
    drbCount := rfl
    drbList := hdrb.eq_of_all
    pdusList := hpdus.same
    drbIn := fun i r hi => hdrb.inside i r trivial hi
    pdusIn := fun i r hi hr => hpdus.inside i r hi hr }

theorem RowAlike.of_setRow {U W : UeCtxTable D} (n : UeIdx) (hctx : CtxAlike A ctx ctx') :
    RowAlike A (U.setRow n ctx) (W.setRow n ctx') n := by
  simp only [RowAlike, setRow_self]
  exact hctx

theorem ueCtxCommit_alike (h : CuupRowAlike A n S S') :
    Option.Rel (SameResult (CuupRowAlike A n)) (ueCtxCommit S (some n))
      (ueCtxCommit S' (some n)) := by
  have hctx : CtxAlike A (S.ue.ueCtxTable n) (S'.ue.ueCtxTable n) := h.row
  unfold ueCtxCommit
  simp only [h.ue.hash]
  split
  · exact .some ⟨rfl, h⟩
  · simp only [hctx.drbCount, hctx.pdusCount]
    refine rel_bind (commitTunnels_alike hctx.drbSlots (fun _ _ => trivial) h.tun) ?_
    intro s s' hs
    obtain ⟨T₁, drbList₁⟩ := s
    obtain ⟨T₁', drbList₁'⟩ := s'
    obtain ⟨h₁ : TunnelsAlike A T₁ T₁', hdrb₁⟩ := hs
    refine rel_bind (packTunnels_alike hdrb₁ fun l l' hl i _ =>
      ⟨hl.same i trivial, fun r hr =>
        hl.inside i r trivial (CArray.deref?_eq_some_iff.mpr hr)⟩) ?_
    intro s s' hs
    obtain ⟨drbList, drbCount⟩ := s
    obtain ⟨drbList', drbCount'⟩ := s'
    obtain ⟨rfl : drbCount' = drbCount, hdrb⟩ := hs
    refine rel_bind (commitTunnels_alike hctx.pdusSlots (fun _ hi => hi) h₁) ?_
    intro s s' hs
    obtain ⟨T₂, pdusList₁⟩ := s
    obtain ⟨T₂', pdusList₁'⟩ := s'
    obtain ⟨h₂ : TunnelsAlike A T₂ T₂', hpdus₁⟩ := hs
    refine rel_bind (packTunnels_alike hpdus₁ fun l l' _ i _ =>
      ⟨hdrb.same i trivial, fun r hr =>
        hdrb.inside i r trivial (CArray.deref?_eq_some_iff.mpr hr)⟩) ?_
    intro s s' hs
    obtain ⟨pdusList, packed⟩ := s
    obtain ⟨pdusList', packed'⟩ := s'
    obtain ⟨_, hpdus⟩ := hs
    have hnew := hctx.committed hdrb hpdus drbCount'
    have hset := h.ue.setRow n hnew
    have hrow := RowAlike.of_setRow (U := S.ue) (W := S'.ue) n hnew
    simp only [hctx.pdusCount] at hset hrow
    have hentry := ueCtxCommitEntry_alike hset hrow
    refine .some ⟨hentry.1, ⟨h₂, hentry.2⟩, ?_⟩
    simp only [RowAlike, ueCtxCommitEntry_row]
    exact hrow

theorem UeCtx.rollback_alike (hctx : CtxAlike A ctx ctx') (h : TunnelsAlike A T T') :
    Option.Rel (TunnelsAlike A) (ctx.rollback T) (ctx'.rollback T') := by
  unfold UeCtx.rollback
  rw [hctx.pdusCount, hctx.drbCount]
  exact rel_bind (rollbackTunnels_alike hctx.pdusSlots (fun _ hi => hi) h)
    fun T₁ T₁' h₁ => rollbackTunnels_alike hctx.drbSlots (fun _ _ => trivial) h₁

theorem ueCtxRollback_alike (h : CuupRowAlike A n S S') :
    Option.Rel (SameResult (CuupRowAlike A n)) (ueCtxRollback S n) (ueCtxRollback S' n) := by
  have hctx : CtxAlike A (S.ue.ueCtxTable n) (S'.ue.ueCtxTable n) := h.row
  unfold ueCtxRollback
  simp only [h.ue.hash, hctx.cuupUeId, hctx.isRowUsed]
  split
  · exact .some ⟨rfl, h⟩
  · split
    · split
      · split
        · exact rel_bind (UeCtx.rollback_alike hctx h.tun) fun T₁ T₁' h₁ =>
            .some ⟨rfl, ⟨h₁, h.ue.setUsed n false⟩, h.row.setUsed n false⟩
        · exact .some ⟨rfl, h⟩
      · exact .some ⟨rfl, h⟩
    · have hdata : (D.ueHash.lookup S.ue.ueCtxHashtable (S.ue.ueCtxTable n).cuupUeId).2 =
          S.ue.rowOf (S.ue.ueCtxTable n).cuupUeId := RteHash.lookup_data_eq
      rw [hdata]
      cases hrow : S.ue.rowOf (S.ue.ueCtxTable n).cuupUeId with
      | none => exact .some ⟨rfl, h⟩
      | some entry =>
          simp only [h.ue.used]
          split
          · split
            · exact .some ⟨rfl, h⟩
            · exact rel_bind (UeCtx.rollback_alike hctx h.tun) fun T₁ T₁' h₁ =>
                .some ⟨rfl, ⟨h₁, h.ue.setUsed entry true⟩, h.row.setUsed entry true⟩
          · split
            · exact rel_bind (UeCtx.rollback_alike (h.ue.mapped _ entry hrow) h.tun)
                fun T₁ T₁' h₁ =>
                  .some ⟨rfl, ⟨h₁, h.ue.setUsed n false⟩, h.row.setUsed n false⟩
            · exact .some ⟨rfl, h⟩

end Pfm
