import Pfm.Tunnel

/-!
# What each tunnel-table function does

One lemma for each function of `tunnel.c`, by outcome.  Everything proved about
runs of these functions cites these lemmas and never unfolds the functions.
-/

namespace Pfm

open BoundedLoop CircularScan

variable {D : Dpdk} {env : Env D} {T T' : TunnelTable D} {key k : TunnelKey}
  {r r' : TunnelIdx}

namespace TunnelTable

@[simp] theorem setRow_hash (t : Tunnel) :
    (T.setRow r t).tunnelHashtable = T.tunnelHashtable := rfl

@[simp] theorem setUsed_hash (b : Bool) :
    (T.setUsed r b).tunnelHashtable = T.tunnelHashtable := rfl

@[simp] theorem takeRow_hash : (T.takeRow r key).tunnelHashtable = T.tunnelHashtable := rfl

@[simp] theorem setUsed_entry (b : Bool) : (T.setUsed r b).entry = T.entry := rfl

@[simp] theorem takeRow_entry : (T.takeRow r key).entry = T.entry := rfl

@[simp] theorem setUsed_lastAllocatedSlot (b : Bool) :
    (T.setUsed r b).lastAllocatedSlot = T.lastAllocatedSlot := rfl

@[simp] theorem takeRow_lastAllocatedSlot : (T.takeRow r key).lastAllocatedSlot = r := rfl

@[simp] theorem setUsed_lastAssignedId (b : Bool) :
    (T.setUsed r b).lastAssignedId = T.lastAssignedId := rfl

@[simp] theorem takeRow_lastAssignedId :
    (T.takeRow r key).lastAssignedId = T.lastAssignedId := rfl

theorem setRow_self (t : Tunnel) : (T.setRow r t).tunnelTable r = t := by
  simp [setRow]

theorem setRow_of_ne (t : Tunnel) (h : r' ≠ r) :
    (T.setRow r t).tunnelTable r' = T.tunnelTable r' := by
  simp [setRow, h]

theorem used_setUsed (b : Bool) :
    (T.setUsed r b).used r' = if r' = r then b else T.used r' := by
  by_cases h : r' = r <;> simp [used, setUsed, setRow, h]

/-- Clearing or setting a used flag changes nothing else in any row. -/
theorem setUsed_row (b : Bool) : (T.setUsed r b).tunnelTable r' =
    { T.tunnelTable r' with isRowUsed := if r' = r then b else T.used r' } := by
  by_cases h : r' = r
  · subst h
    simp [setUsed, setRow]
  · simp [setUsed, setRow, h, used]

@[simp] theorem setUsed_key (b : Bool) :
    ((T.setUsed r b).tunnelTable r').key = (T.tunnelTable r').key := by
  rw [setUsed_row]

theorem used_takeRow :
    (T.takeRow r key).used r' = if r' = r then true else T.used r' := by
  by_cases h : r' = r <;> simp [used, takeRow, setRow, h]

theorem takeRow_row :
    (T.takeRow r key).tunnelTable r = { T.tunnelTable r with isRowUsed := true, key := key } := by
  simp [takeRow, setRow]

theorem takeRow_key_self : ((T.takeRow r key).tunnelTable r).key = key := by
  simp [takeRow, setRow]

theorem takeRow_of_ne (h : r' ≠ r) :
    (T.takeRow r key).tunnelTable r' = T.tunnelTable r' := by
  simp [takeRow, setRow, h]

@[simp] theorem cleared_entry : T.cleared.entry k = none := by
  simp [entry, cleared]

@[simp] theorem cleared_used : T.cleared.used r = false := rfl

@[simp] theorem cleared_hash_isSome : T.cleared.tunnelHashtable.isSome = true := rfl

theorem entry_of_down (h : T.tunnelHashtable = none) : T.entry k = none := by
  simp [entry, h]

theorem up_of_entry {x : Fin maxTunnelCount × TunnelIdx} (h : T.entry k = some x) :
    T.tunnelHashtable.isSome := by
  cases hh : T.tunnelHashtable with
  | none => simp [entry_of_down hh] at h
  | some _ => rfl

theorem rowOf_eq_some_iff : T.rowOf k = some r ↔ ∃ p, T.entry k = some (p, r) := by
  simp only [rowOf, Option.map_eq_some_iff]
  constructor
  · intro hex
    obtain ⟨⟨p, r'⟩, h, rfl⟩ := hex
    exact ⟨p, h⟩
  · intro hex
    obtain ⟨p, h⟩ := hex
    exact ⟨(p, r), h, rfl⟩

theorem rowOf_eq_none_iff : T.rowOf k = none ↔ T.entry k = none := by
  simp [rowOf]

theorem rowOf_of_down (h : T.tunnelHashtable = none) (k : TunnelKey) : T.rowOf k = none :=
  rowOf_eq_none_iff.mpr (entry_of_down h)

theorem up_of_mapped (h : T.rowOf k = some r) : T.tunnelHashtable.isSome = true := by
  obtain ⟨p, hp⟩ := rowOf_eq_some_iff.mp h
  exact up_of_entry hp

end TunnelTable

open TunnelTable

/-- The table after `tunnelTableEnsureUp`: as it was, or just cleared. -/
theorem tunnelTableEnsureUp_cases (env : Env D) (T : TunnelTable D) :
    (T.tunnelHashtable.isSome = true ∧ tunnelTableEnsureUp env T = some T) ∨
    (T.tunnelHashtable = none ∧ env.tunnelHashCreate = true ∧
      tunnelTableEnsureUp env T = some T.cleared) ∨
    (T.tunnelHashtable = none ∧ env.tunnelHashCreate = false ∧
      tunnelTableEnsureUp env T = none) := by
  cases hh : T.tunnelHashtable with
  | some h => exact Or.inl ⟨rfl, by simp [tunnelTableEnsureUp, hh]⟩
  | none =>
      right
      cases hc : env.tunnelHashCreate with
      | true => exact Or.inl ⟨rfl, rfl, by simp [tunnelTableEnsureUp, tunnelTableInit, hh, hc]⟩
      | false => exact Or.inr ⟨rfl, rfl, by simp [tunnelTableEnsureUp, tunnelTableInit, hh, hc]⟩

theorem tunnelTableEnsureUp_up (h : tunnelTableEnsureUp env T = some T') :
    T'.tunnelHashtable.isSome = true := by
  rcases tunnelTableEnsureUp_cases env T with ⟨hup, he⟩ | ⟨_, _, he⟩ | ⟨_, _, he⟩
  · obtain rfl : T = T' := by simpa [he] using h
    exact hup
  · obtain rfl : T.cleared = T' := by simpa [he] using h
    rfl
  · simp [he] at h

theorem rowProbe_ne_stop (b : Bool) : rowProbe b ≠ .stop := by
  cases b <;> simp [rowProbe]

theorem rowProbe_eq_take_iff {b : Bool} : rowProbe b = .take ↔ b = false := by
  cases b <;> simp [rowProbe]

theorem rowProbe_eq_next_iff {b : Bool} : rowProbe b = .next ↔ b = true := by
  cases b <;> simp [rowProbe]

/-- `tunnel_alloc` finds no row: every row away from the cursor is used. -/
theorem tunnelAlloc_none_iff :
    (tunnelAlloc T key).1 = none ↔ ∀ r, r ≠ T.lastAllocatedSlot → T.used r = true := by
  unfold tunnelAlloc
  have hscan : scan (fun i => rowProbe (T.used i)) T.lastAllocatedSlot = none ↔
      ∀ r, r ≠ T.lastAllocatedSlot → rowProbe (T.used r) = .next :=
    scan_eq_none_iff fun _ => rowProbe_ne_stop _
  simp only [rowProbe_eq_next_iff] at hscan
  rw [← hscan]
  cases scan (fun i => rowProbe (T.used i)) T.lastAllocatedSlot <;> simp

/-- `tunnel_alloc` by outcome. -/
theorem tunnelAlloc_cases (T : TunnelTable D) (key : TunnelKey) :
    tunnelAlloc T key = (none, T) ∨
    ∃ r d, T.used r = false ∧
      Passes (fun i => rowProbe (T.used i)) T.lastAllocatedSlot r d ∧
      tunnelAlloc T key = (some r, T.takeRow r key) := by
  unfold tunnelAlloc
  cases hs : scan (fun i => rowProbe (T.used i)) T.lastAllocatedSlot with
  | none => exact Or.inl rfl
  | some r =>
      obtain ⟨htake, d, hd⟩ := (scan_eq_some_iff _ _ _).mp hs
      exact Or.inr ⟨r, d, rowProbe_eq_take_iff.mp htake, hd, rfl⟩

theorem tunnelAlloc_some (h : tunnelAlloc T key = (some r, T')) :
    T.used r = false ∧ r ≠ T.lastAllocatedSlot ∧ T' = T.takeRow r key := by
  rcases tunnelAlloc_cases T key with he | ⟨r', d, hu, hd, he⟩
  · simp [he] at h
  · rw [he] at h
    obtain ⟨rfl, rfl⟩ : r' = r ∧ T.takeRow r' key = T' := by simpa using h
    exact ⟨hu, hd.eq ▸ ahead_ne_self _ hd.pos hd.lt, rfl⟩

/-- With every row free the row after the cursor is handed out. -/
theorem tunnelAlloc_of_all_free (hfree : ∀ r, T.used r = false) :
    tunnelAlloc T key =
      (some (ahead T.lastAllocatedSlot 1), T.takeRow (ahead T.lastAllocatedSlot 1) key) := by
  have hscan : scan (fun i => rowProbe (T.used i)) T.lastAllocatedSlot =
      some (ahead T.lastAllocatedSlot 1) := by
    refine (scan_eq_some_iff _ _ _).mpr ⟨rowProbe_eq_take_iff.mpr (hfree _), 1, ?_⟩
    exact ⟨Nat.one_pos, by decide, rfl, fun e h0 h1 => by omega⟩
  simp only [tunnelAlloc, hscan]

/-- `tunnel_add` by outcome: the table cannot be set up, the key is committed,
no row is found, or a row is handed out. -/
theorem tunnelAdd_cases (env : Env D) (T : TunnelTable D) (key : TunnelKey) :
    (tunnelTableEnsureUp env T = none ∧ tunnelAdd env T key = (none, T)) ∨
    ∃ T₁, tunnelTableEnsureUp env T = some T₁ ∧
      (((T₁.entry key).isSome ∧ tunnelAdd env T key = (none, T₁)) ∨
       (T₁.entry key = none ∧ tunnelAdd env T key = tunnelAlloc T₁ key)) := by
  unfold tunnelAdd
  cases he : tunnelTableEnsureUp env T with
  | none => exact Or.inl ⟨rfl, rfl⟩
  | some T₁ =>
      refine Or.inr ⟨T₁, rfl, ?_⟩
      simp only [RteHash.lookup_nonneg_iff]
      cases hk : T₁.entry key with
      | some x =>
          have : (D.tunnelHash.entry T₁.tunnelHashtable key).isSome = true := by
            rw [← TunnelTable.entry, hk]; rfl
          exact Or.inl ⟨rfl, by simp [this]⟩
      | none =>
          have : (D.tunnelHash.entry T₁.tunnelHashtable key).isSome = false := by
            rw [← TunnelTable.entry, hk]; rfl
          exact Or.inr ⟨rfl, by simp [this]⟩

/-- `tunnel_modify` by outcome: the key is not committed, or a row is looked
for. -/
theorem tunnelModify_cases (T : TunnelTable D) (key : TunnelKey) :
    (T.entry key = none ∧ tunnelModify T key = (none, T)) ∨
    ((T.entry key).isSome ∧ tunnelModify T key = tunnelAlloc T key) := by
  unfold tunnelModify
  cases hh : T.tunnelHashtable with
  | none => exact Or.inl ⟨entry_of_down hh, rfl⟩
  | some h =>
      have hlt : (D.tunnelHash.lookup (some h) key).1 < 0 ↔ T.entry key = none := by
        rw [← not_le, RteHash.lookup_nonneg_iff, TunnelTable.entry, hh]
        simp
      cases hk : T.entry key with
      | none => exact Or.inl ⟨rfl, by simp [hlt.mpr hk]⟩
      | some x =>
          have : ¬ (D.tunnelHash.lookup (some h) key).1 < 0 := by simp [hlt, hk]
          exact Or.inr ⟨rfl, by simp [this]⟩

/-- A key that is committed has been given an unused row. -/
theorem tunnelModify_some {T T' : TunnelTable D} {key : TunnelKey} {r : TunnelIdx}
    (h : tunnelModify T key = (some r, T')) :
    (T.entry key).isSome ∧ T.used r = false ∧ T' = T.takeRow r key := by
  rcases tunnelModify_cases T key with ⟨-, he⟩ | ⟨hentry, he⟩
  · rw [h] at he
    cases he
  · rcases tunnelAlloc_cases T key with hno | ⟨x, d, hfree, -, halloc⟩
    · rw [h, hno] at he
      cases he
    · rw [h, halloc] at he
      cases he
      exact ⟨hentry, hfree, rfl⟩

/-- `tunnel_remove` by outcome: it marks the row the key maps to, or there is
no such row. -/
theorem tunnelRemove_cases (T : TunnelTable D) (key : TunnelKey) :
    (∃ r, T.rowOf key = some r ∧ tunnelRemove T key = (.success, T.setUsed r false)) ∨
    (T.rowOf key = none ∧ ∃ ret, ret ≠ .success ∧ tunnelRemove T key = (ret, T)) := by
  unfold tunnelRemove
  cases hh : T.tunnelHashtable with
  | none =>
      exact Or.inr ⟨rowOf_of_down hh _, .failed, by simp, rfl⟩
  | some h =>
      cases hk : T.entry key with
      | none =>
          have hl := RteHash.lookup_of_absent (by simpa [TunnelTable.entry, hh] using hk)
          exact Or.inr ⟨by simp [TunnelTable.rowOf, hk], .notFound, by simp, by simp [hl, ENOENT]⟩
      | some x =>
          obtain ⟨p, r⟩ := x
          have hl := RteHash.lookup_of_entry (by simpa [TunnelTable.entry, hh] using hk)
          exact Or.inl ⟨r, by simp [TunnelTable.rowOf, hk], by simp [hl]⟩

/-- `tunnel_commit` by outcome.  `key` is the key stored in the row committed. -/
inductive CommitOutcome (T : TunnelTable D) (nt : TunnelIdx) (key : TunnelKey) :
    PfmRetval → TunnelTable D → Prop
  | down (hash : T.tunnelHashtable = none) : CommitOutcome T nt key .failed T
  | inserted (h : D.tunnelHash.Table) (p : Fin maxTunnelCount)
      (absent : T.entry key = none)
      (hash : (T.withHash h).entry = Function.update T.entry key (some (p, nt))) :
      CommitOutcome T nt key .success (T.withHash h)
  | refused (h : D.tunnelHash.Table) (absent : T.entry key = none)
      (hash : (T.withHash h).entry = T.entry)
      (full : D.tunnelHash.Accepts → maxTunnelCount ≤ T.keyCount) :
      CommitOutcome T nt key .failed (T.withHash h)
  | kept (mapped : T.rowOf key = some nt) (used : T.used nt = true) :
      CommitOutcome T nt key .success T
  | deleted (h : D.tunnelHash.Table) (p : Fin maxTunnelCount)
      (mapped : T.entry key = some (p, nt)) (unused : T.used nt = false)
      (hash : (T.withHash h).entry = Function.update T.entry key none) :
      CommitOutcome T nt key (if p.val = 0 then .success else .failed) (T.withHash h)
  | replaced (h : D.tunnelHash.Table) (p : Fin maxTunnelCount) (old : TunnelIdx)
      (mapped : T.entry key = some (p, old)) (ne : nt ≠ old)
      (hash : (T.withHash h).entry = Function.update T.entry key (some (p, nt))) :
      CommitOutcome T nt key .success ((T.setUsed old false).withHash h)

theorem tunnelCommit_cases (T : TunnelTable D) (nt : TunnelIdx) :
    CommitOutcome T nt (T.tunnelTable nt).key
      (tunnelCommit T (some nt)).1 (tunnelCommit T (some nt)).2 := by
  unfold tunnelCommit
  cases hh : T.tunnelHashtable with
  | none => exact .down hh
  | some h =>
      have hentry : ∀ k, D.tunnelHash.entry (some h) k = T.entry k := fun k => by
        rw [TunnelTable.entry, hh]
      have hT : T.entry = D.tunnelHash.entry (some h) := funext fun k => (hentry k).symm
      cases hk : T.entry (T.tunnelTable nt).key with
      | none =>
          have habs := (hentry (T.tunnelTable nt).key).trans hk
          rcases RteHash.add_of_absent nt habs with ⟨hcode, p, hadd⟩ | ⟨hcode, hadd⟩
          · simp only [Option.isNone_some, Bool.false_eq_true, if_false,
              RteHash.lookup_of_absent habs, hcode]
            exact .inserted _ p hk (by rw [hT]; exact hadd)
          · simp only [Option.isNone_some, Bool.false_eq_true, if_false,
              RteHash.lookup_of_absent habs, hcode]
            refine .refused _ hk (by rw [hT]; exact hadd) fun hacc => ?_
            by_contra hlt
            have h0 := hacc h (T.tunnelTable nt).key nt
              (by simpa [TunnelTable.keyCount, hh] using hlt)
            simp only [RteHash.add, h0] at hcode
            omega
      | some x =>
          obtain ⟨p, old⟩ := x
          have hpres := (hentry (T.tunnelTable nt).key).trans hk
          simp only [Option.isNone_some, Bool.false_eq_true, if_false,
            RteHash.lookup_of_entry hpres]
          rw [if_neg (by omega)]
          by_cases hne : nt = old
          · subst hne
            rw [if_pos rfl]
            cases hu : T.used nt with
            | true => exact .kept (rowOf_eq_some_iff.mpr ⟨p, hk⟩) hu
            | false =>
                obtain ⟨hcode, hdel⟩ := RteHash.del_of_entry hpres
                have hret : (if (D.tunnelHash.del (some h) (T.tunnelTable nt).key).1 ≠ 0
                    then PfmRetval.failed else .success) =
                    if p.val = 0 then .success else .failed := by
                  rw [hcode]
                  by_cases hp : p.val = 0 <;> simp [hp]
                simp only [Bool.false_eq_true, if_false, hret]
                exact .deleted _ p hk hu (by rw [hT]; exact hdel)
          · rw [if_neg hne]
            obtain ⟨hcode, hadd⟩ := RteHash.add_of_entry (d := nt) hpres
            simp only [setUsed_hash, hh, hcode, ne_eq, not_true_eq_false, if_false]
            exact .replaced _ p old hk hne (by rw [hT]; exact hadd)

/-- `tunnel_rollback` by outcome. -/
inductive RollbackOutcome (T : TunnelTable D) (nt : TunnelIdx) (key : TunnelKey) :
    PfmRetval → TunnelTable D → Prop
  | down (hash : T.tunnelHashtable = none) : RollbackOutcome T nt key .failed T
  | abandoned (absent : T.rowOf key = none) (used : T.used nt = true) :
      RollbackOutcome T nt key .success (T.setUsed nt false)
  | invalid (absent : T.rowOf key = none) (unused : T.used nt = false) :
      RollbackOutcome T nt key .failed T
  | kept (mapped : T.rowOf key = some nt) (used : T.used nt = true) :
      RollbackOutcome T nt key .success T
  | restored (mapped : T.rowOf key = some nt) (unused : T.used nt = false) :
      RollbackOutcome T nt key .success (T.setUsed nt true)
  | dropped (old : TunnelIdx) (mapped : T.rowOf key = some old) (ne : nt ≠ old)
      (used : T.used nt = true) (usedOld : T.used old = true) :
      RollbackOutcome T nt key .success (T.setUsed nt false)
  | stuck (old : TunnelIdx) (mapped : T.rowOf key = some old) (ne : nt ≠ old)
      (unused : (T.used nt && T.used old) = false) :
      RollbackOutcome T nt key .failed T

theorem tunnelRollback_cases (T : TunnelTable D) (nt : TunnelIdx) :
    RollbackOutcome T nt (T.tunnelTable nt).key
      (tunnelRollback T (some nt)).1 (tunnelRollback T (some nt)).2 := by
  unfold tunnelRollback
  cases hh : T.tunnelHashtable with
  | none => exact .down hh
  | some h =>
      have hentry : ∀ k, D.tunnelHash.entry (some h) k = T.entry k := fun k => by
        rw [TunnelTable.entry, hh]
      cases hk : T.entry (T.tunnelTable nt).key with
      | none =>
          have habs := (hentry (T.tunnelTable nt).key).trans hk
          have hrow := rowOf_eq_none_iff.mpr hk
          simp only [Option.isNone_some, Bool.false_eq_true, if_false,
            RteHash.lookup_of_absent habs]
          rw [if_pos (by simp [ENOENT]), if_pos trivial]
          cases hu : T.used nt with
          | true => exact .abandoned hrow hu
          | false => exact .invalid hrow hu
      | some x =>
          obtain ⟨p, old⟩ := x
          have hpres := (hentry (T.tunnelTable nt).key).trans hk
          have hrow := rowOf_eq_some_iff.mpr ⟨p, hk⟩
          simp only [Option.isNone_some, Bool.false_eq_true, if_false,
            RteHash.lookup_of_entry hpres]
          rw [if_neg (by omega)]
          by_cases hne : nt = old
          · subst hne
            rw [if_pos rfl]
            cases hu : T.used nt with
            | true => exact .kept hrow hu
            | false => exact .restored hrow hu
          · rw [if_neg hne]
            cases hu : T.used nt && T.used old with
            | true =>
                rw [Bool.and_eq_true] at hu
                exact .dropped old hrow hne hu.1 hu.2
            | false => exact .stuck old hrow hne hu

/-- The commit of a row whose key is absent enters that key, or changes no key. -/
theorem tunnelCommit_of_new (habs : T.rowOf (T.keyAt r) = none) :
    (tunnelCommit T (some r)).2 = T ∨ ∃ t, (tunnelCommit T (some r)).2 = T.withHash t ∧
      ((T.withHash t).entry = T.entry ∨
        ∃ p, (T.withHash t).entry = Function.update T.entry (T.keyAt r) (some (p, r))) := by
  have hkey : T.entry (T.tunnelTable r).key = none := rowOf_eq_none_iff.mp habs
  have hout := tunnelCommit_cases T r
  generalize (tunnelCommit T (some r)).1 = ret, (tunnelCommit T (some r)).2 = T₁ at hout ⊢
  cases hout with
  | down | kept => exact Or.inl rfl
  | inserted t p absent hash => exact Or.inr ⟨t, rfl, Or.inr ⟨p, hash⟩⟩
  | refused t absent hash => exact Or.inr ⟨t, rfl, Or.inl hash⟩
  | deleted t p mapped | replaced t p old mapped =>
      rw [hkey] at mapped
      cases mapped

/-- A rollback leaves the table, or marks the row in a table that is set up. -/
theorem tunnelRollback_marks (T : TunnelTable D) (nt : Option TunnelIdx) :
    (tunnelRollback T nt).2 = T ∨ ∃ r b, nt = some r ∧ T.tunnelHashtable.isSome = true ∧
      (tunnelRollback T nt).2 = T.setUsed r b := by
  cases hup : T.tunnelHashtable with
  | none => exact Or.inl (by simp [tunnelRollback, hup])
  | some t =>
      cases nt with
      | none => exact Or.inl (by simp [tunnelRollback, hup])
      | some r =>
          have hout := tunnelRollback_cases T r
          generalize (tunnelRollback T (some r)).1 = ret,
            (tunnelRollback T (some r)).2 = T₁ at hout ⊢
          cases hout with
          | down | invalid | kept | stuck => exact Or.inl rfl
          | abandoned | dropped => exact Or.inr ⟨r, false, rfl, rfl, rfl⟩
          | restored => exact Or.inr ⟨r, true, rfl, rfl, rfl⟩

/-- Positions are not negative, so they are neither of the two codes. -/
theorem idProbe_position {n : Nat} (p : Fin n) : idProbe (p.val : Int) = .next := by
  have hn : ¬ ((p.val : Int) = -ENOENT) := by simp only [ENOENT]; omega
  have hi : ¬ ((p.val : Int) = -EINVAL) := by simp only [EINVAL]; omega
  simp [idProbe, hn, hi]

section idProbe

variable {κ δ : Type} [DecidableEq κ] {entries : Nat} {H : RteHash κ δ entries}
  {t : Option H.Table} {a : κ}

theorem idProbe_eq_take_iff :
    idProbe (H.lookup t a).1 = .take ↔ t.isSome ∧ H.entry t a = none := by
  cases t with
  | none => simp [idProbe, ENOENT, EINVAL]
  | some h =>
      cases hk : H.entry (some h) a with
      | none => simp [idProbe, RteHash.lookup_of_absent hk]
      | some x =>
          obtain ⟨p, r⟩ := x
          simp [RteHash.lookup_of_entry hk, idProbe_position]

theorem idProbe_eq_next_iff :
    idProbe (H.lookup t a).1 = .next ↔ (H.entry t a).isSome := by
  cases t with
  | none => simp [idProbe, ENOENT, EINVAL]
  | some h =>
      cases hk : H.entry (some h) a with
      | none => simp [idProbe, RteHash.lookup_of_absent hk]
      | some x =>
          obtain ⟨p, r⟩ := x
          simp [RteHash.lookup_of_entry hk, idProbe_position]

end idProbe

/-- The tunnel id `i`, `d` places after the cursor, is the first one free for
local address `ip`. -/
structure FirstFreeId (T : TunnelTable D) (ip : PfmIpAddr) (i : Fin maxTunnelCount)
    (d : Nat) : Prop where
  pos : 0 < d
  lt : d < maxTunnelCount
  eq : i = ahead T.lastAssignedId d
  free : T.entry (teKey ip i) = none
  taken : ∀ e, 0 < e → e < d → (T.entry (teKey ip (ahead T.lastAssignedId e))).isSome

/-- `tunnel_key_alloc` by outcome. -/
theorem tunnelKeyAlloc_cases (env : Env D) (T : TunnelTable D) (remoteIp : PfmIpAddr)
    (ttype : TunnelType) :
    (tunnelTableEnsureUp env T = none ∧
      tunnelKeyAlloc env T remoteIp ttype = (none, T)) ∨
    ∃ T₁, tunnelTableEnsureUp env T = some T₁ ∧
      (tunnelKeyAlloc env T remoteIp ttype = (none, T₁) ∨
       ∃ ip i d, tunnelLocalIp env remoteIp ttype = some ip ∧ FirstFreeId T₁ ip i d ∧
        tunnelKeyAlloc env T remoteIp ttype =
          (some (teKey ip i), { T₁ with lastAssignedId := i })) := by
  unfold tunnelKeyAlloc
  cases he : tunnelTableEnsureUp env T with
  | none => exact Or.inl ⟨rfl, rfl⟩
  | some T₁ =>
      refine Or.inr ⟨T₁, rfl, ?_⟩
      cases hip : tunnelLocalIp env remoteIp ttype with
      | none => exact Or.inl (by simp)
      | some ip =>
          simp only
          cases hs : scan (fun i => idProbe
              (D.tunnelHash.lookup T₁.tunnelHashtable (teKey ip i)).1) T₁.lastAssignedId with
          | none => exact Or.inl rfl
          | some i =>
              obtain ⟨htake, d, hd⟩ := (scan_eq_some_iff _ _ _).mp hs
              refine Or.inr ⟨ip, i, d, rfl, ⟨hd.pos, hd.lt, hd.eq, ?_, ?_⟩, rfl⟩
              · exact (idProbe_eq_take_iff.mp htake).2
              · exact fun e h0 h1 => idProbe_eq_next_iff.mp (hd.next e h0 h1)

end Pfm
