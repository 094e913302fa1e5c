import Pfm.TunnelSharing

/-!
# Tunnel transactions refine a finite map

A caller of `tunnel.c` that has one handle open at a time: it adds, modifies or
removes a tunnel, writes the payload of the row it was given, and commits or
rolls back before the next operation.

* `Transaction` and `transactionNext` : one such transaction on the table;
* `TunnelMap`, `Transaction.effect` : what it is for, on a map from key to
  contents;
* `RowsExact` : a row is used exactly when some key maps to it;
* `transactions_refine_map` : after every run the table behaves as the map.
-/

namespace Pfm

open CircularScan StepSystem

/-- The payload of a row: everything but its key and its used flag. -/
structure TunnelContents where
  remoteIp : PfmIpAddr
  remoteTeId : UInt32
  tunnelType : TunnelType
  info : TunnelInfo

def Tunnel.contents (t : Tunnel) : TunnelContents :=
  ⟨t.remoteIp, t.remoteTeId, t.tunnelType, t.info⟩

def Tunnel.withContents (t : Tunnel) (c : TunnelContents) : Tunnel :=
  { t with
    remoteIp := c.remoteIp
    remoteTeId := c.remoteTeId
    tunnelType := c.tunnelType
    info := c.info }

/-- How a transaction is closed. -/
inductive Closing where
  | commit
  | rollback

/-- One transaction.  `fill` is what the caller writes over the payload of the
row it was given. -/
inductive Transaction where
  | add (key : TunnelKey) (fill : TunnelContents → TunnelContents) (closing : Closing)
  | modify (key : TunnelKey) (fill : TunnelContents → TunnelContents) (closing : Closing)
  | remove (key : TunnelKey) (closing : Closing)

variable {D : Dpdk}

/-- Write the payload of a row. -/
def TunnelTable.fillRow (T : TunnelTable D) (r : TunnelIdx)
    (fill : TunnelContents → TunnelContents) : TunnelTable D :=
  T.setRow r ((T.tunnelTable r).withContents (fill (T.tunnelTable r).contents))

/-- Close a transaction.  A failed operation gave no handle to close. -/
def closeTransaction (T : TunnelTable D) : Option TunnelIdx → Closing → TunnelTable D
  | none, _ => T
  | some nt, .commit => (tunnelCommit T (some nt)).2
  | some nt, .rollback => (tunnelRollback T (some nt)).2

/-- The handle the operation gives, and the table after it.  The handle of a
removed tunnel is the row its key maps to. -/
def openTransaction (T : TunnelTable D) (c : Env D × Transaction) :
    Option TunnelIdx × TunnelTable D :=
  match c.2 with
  | .add key _ _ => tunnelAdd c.1 T key
  | .modify key _ _ => tunnelModify T key
  | .remove key _ =>
      match tunnelRemove T key with
      | (.success, T') => (T.rowOf key, T')
      | (_, T') => (none, T')

/-- The table once the handle, if there is one, has been written to and closed. -/
def transactionNext (T : TunnelTable D) (c : Env D × Transaction) : TunnelTable D :=
  let opened := openTransaction T c
  match c.2, opened.1 with
  | _, none => opened.2
  | .add _ fill closing, some nt => closeTransaction (opened.2.fillRow nt fill) nt closing
  | .modify _ fill closing, some nt => closeTransaction (opened.2.fillRow nt fill) nt closing
  | .remove _ closing, some nt => closeTransaction opened.2 nt closing

/-- No transaction faults. -/
def transactionStep (T : TunnelTable D) (c : Env D × Transaction) :
    Option (TunnelTable D) :=
  some (transactionNext T c)

/-! ### The map -/

/-- What the tunnel table is for. -/
abbrev TunnelMap := TunnelKey → Option TunnelContents

/-- What a transaction does to the map once it has its handle.  `recycled` is
the payload of the row it was given. -/
def Transaction.effect (m : TunnelMap) (recycled : TunnelContents) : Transaction → TunnelMap
  | .add key fill .commit => Function.update m key (some (fill recycled))
  | .modify key fill .commit => Function.update m key (some (fill recycled))
  | .remove key .commit => Function.update m key none
  | .add _ _ .rollback => m
  | .modify _ _ .rollback => m
  | .remove _ .rollback => m

/-- The map a table stands for. -/
def TunnelTable.contentsOf (T : TunnelTable D) : TunnelMap := fun k =>
  (T.rowOf k).map fun r => (T.tunnelTable r).contents

/-- No row but the one under the cursor is free. -/
def NoRowFound (T : TunnelTable D) : Prop :=
  ∀ r, r ≠ T.lastAllocatedSlot → T.used r = true

/-- When an operation gives no handle: `tunnel_add` when the table cannot be set
up, `tunnel_add` of a present key, `tunnel_modify` or `tunnel_remove` of an
absent one, and `tunnel_add` or `tunnel_modify` when no row is found. -/
def Refused (T : TunnelTable D) (c : Env D × Transaction) : Prop :=
  match c.2 with
  | .add key _ _ =>
      (T.tunnelHashtable = none ∧ c.1.tunnelHashCreate = false) ∨
        (T.contentsOf key).isSome ∨ NoRowFound T
  | .modify key _ _ => T.contentsOf key = none ∨ NoRowFound T
  | .remove key _ => T.contentsOf key = none

/-- Each key maps to a row of its own that stores it, and a row is used exactly
when some key maps to it. -/
structure RowsExact (T : TunnelTable D) : Prop extends KeysOwnRows T where
  used_iff : ∀ r, T.used r = true ↔ ∃ k, T.rowOf k = some r

/-- What one transaction does to a table that is exact. -/
structure Refines (T : TunnelTable D) (c : Env D × Transaction) : Prop where
  refused_iff : (openTransaction T c).1 = none ↔ Refused T c
  unchanged : Refused T c → (transactionNext T c).contentsOf = T.contentsOf ∧
    ∀ r, (transactionNext T c).used r = T.used r
  effect : ∀ nt, (openTransaction T c).1 = some nt →
    (transactionNext T c).contentsOf =
      c.2.effect T.contentsOf (T.tunnelTable nt).contents
  exact : RowsExact (transactionNext T c)

open TunnelTable

variable {T T' : TunnelTable D} {c : Env D × Transaction} {key k : TunnelKey}
  {r r' : TunnelIdx} {fill : TunnelContents → TunnelContents}

theorem RowsExact.not_mapped (h : RowsExact T) (hr : T.used r = false) :
    T.rowOf k ≠ some r := by
  intro hk
  have := (h.used_iff r).mpr ⟨k, hk⟩
  simp [hr] at this

theorem RowsExact.used (h : RowsExact T) (hk : T.rowOf k = some r) : T.used r = true :=
  (h.used_iff r).mpr ⟨k, hk⟩

theorem RowsExact.of_unmapped (hrow : ∀ k, T.rowOf k = none)
    (hfree : ∀ r, T.used r = false) : RowsExact T where
  toKeysOwnRows := .of_unmapped hrow
  used_iff r := by simp [hrow, hfree]

theorem RowsExact.congr (h : RowsExact T) (hentry : T'.entry = T.entry)
    (hkeys : ∀ r, (T'.tunnelTable r).key = (T.tunnelTable r).key)
    (hused : ∀ r, T'.used r = T.used r) : RowsExact T' where
  toKeysOwnRows := h.toKeysOwnRows.congr hentry hkeys
  used_iff r := by
    rw [hused, h.used_iff]
    simp [rowOf, hentry]

/-- Only the rows that keys map to matter to the map. -/
theorem contentsOf_congr (hentry : T'.entry = T.entry)
    (hrows : ∀ k r, T.rowOf k = some r →
      (T'.tunnelTable r).contents = (T.tunnelTable r).contents) :
    T'.contentsOf = T.contentsOf := by
  funext k
  have hrow : T'.rowOf k = T.rowOf k := by simp [rowOf, hentry]
  simp only [contentsOf, hrow]
  cases hk : T.rowOf k with
  | none => rfl
  | some r => simp [hrows k r hk]

/-- Mapping `key` to a row no other key maps to. -/
theorem contentsOf_update
    (hrow : ∀ k, T'.rowOf k = if k = key then some r else T.rowOf k)
    (hfree : ∀ k, T.rowOf k ≠ some r)
    (hrows : ∀ r', r' ≠ r → (T'.tunnelTable r').contents = (T.tunnelTable r').contents) :
    T'.contentsOf = Function.update T.contentsOf key (some (T'.tunnelTable r).contents) := by
  funext k
  by_cases hk : k = key
  · simp [contentsOf, hrow, hk]
  · simp only [contentsOf, hrow, if_neg hk, Function.update_of_ne hk]
    cases hr : T.rowOf k with
    | none => rfl
    | some r' =>
        have hne : r' ≠ r := by
          intro heq
          obtain rfl := heq
          exact hfree k hr
        simp [hrows r' hne]

theorem setUsed_contents (b : Bool) :
    ((T.setUsed r b).tunnelTable r').contents = (T.tunnelTable r').contents := by
  rw [setUsed_row]
  rfl

/-- Putting a used flag back. -/
theorem setUsed_setUsed_self (b : Bool) : (T.setUsed r b).setUsed r (T.used r) = T := by
  simp [setUsed, setRow, TunnelTable.used]

theorem contentsOf_eq_none_iff : T.contentsOf k = none ↔ T.rowOf k = none := by
  simp [contentsOf]

/-! ### A row handed out and written to -/

/-- Row `r` taken for `key` and filled in. -/
def TunnelTable.written (T : TunnelTable D) (r : TunnelIdx) (key : TunnelKey)
    (fill : TunnelContents → TunnelContents) : TunnelTable D :=
  (T.takeRow r key).fillRow r fill

@[simp] theorem written_entry : (T.written r key fill).entry = T.entry := rfl

@[simp] theorem written_rowOf : (T.written r key fill).rowOf k = T.rowOf k := rfl

@[simp] theorem written_hash :
    (T.written r key fill).tunnelHashtable = T.tunnelHashtable := rfl

theorem written_row : (T.written r key fill).tunnelTable r =
    { (T.tunnelTable r).withContents (fill (T.tunnelTable r).contents) with
      isRowUsed := true, key := key } := by
  simp [written, fillRow, takeRow, setRow, Tunnel.withContents, Tunnel.contents]

theorem written_row_of_ne (h : r' ≠ r) :
    (T.written r key fill).tunnelTable r' = T.tunnelTable r' := by
  simp [written, fillRow, takeRow, setRow, h]

theorem written_used :
    (T.written r key fill).used r' = if r' = r then true else T.used r' := by
  by_cases h : r' = r
  · subst h
    simp [TunnelTable.used, written_row]
  · simp [TunnelTable.used, written_row_of_ne, h]

theorem written_key : ((T.written r key fill).tunnelTable r).key = key := by
  rw [written_row]

theorem written_contents : ((T.written r key fill).tunnelTable r).contents =
    fill (T.tunnelTable r).contents := by
  rw [written_row]
  rfl

/-- The key maps where it did, and to nothing new. -/
theorem RowsExact.written_own (h : RowsExact T) (hr : T.used r = false) (key : TunnelKey)
    (fill : TunnelContents → TunnelContents) : KeysOwnRows (T.written r key fill) := by
  refine .of_stored fun k r' hk => ?_
  have hne : r' ≠ r := by
    intro heq
    obtain rfl := heq
    exact h.not_mapped hr hk
  rw [written_row_of_ne hne]
  exact h.stored k r' hk

/-- Mapping `key` to the free row `r` and freeing the row it mapped to before. -/
theorem RowsExact.remap (h : RowsExact T) (hr : T.used r = false) (hown : KeysOwnRows T')
    (hrow : ∀ k, T'.rowOf k = if k = key then some r else T.rowOf k)
    (hused : ∀ r', T'.used r' =
      if r' = r then true else if T.rowOf key = some r' then false else T.used r') :
    RowsExact T' := by
  refine ⟨hown, fun r' => ?_⟩
  rw [hused]
  by_cases hr' : r' = r
  · subst hr'
    simp only [if_true, true_iff]
    exact ⟨key, by simp [hrow]⟩
  · rw [if_neg hr']
    split
    · rename_i hold
      simp only [Bool.false_eq_true, false_iff]
      intro hex
      obtain ⟨k, hk⟩ := hex
      rw [hrow] at hk
      split at hk
      · exact hr' (Option.some.inj hk).symm
      · rename_i hne
        exact hne (h.distinct k key r' hk hold)
    · rename_i hold
      rw [h.used_iff]
      constructor
      · intro hex
        obtain ⟨k, hk⟩ := hex
        have hne : k ≠ key := by
          intro heq
          obtain rfl := heq
          exact hold hk
        exact ⟨k, by rw [hrow, if_neg hne, hk]⟩
      · intro hex
        obtain ⟨k, hk⟩ := hex
        rw [hrow] at hk
        split at hk
        · exact absurd (Option.some.inj hk).symm hr'
        · exact ⟨k, hk⟩

/-- Committing the row makes it the key's own, whether the key was absent or
mapped to an older row. -/
theorem RowsExact.commit_written (h : RowsExact T) (hacc : D.tunnelHash.Accepts)
    (hup : T.tunnelHashtable.isSome = true) (hr : T.used r = false) :
    RowsExact (tunnelCommit (T.written r key fill) (some r)).2 ∧
      (tunnelCommit (T.written r key fill) (some r)).2.contentsOf =
        Function.update T.contentsOf key (some (fill (T.tunnelTable r).contents)) := by
  have hc := tunnelCommit_cases (T.written r key fill) r
  have hown := (h.written_own hr key fill).commit hc
  have hnot : ∀ k, T.rowOf k ≠ some r := fun k => h.not_mapped hr
  rw [written_key] at hc
  generalize hres : tunnelCommit (T.written r key fill) (some r) = res at hc hown ⊢
  obtain ⟨ret, T'⟩ := res
  simp only at hc hown ⊢
  cases hc with
  | down hash => simp [show T.tunnelHashtable = none from hash] at hup
  | refused t _ _ full => exact absurd (full hacc) (Nat.not_le.mpr (h.room hnot))
  | kept hmap => exact absurd hmap (hnot key)
  | deleted t p hmap => exact absurd (rowOf_eq_some_iff.mpr ⟨p, hmap⟩) (hnot key)
  | inserted t p habs hash =>
      have hrow : ∀ k, ((T.written r key fill).withHash t).rowOf k =
          if k = key then some r else T.rowOf k := fun k => rowOf_update hash
      have hkey : T.rowOf key = none := rowOf_eq_none_iff.mpr habs
      refine ⟨h.remap hr hown hrow fun r' => ?_, ?_⟩
      · simp only [hkey, reduceCtorEq, if_false]
        exact written_used
      · rw [contentsOf_update hrow hnot fun r' hne =>
          congrArg Tunnel.contents (written_row_of_ne hne)]
        exact congrArg _ (congrArg some written_contents)
  | replaced t p old hmap hne hash =>
      have hrow : ∀ k, (((T.written r key fill).setUsed old false).withHash t).rowOf k =
          if k = key then some r else T.rowOf k := fun k => rowOf_update hash
      have hkey : T.rowOf key = some old := rowOf_eq_some_iff.mpr ⟨p, hmap⟩
      refine ⟨h.remap hr hown hrow fun r' => ?_, ?_⟩
      · change ((T.written r key fill).setUsed old false).used r' = _
        rw [used_setUsed, written_used, hkey]
        by_cases h1 : r' = old
        · subst h1
          simp [Ne.symm hne]
        · simp [h1, Ne.symm h1]
      · rw [contentsOf_update hrow hnot fun r' hne' => ?_]
        · refine congrArg _ (congrArg some ?_)
          change (((T.written r key fill).setUsed old false).tunnelTable r).contents = _
          rw [setUsed_contents, written_contents]
        · change (((T.written r key fill).setUsed old false).tunnelTable r').contents = _
          rw [setUsed_contents, written_row_of_ne hne']

/-- Rolling the row back frees it and leaves everything else. -/
theorem RowsExact.rollback_written (h : RowsExact T)
    (hup : T.tunnelHashtable.isSome = true) (hr : T.used r = false) :
    (tunnelRollback (T.written r key fill) (some r)).2 =
      (T.written r key fill).setUsed r false := by
  have hc := tunnelRollback_cases (T.written r key fill) r
  have hnot : ∀ k, T.rowOf k ≠ some r := fun k => h.not_mapped hr
  have hused : (T.written r key fill).used r = true := by simp [written_used]
  rw [written_key] at hc
  generalize hres : tunnelRollback (T.written r key fill) (some r) = res at hc ⊢
  obtain ⟨ret, T'⟩ := res
  simp only at hc ⊢
  cases hc with
  | abandoned | dropped => rfl
  | down hash => simp [show T.tunnelHashtable = none from hash] at hup
  | invalid _ hun => simp [hused] at hun
  | kept hmap | restored hmap => exact absurd hmap (hnot key)
  | stuck old hmap hne hun =>
      have hold : (T.written r key fill).used old = true := by
        rw [written_used, if_neg (Ne.symm hne)]
        exact h.used hmap
      simp [hused, hold] at hun

theorem RowsExact.rolled_back (h : RowsExact T) (hr : T.used r = false) :
    RowsExact ((T.written r key fill).setUsed r false) ∧
      ((T.written r key fill).setUsed r false).contentsOf = T.contentsOf := by
  have hused : ∀ r', ((T.written r key fill).setUsed r false).used r' = T.used r' := by
    intro r'
    rw [used_setUsed, written_used]
    by_cases h1 : r' = r
    · simp [h1, hr]
    · simp [h1]
  have hrows : ∀ r', r' ≠ r → ((T.written r key fill).setUsed r false).tunnelTable r' =
      T.tunnelTable r' := by
    intro r' hne
    rw [setUsed_row, if_neg hne, written_row_of_ne hne, written_used, if_neg hne]
    rfl
  have hne : ∀ k r', T.rowOf k = some r' → r' ≠ r := by
    intro k r' hk heq
    obtain rfl := heq
    exact h.not_mapped hr hk
  refine ⟨⟨.of_stored fun k r' hk => ?_, fun r' => ?_⟩, ?_⟩
  · rw [hrows r' (hne k r' hk)]
    exact h.stored k r' hk
  · rw [hused]
    exact h.used_iff r'
  · exact contentsOf_congr rfl fun k r' hk => congrArg Tunnel.contents (hrows r' (hne k r' hk))

/-! ### A tunnel removed -/

/-- Committing a removal deletes the key. -/
theorem RowsExact.commit_removed (h : RowsExact T) (hk : T.rowOf key = some r) :
    RowsExact (tunnelCommit (T.setUsed r false) (some r)).2 ∧
      (tunnelCommit (T.setUsed r false) (some r)).2.contentsOf =
        Function.update T.contentsOf key none := by
  have hc := tunnelCommit_cases (T.setUsed r false) r
  have hown := (h.toKeysOwnRows.congr rfl fun _ => setUsed_key _ :
    KeysOwnRows (T.setUsed r false)).commit hc
  have hun : (T.setUsed r false).used r = false := by simp [used_setUsed]
  have hmapped : (T.setUsed r false).rowOf key = some r := hk
  rw [setUsed_key, h.stored key r hk] at hc
  generalize hres : tunnelCommit (T.setUsed r false) (some r) = res at hc hown ⊢
  obtain ⟨ret, T'⟩ := res
  simp only at hc hown ⊢
  cases hc with
  | down hash => simp [rowOf_of_down hash] at hmapped
  | inserted t p habs | refused t habs =>
      simp [rowOf_eq_none_iff.mpr habs] at hmapped
  | kept _ hu => simp [hun] at hu
  | replaced t p old hmap hne =>
      rw [rowOf_eq_some_iff.mpr ⟨p, hmap⟩] at hmapped
      exact absurd (Option.some.inj hmapped).symm hne
  | deleted t p hmap _ hash =>
      have hrow : ∀ k, ((T.setUsed r false).withHash t).rowOf k =
          if k = key then none else T.rowOf k := fun k => rowOf_update hash
      refine ⟨⟨hown, fun r' => ?_⟩, ?_⟩
      · change (T.setUsed r false).used r' = true ↔ _
        rw [used_setUsed]
        constructor
        · intro hu
          split at hu
          · cases hu
          · rename_i hne
            obtain ⟨k, hk'⟩ := (h.used_iff r').mp hu
            have hkey : k ≠ key := by
              intro heq
              obtain rfl := heq
              exact hne (Option.some.inj (hk'.symm.trans hk))
            exact ⟨k, by rw [hrow, if_neg hkey, hk']⟩
        · intro hex
          obtain ⟨k, hk'⟩ := hex
          rw [hrow] at hk'
          split at hk'
          · cases hk'
          · rename_i hkey
            have hne : r' ≠ r := by
              intro heq
              obtain rfl := heq
              exact hkey (h.distinct k key r' hk' hk)
            rw [if_neg hne]
            exact h.used hk'
      · funext k
        by_cases hkey : k = key
        · simp [contentsOf, hrow, hkey]
        · simp only [contentsOf, hrow, if_neg hkey, Function.update_of_ne hkey]
          refine congrArg (fun f => (T.rowOf k).map f) (funext fun r' => ?_)
          exact setUsed_contents false

/-- Rolling a removal back leaves the table as it was. -/
theorem RowsExact.rollback_removed (h : RowsExact T) (hk : T.rowOf key = some r) :
    (tunnelRollback (T.setUsed r false) (some r)).2 = T := by
  have hc := tunnelRollback_cases (T.setUsed r false) r
  have hun : (T.setUsed r false).used r = false := by simp [used_setUsed]
  have hmapped : (T.setUsed r false).rowOf key = some r := hk
  rw [setUsed_key, h.stored key r hk] at hc
  generalize hres : tunnelRollback (T.setUsed r false) (some r) = res at hc ⊢
  obtain ⟨ret, T'⟩ := res
  simp only at hc ⊢
  cases hc with
  | down hash => simp [rowOf_of_down hash] at hmapped
  | abandoned habs | invalid habs => simp [habs] at hmapped
  | kept _ hu => simp [hun] at hu
  | dropped old hmap hne | stuck old hmap hne =>
      rw [hmap] at hmapped
      exact absurd (Option.some.inj hmapped).symm hne
  | restored =>
      rw [← h.used hk, setUsed_setUsed_self]

/-! ### Whole transactions -/

theorem RowsExact.ensureUp {env : Env D} (h : RowsExact T)
    (he : tunnelTableEnsureUp env T = some T') :
    RowsExact T' ∧ T'.contentsOf = T.contentsOf ∧ (∀ r, T'.used r = T.used r) ∧
      (∀ r, (T'.tunnelTable r).contents = (T.tunnelTable r).contents) ∧
      T'.lastAllocatedSlot = T.lastAllocatedSlot := by
  rcases tunnelTableEnsureUp_cases env T with ⟨_, h'⟩ | ⟨hdown, _, h'⟩ | ⟨_, _, h'⟩
  · obtain rfl : T = T' := by simpa [h'] using he
    exact ⟨h, rfl, fun _ => rfl, fun _ => rfl, rfl⟩
  · obtain rfl : T.cleared = T' := by simpa [h'] using he
    have hrow : ∀ k, T.rowOf k = none := rowOf_of_down hdown
    have hfree : ∀ r, T.used r = false := by
      intro r
      cases hu : T.used r with
      | false => rfl
      | true =>
          obtain ⟨k, hk⟩ := (h.used_iff r).mp hu
          simp [hrow] at hk
    refine ⟨.of_unmapped (fun _ => rowOf_cleared) (fun _ => rfl), ?_, ?_, fun _ => rfl, rfl⟩
    · funext k
      rw [contentsOf_eq_none_iff.mpr rowOf_cleared, contentsOf_eq_none_iff.mpr (hrow k)]
    · intro r
      rw [hfree]
      rfl
  · simp [h'] at he

theorem noRowFound_iff (key : TunnelKey) : (tunnelAlloc T key).1 = none ↔ NoRowFound T :=
  tunnelAlloc_none_iff

/-- Closing the row that `tunnel_alloc` gave. -/
theorem RowsExact.close_written (h : RowsExact T) (hacc : D.tunnelHash.Accepts)
    (hup : T.tunnelHashtable.isSome = true) (hr : T.used r = false) (key : TunnelKey)
    (fill : TunnelContents → TunnelContents) (closing : Closing) :
    RowsExact (closeTransaction (T.written r key fill) (some r) closing) ∧
      (closeTransaction (T.written r key fill) (some r) closing).contentsOf =
        match closing with
        | .commit => Function.update T.contentsOf key
            (some (fill (T.tunnelTable r).contents))
        | .rollback => T.contentsOf := by
  cases closing with
  | commit => exact h.commit_written hacc hup hr
  | rollback =>
      simp only [closeTransaction, h.rollback_written hup hr]
      exact h.rolled_back hr

theorem RowsExact.close_removed (h : RowsExact T) (hk : T.rowOf key = some r)
    (closing : Closing) :
    RowsExact (closeTransaction (T.setUsed r false) (some r) closing) ∧
      (closeTransaction (T.setUsed r false) (some r) closing).contentsOf =
        match closing with
        | .commit => Function.update T.contentsOf key none
        | .rollback => T.contentsOf := by
  cases closing with
  | commit => exact h.commit_removed hk
  | rollback =>
      simp only [closeTransaction, h.rollback_removed hk]
      exact ⟨h, trivial⟩

/-- A transaction that got no handle. -/
theorem Refines.of_refused (hopen : openTransaction T c = (none, T')) (href : Refused T c)
    (hT' : RowsExact T') (hmap : T'.contentsOf = T.contentsOf)
    (hused : ∀ r, T'.used r = T.used r) : Refines T c := by
  have hnext : transactionNext T c = T' := by
    simp only [transactionNext, hopen]
  refine ⟨by simp [hopen, href], fun _ => ?_, fun nt hnt => ?_, ?_⟩
  · rw [hnext]
    exact ⟨hmap, hused⟩
  · simp [hopen] at hnt
  · rw [hnext]
    exact hT'

/-- A transaction that got handle `r`. -/
theorem Refines.of_opened (hopen : openTransaction T c = (some r, T')) (href : ¬ Refused T c)
    (hexact : RowsExact (transactionNext T c))
    (heff : (transactionNext T c).contentsOf =
      c.2.effect T.contentsOf (T.tunnelTable r).contents) : Refines T c := by
  refine ⟨by simp [hopen, href], fun h => absurd h href, fun nt hnt => ?_, hexact⟩
  obtain rfl : r = nt := by simpa [hopen] using hnt
  exact heff

theorem RowsExact.refines_add (h : RowsExact T) (hacc : D.tunnelHash.Accepts) (env : Env D)
    (key : TunnelKey) (fill : TunnelContents → TunnelContents) (closing : Closing) :
    Refines T (env, .add key fill closing) := by
  rcases tunnelAdd_cases env T key with ⟨he, ha⟩ | ⟨T₁, he, hcase⟩
  · have hdown : T.tunnelHashtable = none ∧ env.tunnelHashCreate = false := by
      rcases tunnelTableEnsureUp_cases env T with ⟨_, h'⟩ | ⟨_, _, h'⟩ | ⟨hd, hf, _⟩
      · simp [h'] at he
      · simp [h'] at he
      · exact ⟨hd, hf⟩
    exact .of_refused ha (Or.inl hdown) h rfl fun _ => rfl
  · obtain ⟨h₁, hmap, hused, hrows, hcur⟩ := h.ensureUp he
    have hup₁ := tunnelTableEnsureUp_up he
    rcases hcase with ⟨hpres, ha⟩ | ⟨habs, ha⟩
    · refine .of_refused ha (Or.inr (Or.inl ?_)) h₁ hmap hused
      rw [← hmap]
      simpa [contentsOf, rowOf] using hpres
    · have hkey : T.contentsOf key = none := by
        rw [← hmap]
        exact contentsOf_eq_none_iff.mpr (rowOf_eq_none_iff.mpr habs)
      have hnone : NoRowFound T₁ ↔ NoRowFound T := by simp [NoRowFound, hused, hcur]
      rcases tunnelAlloc_cases T₁ key with hal | ⟨r, d, hr, hd, hal⟩
      · refine .of_refused (ha.trans hal) (Or.inr (Or.inr ?_)) h₁ hmap hused
        exact hnone.mp ((noRowFound_iff key).mp (congrArg Prod.fst hal))
      · have hfound : ¬ Refused T (env, .add key fill closing) := by
          intro hor
          rcases hor with ⟨hdown, hfail⟩ | hpres | hno
          · have hfail' : env.tunnelHashCreate = false := hfail
            simp [tunnelTableEnsureUp, tunnelTableInit, hdown, hfail'] at he
          · simp [hkey] at hpres
          · have := (noRowFound_iff key).mpr (hnone.mpr hno)
            simp [hal] at this
        have hopen : openTransaction T (env, .add key fill closing) =
            (some r, T₁.takeRow r key) := ha.trans hal
        have hnext : transactionNext T (env, .add key fill closing) =
            closeTransaction (T₁.written r key fill) (some r) closing := by
          simp only [transactionNext, hopen]
          rfl
        obtain ⟨hexact, heff⟩ := h₁.close_written hacc hup₁ hr key fill closing
        refine .of_opened hopen hfound (hnext ▸ hexact) ?_
        rw [hnext, heff, hmap, hrows]
        cases closing <;> rfl

theorem RowsExact.refines_modify (h : RowsExact T) (hacc : D.tunnelHash.Accepts) (env : Env D)
    (key : TunnelKey) (fill : TunnelContents → TunnelContents) (closing : Closing) :
    Refines T (env, .modify key fill closing) := by
  rcases tunnelModify_cases T key with ⟨habs, ha⟩ | ⟨hpres, ha⟩
  · refine .of_refused ha (Or.inl ?_) h rfl fun _ => rfl
    exact contentsOf_eq_none_iff.mpr (rowOf_eq_none_iff.mpr habs)
  · have hup : T.tunnelHashtable.isSome = true := by
      obtain ⟨x, hx⟩ := Option.isSome_iff_exists.mp hpres
      exact up_of_entry hx
    rcases tunnelAlloc_cases T key with hal | ⟨r, d, hr, hd, hal⟩
    · refine .of_refused (ha.trans hal) (Or.inr ?_) h rfl fun _ => rfl
      exact (noRowFound_iff key).mp (congrArg Prod.fst hal)
    · have hfound : ¬ Refused T (env, .modify key fill closing) := by
        intro hor
        rcases hor with hno | hno
        · rw [contentsOf_eq_none_iff, rowOf_eq_none_iff] at hno
          simp [hno] at hpres
        · have := (noRowFound_iff key).mpr hno
          simp [hal] at this
      have hopen : openTransaction T (env, .modify key fill closing) =
          (some r, T.takeRow r key) := ha.trans hal
      have hnext : transactionNext T (env, .modify key fill closing) =
          closeTransaction (T.written r key fill) (some r) closing := by
        simp only [transactionNext, hopen]
        rfl
      obtain ⟨hexact, heff⟩ := h.close_written hacc hup hr key fill closing
      refine .of_opened hopen hfound (hnext ▸ hexact) ?_
      rw [hnext, heff]
      cases closing <;> rfl

theorem RowsExact.refines_remove (h : RowsExact T) (env : Env D) (key : TunnelKey)
    (closing : Closing) : Refines T (env, .remove key closing) := by
  rcases tunnelRemove_cases T key with ⟨r, hk, he⟩ | ⟨hk, ret, hret, he⟩
  · have hopen : openTransaction T (env, .remove key closing) =
        (some r, T.setUsed r false) := by simp [openTransaction, he, hk]
    have hnext : transactionNext T (env, .remove key closing) =
        closeTransaction (T.setUsed r false) (some r) closing := by
      simp only [transactionNext, hopen]
    have hfound : ¬ Refused T (env, .remove key closing) := by
      simp [Refused, contentsOf_eq_none_iff, hk]
    obtain ⟨hexact, heff⟩ := h.close_removed hk closing
    refine .of_opened hopen hfound (hnext ▸ hexact) ?_
    rw [hnext, heff]
    cases closing <;> rfl
  · have hopen : openTransaction T (env, .remove key closing) = (none, T) := by
      cases ret <;> simp_all [openTransaction]
    exact .of_refused hopen (contentsOf_eq_none_iff.mpr hk) h rfl fun _ => rfl

/-- **One transaction.** -/
theorem RowsExact.refines (h : RowsExact T) (hacc : D.tunnelHash.Accepts)
    (c : Env D × Transaction) : Refines T c := by
  obtain ⟨env, tx⟩ := c
  cases tx with
  | add key fill closing => exact h.refines_add hacc env key fill closing
  | modify key fill closing => exact h.refines_modify hacc env key fill closing
  | remove key closing => exact h.refines_remove env key closing

theorem RowsExact.init (D : Dpdk) : RowsExact (TunnelTable.init D) :=
  .of_unmapped (rowOf_of_down rfl) fun _ => rfl

/-- **Every run.**  After any list of transactions the rows are exact, and the
next transaction does to the map what it should: it is refused exactly when
`Refused` says so and then changes nothing, and otherwise it has its effect. -/
theorem transactions_refine_map (D : Dpdk) (hacc : D.tunnelHash.Accepts)
    (txs : List (Env D × Transaction)) (T : TunnelTable D)
    (hrun : exec transactionStep (TunnelTable.init D) txs = some T) :
    RowsExact T ∧ ∀ c, Refines T c := by
  have hT : RowsExact T := by
    refine exec_invariant ?_ (RowsExact.init D) hrun
    intro T c T' hT hstep
    obtain rfl : transactionNext T c = T' := by simpa [transactionStep] using hstep
    exact (hT.refines hacc c).exact
  exact ⟨hT, fun c => hT.refines hacc c⟩

/-- On the list-backed table one tunnel is added and committed, and then removed. -/
theorem transactions_refine_map_listDpdk :
    Refines (transactionNext (TunnelTable.init listDpdk)
      (lapEnv listDpdk, .add addedKey id .commit))
      (lapEnv listDpdk, .remove addedKey .commit) :=
  (transactions_refine_map listDpdk (listHash_accepts TunnelKey TunnelIdx maxTunnelCount)
    [(lapEnv listDpdk, .add addedKey id .commit)] _ rfl).2 _

end Pfm
