import Pfm.StepSystem
import Pfm.TunnelSpec

/-!
# Rows handed out while handles are open

The calls of `tunnel.c` in any order, with any number of handles open.  The
hash and the rows agree as long as a row that some key maps to is never handed
out for another key.  `tunnel_remove` marks such a row free before its key is
gone, so this depends on where the circular cursor stands:

* `HandsOutFreeRow` is what is wanted of one call;
* `CursorClear` is what the state must satisfy before the call;
* `rows_not_shared_iff` : a run keeps every row to one key exactly when
  `CursorClear` holds before each of its calls.
-/

namespace Pfm

open CircularScan StepSystem

/-- One call of the tunnel table. -/
inductive TunnelOp where
  | keyAlloc (remoteIp : PfmIpAddr) (ttype : TunnelType)
  | add (key : TunnelKey)
  | modify (key : TunnelKey)
  | remove (key : TunnelKey)
  | commit (nt : TunnelIdx)
  | rollback (nt : TunnelIdx)

variable {D : Dpdk}

/-- The table after one call. -/
def tunnelOpNext (T : TunnelTable D) (c : Env D × TunnelOp) : TunnelTable D :=
  match c.2 with
  | .keyAlloc remoteIp ttype => (tunnelKeyAlloc c.1 T remoteIp ttype).2
  | .add key => (tunnelAdd c.1 T key).2
  | .modify key => (tunnelModify T key).2
  | .remove key => (tunnelRemove T key).2
  | .commit nt => (tunnelCommit T (some nt)).2
  | .rollback nt => (tunnelRollback T (some nt)).2

/-- None of the calls faults. -/
def tunnelOpStep (T : TunnelTable D) (c : Env D × TunnelOp) : Option (TunnelTable D) :=
  some (tunnelOpNext T c)

/-- The row a call hands out, and the key it is for. -/
def handedOut (T : TunnelTable D) (c : Env D × TunnelOp) :
    Option (TunnelKey × TunnelIdx) :=
  match c.2 with
  | .add key => (tunnelAdd c.1 T key).1.map fun r => (key, r)
  | .modify key => (tunnelModify T key).1.map fun r => (key, r)
  | _ => none

/-- A row that some key maps to is not handed out for another key. -/
def HandsOutFreeRow (T : TunnelTable D) (c : Env D × TunnelOp) : Prop :=
  ∀ key r, handedOut T c = some (key, r) → ∀ k, T.rowOf k = some r → k = key

/-- Each key maps to a row that stores it, and no two keys to one row. -/
structure KeysOwnRows (T : TunnelTable D) : Prop where
  stored : ∀ k r, T.rowOf k = some r → (T.tunnelTable r).key = k
  distinct : ∀ k k' r, T.rowOf k = some r → T.rowOf k' = some r → k = k'

/-- The call looks for a row for `key`: it adds a key that is not committed or
modifies one that is. -/
def SeeksRow (T : TunnelTable D) (op : TunnelOp) (key : TunnelKey) : Prop :=
  (op = .add key ∧ T.rowOf key = none) ∨ (op = .modify key ∧ T.rowOf key ≠ none)

/-- Whenever a row is looked for, every row that is marked free although another
key still maps to it has a free row between the cursor and itself. -/
def CursorClear (T : TunnelTable D) (c : Env D × TunnelOp) : Prop :=
  ∀ key, SeeksRow T c.2 key → ∀ k r, T.rowOf k = some r → k ≠ key →
    T.used r = false → r ≠ T.lastAllocatedSlot →
    ∃ r', r' ≠ T.lastAllocatedSlot ∧ T.used r' = false ∧
      dist T.lastAllocatedSlot r' < dist T.lastAllocatedSlot r

variable {T T' : TunnelTable D} {c : Env D × TunnelOp} {key k : TunnelKey}
  {r r' : TunnelIdx}

theorem KeysOwnRows.of_stored
    (h : ∀ k r, T.rowOf k = some r → (T.tunnelTable r).key = k) : KeysOwnRows T :=
  ⟨h, fun k k' r hk hk' => (h k r hk).symm.trans (h k' r hk')⟩

theorem KeysOwnRows.of_unmapped (h : ∀ k, T.rowOf k = none) : KeysOwnRows T :=
  .of_stored fun k r hk => by simp [h k] at hk

/-- Only the hash and the key fields of the rows matter. -/
theorem KeysOwnRows.congr (h : KeysOwnRows T) (hentry : T'.entry = T.entry)
    (hkeys : ∀ r, (T'.tunnelTable r).key = (T.tunnelTable r).key) : KeysOwnRows T' :=
  .of_stored fun k r hk => by
    rw [hkeys]
    exact h.stored k r (by rwa [TunnelTable.rowOf, hentry] at hk)

namespace TunnelTable

theorem rowOf_cleared : T.cleared.rowOf k = none := by
  simp [rowOf]

theorem rowOf_update {x : Option (Fin maxTunnelCount × TunnelIdx)}
    (h : T'.entry = Function.update T.entry key x) :
    T'.rowOf k = if k = key then x.map Prod.snd else T.rowOf k := by
  by_cases hk : k = key <;> simp [rowOf, h, hk]

end TunnelTable

open TunnelTable

/-- A row that no key maps to leaves the hash room for another key. -/
theorem KeysOwnRows.room (h : KeysOwnRows T) (hfree : ∀ k, T.rowOf k ≠ some r) :
    T.keyCount < maxTunnelCount := by
  cases hh : T.tunnelHashtable with
  | none => simp [keyCount, hh]
  | some t =>
      have hrow : ∀ k p x, D.tunnelHash.slot t k = some (p, x) → T.rowOf k = some x := by
        intro k p x hk
        refine rowOf_eq_some_iff.mpr ⟨p, ?_⟩
        rw [TunnelTable.entry, hh]
        exact hk
      have hcard := RteHash.keys_card_lt (H := D.tunnelHash) (t := t) (x := r)
        (fun k k' p p' x hk hk' => h.distinct k k' x (hrow k p x hk) (hrow k' p' x hk'))
        (fun k p hk => hfree k (hrow k p r hk))
      simpa [keyCount, hh] using hcard

theorem KeysOwnRows.takeRow (h : KeysOwnRows T)
    (hfree : ∀ k, T.rowOf k = some r → k = key) : KeysOwnRows (T.takeRow r key) :=
  .of_stored fun k r' hk => by
    by_cases hr : r' = r
    · subst hr
      rw [takeRow_key_self]
      exact (hfree k hk).symm
    · rw [takeRow_of_ne hr]
      exact h.stored k r' hk

theorem KeysOwnRows.commit {nt : TunnelIdx} {ret : PfmRetval} (h : KeysOwnRows T)
    (hc : CommitOutcome T nt (T.tunnelTable nt).key ret T') : KeysOwnRows T' := by
  cases hc with
  | down => exact h
  | kept => exact h
  | refused t habs hash => exact h.congr hash fun _ => rfl
  | inserted t p habs hash =>
      refine .of_stored fun k r hk => ?_
      rw [rowOf_update hash] at hk
      split at hk
      · rename_i hkey
        obtain rfl : nt = r := by simpa using hk
        exact hkey.symm
      · exact h.stored k r hk
  | deleted t p hmap hun hash =>
      refine .of_stored fun k r hk => ?_
      rw [rowOf_update hash] at hk
      split at hk
      · cases hk
      · exact h.stored k r hk
  | replaced t p old hmap hne hash =>
      refine .of_stored fun k r hk => ?_
      have hrow : ((T.setUsed old false).withHash t).rowOf k =
          if k = (T.tunnelTable nt).key then some nt else T.rowOf k :=
        rowOf_update hash
      change ((T.setUsed old false).tunnelTable r).key = k
      rw [setUsed_key]
      rw [hrow] at hk
      split at hk
      · rename_i hkey
        obtain rfl : nt = r := by simpa using hk
        exact hkey.symm
      · exact h.stored k r hk

theorem KeysOwnRows.rollback {nt : TunnelIdx} {key : TunnelKey} {ret : PfmRetval}
    (h : KeysOwnRows T) (hc : RollbackOutcome T nt key ret T') : KeysOwnRows T' := by
  cases hc with
  | down => exact h
  | invalid => exact h
  | kept => exact h
  | stuck => exact h
  | abandoned => exact h.congr rfl fun _ => setUsed_key _
  | restored => exact h.congr rfl fun _ => setUsed_key _
  | dropped => exact h.congr rfl fun _ => setUsed_key _

theorem KeysOwnRows.ensureUp {env : Env D} (h : KeysOwnRows T)
    (he : tunnelTableEnsureUp env T = some T') : KeysOwnRows T' := by
  rcases tunnelTableEnsureUp_cases env T with ⟨_, h'⟩ | ⟨_, _, h'⟩ | ⟨_, _, h'⟩
  · obtain rfl : T = T' := by simpa [h'] using he
    exact h
  · obtain rfl : T.cleared = T' := by simpa [h'] using he
    exact .of_unmapped fun _ => rowOf_cleared
  · simp [h'] at he

/-- Setting the table up leaves no key that was committed before. -/
theorem rowOf_of_ensureUp {env : Env D} (he : tunnelTableEnsureUp env T = some T')
    (h : T'.rowOf k = some r) : T.rowOf k = some r := by
  rcases tunnelTableEnsureUp_cases env T with ⟨_, h'⟩ | ⟨_, _, h'⟩ | ⟨_, _, h'⟩
  · obtain rfl : T = T' := by simpa [h'] using he
    exact h
  · obtain rfl : T.cleared = T' := by simpa [h'] using he
    simp [rowOf_cleared] at h
  · simp [h'] at he

/-- The state after a call that hands out a free row still agrees. -/
theorem KeysOwnRows.step (h : KeysOwnRows T) (hc : HandsOutFreeRow T c) :
    KeysOwnRows (tunnelOpNext T c) := by
  obtain ⟨env, op⟩ := c
  cases op with
  | keyAlloc remoteIp ttype =>
      simp only [tunnelOpNext]
      rcases tunnelKeyAlloc_cases env T remoteIp ttype with
        ⟨_, he⟩ | ⟨T₁, hup, he | ⟨ip, i, d, _, _, he⟩⟩
      · rw [he]; exact h
      · rw [he]; exact h.ensureUp hup
      · rw [he]; exact (h.ensureUp hup).congr rfl fun _ => rfl
  | add key =>
      simp only [tunnelOpNext]
      rcases tunnelAdd_cases env T key with ⟨_, he⟩ | ⟨T₁, hup, ⟨_, he⟩ | ⟨_, he⟩⟩
      · rw [he]; exact h
      · rw [he]; exact h.ensureUp hup
      · rw [he]
        rcases tunnelAlloc_cases T₁ key with ha | ⟨r, d, _, _, ha⟩
        · rw [ha]; exact h.ensureUp hup
        · rw [ha]
          refine (h.ensureUp hup).takeRow fun k hk => ?_
          exact hc key r (by simp [handedOut, he, ha]) k (rowOf_of_ensureUp hup hk)
  | modify key =>
      simp only [tunnelOpNext]
      rcases tunnelModify_cases T key with ⟨_, he⟩ | ⟨_, he⟩
      · rw [he]; exact h
      · rw [he]
        rcases tunnelAlloc_cases T key with ha | ⟨r, d, _, _, ha⟩
        · rw [ha]; exact h
        · rw [ha]
          exact h.takeRow fun k hk => hc key r (by simp [handedOut, he, ha]) k hk
  | remove key =>
      simp only [tunnelOpNext]
      rcases tunnelRemove_cases T key with ⟨r, _, he⟩ | ⟨_, ret, _, he⟩
      · rw [he]; exact h.congr rfl fun _ => setUsed_key _
      · rw [he]; exact h
  | commit nt => exact h.commit (tunnelCommit_cases T nt)
  | rollback nt => exact h.rollback (tunnelRollback_cases T nt)

/-- Looking for a row in the table as it stands: the row found is one that
another key maps to only if that row comes first after the cursor. -/
theorem handsOut_alloc_iff (key : TunnelKey) :
    (∀ r, (tunnelAlloc T key).1 = some r → ∀ k, T.rowOf k = some r → k = key) ↔
    ∀ k r, T.rowOf k = some r → k ≠ key → T.used r = false → r ≠ T.lastAllocatedSlot →
      ∃ r', r' ≠ T.lastAllocatedSlot ∧ T.used r' = false ∧
        dist T.lastAllocatedSlot r' < dist T.lastAllocatedSlot r := by
  constructor
  · intro h k r hk hne hun hcur
    rcases tunnelAlloc_cases T key with ha | ⟨r', d, hun', hd, ha⟩
    · have := tunnelAlloc_none_iff.mp (congrArg Prod.fst ha) r hcur
      simp [hun] at this
    · have hcur' : r' ≠ T.lastAllocatedSlot := hd.eq ▸ ahead_ne_self _ hd.pos hd.lt
      refine ⟨r', hcur', hun', ?_⟩
      have hdist : dist T.lastAllocatedSlot r' = d := by rw [hd.eq, dist_ahead _ hd.lt]
      rw [hdist]
      by_contra hle
      rcases Nat.lt_or_eq_of_le (Nat.le_of_not_lt hle) with hlt | heq
      · have := rowProbe_eq_next_iff.mp (hd.next _ (dist_pos hcur) hlt)
        rw [ahead_dist] at this
        simp [hun] at this
      · have hr : r = r' := by rw [hd.eq, ← heq, ahead_dist]
        exact hne (h r' (by rw [ha]) k (hr ▸ hk))
  · intro h r ha k hk
    rcases tunnelAlloc_cases T key with he | ⟨r', d, hun, hd, he⟩
    · simp [he] at ha
    · obtain rfl : r' = r := by simpa [he] using ha
      by_contra hne
      have hcur : r' ≠ T.lastAllocatedSlot := hd.eq ▸ ahead_ne_self _ hd.pos hd.lt
      obtain ⟨r'', hcur'', hun'', hlt⟩ := h k r' hk hne hun hcur
      have hdist : dist T.lastAllocatedSlot r' = d := by rw [hd.eq, dist_ahead _ hd.lt]
      rw [hdist] at hlt
      have := rowProbe_eq_next_iff.mp (hd.next _ (dist_pos hcur'') hlt)
      rw [ahead_dist] at this
      simp [hun''] at this

theorem map_key_eq_some_iff {a b : TunnelKey} {o : Option TunnelIdx} :
    o.map (fun r => (a, r)) = some (b, r) ↔ a = b ∧ o = some r := by
  cases o <;> simp

theorem handsOutFreeRow_iff_add (env : Env D) (key : TunnelKey) :
    HandsOutFreeRow T (env, .add key) ↔ CursorClear T (env, .add key) := by
  rcases tunnelTableEnsureUp_cases env T with ⟨hup, he⟩ | ⟨hdown, _, _⟩ | ⟨hdown, _, _⟩
  · rcases tunnelAdd_cases env T key with ⟨he', _⟩ | ⟨T₁, he', hrest⟩
    · simp [he] at he'
    · obtain rfl : T = T₁ := by simpa [he] using he'
      rcases hrest with ⟨hpres, ha⟩ | ⟨habs, ha⟩
      · constructor
        · intro _ key' hor
          rcases hor with ⟨heq, hnone⟩ | ⟨heq, _⟩
          · cases heq
            rw [rowOf_eq_none_iff] at hnone
            simp [hnone] at hpres
          · cases heq
        · intro _ key' r hout
          simp [handedOut, ha] at hout
      · have halloc := handsOut_alloc_iff (T := T) key
        simp only [HandsOutFreeRow, CursorClear, handedOut, ha, map_key_eq_some_iff, SeeksRow]
        constructor
        · intro h key' hor
          rcases hor with ⟨heq, _⟩ | ⟨heq, _⟩
          · cases heq
            exact halloc.mp fun r hr k hk => h key r ⟨rfl, hr⟩ k hk
          · cases heq
        · intro h key' r hex k hk
          obtain ⟨rfl, hr⟩ := hex
          exact halloc.mpr (h key (Or.inl ⟨rfl, rowOf_eq_none_iff.mpr habs⟩)) r hr k hk
  all_goals
    constructor
    · intro _ key' _ k r hk
      simp [rowOf_of_down hdown] at hk
    · intro _ key' r _ k hk
      simp [rowOf_of_down hdown] at hk

theorem handsOutFreeRow_iff_modify (env : Env D) (key : TunnelKey) :
    HandsOutFreeRow T (env, .modify key) ↔ CursorClear T (env, .modify key) := by
  rcases tunnelModify_cases T key with ⟨habs, ha⟩ | ⟨hpres, ha⟩
  · constructor
    · intro _ key' hor
      rcases hor with ⟨heq, _⟩ | ⟨heq, hsome⟩
      · cases heq
      · cases heq
        exact absurd (rowOf_eq_none_iff.mpr habs) hsome
    · intro _ key' r hout
      simp [handedOut, ha] at hout
  · have halloc := handsOut_alloc_iff (T := T) key
    simp only [HandsOutFreeRow, CursorClear, handedOut, ha, map_key_eq_some_iff, SeeksRow]
    constructor
    · intro h key' hor
      rcases hor with ⟨heq, _⟩ | ⟨heq, _⟩
      · cases heq
      · cases heq
        exact halloc.mp fun r hr k hk => h key r ⟨rfl, hr⟩ k hk
    · intro h key' r hex k hk
      obtain ⟨rfl, hr⟩ := hex
      have hsome : T.rowOf key ≠ none := by
        intro hnone
        rw [rowOf_eq_none_iff] at hnone
        simp [hnone] at hpres
      exact halloc.mpr (h key (Or.inr ⟨rfl, hsome⟩)) r hr k hk

/-- **One call.**  What is wanted of a call holds exactly when the cursor is
clear before it. -/
theorem handsOutFreeRow_iff : HandsOutFreeRow T c ↔ CursorClear T c := by
  obtain ⟨env, op⟩ := c
  cases op with
  | add key => exact handsOutFreeRow_iff_add env key
  | modify key => exact handsOutFreeRow_iff_modify env key
  | keyAlloc | remove | commit | rollback =>
      constructor
      · intro _ key' hor
        rcases hor with ⟨heq, _⟩ | ⟨heq, _⟩ <;> cases heq
      · intro _ key' r hout
        simp [handedOut] at hout

/-- **Every run.**  A run hands out no row that another key maps to, and keeps
every row to the one key it stores, exactly when the cursor is clear before each
of its calls. -/
theorem rows_not_shared_iff (D : Dpdk) (calls : List (Env D × TunnelOp)) :
    (Along tunnelOpStep HandsOutFreeRow (TunnelTable.init D) calls ∧
      Always tunnelOpStep KeysOwnRows (TunnelTable.init D) calls) ↔
    Along tunnelOpStep CursorClear (TunnelTable.init D) calls := by
  constructor
  · intro hex
    obtain ⟨hout, _⟩ := hex
    exact hout.imp fun _ _ => handsOutFreeRow_iff.mp
  · intro hclear
    have hout := hclear.imp fun _ _ => handsOutFreeRow_iff.mpr
    refine ⟨hout, always_of_along ?_ ?_ hout⟩
    · intro T c T' hT hc hstep
      obtain rfl : tunnelOpNext T c = T' := by simpa [tunnelOpStep] using hstep
      exact hT.step hc
    · exact .of_unmapped (rowOf_of_down rfl)

/-! ### The cursor comes round

A tunnel is committed in row 1 and removed, which marks its row free.  Before
the removal is committed another key is added and rolled back until the cursor
has passed every other row; the next row handed out for it is row 1. -/

/-- The request environment of the run below. -/
def lapEnv (D : Dpdk) : Env D :=
  ⟨ArpTable.init D, RouteTable.init D, true, true⟩

def removedKey : TunnelKey := ⟨f1uLocalIp, 1⟩

def addedKey : TunnelKey := ⟨f1uLocalIp, 2⟩

def firstRow : TunnelIdx := ⟨1, by decide⟩

/-- Commit `removedKey` in the first row and mark the row free again. -/
def lapStart (D : Dpdk) : List (Env D × TunnelOp) :=
  [(lapEnv D, .add removedKey), (lapEnv D, .commit firstRow), (lapEnv D, .remove removedKey)]

/-- Add `addedKey` and give its row back, `n` times. -/
def lapLoop (D : Dpdk) (n : Nat) : List (Env D × TunnelOp) :=
  (List.range n).flatMap fun d =>
    [(lapEnv D, .add addedKey), (lapEnv D, .rollback (ahead firstRow (d + 1)))]

/-- The cursor is `d` rows past the first one, every row is marked free, and
`removedKey` still maps to the first row. -/
structure LapState (d : Nat) (T : TunnelTable D) : Prop where
  up : T.tunnelHashtable.isSome = true
  free : ∀ r, T.used r = false
  cursor : T.lastAllocatedSlot = ahead firstRow d
  removed : T.rowOf removedKey = some firstRow
  added : T.rowOf addedKey = none

theorem tunnelAdd_of_free {env : Env D} {T T' : TunnelTable D}
    (hensure : tunnelTableEnsureUp env T = some T')
    (habs : T'.rowOf key = none) (hfree : ∀ r, T'.used r = false) :
    tunnelAdd env T key = (some (ahead T'.lastAllocatedSlot 1),
      T'.takeRow (ahead T'.lastAllocatedSlot 1) key) := by
  rcases tunnelAdd_cases env T key with ⟨he, _⟩ | ⟨T₁, he, hrest⟩
  · simp [hensure] at he
  · obtain rfl : T' = T₁ := by simpa [hensure] using he
    rcases hrest with ⟨hpres, _⟩ | ⟨_, ha⟩
    · simp [rowOf_eq_none_iff.mp habs] at hpres
    · rw [ha, tunnelAlloc_of_all_free hfree]

theorem tunnelRollback_of_absent {nt : TunnelIdx} (hup : T.tunnelHashtable.isSome = true)
    (habs : T.rowOf (T.tunnelTable nt).key = none) (hused : T.used nt = true) :
    tunnelRollback T (some nt) = (.success, T.setUsed nt false) := by
  have h := tunnelRollback_cases T nt
  generalize hres : tunnelRollback T (some nt) = res at h ⊢
  obtain ⟨ret, T'⟩ := res
  simp only at h
  cases h with
  | abandoned => rfl
  | down hash => simp [hash] at hup
  | invalid _ hun => simp [hused] at hun
  | kept hmap | restored hmap | dropped _ hmap | stuck _ hmap => simp [habs] at hmap

theorem LapState.takeRow {d : Nat} (h : LapState d T) :
    tunnelAdd (lapEnv D) T addedKey =
      (some (ahead firstRow (d + 1)), T.takeRow (ahead firstRow (d + 1)) addedKey) := by
  have hensure : tunnelTableEnsureUp (lapEnv D) T = some T := by
    simp [tunnelTableEnsureUp, h.up]
  rw [tunnelAdd_of_free hensure h.added h.free, h.cursor, ahead_ahead]

/-- One turn moves the cursor one row on and changes nothing else. -/
theorem LapState.turn {d : Nat} (h : LapState d T) :
    ∃ T', exec tunnelOpStep T [(lapEnv D, .add addedKey),
        (lapEnv D, .rollback (ahead firstRow (d + 1)))] = some T' ∧ LapState (d + 1) T' := by
  have hadd := h.takeRow
  generalize hr : ahead firstRow (d + 1) = r at hadd ⊢
  have hkey : ((T.takeRow r addedKey).tunnelTable r).key = addedKey := takeRow_key_self
  have hback : tunnelRollback (T.takeRow r addedKey) (some r) =
      (.success, (T.takeRow r addedKey).setUsed r false) := by
    refine tunnelRollback_of_absent h.up ?_ (by simp [used_takeRow])
    rw [hkey]
    exact h.added
  refine ⟨(T.takeRow r addedKey).setUsed r false, ?_, ?_⟩
  · simp [tunnelOpStep, tunnelOpNext, hadd, hback]
  · refine ⟨h.up, fun r' => ?_, hr.symm, h.removed, h.added⟩
    rw [used_setUsed]
    split
    · rfl
    · rename_i hne
      simp [used_takeRow, hne, h.free]

theorem LapState.turns (h : LapState 0 T) (n : Nat) :
    ∃ T', exec tunnelOpStep T (lapLoop D n) = some T' ∧ LapState n T' := by
  induction n with
  | zero => exact ⟨T, rfl, h⟩
  | succ n ih =>
      obtain ⟨T₁, hrun, hT₁⟩ := ih
      obtain ⟨T₂, hturn, hT₂⟩ := hT₁.turn
      refine ⟨T₂, ?_, hT₂⟩
      have hloop : lapLoop D (n + 1) = lapLoop D n ++ [(lapEnv D, .add addedKey),
          (lapEnv D, .rollback (ahead firstRow (n + 1)))] := by
        simp [lapLoop, List.range_succ]
      rw [hloop, exec_append, hrun]
      exact hturn

/-- A new key is committed when the hash accepts it. -/
theorem tunnelCommit_of_absent (nt : TunnelIdx) (hacc : D.tunnelHash.Accepts)
    (hup : T.tunnelHashtable.isSome = true)
    (habs : T.rowOf (T.tunnelTable nt).key = none) (hcount : T.keyCount < maxTunnelCount) :
    ∃ h p, tunnelCommit T (some nt) = (.success, T.withHash h) ∧
      (T.withHash h).entry = Function.update T.entry (T.tunnelTable nt).key (some (p, nt)) := by
  have hc := tunnelCommit_cases T nt
  generalize hres : tunnelCommit T (some nt) = res at hc ⊢
  obtain ⟨ret, T'⟩ := res
  simp only at hc
  have habs' := rowOf_eq_none_iff.mp habs
  cases hc with
  | inserted h p _ hash => exact ⟨h, p, rfl, hash⟩
  | down hash => simp [hash] at hup
  | refused h _ _ full => exact absurd (full hacc) (by omega)
  | kept hmap => simp [habs] at hmap
  | deleted _ _ hmap | replaced _ _ _ hmap => simp [habs'] at hmap

theorem keyCount_cleared : T.cleared.keyCount = 0 := by
  simp only [keyCount, cleared, Finset.card_eq_zero]
  refine Finset.eq_empty_of_forall_notMem fun k hk => ?_
  simp [D.tunnelHash.mem_keys, D.tunnelHash.slot_empty] at hk

theorem lapStart_state (hacc : D.tunnelHash.Accepts) :
    ∃ T, exec tunnelOpStep (TunnelTable.init D) (lapStart D) = some T ∧ LapState 0 T := by
  let T₀ := (TunnelTable.init D).cleared
  let T₁ := T₀.takeRow firstRow removedKey
  have hcur : ahead T₀.lastAllocatedSlot 1 = firstRow := by
    change ahead (0 : TunnelIdx) 1 = 1
    decide
  have hadd : tunnelAdd (lapEnv D) (TunnelTable.init D) removedKey = (some firstRow, T₁) := by
    have hensure : tunnelTableEnsureUp (lapEnv D) (TunnelTable.init D) = some T₀ := rfl
    rw [tunnelAdd_of_free hensure rowOf_cleared (fun _ => rfl), hcur]
  have hkey : (T₁.tunnelTable firstRow).key = removedKey := takeRow_key_self
  have hcount : T₁.keyCount < maxTunnelCount := by
    have : T₁.keyCount = 0 := keyCount_cleared (T := TunnelTable.init D)
    omega
  obtain ⟨h, p, hcommit, hentry⟩ := tunnelCommit_of_absent firstRow hacc rfl
    (by rw [hkey]; exact rowOf_cleared (T := TunnelTable.init D)) hcount
  have hrow : ∀ k, (T₁.withHash h).rowOf k = if k = removedKey then some firstRow else none := by
    intro k
    rw [rowOf_update hentry, hkey]
    simp only [Option.map_some]
    split
    · rfl
    · exact rowOf_cleared (T := TunnelTable.init D)
  have hremove : tunnelRemove (T₁.withHash h) removedKey =
      (.success, (T₁.withHash h).setUsed firstRow false) := by
    rcases tunnelRemove_cases (T₁.withHash h) removedKey with ⟨r, hr, he⟩ | ⟨hr, _⟩
    · obtain rfl : firstRow = r := by simpa [hrow] using hr
      exact he
    · simp [hrow] at hr
  refine ⟨(T₁.withHash h).setUsed firstRow false, ?_, rfl, fun r => ?_, rfl, ?_, ?_⟩
  · simp [lapStart, tunnelOpStep, tunnelOpNext, hadd, hcommit, hremove]
  · rw [used_setUsed]
    split
    · rfl
    · rename_i hne
      change T₁.used r = false
      rw [used_takeRow, if_neg hne]
      rfl
  · exact (hrow removedKey).trans (if_pos rfl)
  · exact (hrow addedKey).trans (if_neg (by decide))

/-- The whole run: after `n` turns `addedKey` is added once more and committed in
the first row. -/
def lapRun (D : Dpdk) (n : Nat) : List (Env D × TunnelOp) :=
  lapStart D ++ lapLoop D n ++ [(lapEnv D, .add addedKey), (lapEnv D, .commit firstRow)]

/-- Once the cursor is right before the first row, that row is handed out. -/
theorem lapRun_hands_out {n : Nat} (hacc : D.tunnelHash.Accepts)
    (hn : ahead firstRow (n + 1) = firstRow) :
    ¬ Along tunnelOpStep HandsOutFreeRow (TunnelTable.init D) (lapRun D n) := by
  intro hout
  obtain ⟨T₀, hstart, hT₀⟩ := lapStart_state hacc
  obtain ⟨T, hloop, hT⟩ := hT₀.turns n
  have hrun : exec tunnelOpStep (TunnelTable.init D) (lapStart D ++ lapLoop D n) = some T := by
    rw [exec_append, hstart]
    exact hloop
  have hadd := hT.takeRow
  rw [hn] at hadd
  have hlast := (hout.drop hrun).1 addedKey firstRow (by simp [handedOut, hadd])
  exact absurd (hlast removedKey hT.removed) (by decide)

/-- With 16000 rows the cursor is there after 15999 turns. -/
theorem removed_row_shared :
    ¬ (Along tunnelOpStep HandsOutFreeRow (TunnelTable.init listDpdk) (lapRun listDpdk 15999) ∧
      Always tunnelOpStep KeysOwnRows (TunnelTable.init listDpdk)
        (lapRun listDpdk 15999)) := by
  intro hex
  obtain ⟨hout, _⟩ := hex
  have hacc : listDpdk.tunnelHash.Accepts := listHash_accepts TunnelKey TunnelIdx maxTunnelCount
  exact lapRun_hands_out hacc (by decide) hout

end Pfm
