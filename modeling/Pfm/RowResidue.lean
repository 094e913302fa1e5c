import Mathlib.Data.Set.Insert
import Pfm.RelatedRuns
import Pfm.TunnelSpec

/-!
# Two tunnel tables with different free rows

Two tables whose hash, cursors and used flags are the same, and whose rows are the
same where it can be seen: in a set of rows that takes in every row a key maps to.
The other rows have the same residue, the fields that whoever fills a row may leave
as they are.  Every function of `tunnel.c` does the same in both tables.
-/

namespace Pfm

open BoundedLoop CircularScan TwoRuns TunnelTable

variable {D : Dpdk} {env : Env D} {T T' : TunnelTable D} {A B : Set TunnelIdx}
  {key : TunnelKey} {r : TunnelIdx}

/-- What is left of a row when it is filled: all of the union but the DRB id. -/
def Tunnel.residue (t : Tunnel) : TunnelInfo := { t.info with drbId := 0 }

/-- The tables differ at most in the rows outside `A`, and there not in the residue. -/
structure TunnelsAlike (A : Set TunnelIdx) (T T' : TunnelTable D) : Prop where
  hash : T'.tunnelHashtable = T.tunnelHashtable
  slot : T'.lastAllocatedSlot = T.lastAllocatedSlot
  id : T'.lastAssignedId = T.lastAssignedId
  used : ∀ r, T'.used r = T.used r
  residue : ∀ r, (T'.tunnelTable r).residue = (T.tunnelTable r).residue
  agree : ∀ r, r ∈ A → T'.tunnelTable r = T.tunnelTable r
  mapped : ∀ k r, T.rowOf k = some r → r ∈ A

namespace TunnelsAlike

theorem entry (h : TunnelsAlike A T T') : T'.entry = T.entry := by
  funext k
  rw [TunnelTable.entry, h.hash, TunnelTable.entry]

theorem rowOf (h : TunnelsAlike A T T') : T'.rowOf = T.rowOf := by
  funext k
  rw [TunnelTable.rowOf, h.entry, TunnelTable.rowOf]

/-- Both tables give the same row the same contents. -/
theorem setRow (h : TunnelsAlike A T T') (r : TunnelIdx) (t : Tunnel) :
    TunnelsAlike (insert r A) (T.setRow r t) (T'.setRow r t) where
  hash := h.hash
  slot := h.slot
  id := h.id
  used r' := by
    by_cases hr : r' = r
    · subst hr
      simp [TunnelTable.used, setRow_self]
    · simpa [TunnelTable.used, setRow_of_ne _ hr] using h.used r'
  residue r' := by
    by_cases hr : r' = r
    · subst hr
      rw [setRow_self, setRow_self]
    · rw [setRow_of_ne _ hr, setRow_of_ne _ hr, h.residue r']
  agree r' hr' := by
    by_cases hr : r' = r
    · subst hr
      rw [setRow_self, setRow_self]
    · rw [setRow_of_ne _ hr, setRow_of_ne _ hr]
      exact h.agree r' (hr'.resolve_left hr)
  mapped k r' hk := Set.mem_insert_of_mem r (h.mapped k r' hk)

theorem setUsed (h : TunnelsAlike A T T') (r : TunnelIdx) (b : Bool) :
    TunnelsAlike A (T.setUsed r b) (T'.setUsed r b) where
  hash := h.hash
  slot := h.slot
  id := h.id
  used r' := by rw [used_setUsed, used_setUsed, h.used r']
  residue r' := by
    rw [setUsed_row, setUsed_row]
    exact h.residue r'
  agree r' hr' := by rw [setUsed_row, setUsed_row, h.agree r' hr', h.used r']
  mapped k r' hk := h.mapped k r' hk

theorem takeRow (h : TunnelsAlike A T T') (r : TunnelIdx) (key : TunnelKey) :
    TunnelsAlike A (T.takeRow r key) (T'.takeRow r key) where
  hash := h.hash
  slot := rfl
  id := h.id
  used r' := by rw [used_takeRow, used_takeRow, h.used r']
  residue r' := by
    by_cases hr : r' = r
    · subst hr
      rw [takeRow_row, takeRow_row]
      exact h.residue r'
    · rw [takeRow_of_ne hr, takeRow_of_ne hr, h.residue r']
  agree r' hr' := by
    by_cases hr : r' = r
    · subst hr
      rw [takeRow_row, takeRow_row, h.agree r' hr']
    · rw [takeRow_of_ne hr, takeRow_of_ne hr, h.agree r' hr']
  mapped k r' hk := h.mapped k r' hk

theorem cleared (h : TunnelsAlike A T T') : TunnelsAlike A T.cleared T'.cleared where
  hash := rfl
  slot := h.slot
  id := h.id
  used _ := rfl
  residue r := h.residue r
  agree r hr := by simp only [TunnelTable.cleared, h.agree r hr]
  mapped k r hk := by simp [TunnelTable.rowOf] at hk

theorem setId (h : TunnelsAlike A T T') (i : Fin maxTunnelCount) :
    TunnelsAlike A { T with lastAssignedId := i } { T' with lastAssignedId := i } :=
  ⟨h.hash, h.slot, rfl, h.used, h.residue, h.agree, h.mapped⟩

end TunnelsAlike

/-! ### The functions of the table -/

theorem tunnelTableEnsureUp_alike (h : TunnelsAlike A T T') (env : Env D) :
    Option.Rel (TunnelsAlike A) (tunnelTableEnsureUp env T) (tunnelTableEnsureUp env T') := by
  simp only [tunnelTableEnsureUp, tunnelTableInit, h.hash]
  split
  · exact .some h
  · cases env.tunnelHashCreate with
    | true => exact .some h.cleared
    | false => exact .none

theorem tunnelKeyAlloc_alike (h : TunnelsAlike A T T') (env : Env D) (remoteIp : PfmIpAddr)
    (ttype : TunnelType) :
    SameResult (TunnelsAlike A) (tunnelKeyAlloc env T remoteIp ttype)
      (tunnelKeyAlloc env T' remoteIp ttype) := by
  have hup := tunnelTableEnsureUp_alike h env
  unfold tunnelKeyAlloc
  generalize tunnelTableEnsureUp env T = x, tunnelTableEnsureUp env T' = y at hup
  cases hup with
  | none => exact ⟨rfl, h⟩
  | @some T₁ T₁' h₁ =>
      cases tunnelLocalIp env remoteIp ttype with
      | none => exact ⟨rfl, h₁⟩
      | some ip =>
          have hscan : scan (fun i => idProbe
              (D.tunnelHash.lookup T₁'.tunnelHashtable (teKey ip i)).1) T₁'.lastAssignedId =
              scan (fun i => idProbe
                (D.tunnelHash.lookup T₁.tunnelHashtable (teKey ip i)).1) T₁.lastAssignedId := by
            rw [h₁.hash, h₁.id]
          simp only [hscan]
          cases scan (fun i => idProbe
              (D.tunnelHash.lookup T₁.tunnelHashtable (teKey ip i)).1) T₁.lastAssignedId with
          | none => exact ⟨rfl, h₁⟩
          | some i => exact ⟨rfl, h₁.setId i⟩

/-- A row handed out in both tables: the same row, under the same key. -/
structure HandedAlike (A : Set TunnelIdx) (x y : Option TunnelIdx × TunnelTable D) : Prop where
  same : SameResult (TunnelsAlike A) x y
  key : ∀ r, x.1 = some r → (y.2.tunnelTable r).key = (x.2.tunnelTable r).key

theorem HandedAlike.refuse (h : TunnelsAlike A T T') : HandedAlike A (none, T) (none, T') :=
  ⟨⟨rfl, h⟩, fun _ hr => by cases hr⟩

theorem tunnelAlloc_alike (h : TunnelsAlike A T T') (key : TunnelKey) :
    HandedAlike A (tunnelAlloc T key) (tunnelAlloc T' key) := by
  have hused : T'.used = T.used := funext h.used
  unfold tunnelAlloc
  simp only [hused, h.slot]
  cases scan (fun i => rowProbe (T.used i)) T.lastAllocatedSlot with
  | none => exact .refuse h
  | some r =>
      refine ⟨⟨rfl, h.takeRow r key⟩, fun r' hr' => ?_⟩
      obtain rfl := Option.some.inj hr'
      rw [takeRow_key_self, takeRow_key_self]

theorem tunnelAdd_alike (h : TunnelsAlike A T T') (env : Env D) (key : TunnelKey) :
    HandedAlike A (tunnelAdd env T key) (tunnelAdd env T' key) := by
  have hup := tunnelTableEnsureUp_alike h env
  unfold tunnelAdd
  generalize tunnelTableEnsureUp env T = x, tunnelTableEnsureUp env T' = y at hup
  cases hup with
  | none => exact .refuse h
  | some h₁ =>
      simp only [h₁.hash]
      split
      · exact .refuse h₁
      · exact tunnelAlloc_alike h₁ key

theorem tunnelModify_alike (h : TunnelsAlike A T T') (key : TunnelKey) :
    HandedAlike A (tunnelModify T key) (tunnelModify T' key) := by
  unfold tunnelModify
  simp only [h.hash]
  split
  · exact .refuse h
  · split
    · exact .refuse h
    · exact tunnelAlloc_alike h key

theorem tunnelRemove_alike (h : TunnelsAlike A T T') (key : TunnelKey) :
    SameResult (TunnelsAlike A) (tunnelRemove T key) (tunnelRemove T' key) := by
  unfold tunnelRemove
  simp only [h.hash]
  split
  · exact ⟨rfl, h⟩
  · split
    · split
      · exact ⟨rfl, h⟩
      · exact ⟨rfl, h⟩
    · cases (D.tunnelHash.lookup T.tunnelHashtable key).2 with
      | none => exact ⟨rfl, h⟩
      | some entry => exact ⟨rfl, h.setUsed entry false⟩

/-- Another hash behind both tables. -/
theorem TunnelsAlike.withHash (h : TunnelsAlike A T T') (hash : Option D.tunnelHash.Table)
    (hmapped : ∀ k r, TunnelTable.rowOf { T with tunnelHashtable := hash } k = some r → r ∈ A) :
    TunnelsAlike A { T with tunnelHashtable := hash } { T' with tunnelHashtable := hash } :=
  ⟨rfl, h.slot, h.id, h.used, h.residue, h.agree, hmapped⟩

/-- A commit maps keys to the rows they mapped to, or to the row committed. -/
theorem tunnelCommit_mapped (hmapped : ∀ k r, T.rowOf k = some r → r ∈ A) (hr : r ∈ A)
    (k : TunnelKey) {r' : TunnelIdx}
    (hk : (tunnelCommit T (some r)).2.rowOf k = some r') : r' ∈ A := by
  have hout := tunnelCommit_cases T r
  generalize (tunnelCommit T (some r)).1 = ret, (tunnelCommit T (some r)).2 = T₁ at hout hk
  have hold : T₁.entry k = T.entry k → r' ∈ A := by
    intro he
    refine hmapped k r' ?_
    rw [TunnelTable.rowOf, ← he]
    exact hk
  have hnew : ∀ p, T₁.entry = Function.update T.entry (T.tunnelTable r).key (some (p, r)) →
      r' ∈ A := by
    intro p he
    by_cases hkey : k = (T.tunnelTable r).key
    · rw [TunnelTable.rowOf, he, hkey, Function.update_self] at hk
      obtain rfl : r = r' := Option.some.inj hk
      exact hr
    · exact hold (by rw [he, Function.update_of_ne hkey])
  cases hout with
  | down | kept => exact hmapped k r' hk
  | inserted h p _ hash => exact hnew p hash
  | refused h _ hash => exact hold (congrFun hash k)
  | replaced h p old _ _ hash => exact hnew p hash
  | deleted h p _ _ hash =>
      by_cases hkey : k = (T.tunnelTable r).key
      · rw [TunnelTable.rowOf, hash, hkey, Function.update_self] at hk
        cases hk
      · exact hold (by rw [hash, Function.update_of_ne hkey])

section commit

variable {t : D.tunnelHash.Table} {p : Fin maxTunnelCount} {old : TunnelIdx}

/-! `tunnel_commit` by what the hash holds under the key of the row. -/

theorem tunnelCommit_eq_add (hh : T.tunnelHashtable = some t)
    (he : T.entry (T.tunnelTable r).key = none) :
    tunnelCommit T (some r) =
      (if (D.tunnelHash.add (some t) (T.tunnelTable r).key r).1 < 0 then .failed else .success,
        { T with tunnelHashtable :=
          (D.tunnelHash.add (some t) (T.tunnelTable r).key r).2 }) := by
  rw [TunnelTable.entry, hh] at he
  simp [tunnelCommit, hh, RteHash.lookup_of_absent he, ENOENT]

theorem tunnelCommit_eq_same (hh : T.tunnelHashtable = some t)
    (he : T.entry (T.tunnelTable r).key = some (p, r)) :
    tunnelCommit T (some r) =
      if T.used r then (.success, T)
      else (if (D.tunnelHash.del (some t) (T.tunnelTable r).key).1 ≠ 0 then .failed
          else .success,
        { T with tunnelHashtable := (D.tunnelHash.del (some t) (T.tunnelTable r).key).2 }) := by
  rw [TunnelTable.entry, hh] at he
  have hpos : ¬ (p.val : Int) < 0 := by omega
  simp [tunnelCommit, hh, RteHash.lookup_of_entry he, hpos]

theorem tunnelCommit_eq_replace (hh : T.tunnelHashtable = some t)
    (he : T.entry (T.tunnelTable r).key = some (p, old)) (hne : r ≠ old) :
    tunnelCommit T (some r) =
      (if (D.tunnelHash.add (some t) (T.tunnelTable r).key r).1 ≠ 0 then .failed else .success,
        { T.setUsed old false with tunnelHashtable :=
          (D.tunnelHash.add (some t) (T.tunnelTable r).key r).2 }) := by
  rw [TunnelTable.entry, hh] at he
  have hpos : ¬ (p.val : Int) < 0 := by omega
  simp [tunnelCommit, hh, RteHash.lookup_of_entry he, hpos, hne]

end commit

theorem tunnelCommit_alike (h : TunnelsAlike A T T') (hr : r ∈ A) :
    SameResult (TunnelsAlike A) (tunnelCommit T (some r)) (tunnelCommit T' (some r)) := by
  have hmapped : ∀ k r', (tunnelCommit T (some r)).2.rowOf k = some r' → r' ∈ A :=
    fun k _ hk => tunnelCommit_mapped h.mapped hr k hk
  have hkey : (T'.tunnelTable r).key = (T.tunnelTable r).key := by rw [h.agree r hr]
  cases hh : T.tunnelHashtable with
  | none =>
      have hh' := h.hash.trans hh
      simp only [tunnelCommit, hh, hh']
      exact ⟨rfl, h⟩
  | some t =>
      have hh' := h.hash.trans hh
      have he' : T'.entry (T'.tunnelTable r).key = T.entry (T.tunnelTable r).key := by
        rw [h.entry, hkey]
      cases he : T.entry (T.tunnelTable r).key with
      | none =>
          rw [tunnelCommit_eq_add hh he] at hmapped ⊢
          rw [tunnelCommit_eq_add hh' (he'.trans he), hkey]
          exact ⟨rfl, h.withHash _ hmapped⟩
      | some x =>
          obtain ⟨p, old⟩ := x
          by_cases hold : r = old
          · subst hold
            rw [tunnelCommit_eq_same hh he] at hmapped ⊢
            rw [tunnelCommit_eq_same hh' (he'.trans he), hkey, h.used]
            cases hu : T.used r with
            | true => exact ⟨rfl, h⟩
            | false =>
                rw [hu] at hmapped
                exact ⟨rfl, h.withHash _ hmapped⟩
          · rw [tunnelCommit_eq_replace hh he hold] at hmapped ⊢
            rw [tunnelCommit_eq_replace hh' (he'.trans he) hold, hkey]
            exact ⟨rfl, (h.setUsed old false).withHash _ hmapped⟩

theorem tunnelRollback_alike (h : TunnelsAlike A T T') (hr : r ∈ A) :
    SameResult (TunnelsAlike A) (tunnelRollback T (some r)) (tunnelRollback T' (some r)) := by
  unfold tunnelRollback
  simp only [h.hash, h.agree r hr, h.used]
  split
  · exact ⟨rfl, h⟩
  · split
    · split
      · split
        · exact ⟨rfl, h.setUsed r false⟩
        · exact ⟨rfl, h⟩
      · exact ⟨rfl, h⟩
    · cases (D.tunnelHash.lookup T.tunnelHashtable (T.tunnelTable r).key).2 with
      | none => exact ⟨rfl, h⟩
      | some entry =>
          simp only
          split
          · split
            · exact ⟨rfl, h⟩
            · exact ⟨rfl, h.setUsed entry true⟩
          · split
            · exact ⟨rfl, h.setUsed r false⟩
            · exact ⟨rfl, h⟩

end Pfm
