import Mathlib.Data.List.Perm.Subperm
import Mathlib.Data.List.Range
import Pfm.RteHash

/-!
# A list-backed hash table

`listHash` implements the calls of `RteHash` on an association list: a new key
gets the lowest free position, and is refused only when every position is
taken.  It shows that the demands of `RteHash` can be met together with the
capacity promise, and it is what concrete runs are computed with.
-/

namespace Pfm

namespace ListHash

variable {κ δ : Type} {entries : Nat}

/-- Entries of the list: key, position, data. -/
abbrev Entries (κ δ : Type) (entries : Nat) := List (κ × Fin entries × δ)

/-- Keys and positions are each listed once. -/
structure Distinct (l : Entries κ δ entries) : Prop where
  keys : (l.map fun e => e.1).Nodup
  positions : (l.map fun e => e.2.1).Nodup

/-- The lowest position not taken. -/
def freePosition (l : Entries κ δ entries) : Option (Fin entries) :=
  ((List.range (l.length + 1)).find? fun p => p ∉ l.map fun e => e.2.1.val).bind fun p =>
    if h : p < entries then some ⟨p, h⟩ else none

theorem freePosition_notMem {l : Entries κ δ entries} {p : Fin entries}
    (h : freePosition l = some p) : p ∉ l.map fun e => e.2.1 := by
  obtain ⟨q, hq, hqp⟩ := Option.bind_eq_some_iff.mp h
  split at hqp
  · obtain rfl : _ = p := Option.some.inj hqp
    have := List.find?_some hq
    simp only [decide_eq_true_eq, List.mem_map, not_exists, not_and] at this ⊢
    intro e he heq
    exact this e he (by rw [heq])
  · cases hqp

/-- With fewer keys than positions a position is free: among the first
`length + 1` positions one is not listed. -/
theorem freePosition_isSome {l : Entries κ δ entries} (h : l.length < entries) :
    (freePosition l).isSome := by
  have hex : ∃ p ∈ List.range (l.length + 1), p ∉ l.map fun e => e.2.1.val := by
    by_contra hall
    push Not at hall
    have hle := (List.subperm_of_subset List.nodup_range hall).length_le
    simp only [List.length_range, List.length_map] at hle
    omega
  obtain ⟨p, hp, hfree⟩ := hex
  obtain ⟨q, hq⟩ : ∃ q, (List.range (l.length + 1)).find?
      (fun p => p ∉ l.map fun e => e.2.1.val) = some q := by
    apply Option.isSome_iff_exists.mp
    rw [List.find?_isSome]
    exact ⟨p, hp, by simpa using hfree⟩
  have hlt : q < entries := by
    have := List.mem_range.mp (List.mem_of_find?_eq_some hq)
    omega
  simp only [freePosition, hq, Option.bind_some, dif_pos hlt, Option.isSome_some]

variable [DecidableEq κ]

def find (l : Entries κ δ entries) (k : κ) : Option (Fin entries × δ) :=
  (l.find? fun e => e.1 = k).map fun e => e.2

/-- Replace the data of a key. -/
def overwrite (l : Entries κ δ entries) (k : κ) (d : δ) : Entries κ δ entries :=
  l.map fun e => if e.1 = k then (e.1, e.2.1, d) else e

/-- Drop a key. -/
def erase (l : Entries κ δ entries) (k : κ) : Entries κ δ entries :=
  l.filter fun e => e.1 ≠ k

theorem find_cons (e : κ × Fin entries × δ) (l : Entries κ δ entries) (k : κ) :
    find (e :: l) k = if e.1 = k then some e.2 else find l k := by
  by_cases h : e.1 = k <;> simp [find, h]

theorem find_isSome {l : Entries κ δ entries} {k : κ} :
    (find l k).isSome ↔ k ∈ l.map fun e => e.1 := by
  induction l with
  | nil => simp [find]
  | cons e l ih =>
      rw [find_cons]
      by_cases h : e.1 = k
      · simp [h]
      · simp only [if_neg h, ih, List.map_cons, List.mem_cons]
        exact ⟨Or.inr, fun hk => hk.resolve_left fun heq => h heq.symm⟩

theorem mem_of_find {l : Entries κ δ entries} {k : κ} {x : Fin entries × δ}
    (h : find l k = some x) : (k, x) ∈ l := by
  obtain ⟨e, he, rfl⟩ := Option.map_eq_some_iff.mp h
  have hk : e.1 = k := by simpa using List.find?_some he
  exact hk ▸ List.mem_of_find?_eq_some he

theorem find_overwrite (l : Entries κ δ entries) (k k' : κ) (d : δ) :
    find (overwrite l k d) k' =
      if k' = k then (find l k).map fun x => (x.1, d) else find l k' := by
  induction l with
  | nil => by_cases h : k' = k <;> simp [overwrite, find]
  | cons e l ih =>
      simp only [overwrite, List.map_cons] at ih ⊢
      by_cases hek : e.1 = k
      · by_cases hk : k' = k
        · subst hk
          simp [find_cons, hek]
        · have hne : ¬ e.1 = k' := fun h => hk (h.symm.trans hek)
          simp [find_cons, hek, hk, Ne.symm hk, ih]
      · by_cases hk : k' = k
        · subst hk
          simp [find_cons, hek, ih]
        · simp [find_cons, hek, hk, ih]

theorem erase_cons (e : κ × Fin entries × δ) (l : Entries κ δ entries) (k : κ) :
    erase (e :: l) k = if e.1 = k then erase l k else e :: erase l k := by
  by_cases h : e.1 = k <;> simp [erase, h]

theorem find_erase (l : Entries κ δ entries) (k k' : κ) :
    find (erase l k) k' = if k' = k then none else find l k' := by
  induction l with
  | nil => simp [erase, find]
  | cons e l ih =>
      rw [erase_cons]
      by_cases hek : e.1 = k
      · rw [if_pos hek, ih, find_cons]
        by_cases hk : k' = k
        · simp [hk]
        · have hne : ¬ e.1 = k' := fun h => hk (h.symm.trans hek)
          simp [hk, hne]
      · rw [if_neg hek, find_cons, ih, find_cons]
        by_cases hk : k' = k
        · have hne : ¬ e.1 = k' := fun h => hek (h.trans hk)
          simp [hk, hek]
        · simp [hk]

theorem Distinct.overwrite {l : Entries κ δ entries} (h : Distinct l) (k : κ) (d : δ) :
    Distinct (overwrite l k d) := by
  refine ⟨?_, ?_⟩
  · have : (ListHash.overwrite l k d).map (fun e => e.1) = l.map fun e => e.1 := by
      simp only [ListHash.overwrite, List.map_map]
      refine List.map_congr_left fun e _ => ?_
      by_cases hk : e.1 = k <;> simp [hk]
    rw [this]
    exact h.keys
  · have : (ListHash.overwrite l k d).map (fun e => e.2.1) = l.map fun e => e.2.1 := by
      simp only [ListHash.overwrite, List.map_map]
      refine List.map_congr_left fun e _ => ?_
      by_cases hk : e.1 = k <;> simp [hk]
    rw [this]
    exact h.positions

theorem Distinct.erase {l : Entries κ δ entries} (h : Distinct l) (k : κ) :
    Distinct (erase l k) :=
  ⟨(List.filter_sublist.map _).nodup h.keys, (List.filter_sublist.map _).nodup h.positions⟩

theorem Distinct.cons {l : Entries κ δ entries} (h : Distinct l) {k : κ} {p : Fin entries}
    (hk : find l k = none) (hp : freePosition l = some p) (d : δ) :
    Distinct ((k, p, d) :: l) := by
  refine ⟨List.nodup_cons.mpr ⟨?_, h.keys⟩,
    List.nodup_cons.mpr ⟨freePosition_notMem hp, h.positions⟩⟩
  intro hmem
  have := find_isSome.mpr hmem
  simp [hk] at this

/-- Positions listed once belong to one key. -/
theorem Distinct.find_inj {l : Entries κ δ entries} (h : Distinct l) {k k' : κ}
    {p : Fin entries} {d d' : δ} (hk : find l k = some (p, d))
    (hk' : find l k' = some (p, d')) : k = k' := by
  have heq := List.inj_on_of_nodup_map h.positions (mem_of_find hk) (mem_of_find hk') rfl
  exact congrArg Prod.fst heq

end ListHash

open ListHash in
/-- The list-backed `rte_hash`. -/
def listHash (κ δ : Type) [DecidableEq κ] (entries : Nat) : RteHash κ δ entries where
  Table := { l : Entries κ δ entries // Distinct l }
  slot h k := find h.1 k
  keys h := (h.1.map fun e => e.1).toFinset
  empty := ⟨[], by simp, by simp⟩
  lookupData h k :=
    match find h.1 k with
    | some x => ((x.1.val : Int), some x.2)
    | none => (-ENOENT, none)
  addKeyData h k d :=
    match hk : find h.1 k with
    | some _ => (0, ⟨overwrite h.1 k d, h.2.overwrite k d⟩)
    | none =>
        match hp : freePosition h.1 with
        | some p => (0, ⟨(k, p, d) :: h.1, h.2.cons hk hp d⟩)
        | none => (-ENOSPC, h)
  delKey h k :=
    match find h.1 k with
    | some x => ((x.1.val : Int), ⟨erase h.1 k, h.2.erase k⟩)
    | none => (-ENOENT, h)
  mem_keys h k := by rw [find_isSome, List.mem_toFinset]
  slot_empty k := rfl
  slot_inj h k k' p d d' hk hk' := h.2.find_inj hk hk'
  lookup_present h k p d hk := by simp [hk]
  lookup_absent h k hk := by simp [hk]
  add_present h k p d e hk := by
    split
    · refine ⟨rfl, funext fun k' => ?_⟩
      simp [find_overwrite, Function.update_apply, hk]
    · simp_all
  add_absent h k d hk := by
    split
    · simp_all
    · split
      · rename_i p _
        refine Or.inl ⟨rfl, p, funext fun k' => ?_⟩
        simp [find_cons, Function.update_apply, eq_comm]
      · exact Or.inr ⟨by simp [ENOSPC], rfl⟩
  del_present h k p d hk := by
    simp only [hk, true_and]
    funext k'
    simp [find_erase, Function.update_apply]
  del_absent h k hk := by simp [hk]

/-- The list-backed table keeps the capacity promise. -/
theorem listHash_accepts (κ δ : Type) [DecidableEq κ] (entries : Nat) :
    (listHash κ δ entries).Accepts := by
  intro h k d hcard
  have hlen : h.1.length < entries := by
    have : ((h.1.map fun e => e.1).toFinset).card = h.1.length := by
      rw [List.toFinset_card_of_nodup h.2.keys, List.length_map]
    simp only [listHash] at hcard
    omega
  have hfree := ListHash.freePosition_isSome hlen
  simp only [listHash]
  split
  · rfl
  · split
    · rfl
    · rename_i hnone
      simp [hnone] at hfree

/-- The list-backed table refuses a new key with `-ENOSPC` when it is full. -/
theorem listHash_refusesFull (κ δ : Type) [DecidableEq κ] (entries : Nat) :
    (listHash κ δ entries).RefusesFull := by
  intro h k d habs hfull
  have hlen : entries ≤ h.1.length := by
    have : ((h.1.map fun e => e.1).toFinset).card = h.1.length := by
      rw [List.toFinset_card_of_nodup h.2.keys, List.length_map]
    simp only [listHash] at hfull
    omega
  have hnone : ListHash.freePosition h.1 = none := by
    cases hp : ListHash.freePosition h.1 with
    | none => rfl
    | some p =>
        -- One more position than there are.
        have hnodup : (p :: h.1.map fun e => e.2.1).Nodup :=
          List.nodup_cons.mpr ⟨ListHash.freePosition_notMem hp, h.2.positions⟩
        have hle := hnodup.length_le_card
        simp only [List.length_cons, List.length_map, Fintype.card_fin] at hle
        omega
  simp only [listHash] at habs ⊢
  split
  · simp_all
  · split
    · simp_all
    · rfl

end Pfm
