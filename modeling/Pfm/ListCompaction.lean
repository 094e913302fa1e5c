import Mathlib.Data.List.ReduceOption
import Pfm.BoundedLoop

/-!
# Packing an array of pointers in place

The loop `for (i = 0, j = 0; i < n; i++) if (from[i] != NULL) list[j++] = from[i];`
moves the pointers that are not NULL to the front of `list` and leaves what lies
behind them.  `from` may be `list` itself, as no slot is read after it was written.

* `overwrite xs l` : the list `l` with `xs` written over its front;
* `packFrom` : the loop, for any way the source depends on the list being packed;
* `packFrom_eq` : what it leaves, when the slots still to be read are as they were.
-/

namespace BoundedLoop

section overwrite

variable {α : Type} {l xs : List α} {x : α}

/-- `l` with `xs` written over its first elements. -/
def overwrite (xs l : List α) : List α := xs ++ l.drop xs.length

/-- Behind what was written the list is as it was. -/
theorem getElem?_overwrite {i : Nat} (h : xs.length ≤ i) :
    (overwrite xs l)[i]? = l[i]? := by
  rw [overwrite, List.getElem?_append_right h, List.getElem?_drop]
  congr 1
  omega

/-- Writing the next element. -/
theorem set_overwrite (h : xs.length < l.length) :
    (overwrite xs l).set xs.length x = overwrite (xs ++ [x]) l := by
  rw [overwrite, List.set_append_right _ _ (Nat.le_refl _), Nat.sub_self,
    List.drop_eq_getElem_cons h, List.set_cons_zero, overwrite]
  simp

/-- Writing what is there already. -/
theorem overwrite_snoc_same (h : l[xs.length]? = some x) :
    overwrite (xs ++ [x]) l = overwrite xs l := by
  obtain ⟨hlt, rfl⟩ := List.getElem?_eq_some_iff.mp h
  simp [overwrite]

theorem take_overwrite {k : Nat} (h : xs.length ≤ k) :
    (overwrite xs l).take k = overwrite xs (l.take k) := by
  rw [overwrite, overwrite, List.take_append, List.take_of_length_le h, List.drop_take]

theorem take_length_overwrite : (overwrite xs l).take xs.length = xs := by
  rw [overwrite, List.take_append_of_le_length (Nat.le_refl _), List.take_length]

/-- Writing over the front gives the list back when it is its own front. -/
theorem overwrite_eq_self_iff : overwrite xs l = l ↔ xs <+: l := by
  constructor
  · intro h
    exact ⟨l.drop xs.length, h⟩
  · intro h
    obtain ⟨ys, rfl⟩ := h
    simp [overwrite]

end overwrite

/-- A list without NULL is its pointers. -/
theorem eq_map_some_of_length {α : Type} {l : List (Option α)}
    (h : l.reduceOption.length = l.length) : l = l.reduceOption.map some := by
  induction l with
  | nil => rfl
  | cons x rest ih =>
      cases x with
      | some x =>
          have hrest : rest.reduceOption.length = rest.length := by simpa using h
          rw [List.reduceOption_cons_of_some, List.map_cons, ← ih hrest]
      | none =>
          have hle := List.reduceOption_length_le rest
          rw [List.reduceOption_cons_of_none, List.length_cons] at h
          omega

namespace CArray

variable {n : Nat} {α : Type}

theorem getElem?_ofFn (a : CArray n α) (i : Nat) : (List.ofFn a)[i]? = a.get? i := by
  rw [List.getElem?_ofFn]
  rfl

theorem firstN_eq_take (a : CArray n α) (k : Nat) : a.firstN k = (List.ofFn a).take k := rfl

theorem ofFn_set? {a b : CArray n α} {i : Nat} {x : α} (h : a.set? i x = some b) :
    List.ofFn b = (List.ofFn a).set i x := by
  refine List.ext_getElem? fun j => ?_
  have hi := lt_of_set? h
  rw [getElem?_ofFn, get?_set? h, List.getElem?_set, getElem?_ofFn]
  by_cases hji : j = i
  · subst hji
    simp [hi]
  · rw [if_neg hji, if_neg (Ne.symm hji)]

/-- When no pointer below `k` is NULL, the first `k` slots are the pointers. -/
theorem firstN_eq_map_some {a : CArray n (Option α)} {k : Nat}
    (h : ∀ i, i < k → (a.deref? i).isSome = true) :
    a.firstN k = (a.firstN k).reduceOption.map some := by
  induction k with
  | zero => rfl
  | succ k ih =>
      obtain ⟨x, hx⟩ := Option.isSome_iff_exists.mp (h k (Nat.lt_succ_self k))
      rw [firstN_succ (deref?_eq_some_iff.mp hx), List.reduceOption_append, List.map_append,
        ← ih fun i hi => h i (Nat.lt_succ_of_lt hi)]
      rfl

theorem le_of_deref? {a : CArray n (Option α)} {k : Nat}
    (h : ∀ i, i < k → (a.deref? i).isSome = true) : k ≤ n := by
  by_contra hlt
  obtain ⟨x, hx⟩ := Option.isSome_iff_exists.mp (h n (by omega))
  exact absurd (lt_of_get? (deref?_eq_some_iff.mp hx)) (Nat.lt_irrefl n)

end CArray

/-- The packing loop. -/
def packFrom {m n : Nat} {α : Type}
    (source : CArray n (Option α) → CArray m (Option α)) (count : Nat)
    (list : CArray n (Option α)) : Option (CArray n (Option α) × Nat) :=
  forRange (fun i s => do
    match ← (source s.1).get? i with
    | none => some s
    | some x => do
        let list ← s.1.set? s.2 (some x)
        some (list, s.2 + 1)) count (list, 0)

/-- **Packing.**  When the slots still to be read are those of `a`, the loop writes
the pointers among the first `count` slots of `a` over the front of the list, and
counts them. -/
theorem packFrom_eq {m n : Nat} {α : Type}
    {source : CArray n (Option α) → CArray m (Option α)} {a : CArray m (Option α)}
    {list : CArray n (Option α)} {count : Nat} (hm : count ≤ m) (hn : count ≤ n)
    (hread : ∀ l i xs, xs.length ≤ i → List.ofFn l = overwrite xs (List.ofFn list) →
      (source l).get? i = a.get? i) :
    ∃ out, packFrom source count list = some (out, (a.firstN count).reduceOption.length) ∧
      List.ofFn out =
        overwrite ((a.firstN count).reduceOption.map some) (List.ofFn list) := by
  have hrun : ∃ s, packFrom source count list = some s ∧
      s.2 = (a.firstN count).reduceOption.length ∧
      List.ofFn s.1 =
        overwrite ((a.firstN count).reduceOption.map some) (List.ofFn list) := by
    refine forRange_isSome (fun i (s : CArray n (Option α) × Nat) =>
      s.2 = (a.firstN i).reduceOption.length ∧
      List.ofFn s.1 = overwrite ((a.firstN i).reduceOption.map some) (List.ofFn list))
      ⟨rfl, rfl⟩ ?_
    intro i s hi hinv
    obtain ⟨hj, hs⟩ := hinv
    have hlen : (a.firstN i).reduceOption.length ≤ i := by
      refine Nat.le_trans (List.reduceOption_length_le _) ?_
      rw [CArray.firstN_eq_take]
      exact List.length_take_le _ _
    have hget := CArray.get?_of_lt a (Nat.lt_of_lt_of_le hi hm)
    have hsrc : (source s.1).get? i = some (a ⟨i, Nat.lt_of_lt_of_le hi hm⟩) :=
      (hread s.1 i _ (by rwa [List.length_map]) hs).trans hget
    cases hx : a ⟨i, Nat.lt_of_lt_of_le hi hm⟩ with
    | none =>
        refine ⟨s, by simp [hsrc, hx], ?_⟩
        have hnone : (a.firstN i ++ [none]).reduceOption = (a.firstN i).reduceOption := by
          simp [List.reduceOption_append]
        rw [CArray.firstN_succ hget, hx, hnone]
        exact ⟨hj, hs⟩
    | some x =>
        have hlt : s.2 < n := by omega
        refine ⟨(Function.update s.1 ⟨s.2, hlt⟩ (some x), s.2 + 1), ?_, ?_⟩
        · simp [hsrc, hx, CArray.set?_of_lt s.1 hlt]
        · rw [CArray.firstN_succ hget, hx, List.reduceOption_append]
          refine ⟨by simp [hj], ?_⟩
          have hset := CArray.ofFn_set? (CArray.set?_of_lt s.1 hlt (some x))
          have hfront : s.2 = ((a.firstN i).reduceOption.map some).length := by
            rw [List.length_map, hj]
          have hroom : ((a.firstN i).reduceOption.map some).length < (List.ofFn list).length := by
            rw [← hfront, List.length_ofFn]
            exact hlt
          rw [hset, hs, hfront, set_overwrite hroom, List.map_append]
          rfl
  obtain ⟨⟨out, j⟩, hrun, rfl, hout⟩ := hrun
  exact ⟨out, hrun, hout⟩

/-- Packing a list in place. -/
theorem packFrom_self {n : Nat} {α : Type} (list : CArray n (Option α)) {count : Nat}
    (hn : count ≤ n) :
    ∃ out, packFrom (fun l => l) count list =
        some (out, (list.firstN count).reduceOption.length) ∧
      List.ofFn out =
        overwrite ((list.firstN count).reduceOption.map some) (List.ofFn list) := by
  refine packFrom_eq hn hn fun l i xs hi hl => ?_
  rw [← CArray.getElem?_ofFn, hl, getElem?_overwrite hi, CArray.getElem?_ofFn]

/-- Packing the pointers of another list. -/
theorem packFrom_other {m n : Nat} {α : Type} (a : CArray m (Option α))
    (list : CArray n (Option α)) {count : Nat} (hm : count ≤ m) (hn : count ≤ n) :
    ∃ out, packFrom (fun _ => a) count list =
        some (out, (a.firstN count).reduceOption.length) ∧
      List.ofFn out = overwrite ((a.firstN count).reduceOption.map some) (List.ofFn list) :=
  packFrom_eq hm hn fun _ _ _ _ _ => rfl

end BoundedLoop
