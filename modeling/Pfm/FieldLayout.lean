import Mathlib.Algebra.Ring.Nat

/-!
# Records of fixed-width fields

A record is its fields one after the other.  `cut` reads a string as fields of
given widths and gives back what is behind them.

* `cut_flatten`: the fields of a record are read back, whatever follows it;
* `flatten_cut`: a string is its fields and the rest.
-/

namespace FieldLayout

variable {α : Type}

/-- The fields of these widths, and the rest. -/
def cut : List Nat → List α → List (List α) × List α
  | [], l => ([], l)
  | w :: ws, l => (l.take w :: (cut ws (l.drop w)).1, (cut ws (l.drop w)).2)

@[simp] theorem cut_nil (l : List α) : cut [] l = ([], l) := rfl

@[simp] theorem cut_cons (w : Nat) (ws : List Nat) (l : List α) :
    cut (w :: ws) l = (l.take w :: (cut ws (l.drop w)).1, (cut ws (l.drop w)).2) := rfl

theorem cut_flatten (fields : List (List α)) (rest : List α) :
    cut (fields.map List.length) (fields.flatten ++ rest) = (fields, rest) := by
  induction fields with
  | nil => rfl
  | cons field fields ih =>
      rw [List.map_cons, List.flatten_cons, List.append_assoc, cut_cons, List.take_left,
        List.drop_left, ih]

theorem flatten_cut (ws : List Nat) (l : List α) : (cut ws l).1.flatten ++ (cut ws l).2 = l := by
  induction ws generalizing l with
  | nil => rfl
  | cons w ws ih =>
      rw [cut_cons, List.flatten_cons, List.append_assoc, ih, List.take_append_drop]

/-- A string that is long enough has fields of these widths. -/
theorem map_length_cut {ws : List Nat} {l : List α} (h : ws.sum ≤ l.length) :
    (cut ws l).1.map List.length = ws := by
  induction ws generalizing l with
  | nil => rfl
  | cons w ws ih =>
      rw [List.sum_cons] at h
      have hrest : ws.sum ≤ (l.drop w).length := by
        rw [List.length_drop]
        omega
      rw [cut_cons, List.map_cons, List.length_take, Nat.min_eq_left (by omega), ih hrest]

end FieldLayout
