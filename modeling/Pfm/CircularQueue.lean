import Pfm.CircularScan

/-!
# Queues in circular arrays

A queue in an array of `n` slots with two cursors: items are written at the head and
taken at the tail, and the queue is empty when the two meet.  It therefore holds at most
`n - 1` items; one slot stays unused.

* `contents` is the queue as a list, oldest item first;
* `Holds` says that the slots in use hold the items of a list;
* `Holds.enqueue`, `Holds.dequeue` are the two operations on it.
-/

namespace CircularQueue

open CircularScan

variable {n : Nat} {α : Type} {slots : Fin n → Option α} {tail head : Fin n} {items : List α}

/-- The items between the cursors. -/
def contents (slots : Fin n → Option α) (tail head : Fin n) : List α :=
  (List.range (dist tail head)).filterMap fun i => slots (ahead tail i)

/-- The slots in use hold the items, in this order. -/
structure Holds (slots : Fin n → Option α) (tail head : Fin n) (items : List α) : Prop where
  length : items.length = dist tail head
  slot : ∀ i x, items[i]? = some x → slots (ahead tail i) = some x

/-- One slot further. -/
theorem dist_ahead_one (h : ahead head 1 ≠ tail) :
    dist tail (ahead head 1) = dist tail head + 1 := by
  have hlt : dist tail head + 1 < n := by
    rcases Nat.lt_or_ge (dist tail head + 1) n with hlt | hge
    · exact hlt
    · exfalso
      apply h
      have hn : dist tail head + 1 = n := Nat.le_antisymm (dist_lt tail head) hge
      rw [← ahead_dist tail head, ahead_ahead, hn, ahead_self]
  have hahead := dist_ahead tail hlt
  rwa [← ahead_ahead, ahead_dist] at hahead

/-- One slot less. -/
theorem dist_of_ahead_one (h : head ≠ tail) :
    dist tail head = dist (ahead tail 1) head + 1 := by
  have hpos : 0 < dist tail head := dist_pos h
  have hlt := dist_lt tail head
  have hahead : ahead (ahead tail 1) (dist tail head - 1) = head := by
    rw [ahead_ahead, show 1 + (dist tail head - 1) = dist tail head by omega, ahead_dist]
  have hdist := dist_ahead (ahead tail 1) (show dist tail head - 1 < n by omega)
  rw [hahead] at hdist
  omega

theorem holds_nil (slots : Fin n → Option α) (c : Fin n) : Holds slots c c [] where
  length := (CircularScan.dist_self c).symm
  slot i x h := by simp at h

namespace Holds

theorem contents_eq (h : Holds slots tail head items) : contents slots tail head = items := by
  have hprefix (k : Nat) (hk : k ≤ items.length) :
      (List.range k).filterMap (fun i => slots (ahead tail i)) = items.take k := by
    induction k with
    | zero => rfl
    | succ k ih =>
        have hget : items[k]? = some items[k] := List.getElem?_eq_getElem (by omega)
        rw [List.range_succ, List.filterMap_append, ih (by omega), List.take_add_one, hget]
        simp [h.slot k items[k] hget]
  rw [contents, ← h.length, hprefix items.length (Nat.le_refl _), List.take_length]

/-- The head is not in use. -/
theorem ahead_ne_head (h : Holds slots tail head items) {i : Nat} (hi : i < items.length) :
    ahead tail i ≠ head := by
  intro heq
  rw [h.length] at hi
  rw [← ahead_dist tail head] at heq
  have := ahead_inj tail (Nat.lt_trans hi (dist_lt tail head)) (dist_lt tail head) heq
  omega

/-- What is written at the head does not change the queue. -/
theorem write_head (h : Holds slots tail head items) (x : Option α) :
    Holds (Function.update slots head x) tail head items where
  length := h.length
  slot i y hy := by
    have hi := (List.getElem?_eq_some_iff.mp hy).1
    rw [Function.update_of_ne (h.ahead_ne_head hi)]
    exact h.slot i y hy

/-- **Enqueue**: write at the head and move it, where that does not meet the tail. -/
theorem enqueue (h : Holds slots tail head items) (hroom : ahead head 1 ≠ tail) (a : α) :
    Holds (Function.update slots head (some a)) tail (ahead head 1) (items ++ [a]) where
  length := by
    rw [List.length_append, h.length, dist_ahead_one hroom, List.length_singleton]
  slot i y hy := by
    rcases Nat.lt_or_ge i items.length with hi | hi
    · rw [List.getElem?_append_left hi] at hy
      exact (h.write_head (some a)).slot i y hy
    · rw [List.getElem?_append_right hi] at hy
      obtain ⟨hlen, hget⟩ := List.getElem?_eq_some_iff.mp hy
      rw [List.length_singleton] at hlen
      have hlast : i = items.length := by omega
      subst hlast
      rw [h.length, ahead_dist, Function.update_self, ← hget]
      simp

/-- **Dequeue**: read at the tail and move it, where it does not meet the head. -/
theorem dequeue (h : Holds slots tail head items) (hne : head ≠ tail) :
    ∃ a rest, items = a :: rest ∧ slots tail = some a ∧ Holds slots (ahead tail 1) head rest := by
  have hlen := h.length
  rw [dist_of_ahead_one hne] at hlen
  cases items with
  | nil => cases hlen
  | cons a rest =>
      refine ⟨a, rest, rfl, ?_, ?_, ?_⟩
      · have hslot := h.slot 0 a rfl
        rwa [ahead_zero] at hslot
      · exact Nat.succ.inj hlen
      · intro i x hx
        rw [ahead_ahead, Nat.add_comm]
        exact h.slot (i + 1) x hx

end Holds

end CircularQueue
