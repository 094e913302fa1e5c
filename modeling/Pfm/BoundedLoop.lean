import Mathlib.Logic.Function.Basic

/-!
# C arrays and counted loops

The data structures of the repository are fixed-size C arrays worked on by
counted `for` loops.  Reading or writing outside an array, or through a NULL
pointer, is undefined behaviour; here it is `none`, and `none` stops the run.

* `CArray n α` with `get?` and `set?`;
* `forRange body n` is `for (i = 0; i < n; i++) body`;
* `firstIndex test n` is the search loop `for (j = 0; j < n; j++) if (test j) break;`
  with `none` inside for the index `n` it ends on when nothing is found.

The induction over a loop is done once, in `forRange_invariant`.
-/

namespace BoundedLoop

/-- A C array of `n` elements. -/
abbrev CArray (n : Nat) (α : Type) := Fin n → α

namespace CArray

variable {n : Nat} {α : Type}

/-- `a[i]`, `none` outside the array. -/
def get? (a : CArray n α) (i : Nat) : Option α :=
  if h : i < n then some (a ⟨i, h⟩) else none

/-- `a[i] = x`, `none` outside the array. -/
def set? (a : CArray n α) (i : Nat) (x : α) : Option (CArray n α) :=
  if h : i < n then some (Function.update a ⟨i, h⟩ x) else none

/-- The pointer `a[i]`, `none` when it is NULL or outside the array. -/
def deref? (a : CArray n (Option α)) (i : Nat) : Option α := (a.get? i).join

/-- The index `i` of an array of `n`, `none` outside. -/
def index? (n : Nat) (i : Int) : Option (Fin n) :=
  if h : 0 ≤ i ∧ i < n then some ⟨i.toNat, by omega⟩ else none

/-- `a[0], …, a[k - 1]`. -/
def firstN (a : CArray n α) (k : Nat) : List α := (List.ofFn a).take k

theorem index?_of_val {i : Int} {r : Fin n} (h : i = r.val) : index? n i = some r := by
  have hlt := r.isLt
  rw [index?, dif_pos (by omega)]
  exact congrArg some (Fin.ext (by simp [h]))

theorem get?_of_lt (a : CArray n α) {i : Nat} (h : i < n) :
    a.get? i = some (a ⟨i, h⟩) := by
  simp [get?, h]

theorem get?_eq_some_iff {a : CArray n α} {i : Nat} {x : α} :
    a.get? i = some x ↔ ∃ h : i < n, a ⟨i, h⟩ = x := by
  unfold get?
  split <;> simp [*]

theorem set?_of_lt (a : CArray n α) {i : Nat} (h : i < n) (x : α) :
    a.set? i x = some (Function.update a ⟨i, h⟩ x) := by
  simp [set?, h]

theorem lt_of_get? {a : CArray n α} {i : Nat} {x : α} (h : a.get? i = some x) :
    i < n :=
  (get?_eq_some_iff.mp h).1

theorem lt_of_set? {a b : CArray n α} {i : Nat} {x : α} (h : a.set? i x = some b) :
    i < n := by
  unfold set? at h
  split at h
  · assumption
  · cases h

/-- Reading after a successful write. -/
theorem get?_set? {a b : CArray n α} {i : Nat} {x : α} (h : a.set? i x = some b)
    (j : Nat) : b.get? j = if j = i then some x else a.get? j := by
  have hi := lt_of_set? h
  rw [set?_of_lt a hi] at h
  obtain rfl : Function.update a ⟨i, hi⟩ x = b := Option.some.inj h
  by_cases hji : j = i
  · subst hji
    simp [get?, hi]
  · by_cases hj : j < n
    · simp [get?, hj, hji, Fin.ext_iff]
    · simp [get?, hj, hji]

theorem deref?_eq_some_iff {a : CArray n (Option α)} {i : Nat} {x : α} :
    a.deref? i = some x ↔ a.get? i = some (some x) := by
  unfold deref?
  cases a.get? i <;> simp

theorem deref?_set? {a b : CArray n (Option α)} {i : Nat} {x : Option α}
    (h : a.set? i x = some b) (j : Nat) :
    b.deref? j = if j = i then x else a.deref? j := by
  simp only [deref?, get?_set? h]
  split <;> rfl

/-- The pointers of a list that one more was written to the end of. -/
theorem deref?_append {a b : CArray n (Option α)} {c : Nat} {r x : α}
    (h : a.set? c (some r) = some b) :
    (∃ i, i < c + 1 ∧ b.deref? i = some x) ↔
      (∃ i, i < c ∧ a.deref? i = some x) ∨ x = r := by
  simp only [deref?_set? h]
  constructor
  · intro hex
    obtain ⟨i, hi, hx⟩ := hex
    split at hx
    · exact Or.inr (Option.some.inj hx).symm
    · exact Or.inl ⟨i, by omega, hx⟩
  · intro hor
    rcases hor with ⟨i, hi, hx⟩ | rfl
    · exact ⟨i, by omega, by rw [if_neg (by omega), hx]⟩
    · exact ⟨c, Nat.lt_succ_self c, by rw [if_pos rfl]⟩

@[simp] theorem firstN_zero (a : CArray n α) : a.firstN 0 = [] := rfl

theorem firstN_succ {a : CArray n α} {k : Nat} {x : α} (h : a.get? k = some x) :
    a.firstN (k + 1) = a.firstN k ++ [x] := by
  obtain ⟨hk, rfl⟩ := get?_eq_some_iff.mp h
  have hlen : k < (List.ofFn a).length := by simpa using hk
  rw [firstN, firstN, List.take_succ_eq_append_getElem hlen]
  simp

/-- Writing at or past index `k` leaves the first `k` elements. -/
theorem firstN_set? {a b : CArray n α} {i k : Nat} {x : α} (h : a.set? i x = some b)
    (hk : k ≤ i) : b.firstN k = a.firstN k := by
  induction k with
  | zero => rfl
  | succ k ih =>
      have hki : k < n := Nat.lt_of_lt_of_le hk (Nat.le_of_lt (lt_of_set? h))
      have hb : b.get? k = a.get? k := by rw [get?_set? h, if_neg (by omega)]
      have ha := get?_of_lt a hki
      rw [firstN_succ ha, firstN_succ (hb.trans ha), ih (by omega)]

/-- Writing the element after the first `k` appends it. -/
theorem firstN_succ_set? {a b : CArray n α} {k : Nat} {x : α} (h : a.set? k x = some b) :
    b.firstN (k + 1) = a.firstN k ++ [x] := by
  have hb : b.get? k = some x := by rw [get?_set? h, if_pos rfl]
  rw [firstN_succ hb, firstN_set? h (Nat.le_refl k)]

end CArray

variable {σ : Type}

/-- `for (i = 0; i < n; i++) body i`. -/
def forRange (body : Nat → σ → Option σ) : Nat → σ → Option σ
  | 0, s => some s
  | n + 1, s => (forRange body n s).bind (body n)

@[simp] theorem forRange_zero (body : Nat → σ → Option σ) (s : σ) :
    forRange body 0 s = some s := rfl

theorem forRange_succ (body : Nat → σ → Option σ) (n : Nat) (s : σ) :
    forRange body (n + 1) s = (forRange body n s).bind (body n) := rfl

/-- **Loop rule.**  What the body carries from index `i` to index `i + 1`
holds at index `n` after the loop. -/
theorem forRange_invariant (Inv : Nat → σ → Prop) {body : Nat → σ → Option σ}
    {n : Nat} {s t : σ} (h0 : Inv 0 s)
    (hstep : ∀ i s t, i < n → Inv i s → body i s = some t → Inv (i + 1) t)
    (h : forRange body n s = some t) : Inv n t := by
  induction n generalizing t with
  | zero =>
      obtain rfl : s = t := by simpa using h
      exact h0
  | succ n ih =>
      obtain ⟨m, hm, hbody⟩ := Option.bind_eq_some_iff.mp h
      exact hstep n m t (Nat.lt_succ_self n)
        (ih (fun i s t hi => hstep i s t (Nat.lt_succ_of_lt hi)) hm) hbody

/-- A loop whose body never faults under its invariant does not fault. -/
theorem forRange_isSome (Inv : Nat → σ → Prop) {body : Nat → σ → Option σ}
    {n : Nat} {s : σ} (h0 : Inv 0 s)
    (hstep : ∀ i s, i < n → Inv i s → ∃ t, body i s = some t ∧ Inv (i + 1) t) :
    ∃ t, forRange body n s = some t ∧ Inv n t := by
  induction n with
  | zero => exact ⟨s, rfl, h0⟩
  | succ n ih =>
      obtain ⟨m, hm, hinv⟩ := ih (fun i s hi => hstep i s (Nat.lt_succ_of_lt hi))
      obtain ⟨t, ht, hinv'⟩ := hstep n m (Nat.lt_succ_self n) hinv
      exact ⟨t, by rw [forRange_succ, hm]; exact ht, hinv'⟩

/-- A loop with a body that faults less often. -/
theorem forRange_mono {body body' : Nat → σ → Option σ} {n : Nat} {s t : σ}
    (hsub : ∀ i s t, body i s = some t → body' i s = some t)
    (h : forRange body n s = some t) : forRange body' n s = some t := by
  induction n generalizing t with
  | zero => exact h
  | succ n ih =>
      obtain ⟨m, hm, hlast⟩ := Option.bind_eq_some_iff.mp h
      rw [forRange_succ, ih hm]
      exact hsub n m t hlast

/-- A loop that ran to the end took every turn. -/
theorem forRange_turn {body : Nat → σ → Option σ} {n : Nat} {s t : σ}
    (h : forRange body n s = some t) {i : Nat} (hi : i < n) : ∃ u v, body i u = some v := by
  induction n generalizing t with
  | zero => omega
  | succ n ih =>
      rw [forRange_succ] at h
      obtain ⟨m, hm, hlast⟩ := Option.bind_eq_some_iff.mp h
      rcases Nat.lt_succ_iff_lt_or_eq.mp hi with hlt | rfl
      · exact ih hm hlt
      · exact ⟨m, t, hlast⟩

/-- **Simulation.**  When every turn of one loop is matched by a turn of another,
a run of the first is matched by a run of the second. -/
theorem forRange_simulates {τ : Type} (R : Nat → σ → τ → Prop)
    {body : Nat → σ → Option σ} {body' : Nat → τ → Option τ} {n : Nat} {s t : σ} {u : τ}
    (h0 : R 0 s u)
    (hstep : ∀ i s u t, R i s u → body i s = some t → ∃ v, body' i u = some v ∧ R (i + 1) t v)
    (hrun : forRange body n s = some t) : ∃ v, forRange body' n u = some v ∧ R n t v := by
  induction n generalizing t with
  | zero =>
      obtain rfl : s = t := by simpa using hrun
      exact ⟨u, rfl, h0⟩
  | succ n ih =>
      rw [forRange_succ] at hrun
      obtain ⟨m, hm, hlast⟩ := Option.bind_eq_some_iff.mp hrun
      obtain ⟨v, hv, hR⟩ := ih hm
      obtain ⟨v', hv', hR'⟩ := hstep n m v t hR hlast
      exact ⟨v', by rw [forRange_succ, hv]; exact hv', hR'⟩

/-- The index at which a search loop breaks, `none` when it runs to the end. -/
def firstIndex (test : Nat → Option Bool) : Nat → Option (Option Nat)
  | 0 => some none
  | n + 1 => (firstIndex test n).bind fun found =>
      match found with
      | some j => some (some j)
      | none => (test n).map fun b => if b then some n else none

@[simp] theorem firstIndex_zero (test : Nat → Option Bool) :
    firstIndex test 0 = some none := rfl

theorem firstIndex_eq_none_iff {test : Nat → Option Bool} {n : Nat} :
    firstIndex test n = some none ↔ ∀ i, i < n → test i = some false := by
  induction n with
  | zero => simp
  | succ n ih =>
      simp only [firstIndex, Option.bind_eq_some_iff]
      constructor
      · intro hex
        obtain ⟨found, hfound, hlast⟩ := hex
        cases found with
        | some j => simp at hlast
        | none =>
            obtain ⟨b, hb, hb'⟩ := Option.map_eq_some_iff.mp hlast
            have hbf : b = false := by
              cases b
              · rfl
              · simp at hb'
            subst hbf
            intro i hi
            rcases Nat.lt_succ_iff_lt_or_eq.mp hi with hlt | rfl
            · exact ih.mp hfound i hlt
            · exact hb
      · intro h
        refine ⟨none, ih.mpr fun i hi => h i (Nat.lt_succ_of_lt hi), ?_⟩
        simp [h n (Nat.lt_succ_self n)]

theorem firstIndex_eq_some_iff {test : Nat → Option Bool} {n j : Nat} :
    firstIndex test n = some (some j) ↔
      j < n ∧ test j = some true ∧ ∀ i, i < j → test i = some false := by
  induction n with
  | zero => simp
  | succ n ih =>
      simp only [firstIndex, Option.bind_eq_some_iff]
      constructor
      · intro hex
        obtain ⟨found, hfound, hlast⟩ := hex
        cases found with
        | some i =>
            obtain rfl := Option.some.inj (Option.some.inj hlast)
            obtain ⟨hlt, htrue, hfalse⟩ := ih.mp hfound
            exact ⟨Nat.lt_succ_of_lt hlt, htrue, hfalse⟩
        | none =>
            obtain ⟨b, hb, hb'⟩ := Option.map_eq_some_iff.mp hlast
            cases b with
            | true =>
                obtain rfl := Option.some.inj hb'
                exact ⟨Nat.lt_succ_self n, hb, firstIndex_eq_none_iff.mp hfound⟩
            | false => cases hb'
      · intro h
        obtain ⟨hlt, htrue, hfalse⟩ := h
        rcases Nat.lt_succ_iff_lt_or_eq.mp hlt with hlt | rfl
        · exact ⟨some j, ih.mpr ⟨hlt, htrue, hfalse⟩, rfl⟩
        · exact ⟨none, firstIndex_eq_none_iff.mpr hfalse, by simp [htrue]⟩

/-- A search faults only where a test does. -/
theorem firstIndex_isSome {test : Nat → Option Bool} {n : Nat}
    (h : ∀ i, i < n → ∃ b, test i = some b) : ∃ found, firstIndex test n = some found := by
  induction n with
  | zero => exact ⟨none, rfl⟩
  | succ n ih =>
      obtain ⟨found, hfound⟩ := ih fun i hi => h i (Nat.lt_succ_of_lt hi)
      obtain ⟨b, hb⟩ := h n (Nat.lt_succ_self n)
      cases found with
      | some j => exact ⟨some j, by simp [firstIndex, hfound]⟩
      | none => exact ⟨if b then some n else none, by simp [firstIndex, hfound, hb]⟩

/-- What a search finds does not depend on reads that fault. -/
theorem firstIndex_mono {test test' : Nat → Option Bool} {n : Nat} {found : Option Nat}
    (hsub : ∀ j b, test j = some b → test' j = some b)
    (h : firstIndex test n = some found) : firstIndex test' n = some found := by
  cases found with
  | none =>
      exact firstIndex_eq_none_iff.mpr fun i hi => hsub i _ (firstIndex_eq_none_iff.mp h i hi)
  | some j =>
      obtain ⟨hlt, htrue, hfalse⟩ := firstIndex_eq_some_iff.mp h
      exact firstIndex_eq_some_iff.mpr
        ⟨hlt, hsub j _ htrue, fun i hi => hsub i _ (hfalse i hi)⟩

/-- A search stops inside its range. -/
theorem firstIndex_lt {test : Nat → Option Bool} {n j : Nat}
    (h : firstIndex test n = some (some j)) : j < n :=
  (firstIndex_eq_some_iff.mp h).1

/-- A read that faults at or behind a count. -/
def below {α : Type} (count : Nat) (read : Nat → Option α) (i : Nat) : Option α :=
  if i < count then read i else none

theorem below_of_lt {α : Type} {count i : Nat} (read : Nat → Option α) (h : i < count) :
    below count read i = read i := if_pos h

theorem lt_of_below {α : Type} {count i : Nat} {read : Nat → Option α} {x : α}
    (h : below count read i = some x) : i < count ∧ read i = some x := by
  unfold below at h
  split at h
  · exact ⟨‹_›, h⟩
  · cases h

/-- The outcome of a loop that answers each request in order, in one list when it
succeeds and in another when it fails. -/
inductive OutcomeSplit {α β γ : Type} (S : α → β → Prop) (F : α → γ → Prop) :
    List α → List β → List γ → Prop
  | nil : OutcomeSplit S F [] [] []
  | success {a : α} {b : β} {as : List α} {bs : List β} {cs : List γ} (h : S a b)
      (rest : OutcomeSplit S F as bs cs) : OutcomeSplit S F (a :: as) (b :: bs) cs
  | failure {a : α} {c : γ} {as : List α} {bs : List β} {cs : List γ} (h : F a c)
      (rest : OutcomeSplit S F as bs cs) : OutcomeSplit S F (a :: as) bs (c :: cs)

namespace OutcomeSplit

variable {α β γ : Type} {S S' : α → β → Prop} {F F' : α → γ → Prop} {a : α} {b : β} {c : γ}
  {as : List α} {bs : List β} {cs : List γ}

theorem append_success (h : OutcomeSplit S F as bs cs) (hS : S a b) :
    OutcomeSplit S F (as ++ [a]) (bs ++ [b]) cs := by
  induction h with
  | nil => exact .success hS .nil
  | success h _ ih => exact .success h ih
  | failure h _ ih => exact .failure h ih

theorem append_failure (h : OutcomeSplit S F as bs cs) (hF : F a c) :
    OutcomeSplit S F (as ++ [a]) bs (cs ++ [c]) := by
  induction h with
  | nil => exact .failure hF .nil
  | success h _ ih => exact .success h ih
  | failure h _ ih => exact .failure h ih

/-- Every success answers some request. -/
theorem success_mem (h : OutcomeSplit S F as bs cs) (hb : b ∈ bs) : ∃ a ∈ as, S a b := by
  induction h with
  | nil => cases hb
  | success h _ ih =>
      rcases List.mem_cons.mp hb with rfl | hb
      · exact ⟨_, List.mem_cons_self, h⟩
      · obtain ⟨a, ha, hS⟩ := ih hb
        exact ⟨a, List.mem_cons_of_mem _ ha, hS⟩
  | failure h _ ih =>
      obtain ⟨a, ha, hS⟩ := ih hb
      exact ⟨a, List.mem_cons_of_mem _ ha, hS⟩

theorem imp (h : OutcomeSplit S F as bs cs) (hS : ∀ a b, S a b → S' a b) :
    OutcomeSplit S' F as bs cs := by
  induction h with
  | nil => exact .nil
  | success h _ ih => exact .success (hS _ _ h) ih
  | failure h _ ih => exact .failure h ih

end OutcomeSplit

end BoundedLoop
