import Pfm.BoundedLoop

/-!
# Two runs side by side

To show that something a program reads makes no difference, run it from two states
that agree on the rest and compare.  `Option.Rel R` relates two computations that
both fault, or both end and are related by `R`; it goes through every construct a
program is made of, so a relation between two runs is proved along the text of the
program.

* `SameResult R` : two results with the same value, in states related by `R`;
* `rel_bind`, `forRange_rel`, `firstIndex_congr` : the constructs;
* `answers_rel` : two runs of a server whose answers are the same at each step.
-/

namespace TwoRuns

open BoundedLoop

variable {α β γ δ : Type}

/-- The same value, in states related by `R`. -/
def SameResult {σ τ : Type} (R : σ → τ → Prop) (x : α × σ) (y : α × τ) : Prop :=
  x.1 = y.1 ∧ R x.2 y.2

theorem rel_bind {R : α → β → Prop} {Q : γ → δ → Prop} {x : Option α} {y : Option β}
    {f : α → Option γ} {g : β → Option δ} (h : Option.Rel R x y)
    (hfg : ∀ a b, R a b → Option.Rel Q (f a) (g b)) :
    Option.Rel Q (x.bind f) (y.bind g) := by
  cases h with
  | some hab => exact hfg _ _ hab
  | none => exact .none

/-- A value that both runs read alike. -/
theorem rel_bind_eq {Q : γ → δ → Prop} {x y : Option α} {f : α → Option γ}
    {g : α → Option δ} (h : x = y) (hfg : ∀ a, x = some a → Option.Rel Q (f a) (g a)) :
    Option.Rel Q (x.bind f) (y.bind g) := by
  subst h
  cases x with
  | some a => exact hfg a rfl
  | none => exact .none

theorem rel_bind_same {Q : γ → δ → Prop} {x : Option α} {f : α → Option γ}
    {g : α → Option δ} (hfg : ∀ a, x = some a → Option.Rel Q (f a) (g a)) :
    Option.Rel Q (x.bind f) (x.bind g) :=
  rel_bind_eq rfl hfg

theorem rel_imp {R Q : α → β → Prop} {x : Option α} {y : Option β} (h : Option.Rel R x y)
    (hRQ : ∀ a b, R a b → Q a b) : Option.Rel Q x y := by
  cases h with
  | some hab => exact .some (hRQ _ _ hab)
  | none => exact .none

/-- Two related computations, with what each of them gives. -/
theorem rel_both {R : α → β → Prop} {x : Option α} {y : Option β} (h : Option.Rel R x y) :
    Option.Rel (fun a b => R a b ∧ x = some a ∧ y = some b) x y := by
  cases h with
  | some hab => exact .some ⟨hab, rfl, rfl⟩
  | none => exact .none

theorem rel_map {R : α → β → Prop} {Q : γ → δ → Prop} {x : Option α} {y : Option β}
    {f : α → γ} {g : β → δ} (h : Option.Rel R x y) (hfg : ∀ a b, R a b → Q (f a) (g b)) :
    Option.Rel Q (x.map f) (y.map g) := by
  cases h with
  | some hab => exact .some (hfg _ _ hab)
  | none => exact .none

/-- **Two loops.**  What each turn carries on holds after the loops. -/
theorem forRange_rel {σ τ : Type} (R : Nat → σ → τ → Prop) {body : Nat → σ → Option σ}
    {body' : Nat → τ → Option τ} {n : Nat} {s : σ} {t : τ} (h0 : R 0 s t)
    (hstep : ∀ i s t, i < n → R i s t → Option.Rel (R (i + 1)) (body i s) (body' i t)) :
    Option.Rel (R n) (forRange body n s) (forRange body' n t) := by
  induction n with
  | zero => exact .some h0
  | succ n ih =>
      rw [forRange_succ, forRange_succ]
      refine rel_bind (ih fun i s t hi => hstep i s t (Nat.lt_succ_of_lt hi)) fun s t hR => ?_
      exact hstep n s t (Nat.lt_succ_self n) hR

/-- Two searches with the same tests. -/
theorem firstIndex_congr {test test' : Nat → Option Bool} {n : Nat}
    (h : ∀ i, i < n → test i = test' i) : firstIndex test n = firstIndex test' n := by
  induction n with
  | zero => rfl
  | succ n ih =>
      simp only [firstIndex]
      rw [ih fun i hi => h i (Nat.lt_succ_of_lt hi), h n (Nat.lt_succ_self n)]

section answers

variable {σ ι ρ : Type} (serve : σ → ι → Option (ρ × σ))

/-- The answers to a list of requests, and the state after the last. -/
def answers : σ → List ι → Option (List ρ × σ)
  | s, [] => some ([], s)
  | s, i :: is => (serve s i).bind fun out =>
      (answers out.2 is).map fun rest => (out.1 :: rest.1, rest.2)

variable {serve}

/-- **Two runs of a server.**  From related states, where each request is answered
alike, a list of requests is. -/
theorem answers_rel {R : σ → σ → Prop}
    (hstep : ∀ s s' i, R s s' → Option.Rel (SameResult R) (serve s i) (serve s' i))
    {s s' : σ} (h : R s s') (is : List ι) :
    Option.Rel (SameResult R) (answers serve s is) (answers serve s' is) := by
  induction is generalizing s s' with
  | nil => exact .some ⟨rfl, h⟩
  | cons i is ih =>
      apply rel_bind (hstep s s' i h)
      intro out out' hout
      apply rel_map (ih hout.2)
      intro rest rest' hrest
      exact ⟨by rw [hout.1, hrest.1], hrest.2⟩

end answers

end TwoRuns
