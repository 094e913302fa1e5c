import Mathlib.Data.List.Basic

/-!
# Runs of a deterministic step function

A program that serves one request at a time is a step function
`step : σ → ι → Option σ`: the state before, the input served, and the state
after, or `none` when serving the input ends in undefined behaviour.  A run is
a list of inputs.  This file fixes what it means that something holds along a
run and packages the one induction every invariant needs.

* `exec` runs a list of inputs;
* `Along P` says that `P` holds at every step the run takes;
* `Always P` says that `P` holds in every state the run visits;
* `exec_invariant`, `exec_invariant_along`, `always_of_along` carry an
  invariant from one step to the whole run.
-/

namespace StepSystem

variable {σ ι : Type} (step : σ → ι → Option σ)

/-- Serve a list of inputs one after the other. -/
def exec : σ → List ι → Option σ
  | s, [] => some s
  | s, i :: is => (step s i).bind fun t => exec t is

/-- `P` holds of the state and the input at every step the run takes. -/
def Along (P : σ → ι → Prop) : σ → List ι → Prop
  | _, [] => True
  | s, i :: is => P s i ∧ ∀ t, step s i = some t → Along P t is

/-- `P` holds in every state the run visits, the first one included. -/
def Always (P : σ → Prop) : σ → List ι → Prop
  | s, [] => P s
  | s, i :: is => P s ∧ ∀ t, step s i = some t → Always P t is

/-- `s` is the end of some run from `init`. -/
def Reachable (init s : σ) : Prop :=
  ∃ is, exec step init is = some s

variable {step}

@[simp] theorem exec_nil (s : σ) : exec step s [] = some s := rfl

@[simp] theorem exec_cons (s : σ) (i : ι) (is : List ι) :
    exec step s (i :: is) = (step s i).bind fun t => exec step t is := rfl

theorem exec_append (s : σ) (is js : List ι) :
    exec step s (is ++ js) = (exec step s is).bind fun t => exec step t js := by
  induction is generalizing s with
  | nil => simp
  | cons i is ih =>
      simp only [List.cons_append, exec_cons, Option.bind_assoc]
      exact congrArg _ (funext fun t => ih t)

/-- A step that is taken is the only one. -/
theorem forall_next {s t : σ} {i : ι} (h : step s i = some t) {Q : σ → Prop} :
    (∀ t', step s i = some t' → Q t') ↔ Q t := by
  constructor
  · intro hall
    exact hall t h
  · intro hQ t' ht'
    obtain rfl := Option.some.inj (h.symm.trans ht')
    exact hQ

theorem along_cons {P : σ → ι → Prop} {s t : σ} {i : ι} {is : List ι} (h : step s i = some t) :
    Along step P s (i :: is) ↔ P s i ∧ Along step P t is :=
  and_congr_right fun _ => forall_next h

theorem always_cons {P : σ → Prop} {s t : σ} {i : ι} {is : List ι} (h : step s i = some t) :
    Always step P s (i :: is) ↔ P s ∧ Always step P t is :=
  and_congr_right fun _ => forall_next h

/-- **Induction over a run.**  A property kept by every step that satisfies
`P` holds at the end of every run whose steps all satisfy `P`. -/
theorem exec_invariant_along {P : σ → ι → Prop} {Inv : σ → Prop}
    (hstep : ∀ s i t, Inv s → P s i → step s i = some t → Inv t)
    {is : List ι} {s t : σ} (hs : Inv s) (hP : Along step P s is)
    (hrun : exec step s is = some t) : Inv t := by
  induction is generalizing s with
  | nil =>
      obtain rfl : s = t := by simpa using hrun
      exact hs
  | cons i is ih =>
      obtain ⟨m, hm, hrest⟩ := Option.bind_eq_some_iff.mp hrun
      exact ih (hstep s i m hs hP.1 hm) (hP.2 m hm) hrest

theorem along_true (s : σ) (is : List ι) : Along step (fun _ _ => True) s is := by
  induction is generalizing s with
  | nil => trivial
  | cons i is ih => exact ⟨trivial, fun t _ => ih t⟩

/-- An invariant of every step is an invariant of every run. -/
theorem exec_invariant {Inv : σ → Prop}
    (hstep : ∀ s i t, Inv s → step s i = some t → Inv t)
    {is : List ι} {s t : σ} (hs : Inv s) (hrun : exec step s is = some t) :
    Inv t :=
  exec_invariant_along (fun s i t hs _ h => hstep s i t hs h) hs
    (along_true s is) hrun

theorem Reachable.invariant (Inv : σ → Prop) {init s : σ}
    (hreach : Reachable step init s) (hinit : Inv init)
    (hstep : ∀ s i t, Inv s → step s i = some t → Inv t) : Inv s := by
  obtain ⟨is, his⟩ := hreach
  exact exec_invariant hstep hinit his

/-- `Always` from an invariant of the steps that satisfy `P`. -/
theorem always_of_along {P : σ → ι → Prop} {Inv : σ → Prop}
    (hstep : ∀ s i t, Inv s → P s i → step s i = some t → Inv t)
    {is : List ι} {s : σ} (hs : Inv s) (hP : Along step P s is) :
    Always step Inv s is := by
  induction is generalizing s with
  | nil => exact hs
  | cons i is ih =>
      exact ⟨hs, fun t ht => ih (hstep s i t hs hP.1 ht) (hP.2 t ht)⟩

theorem Along.drop {P : σ → ι → Prop} {s t : σ} {is js : List ι}
    (h : Along step P s (is ++ js)) (hrun : exec step s is = some t) :
    Along step P t js := by
  induction is generalizing s with
  | nil =>
      obtain rfl : s = t := by simpa using hrun
      exact h
  | cons i is ih =>
      obtain ⟨m, hm, hrest⟩ := Option.bind_eq_some_iff.mp hrun
      exact ih (h.2 m hm) hrest

/-- One more step. -/
theorem along_concat {P : σ → ι → Prop} {s : σ} {is : List ι} {i : ι} :
    Along step P s (is ++ [i]) ↔
      Along step P s is ∧ ∀ t, exec step s is = some t → P t i := by
  induction is generalizing s with
  | nil =>
      constructor
      · intro h
        refine ⟨trivial, ?_⟩
        intro t ht
        obtain rfl : s = t := by simpa using ht
        exact h.1
      · intro h
        exact ⟨h.2 s rfl, fun _ _ => trivial⟩
  | cons j is ih =>
      constructor
      · intro h
        refine ⟨⟨h.1, fun t ht => (ih.mp (h.2 t ht)).1⟩, ?_⟩
        intro t ht
        obtain ⟨m, hm, hrest⟩ := Option.bind_eq_some_iff.mp ht
        exact (ih.mp (h.2 m hm)).2 t hrest
      · intro h
        refine ⟨h.1.1, ?_⟩
        intro m hm
        refine ih.mpr ⟨h.1.2 m hm, ?_⟩
        intro t ht
        exact h.2 t (by rw [exec_cons, hm, Option.bind_some, ht])

theorem Always.head {P : σ → Prop} {s : σ} {is : List ι}
    (h : Always step P s is) : P s := by
  cases is with
  | nil => exact h
  | cons i is => exact h.1

theorem Always.imp {P Q : σ → Prop} (hPQ : ∀ s, P s → Q s) {s : σ}
    {is : List ι} (h : Always step P s is) : Always step Q s is := by
  induction is generalizing s with
  | nil => exact hPQ s h
  | cons i is ih => exact ⟨hPQ s h.1, fun t ht => ih (h.2 t ht)⟩

theorem Along.imp {P Q : σ → ι → Prop} (hPQ : ∀ s i, P s i → Q s i) {s : σ}
    {is : List ι} (h : Along step P s is) : Along step Q s is := by
  induction is generalizing s with
  | nil => trivial
  | cons i is ih => exact ⟨hPQ s i h.1, fun t ht => ih (h.2 t ht)⟩

/-- **Total runs.**  Inputs that are each served under an invariant, and keep it, are all
served. -/
theorem exec_total {Inv : σ → Prop} {P : ι → Prop}
    (hstep : ∀ s i, Inv s → P i → ∃ t, step s i = some t ∧ Inv t)
    {is : List ι} {s : σ} (hs : Inv s) (hP : ∀ i ∈ is, P i) :
    ∃ t, exec step s is = some t ∧ Inv t := by
  induction is generalizing s with
  | nil => exact ⟨s, rfl, hs⟩
  | cons i is ih =>
      obtain ⟨m, hm, hinv⟩ := hstep s i hs (hP i List.mem_cons_self)
      obtain ⟨t, hrun, ht⟩ := ih hinv fun j hj => hP j (List.mem_cons_of_mem _ hj)
      exact ⟨t, by rw [exec_cons, hm, Option.bind_some, hrun], ht⟩

/-- What such an input does under the invariant, every step of the run does. -/
theorem along_of_inputs {Inv : σ → Prop} {P : ι → Prop} {Q : σ → ι → Prop}
    (hstep : ∀ s i, Inv s → P i → Q s i ∧ ∀ t, step s i = some t → Inv t)
    {is : List ι} {s : σ} (hs : Inv s) (hP : ∀ i ∈ is, P i) : Along step Q s is := by
  induction is generalizing s with
  | nil => trivial
  | cons i is ih =>
      obtain ⟨hQ, hinv⟩ := hstep s i hs (hP i List.mem_cons_self)
      exact ⟨hQ, fun t ht => ih (hinv t ht) fun j hj => hP j (List.mem_cons_of_mem _ hj)⟩

/-- What a step does under an invariant that it keeps, every step of a run does. -/
theorem along_of_inv {Inv : σ → Prop} {P : σ → ι → Prop}
    (hstep : ∀ s i, Inv s → P s i ∧ ∀ t, step s i = some t → Inv t)
    {is : List ι} {s : σ} (hs : Inv s) : Along step P s is :=
  along_of_inputs (P := fun _ => True) (fun s i hs _ => hstep s i hs) hs fun _ _ => trivial

/-- A loop over a list is a run. -/
theorem foldlM_eq_exec (s : σ) (is : List ι) : is.foldlM step s = exec step s is := by
  induction is generalizing s with
  | nil => rfl
  | cons i is ih =>
      rw [List.foldlM_cons, exec_cons]
      exact congrArg _ (funext ih)

/-- What such inputs keep, a run of them keeps. -/
theorem exec_invariant_inputs {Inv : σ → Prop} {P : ι → Prop}
    (hstep : ∀ s i t, Inv s → P i → step s i = some t → Inv t)
    {is : List ι} {s t : σ} (hs : Inv s) (hP : ∀ i ∈ is, P i)
    (hrun : exec step s is = some t) : Inv t := by
  refine exec_invariant_along hstep hs ?_ hrun
  exact @along_of_inputs σ ι step (fun _ => True) P (fun _ i => P i)
    (fun _ _ _ hi => ⟨hi, fun _ _ => trivial⟩) is s trivial hP

/-- **The first time.**  Along a run something never happens, or it happens a first time. -/
theorem along_or_first (F : σ → ι → Prop) {is : List ι} {s t : σ} (hrun : exec step s is = some t) :
    Along step (fun s i => ¬F s i) s is ∨
      ∃ pre i post m, is = pre ++ i :: post ∧ exec step s pre = some m ∧
        Along step (fun s i => ¬F s i) s pre ∧ F m i := by
  induction is generalizing s with
  | nil => exact Or.inl trivial
  | cons i is ih =>
      obtain ⟨m, hm, hrest⟩ := Option.bind_eq_some_iff.mp hrun
      by_cases hF : F s i
      · exact Or.inr ⟨[], i, is, s, rfl, rfl, trivial, hF⟩
      rcases ih hrest with halong | ⟨pre, j, post, m', rfl, hpre, halong, hj⟩
      · exact Or.inl ((along_cons hm).mpr ⟨hF, halong⟩)
      · refine Or.inr ⟨i :: pre, j, post, m', rfl, ?_, (along_cons hm).mpr ⟨hF, halong⟩, hj⟩
        rw [exec_cons, hm, Option.bind_some, hpre]

/-- **The last time.**  What is set by some steps and cleared by others holds at the end of
a run when it was set and not cleared since, or held from the start. -/
theorem latched_iff {Inv P : σ → Prop} {sets clears : σ → ι → Prop}
    (hinv : ∀ s i t, Inv s → step s i = some t → Inv t)
    (hP : ∀ s i t, Inv s → step s i = some t → (P t ↔ sets s i ∨ (P s ∧ ¬clears s i)))
    {is : List ι} {s t : σ} (hs : Inv s) (hrun : exec step s is = some t) :
    P t ↔ (P s ∧ Along step (fun s i => ¬clears s i) s is) ∨
      ∃ pre i post u v, is = pre ++ i :: post ∧ exec step s pre = some u ∧ sets u i ∧
        step u i = some v ∧ Along step (fun s i => ¬clears s i) v post := by
  induction is generalizing s with
  | nil =>
      obtain rfl : s = t := by simpa using hrun
      simp [Along]
  | cons i is ih =>
      obtain ⟨m, hm, hrest⟩ := Option.bind_eq_some_iff.mp hrun
      rw [ih (hinv s i m hs hm) hrest, hP s i m hs hm, along_cons hm]
      constructor
      · intro h
        rcases h with
          ⟨hset | ⟨hold, hno⟩, halong⟩ | ⟨pre, j, post, u, v, rfl, hpre, hset, hv, halong⟩
        · exact Or.inr ⟨[], i, is, s, m, rfl, rfl, hset, hm, halong⟩
        · exact Or.inl ⟨hold, hno, halong⟩
        · refine Or.inr ⟨i :: pre, j, post, u, v, rfl, ?_, hset, hv, halong⟩
          rw [exec_cons, hm, Option.bind_some, hpre]
      · intro h
        rcases h with ⟨hold, hno, halong⟩ | ⟨pre, j, post, u, v, heq, hpre, hset, hv, halong⟩
        · exact Or.inl ⟨Or.inr ⟨hold, hno⟩, halong⟩
        cases pre with
        | nil =>
            obtain ⟨rfl, rfl⟩ := List.cons.inj heq
            obtain rfl := Option.some.inj hpre
            obtain rfl := Option.some.inj (hm.symm.trans hv)
            exact Or.inl ⟨Or.inl hset, halong⟩
        | cons k pre =>
            obtain ⟨rfl, rfl⟩ := List.cons.inj heq
            rw [exec_cons, hm, Option.bind_some] at hpre
            exact Or.inr ⟨pre, j, post, u, v, rfl, hpre, hset, hv, halong⟩

/-- What is the same under an invariant is the same along a run. -/
theorem along_congr {Inv : σ → Prop} {P Q : σ → ι → Prop}
    (hinv : ∀ s i t, Inv s → step s i = some t → Inv t) (hPQ : ∀ s i, Inv s → (P s i ↔ Q s i))
    {is : List ι} {s : σ} (hs : Inv s) : Along step P s is ↔ Along step Q s is := by
  induction is generalizing s with
  | nil => exact Iff.rfl
  | cons i is ih =>
      apply and_congr (hPQ s i hs)
      apply forall_congr'
      intro t
      apply imp_congr_right
      intro ht
      exact ih (hinv s i t hs ht)

/-- **Exact conditions.**  In a run whose steps satisfy `P`, which keeps `Inv`: when every
step is as it should be and keeps `Q` exactly when it satisfies `F`, then the run is as it
should be at every step and in every state exactly when its steps all satisfy `F`. -/
theorem always_along_iff_of_inv {Inv Q : σ → Prop} {P A F : σ → ι → Prop}
    (hinv : ∀ s i t, Inv s → P s i → step s i = some t → Inv t)
    (hstep : ∀ s i, Inv s → P s i → Q s →
      ((A s i ∧ ∀ t, step s i = some t → Q t) ↔ F s i))
    {is : List ι} {s : σ} (hI : Inv s) (hs : Q s) (hP : Along step P s is) :
    (Always step Q s is ∧ Along step A s is) ↔ Along step F s is := by
  induction is generalizing s with
  | nil => exact ⟨fun _ => trivial, fun _ => ⟨hs, trivial⟩⟩
  | cons i is ih =>
      have hiff := hstep s i hI hP.1 hs
      have hnext {t : σ} (ht : step s i = some t) (hQ : Q t) :=
        ih (hinv s i t hI hP.1 ht) hQ (hP.2 t ht)
      constructor
      · intro h
        obtain ⟨halways, halong⟩ := h
        refine ⟨hiff.mp ⟨halong.1, fun t ht => (halways.2 t ht).head⟩, ?_⟩
        intro t ht
        exact (hnext ht (halways.2 t ht).head).mp ⟨halways.2 t ht, halong.2 t ht⟩
      · intro h
        obtain ⟨hA, hQ⟩ := hiff.mpr h.1
        refine ⟨⟨hs, ?_⟩, hA, ?_⟩
        · intro t ht
          exact ((hnext ht (hQ t ht)).mpr (h.2 t ht)).1
        · intro t ht
          exact ((hnext ht (hQ t ht)).mpr (h.2 t ht)).2

/-- The same for a program that does not fault from a state with `Q`. -/
theorem always_along_iff {Q : σ → Prop} {A F : σ → ι → Prop}
    (hstep : ∀ s i, Q s → ∃ t, step s i = some t ∧ ((A s i ∧ Q t) ↔ F s i))
    {is : List ι} {s : σ} (hs : Q s) :
    (Always step Q s is ∧ Along step A s is) ↔ Along step F s is := by
  refine @always_along_iff_of_inv σ ι step (fun _ => True) Q (fun _ _ => True) A F
    (fun _ _ _ _ _ _ => trivial) ?_ is s trivial hs (along_true s is)
  intro s i _ _ hQ
  obtain ⟨t, ht, hiff⟩ := hstep s i hQ
  rw [← hiff]
  exact and_congr_right fun _ => forall_next ht

end StepSystem
