import Pfm.StepSystem

/-!
# One party on an unreliable network

A party serves inputs one at a time.  Some of them bring it messages, and it may send
some.  A message that was sent arrives at any time, any number of times, or never, in
any order.  The others send what they are allowed to, given what was sent before.

* `netStep` : a step of the party, or a message of somebody else;
* `Keeps.run` : what the party keeps while only good messages arrive, when the others
  answer good messages with good messages only.
-/

namespace LossyNetwork

open StepSystem

variable {σ ι M : Type}

/-- The state afterwards and what is sent, `none` for an input that cannot be served;
and the messages an input brings. -/
structure Party (σ ι M : Type) where
  serve : σ → ι → Option (σ × List M)
  brings : ι → List M

/-- The party, and all messages that were ever sent. -/
structure Net (σ M : Type) where
  party : σ
  sent : List M

/-- Nothing was sent yet. -/
def Net.init (s : σ) : Net σ M := ⟨s, []⟩

/-- The party serves an input, or somebody else sends a message. -/
inductive NetEvent (ι M : Type) where
  | serve (i : ι)
  | other (m : M)

section net

variable [DecidableEq M] (P : Party σ ι M) (allowed : σ → List M → M → Prop)
  [∀ s sent m, Decidable (allowed s sent m)]

def netStep (N : Net σ M) : NetEvent ι M → Option (Net σ M)
  | .serve i =>
      if ∀ m ∈ P.brings i, m ∈ N.sent then
        (P.serve N.party i).map fun out => ⟨out.1, N.sent ++ out.2⟩
      else none
  | .other m =>
      if allowed N.party N.sent m then some { N with sent := N.sent ++ [m] } else none

/-- What the party keeps, and what is a good message to it. -/
structure Keeps (Inv : σ → Prop) (Good : σ → M → Prop) : Prop where
  serve : ∀ {s s' i out}, Inv s → (∀ m ∈ P.brings i, Good s m) → P.serve s i = some (s', out) →
    Inv s' ∧ ∀ m ∈ out, Good s' m
  mono : ∀ {s s' i out m}, P.serve s i = some (s', out) → Good s m → Good s' m
  other : ∀ {s sent m}, Inv s → (∀ m ∈ sent, Good s m) → allowed s sent m → Good s m

variable {P allowed} {Inv : σ → Prop} {Good : σ → M → Prop}

/-- One step of the network. -/
theorem Keeps.step (h : Keeps P allowed Inv Good) {N N' : Net σ M} {e : NetEvent ι M}
    (hN : Inv N.party ∧ ∀ m ∈ N.sent, Good N.party m) (hstep : netStep P allowed N e = some N') :
    Inv N'.party ∧ ∀ m ∈ N'.sent, Good N'.party m := by
  obtain ⟨hinv, hgood⟩ := hN
  cases e with
  | serve i =>
      simp only [netStep] at hstep
      split at hstep
      swap
      · cases hstep
      rename_i hbrings
      obtain ⟨⟨s', out⟩, hserve, rfl⟩ := Option.map_eq_some_iff.mp hstep
      obtain ⟨hinv', hout⟩ := h.serve hinv (fun m hm => hgood m (hbrings m hm)) hserve
      refine ⟨hinv', fun m hm => ?_⟩
      rcases List.mem_append.mp hm with hold | hnew
      · exact h.mono hserve (hgood m hold)
      · exact hout m hnew
  | other m =>
      simp only [netStep] at hstep
      split at hstep
      swap
      · cases hstep
      rename_i hallowed
      obtain rfl := Option.some.inj hstep
      refine ⟨hinv, fun m' hm' => ?_⟩
      rcases List.mem_append.mp hm' with hold | hnew
      · exact hgood m' hold
      · obtain rfl := List.mem_singleton.mp hnew
        exact h.other hinv hgood hallowed

/-- **Any run.** -/
theorem Keeps.run (h : Keeps P allowed Inv Good) {s : σ} (hs : Inv s) {es : List (NetEvent ι M)}
    {N : Net σ M} (hrun : exec (netStep P allowed) (Net.init s) es = some N) :
    Inv N.party ∧ ∀ m ∈ N.sent, Good N.party m :=
  exec_invariant (fun _ _ _ hN hstep => h.step hN hstep)
    (show Inv s ∧ ∀ m ∈ ([] : List M), Good s m from ⟨hs, fun _ hm => by cases hm⟩) hrun

end net

end LossyNetwork
