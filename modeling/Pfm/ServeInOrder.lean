import Mathlib.Data.List.Induction
import Pfm.BoundedLoop

/-!
# Serving requests in order

A list of requests served one after the other on a state, each with a success or a
failure, and the C loops that do this with two arrays and two counters for the answers.

* `serveAll` : the state afterwards, the successes and the failures, in request order;
* `Holds a count l` : the first `count` elements of the array are `l`;
* `forRange_serves` : a counted loop that serves one item in each turn, and keeps what
  it should report, reports what `serveAll` gives;
* `Answered`, `forRange_answered` : the same where more than one answer may be given.
-/

namespace ServeInOrder

open BoundedLoop

variable {σ α β γ : Type}

/-- What is left after serving: the state, and the answers of either kind. -/
structure Served (σ β γ : Type) where
  state : σ
  succs : List β
  fails : List γ

/-- One more request has been served. -/
def Served.add (served : Served σ β γ) (answer : σ × Except γ β) : Served σ β γ :=
  match answer.2 with
  | .ok b => ⟨answer.1, served.succs ++ [b], served.fails⟩
  | .error c => ⟨answer.1, served.succs, served.fails ++ [c]⟩

/-- Serve all requests; `none` when serving one of them faults. -/
def serveAll (serve : σ → α → Option (σ × Except γ β)) (s : σ) (requests : List α) :
    Option (Served σ β γ) :=
  requests.foldlM (fun served a => (serve served.state a).map served.add) ⟨s, [], []⟩

variable {serve : σ → α → Option (σ × Except γ β)} {s s' : σ} {a : α} {b : β} {c : γ}
  {requests : List α} {served served' : Served σ β γ}

@[simp] theorem serveAll_nil (s : σ) : serveAll serve s [] = some ⟨s, [], []⟩ := rfl

theorem serveAll_concat (serve : σ → α → Option (σ × Except γ β)) (s : σ) (requests : List α)
    (a : α) : serveAll serve s (requests ++ [a]) =
      (serveAll serve s requests).bind fun served => (serve served.state a).map served.add := by
  simp only [serveAll, List.foldlM_append, List.foldlM_cons, List.foldlM_nil, bind_pure]
  rfl

theorem Served.add_length (served : Served σ β γ) (answer : σ × Except γ β) :
    (served.add answer).succs.length + (served.add answer).fails.length =
      served.succs.length + served.fails.length + 1 := by
  unfold Served.add
  split
  · simp only [List.length_append, List.length_singleton]
    omega
  · simp only [List.length_append, List.length_singleton]
    omega

/-- Every request has one answer. -/
theorem serveAll_length (h : serveAll serve s requests = some served) :
    served.succs.length + served.fails.length = requests.length := by
  induction requests using List.reverseRecOn generalizing served with
  | nil =>
      obtain rfl := Option.some.inj h
      rfl
  | append_singleton requests a ih =>
      rw [serveAll_concat] at h
      obtain ⟨before, hbefore, h⟩ := Option.bind_eq_some_iff.mp h
      obtain ⟨answer, -, rfl⟩ := Option.map_eq_some_iff.mp h
      rw [Served.add_length, ih hbefore, List.length_append, List.length_singleton]

/-! ### Answers in arrays -/

/-- The array holds these elements and no more, as counted. -/
def Holds {n : Nat} (list : CArray n β) (count : Nat) (bs : List β) : Prop :=
  count = bs.length ∧ list.firstN count = bs

theorem holds_nil {n : Nat} (list : CArray n β) : Holds list 0 [] := ⟨rfl, rfl⟩

theorem Holds.push {n count : Nat} {list list' : CArray n β} {bs : List β}
    (h : Holds list count bs) (hset : list.set? count b = some list') :
    Holds list' (count + 1) (bs ++ [b]) := by
  refine ⟨?_, ?_⟩
  · rw [h.1, List.length_append, List.length_singleton]
  · rw [CArray.firstN_succ_set? hset, h.2]

/-- The element at a position that is counted. -/
theorem Holds.get? {n count i : Nat} {list : CArray n β} {bs : List β} (h : Holds list count bs)
    (hi : i < count) (hn : count ≤ n) : list.get? i = bs[i]? := by
  have hlt : i < n := Nat.lt_of_lt_of_le hi hn
  rw [CArray.get?_of_lt list hlt, ← h.2, CArray.firstN, List.getElem?_take_of_lt hi]
  simp [hlt]

theorem length_firstN {n k : Nat} (list : CArray n β) (hk : k ≤ n) :
    (list.firstN k).length = k := by
  rw [CArray.firstN, List.length_take, List.length_ofFn, Nat.min_eq_left hk]

/-- **Loop rule.**  Each turn serves the next item and keeps `Rep`, which says of a loop
state what has been answered so far. -/
theorem forRange_serves {ω : Type} {m n : Nat} (serve : σ → α → Option (σ × Except γ β))
    (items : CArray m α) (body : Nat → ω → Option ω) (state : ω → σ)
    (Rep : ω → List β → List γ → Prop) {w : ω} (h0 : Rep w [] []) (hn : n ≤ m)
    (hturn : ∀ i a w bs cs, items.get? i = some a → i < n → bs.length + cs.length = i →
      Rep w bs cs → ∃ answer w', serve (state w) a = some answer ∧ body i w = some w' ∧
        state w' = answer.1 ∧
          ((∃ b, answer.2 = .ok b ∧ Rep w' (bs ++ [b]) cs) ∨
            ∃ c, answer.2 = .error c ∧ Rep w' bs (cs ++ [c]))) :
    ∃ w' served, forRange body n w = some w' ∧
      serveAll serve (state w) (items.firstN n) = some served ∧ state w' = served.state ∧
      Rep w' served.succs served.fails := by
  induction n with
  | zero => exact ⟨w, ⟨state w, [], []⟩, rfl, rfl, rfl, h0⟩
  | succ n ih =>
      obtain ⟨w₁, served, hrun, hserved, hstate, hrep⟩ :=
        ih (Nat.le_of_succ_le hn) fun i a w bs cs ha hi => hturn i a w bs cs ha (by omega)
      have hitem := items.get?_of_lt hn
      have hlen := serveAll_length hserved
      rw [length_firstN items (Nat.le_of_succ_le hn)] at hlen
      obtain ⟨answer, w₂, hanswer, hbody, hstate', hcase⟩ :=
        hturn n _ w₁ _ _ hitem (Nat.lt_succ_self n) hlen hrep
      refine ⟨w₂, served.add answer, ?_, ?_, ?_, ?_⟩
      · rw [forRange_succ, hrun]
        exact hbody
      · rw [CArray.firstN_succ hitem, serveAll_concat, hserved, Option.bind_some, ← hstate,
          hanswer]
        rfl
      · rw [hstate', Served.add]
        split
        · rfl
        · rfl
      · obtain ⟨s₂, r⟩ := answer
        rcases hcase with ⟨b, rfl, hrep'⟩ | ⟨c, rfl, hrep'⟩
        · exact hrep'
        · exact hrep'

/-! ### Answers that are not determined -/

/-- The requests have been served one after the other, each with an answer that `serve`
allows in the state it is served in. -/
inductive Answered (serve : σ → α → σ × Except γ β → Prop) (s : σ) :
    List α → Served σ β γ → Prop
  | nil : Answered serve s [] ⟨s, [], []⟩
  | concat {requests : List α} {served : Served σ β γ} {a : α} {answer : σ × Except γ β}
      (before : Answered serve s requests served) (last : serve served.state a answer) :
      Answered serve s (requests ++ [a]) (served.add answer)

variable {allows : σ → α → σ × Except γ β → Prop}

theorem Answered.length (h : Answered allows s requests served) :
    served.succs.length + served.fails.length = requests.length := by
  induction h with
  | nil => rfl
  | concat before last ih =>
      rw [Served.add_length, ih, List.length_append, List.length_singleton]

theorem answered_nil (h : Answered allows s [] served) : served = ⟨s, [], []⟩ := by
  generalize hl : ([] : List α) = l at h
  cases h with
  | nil => rfl
  | concat before last => exact absurd hl (by simp)

theorem answered_concat (h : Answered allows s (requests ++ [a]) served) :
    ∃ before answer, Answered allows s requests before ∧ allows before.state a answer ∧
      served = before.add answer := by
  generalize hl : requests ++ [a] = l at h
  cases h with
  | nil => exact absurd hl (by simp)
  | concat before last =>
      obtain ⟨rfl, ha⟩ := List.append_inj' hl rfl
      obtain rfl := (List.cons.inj ha).1
      exact ⟨_, _, before, last, rfl⟩

/-- Where the state and the failures are determined for one request, they are for all. -/
theorem Answered.unique (hserve : ∀ s a x y, allows s a x → allows s a y →
      x.1 = y.1 ∧ ∀ c, x.2 = .error c ↔ y.2 = .error c)
    (h : Answered allows s requests served) (h' : Answered allows s requests served') :
    served.state = served'.state ∧ served.fails = served'.fails := by
  induction h generalizing served' with
  | nil =>
      obtain rfl := answered_nil h'
      exact ⟨rfl, rfl⟩
  | concat before last ih =>
      obtain ⟨before', answer', hbefore', hlast', rfl⟩ := answered_concat h'
      obtain ⟨hstate, hfails⟩ := ih hbefore'
      rw [← hstate] at hlast'
      obtain ⟨hfirst, herror⟩ := hserve _ _ _ _ last hlast'
      rename_i answer
      obtain ⟨t, r⟩ := answer
      obtain ⟨t', r'⟩ := answer'
      cases r with
      | error c =>
          obtain rfl : r' = .error c := (herror c).mp rfl
          exact ⟨hfirst, by simp only [Served.add, hfails]⟩
      | ok b =>
          cases r' with
          | error c => exact absurd ((herror c).mpr rfl) (by simp)
          | ok b' => exact ⟨hfirst, hfails⟩

/-- **Loop rule.**  Each turn answers the next item and keeps `Rep`, which says of a loop
state what has been answered so far. -/
theorem forRange_answered {ω : Type} {m n : Nat} {items : CArray m α}
    {body : Nat → ω → Option ω} (Rep : Nat → ω → Served σ β γ → Prop) {w w' : ω}
    (h0 : Rep 0 w ⟨s, [], []⟩) (hn : n ≤ m)
    (hturn : ∀ i a w w' served, items.get? i = some a → i < n →
      Answered allows s (items.firstN i) served → Rep i w served → body i w = some w' →
      ∃ answer, allows served.state a answer ∧ Rep (i + 1) w' (served.add answer))
    (hrun : forRange body n w = some w') :
    ∃ served, Answered allows s (items.firstN n) served ∧ Rep n w' served := by
  let Inv (i : Nat) (w : ω) : Prop :=
    ∃ served, Answered allows s (items.firstN i) served ∧ Rep i w served
  have hinit : Inv 0 w := ⟨_, .nil, h0⟩
  refine forRange_invariant Inv hinit ?_ hrun
  intro i w w' hi hinv hbody
  obtain ⟨served, hanswered, hrep⟩ := hinv
  have hitem := items.get?_of_lt (Nat.lt_of_lt_of_le hi hn)
  obtain ⟨answer, hallowed, hrep'⟩ := hturn i _ w w' served hitem hi hanswered hrep hbody
  exact ⟨served.add answer, by rw [CArray.firstN_succ hitem]; exact hanswered.concat hallowed,
    hrep'⟩

end ServeInOrder
