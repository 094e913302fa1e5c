import Mathlib.Data.List.Rotate

/-!
# Polling in turn

A `do { … } while (next != start)` loop over a cursor that goes from index to index
and back to 0 behind the last one.  Each turn visits an index, which may poll it for
a burst of items; the loop ends with the first burst that is not empty, or where it
began.

* `order count start` are the indexes in turn, from `start` on;
* `serve` polls a list of indexes until one has something;
* `loop_eq` : the loop serves the indexes in turn;
* `Cursor` : between calls the cursor is behind the index served last.

The body of the loop may change a state, as long as visiting one index leaves what
visiting the later ones gives.
-/

namespace RoundRobin

variable {σ β : Type}

/-- `i++; if (i >= count) i = 0;` -/
def succ (count i : Nat) : Nat := if count ≤ i + 1 then 0 else i + 1

/-- Where the cursor is next, the state, the indexes polled, and the first burst that
was not empty with its index. -/
structure Outcome (σ β : Type) where
  next : Nat
  state : σ
  polled : List Nat
  got : Option (Nat × List β)

/-- The loop from index `i` on.  A visit is `none` for a fault, and gives `none` for an
index that is not polled. -/
def loop (visit : Nat → σ → Option (σ × Option (List β))) (count start : Nat) :
    Nat → Nat → σ → Option (Outcome σ β)
  | 0, _, _ => none
  | fuel + 1, i, s => do
      let (s, burst) ← visit i s
      let next := succ count i
      let polled := if burst.isSome then [i] else []
      match burst with
      | some (b :: bs) => some ⟨next, s, polled, some (i, b :: bs)⟩
      | _ =>
          if next ≠ start then do
            let out ← loop visit count start fuel next s
            some { out with polled := polled ++ out.polled }
          else some ⟨next, s, polled, none⟩

/-- The indexes in turn; index 0 is visited also where there is none. -/
def order (count start : Nat) : List Nat := (List.range (max count 1)).rotate start

/-- Poll one after the other until one has something. -/
def serve (poll : Nat → Option (List β)) : List Nat → List Nat × Option (Nat × List β)
  | [] => ([], none)
  | i :: is =>
      match poll i with
      | none => serve poll is
      | some [] => (i :: (serve poll is).1, (serve poll is).2)
      | some (b :: bs) => ([i], some (i, b :: bs))

/-- What a call does that polls the indexes of a list in turn. -/
def Outcome.of (poll : Nat → Option (List β)) (count start : Nat) (is : List Nat) (s : σ) :
    Outcome σ β :=
  let served := serve poll is
  ⟨(served.2.map fun got => succ count got.1).getD start, s, served.1, served.2⟩

theorem succ_lt (count i : Nat) : succ count i < max count 1 := by
  unfold succ
  split <;> omega

theorem mem_order {count start i : Nat} : i ∈ order count start ↔ i < max count 1 := by
  rw [order, List.mem_rotate, List.mem_range]

theorem nodup_order (count start : Nat) : (order count start).Nodup := by
  rw [order, List.nodup_rotate]
  exact List.nodup_range

@[simp] theorem length_order (count start : Nat) : (order count start).length = max count 1 := by
  rw [order, List.length_rotate, List.length_range]

theorem getElem_order {count start d : Nat} (h : d < (order count start).length) :
    (order count start)[d] = (start + d) % max count 1 := by
  simp only [order, List.getElem_rotate, List.getElem_range, List.length_range, Nat.add_comm]

theorem succ_mod (count x : Nat) : succ count (x % max count 1) = (x + 1) % max count 1 := by
  have hlt : x % max count 1 < max count 1 := Nat.mod_lt _ (by omega)
  rw [← Nat.mod_add_mod]
  unfold succ
  split
  · have hlast : x % max count 1 + 1 = max count 1 := by omega
    rw [hlast, Nat.mod_self]
  · exact (Nat.mod_eq_of_lt (by omega)).symm

/-- The cursor is back at the start behind the last index. -/
theorem succ_eq_start_iff {count start d : Nat} (hstart : start < max count 1)
    (hd : d < max count 1) : (start + d + 1) % max count 1 = start ↔ d + 1 = max count 1 := by
  constructor
  · intro h
    by_contra hne
    rcases Nat.lt_or_ge (start + d + 1) (max count 1) with hlt | hge
    · rw [Nat.mod_eq_of_lt hlt] at h
      omega
    · rw [Nat.mod_eq_sub_mod hge, Nat.mod_eq_of_lt (by omega)] at h
      omega
  · intro h
    rw [Nat.add_assoc, h, Nat.add_mod_right, Nat.mod_eq_of_lt hstart]

section loop

variable {visit : Nat → σ → Option (σ × Option (List β))} {poll : Nat → Option (List β)}
  {Ok : List Nat → σ → Prop} {Post : Nat → σ → Prop} {count start : Nat}

theorem serve_cons_empty {i : Nat} (is : List Nat) (h : poll i = none ∨ poll i = some []) :
    serve poll (i :: is) =
      ((if (poll i).isSome then [i] else []) ++ (serve poll is).1, (serve poll is).2) := by
  rw [serve]
  rcases h with h | h
  · rw [h]
    rfl
  · rw [h]
    rfl

theorem serve_cons_burst {i : Nat} {b : β} {bs : List β} (is : List Nat)
    (h : poll i = some (b :: bs)) : serve poll (i :: is) = ([i], some (i, b :: bs)) := by
  rw [serve, h]

theorem burst_of_not_empty {i : Nat} (h : ¬(poll i = none ∨ poll i = some [])) :
    ∃ b bs, poll i = some (b :: bs) := by
  match hpoll : poll i with
  | none => exact absurd (Or.inl hpoll) h
  | some [] => exact absurd (Or.inr hpoll) h
  | some (b :: bs) => exact ⟨b, bs, rfl⟩

theorem eq_nil_of_empty {i : Nat} {burst : List β} (h : poll i = none ∨ poll i = some [])
    (hburst : poll i = some burst) : burst = [] := by
  rw [hburst] at h
  rcases h with hno | hnil
  · cases hno
  · exact Option.some.inj hnil

/-- A turn without a burst. -/
theorem loop_empty {fuel i : Nat} {s s' : σ} {burst : Option (List β)}
    (hrun : visit i s = some (s', burst)) (h : burst = none ∨ burst = some []) :
    loop visit count start (fuel + 1) i s =
      if succ count i ≠ start then
        (loop visit count start fuel (succ count i) s').map fun out =>
          { out with polled := (if burst.isSome then [i] else []) ++ out.polled }
      else some ⟨succ count i, s', if burst.isSome then [i] else [], none⟩ := by
  rw [loop, hrun]
  rcases h with rfl | rfl
  · simp only [Option.bind_eq_bind, Option.bind_some, Option.map_eq_bind]
    rfl
  · simp only [Option.bind_eq_bind, Option.bind_some, Option.map_eq_bind]
    rfl

/-- The loop from the `d`-th index on, by induction on the turns left. -/
theorem loop_from
    (hvisit : ∀ i is s, Ok (i :: is) s →
      ∃ s', visit i s = some (s', poll i) ∧ Ok is s' ∧ Post i s')
    (hstart : start < max count 1) {fuel d : Nat} (hd : d < max count 1)
    (hfuel : max count 1 ≤ fuel + d) {s : σ} (h : Ok ((order count start).drop d) s) :
    ∃ s' is, loop visit count start fuel ((start + d) % max count 1) s =
        some (Outcome.of poll count start ((order count start).drop d) s') ∧
      Ok is s' ∧
      ∀ i burst, (serve poll ((order count start).drop d)).2 = some (i, burst) → Post i s' := by
  induction fuel generalizing d s with
  | zero => omega
  | succ fuel ih =>
      have hlen : d < (order count start).length := by rwa [length_order]
      rw [List.drop_eq_getElem_cons hlen, getElem_order hlen] at h ⊢
      obtain ⟨s₁, hrun, hrest, hpost⟩ := hvisit _ _ _ h
      by_cases hempty : poll ((start + d) % max count 1) = none ∨
          poll ((start + d) % max count 1) = some []
      · have hserve := serve_cons_empty ((order count start).drop (d + 1)) hempty
        rw [loop_empty hrun hempty, succ_mod]
        by_cases hlast : d + 1 = max count 1
        · have hdrop : (order count start).drop (d + 1) = [] :=
            List.drop_of_length_le (by rw [length_order, hlast])
          have hend := (succ_eq_start_iff hstart hd).mpr hlast
          rw [hdrop, serve, List.append_nil] at hserve
          rw [if_neg (not_not.mpr hend), hend, hdrop, hserve]
          refine ⟨s₁, _, ?_, hrest, nofun⟩
          rw [Outcome.of, hserve]
          rfl
        · have hmore := fun heq => hlast ((succ_eq_start_iff hstart hd).mp heq)
          obtain ⟨s', is, hloop, hOk, hPost⟩ := ih (by omega) (by omega) hrest
          rw [if_pos hmore, Nat.add_assoc, hloop, hserve]
          refine ⟨s', is, ?_, hOk, hPost⟩
          rw [Outcome.of, Outcome.of, hserve]
          rfl
      · obtain ⟨b, bs, hburst⟩ := burst_of_not_empty hempty
        have hserve := serve_cons_burst ((order count start).drop (d + 1)) hburst
        rw [loop, hrun, hburst, Option.bind_eq_bind, Option.bind_some, hserve]
        refine ⟨s₁, _, ?_, hrest, ?_⟩
        · rw [Outcome.of, hserve]
          rfl
        · intro i burst hgot
          obtain ⟨rfl, -⟩ := Prod.mk.inj (Option.some.inj hgot)
          exact hpost

/-- **The loop.**  It ends, has served the indexes in turn, and its cursor is behind
the index served, or where it began. -/
theorem loop_eq (poll : Nat → Option (List β)) (Ok : List Nat → σ → Prop) (Post : Nat → σ → Prop)
    (hvisit : ∀ i is s, Ok (i :: is) s →
      ∃ s', visit i s = some (s', poll i) ∧ Ok is s' ∧ Post i s')
    (hstart : start < max count 1) {fuel : Nat} (hfuel : max count 1 ≤ fuel) {s : σ}
    (h : Ok (order count start) s) :
    ∃ s' is, loop visit count start fuel start s =
        some (Outcome.of poll count start (order count start) s') ∧ Ok is s' ∧
      ∀ i burst, (serve poll (order count start)).2 = some (i, burst) → Post i s' := by
  have hfrom := loop_from hvisit hstart (show 0 < max count 1 by omega)
    (show max count 1 ≤ fuel + 0 from hfuel) (show Ok ((order count start).drop 0) s from h)
  rwa [List.drop_zero, Nat.add_zero, Nat.mod_eq_of_lt hstart] at hfrom

end loop

/-! ### What was polled -/

/-- A call polls indexes in turn, each at most once, and ends with the first burst that
is not empty or with none. -/
structure InTurn (poll : Nat → Option (List β)) (count start : Nat) (out : Outcome σ β) :
    Prop where
  valid : out.next < max count 1
  nodup : out.polled.Nodup
  served : ∀ i burst, out.got = some (i, burst) → poll i = some burst ∧ burst ≠ [] ∧
    out.next = succ count i ∧ ∃ before after, order count start = before ++ i :: after ∧
      out.polled = before.filter (fun j => (poll j).isSome) ++ [i] ∧
      ∀ j ∈ before, ∀ burst, poll j = some burst → burst = []
  empty : out.got = none → out.next = start ∧
    out.polled = (order count start).filter (fun j => (poll j).isSome) ∧
    ∀ j ∈ order count start, ∀ burst, poll j = some burst → burst = []

section serve

variable {poll : Nat → Option (List β)}

theorem serve_sublist (is : List Nat) : (serve poll is).1.Sublist is := by
  induction is with
  | nil => exact List.Sublist.refl _
  | cons i is ih =>
      rw [serve]
      split
      · exact ih.cons i
      · exact ih.cons_cons i
      · exact (List.nil_sublist is).cons_cons i

theorem serve_some {is : List Nat} {i : Nat} {burst : List β}
    (h : (serve poll is).2 = some (i, burst)) : poll i = some burst ∧ burst ≠ [] ∧
      ∃ before after, is = before ++ i :: after ∧
        (serve poll is).1 = before.filter (fun j => (poll j).isSome) ++ [i] ∧
        ∀ j ∈ before, ∀ burst, poll j = some burst → burst = [] := by
  induction is with
  | nil => cases h
  | cons j is ih =>
      by_cases hempty : poll j = none ∨ poll j = some []
      · rw [serve_cons_empty is hempty] at h ⊢
        obtain ⟨hpoll, hne, before, after, rfl, hpolled, hbefore⟩ := ih h
        refine ⟨hpoll, hne, j :: before, after, rfl, ?_, ?_⟩
        · rw [hpolled, ← List.append_assoc, List.filter_cons]
          split <;> rfl
        · intro k hk burst' hburst'
          rcases List.mem_cons.mp hk with rfl | hk
          · exact eq_nil_of_empty hempty hburst'
          · exact hbefore k hk burst' hburst'
      · obtain ⟨b, bs, hburst⟩ := burst_of_not_empty hempty
        rw [serve_cons_burst is hburst] at h ⊢
        obtain ⟨rfl, rfl⟩ := Prod.mk.inj (Option.some.inj h)
        exact ⟨hburst, List.cons_ne_nil b bs, [], is, rfl, rfl, fun _ h => absurd h List.not_mem_nil⟩

theorem serve_none {is : List Nat} (h : (serve poll is).2 = none) :
    (serve poll is).1 = is.filter (fun j => (poll j).isSome) ∧
      ∀ j ∈ is, ∀ burst, poll j = some burst → burst = [] := by
  induction is with
  | nil => exact ⟨rfl, fun _ h => absurd h List.not_mem_nil⟩
  | cons j is ih =>
      by_cases hempty : poll j = none ∨ poll j = some []
      · rw [serve_cons_empty is hempty] at h ⊢
        obtain ⟨hpolled, hall⟩ := ih h
        refine ⟨?_, ?_⟩
        · rw [hpolled, List.filter_cons]
          split <;> rfl
        · intro k hk burst hburst
          rcases List.mem_cons.mp hk with rfl | hk
          · exact eq_nil_of_empty hempty hburst
          · exact hall k hk burst hburst
      · obtain ⟨b, bs, hburst⟩ := burst_of_not_empty hempty
        rw [serve_cons_burst is hburst] at h
        cases h

/-- Serving the indexes in turn. -/
theorem Outcome.of_inTurn {count start : Nat} (hstart : start < max count 1) (s : σ) :
    InTurn poll count start (Outcome.of poll count start (order count start) s) := by
  cases hgot : (serve poll (order count start)).2 with
  | none =>
      refine ⟨?_, (nodup_order count start).sublist (serve_sublist _), ?_, ?_⟩
      · rw [Outcome.of, hgot]
        exact hstart
      · intro i burst h
        rw [Outcome.of, hgot] at h
        cases h
      · intro _
        refine ⟨?_, serve_none hgot⟩
        rw [Outcome.of, hgot]
        rfl
  | some got =>
      refine ⟨?_, (nodup_order count start).sublist (serve_sublist _), ?_, ?_⟩
      · rw [Outcome.of, hgot]
        exact succ_lt count got.1
      · intro i burst h
        have hsome : (serve poll (order count start)).2 = some (i, burst) := h
        obtain ⟨hpoll, hne, hbefore⟩ := serve_some hsome
        refine ⟨hpoll, hne, ?_, hbefore⟩
        rw [Outcome.of, hsome]
        rfl
      · intro h
        rw [Outcome.of, hgot] at h
        cases h

end serve

/-! ### Calls one after the other -/

/-- The cursor between calls, and the index served last with the number of indexes
there were then. -/
structure Cursor where
  next : Nat
  served : Option (Nat × Nat)

/-- Nothing served yet. -/
def Cursor.init : Cursor := ⟨0, none⟩

/-- A call with `count` indexes. -/
def Cursor.after (c : Cursor) (count : Nat) (out : Outcome σ β) : Cursor where
  next := out.next
  served := (out.got.map fun got => (got.1, count)).or c.served

/-- Behind the index served last, among the indexes there were then. -/
def startThen : Option (Nat × Nat) → Nat
  | none => 0
  | some (i, count) => succ count i

/-- Behind the index served last, among the indexes there are now. -/
def startNow (count : Nat) : Option (Nat × Nat) → Nat
  | none => 0
  | some (i, _) => succ count i

/-- The cursor is behind the index served last; the indexes have become no fewer. -/
structure Cursor.Valid (count : Nat) (c : Cursor) : Prop where
  next : c.next = startThen c.served
  le : ∀ i k, c.served = some (i, k) → k ≤ count

section Cursor

variable {count count' : Nat} {c : Cursor}

theorem Cursor.Valid.init (count : Nat) : Cursor.init.Valid count where
  next := rfl
  le _ _ h := by cases h

theorem Cursor.Valid.lt (h : c.Valid count) : c.next < max count 1 := by
  rw [h.next]
  cases hserved : c.served with
  | none => exact Nat.lt_of_lt_of_le Nat.one_pos (Nat.le_max_right count 1)
  | some last =>
      have hle := h.le last.1 last.2 hserved
      have hlt := succ_lt last.2 last.1
      show succ last.2 last.1 < max count 1
      omega

theorem Cursor.Valid.mono (h : c.Valid count) (hle : count ≤ count') : c.Valid count' where
  next := h.next
  le i k hserved := Nat.le_trans (h.le i k hserved) hle

theorem Cursor.Valid.after (h : c.Valid count) {poll : Nat → Option (List β)} {out : Outcome σ β}
    (hout : InTurn poll count c.next out) : (c.after count out).Valid count := by
  cases hgot : out.got with
  | none =>
      have hserved : (c.after count out).served = c.served := by
        rw [Cursor.after, hgot]
        rfl
      refine ⟨?_, fun i k hlast => h.le i k (hserved.symm.trans hlast)⟩
      rw [hserved, ← h.next]
      exact (hout.empty hgot).1
  | some got =>
      have hserved : (c.after count out).served = some (got.1, count) := by
        rw [Cursor.after, hgot]
        rfl
      refine ⟨?_, fun i k hlast => ?_⟩
      · rw [hserved]
        exact (hout.served got.1 got.2 hgot).2.2.1
      · rw [hserved] at hlast
        obtain ⟨-, rfl⟩ := Prod.mk.inj (Option.some.inj hlast)
        exact Nat.le_refl count

end Cursor

end RoundRobin
