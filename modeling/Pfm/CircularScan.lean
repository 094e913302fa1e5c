import Mathlib.Data.Fintype.Card

/-!
# Circular searches that start after a cursor

A C table of `n` entries with a remembered cursor is often searched with

    for (i = (last + 1) % n; i != last; i = (i + 1) % n)

The loop looks at every entry except the one under the cursor, in cyclic
order starting after it.  `scan` is that loop; what is done at an entry (take
it, give up, go on) is the parameter `probe`.  `scan_eq_some_iff` says exactly
what the loop returns, and `Arc` follows the entries that searches with a moving
cursor have passed over.
-/

namespace CircularScan

variable {n : Nat}

/-- What the loop body does at one entry. -/
inductive Probe where
  | take
  | stop
  | next
  deriving DecidableEq

/-- The entry `d` places after `c`. -/
def ahead (c : Fin n) (d : Nat) : Fin n :=
  ⟨(c.val + d) % n, Nat.mod_lt _ (Nat.zero_lt_of_lt c.isLt)⟩

/-- The loop from entry `i` on, with at most `fuel` entries left to look at. -/
def scanFrom (probe : Fin n → Probe) (last : Fin n) : Nat → Fin n → Option (Fin n)
  | 0, _ => none
  | fuel + 1, i =>
      if i = last then none
      else match probe i with
        | .take => some i
        | .stop => none
        | .next => scanFrom probe last fuel (ahead i 1)

/-- The whole loop.  It comes back to the cursor after `n` steps. -/
def scan (probe : Fin n → Probe) (last : Fin n) : Option (Fin n) :=
  scanFrom probe last n (ahead last 1)

theorem ahead_ahead (c : Fin n) (d e : Nat) :
    ahead (ahead c d) e = ahead c (d + e) := by
  apply Fin.ext
  simp [ahead, Nat.add_assoc]

theorem ahead_zero (c : Fin n) : ahead c 0 = c := by
  apply Fin.ext
  simp [ahead, Nat.mod_eq_of_lt c.isLt]

theorem ahead_self (c : Fin n) : ahead c n = c := by
  apply Fin.ext
  simp [ahead, Nat.mod_eq_of_lt c.isLt]

/-- How far after `c` the entry `i` lies. -/
def dist (c i : Fin n) : Nat := (i.val + (n - c.val)) % n

theorem dist_lt (c i : Fin n) : dist c i < n :=
  Nat.mod_lt _ (Nat.zero_lt_of_lt c.isLt)

theorem ahead_dist (c i : Fin n) : ahead c (dist c i) = i := by
  have hc := c.isLt
  have hi := i.isLt
  apply Fin.ext
  simp only [ahead, dist, Nat.add_mod_mod]
  have : c.val + (i.val + (n - c.val)) = i.val + n := by omega
  rw [this, Nat.add_mod_right, Nat.mod_eq_of_lt hi]

theorem dist_ahead (c : Fin n) {d : Nat} (hd : d < n) : dist c (ahead c d) = d := by
  have hc := c.isLt
  simp only [ahead, dist, Nat.mod_add_mod]
  have : c.val + d + (n - c.val) = d + n := by omega
  rw [this, Nat.add_mod_right, Nat.mod_eq_of_lt hd]

theorem ahead_inj (c : Fin n) {d e : Nat} (hd : d < n) (he : e < n)
    (h : ahead c d = ahead c e) : d = e := by
  rw [← dist_ahead c hd, h, dist_ahead c he]

theorem ahead_ne_self (c : Fin n) {d : Nat} (h0 : 0 < d) (hd : d < n) :
    ahead c d ≠ c := by
  intro h
  have := ahead_inj c hd (Nat.zero_lt_of_lt hd) (h.trans (ahead_zero c).symm)
  omega

theorem dist_pos {c i : Fin n} (h : i ≠ c) : 0 < dist c i := by
  rcases Nat.eq_zero_or_pos (dist c i) with h0 | h0
  · exact absurd (by rw [← ahead_dist c i, h0, ahead_zero]) h
  · exact h0

/-- The entry `i` is `d` places after the cursor and every entry in between is
passed over. -/
structure Passes (probe : Fin n → Probe) (last i : Fin n) (d : Nat) : Prop where
  pos : 0 < d
  lt : d < n
  eq : i = ahead last d
  next : ∀ e, 0 < e → e < d → probe (ahead last e) = .next

private theorem scanFrom_eq_some_iff (probe : Fin n → Probe) (last i : Fin n) :
    ∀ fuel d, 0 < d → d + fuel = n + 1 →
      (scanFrom probe last fuel (ahead last d) = some i ↔
        ∃ e, d ≤ e ∧ e < n ∧ i = ahead last e ∧ probe i = .take ∧
          ∀ f, d ≤ f → f < e → probe (ahead last f) = .next) := by
  intro fuel
  induction fuel with
  | zero =>
      intro d hd hn
      simp only [scanFrom, reduceCtorEq, false_iff]
      intro hex
      obtain ⟨e, hde, hen, _⟩ := hex
      omega
  | succ fuel ih =>
      intro d hd hn
      rcases Nat.lt_or_ge d n with hlt | hge
      · have hne : ahead last d ≠ last := ahead_ne_self last hd hlt
        simp only [scanFrom, if_neg hne]
        cases hp : probe (ahead last d) with
        | take =>
            constructor
            · intro h
              obtain rfl : ahead last d = i := by simpa using h
              exact ⟨d, Nat.le_refl d, hlt, rfl, hp, fun f h1 h2 => by omega⟩
            · intro hex
              obtain ⟨e, hde, hen, rfl, _, hnext⟩ := hex
              rcases Nat.eq_or_lt_of_le hde with rfl | hlt'
              · rfl
              · have := hnext d (Nat.le_refl d) hlt'
                simp [hp] at this
        | stop =>
            simp only [reduceCtorEq, false_iff]
            intro hex
            obtain ⟨e, hde, hen, rfl, htake, hnext⟩ := hex
            rcases Nat.eq_or_lt_of_le hde with rfl | hlt'
            · simp [hp] at htake
            · have := hnext d (Nat.le_refl d) hlt'
              simp [hp] at this
        | next =>
            rw [ahead_ahead, ih (d + 1) (by omega) (by omega)]
            constructor
            · intro hex
              obtain ⟨e, hde, hen, hi, htake, hnext⟩ := hex
              refine ⟨e, by omega, hen, hi, htake, fun f h1 h2 => ?_⟩
              rcases Nat.eq_or_lt_of_le h1 with rfl | h1
              · exact hp
              · exact hnext f h1 h2
            · intro hex
              obtain ⟨e, hde, hen, rfl, htake, hnext⟩ := hex
              rcases Nat.eq_or_lt_of_le hde with rfl | hlt'
              · simp [hp] at htake
              · exact ⟨e, hlt', hen, rfl, htake, fun f h1 h2 => hnext f (by omega) h2⟩
      · have hdn : d = n := by omega
        subst hdn
        simp only [scanFrom, ahead_self, if_true, reduceCtorEq, false_iff]
        intro hex
        obtain ⟨e, hde, hen, _⟩ := hex
        omega

/-- **What the loop returns.**  The first entry after the cursor that is
taken, all the entries passed on the way there being passed over. -/
theorem scan_eq_some_iff (probe : Fin n → Probe) (last i : Fin n) :
    scan probe last = some i ↔
      probe i = .take ∧ ∃ d, Passes probe last i d := by
  unfold scan
  rw [scanFrom_eq_some_iff probe last i n 1 Nat.one_pos (by omega)]
  constructor
  · intro hex
    obtain ⟨e, h1, hen, hi, htake, hnext⟩ := hex
    exact ⟨htake, e, h1, hen, hi, hnext⟩
  · intro hex
    obtain ⟨htake, d, h1, hd, hi, hnext⟩ := hex
    exact ⟨d, h1, hd, hi, htake, hnext⟩

theorem scan_take {probe : Fin n → Probe} {last i : Fin n}
    (h : scan probe last = some i) : probe i = .take :=
  ((scan_eq_some_iff probe last i).mp h).1

theorem scan_ne_last {probe : Fin n → Probe} {last i : Fin n}
    (h : scan probe last = some i) : i ≠ last := by
  obtain ⟨_, d, hd⟩ := (scan_eq_some_iff probe last i).mp h
  rw [hd.eq]
  exact ahead_ne_self last hd.pos hd.lt

/-- A loop that never gives up finds an entry as soon as there is one to take
away from the cursor. -/
theorem scan_isSome {probe : Fin n → Probe} {last i : Fin n}
    (hstop : ∀ j, probe j ≠ .stop) (htake : probe i = .take) (hne : i ≠ last) :
    (scan probe last).isSome := by
  classical
  let hit : Nat → Prop := fun d => 0 < d ∧ probe (ahead last d) = .take
  have hex : ∃ d, hit d := ⟨dist last i, dist_pos hne, by rw [ahead_dist, htake]⟩
  have hspec := Nat.find_spec hex
  have hle : Nat.find hex ≤ dist last i :=
    Nat.find_min' hex ⟨dist_pos hne, by rw [ahead_dist, htake]⟩
  have hlt : Nat.find hex < n := Nat.lt_of_le_of_lt hle (dist_lt last i)
  refine Option.isSome_iff_exists.mpr ⟨ahead last (Nat.find hex), ?_⟩
  refine (scan_eq_some_iff _ _ _).mpr ⟨hspec.2, Nat.find hex, hspec.1, hlt, rfl, ?_⟩
  intro e he hlt
  have hmin := Nat.find_min hex hlt
  cases hp : probe (ahead last e) with
  | take => exact absurd ⟨he, hp⟩ hmin
  | stop => exact absurd hp (hstop _)
  | next => rfl

/-- A loop that never gives up fails only when every entry away from the
cursor is passed over. -/
theorem scan_eq_none_iff {probe : Fin n → Probe} {last : Fin n}
    (hstop : ∀ j, probe j ≠ .stop) :
    scan probe last = none ↔ ∀ i, i ≠ last → probe i = .next := by
  constructor
  · intro h i hne
    cases hp : probe i with
    | take =>
        have := scan_isSome hstop hp hne
        simp [h] at this
    | stop => exact absurd hp (hstop i)
    | next => rfl
  · intro h
    cases hs : scan probe last with
    | none => rfl
    | some i =>
        have := h i (scan_ne_last hs)
        simp [scan_take hs] at this

/-- A loop takes the entry after its cursor when it can. -/
theorem scan_next {probe : Fin n → Probe} {last : Fin n} (hn : 1 < n)
    (htake : probe (ahead last 1) = .take) : scan probe last = some (ahead last 1) :=
  (scan_eq_some_iff _ _ _).mpr ⟨htake, 1, Nat.one_pos, hn, rfl, fun e h0 h1 => by omega⟩

/-- A search that leaves out its cursor shows that all entries are taken as long as the
one under the cursor is, or another one is not. -/
theorem complete_iff_covered {P : Fin n → Prop} (last : Fin n) :
    ((∀ i, i ≠ last → P i) → ∀ i, P i) ↔ P last ∨ ∃ i, i ≠ last ∧ ¬ P i := by
  constructor
  · intro h
    by_cases hall : ∀ i, i ≠ last → P i
    · exact Or.inl (h hall last)
    · right
      by_contra hno
      exact hall fun i hi => by_contra fun hP => hno ⟨i, hi, hP⟩
  · intro h hall i
    rcases h with hlast | ⟨j, hj, hP⟩
    · by_cases hi : i = last
      · exact hi ▸ hlast
      · exact hall i hi
    · exact absurd (hall j hj) hP

/-- The entries `1, …, n` places after one are all different. -/
theorem ahead_inj_pos (c : Fin n) {d e : Nat} (hd0 : 0 < d) (hd : d ≤ n) (he0 : 0 < e)
    (he : e ≤ n) (h : ahead c d = ahead c e) : d = e := by
  rcases Nat.lt_or_eq_of_le hd with hd | rfl
  · rcases Nat.lt_or_eq_of_le he with he | rfl
    · exact ahead_inj c hd he h
    · rw [ahead_self] at h
      exact absurd h (ahead_ne_self c hd0 hd)
  · rcases Nat.lt_or_eq_of_le he with he | rfl
    · rw [ahead_self] at h
      exact absurd h.symm (ahead_ne_self c he0 he)
    · rfl

/-- Every entry lies so far after one. -/
theorem exists_ahead_eq (c i : Fin n) : ∃ d, 0 < d ∧ d ≤ n ∧ ahead c d = i := by
  by_cases h : i = c
  · exact ⟨n, Nat.zero_lt_of_lt c.isLt, Nat.le_refl n, by rw [ahead_self, h]⟩
  · exact ⟨dist c i, dist_pos h, Nat.le_of_lt (dist_lt c i), ahead_dist c i⟩

/-- A loop that gives up at its first entry finds nothing. -/
theorem scan_all_stop (last : Fin n) :
    scan (fun _ => Probe.stop) last = none := by
  cases hs : scan (fun _ => Probe.stop) last with
  | none => rfl
  | some i => exact absurd (scan_take hs) (by simp)

/-! ### The entries passed over

`Arc P x c`: all entries from `x` round to the cursor `c`, both included, are in
`P`.  A search that passes over entries of `P` alone and takes an entry lengthens
the arc, until `P` is everything. -/

def Arc (P : Fin n → Prop) (x c : Fin n) : Prop :=
  ∀ e, e ≤ dist x c → P (ahead x e)

variable {P Q : Fin n → Prop} {x c : Fin n} {d : Nat}

theorem dist_self (x : Fin n) : dist x x = 0 := by
  have h := dist_ahead x (Nat.zero_lt_of_lt x.isLt)
  rwa [ahead_zero] at h

theorem ahead_dist_add (x c : Fin n) (d : Nat) : ahead x (dist x c + d) = ahead c d := by
  rw [← ahead_ahead, ahead_dist]

theorem dist_ahead_of_lt (h : dist x c + d < n) : dist x (ahead c d) = dist x c + d := by
  rw [← ahead_dist_add, dist_ahead x h]

theorem Arc.mono (h : Arc P x c) (hPQ : ∀ i, P i → Q i) : Arc Q x c :=
  fun e he => hPQ _ (h e he)

theorem Arc.single (h : P x) : Arc P x x := by
  intro e he
  rw [dist_self] at he
  obtain rfl : e = 0 := Nat.le_zero.mp he
  rwa [ahead_zero]

theorem Arc.extend (h : Arc P x c) (hpass : ∀ e, 0 < e → e < d → P (ahead c e))
    (hnew : P (ahead c d)) (hlt : dist x c + d < n) : Arc P x (ahead c d) := by
  intro e he
  rw [dist_ahead_of_lt hlt] at he
  rcases Nat.lt_or_ge (dist x c) e with hfar | hnear
  · obtain ⟨f, rfl⟩ : ∃ f, e = dist x c + f := ⟨e - dist x c, by omega⟩
    rw [ahead_dist_add]
    rcases Nat.eq_or_lt_of_le (show f ≤ d by omega) with rfl | hf
    · exact hnew
    · exact hpass f (by omega) hf
  · exact h e hnear

/-- Short of a whole circle of `P` the arc has room for the entry taken. -/
theorem Arc.room (h : Arc P x c) (hpass : ∀ e, 0 < e → e < d → P (ahead c e))
    (hfull : ¬ ∀ i, P i) : dist x c + d < n := by
  by_contra hge
  refine hfull fun i => ?_
  have hi := dist_lt x i
  rcases Nat.lt_or_ge (dist x c) (dist x i) with hfar | hnear
  · obtain ⟨f, hf⟩ : ∃ f, dist x i = dist x c + f := ⟨dist x i - dist x c, by omega⟩
    have hif : ahead c f = i := by rw [← ahead_dist_add, ← hf, ahead_dist]
    rw [← hif]
    exact hpass f (by omega) (by omega)
  · have := h (dist x i) hnear
    rwa [ahead_dist] at this

theorem ahead_ne_of_room (hlt : dist x c + d < n) (hd : 0 < d) : ahead c d ≠ x := by
  intro h
  have := dist_ahead_of_lt hlt
  rw [h, dist_self] at this
  omega

end CircularScan
