import Mathlib.Data.List.TakeWhile
import Pfm.BoundedLoop

/-!
# C strings

A C string is a pointer into an array of bytes: the bytes from there on up to the
first that is 0.  `strlen` and `strtok` read on until they find what they look for, and
a search that leaves the array is a fault.

* `StrAt a i s` : the string at index `i` of the array `a` is `s`;
* `find_of_holds` : the search for a byte that is there;
* `words_eq` : the words of a string one after the other;
* `strtok_eq` : `strtok` on a string gives its first word and goes on behind it.
-/

namespace CString

open BoundedLoop

variable {n : Nat}

/-- The array has the bytes `xs` from index `i` on. -/
def Holds (a : CArray n UInt8) (i : Nat) (xs : List UInt8) : Prop :=
  ∀ j x, xs[j]? = some x → a.get? (i + j) = some x

/-- The string at `i`. -/
structure StrAt (a : CArray n UInt8) (i : Nat) (s : List UInt8) : Prop where
  no_nul : 0 ∉ s
  holds : Holds a i (s ++ [0])

def scan (p : UInt8 → Bool) (a : CArray n UInt8) : Nat → Nat → Option Nat
  | 0, _ => none
  | fuel + 1, i => (a.get? i).bind fun b => if p b then some i else scan p a fuel (i + 1)

/-- The first index from `i` on with such a byte; `none` when the array ends first. -/
def find (p : UInt8 → Bool) (a : CArray n UInt8) (i : Nat) : Option Nat := scan p a (n - i) i

def strlen (a : CArray n UInt8) (i : Nat) : Option Nat :=
  (find (fun b => b = 0) a i).map fun e => e - i

/-- The characters of the string at `i`. -/
def read (a : CArray n UInt8) (i : Nat) : Option (List UInt8) := do
  let len ← strlen a i
  (List.range' i len).mapM a.get?

/-- The token from `start` on, the pointer that is kept for the next call, and the
array with the token terminated. -/
def strtok (delim : UInt8 → Bool) (a : CArray n UInt8) (start : Nat) :
    Option (Option Nat × Nat × CArray n UInt8) := do
  let tok ← find (fun b => !delim b) a start
  let b ← a.get? tok
  if b = 0 then some (none, tok, a)
  else do
    let last ← find (fun b => delim b || b = 0) a tok
    let b ← a.get? last
    if b = 0 then some (some tok, last, a)
    else do
      let a ← a.set? last 0
      some (some tok, last + 1, a)

/-- Bytes up to the first NUL. -/
def chars (xs : List UInt8) : List UInt8 := xs.takeWhile fun x => x != 0

/-! ### Words -/

section words

variable (delim : UInt8 → Bool)

/-- The delimiters before the first word. -/
def lead (s : List UInt8) : List UInt8 := s.takeWhile delim

def word (s : List UInt8) : List UInt8 := (s.dropWhile delim).takeWhile fun b => !delim b

/-- What is behind the first word, its delimiter included. -/
def behind (s : List UInt8) : List UInt8 := (s.dropWhile delim).dropWhile fun b => !delim b

theorem lead_append_word (s : List UInt8) : lead delim s ++ (word delim s ++ behind delim s) = s := by
  rw [word, behind, List.takeWhile_append_dropWhile, lead, List.takeWhile_append_dropWhile]

variable {delim}

theorem delim_of_mem_lead {s : List UInt8} {b : UInt8} (h : b ∈ lead delim s) : delim b = true :=
  List.mem_takeWhile_imp h

theorem not_delim_of_mem_word {s : List UInt8} {b : UInt8} (h : b ∈ word delim s) :
    delim b = false := by
  have hb := List.mem_takeWhile_imp (p := fun b => !delim b) h
  rwa [Bool.not_eq_true'] at hb

/-- Behind a word stands a delimiter. -/
theorem delim_of_behind {s s' : List UInt8} {d : UInt8} (h : behind delim s = d :: s') :
    delim d = true := by
  have hhead := List.head_dropWhile_not (fun b => !delim b)
    (show behind delim s ≠ [] by rw [h]; exact List.cons_ne_nil d s')
  have hd : (behind delim s).head (by rw [h]; exact List.cons_ne_nil d s') = d := by
    simp only [h, List.head_cons]
  rw [← hd]
  simpa [behind] using hhead

/-- There is nothing behind no word. -/
theorem behind_of_word_nil {s : List UInt8} (h : word delim s = []) : behind delim s = [] := by
  cases hbody : s.dropWhile delim with
  | nil => rw [behind, hbody, List.dropWhile_nil]
  | cons b body =>
      have hb := List.head_dropWhile_not delim
        (show s.dropWhile delim ≠ [] by rw [hbody]; exact List.cons_ne_nil b body)
      simp only [hbody, List.head_cons] at hb
      rw [word, hbody, List.takeWhile_cons_of_pos (by rw [hb]; rfl)] at h
      cases h

variable (delim) in
/-- All words of a string. -/
def words (s : List UInt8) : List (List UInt8) := (s.splitOnP delim).filter fun w => w ≠ []

/-- Delimiters before the first word make no word. -/
theorem words_append {ds s : List UInt8} (hds : ∀ x ∈ ds, delim x = true) :
    words delim (ds ++ s) = words delim s := by
  induction ds with
  | nil => rfl
  | cons d ds ih =>
      have hsplit := List.splitOnP_append_cons [] (ds ++ s) (hds d List.mem_cons_self)
      rw [List.nil_append] at hsplit
      rw [words, List.cons_append, hsplit, List.filter_append]
      exact ih fun x hx => hds x (List.mem_cons_of_mem d hx)

/-- The words are the first word and those behind it. -/
theorem words_eq (s : List UInt8) : words delim s =
    if word delim s = [] then [] else word delim s :: words delim (behind delim s).tail := by
  have hword : ∀ x ∈ word delim s, delim x = false := fun _ hx => not_delim_of_mem_word hx
  have hkeep (ws : List (List UInt8)) (hsome : word delim s ≠ []) :
      ((word delim s :: ws).filter fun w => w ≠ []) =
        word delim s :: ws.filter fun w => w ≠ [] :=
    List.filter_cons_of_pos (decide_eq_true hsome)
  have hlead : ∀ x ∈ lead delim s, delim x = true := fun _ hx => delim_of_mem_lead hx
  have hs := words_append (s := word delim s ++ behind delim s) hlead
  rw [lead_append_word] at hs
  rw [hs, words]
  cases hbehind : behind delim s with
  | nil =>
      rw [List.append_nil, List.splitOnP_eq_singleton hword]
      by_cases hnone : word delim s = []
      · rw [if_pos hnone, hnone]
        rfl
      · rw [if_neg hnone, hkeep [] hnone]
        rfl
  | cons d rest =>
      have hsome : word delim s ≠ [] := fun hnone =>
        List.cons_ne_nil d rest (hbehind.symm.trans (behind_of_word_nil hnone))
      rw [List.splitOnP_append_cons_of_forall_mem hword d (delim_of_behind hbehind) rest,
        hkeep _ hsome, if_neg hsome]
      rfl

end words

/-! ### Bytes of an array -/

section holds

variable {a b : CArray n UInt8} {i : Nat} {xs ys : List UInt8}

theorem holds_nil (a : CArray n UInt8) (i : Nat) : Holds a i [] := by
  intro j x h
  rw [List.getElem?_nil] at h
  cases h

theorem holds_cons {x : UInt8} : Holds a i (x :: xs) ↔ a.get? i = some x ∧ Holds a (i + 1) xs := by
  constructor
  · intro h
    refine ⟨h 0 x rfl, fun j y hy => ?_⟩
    rw [Nat.add_assoc, Nat.add_comm 1 j]
    exact h (j + 1) y hy
  · rintro ⟨hx, hxs⟩ j y hy
    cases j with
    | zero =>
        obtain rfl := Option.some.inj hy
        exact hx
    | succ j =>
        rw [Nat.add_comm j 1, ← Nat.add_assoc]
        exact hxs j y hy

theorem holds_append : Holds a i (xs ++ ys) ↔ Holds a i xs ∧ Holds a (i + xs.length) ys := by
  induction xs generalizing i with
  | nil => exact ⟨fun h => ⟨holds_nil a i, h⟩, fun h => h.2⟩
  | cons x xs ih =>
      rw [List.cons_append, holds_cons, holds_cons, ih, List.length_cons, and_assoc,
        Nat.add_assoc, Nat.add_comm 1 xs.length]

/-- Bytes that lie where another array has the same ones. -/
theorem Holds.congr (h : Holds a i xs)
    (hsame : ∀ j, i ≤ j → j < i + xs.length → b.get? j = a.get? j) : Holds b i xs := by
  intro j x hx
  have hj : j < xs.length := (List.getElem?_eq_some_iff.mp hx).1
  rw [hsame (i + j) (Nat.le_add_right i j) (Nat.add_lt_add_left hj i)]
  exact h j x hx

theorem Holds.le (h : Holds a i xs) (hne : xs ≠ []) : i + xs.length ≤ n := by
  have hlen := List.length_pos_iff.mpr hne
  have hlast := h (xs.length - 1) _ (List.getElem?_eq_getElem (by omega))
  have hlt := CArray.lt_of_get? hlast
  omega

theorem scan_of_holds {p : UInt8 → Bool} {y : UInt8} (h : Holds a i (xs ++ [y]))
    (hxs : ∀ x ∈ xs, p x = false) (hy : p y = true) {fuel : Nat} (hfuel : xs.length < fuel) :
    scan p a fuel i = some (i + xs.length) := by
  induction xs generalizing i fuel with
  | nil =>
      obtain ⟨fuel, rfl⟩ := Nat.exists_eq_succ_of_ne_zero (Nat.ne_of_gt hfuel)
      rw [scan, (holds_cons.mp h).1, Option.bind_some, if_pos hy]
      rfl
  | cons x xs ih =>
      obtain ⟨hx, hrest⟩ := holds_cons.mp h
      obtain ⟨fuel, rfl⟩ := Nat.exists_eq_succ_of_ne_zero (Nat.ne_of_gt (Nat.zero_lt_of_lt hfuel))
      have hno : p x = false := hxs x List.mem_cons_self
      rw [scan, hx, Option.bind_some, if_neg (by rw [hno]; exact Bool.false_ne_true),
        ih hrest (fun z hz => hxs z (List.mem_cons_of_mem x hz)) (Nat.lt_of_succ_lt_succ hfuel),
        List.length_cons, Nat.add_assoc, Nat.add_comm 1]

/-- The search for a byte that is there. -/
theorem find_of_holds {p : UInt8 → Bool} {y : UInt8} (h : Holds a i (xs ++ [y]))
    (hxs : ∀ x ∈ xs, p x = false) (hy : p y = true) : find p a i = some (i + xs.length) := by
  have hle := h.le (List.append_ne_nil_of_right_ne_nil xs (List.cons_ne_nil y []))
  rw [List.length_append, List.length_singleton] at hle
  exact scan_of_holds h hxs hy (by omega)

end holds

/-! ### Strings -/

section strings

variable {a b : CArray n UInt8} {i : Nat} {s : List UInt8}

theorem StrAt.nul (h : StrAt a i s) : a.get? (i + s.length) = some 0 :=
  (holds_cons.mp (holds_append.mp h.holds).2).1

theorem StrAt.lt (h : StrAt a i s) : i + s.length < n := CArray.lt_of_get? h.nul

theorem strAt_nil : StrAt a i [] ↔ a.get? i = some 0 := by
  constructor
  · exact StrAt.nul
  · intro h
    exact ⟨List.not_mem_nil, holds_cons.mpr ⟨h, holds_nil _ _⟩⟩

theorem chars_cons (x : UInt8) (xs : List UInt8) :
    chars (x :: xs) = if x = 0 then [] else x :: chars xs := by
  rw [chars, List.takeWhile_cons]
  by_cases hx : x = 0
  · subst hx
    rfl
  · rw [if_neg hx, if_pos (bne_iff_ne.mpr hx)]
    rfl

theorem zero_notMem_chars (xs : List UInt8) : 0 ∉ chars xs := by
  intro hmem
  have h := List.mem_takeWhile_imp (p := fun x : UInt8 => x != 0) hmem
  exact bne_iff_ne.mp h rfl

/-- Bytes with a NUL behind them have a string in front. -/
theorem strAt_chars {xs : List UInt8} (h : Holds a i (xs ++ [0])) : StrAt a i (chars xs) := by
  refine ⟨zero_notMem_chars xs, ?_⟩
  induction xs generalizing i with
  | nil => exact h
  | cons x xs ih =>
      obtain ⟨hx, hrest⟩ := holds_cons.mp h
      rw [chars_cons]
      split
      · rename_i hzero
        subst hzero
        exact holds_cons.mpr ⟨hx, holds_nil _ _⟩
      · exact holds_cons.mpr ⟨hx, ih hrest⟩

theorem StrAt.congr (h : StrAt a i s)
    (hsame : ∀ j, i ≤ j → j ≤ i + s.length → b.get? j = a.get? j) : StrAt b i s where
  no_nul := h.no_nul
  holds := by
    refine h.holds.congr fun j hij hj => hsame j hij ?_
    rw [List.length_append, List.length_singleton] at hj
    omega

theorem find_nul (h : StrAt a i s) : find (fun b => b = 0) a i = some (i + s.length) := by
  refine find_of_holds h.holds (fun x hx => decide_eq_false ?_) (decide_eq_true rfl)
  intro heq
  exact h.no_nul (heq ▸ hx)

theorem strlen_eq (h : StrAt a i s) : strlen a i = some s.length := by
  rw [strlen, find_nul h, Option.map_some, Nat.add_sub_cancel_left]

theorem mapM_get? {xs : List UInt8} (h : Holds a i xs) :
    (List.range' i xs.length).mapM a.get? = some xs := by
  induction xs generalizing i with
  | nil => rfl
  | cons x xs ih =>
      obtain ⟨hx, hrest⟩ := holds_cons.mp h
      rw [List.length_cons, List.range'_succ, List.mapM_cons, hx, ih hrest]
      rfl

theorem read_eq (h : StrAt a i s) : read a i = some s := by
  rw [read, strlen_eq h, Option.bind_eq_bind, Option.bind_some]
  exact mapM_get? (holds_append.mp h.holds).1

/-- What one call of `strtok` does with the string `s` at `i`. -/
structure Tokenized (delim : UInt8 → Bool) (a : CArray n UInt8) (i : Nat) (s : List UInt8)
    (saved : Nat) (b : CArray n UInt8) : Prop where
  word_at : word delim s ≠ [] → StrAt b (i + (lead delim s).length) (word delim s)
  rest_at : StrAt b saved (behind delim s).tail
  saved_eq : behind delim s ≠ [] →
    saved = i + (lead delim s).length + (word delim s).length + 1
  last : behind delim s = [] → saved = i + s.length ∧ b = a
  frame : ∀ j, j < i ∨ i + s.length ≤ j → b.get? j = a.get? j

section strtok

variable {delim : UInt8 → Bool} {ds w : List UInt8} {d : UInt8}

/-- The search for the first byte that is no delimiter. -/
theorem find_lead (h : Holds a i (ds ++ [d])) (hds : ∀ x ∈ ds, delim x = true)
    (hd : delim d = false) : find (fun b => !delim b) a i = some (i + ds.length) := by
  refine find_of_holds h (fun x hx => ?_) ?_
  · rw [hds x hx]
    rfl
  · rw [hd]
    rfl

theorem find_end (h : Holds a i (w ++ [d])) (hw : ∀ x ∈ w, delim x = false ∧ x ≠ 0)
    (hd : delim d = true ∨ d = 0) :
    find (fun b => delim b || b = 0) a i = some (i + w.length) := by
  refine find_of_holds h (fun x hx => ?_) ?_
  · rw [(hw x hx).1, Bool.false_or]
    exact decide_eq_false (hw x hx).2
  · rw [Bool.or_eq_true, decide_eq_true_iff]
    exact hd

theorem strtok_none (hdelim : delim 0 = false) (h : Holds a i (ds ++ [0]))
    (hds : ∀ x ∈ ds, delim x = true) : strtok delim a i = some (none, i + ds.length, a) := by
  have hend : a.get? (i + ds.length) = some 0 := (holds_cons.mp (holds_append.mp h).2).1
  simp only [strtok, find_lead h hds hdelim, Option.bind_eq_bind, Option.bind_some, hend, if_true]

/-- The byte behind a word, when the word is there. -/
theorem strtok_word (h : Holds a i (ds ++ (w ++ [d]))) (hds : ∀ x ∈ ds, delim x = true)
    (hw : ∀ x ∈ w, delim x = false ∧ x ≠ 0) (hne : w ≠ []) (hd : delim d = true ∨ d = 0) :
    strtok delim a i = if d = 0 then some (some (i + ds.length), i + ds.length + w.length, a)
      else (a.set? (i + ds.length + w.length) 0).map fun b =>
        (some (i + ds.length), i + ds.length + w.length + 1, b) := by
  obtain ⟨hlead, hrest⟩ := holds_append.mp h
  obtain ⟨c, w', rfl⟩ := List.exists_cons_of_ne_nil hne
  obtain ⟨hc, hc0⟩ := hw c List.mem_cons_self
  have hfirst : a.get? (i + ds.length) = some c := (holds_cons.mp hrest).1
  have hlast : a.get? (i + ds.length + (c :: w').length) = some d :=
    (holds_cons.mp (holds_append.mp hrest).2).1
  have hfind := find_lead (holds_append.mpr ⟨hlead, holds_cons.mpr ⟨hfirst, holds_nil _ _⟩⟩) hds hc
  simp only [strtok, hfind, Option.bind_eq_bind, Option.bind_some, hfirst, if_neg hc0,
    find_end hrest hw hd, hlast, Option.map_eq_bind]
  rfl

/-- **The token.**  It is the first word, of which the end is written into the array if
it is not the end of the string. -/
theorem strtok_eq (hdelim : delim 0 = false) (h : StrAt a i s) :
    ∃ saved b, strtok delim a i =
        some (if word delim s = [] then none else some (i + (lead delim s).length), saved, b) ∧
      Tokenized delim a i s saved b := by
  have hs := lead_append_word delim s
  have hlen := congrArg List.length hs
  simp only [List.length_append] at hlen
  have hds (x : UInt8) (hx : x ∈ lead delim s) : delim x = true := delim_of_mem_lead hx
  have hnul (x : UInt8) (hx : x ∈ s) : x ≠ 0 := fun heq => h.no_nul (heq ▸ hx)
  have hw (x : UInt8) (hx : x ∈ word delim s) : delim x = false ∧ x ≠ 0 :=
    ⟨not_delim_of_mem_word hx,
      hnul x (hs ▸ List.mem_append_right _ (List.mem_append_left _ hx))⟩
  have hholds : Holds a i (lead delim s ++ (word delim s ++ (behind delim s ++ [0]))) := by
    have hholds := h.holds
    rwa [← hs, List.append_assoc, List.append_assoc] at hholds
  by_cases hword : word delim s = []
  · have hbehind := behind_of_word_nil hword
    rw [hword, hbehind] at hholds
    refine ⟨i + s.length, a, ?_, fun hne => absurd hword hne, ?_, fun hne => absurd hbehind hne,
      fun _ => ⟨rfl, rfl⟩, fun _ _ => rfl⟩
    · rw [strtok_none hdelim hholds hds, if_pos hword]
      simp [← hlen, hword, hbehind]
    · rw [hbehind]
      exact strAt_nil.mpr h.nul
  have hwordNul : 0 ∉ word delim s := fun hmem => (hw 0 hmem).2 rfl
  rw [if_neg hword]
  obtain ⟨hholdsLead, hholdsRest⟩ := holds_append.mp hholds
  obtain ⟨hholdsWord, hholdsBehind⟩ := holds_append.mp hholdsRest
  cases hbehind : behind delim s with
  | nil =>
      rw [hbehind] at hholds hholdsRest hlen
      refine ⟨i + s.length, a, ?_, fun _ => ⟨hwordNul, hholdsRest⟩, ?_,
        fun hne => absurd hbehind hne, fun _ => ⟨rfl, rfl⟩, fun _ _ => rfl⟩
      · rw [strtok_word hholds hds hw hword (Or.inr rfl), if_pos rfl, ← hlen, Nat.add_assoc]
        rfl
      · rw [hbehind]
        exact strAt_nil.mpr h.nul
  | cons d rest =>
  have hd : delim d = true := delim_of_behind hbehind
  have hmem (x : UInt8) (hx : x ∈ d :: rest) : x ∈ s :=
    hs ▸ List.mem_append_right _ (List.mem_append_right _ (hbehind ▸ hx))
  rw [hbehind, List.cons_append, holds_cons] at hholdsBehind
  have hlast := CArray.lt_of_get? hholdsBehind.1
  obtain ⟨b, hset⟩ : ∃ b, a.set? (i + (lead delim s).length + (word delim s).length) 0 = some b :=
    ⟨_, CArray.set?_of_lt a hlast 0⟩
  have hsame (j : Nat) (hj : j ≠ i + (lead delim s).length + (word delim s).length) :
      b.get? j = a.get? j := by
    rw [CArray.get?_set? hset, if_neg hj]
  rw [hbehind, List.length_cons] at hlen
  refine ⟨_, b, ?_, fun _ => ⟨hwordNul, ?_⟩, ⟨?_, ?_⟩, fun _ => rfl, fun hnil => ?_, fun j hj => ?_⟩
  · rw [strtok_word (d := d) ?_ hds hw hword (Or.inl hd), if_neg (hnul d (hmem d List.mem_cons_self)),
      hset]
    · rfl
    · exact holds_append.mpr ⟨hholdsLead, holds_append.mpr
        ⟨hholdsWord, holds_cons.mpr ⟨hholdsBehind.1, holds_nil _ _⟩⟩⟩
  · refine holds_append.mpr ⟨hholdsWord.congr fun j _ hj => hsame j (by omega), ?_⟩
    refine holds_cons.mpr ⟨?_, holds_nil _ _⟩
    rw [CArray.get?_set? hset, if_pos rfl]
  · rw [hbehind, List.tail_cons]
    exact fun hzero => hnul 0 (hmem 0 (List.mem_cons_of_mem d hzero)) rfl
  · rw [hbehind, List.tail_cons]
    exact hholdsBehind.2.congr fun j hj _ => hsame j (by omega)
  · rw [hbehind] at hnil
    cases hnil
  · exact hsame j (by omega)

end strtok

end strings

end CString
