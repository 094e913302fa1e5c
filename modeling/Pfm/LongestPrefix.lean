import Mathlib.Logic.Function.Basic

/-!
# Longest-prefix match

Rules are kept by prefix: a depth, and an address masked to that depth.  An address
matches a prefix when it masks to it, and `longest` is the value at the longest
prefix that an address matches.  How addresses are masked is a parameter.

* `longest_eq_some_iff`, `longest_eq_none_iff` : what the search from the longest
  depth downwards finds;
* `longest_map` : a rule map that names the values of another one matches alike.
-/

namespace LongestPrefix

variable {α β γ : Type}

/-- The value at every prefix. -/
abbrev Rules (α β : Type) := Nat → α → Option β

/-- Put a value at a prefix. -/
def Rules.set [DecidableEq α] (rules : Rules α β) (d : Nat) (a : α) (b : β) : Rules α β :=
  fun d' a' => if d' = d ∧ a' = a then some b else rules d' a'

section set

variable [DecidableEq α] {rules : Rules α β} {d d' : Nat} {a a' : α} {b : β}

theorem Rules.set_self : rules.set d a b d a = some b := by
  simp [Rules.set]

theorem Rules.set_of_ne (h : ¬ (d' = d ∧ a' = a)) : rules.set d a b d' a' = rules d' a' := by
  simp [Rules.set, h]

/-- A value that is there already changes nothing. -/
theorem Rules.set_of_eq (h : rules d a = some b) : rules.set d a b = rules := by
  funext d' a'
  unfold Rules.set
  split
  · rename_i heq
    rw [heq.1, heq.2, h]
  · rfl

end set

variable (masked : Nat → α → α)

/-- The value at the longest matching prefix of depth 1 to `w`. -/
def longest (rules : Rules α β) : Nat → α → Option β
  | 0, _ => none
  | d + 1, a =>
      match rules (d + 1) (masked (d + 1) a) with
      | some b => some b
      | none => longest rules d a

/-- The longest prefix that `a` matches has depth `d`. -/
structure IsLongest (rules : Rules α β) (w : Nat) (a : α) (d : Nat) : Prop where
  pos : 0 < d
  le : d ≤ w
  present : (rules d (masked d a)).isSome = true
  longest : ∀ e, 0 < e → e ≤ w → (rules e (masked e a)).isSome = true → e ≤ d

variable {masked} {rules : Rules α β} {w : Nat} {a : α} {b : β}

theorem longest_eq_none_iff :
    longest masked rules w a = none ↔ ∀ d, 0 < d → d ≤ w → rules d (masked d a) = none := by
  induction w with
  | zero => exact iff_of_true rfl fun d h0 h1 => by omega
  | succ w ih =>
      unfold longest
      cases hrule : rules (w + 1) (masked (w + 1) a) with
      | some b =>
          refine iff_of_false (by simp) fun hall => ?_
          rw [hall (w + 1) (Nat.succ_pos w) (Nat.le_refl _)] at hrule
          cases hrule
      | none =>
          refine ih.trans ⟨fun hall d h0 hd => ?_, fun hall d h0 hd => hall d h0 (by omega)⟩
          rcases Nat.le_succ_iff.mp hd with hle | rfl
          · exact hall d h0 hle
          · exact hrule

theorem longest_eq_some_iff :
    longest masked rules w a = some b ↔
      ∃ d, IsLongest masked rules w a d ∧ rules d (masked d a) = some b := by
  induction w with
  | zero =>
      refine iff_of_false (by simp [longest]) fun hex => ?_
      obtain ⟨d, hd, _⟩ := hex
      have h0 := hd.pos
      have h1 := hd.le
      omega
  | succ w ih =>
      unfold longest
      cases hrule : rules (w + 1) (masked (w + 1) a) with
      | some c =>
          constructor
          · intro h
            obtain rfl : c = b := Option.some.inj h
            exact ⟨w + 1, ⟨Nat.succ_pos w, Nat.le_refl _, by rw [hrule]; rfl,
              fun e _ he _ => he⟩, hrule⟩
          · intro hex
            obtain ⟨d, hd, hb⟩ := hex
            have htop := hd.longest (w + 1) (Nat.succ_pos w) (Nat.le_refl _) (by rw [hrule]; rfl)
            obtain rfl : d = w + 1 := Nat.le_antisymm hd.le htop
            exact hrule.symm.trans hb
      | none =>
          refine ih.trans ⟨fun hex => ?_, fun hex => ?_⟩
          · obtain ⟨d, hd, hb⟩ := hex
            refine ⟨d, ⟨hd.pos, Nat.le_succ_of_le hd.le, hd.present, fun e h0 he hpres => ?_⟩, hb⟩
            rcases Nat.le_succ_iff.mp he with hle | rfl
            · exact hd.longest e h0 hle hpres
            · rw [hrule] at hpres
              cases hpres
          · obtain ⟨d, hd, hb⟩ := hex
            have hle : d ≤ w := by
              rcases Nat.le_succ_iff.mp hd.le with hle | rfl
              · exact hle
              · rw [hrule] at hb
                cases hb
            exact ⟨d, ⟨hd.pos, hle, hd.present,
              fun e h0 he hpres => hd.longest e h0 (Nat.le_succ_of_le he) hpres⟩, hb⟩

/-- Where one rule map has names and another what they stand for, they match alike. -/
theorem longest_map {rules' : Rules α γ} {f : β → γ}
    (h : ∀ d a, rules' d a = (rules d a).map f) (w : Nat) (a : α) :
    longest masked rules' w a = (longest masked rules w a).map f := by
  induction w with
  | zero => rfl
  | succ w ih =>
      unfold longest
      rw [h, ih]
      cases rules (w + 1) (masked (w + 1) a) with
      | none => rfl
      | some b => rfl

end LongestPrefix
