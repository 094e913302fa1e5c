import Mathlib.Algebra.BigOperators.Group.List.Basic
import Mathlib.Data.Nat.ModEq
import Pfm.ByteBuffer

/-!
# One's-complement sums

Sums of digits to a base `B` with the carry added back in at the low end, as in
the checksums of the Internet protocols (`B = 2 ^ 16`).

* `add B` adds two digits with the end-around carry, `sum B` a list of them;
* `endAround m n` is the representative of `n` modulo `m` among `1, …, m`, or `0`
  when `n` is `0`.  With `m = B - 1` it is what is left of `n` when its carries
  have been added in, however often (`endAround_fold`), so it is also the
  one's-complement sum of digits that add up to `n` (`sum_eq_endAround`);
* `words` are the 16-bit digits of a string of bytes, with a zero byte for
  padding behind an odd one.
-/

namespace OnesComplement

/-- Add with the end-around carry. -/
def add (B a b : Nat) : Nat := (a + b) % B + (a + b) / B

/-- The one's-complement sum of a list of digits. -/
def sum (B : Nat) (l : List Nat) : Nat := l.foldl (add B) 0

/-- The representative of `n` modulo `m` among `1, …, m`; `0` stays `0`. -/
def endAround (m n : Nat) : Nat := if n = 0 then 0 else (n - 1) % m + 1

@[simp] theorem endAround_zero (m : Nat) : endAround m 0 = 0 := rfl

variable {m n k : Nat}

theorem endAround_of_pos (m : Nat) (h : 0 < n) : endAround m n = (n - 1) % m + 1 :=
  if_neg (Nat.ne_of_gt h)

theorem endAround_pos (m : Nat) (h : 0 < n) : 0 < endAround m n := by
  rw [endAround_of_pos m h]
  exact Nat.succ_pos _

theorem endAround_le (hm : 0 < m) (n : Nat) : endAround m n ≤ m := by
  cases n with
  | zero => exact Nat.zero_le m
  | succ n =>
      rw [endAround_of_pos m n.succ_pos]
      exact Nat.mod_lt _ hm

theorem endAround_of_le (h : n ≤ m) : endAround m n = n := by
  cases n with
  | zero => rfl
  | succ n =>
      have hlt : n < m := h
      rw [endAround_of_pos m n.succ_pos, Nat.succ_sub_one, Nat.mod_eq_of_lt hlt]

theorem endAround_modEq (m n : Nat) : endAround m n ≡ n [MOD m] := by
  cases n with
  | zero => rfl
  | succ n =>
      rw [endAround_of_pos m n.succ_pos, Nat.succ_sub_one]
      exact (Nat.mod_modEq n m).add_right 1

/-- The value of a sum that is not zero is its residue. -/
theorem endAround_eq_iff (hn : 0 < n) (hk : 0 < k) :
    endAround m n = endAround m k ↔ n ≡ k [MOD m] := by
  constructor
  · intro h
    exact (endAround_modEq m n).symm.trans (h ▸ endAround_modEq m k)
  · intro h
    have hpred : n - 1 ≡ k - 1 [MOD m] := by
      apply Nat.ModEq.add_right_cancel' 1
      rwa [Nat.sub_add_cancel hn, Nat.sub_add_cancel hk]
    rw [endAround_of_pos m hn, endAround_of_pos m hk, hpred]

/-- All digits of the value are ones when the modulus divides the sum. -/
theorem endAround_eq_modulus_iff (hm : 0 < m) (hn : 0 < n) : endAround m n = m ↔ m ∣ n := by
  have hself : endAround m m = m := endAround_of_le (Nat.le_refl m)
  have hm0 : m ≡ 0 [MOD m] := Nat.modEq_zero_iff_dvd.mpr (Nat.dvd_refl m)
  calc endAround m n = m
      ↔ endAround m n = endAround m m := by rw [hself]
    _ ↔ n ≡ m [MOD m] := endAround_eq_iff hn hm
    _ ↔ n ≡ 0 [MOD m] := ⟨fun h => h.trans hm0, fun h => h.trans hm0.symm⟩
    _ ↔ m ∣ n := Nat.modEq_zero_iff_dvd

variable {B : Nat}

/-- Adding the carry in changes the sum by a multiple of `B - 1`. -/
theorem fold_modEq (hB : 0 < B) (n : Nat) : n % B + n / B ≡ n [MOD B - 1] := by
  have hsplit : n = n % B + n / B + (B - 1) * (n / B) := by
    have hdiv := Nat.mod_add_div n B
    have hmul : B * (n / B) = n / B + (B - 1) * (n / B) := by
      rw [Nat.sub_mul, Nat.one_mul, Nat.add_sub_cancel' (Nat.le_mul_of_pos_left _ hB)]
    omega
  conv_rhs => rw [hsplit]
  exact (Nat.modEq_iff_dvd' (by omega)).mpr ⟨n / B, by omega⟩

/-- A turn of the folding loop keeps the value. -/
theorem endAround_fold (hB : 0 < B) (n : Nat) :
    endAround (B - 1) (n % B + n / B) = endAround (B - 1) n := by
  cases Nat.eq_zero_or_pos n with
  | inl h => rw [h, Nat.zero_mod, Nat.zero_div]
  | inr h =>
      have hpos : 0 < n % B + n / B := by
        have hdiv := Nat.mod_add_div n B
        apply Nat.pos_of_ne_zero
        intro hzero
        obtain ⟨hmod, hquot⟩ := Nat.add_eq_zero_iff.mp hzero
        rw [hmod, hquot, Nat.mul_zero] at hdiv
        omega
      exact (endAround_eq_iff hpos h).mpr (fold_modEq hB n)

theorem add_eq_endAround {a b : Nat} (ha : a < B) (hb : b < B) :
    add B a b = endAround (B - 1) (a + b) := by
  have hB : 0 < B := Nat.zero_lt_of_lt ha
  rw [← endAround_fold hB, endAround_of_le, add]
  have hdiv := Nat.mod_add_div (a + b) B
  have hmod := Nat.mod_lt (a + b) hB
  cases Nat.lt_or_ge (a + b) B with
  | inl h => rw [Nat.div_eq_of_lt h]; omega
  | inr h =>
      have hquot : (a + b) / B = 1 := Nat.div_eq_of_lt_le (by omega) (by omega)
      rw [hquot] at hdiv ⊢
      omega

theorem foldl_add_eq_endAround {l : List Nat} (h : ∀ x ∈ l, x < B) {a n : Nat} (ha : a < B)
    (han : a = endAround (B - 1) n) : l.foldl (add B) a = endAround (B - 1) (n + l.sum) := by
  induction l generalizing a n with
  | nil => rw [List.foldl_nil, List.sum_nil, Nat.add_zero, han]
  | cons x l ih =>
      have hx : x < B := h x List.mem_cons_self
      have hB : 0 < B := Nat.zero_lt_of_lt hx
      have hstep : add B a x = endAround (B - 1) (n + x) := by
        rw [add_eq_endAround ha hx]
        cases Nat.eq_zero_or_pos n with
        | inl hn => rw [han, hn, endAround_zero]
        | inr hn =>
            have hapos : 0 < a := han ▸ endAround_pos _ hn
            apply (endAround_eq_iff (by omega) (by omega)).mpr
            exact (han ▸ endAround_modEq (B - 1) n).add_right x
      have hlt : add B a x < B := by
        rw [hstep]
        cases Nat.eq_zero_or_pos (B - 1) with
        | inl hone =>
            have hx0 : x = 0 := by omega
            have ha0 : a = 0 := by omega
            rw [← hstep, hx0, ha0, add, Nat.add_zero, Nat.zero_mod, Nat.zero_div]
            exact hB
        | inr hpos => exact Nat.lt_of_le_of_lt (endAround_le hpos _) (by omega)
      rw [List.foldl_cons, ih (fun y hy => h y (List.mem_cons_of_mem x hy)) hlt hstep,
        List.sum_cons, Nat.add_assoc]

/-- The carries of a one's-complement sum can be added in at the end. -/
theorem sum_eq_endAround {l : List Nat} (hB : 0 < B) (h : ∀ x ∈ l, x < B) :
    sum B l = endAround (B - 1) l.sum := by
  rw [sum, foldl_add_eq_endAround h hB (endAround_zero _).symm, Nat.zero_add]

/-! ### The words of a string of bytes -/

open ByteBuffer

/-- Two bytes each, most significant first. -/
def words : List UInt8 → List Nat
  | a :: b :: l => (a.toNat * 256 + b.toNat) :: words l
  | [a] => [a.toNat * 256]
  | [] => []

theorem words_append {k : Nat} {l : List UInt8} (h : l.length = 2 * k) (r : List UInt8) :
    words (l ++ r) = words l ++ words r := by
  induction k generalizing l with
  | zero => rw [List.eq_nil_of_length_eq_zero h, List.nil_append, words, List.nil_append]
  | succ k ih =>
      obtain ⟨a, b, l, rfl⟩ : ∃ a b l', l = a :: b :: l' := by
        cases l with
        | nil => simp at h
        | cons a l =>
            cases l with
            | nil => simp only [List.length_cons, List.length_nil] at h; omega
            | cons b l => exact ⟨a, b, l, rfl⟩
      have hl : l.length = 2 * k := by
        simp only [List.length_cons] at h
        omega
      rw [List.cons_append, List.cons_append, words, words, ih hl, List.cons_append]

theorem words_lt (l : List UInt8) : ∀ x ∈ words l, x < 65536 := by
  induction l using words.induct with
  | case1 a b l ih =>
      intro x hx
      have ha := a.toNat_lt
      have hb := b.toNat_lt
      rw [words] at hx
      cases List.mem_cons.mp hx with
      | inl hx => omega
      | inr hx => exact ih x hx
  | case2 a =>
      intro x hx
      have ha := a.toNat_lt
      rw [words, List.mem_singleton] at hx
      omega
  | case3 =>
      intro x hx
      rw [words] at hx
      exact absurd hx List.not_mem_nil

theorem sum_words_le (l : List UInt8) : (words l).sum ≤ 65535 * l.length := by
  induction l using words.induct with
  | case1 a b l ih =>
      have ha := a.toNat_lt
      have hb := b.toNat_lt
      rw [words, List.sum_cons, List.length_cons, List.length_cons]
      omega
  | case2 a =>
      have ha := a.toNat_lt
      simp only [words, List.sum_cons, List.sum_nil, List.length_cons, List.length_nil]
      omega
  | case3 => rw [words, List.sum_nil]; exact Nat.zero_le _

/-- The words of a slice, one after the other. -/
theorem sum_words_slice (f : Int → UInt8) (off : Int) (k : Nat) :
    (words (slice f off (2 * k))).sum =
      ((List.range k).map fun j : Nat =>
        (f (off + (2 * j : Nat))).toNat * 256 + (f (off + (2 * j + 1 : Nat))).toNat).sum := by
  induction k with
  | zero => rfl
  | succ k ih =>
      rw [Nat.mul_succ, slice_add, words_append (length_slice f off _), List.sum_append, ih,
        List.range_succ, List.map_append, List.sum_append]
      have htwo : slice f (off + (2 * k : Nat)) 2 =
          [f (off + (2 * k : Nat)), f (off + (2 * k + 1 : Nat))] := by
        rw [slice_add f _ 1 1, slice_one, slice_one, Int.add_assoc]
        rfl
      rw [htwo]
      rfl

end OnesComplement
