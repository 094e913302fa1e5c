import Mathlib.Algebra.Group.Nat.Defs
import Mathlib.Data.List.GetD
import Mathlib.Data.List.Range

/-!
# Bytes in a buffer

Numbers as fixed-width bytes, most significant first (network order) or last,
and the bytes around a pointer as a function of the offset from it.

* `ofBigEndian_bigEndian`: reading back what was written, at any width, and
  `bigEndian_ofBigEndian` the other way round;
* `slice f off n` are the `n` bytes at an offset, `patch f off bs` stores `bs`
  there.  What was stored is read back (`slice_patch`), also in part
  (`slice_patch_part`), and a read elsewhere sees the old bytes
  (`slice_patch_disjoint`).
-/

namespace ByteBuffer

/-! ### Numbers -/

/-- The low `w` bytes of `x`, most significant first. -/
def bigEndian : Nat → Nat → List UInt8
  | 0, _ => []
  | w + 1, x => UInt8.ofNat (x / 256 ^ w) :: bigEndian w x

/-- The number with these bytes, most significant first. -/
def ofBigEndian : List UInt8 → Nat
  | [] => 0
  | b :: l => ofBigEndian l + 256 ^ l.length * b.toNat

/-- The low `w` bytes of `x`, most significant last. -/
def littleEndian (w x : Nat) : List UInt8 := (bigEndian w x).reverse

@[simp] theorem length_bigEndian (w x : Nat) : (bigEndian w x).length = w := by
  induction w with
  | zero => rfl
  | succ w ih => rw [bigEndian, List.length_cons, ih]

@[simp] theorem length_littleEndian (w x : Nat) : (littleEndian w x).length = w := by
  rw [littleEndian, List.length_reverse, length_bigEndian]

/-- The last byte is the low one. -/
theorem bigEndian_concat (w x : Nat) :
    bigEndian (w + 1) x = bigEndian w (x / 256) ++ [UInt8.ofNat x] := by
  induction w with
  | zero => simp [bigEndian]
  | succ w ih =>
      have hdiv : x / 256 ^ (w + 1) = x / 256 / 256 ^ w := by
        rw [Nat.div_div_eq_div_mul, Nat.pow_succ']
      rw [bigEndian, ih, bigEndian, hdiv, List.cons_append]

theorem ofBigEndian_bigEndian (w x : Nat) : ofBigEndian (bigEndian w x) = x % 256 ^ w := by
  induction w with
  | zero => rw [Nat.pow_zero, Nat.mod_one]; rfl
  | succ w ih =>
      have hbyte : (UInt8.ofNat (x / 256 ^ w)).toNat = x / 256 ^ w % 256 := by simp
      rw [bigEndian, ofBigEndian, ih, length_bigEndian, hbyte, Nat.mod_pow_succ]

theorem ofBigEndian_bigEndian_of_lt {w x : Nat} (h : x < 256 ^ w) :
    ofBigEndian (bigEndian w x) = x := by
  rw [ofBigEndian_bigEndian, Nat.mod_eq_of_lt h]

theorem bigEndian_add_mul (w x c : Nat) : bigEndian w (x + 256 ^ w * c) = bigEndian w x := by
  induction w generalizing c with
  | zero => rfl
  | succ w ih =>
      have hmul : 256 ^ (w + 1) * c = 256 ^ w * (256 * c) := by rw [Nat.pow_succ, Nat.mul_assoc]
      have hdiv : (x + 256 ^ w * (256 * c)) / 256 ^ w = x / 256 ^ w + 256 * c :=
        Nat.add_mul_div_left _ _ (Nat.pow_pos (by decide))
      have hbyte : UInt8.ofNat (x / 256 ^ w + 256 * c) = UInt8.ofNat (x / 256 ^ w) := by
        apply UInt8.toNat_inj.mp
        simp only [UInt8.toNat_ofNat']
        omega
      rw [bigEndian, bigEndian, hmul, hdiv, hbyte, ih]

theorem ofBigEndian_lt (l : List UInt8) : ofBigEndian l < 256 ^ l.length := by
  induction l with
  | nil => decide
  | cons b l ih =>
      have hb := b.toNat_lt
      have hle : 256 ^ l.length * b.toNat ≤ 256 ^ l.length * 255 :=
        Nat.mul_le_mul_left _ (by omega)
      rw [ofBigEndian, List.length_cons, Nat.pow_succ]
      omega

/-- Writing what was read gives the bytes back. -/
theorem bigEndian_ofBigEndian (l : List UInt8) : bigEndian l.length (ofBigEndian l) = l := by
  induction l with
  | nil => rfl
  | cons b l ih =>
      have hpos : 0 < 256 ^ l.length := Nat.pow_pos (by decide)
      have hdiv : (ofBigEndian l + 256 ^ l.length * b.toNat) / 256 ^ l.length = b.toNat := by
        rw [Nat.add_mul_div_left _ _ hpos, Nat.div_eq_of_lt (ofBigEndian_lt l), Nat.zero_add]
      rw [List.length_cons, bigEndian, ofBigEndian, hdiv, bigEndian_add_mul, ih, UInt8.ofNat_toNat]

/-! ### Reading and writing -/

/-- The `n` bytes at offset `off`. -/
def slice (f : Int → UInt8) (off : Int) (n : Nat) : List UInt8 :=
  (List.range n).map fun i : Nat => f (off + i)

/-- Store `bs` at offset `off`. -/
def patch (f : Int → UInt8) (off : Int) (bs : List UInt8) (i : Int) : UInt8 :=
  if off ≤ i ∧ i < off + bs.length then bs.getD (i - off).toNat 0 else f i

variable {f g : Int → UInt8} {off : Int} {bs : List UInt8}

@[simp] theorem length_slice (f : Int → UInt8) (off : Int) (n : Nat) :
    (slice f off n).length = n := by
  rw [slice, List.length_map, List.length_range]

@[simp] theorem getElem_slice (f : Int → UInt8) (off : Int) {n i : Nat}
    (h : i < (slice f off n).length) : (slice f off n)[i] = f (off + i) := by
  simp only [slice, List.getElem_map, List.getElem_range]

@[simp] theorem slice_one (f : Int → UInt8) (off : Int) : slice f off 1 = [f off] := by
  simp [slice]

theorem slice_two (f : Int → UInt8) (off : Int) : slice f off 2 = [f off, f (off + 1)] := by
  simp [slice, List.range_succ]

theorem slice_congr {n : Nat} {off' : Int}
    (h : ∀ i : Nat, i < n → f (off + i) = g (off' + i)) : slice f off n = slice g off' n := by
  apply List.map_congr_left
  intro i hi
  exact h i (List.mem_range.mp hi)

/-- A slice is two shorter ones, one after the other. -/
theorem slice_add (f : Int → UInt8) (off : Int) (m n : Nat) :
    slice f off (m + n) = slice f off m ++ slice f (off + m) n := by
  apply List.ext_getElem
  · simp
  · intro i hi hi'
    rw [List.getElem_append]
    split
    · simp
    · rename_i h
      rw [length_slice] at h
      simp only [getElem_slice, length_slice]
      congr 1
      omega

/-- A part of a slice. -/
theorem slice_part (f : Int → UInt8) (off : Int) {i m n : Nat} (h : i + m ≤ n) :
    slice f (off + i) m = ((slice f off n).drop i).take m := by
  apply List.ext_getElem
  · simp
    omega
  · intro j hj hj'
    simp only [getElem_slice, List.getElem_take, List.getElem_drop]
    congr 1
    omega

/-- A part of what was stored. -/
theorem slice_patch_part (f : Int → UInt8) (off : Int) {i n : Nat} (h : i + n ≤ bs.length) :
    slice (patch f off bs) (off + i) n = (bs.drop i).take n := by
  apply List.ext_getElem
  · simp
    omega
  · intro j hj hj'
    rw [length_slice] at hj
    have hin : off ≤ off + i + j ∧ off + i + j < off + bs.length := by omega
    have hidx : (off + i + j - off).toNat = i + j := by omega
    rw [getElem_slice, patch, if_pos hin, hidx, List.getElem_take, List.getElem_drop,
      List.getD_eq_getElem _ _ (by omega)]

@[simp] theorem slice_patch (f : Int → UInt8) (off : Int) (bs : List UInt8) :
    slice (patch f off bs) off bs.length = bs := by
  have h : slice (patch f off bs) (off + (0 : Nat)) bs.length = (bs.drop 0).take bs.length :=
    slice_patch_part f off (by omega)
  simpa using h

theorem slice_patch_of_length (f : Int → UInt8) (off : Int) {n : Nat} (h : bs.length = n) :
    slice (patch f off bs) off n = bs := by
  rw [← h, slice_patch]

/-- A slice beside what was stored sees the bytes that were there before. -/
theorem slice_patch_disjoint {off' : Int} {n : Nat}
    (h : off' + n ≤ off ∨ off + bs.length ≤ off') :
    slice (patch f off bs) off' n = slice f off' n := by
  apply slice_congr
  intro i hi
  rw [patch, if_neg (by omega)]

/-- A store into the middle of a slice. -/
theorem slice_patch_middle (f : Int → UInt8) (off : Int) {i n : Nat} (h : i + bs.length ≤ n) :
    slice (patch f (off + i) bs) off n =
      (slice f off n).take i ++ bs ++ (slice f off n).drop (i + bs.length) := by
  obtain ⟨r, rfl⟩ := Nat.exists_eq_add_of_le h
  have hsplit (g : Int → UInt8) : slice g off (i + bs.length + r) =
      slice g off i ++ slice g (off + i) bs.length ++ slice g (off + i + bs.length) r := by
    rw [slice_add, slice_add, Int.natCast_add, ← Int.add_assoc]
  have htake : (slice f off (i + bs.length + r)).take i = slice f off i := by
    rw [hsplit, List.append_assoc, List.take_left' (length_slice f off i)]
  have hdrop : (slice f off (i + bs.length + r)).drop (i + bs.length) =
      slice f (off + i + bs.length) r := by
    rw [hsplit, List.drop_left' (by simp)]
  rw [htake, hdrop, hsplit, slice_patch, slice_patch_disjoint (Or.inl (Int.le_refl _)),
    slice_patch_disjoint (Or.inr (Int.le_refl _))]

/-- One more field behind what was stored. -/
theorem patch_behind {off' : Int} {bs' : List UInt8} (h : off' = off + bs.length) :
    patch (patch f off bs) off' bs' = patch f off (bs ++ bs') := by
  subst h
  funext i
  simp only [patch, List.length_append, Int.natCast_add]
  by_cases hlow : off ≤ i ∧ i < off + bs.length
  · rw [if_neg (by omega), if_pos hlow, if_pos (by omega),
      List.getD_append _ _ _ _ (by omega)]
  by_cases hhigh : off + bs.length ≤ i ∧ i < off + bs.length + bs'.length
  · have hidx : (i - off).toNat - bs.length = (i - (off + bs.length)).toNat := by omega
    rw [if_pos hhigh, if_pos (by omega), List.getD_append_right _ _ _ _ (by omega), hidx]
  · rw [if_neg hhigh, if_neg hlow, if_neg (by omega)]

/-- One more field in front of what was stored. -/
theorem patch_front {off' : Int} {bs' : List UInt8} (h : off = off' + bs'.length) :
    patch (patch f off bs) off' bs' = patch f off' (bs' ++ bs) := by
  subst h
  funext i
  simp only [patch, List.length_append, Int.natCast_add]
  by_cases hlow : off' ≤ i ∧ i < off' + bs'.length
  · rw [if_pos hlow, if_pos (by omega), List.getD_append _ _ _ _ (by omega)]
  by_cases hhigh : off' + bs'.length ≤ i ∧ i < off' + bs'.length + bs.length
  · have hidx : (i - off').toNat - bs'.length = (i - (off' + bs'.length)).toNat := by omega
    rw [if_neg hlow, if_pos hhigh, if_pos (by omega),
      List.getD_append_right _ _ _ _ (by omega), hidx]
  · rw [if_neg hlow, if_neg hhigh, if_neg (by omega)]

end ByteBuffer
