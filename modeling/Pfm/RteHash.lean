import Mathlib.Data.Fintype.Card
import Mathlib.Logic.Function.Basic

/-!
# The hash-table library

The repository keeps its tables behind DPDK's `rte_hash`, whose code is not
part of it.  `RteHash` is what the repository relies on: a finite map from key
to a position and a data pointer, with the return codes of the calls.

* a present key is found at its non-negative position, an absent one gives
  `-ENOENT`, and a NULL table gives `-EINVAL`;
* distinct keys have distinct positions, all of them below the table's
  `entries`;
* adding a present key overwrites its data and keeps its position; adding a new
  key may be refused, which is a negative code and no change;
* deleting gives the position the key had.

How positions are chosen and which new keys are refused is left to the
implementation.  `Accepts` is the capacity promise, a hypothesis of the results
that need it.
-/

namespace Pfm

/-- `errno.h`. -/
def ENOENT : Int := 2

/-- `errno.h`. -/
def ENOMEM : Int := 12

/-- `errno.h`. -/
def EINVAL : Int := 22

/-- `errno.h`. -/
def ENOSPC : Int := 28

/-- An `rte_hash` with keys `κ`, data pointers `δ` and room for `entries` keys. -/
structure RteHash (κ δ : Type) [DecidableEq κ] (entries : Nat) where
  Table : Type
  /-- position and data pointer of a present key -/
  slot : Table → κ → Option (Fin entries × δ)
  /-- the keys present -/
  keys : Table → Finset κ
  /-- what `rte_hash_create` returns -/
  empty : Table
  /-- `rte_hash_lookup_data`: return code and `*data` -/
  lookupData : Table → κ → Int × Option δ
  /-- `rte_hash_add_key_data` -/
  addKeyData : Table → κ → δ → Int × Table
  /-- `rte_hash_del_key` -/
  delKey : Table → κ → Int × Table
  mem_keys : ∀ h k, k ∈ keys h ↔ (slot h k).isSome
  slot_empty : ∀ k, slot empty k = none
  slot_inj : ∀ h k k' p d d', slot h k = some (p, d) → slot h k' = some (p, d') → k = k'
  lookup_present : ∀ h k p d, slot h k = some (p, d) →
    lookupData h k = ((p.val : Int), some d)
  lookup_absent : ∀ h k, slot h k = none → lookupData h k = (-ENOENT, none)
  add_present : ∀ h k p d e, slot h k = some (p, e) →
    (addKeyData h k d).1 = 0 ∧
      slot (addKeyData h k d).2 = Function.update (slot h) k (some (p, d))
  add_absent : ∀ h k d, slot h k = none →
    ((addKeyData h k d).1 = 0 ∧
      ∃ p, slot (addKeyData h k d).2 = Function.update (slot h) k (some (p, d))) ∨
    ((addKeyData h k d).1 < 0 ∧ slot (addKeyData h k d).2 = slot h)
  del_present : ∀ h k p d, slot h k = some (p, d) →
    (delKey h k).1 = (p.val : Int) ∧
      slot (delKey h k).2 = Function.update (slot h) k none
  del_absent : ∀ h k, slot h k = none →
    (delKey h k).1 = -ENOENT ∧ slot (delKey h k).2 = slot h

namespace RteHash

variable {κ δ : Type} [DecidableEq κ] {entries : Nat} (H : RteHash κ δ entries)

/-- The capacity promise: a new key is accepted while fewer than `entries`
keys are present. -/
def Accepts : Prop :=
  ∀ h k d, (H.keys h).card < entries → (H.addKeyData h k d).1 = 0

/-- A full table refuses a new key with `-ENOSPC`. -/
def RefusesFull : Prop :=
  ∀ h k d, H.slot h k = none → entries ≤ (H.keys h).card → (H.addKeyData h k d).1 = -ENOSPC

/-- `rte_hash_lookup_data` on a table pointer that may be NULL. -/
def lookup : Option H.Table → κ → Int × Option δ
  | none, _ => (-EINVAL, none)
  | some h, k => H.lookupData h k

/-- The position and data of a key behind a table pointer. -/
def entry : Option H.Table → κ → Option (Fin entries × δ)
  | none, _ => none
  | some h, k => H.slot h k

/-- `rte_hash_add_key_data` on a table pointer that may be NULL. -/
def add : Option H.Table → κ → δ → Int × Option H.Table
  | none, _, _ => (-EINVAL, none)
  | some h, k, d => ((H.addKeyData h k d).1, some (H.addKeyData h k d).2)

/-- `rte_hash_add_key` on a table pointer that may be NULL: the position of the key
instead of zero.  `d` is the data of a key that was added without any. -/
def addKey (t : Option H.Table) (k : κ) (d : δ) : Int × Option H.Table :=
  let added := H.add t k d
  if added.1 < 0 then added else ((H.lookup added.2 k).1, added.2)

/-- `rte_hash_del_key` on a table pointer that may be NULL. -/
def del : Option H.Table → κ → Int × Option H.Table
  | none, _ => (-EINVAL, none)
  | some h, k => ((H.delKey h k).1, some (H.delKey h k).2)

@[simp] theorem entry_none (k : κ) : H.entry none k = none := rfl

@[simp] theorem entry_empty (k : κ) : H.entry (some H.empty) k = none := H.slot_empty k

@[simp] theorem lookup_none (k : κ) : H.lookup none k = (-EINVAL, none) := rfl

variable {H}

theorem lookup_of_entry {t : Option H.Table} {k : κ} {p : Fin entries} {d : δ}
    (h : H.entry t k = some (p, d)) : H.lookup t k = ((p.val : Int), some d) := by
  cases t with
  | none => cases h
  | some t => exact H.lookup_present t k p d h

theorem lookup_of_absent {t : H.Table} {k : κ} (h : H.entry (some t) k = none) :
    H.lookup (some t) k = (-ENOENT, none) :=
  H.lookup_absent t k h

/-- A lookup hits exactly on the keys present, with their data. -/
theorem lookup_nonneg_iff {t : Option H.Table} {k : κ} :
    0 ≤ (H.lookup t k).1 ↔ (H.entry t k).isSome := by
  cases t with
  | none => simp [lookup, EINVAL]
  | some t =>
      cases he : H.entry (some t) k with
      | none => simp [lookup_of_absent he, ENOENT]
      | some pd =>
          obtain ⟨p, d⟩ := pd
          simp [lookup_of_entry he]

theorem lookup_data_eq {t : Option H.Table} {k : κ} :
    (H.lookup t k).2 = (H.entry t k).map Prod.snd := by
  cases t with
  | none => rfl
  | some t =>
      cases he : H.entry (some t) k with
      | none => simp [lookup_of_absent he]
      | some pd =>
          obtain ⟨p, d⟩ := pd
          simp [lookup_of_entry he]

/-- The lookup code zero belongs to the key at position zero alone. -/
theorem lookup_eq_zero_iff {t : Option H.Table} {k : κ} :
    (H.lookup t k).1 = 0 ↔ ∃ p d, H.entry t k = some (p, d) ∧ p.val = 0 := by
  cases t with
  | none => simp [lookup, EINVAL]
  | some t =>
      cases he : H.entry (some t) k with
      | none => simp [lookup_of_absent he, ENOENT]
      | some pd =>
          obtain ⟨p, d⟩ := pd
          simp [lookup_of_entry he]

/-- What a caller gets that takes zero alone for a hit. -/
theorem lookup_zero_data_iff {t : Option H.Table} {k : κ} {d : δ} :
    (if (H.lookup t k).1 = 0 then (H.lookup t k).2 else none) = some d ↔
      ∃ p, H.entry t k = some (p, d) ∧ p.val = 0 := by
  rw [lookup_data_eq]
  constructor
  · intro h
    split at h
    · rename_i h0
      obtain ⟨p, e, he, hp⟩ := lookup_eq_zero_iff.mp h0
      obtain rfl : e = d := by simpa [he] using h
      exact ⟨p, he, hp⟩
    · cases h
  · intro hex
    obtain ⟨p, he, hp⟩ := hex
    rw [if_pos (lookup_eq_zero_iff.mpr ⟨p, d, he, hp⟩), he]
    rfl

theorem entry_inj {t : Option H.Table} {k k' : κ} {p : Fin entries} {d d' : δ}
    (h : H.entry t k = some (p, d)) (h' : H.entry t k' = some (p, d')) : k = k' := by
  cases t with
  | none => cases h
  | some t => exact H.slot_inj t k k' p d d' h h'

/-- Overwriting the data of a present key. -/
theorem add_of_entry {t : Option H.Table} {k : κ} {p : Fin entries} {d e : δ}
    (h : H.entry t k = some (p, e)) :
    (H.add t k d).1 = 0 ∧
      H.entry (H.add t k d).2 = Function.update (H.entry t) k (some (p, d)) := by
  cases t with
  | none => cases h
  | some t => exact H.add_present t k p d e h

/-- Adding a key that is absent: accepted at some position, or refused. -/
theorem add_of_absent {t : H.Table} {k : κ} (d : δ) (h : H.entry (some t) k = none) :
    ((H.add (some t) k d).1 = 0 ∧ ∃ p, H.entry (H.add (some t) k d).2 =
        Function.update (H.entry (some t)) k (some (p, d))) ∨
      ((H.add (some t) k d).1 < 0 ∧
        H.entry (H.add (some t) k d).2 = H.entry (some t)) :=
  H.add_absent t k d h

theorem del_of_entry {t : Option H.Table} {k : κ} {p : Fin entries} {d : δ}
    (h : H.entry t k = some (p, d)) :
    (H.del t k).1 = (p.val : Int) ∧
      H.entry (H.del t k).2 = Function.update (H.entry t) k none := by
  cases t with
  | none => cases h
  | some t => exact H.del_present t k p d h

/-- Deleting a key that is absent. -/
theorem entry_del_of_absent {t : Option H.Table} {k : κ} (h : H.entry t k = none) :
    H.entry (H.del t k).2 = H.entry t := by
  cases t with
  | none => rfl
  | some t => exact (H.del_absent t k h).2

/-- Adding to a table leaves a table. -/
theorem addKey_isSome (t : H.Table) (k : κ) (d : δ) : (H.addKey (some t) k d).2.isSome = true := by
  unfold addKey
  dsimp only
  split
  · rfl
  · rfl

/-- Adding a present key gives its position. -/
theorem addKey_of_entry {t : Option H.Table} {k : κ} {p : Fin entries} {d e : δ}
    (h : H.entry t k = some (p, e)) :
    (H.addKey t k d).1 = (p.val : Int) ∧
      H.entry (H.addKey t k d).2 = Function.update (H.entry t) k (some (p, d)) := by
  obtain ⟨hcode, hentry⟩ := add_of_entry (d := d) h
  have hk : H.entry (H.add t k d).2 k = some (p, d) := by rw [hentry, Function.update_self]
  have hadd : H.addKey t k d = ((H.lookup (H.add t k d).2 k).1, (H.add t k d).2) := by
    rw [addKey, if_neg (by omega)]
  rw [hadd, lookup_of_entry hk]
  exact ⟨rfl, hentry⟩

/-- Adding an absent key gives the position it was put at, or a negative code. -/
theorem addKey_of_absent {t : H.Table} {k : κ} (d : δ) (h : H.entry (some t) k = none) :
    (∃ p : Fin entries, (H.addKey (some t) k d).1 = (p.val : Int) ∧
      H.entry (H.addKey (some t) k d).2 =
        Function.update (H.entry (some t)) k (some (p, d))) ∨
    ((H.addKey (some t) k d).1 = (H.addKeyData t k d).1 ∧ (H.addKeyData t k d).1 < 0 ∧
      H.entry (H.addKey (some t) k d).2 = H.entry (some t)) := by
  rcases add_of_absent d h with ⟨hcode, p, hentry⟩ | ⟨hcode, hentry⟩
  · left
    have hk : H.entry (H.add (some t) k d).2 k = some (p, d) := by
      rw [hentry, Function.update_self]
    have hadd : H.addKey (some t) k d =
        ((H.lookup (H.add (some t) k d).2 k).1, (H.add (some t) k d).2) := by
      rw [addKey, if_neg (by omega)]
    rw [hadd, lookup_of_entry hk]
    exact ⟨p, rfl, hentry⟩
  · right
    have hadd : H.addKey (some t) k d = H.add (some t) k d := by
      rw [addKey, if_pos hcode]
    rw [hadd]
    exact ⟨rfl, hcode, hentry⟩

/-- No more keys than positions. -/
theorem keys_card_le (t : H.Table) : (H.keys t).card ≤ entries := by
  classical
  rcases (H.keys t).eq_empty_or_nonempty with hempty | ⟨k₀, hk₀⟩
  · rw [hempty, Finset.card_empty]
    exact Nat.zero_le _
  · have hslot : ∀ k, k ∈ H.keys t → ∃ p d, H.slot t k = some (p, d) := by
      intro k hk
      obtain ⟨⟨p, d⟩, h⟩ := Option.isSome_iff_exists.mp ((H.mem_keys t k).mp hk)
      exact ⟨p, d, h⟩
    obtain ⟨p₀, _, _⟩ := hslot k₀ hk₀
    let f : κ → Fin entries := fun k => ((H.slot t k).map Prod.fst).getD p₀
    calc (H.keys t).card ≤ (Finset.univ : Finset (Fin entries)).card := by
          refine Finset.card_le_card_of_injOn f
            (fun _ _ => Finset.mem_coe.mpr (Finset.mem_univ _)) ?_
          intro k hk k' hk' heq
          obtain ⟨p, d, h⟩ := hslot k hk
          obtain ⟨p', d', h'⟩ := hslot k' hk'
          have hp : p = p' := by simpa [f, h, h'] using heq
          subst hp
          exact H.slot_inj t k k' p d d' h h'
      _ = entries := Finset.card_fin entries

/-- There are as many keys as positions when every position is taken. -/
theorem full_iff (t : H.Table) :
    entries ≤ (H.keys t).card ↔ ∀ p, ∃ k d, H.slot t k = some (p, d) := by
  classical
  have hslot : ∀ k, k ∈ H.keys t → ∃ p d, H.slot t k = some (p, d) := by
    intro k hk
    obtain ⟨⟨p, d⟩, h⟩ := Option.isSome_iff_exists.mp ((H.mem_keys t k).mp hk)
    exact ⟨p, d, h⟩
  constructor
  · intro hfull p
    let f : κ → Fin entries := fun k => ((H.slot t k).map Prod.fst).getD p
    have hinj : Set.InjOn f (H.keys t) := by
      intro k hk k' hk' heq
      obtain ⟨q, d, h⟩ := hslot k hk
      obtain ⟨q', d', h'⟩ := hslot k' hk'
      have hq : q = q' := by simpa [f, h, h'] using heq
      subst hq
      exact H.slot_inj t k k' q d d' h h'
    have himage : (H.keys t).image f = Finset.univ := by
      apply Finset.eq_univ_of_card
      rw [Finset.card_image_of_injOn hinj, Fintype.card_fin]
      exact Nat.le_antisymm (H.keys_card_le t) hfull
    obtain ⟨k, hk, hf⟩ := Finset.mem_image.mp (himage ▸ Finset.mem_univ p)
    obtain ⟨q, d, h⟩ := hslot k hk
    obtain rfl : q = p := by simpa [f, h] using hf
    exact ⟨k, d, h⟩
  · intro hall
    choose g d hg using hall
    have hinj : Function.Injective g := by
      intro p q heq
      have hp := hg p
      rw [heq, hg q] at hp
      exact (Prod.mk.inj (Option.some.inj hp)).1.symm
    calc entries = (Finset.univ.image g).card := by
          rw [Finset.card_image_of_injective _ hinj, Finset.card_fin]
      _ ≤ (H.keys t).card := by
          apply Finset.card_le_card
          intro k hk
          obtain ⟨p, _, rfl⟩ := Finset.mem_image.mp hk
          exact (H.mem_keys t _).mpr (by rw [hg p]; rfl)

/-- Keys that map to distinct data, with a datum left over, are fewer than the
data. -/
theorem keys_card_lt [Fintype δ] {t : H.Table} {x : δ}
    (hinj : ∀ k k' p p' d, H.slot t k = some (p, d) → H.slot t k' = some (p', d) → k = k')
    (hx : ∀ k p, H.slot t k ≠ some (p, x)) : (H.keys t).card < Fintype.card δ := by
  classical
  have hslot : ∀ k, k ∈ H.keys t → ∃ p d, H.slot t k = some (p, d) := by
    intro k hk
    obtain ⟨⟨p, d⟩, h⟩ := Option.isSome_iff_exists.mp ((H.mem_keys t k).mp hk)
    exact ⟨p, d, h⟩
  let f : κ → δ := fun k => ((H.slot t k).map Prod.snd).getD x
  have hle : (H.keys t).card ≤ (Finset.univ.erase x).card := by
    refine Finset.card_le_card_of_injOn f ?_ ?_
    · intro k hk
      obtain ⟨p, d, h⟩ := hslot k hk
      have hfk : f k = d := by simp [f, h]
      rw [hfk]
      refine Finset.mem_coe.mpr (Finset.mem_erase.mpr ⟨?_, Finset.mem_univ d⟩)
      intro heq
      obtain rfl := heq
      exact hx k p h
    · intro k hk k' hk' heq
      obtain ⟨p, d, h⟩ := hslot k hk
      obtain ⟨p', d', h'⟩ := hslot k' hk'
      have hd : d = d' := by simpa [f, h, h'] using heq
      subst hd
      exact hinj k k' p p' d h h'
  have hlt : (Finset.univ.erase x).card < Fintype.card δ :=
    Finset.card_erase_lt_of_mem (Finset.mem_univ x)
  omega

end RteHash

end Pfm
