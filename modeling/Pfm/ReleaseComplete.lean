import Mathlib.Algebra.Ring.Parity
import Pfm.ModifySessions

/-!
# What a release leaves

A release removes the context of the UE and commits it.  The commit goes through
both lists, and committing the row of a removed tunnel takes its key out of the
hash when it is there and puts it back when it is not.  So a tunnel listed an even
number of times is committed again at the end.

* `Released`, `ReleasesAll` : what a release is to do;
* `ReleaseReady` : when it does it;
* `Toggled` : the hash while the removed tunnels are committed;
* `releases_all_of_ready` : along every run.
-/

namespace Pfm

open BoundedLoop StepSystem TunnelTable

variable {D : Dpdk} {S S' : Cuup D} {T T₀ T' : TunnelTable D} {ctx : UeCtx} {id : UInt32}
  {n : UeIdx} {r : TunnelIdx} {L : TunnelIdx → Prop} {done : List (Option TunnelIdx)}

/-! ### The statement -/

/-- The UE `id` in row `n` and its tunnels are gone, and every other UE and every
other tunnel is as it was. -/
structure Released (S : Cuup D) (id : UInt32) (n : UeIdx) (S' : Cuup D) : Prop where
  idGone : S'.ue.rowOf id = none
  rowFree : S'.ue.used n = false
  keysGone : ∀ x, (S.ue.ueCtxTable n).Lists x → S'.tun.rowOf (S.tun.keyAt x) = none
  rowsFree : ∀ x, (S.ue.ueCtxTable n).Lists x → S'.tun.used x = false
  otherUes : ∀ id', id' ≠ id → S'.ue.rowOf id' = S.ue.rowOf id' ∧
    ∀ n', S.ue.rowOf id' = some n' → S'.ue.ueCtxTable n' = S.ue.ueCtxTable n'
  otherTunnels : ∀ k, (∀ x, (S.ue.ueCtxTable n).Lists x → S.tun.keyAt x ≠ k) →
    S'.tun.rowOf k = S.tun.rowOf k ∧
      ∀ x, S.tun.rowOf k = some x → S'.tun.tunnelTable x = S.tun.tunnelTable x

/-- Hashes and flags are the same. -/
structure SameTables (S S' : Cuup D) : Prop where
  ids : S'.ue.entry = S.ue.entry
  keys : S'.tun.entry = S.tun.entry
  ueRows : S'.ue.used = S.ue.used
  tunnelRows : S'.tun.used = S.tun.used

/-- A release of a committed id succeeds and is complete; one that fails changes
nothing. -/
def ReleasesAll (S : Cuup D) : E1apCall D → Prop
  | .release req =>
      (∀ n, S.ue.rowOf req.cuupUeId = some n → ∃ S',
        e1apBearerCtxRelease S req = some (.success, S') ∧ Released S req.cuupUeId n S') ∧
      ∀ S', e1apBearerCtxRelease S req = some (.failed, S') → SameTables S S'
  | _ => True

/-- The entries of both lists, in the order in which they are committed. -/
def UeCtx.entries (ctx : UeCtx) : List (Option TunnelIdx) :=
  ctx.drbTunnelList.firstN ctx.drbCount ++ ctx.pdusTunnelList.firstN ctx.pdusCount

/-- The context of a committed id can be released: the id is at hash position 0 and
alone on its row, which stores it; every tunnel listed is alone on the row its key
maps to, and listed an odd number of times. -/
structure Releasable (S : Cuup D) (id : UInt32) (n : UeIdx) : Prop where
  zero : ∀ p n', S.ue.entry id = some (p, n') → p.val = 0
  stored : (S.ue.ueCtxTable n).cuupUeId = id
  alone : ∀ id', S.ue.rowOf id' = some n → id' = id
  full : (S.ue.ueCtxTable n).Full
  own : ∀ x, (S.ue.ueCtxTable n).Lists x → S.tun.rowOf (S.tun.keyAt x) = some x
  sole : ∀ x, (S.ue.ueCtxTable n).Lists x → ∀ k, S.tun.rowOf k = some x → S.tun.keyAt x = k
  odd : ∀ x, (S.ue.ueCtxTable n).Lists x → Odd ((S.ue.ueCtxTable n).entries.count (some x))

/-- A release request finds no context or a releasable one. -/
def ReleaseReady (S : Cuup D) : E1apCall D → Prop
  | .release req => ∀ n, S.ue.rowOf req.cuupUeId = some n → Releasable S req.cuupUeId n
  | _ => True

/-! ### Removing the tunnels -/

/-- From `T` to `T'` exactly the rows of `P` were marked free. -/
structure Freed (T : TunnelTable D) (P : TunnelIdx → Prop) (T' : TunnelTable D) : Prop where
  hash : T'.tunnelHashtable = T.tunnelHashtable
  freed : ∀ x, P x → T'.tunnelTable x = { T.tunnelTable x with isRowUsed := false }
  kept : ∀ x, ¬ P x → T'.tunnelTable x = T.tunnelTable x

theorem Freed.keyAt {P : TunnelIdx → Prop} (h : Freed T P T') (x : TunnelIdx) :
    T'.keyAt x = T.keyAt x := by
  by_cases hx : P x
  · rw [TunnelTable.keyAt, h.freed x hx]
    rfl
  · rw [TunnelTable.keyAt, h.kept x hx]
    rfl

theorem Freed.rowOf {P : TunnelIdx → Prop} (h : Freed T P T') : T'.rowOf = T.rowOf := by
  funext k
  rw [TunnelTable.rowOf, TunnelTable.entry, h.hash]
  rfl

/-- Removing the tunnel of a row that its key maps to. -/
theorem Freed.remove {P : TunnelIdx → Prop} (h : Freed T P T')
    (hown : T.rowOf (T.keyAt r) = some r) :
    Freed T (fun x => P x ∨ x = r) (tunnelRemove T' (T'.tunnelTable r).key).2 := by
  have hrow : T'.rowOf (T'.tunnelTable r).key = some r := by
    rw [h.rowOf]
    exact (congrArg T.rowOf (h.keyAt r)).trans hown
  rcases tunnelRemove_cases T' (T'.tunnelTable r).key with ⟨r', hr', he⟩ | ⟨hnone, _⟩
  · obtain rfl := Option.some.inj (hr'.symm.trans hrow)
    rw [he]
    refine ⟨h.hash, fun x hx => ?_, fun x hx => ?_⟩
    · by_cases hxr : x = r'
      · subst hxr
        rw [TunnelTable.setUsed, setRow_self]
        by_cases hP : P x
        · rw [h.freed x hP]
        · rw [h.kept x hP]
      · rw [TunnelTable.setUsed, setRow_of_ne _ hxr]
        exact h.freed x (hx.resolve_right hxr)
    · obtain ⟨hP, hxr⟩ := not_or.mp hx
      rw [TunnelTable.setUsed, setRow_of_ne _ hxr]
      exact h.kept x hP
  · simp [hrow] at hnone

theorem Freed.congr {P Q : TunnelIdx → Prop} (h : Freed T P T') (hPQ : ∀ x, P x ↔ Q x) :
    Freed T Q T' :=
  ⟨h.hash, fun x hx => h.freed x ((hPQ x).mpr hx), fun x hx => h.kept x fun hP =>
    hx ((hPQ x).mp hP)⟩

/-- Removing the tunnels of a list, each on the row its key maps to. -/
theorem Freed.removeTunnels {P : TunnelIdx → Prop} (h : Freed T P T') {m : Nat}
    {list : CArray m (Option TunnelIdx)} {count : Nat}
    (hlist : ∀ i, i < count → ∃ x, list.deref? i = some x ∧ T.rowOf (T.keyAt x) = some x) :
    ∃ T'', removeTunnels list count T' = some T'' ∧
      Freed T (fun x => P x ∨ ∃ i, i < count ∧ list.deref? i = some x) T'' := by
  refine forRange_isSome (fun i T'' =>
    Freed T (fun x => P x ∨ ∃ j, j < i ∧ list.deref? j = some x) T'') ?_ ?_
  · refine h.congr fun x => ⟨Or.inl, fun hx => hx.resolve_right ?_⟩
    intro hex
    obtain ⟨j, hj, _⟩ := hex
    omega
  · intro i T₁ hi hT₁
    obtain ⟨x, hx, hown⟩ := hlist i hi
    refine ⟨_, by rw [hx]; rfl, (hT₁.remove hown).congr fun y => ?_⟩
    constructor
    · intro hy
      rcases hy with (hP | ⟨j, hj, hjy⟩) | rfl
      · exact Or.inl hP
      · exact Or.inr ⟨j, by omega, hjy⟩
      · exact Or.inr ⟨i, Nat.lt_succ_self i, hx⟩
    · intro hy
      rcases hy with hP | ⟨j, hj, hjy⟩
      · exact Or.inl (Or.inl hP)
      · rcases Nat.lt_succ_iff_lt_or_eq.mp hj with hlt | rfl
        · exact Or.inl (Or.inr ⟨j, hlt, hjy⟩)
        · exact Or.inr (Option.some.inj (hjy.symm.trans hx))

/-! ### Committing the removed tunnels -/

/-- The rows of `L` are free and alone on the rows their keys map to. -/
structure Removed (T : TunnelTable D) (L : TunnelIdx → Prop) : Prop where
  free : ∀ x, L x → T.used x = false
  own : ∀ x, L x → T.rowOf (T.keyAt x) = some x

/-- From `T₀`, after the entries `done` were committed: every key of a row of `L`
was taken out and put back in turn, and nothing else changed. -/
structure Toggled (T₀ : TunnelTable D) (L : TunnelIdx → Prop)
    (done : List (Option TunnelIdx)) (T : TunnelTable D) : Prop where
  up : T.tunnelHashtable.isSome = T₀.tunnelHashtable.isSome
  rows : T.tunnelTable = T₀.tunnelTable
  listed : ∀ x, L x → T.rowOf (T₀.keyAt x) = if Even (done.count (some x)) then some x else none
  others : ∀ k, (∀ x, L x → T₀.keyAt x ≠ k) → T.rowOf k = T₀.rowOf k

theorem Toggled.start (h : Removed T₀ L) : Toggled T₀ L [] T₀ where
  up := rfl
  rows := rfl
  listed x hx := by simp [h.own x hx]
  others _ _ := rfl

/-- No key is added, so a key taken out leaves room. -/
theorem Toggled.room (h : Toggled T₀ L done T) (hrem : Removed T₀ L) (hr : L r)
    (habs : T.rowOf (T₀.keyAt r) = none) : T.keyCount < maxTunnelCount := by
  have hsub : ∀ k, T.rowOf k ≠ none → T₀.rowOf k ≠ none := by
    intro k hk
    by_cases hex : ∃ x, L x ∧ T₀.keyAt x = k
    · obtain ⟨x, hx, rfl⟩ := hex
      rw [hrem.own x hx]
      simp
    · rwa [h.others k fun x hx heq => hex ⟨x, hx, heq⟩] at hk
  cases hh : T.tunnelHashtable with
  | none =>
      simp only [keyCount, hh]
      decide
  | some t =>
      cases hh₀ : T₀.tunnelHashtable with
      | none =>
          have hown := hrem.own r hr
          rw [rowOf_of_down hh₀] at hown
          cases hown
      | some t₀ =>
          have hmem : ∀ k, k ∈ D.tunnelHash.keys t ↔ T.rowOf k ≠ none := by
            intro k
            rw [D.tunnelHash.mem_keys, ne_eq, rowOf_eq_none_iff, TunnelTable.entry, hh,
              ← ne_eq, Option.ne_none_iff_isSome]
            rfl
          have hmem₀ : ∀ k, k ∈ D.tunnelHash.keys t₀ ↔ T₀.rowOf k ≠ none := by
            intro k
            rw [D.tunnelHash.mem_keys, ne_eq, rowOf_eq_none_iff, TunnelTable.entry, hh₀,
              ← ne_eq, Option.ne_none_iff_isSome]
            rfl
          have hlt : (D.tunnelHash.keys t).card < (D.tunnelHash.keys t₀).card := by
            refine Finset.card_lt_card ⟨fun k hk => ?_, fun hback => ?_⟩
            · exact (hmem₀ k).mpr (hsub k ((hmem k).mp hk))
            · have hback' := hback ((hmem₀ (T₀.keyAt r)).mpr (by rw [hrem.own r hr]; simp))
              exact (hmem _).mp hback' habs
          have hle := RteHash.keys_card_le (H := D.tunnelHash) t₀
          simp only [keyCount, hh]
          omega

/-- A row of `L` is in the table it started in. -/
theorem Removed.up (h : Removed T₀ L) (hr : L r) : T₀.tunnelHashtable.isSome = true := by
  obtain ⟨p, hp⟩ := rowOf_eq_some_iff.mp (h.own r hr)
  exact up_of_entry hp

/-- When the key of `r` changes from one state to the other, so does the parity of
the commits of `r`. -/
theorem Toggled.update (h : Toggled T₀ L done T) (hrem : Removed T₀ L) (hr : L r)
    {T' : TunnelTable D} {e : Option (Fin maxTunnelCount × TunnelIdx)}
    (hup : T'.tunnelHashtable.isSome = true) (hrows : T'.tunnelTable = T.tunnelTable)
    (hentry : T'.entry = Function.update T.entry (T₀.keyAt r) e)
    (he : e.map Prod.snd = if Even (done.count (some r)) then none else some r) :
    Toggled T₀ L (done ++ [some r]) T' := by
  have hrowOf : ∀ k, T'.rowOf k = if k = T₀.keyAt r then e.map Prod.snd else T.rowOf k := by
    intro k
    rw [TunnelTable.rowOf, hentry]
    by_cases hk : k = T₀.keyAt r
    · subst hk
      rw [Function.update_self, if_pos rfl]
    · rw [Function.update_of_ne hk, if_neg hk]
      rfl
  refine ⟨hup.trans (hrem.up hr).symm, hrows.trans h.rows, fun x hx => ?_, fun k hk => ?_⟩
  · rw [hrowOf, List.count_append, List.count_singleton]
    by_cases hxr : x = r
    · subst hxr
      rw [if_pos rfl, he]
      simp only [beq_self_eq_true, if_true, Nat.even_add_one]
      by_cases heven : Even (done.count (some x)) <;> simp [heven]
    · have hne : T₀.keyAt x ≠ T₀.keyAt r := by
        intro heq
        have hxrow := hrem.own x hx
        rw [heq, hrem.own r hr] at hxrow
        exact hxr (Option.some.inj hxrow).symm
      have hbeq : (some r == some x) = false := by
        simp only [beq_eq_false_iff_ne, ne_eq, Option.some.injEq]
        exact fun heq => hxr heq.symm
      rw [if_neg hne, hbeq, h.listed x hx]
      simp
  · rw [hrowOf, if_neg (fun heq => hk r hr heq.symm)]
    exact h.others k hk

/-- **One commit.**  The key of the row is taken out or put back. -/
theorem Toggled.commit (h : Toggled T₀ L done T) (hrem : Removed T₀ L)
    (hacc : D.tunnelHash.Accepts) (hr : L r) :
    Toggled T₀ L (done ++ [some r]) (tunnelCommit T (some r)).2 := by
  have hkey : (T.tunnelTable r).key = T₀.keyAt r := by
    rw [h.rows]
    rfl
  have hun : T.used r = false := by
    have hfree := hrem.free r hr
    rwa [TunnelTable.used, h.rows]
  have hlisted := h.listed r hr
  have hc := tunnelCommit_cases T r
  rw [hkey] at hc
  generalize tunnelCommit T (some r) = res at hc ⊢
  obtain ⟨ret, T'⟩ := res
  simp only at hc ⊢
  cases hc with
  | down hash =>
      have hup := h.up
      rw [hrem.up hr, hash] at hup
      cases hup
  | inserted t p absent hash =>
      refine h.update hrem hr rfl rfl hash ?_
      have hnone := rowOf_eq_none_iff.mpr absent
      rw [hnone] at hlisted
      split at hlisted
      · cases hlisted
      · rename_i heven
        rw [if_neg heven]
        rfl
  | refused t absent hash full =>
      have hlt := h.room hrem hr (rowOf_eq_none_iff.mpr absent)
      exact absurd (full hacc) (Nat.not_le.mpr hlt)
  | kept mapped used => simp [hun] at used
  | deleted t p mapped unused hash =>
      refine h.update hrem hr rfl rfl hash ?_
      have hmapped := rowOf_eq_some_iff.mpr ⟨p, mapped⟩
      rw [hmapped] at hlisted
      split at hlisted
      · rename_i heven
        rw [if_pos heven]
        rfl
      · cases hlisted
  | replaced t p old mapped ne hash =>
      have hmapped := rowOf_eq_some_iff.mpr ⟨p, mapped⟩
      rw [hmapped] at hlisted
      split at hlisted
      · exact absurd (Option.some.inj hlisted).symm ne
      · cases hlisted

/-- The loop that commits the tunnels of a list. -/
theorem Toggled.commitTunnels (h : Toggled T₀ L done T) (hrem : Removed T₀ L)
    (hacc : D.tunnelHash.Accepts) {m : Nat} {list : CArray m (Option TunnelIdx)} {count : Nat}
    (hlist : ∀ i, i < count → ∃ x, list.deref? i = some x ∧ L x) :
    ∃ T' list', commitTunnels count (T, list) = some (T', list') ∧
      Toggled T₀ L (done ++ list.firstN count) T' := by
  obtain ⟨⟨T', list'⟩, hrun, htoggled, _⟩ : ∃ s, Pfm.commitTunnels count (T, list) = some s ∧
      Toggled T₀ L (done ++ list.firstN count) s.1 ∧
        ∀ j, count ≤ j → s.2.get? j = list.get? j := by
    refine forRange_isSome (fun i (s : TunnelTable D × CArray m (Option TunnelIdx)) =>
      Toggled T₀ L (done ++ list.firstN i) s.1 ∧ ∀ j, i ≤ j → s.2.get? j = list.get? j)
      ⟨by rw [CArray.firstN_zero, List.append_nil]; exact h, fun _ _ => rfl⟩ ?_
    intro i s hi hs
    obtain ⟨T₁, l⟩ := s
    obtain ⟨htoggled, hrest⟩ := hs
    simp only at htoggled hrest
    obtain ⟨x, hx, hL⟩ := hlist i hi
    have hget : list.get? i = some (some x) := CArray.deref?_eq_some_iff.mp hx
    have hderef : l.deref? i = some x := by
      rw [CArray.deref?, hrest i (Nat.le_refl i), hget]
      rfl
    have hnext := htoggled.commit hrem hacc hL
    have hun : (tunnelCommit T₁ (some x)).2.used x = false := by
      have hfree := hrem.free x hL
      rwa [TunnelTable.used, hnext.rows]
    obtain ⟨l', hset⟩ : ∃ l', l.set? i none = some l' :=
      ⟨_, CArray.set?_of_lt l (CArray.lt_of_get? hget) none⟩
    refine ⟨((tunnelCommit T₁ (some x)).2, l'), by simp [hderef, hun, hset], ?_, ?_⟩
    · rw [CArray.firstN_succ hget, ← List.append_assoc]
      exact hnext
    · intro j hj
      rw [CArray.get?_set? hset, if_neg (by omega)]
      exact hrest j (by omega)
  exact ⟨T', list', hrun, htoggled⟩

/-- A packing loop stays inside a list that has room for all its turns. -/
theorem packTunnels_isSome {m k count : Nat}
    (source : CArray k (Option TunnelIdx) → CArray m (Option TunnelIdx))
    (list : CArray k (Option TunnelIdx)) (hk : count ≤ k) (hm : count ≤ m) :
    ∃ list' j, packTunnels source count list = some (list', j) := by
  obtain ⟨⟨list', j⟩, hrun, _⟩ : ∃ s, packTunnels source count list = some s ∧ s.2 ≤ count := by
    refine forRange_isSome (fun i (s : CArray k (Option TunnelIdx) × Nat) => s.2 ≤ i)
      (Nat.le_refl 0) ?_
    intro i s hi hs
    have hget := CArray.get?_of_lt (source s.1) (Nat.lt_of_lt_of_le hi hm)
    cases hv : source s.1 ⟨i, Nat.lt_of_lt_of_le hi hm⟩ with
    | none =>
        rw [hv] at hget
        exact ⟨s, by simp [hget], Nat.le_succ_of_le hs⟩
    | some nt =>
        rw [hv] at hget
        obtain ⟨l', hset⟩ : ∃ l', s.1.set? s.2 (some nt) = some l' :=
          ⟨_, CArray.set?_of_lt s.1 (by omega) (some nt)⟩
        exact ⟨(l', s.2 + 1), by simp [hget, hset], by omega⟩
  exact ⟨list', j, hrun⟩

/-- A list without NULL below its count is not shorter than the count. -/
theorem count_le_of_full {m : Nat} {list : CArray m (Option TunnelIdx)} {count : Nat}
    (h : ∀ i, i < count → ∃ x, list.deref? i = some x) : count ≤ m := by
  by_contra hlt
  obtain ⟨x, hx⟩ := h m (Nat.lt_of_not_le hlt)
  exact absurd (CArray.lt_of_get? (CArray.deref?_eq_some_iff.mp hx)) (Nat.lt_irrefl m)

/-! ### The release -/

/-- The removal marks exactly the rows listed free. -/
theorem Releasable.remove (h : Releasable S id n) (hn : S.ue.rowOf id = some n) :
    ∃ T', ueCtxRemove S id = some (.success, ⟨T', S.ue.setUsed n false⟩) ∧
      Freed S.tun (S.ue.ueCtxTable n).Lists T' := by
  obtain ⟨p, hl⟩ := UeCtxTable.lookup_of_rowOf hn
  have hup := UeCtxTable.not_isNone_of_up (UeCtxTable.up_of_rowOf hn)
  have hpdus : ∀ i, i < (S.ue.ueCtxTable n).pdusCount →
      ∃ x, (S.ue.ueCtxTable n).pdusTunnelList.deref? i = some x ∧
        S.tun.rowOf (S.tun.keyAt x) = some x := by
    intro i hi
    obtain ⟨x, hx⟩ := h.full.pdus i hi
    exact ⟨x, hx, h.own x (Or.inl ⟨i, hi, hx⟩)⟩
  have hdrb : ∀ i, i < (S.ue.ueCtxTable n).drbCount →
      ∃ x, (S.ue.ueCtxTable n).drbTunnelList.deref? i = some x ∧
        S.tun.rowOf (S.tun.keyAt x) = some x := by
    intro i hi
    obtain ⟨x, hx⟩ := h.full.drb i hi
    exact ⟨x, hx, h.own x (Or.inr ⟨i, hi, hx⟩)⟩
  have hnone : Freed S.tun (fun _ => False) S.tun :=
    ⟨rfl, fun _ hx => hx.elim, fun _ _ => rfl⟩
  obtain ⟨T₁, hrun₁, hfreed₁⟩ := hnone.removeTunnels hpdus
  obtain ⟨T₂, hrun₂, hfreed₂⟩ := hfreed₁.removeTunnels hdrb
  refine ⟨T₂, ?_, hfreed₂.congr fun x => ?_⟩
  · unfold ueCtxRemove
    rw [if_neg hup]
    simp only [hl]
    rw [if_neg (by omega)]
    simp only [hrun₁, hrun₂, Option.bind_eq_bind, Option.bind_some]
  · simp only [false_or, UeCtx.Lists]

/-- The end of the commit deletes the id. -/
theorem ueCtxCommitEntry_release {U : UeCtxTable D} {p : Fin maxUeCount}
    (hp : U.entry id = some (p, n)) (hzero : p.val = 0) (hstored : (U.ueCtxTable n).cuupUeId = id)
    (hun : U.used n = false) :
    ∃ t, ueCtxCommitEntry U n = (.success, { U with ueCtxHashtable := some t }) ∧
      D.ueHash.entry (some t) = Function.update U.entry id none := by
  have hcases := ueCtxCommitEntry_cases U n
  rw [hstored] at hcases
  generalize ueCtxCommitEntry U n = res at hcases ⊢
  obtain ⟨ret, U'⟩ := res
  simp only at hcases
  cases hcases with
  | down hash => simp [UeCtxTable.entry_of_down hash] at hp
  | inserted t q absent => simp [absent] at hp
  | refused t absent => simp [absent] at hp
  | kept mapped used => simp [hun] at used
  | deleted t q mapped unused hash =>
      obtain rfl : p = q := by
        rw [hp] at mapped
        exact congrArg Prod.fst (Option.some.inj mapped)
      exact ⟨t, by rw [if_pos hzero], hash⟩
  | replaced t q old mapped ne =>
      rw [hp] at mapped
      exact absurd (congrArg Prod.snd (Option.some.inj mapped)).symm ne

/-- Committing the removed context takes the id and the key of every tunnel listed
out of the hashes. -/
theorem Releasable.commit (h : Releasable S id n) (hn : S.ue.rowOf id = some n)
    (hacc : D.tunnelHash.Accepts) (hfreed : Freed S.tun (S.ue.ueCtxTable n).Lists T') :
    ∃ S', ueCtxCommit ⟨T', S.ue.setUsed n false⟩ (some n) = some (.success, S') ∧
      Toggled T' (S.ue.ueCtxTable n).Lists (S.ue.ueCtxTable n).entries S'.tun ∧
      S'.ue.entry = Function.update S.ue.entry id none ∧ S'.ue.used n = false ∧
      ∀ n', n' ≠ n → S'.ue.ueCtxTable n' = S.ue.ueCtxTable n' := by
  obtain ⟨p, hp⟩ := UeCtxTable.rowOf_eq_some_iff.mp hn
  have hrem : Removed T' (S.ue.ueCtxTable n).Lists := by
    refine ⟨fun x hx => ?_, fun x hx => ?_⟩
    · rw [TunnelTable.used, hfreed.freed x hx]
    · rw [hfreed.rowOf, hfreed.keyAt]
      exact h.own x hx
  have hctx : (S.ue.setUsed n false).ueCtxTable n =
      { S.ue.ueCtxTable n with isRowUsed := false } := UeCtxTable.setUsed_self false
  have hpdusFits := count_le_of_full h.full.pdus
  have hdrbFits := count_le_of_full h.full.drb
  obtain ⟨T₁, l₁, hdrb, htoggled₁⟩ := (Toggled.start hrem).commitTunnels hrem hacc
    (fun i hi => (h.full.drb i hi).imp fun x hx => ⟨hx, Or.inr ⟨i, hi, hx⟩⟩)
  obtain ⟨drbList, drbCount, hpackDrb⟩ :=
    packTunnels_isSome (fun l => l) l₁ hdrbFits hdrbFits
  obtain ⟨T₂, l₂, hpdus, htoggled₂⟩ := htoggled₁.commitTunnels hrem hacc
    (fun i hi => (h.full.pdus i hi).imp fun x hx => ⟨hx, Or.inl ⟨i, hi, hx⟩⟩)
  obtain ⟨pdusList, j, hpackPdus⟩ := packTunnels_isSome (fun _ => drbList) l₂
    hpdusFits (Nat.le_trans hpdusFits (by decide))
  let S₁ : Cuup D := ⟨T', S.ue.setUsed n false⟩
  let U := S₁.ue.setRow n ((S₁.ue.ueCtxTable n).packed drbList drbCount pdusList)
  have hrow : U.ueCtxTable n =
      { S.ue.ueCtxTable n with isRowUsed := false }.packed drbList drbCount pdusList := by
    rw [← hctx]
    exact UeCtxTable.setRow_self _
  obtain ⟨t, hentry, hdeleted⟩ := ueCtxCommitEntry_release (U := U) hp (h.zero p n hp)
    (by rw [hrow]; exact h.stored) (by rw [UeCtxTable.used, hrow]; rfl)
  have hcommitted : UeCommitted S₁ n .success ⟨T₂, { U with ueCtxHashtable := some t }⟩ :=
    { tun₁ := T₁
      drbList₁ := l₁
      drbList := drbList
      drbCount := drbCount
      pdusList₁ := l₂
      pdusList := pdusList
      packedCount := j
      commitDrb := by rw [hctx]; exact hdrb
      packDrb := by rw [hctx]; exact hpackDrb
      commitPdus := by rw [hctx]; exact hpdus
      packPdus := by rw [hctx]; exact hpackPdus
      entry := hentry }
  refine ⟨_, hcommitted.run (UeCtxTable.up_of_rowOf hn), ?_, hdeleted, ?_, fun n' hn' => ?_⟩
  · rw [List.nil_append] at htoggled₂
    exact htoggled₂
  · rw [UeCtxTable.used, hrow]
    rfl
  · change U.ueCtxTable n' = S.ue.ueCtxTable n'
    rw [UeCtxTable.setRow_of_ne _ hn']
    exact UeCtxTable.setUsed_of_ne false hn'

/-- **A release of a committed id.** -/
theorem Releasable.release {req : E1apBearerCtxReleaseCmd}
    (h : Releasable S req.cuupUeId n) (hn : S.ue.rowOf req.cuupUeId = some n)
    (hacc : D.tunnelHash.Accepts) :
    ∃ S', e1apBearerCtxRelease S req = some (.success, S') ∧
      Released S req.cuupUeId n S' := by
  obtain ⟨T', hremove, hfreed⟩ := h.remove hn
  obtain ⟨S', hcommit, htoggled, hentry, hrowFree, hrows⟩ := h.commit hn hacc hfreed
  obtain ⟨p, hp⟩ := UeCtxTable.rowOf_eq_some_iff.mp hn
  have hget : ueCtxGet (S.ue.setUsed n false) req.cuupUeId = some n :=
    ueCtxGet_eq_some_iff.mpr ⟨p, hp, h.zero p n hp⟩
  have hrowOf : ∀ id', S'.ue.rowOf id' = if id' = req.cuupUeId then none else S.ue.rowOf id' := by
    intro id'
    rw [UeCtxTable.rowOf, hentry]
    by_cases hid : id' = req.cuupUeId
    · rw [hid, Function.update_self, if_pos rfl]
      rfl
    · rw [Function.update_of_ne hid, if_neg hid]
      rfl
  have htun : ∀ x, S'.tun.tunnelTable x = T'.tunnelTable x := fun x => by rw [htoggled.rows]
  refine ⟨S', ?_, ⟨?_, hrowFree, fun x hx => ?_, fun x hx => ?_, fun id' hid => ⟨?_, ?_⟩,
    fun k hk => ⟨?_, fun x hx => ?_⟩⟩⟩
  · simp [e1apBearerCtxRelease, hremove, hget, hcommit]
  · rw [hrowOf, if_pos rfl]
  · have hlisted := htoggled.listed x hx
    rw [hfreed.keyAt, if_neg (Nat.not_even_iff_odd.mpr (h.odd x hx))] at hlisted
    exact hlisted
  · rw [TunnelTable.used, htun, hfreed.freed x hx]
  · rw [hrowOf, if_neg hid]
  · intro n' hn'
    refine hrows n' fun heq => hid ?_
    rw [heq] at hn'
    exact h.alone id' hn'
  · have hother := htoggled.others k fun x hx => by
      rw [hfreed.keyAt]
      exact hk x hx
    rw [hother, hfreed.rowOf]
  · rw [htun]
    refine hfreed.kept x fun hlisted => ?_
    exact hk x hlisted (h.sole x hlisted k hx)

theorem SameTables.refl (S : Cuup D) : SameTables S S := ⟨rfl, rfl, rfl, rfl⟩

/-- **One request.** -/
theorem releasesAll_of_ready (hacc : D.tunnelHash.Accepts) (S : Cuup D) (call : E1apCall D)
    (h : ReleaseReady S call) : ReleasesAll S call := by
  cases call with
  | setup | modify => trivial
  | release req =>
      refine ⟨fun n hn => (h n hn).release hn hacc, fun S' hfail => ?_⟩
      cases hrow : S.ue.rowOf req.cuupUeId with
      | none =>
          obtain ⟨ret, hret, hremove⟩ := ueCtxRemove_of_absent hrow
          simp only [e1apBearerCtxRelease, hremove, Option.bind_eq_bind, Option.bind_some, hret,
            ne_eq, not_false_eq_true, if_true, Option.some.injEq, Prod.mk.injEq, true_and] at hfail
          rw [← hfail]
          exact SameTables.refl S
      | some n =>
          obtain ⟨S₁, hrun, _⟩ := (h n hrow).release hrow hacc
          rw [hrun] at hfail
          cases hfail

/-- **Every run.**  In a run each of whose releases finds no context or a releasable
one, each of them is complete. -/
theorem releases_all_of_ready (D : Dpdk) (hacc : D.tunnelHash.Accepts)
    (calls : List (E1apCall D)) (h : Along e1apStep ReleaseReady (Cuup.init D) calls) :
    Along e1apStep ReleasesAll (Cuup.init D) calls :=
  h.imp (releasesAll_of_ready hacc)

/-- Two sessions with a DRB each. -/
def twoSessionsReq : E1apBearerCtxSetupReq where
  cucpUeId := 0
  pdusCount := 2
  pdusList i := ⟨5 + UInt8.ofNat i.val, 1, upfIp, 80, fun _ =>
    ⟨1 + UInt8.ofNat i.val, upfIp, 70⟩⟩

/-- The session list holds the tunnels of the DRBs, so the id of the first DRB removes it. -/
def removeFirstReq : E1apBearerCtxModifyReq :=
  { addSessionReq with
    pdusSetupCount := 0
    pdusRemoveCount := 1
    pdusRemoveList := fun _ => ⟨1⟩ }

/-- UE 1 is set up with two sessions and loses a tunnel. -/
def oneTunnelLeft : List (E1apCall listDpdk) :=
  [.setup upfEnv twoSessionsReq setupRsp, .setup upfEnv twoSessionsReq setupRsp,
    .modify upfEnv removeFirstReq modifyRsp]

/-- A tunnel listed is among the entries. -/
theorem UeCtx.Lists.mem_entries {x : TunnelIdx} (h : ctx.Lists x) : some x ∈ ctx.entries := by
  have hmem {m count i : Nat} {list : CArray m (Option TunnelIdx)} (hi : i < count)
      (hx : list.deref? i = some x) : some x ∈ list.firstN count := by
    have hget := CArray.deref?_eq_some_iff.mp hx
    refine List.mem_of_getElem? (i := i) ?_
    rw [CArray.firstN, List.getElem?_take_of_lt hi, List.getElem?_ofFn]
    exact hget
  rcases h with ⟨i, hi, hx⟩ | ⟨i, hi, hx⟩
  · exact List.mem_append_right _ (hmem hi hx)
  · exact List.mem_append_left _ (hmem hi hx)

/-- Then row 4, alone under its key, is listed three times and nothing else is. -/
theorem oneTunnelLeft_releasable {S : Cuup listDpdk} {n : UeIdx}
    (h : exec e1apStep (Cuup.init listDpdk) oneTunnelLeft = some S) (hn : S.ue.rowOf 1 = some n) :
    Releasable S 1 n ∧ (S.ue.ueCtxTable n).Lists 4 := by
  have hdec : ((exec e1apStep (Cuup.init listDpdk) oneTunnelLeft).bind fun S =>
      S.ue.ueCtxHashtable.bind fun (t : { l : ListHash.Entries UInt32 UeIdx maxUeCount //
          ListHash.Distinct l }) =>
        S.tun.tunnelHashtable.bind fun (k : { l : ListHash.Entries TunnelKey TunnelIdx
            maxTunnelCount // ListHash.Distinct l }) =>
          (S.ue.entry 1).map fun e => decide (t.1.map Prod.fst = [1] ∧ e.1.val = 0 ∧
            (S.ue.ueCtxTable e.2).cuupUeId = 1 ∧
            (S.ue.ueCtxTable e.2).entries = [some 4, some 4, some 4] ∧
            (0 < (S.ue.ueCtxTable e.2).drbCount ∧
              (S.ue.ueCtxTable e.2).drbTunnelList.deref? 0 = some 4) ∧
            (∀ i, i < (S.ue.ueCtxTable e.2).pdusCount →
              ((S.ue.ueCtxTable e.2).pdusTunnelList.deref? i).isSome = true) ∧
            (∀ i, i < (S.ue.ueCtxTable e.2).drbCount →
              ((S.ue.ueCtxTable e.2).drbTunnelList.deref? i).isSome = true) ∧
            S.tun.rowOf (S.tun.keyAt 4) = some 4 ∧
            ∀ x ∈ k.1, x.2.2 = 4 → S.tun.keyAt 4 = x.1)) = some true := by
    decide
  rw [h, Option.bind_some] at hdec
  obtain ⟨t, ht, hdec⟩ := Option.bind_eq_some_iff.mp hdec
  obtain ⟨k, hk, hdec⟩ := Option.bind_eq_some_iff.mp hdec
  obtain ⟨⟨p, m⟩, hp, hfacts⟩ := Option.map_eq_some_iff.mp hdec
  obtain ⟨hkeys, hzero, hstored, hentries, hlisted, hpdus, hdrb, hown, hsole⟩ :=
    of_decide_eq_true hfacts
  obtain rfl : n = m := by
    rw [UeCtxTable.rowOf, hp] at hn
    exact (Option.some.inj hn).symm
  have hfour : ∀ x, (S.ue.ueCtxTable n).Lists x → x = 4 := by
    intro x hx
    have hmem := hx.mem_entries
    rw [hentries] at hmem
    simpa using hmem
  refine ⟨⟨fun q m hq => ?_, hstored, fun id' hid => ?_, ⟨fun i hi => ?_, fun i hi => ?_⟩,
    fun x hx => ?_, fun x hx key hrow => ?_, fun x hx => ?_⟩, Or.inr ⟨0, hlisted.1, hlisted.2⟩⟩
  · obtain rfl : p = q := by
      rw [hp] at hq
      exact congrArg Prod.fst (Option.some.inj hq)
    exact hzero
  · have hfound : (ListHash.find t.1 id').isSome = true := by
      obtain ⟨q, hq⟩ := UeCtxTable.rowOf_eq_some_iff.mp hid
      rw [UeCtxTable.entry, ht] at hq
      exact Option.isSome_of_eq_some hq
    rw [ListHash.find_isSome] at hfound
    have hmem : id' ∈ t.1.map Prod.fst := hfound
    rw [hkeys, List.mem_singleton] at hmem
    exact hmem
  · exact Option.isSome_iff_exists.mp (hpdus i hi)
  · exact Option.isSome_iff_exists.mp (hdrb i hi)
  · rw [hfour x hx]
    exact hown
  · obtain rfl := hfour x hx
    obtain ⟨q, hq⟩ := rowOf_eq_some_iff.mp hrow
    rw [TunnelTable.entry, hk] at hq
    have hmem : (key, q, (4 : TunnelIdx)) ∈ k.1 := ListHash.mem_of_find hq
    exact hsole _ hmem rfl
  · rw [hentries, hfour x hx]
    decide

/-- Its release succeeds, and takes the tunnel with it. -/
theorem releases_all_oneTunnelLeft :
    Along e1apStep ReleasesAll (Cuup.init listDpdk) (oneTunnelLeft ++ [.release ⟨1⟩]) ∧
      ∃ S n, exec e1apStep (Cuup.init listDpdk) oneTunnelLeft = some S ∧
        S.ue.rowOf 1 = some n ∧ (S.ue.ueCtxTable n).Lists 4 := by
  have hready : Along e1apStep ReleaseReady (Cuup.init listDpdk)
      (oneTunnelLeft ++ [.release ⟨1⟩]) := by
    rw [along_concat]
    refine ⟨⟨trivial, fun _ _ => ⟨trivial, fun _ _ => ⟨trivial, fun _ _ => trivial⟩⟩⟩, ?_⟩
    intro S hS n hn
    exact (oneTunnelLeft_releasable hS hn).1
  refine ⟨releases_all_of_ready listDpdk
    (listHash_accepts TunnelKey TunnelIdx maxTunnelCount) _ hready, ?_⟩
  have hrow : ((exec e1apStep (Cuup.init listDpdk) oneTunnelLeft).bind fun S =>
      S.ue.rowOf 1).isSome = true := by
    decide
  obtain ⟨n, hbind⟩ := Option.isSome_iff_exists.mp hrow
  obtain ⟨S, hS, hn⟩ := Option.bind_eq_some_iff.mp hbind
  exact ⟨S, n, hS, hn, (oneTunnelLeft_releasable hS hn).2⟩

/-- The release of a served UE succeeds, and its PDU-session tunnel stays
committed. -/
theorem released_ue_keeps_tunnel :
    ¬ ∀ calls S, exec e1apStep (Cuup.init listDpdk) calls = some S →
      ∀ call, ReleasesAll S call := by
  intro h
  have hdec : ((exec e1apStep (Cuup.init listDpdk) [oneSetup, oneSetup]).bind fun S =>
      (S.ue.rowOf 1).bind fun n => ((S.ue.ueCtxTable n).drbTunnelList.deref? 0).bind fun r =>
        (e1apBearerCtxRelease S ⟨1⟩).map fun out =>
          decide (0 < (S.ue.ueCtxTable n).drbCount ∧
            out.2.tun.rowOf (S.tun.keyAt r) ≠ none)) = some true := by
    decide
  obtain ⟨S, hS, hdec⟩ := Option.bind_eq_some_iff.mp hdec
  obtain ⟨n, hn, hdec⟩ := Option.bind_eq_some_iff.mp hdec
  obtain ⟨r, hr, hdec⟩ := Option.bind_eq_some_iff.mp hdec
  obtain ⟨⟨ret, S'⟩, hrelease, hfacts⟩ := Option.map_eq_some_iff.mp hdec
  obtain ⟨hcount, hkept⟩ := of_decide_eq_true hfacts
  obtain ⟨S₁, hrun, hreleased⟩ := (h _ S hS (.release ⟨1⟩)).1 n hn
  rw [hrelease] at hrun
  simp only [Option.some.injEq, Prod.mk.injEq] at hrun
  obtain ⟨_, rfl⟩ := hrun
  exact hkept (hreleased.keysGone r (Or.inr ⟨0, hcount, hr⟩))

end Pfm
