import Mathlib.Data.Fintype.EquivFin
import Pfm.BearerSpec
import Pfm.TunnelSharing

/-!
# The rows one request holds

While a request is served its rows are handed out one after the other, and their
keys enter the hash only when the context is committed.  Nothing checks that two
of these keys differ.  They do, by a count: the search for a tunnel id passes over
committed ids alone, so by the time it could come round to an id given out before,
every id belongs to a used row, and then no row is left to hand out.

* `Ready T held` : the rows held can be committed, each under its own key;
* `Work T held` : and more rows can be handed out;
* `Work.opened`, `Work.not_opened` : what `tunnelOpen` does to this;
* `Ready.commit` : committing a row held maps its key to it.
-/

namespace Pfm

open BoundedLoop CircularScan TunnelTable

variable {D : Dpdk} {env : Env D} {T T' : TunnelTable D} {key : TunnelKey} {r : TunnelIdx}
  {held held' : TunnelIdx → Prop}

/-- Some used row has tunnel id `i`. -/
def IdOccupied (T : TunnelTable D) (i : Fin maxTunnelCount) : Prop :=
  ∃ r, T.used r = true ∧ (T.keyAt r).teId = UInt32.ofNat i.val

/-- Every committed key maps to a used row that stores it. -/
structure KeysOwnUsedRows (T : TunnelTable D) : Prop extends KeysOwnRows T where
  used : ∀ k r, T.rowOf k = some r → T.used r = true

/-- The rows held are used, their keys differ, and each key is absent or already
maps to its row. -/
structure Ready (T : TunnelTable D) (held : TunnelIdx → Prop) : Prop
    extends KeysOwnUsedRows T where
  held_used : ∀ r, held r → T.used r = true
  up : ∀ r, held r → T.tunnelHashtable.isSome = true
  own : ∀ r, held r → ∀ r', T.rowOf (T.keyAt r) = some r' → r' = r
  held_distinct : ∀ r r', held r → held r' → T.keyAt r = T.keyAt r' → r = r'

/-- And either no row is left, or from the id of every row held round to the last
id given out every id is occupied. -/
structure Work (T : TunnelTable D) (held : TunnelIdx → Prop) : Prop extends Ready T held where
  arcs : (∀ r, r ≠ T.lastAllocatedSlot → T.used r = true) ∨
    ∀ r, held r → ∃ x : Fin maxTunnelCount, (T.keyAt r).teId = UInt32.ofNat x.val ∧
      Arc (IdOccupied T) x T.lastAssignedId

theorem teId_inj {i j : Fin maxTunnelCount}
    (h : UInt32.ofNat i.val = UInt32.ofNat j.val) : i = j := by
  have hi : i.val < 16000 := i.isLt
  have hj : j.val < 16000 := j.isLt
  have hn := congrArg UInt32.toNat h
  simp only [UInt32.toNat_ofNat'] at hn
  apply Fin.ext
  rwa [Nat.mod_eq_of_lt (by omega), Nat.mod_eq_of_lt (by omega)] at hn

/-- **The count.**  When every id is occupied every row is used: the rows of
different ids are different. -/
theorem all_used_of_all_occupied (h : ∀ i, IdOccupied T i) (r : TunnelIdx) :
    T.used r = true := by
  choose row hused hid using h
  have hinj : Function.Injective row := by
    intro i j hij
    exact teId_inj ((hid i).symm.trans ((congrArg (fun r => (T.keyAt r).teId) hij).trans (hid j)))
  obtain ⟨i, rfl⟩ := (Finite.injective_iff_surjective.mp hinj) r
  exact hused i

theorem Work.of_keysOwnUsedRows (h : KeysOwnUsedRows T) : Work T fun _ => False where
  toKeysOwnUsedRows := h
  held_used _ hr := hr.elim
  up _ hr := hr.elim
  own _ hr := hr.elim
  held_distinct _ _ hr := hr.elim
  arcs := Or.inr fun _ hr => hr.elim

theorem Ready.mono (h : Ready T held) (hsub : ∀ r, held' r → held r) : Ready T held' where
  toKeysOwnUsedRows := h.toKeysOwnUsedRows
  held_used r hr := h.held_used r (hsub r hr)
  up r hr := h.up r (hsub r hr)
  own r hr := h.own r (hsub r hr)
  held_distinct r r' hr hr' := h.held_distinct r r' (hsub r hr) (hsub r' hr')

theorem Work.mono (h : Work T held) (hsub : ∀ r, held' r → held r) : Work T held' where
  toReady := h.toReady.mono hsub
  arcs := h.arcs.imp id fun harc r hr => harc r (hsub r hr)

theorem IdOccupied.congr {i : Fin maxTunnelCount} (h : IdOccupied T i)
    (hrows : ∀ r, T.used r = true → T'.used r = true ∧ T'.keyAt r = T.keyAt r) :
    IdOccupied T' i := by
  obtain ⟨r, hu, hid⟩ := h
  exact ⟨r, (hrows r hu).1, by rw [(hrows r hu).2, hid]⟩

/-- A committed key of the right form occupies its id. -/
theorem KeysOwnUsedRows.occupied (h : KeysOwnUsedRows T) {ip : PfmIpAddr}
    {i : Fin maxTunnelCount} (hk : (T.entry (teKey ip i)).isSome) : IdOccupied T i := by
  obtain ⟨⟨p, r⟩, hpr⟩ := Option.isSome_iff_exists.mp hk
  have hrow : T.rowOf (teKey ip i) = some r := rowOf_eq_some_iff.mpr ⟨p, hpr⟩
  exact ⟨r, h.used _ r hrow, congrArg TunnelKey.teId (h.stored _ r hrow)⟩

/-! ### Setting the table up -/

theorem rowOf_ensureUp (he : tunnelTableEnsureUp env T = some T') : T'.rowOf = T.rowOf := by
  funext k
  rcases tunnelTableEnsureUp_cases env T with ⟨_, h'⟩ | ⟨hdown, _, h'⟩ | ⟨_, _, h'⟩
  · obtain rfl : T = T' := by simpa [h'] using he
    rfl
  · obtain rfl : T.cleared = T' := by simpa [h'] using he
    rw [rowOf_cleared, rowOf_of_down hdown]
  · simp [h'] at he

/-- With a row held the table is up already. -/
theorem Ready.ensureUp_eq (h : Ready T held) (he : tunnelTableEnsureUp env T = some T')
    (hr : held r) : T' = T := by
  rcases tunnelTableEnsureUp_cases env T with ⟨_, h'⟩ | ⟨hdown, _, _⟩ | ⟨hdown, _, _⟩
  · exact (by simpa [h'] using he : T = T').symm
  · have := h.up r hr
    simp [hdown] at this
  · have := h.up r hr
    simp [hdown] at this

theorem Work.ensureUp (h : Work T held) (he : tunnelTableEnsureUp env T = some T') :
    Work T' held := by
  by_cases hex : ∃ r, held r
  · obtain ⟨r, hr⟩ := hex
    rw [h.ensureUp_eq he hr]
    exact h
  · have hown : KeysOwnUsedRows T' := by
      rcases tunnelTableEnsureUp_cases env T with ⟨_, h'⟩ | ⟨_, _, h'⟩ | ⟨_, _, h'⟩
      · obtain rfl : T = T' := by simpa [h'] using he
        exact h.toKeysOwnUsedRows
      · obtain rfl : T.cleared = T' := by simpa [h'] using he
        exact ⟨.of_unmapped fun _ => rowOf_cleared, fun k r hk => by simp [rowOf_cleared] at hk⟩
      · simp [h'] at he
    exact (Work.of_keysOwnUsedRows hown).mono fun r hr => hex ⟨r, hr⟩

/-! ### Handing a row out -/

/-- What a successful `tunnelOpen` leaves. -/
structure Opened (T T' : TunnelTable D) (held : TunnelIdx → Prop) (key : TunnelKey)
    (r : TunnelIdx) : Prop where
  work : Work T' fun x => held x ∨ x = r
  rows : T'.rowOf = T.rowOf
  kept : ∀ x, held x → T'.tunnelTable x = T.tunnelTable x
  keyAt : T'.keyAt r = key
  absent : T.rowOf key = none
  fresh : ∀ x, held x → x ≠ r ∧ T.keyAt x ≠ key

/-- The ids passed over on the way to a free one are occupied. -/
theorem KeysOwnUsedRows.passed (h : KeysOwnUsedRows T) {ip : PfmIpAddr}
    {i : Fin maxTunnelCount} {d : Nat} (hfree : FirstFreeId T ip i d) :
    ∀ e, 0 < e → e < d → IdOccupied T (ahead T.lastAssignedId e) :=
  fun e h0 h1 => h.occupied (hfree.taken e h0 h1)

/-- While a row is free, the arc of every row held has room for the id found. -/
theorem Work.arc_room (h : Work T held) {ip : PfmIpAddr} {i : Fin maxTunnelCount} {d : Nat}
    (hfree : FirstFreeId T ip i d) (hun : T.used r = false) (hne : r ≠ T.lastAllocatedSlot)
    {x : TunnelIdx} (hx : held x) :
    ∃ y : Fin maxTunnelCount, (T.keyAt x).teId = UInt32.ofNat y.val ∧
      Arc (IdOccupied T) y T.lastAssignedId ∧ dist y T.lastAssignedId + d < maxTunnelCount := by
  have hfull : ¬ ∀ i, IdOccupied T i := by
    intro hall
    have := all_used_of_all_occupied hall r
    simp [hun] at this
  have harcs := h.arcs.resolve_left fun hall => by
    have := hall r hne
    simp [hun] at this
  obtain ⟨y, hy, harc⟩ := harcs x hx
  exact ⟨y, hy, harc, harc.room (h.passed hfree) hfull⟩

/-- The id found differs from every id held. -/
theorem Work.id_fresh (h : Work T held) {ip : PfmIpAddr} {i : Fin maxTunnelCount} {d : Nat}
    (hfree : FirstFreeId T ip i d) (hun : T.used r = false) (hne : r ≠ T.lastAllocatedSlot)
    {x : TunnelIdx} (hx : held x) : T.keyAt x ≠ teKey ip i := by
  intro heq
  obtain ⟨y, hy, _, hroom⟩ := h.arc_room hfree hun hne hx
  have hyi : y = i := teId_inj (hy.symm.trans (congrArg TunnelKey.teId heq))
  exact ahead_ne_of_room hroom hfree.pos (hfree.eq.symm.trans hyi.symm)

/-- A row given out with the id found: the keys stay apart, and the arcs grow to
that id. -/
theorem Work.takeRow (h : Work T held) {ip : PfmIpAddr} {i : Fin maxTunnelCount} {d : Nat}
    (hup : T.tunnelHashtable.isSome = true) (hfree : FirstFreeId T ip i d)
    (hun : T.used r = false) (hne : r ≠ T.lastAllocatedSlot) :
    Opened T (TunnelTable.takeRow { T with lastAssignedId := i } r (teKey ip i)) held
      (teKey ip i) r := by
  let T₂ : TunnelTable D := { T with lastAssignedId := i }
  have hnot : ∀ x, T.used x = true → x ≠ r := by
    intro x hx heq
    rw [heq, hun] at hx
    cases hx
  have hrow : ∀ x, x ≠ r → (T₂.takeRow r (teKey ip i)).tunnelTable x = T.tunnelTable x :=
    fun x hx => takeRow_of_ne hx
  have hkeyAt : ∀ x, x ≠ r → (T₂.takeRow r (teKey ip i)).keyAt x = T.keyAt x :=
    fun x hx => congrArg Tunnel.key (hrow x hx)
  have hused : ∀ x, T.used x = true → (T₂.takeRow r (teKey ip i)).used x = true := by
    intro x hx
    rw [used_takeRow, if_neg (hnot x hx)]
    exact hx
  have hself : (T₂.takeRow r (teKey ip i)).keyAt r = teKey ip i := takeRow_key_self
  have habsent : T.rowOf (teKey ip i) = none := rowOf_eq_none_iff.mpr hfree.free
  have hocc : ∀ j, IdOccupied T j → IdOccupied (T₂.takeRow r (teKey ip i)) j :=
    fun j hj => hj.congr fun x hx => ⟨hused x hx, hkeyAt x (hnot x hx)⟩
  have hnew : IdOccupied (T₂.takeRow r (teKey ip i)) i :=
    ⟨r, by simp [used_takeRow], by rw [hself]; rfl⟩
  have hheld : ∀ x, held x → x ≠ r := fun x hx => hnot x (h.held_used x hx)
  have hfresh : ∀ x, held x → T.keyAt x ≠ teKey ip i := fun x hx => h.id_fresh hfree hun hne hx
  refine ⟨⟨⟨⟨.of_stored ?_, ?_⟩, ?_, ?_, ?_, ?_⟩, Or.inr ?_⟩, rfl,
    fun x hx => hrow x (hheld x hx), hself, habsent, fun x hx => ⟨hheld x hx, hfresh x hx⟩⟩
  · intro k x hk
    exact (hkeyAt x (hnot x (h.used k x hk))).trans (h.stored k x hk)
  · intro k x hk
    exact hused x (h.used k x hk)
  · intro x hor
    rcases hor with hx | rfl
    · exact hused x (h.held_used x hx)
    · simp [used_takeRow]
  · intro x _
    exact hup
  · intro x hor x' hx'
    rcases hor with hx | rfl
    · rw [hkeyAt x (hheld x hx)] at hx'
      exact h.own x hx x' hx'
    · rw [hself] at hx'
      have hx'' : T.rowOf (teKey ip i) = some x' := hx'
      simp [habsent] at hx''
  · intro x x' hor hor' heq
    rcases hor with hx | rfl <;> rcases hor' with hx' | rfl
    · rw [hkeyAt x (hheld x hx), hkeyAt x' (hheld x' hx')] at heq
      exact h.held_distinct x x' hx hx' heq
    · rw [hkeyAt x (hheld x hx), hself] at heq
      exact absurd heq (hfresh x hx)
    · rw [hkeyAt x' (hheld x' hx'), hself] at heq
      exact absurd heq.symm (hfresh x' hx')
    · rfl
  · intro x hor
    rcases hor with hx | rfl
    · obtain ⟨y, hy, harc, hroom⟩ := h.arc_room hfree hun hne hx
      refine ⟨y, by rw [hkeyAt x (hheld x hx), hy], ?_⟩
      have hi : i = ahead T.lastAssignedId d := hfree.eq
      have hnew' : IdOccupied (T₂.takeRow r (teKey ip i)) (ahead T.lastAssignedId d) := by
        rwa [← hi]
      have hext := (harc.mono hocc).extend (fun e h0 h1 => hocc _ (h.passed hfree e h0 h1)) hnew'
        hroom
      rwa [← hi] at hext
    · exact ⟨i, by rw [hself]; rfl, Arc.single hnew⟩

theorem Work.opened (h : Work T held) {remoteIp : PfmIpAddr} {ttype : TunnelType}
    (hopen : tunnelOpen env T remoteIp ttype = (some (key, r), T')) :
    Opened T T' held key r := by
  rcases tunnelOpen_cases env T remoteIp ttype with
    ⟨_, he⟩ | ⟨T₁, hup, he | ⟨ip, i, d, _, hfree, ⟨_, he⟩ | ⟨r', hun, hne, he⟩⟩⟩
  · simp [he] at hopen
  · simp [he] at hopen
  · simp [he] at hopen
  · rw [he] at hopen
    simp only [Prod.mk.injEq, Option.some.injEq] at hopen
    obtain ⟨⟨rfl, rfl⟩, rfl⟩ := hopen
    have hrows := rowOf_ensureUp hup
    have hO := (h.ensureUp hup).takeRow (tunnelTableEnsureUp_up hup) hfree hun hne
    have hsame : ∀ x, held x → T₁ = T := fun x hx => h.ensureUp_eq hup hx
    refine ⟨hO.work, hO.rows.trans hrows, fun x hx => ?_, hO.keyAt, ?_, fun x hx => ?_⟩
    · rw [hO.kept x hx, hsame x hx]
    · rw [← hrows]
      exact hO.absent
    · have := hO.fresh x hx
      rwa [hsame x hx] at this

/-- A failed `tunnelOpen` may have moved a cursor or set the table up. -/
theorem Work.not_opened (h : Work T held) {remoteIp : PfmIpAddr} {ttype : TunnelType}
    (hopen : tunnelOpen env T remoteIp ttype = (none, T')) :
    Work T' held ∧ T'.rowOf = T.rowOf ∧ ∀ x, held x → T'.tunnelTable x = T.tunnelTable x := by
  have hensured : ∀ {T₁ : TunnelTable D}, tunnelTableEnsureUp env T = some T₁ →
      Work T₁ held ∧ T₁.rowOf = T.rowOf ∧
        ∀ x, held x → T₁.tunnelTable x = T.tunnelTable x := fun hup =>
    ⟨h.ensureUp hup, rowOf_ensureUp hup, fun x hx => by rw [h.ensureUp_eq hup hx]⟩
  rcases tunnelOpen_cases env T remoteIp ttype with
    ⟨_, he⟩ | ⟨T₁, hup, he | ⟨ip, i, d, _, _, ⟨hall, he⟩ | ⟨r', _, _, he⟩⟩⟩
  · obtain rfl : T = T' := by simpa [he] using hopen
    exact ⟨h, rfl, fun _ _ => rfl⟩
  · obtain rfl : T₁ = T' := by simpa [he] using hopen
    exact hensured hup
  · rw [he] at hopen
    simp only [Prod.mk.injEq, true_and] at hopen
    subst hopen
    obtain ⟨hW, hrows, hkept⟩ := hensured hup
    refine ⟨⟨⟨⟨.of_stored hW.stored, hW.used⟩, hW.held_used, hW.up, hW.own, hW.held_distinct⟩,
      Or.inl hall⟩, hrows, hkept⟩
  · simp [he] at hopen

/-- Writing the payload of a row. -/
theorem Work.setRow (h : Work T held) {t : Tunnel} (hkey : t.key = T.keyAt r)
    (hused : t.isRowUsed = T.used r) : Work (T.setRow r t) held := by
  have hkeyAt : ∀ x, (T.setRow r t).keyAt x = T.keyAt x := by
    intro x
    by_cases hx : x = r
    · subst hx
      simp [keyAt, setRow_self, hkey]
    · simp [keyAt, setRow_of_ne t hx]
  have hU : ∀ x, (T.setRow r t).used x = T.used x := by
    intro x
    by_cases hx : x = r
    · subst hx
      simp [TunnelTable.used, setRow_self, hused]
    · simp [TunnelTable.used, setRow_of_ne t hx]
  refine ⟨⟨⟨h.toKeysOwnRows.congr rfl hkeyAt, fun k x hk => ?_⟩, fun x hx => ?_, h.up,
    fun x hx x' hx' => ?_, fun x x' hx hx' heq => ?_⟩,
    h.arcs.imp (fun hall x hx => ?_) fun harcs x hx => ?_⟩
  · rw [hU]
    exact h.used k x hk
  · rw [hU]
    exact h.held_used x hx
  · rw [hkeyAt] at hx'
    exact h.own x hx x' hx'
  · rw [hkeyAt, hkeyAt] at heq
    exact h.held_distinct x x' hx hx' heq
  · rw [hU]
    exact hall x hx
  · obtain ⟨y, hy, harc⟩ := harcs x hx
    refine ⟨y, by rw [hkeyAt, hy], harc.mono fun j hj => hj.congr fun x hx => ?_⟩
    exact ⟨by rw [hU, hx], hkeyAt x⟩

/-- Filling the row handed out. -/
theorem Opened.setRow (h : Opened T T' held key r) {t : Tunnel} (hkey : t.key = T'.keyAt r)
    (hused : t.isRowUsed = T'.used r) : Opened T (T'.setRow r t) held key r where
  work := h.work.setRow hkey hused
  rows := h.rows
  kept x hx := by rw [setRow_of_ne t (h.fresh x hx).1, h.kept x hx]
  keyAt := by rw [TunnelTable.keyAt, setRow_self, hkey, h.keyAt]
  absent := h.absent
  fresh := h.fresh

/-! ### Committing a row -/
/-- Committing a row held maps its key to it and changes no row. -/
structure Committed (T T' : TunnelTable D) (r : TunnelIdx) : Prop where
  rows : T'.tunnelTable = T.tunnelTable
  rowOf_eq : ∀ k, T'.rowOf k = if k = T.keyAt r then some r else T.rowOf k

theorem Ready.commit (h : Ready T held) (hacc : D.tunnelHash.Accepts) (hr : held r) :
    Committed T (tunnelCommit T (some r)).2 r := by
  have hc := tunnelCommit_cases T r
  have hup := h.up r hr
  have hused := h.held_used r hr
  have hkept : T.rowOf (T.keyAt r) = some r → Committed T T r := fun hmap =>
    ⟨rfl, fun k => by
      split
      · rename_i hk
        rw [hk, hmap]
      · rfl⟩
  generalize hres : tunnelCommit T (some r) = res at hc ⊢
  obtain ⟨ret, T'⟩ := res
  simp only at hc ⊢
  cases hc with
  | down hash => simp [hash] at hup
  | inserted t p _ hash => exact ⟨rfl, fun k => rowOf_update hash⟩
  | refused t habs _ full =>
      have hfree : ∀ k, T.rowOf k ≠ some r := by
        intro k hk
        have hkr : T.keyAt r = k := h.stored k r hk
        have hnone : T.rowOf (T.keyAt r) = none := rowOf_eq_none_iff.mpr habs
        rw [← hkr, hnone] at hk
        cases hk
      exact absurd (full hacc) (Nat.not_le.mpr (h.room hfree))
  | kept hmap => exact hkept hmap
  | deleted _ _ _ hun => simp [hused] at hun
  | replaced t p old hmap hne =>
      exact absurd (h.own r hr old (rowOf_eq_some_iff.mpr ⟨p, hmap⟩)).symm hne

/-- The rows held stay ready, and every key already mapped stays mapped. -/
theorem Ready.committed (h : Ready T held) (hr : held r) (hc : Committed T T' r) :
    Ready T' held ∧ ∀ k x, T.rowOf k = some x → T'.rowOf k = some x := by
  have hkeyAt : ∀ x, T'.keyAt x = T.keyAt x := fun x => by rw [keyAt, hc.rows]; rfl
  have hused : ∀ x, T'.used x = T.used x := fun x => by rw [TunnelTable.used, hc.rows]; rfl
  have hmapped : T'.rowOf (T.keyAt r) = some r := by rw [hc.rowOf_eq, if_pos rfl]
  have hup : T'.tunnelHashtable.isSome = true := by
    obtain ⟨p, hp⟩ := rowOf_eq_some_iff.mp hmapped
    exact up_of_entry hp
  refine ⟨⟨⟨.of_stored fun k x hk => ?_, fun k x hk => ?_⟩, fun x hx => ?_, fun _ _ => hup,
    fun x hx x' hx' => ?_, fun x x' hx hx' heq => ?_⟩, fun k x hk => ?_⟩
  · rw [hc.rowOf_eq] at hk
    refine (hkeyAt x).trans ?_
    split at hk
    · rename_i hkr
      obtain rfl : r = x := Option.some.inj hk
      exact hkr.symm
    · exact h.stored k x hk
  · rw [hc.rowOf_eq] at hk
    rw [hused]
    split at hk
    · obtain rfl : r = x := Option.some.inj hk
      exact h.held_used r hr
    · exact h.used k x hk
  · rw [hused]
    exact h.held_used x hx
  · rw [hkeyAt, hc.rowOf_eq] at hx'
    split at hx'
    · rename_i hkey
      obtain rfl : r = x' := Option.some.inj hx'
      exact (h.held_distinct x r hx hr hkey).symm
    · exact h.own x hx x' hx'
  · rw [hkeyAt, hkeyAt] at heq
    exact h.held_distinct x x' hx hx' heq
  · rw [hc.rowOf_eq]
    split
    · rename_i hkr
      rw [hkr] at hk
      rw [h.own r hr x hk]
    · exact hk

/-- Removing a key that is not committed changes nothing. -/
theorem tunnelRemove_of_absent (h : T.rowOf key = none) : (tunnelRemove T key).2 = T := by
  rcases tunnelRemove_cases T key with ⟨r, hr, _⟩ | ⟨_, ret, _, he⟩
  · simp [h] at hr
  · rw [he]

/-- Committing one row held keeps the count going for the others. -/
theorem Work.committed (h : Work T held) (hr : held r) (hc : Committed T T' r)
    (hcur : T'.lastAllocatedSlot = T.lastAllocatedSlot)
    (hid : T'.lastAssignedId = T.lastAssignedId) : Work T' held := by
  have hkeyAt : ∀ x, T'.keyAt x = T.keyAt x := fun x => by rw [keyAt, hc.rows]; rfl
  have hused : ∀ x, T'.used x = T.used x := fun x => by rw [TunnelTable.used, hc.rows]; rfl
  refine ⟨(h.toReady.committed hr hc).1, h.arcs.imp (fun hall x hx => ?_) fun harcs x hx => ?_⟩
  · rw [hused]
    exact hall x (hcur ▸ hx)
  · obtain ⟨y, hy, harc⟩ := harcs x hx
    refine ⟨y, by rw [hkeyAt, hy], ?_⟩
    rw [hid]
    exact harc.mono fun j hj => hj.congr fun x hx => ⟨by rw [hused, hx], hkeyAt x⟩

/-- `tunnel_commit` moves no cursor. -/
theorem tunnelCommit_cursors (T : TunnelTable D) (r : TunnelIdx) :
    (tunnelCommit T (some r)).2.lastAllocatedSlot = T.lastAllocatedSlot ∧
      (tunnelCommit T (some r)).2.lastAssignedId = T.lastAssignedId := by
  have hc := tunnelCommit_cases T r
  generalize tunnelCommit T (some r) = res at hc ⊢
  obtain ⟨ret, T'⟩ := res
  simp only at hc ⊢
  cases hc <;> exact ⟨rfl, rfl⟩

end Pfm
