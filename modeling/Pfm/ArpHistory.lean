import Pfm.Arp
import Pfm.StepSystem

/-!
# The history of the ARP table

Replies and timer expiries in any order, next to a record of what came in: for
every address its last accepted reply and how often its timer has expired since.

* `ArpInv` : what ties the hash, the rows, the timers and the record together;
* `arp_history` : the table answers what the record says.
-/

namespace Pfm

open BoundedLoop StepSystem ArpState

variable {D : Dpdk} {S S' : ArpState D} {ip : PfmIpAddr} {r : Fin pfmArpTableEntries}

/-! ### What each function does -/

namespace ArpState

theorem rowOf_eq_some_iff :
    S.rowOf ip = some r ↔ D.arpHash.entry S.table.hashMapper ip = some (r, ()) := by
  simp only [rowOf, Option.map_eq_some_iff]
  constructor
  · intro hex
    obtain ⟨⟨r', ⟨⟩⟩, h, rfl⟩ := hex
    exact h
  · intro h
    exact ⟨(r, ()), h, rfl⟩

theorem rowOf_eq_none_iff :
    S.rowOf ip = none ↔ D.arpHash.entry S.table.hashMapper ip = none := by
  simp [rowOf]

/-- No two addresses share a row. -/
theorem rowOf_inj {ip' : PfmIpAddr} (h : S.rowOf ip = some r) (h' : S.rowOf ip' = some r) :
    ip = ip' :=
  RteHash.entry_inj (rowOf_eq_some_iff.mp h) (rowOf_eq_some_iff.mp h')

/-- Other addresses have other rows than one that is the address's own or nobody's. -/
theorem rowOf_ne {ip₀ : PfmIpAddr} {r' : Fin pfmArpTableEntries}
    (hown : S.rowOf ip₀ = some r ∨ ∀ ip, S.rowOf ip ≠ some r) (hne : ip ≠ ip₀)
    (h : S.rowOf ip = some r') : r' ≠ r := by
  intro heq
  subst heq
  rcases hown with hpres | hfree
  · exact hne (rowOf_inj h hpres)
  · exact hfree ip h

@[simp] theorem setRow_rowOf (e : PfmArpEntry) : (S.setRow r e).rowOf = S.rowOf := rfl

@[simp] theorem setTimer_rowOf (b : Bool) : (S.setTimer r b).rowOf = S.rowOf := rfl

/-- The rows after the hash entry of one address changed. -/
theorem rowOf_withHash {h : Option D.arpHash.Table} {x : Option (Fin pfmArpTableEntries)}
    (hentry : D.arpHash.entry h = Function.update (D.arpHash.entry S.table.hashMapper) ip
      (x.map fun r => (r, ()))) :
    (S.withHash h).rowOf = Function.update S.rowOf ip x := by
  funext ip'
  change (D.arpHash.entry h ip').map Prod.fst = _
  rw [hentry]
  by_cases hip : ip' = ip
  · subst hip
    rw [Function.update_self, Function.update_self]
    cases x <;> rfl
  · rw [Function.update_of_ne hip, Function.update_of_ne hip]
    rfl

end ArpState

/-- A query reads the row of the address. -/
theorem pfmArpQuery_eq (S : ArpState D) (ip : PfmIpAddr) :
    pfmArpQuery S.table ip = (S.rowOf ip).map S.table.arpTable := by
  unfold pfmArpQuery
  cases hrow : S.rowOf ip with
  | none =>
      have hneg : (D.arpHash.lookup S.table.hashMapper ip).1 < 0 := by
        have hno := RteHash.lookup_nonneg_iff (H := D.arpHash) (t := S.table.hashMapper) (k := ip)
        rw [rowOf_eq_none_iff.mp hrow] at hno
        simp only [Option.isSome_none, Bool.false_eq_true, iff_false] at hno
        omega
      rw [if_pos hneg]
      rfl
  | some r =>
      rw [RteHash.lookup_of_entry (rowOf_eq_some_iff.mp hrow), if_neg (by simp)]
      simp [CArray.get?]

/-- Nothing is known and no timer runs. -/
structure ArpState.Blank (S : ArpState D) : Prop where
  rows : ∀ ip, S.rowOf ip = none
  timers : ∀ r, S.refreshTimer r = false

/-- `arp_init` by outcome.  Either way nothing is known afterwards. -/
theorem arpInit_cases (lib : ArpLib) (h : S.Blank) :
    ∃ S₁, S₁.Blank ∧ S₁.table.arpTable = S.table.arpTable ∧
      ((arpInit lib S = (0, S₁) ∧ S₁.arpUp = true ∧ S₁.table.hashMapper.isSome = true) ∨
       (arpInit lib S = (-1, S₁) ∧ S₁.arpUp = S.arpUp ∧ lib ≠ .ok)) := by
  obtain ⟨hashCreate, timerInit⟩ := lib
  cases hashCreate with
  | false =>
      refine ⟨S.withHash none, ⟨fun ip => ?_, h.timers⟩, rfl, Or.inr ⟨rfl, rfl, ?_⟩⟩
      · rfl
      · simp [ArpLib.ok]
  | true =>
      have hblank : ({ S.withHash (some D.arpHash.empty) with
          refreshTimer := fun _ => false } : ArpState D).Blank :=
        ⟨fun ip => by simp [rowOf, withHash], fun _ => rfl⟩
      cases timerInit with
      | false =>
          exact ⟨_, hblank, rfl, Or.inr ⟨rfl, rfl, by simp [ArpLib.ok]⟩⟩
      | true =>
          exact ⟨{ S.withHash (some D.arpHash.empty) with
            refreshTimer := fun _ => false, arpUp := true }, ⟨hblank.rows, hblank.timers⟩, rfl,
            Or.inl ⟨rfl, rfl, rfl⟩⟩

/-- What a reply does to a table that is up. -/
inductive ArpReplyOutcome (S : ArpState D) (pkt : D.mbuf.Mbuf) : Int → ArpState D → Prop
  | rejected (S' : ArpState D) (absent : S.rowOf (arpSenderIp pkt) = none)
      (full : ∀ r, ∃ ip, S.rowOf ip = some r) (rows : S'.rowOf = S.rowOf)
      (table : S'.table.arpTable = S.table.arpTable) (timers : S'.refreshTimer = S.refreshTimer) :
      ArpReplyOutcome S pkt (-1) S'
  | accepted (S' : ArpState D) (r : Fin pfmArpTableEntries)
      (place : S.rowOf (arpSenderIp pkt) = some r ∨
        (S.rowOf (arpSenderIp pkt) = none ∧ ∀ ip, S.rowOf ip ≠ some r))
      (rows : S'.rowOf = Function.update S.rowOf (arpSenderIp pkt) (some r))
      (table : S'.table.arpTable =
        Function.update S.table.arpTable r ((S.table.arpTable r).fill pkt))
      (timers : S'.refreshTimer = Function.update S.refreshTimer r true) :
      ArpReplyOutcome S pkt 0 S'

/-- What `pfm_arp_process_reply` does once the table is up. -/
theorem arpReplyFill_cases (hacc : D.arpHash.Accepts) (hfull : D.arpHash.RefusesFull)
    (hhash : S.table.hashMapper.isSome = true) (pkt : D.mbuf.Mbuf) :
    ∃ ret S', arpReplyFill S pkt = some (ret, S') ∧ S'.arpUp = S.arpUp ∧
      S'.table.hashMapper.isSome = true ∧ ArpReplyOutcome S pkt ret S' := by
  obtain ⟨t, ht⟩ := Option.isSome_iff_exists.mp hhash
  let added := D.arpHash.addKey S.table.hashMapper (arpSenderIp pkt) ()
  have hsome : added.2.isSome = true := by
    change (D.arpHash.addKey S.table.hashMapper (arpSenderIp pkt) ()).2.isSome = true
    rw [ht]
    exact RteHash.addKey_isSome t _ ()
  -- The row that was found or given.
  have haccepted (r : Fin pfmArpTableEntries) (hcode : added.1 = (r.val : Int))
      (hentry : D.arpHash.entry added.2 = Function.update (D.arpHash.entry S.table.hashMapper)
        (arpSenderIp pkt) (some (r, ())))
      (hplace : S.rowOf (arpSenderIp pkt) = some r ∨ S.rowOf (arpSenderIp pkt) = none) :
      ∃ ret S', arpReplyFill S pkt = some (ret, S') ∧ S'.arpUp = S.arpUp ∧
        S'.table.hashMapper.isSome = true ∧ ArpReplyOutcome S pkt ret S' := by
    have hrows : (S.withHash added.2).rowOf =
        Function.update S.rowOf (arpSenderIp pkt) (some r) :=
      rowOf_withHash (x := some r) hentry
    have hne : ¬ added.1 = -ENOSPC := by
      rw [hcode, ENOSPC]
      omega
    refine ⟨0, ((S.withHash added.2).setRow r ((S.table.arpTable r).fill pkt)).setTimer r true,
      ?_, rfl, hsome, .accepted _ r ?_ hrows rfl rfl⟩
    · change (if added.1 = -ENOSPC then some (-1, S.withHash added.2) else
        (CArray.index? pfmArpTableEntries added.1).bind fun r => some (0,
          ((S.withHash added.2).setRow r ((S.table.arpTable r).fill pkt)).setTimer r true)) = _
      rw [if_neg hne, CArray.index?_of_val hcode]
      rfl
    · rcases hplace with hpres | habs
      · exact Or.inl hpres
      · refine Or.inr ⟨habs, fun ip hip => ?_⟩
        have hother : ip ≠ arpSenderIp pkt := by
          intro heq
          rw [heq, habs] at hip
          cases hip
        refine hother (rowOf_inj (S := S.withHash added.2) (r := r) ?_ ?_)
        · rw [hrows, Function.update_of_ne hother]
          exact hip
        · rw [hrows, Function.update_self]
  cases hrow : S.rowOf (arpSenderIp pkt) with
  | some r =>
      obtain ⟨hcode, hentry⟩ := RteHash.addKey_of_entry (d := ()) (rowOf_eq_some_iff.mp hrow)
      exact haccepted r hcode hentry (Or.inl hrow)
  | none =>
      have habs := rowOf_eq_none_iff.mp hrow
      rw [ht] at habs
      have hadd : added = D.arpHash.addKey (some t) (arpSenderIp pkt) () := by rw [← ht]
      rcases RteHash.addKey_of_absent () habs with ⟨r, hcode, hentry⟩ | ⟨hcode, hneg, hentry⟩
      · rw [← hadd] at hcode hentry
        rw [← ht] at hentry
        exact haccepted r hcode hentry (Or.inr hrow)
      · rw [← hadd] at hcode hentry
        have hcard : pfmArpTableEntries ≤ (D.arpHash.keys t).card := by
          by_contra hroom
          have := hacc t (arpSenderIp pkt) () (by omega)
          omega
        have hspc := hfull t (arpSenderIp pkt) () habs hcard
        refine ⟨-1, S.withHash added.2, ?_, rfl, hsome, .rejected _ hrow ?_ ?_ rfl rfl⟩
        · exact if_pos (hcode.trans hspc)
        · intro r
          obtain ⟨ip, _, hslot⟩ := (D.arpHash.full_iff t).mp hcard r
          exact ⟨ip, rowOf_eq_some_iff.mpr (by rw [ht]; exact hslot)⟩
        · funext ip
          change (D.arpHash.entry added.2 ip).map Prod.fst = _
          rw [hentry, ← ht]
          rfl

/-- The table `pfm_arp_process_reply` works on: the one there is, or a blank one. -/
structure ArpStarted (S S₁ : ArpState D) : Prop where
  up : S₁.arpUp = true
  hash : S₁.table.hashMapper.isSome = true
  same : S₁ = S ∨ S.arpUp = false ∧ S₁.Blank

/-- `pfm_arp_process_reply` by outcome. -/
theorem pfmArpProcessReply_cases (hacc : D.arpHash.Accepts) (hfull : D.arpHash.RefusesFull)
    (hup : S.arpUp = true → S.table.hashMapper.isSome = true)
    (hdown : S.arpUp = false → S.Blank) (lib : ArpLib) (pkt : D.mbuf.Mbuf) (linkId : UInt16) :
    ∃ ret S', pfmArpProcessReply lib S pkt linkId = some (ret, S') ∧
      ((ret = -1 ∧ S.arpUp = false ∧ S'.arpUp = false ∧ S'.Blank ∧ lib ≠ .ok) ∨
       ∃ S₁, ArpStarted S S₁ ∧ S'.arpUp = true ∧ S'.table.hashMapper.isSome = true ∧
        ArpReplyOutcome S₁ pkt ret S') := by
  unfold pfmArpProcessReply
  cases h : S.arpUp with
  | true =>
      obtain ⟨ret, S', hfill, hup', hhash', hout⟩ := arpReplyFill_cases hacc hfull (hup h) pkt
      exact ⟨ret, S', hfill, Or.inr ⟨S, ⟨h, hup h, Or.inl rfl⟩, hup'.trans h, hhash', hout⟩⟩
  | false =>
      obtain ⟨S₁, hblank, _, ⟨hinit, hup₁, hhash₁⟩ | ⟨hinit, hup₁, hlib⟩⟩ :=
        arpInit_cases lib (hdown h)
      · obtain ⟨ret, S', hfill, hup', hhash', hout⟩ := arpReplyFill_cases hacc hfull hhash₁ pkt
        refine ⟨ret, S', ?_, Or.inr ⟨S₁, ⟨hup₁, hhash₁, Or.inr ⟨h, hblank⟩⟩, hup'.trans hup₁,
          hhash', hout⟩⟩
        simp [hinit, hfill]
      · refine ⟨-1, S₁, ?_, Or.inl ⟨rfl, rfl, hup₁.trans h, hblank, hlib⟩⟩
        simp [hinit]

/-- What the refresh timer of a row does.  The row is the one of the address it
stores. -/
theorem refreshCallback_cases (kni : KniTable)
    (hrow : S.rowOf (S.table.arpTable r).dstIpAddr = some r) :
    ∃ S', (refreshCallback kni S r).2 = S' ∧ S'.arpUp = S.arpUp ∧
      S'.table.hashMapper.isSome = true ∧
      (((S.table.arpTable r).tryCount < 2 ∧ S'.rowOf = S.rowOf ∧
        S'.table.arpTable = Function.update S.table.arpTable r
          { S.table.arpTable r with tryCount := (S.table.arpTable r).tryCount + 1 } ∧
        S'.refreshTimer = Function.update S.refreshTimer r true) ∨
       (¬ (S.table.arpTable r).tryCount < 2 ∧
        S'.rowOf = Function.update S.rowOf (S.table.arpTable r).dstIpAddr none ∧
        S'.table.arpTable = Function.update S.table.arpTable r .cleared ∧
        S'.refreshTimer = Function.update S.refreshTimer r false)) := by
  have hentry := rowOf_eq_some_iff.mp hrow
  obtain ⟨t, ht⟩ : ∃ t, S.table.hashMapper = some t := by
    cases h : S.table.hashMapper with
    | none => simp [h] at hentry
    | some t => exact ⟨t, rfl⟩
  refine ⟨_, rfl, ?_, ?_, ?_⟩
  · unfold refreshCallback
    dsimp only
    split <;> rfl
  · unfold refreshCallback
    dsimp only
    split
    · change S.table.hashMapper.isSome = true
      rw [ht]
      rfl
    · change (D.arpHash.del S.table.hashMapper _).2.isSome = true
      rw [ht]
      rfl
  · unfold refreshCallback
    dsimp only
    by_cases htry : (S.table.arpTable r).tryCount < 2
    · rw [if_pos htry]
      exact Or.inl ⟨htry, rfl, rfl, rfl⟩
    · rw [if_neg htry]
      exact Or.inr ⟨htry, rowOf_withHash (x := none) (RteHash.del_of_entry hentry).2, rfl, rfl⟩

/-! ### Runs -/

/-- What is remembered of an address: its last accepted reply, and how often its
timer has expired since. -/
structure ArpRecord where
  macAddr : MacAddr
  srcIpAddr : PfmIpAddr
  expiries : Nat

/-- The table, and what has happened to it. -/
structure ArpRun (D : Dpdk) where
  state : ArpState D
  last : PfmIpAddr → Option ArpRecord

/-- Program start. -/
def ArpRun.init (D : Dpdk) : ArpRun D := ⟨ArpState.init D, fun _ => none⟩

/-- A reply is received, or the timer of a row expires. -/
inductive ArpEvent (D : Dpdk) where
  | reply (lib : ArpLib) (pkt : D.mbuf.Mbuf) (linkId : UInt16)
  | expiry (kni : KniTable) (r : Fin pfmArpTableEntries)

/-- One more expiry. -/
def ArpRecord.expire (rec : ArpRecord) : ArpRecord := { rec with expiries := rec.expiries + 1 }

/-- The record of an accepted reply. -/
def ArpRecord.ofReply {M : RteMbuf} (pkt : M.Mbuf) : ArpRecord :=
  ⟨arpSenderMac pkt, arpTargetIp pkt, 0⟩

/-- A timer expires only while it is running. -/
def arpStep (R : ArpRun D) : ArpEvent D → Option (ArpRun D)
  | .reply lib pkt linkId => do
      let (ret, S) ← pfmArpProcessReply lib R.state pkt linkId
      some ⟨S, if ret = 0 then
        Function.update R.last (arpSenderIp pkt) (some (ArpRecord.ofReply pkt)) else R.last⟩
  | .expiry kni r =>
      if R.state.refreshTimer r then
        let ip := (R.state.table.arpTable r).dstIpAddr
        some ⟨(refreshCallback kni R.state r).2,
          Function.update R.last ip ((R.last ip).map ArpRecord.expire)⟩
      else none

/-- The row is the one of the address, as its last reply and its expiries left it. -/
structure ArpRecord.Matches (rec : ArpRecord) (ip : PfmIpAddr) (e : PfmArpEntry) : Prop where
  dst : e.dstIpAddr = ip
  src : e.srcIpAddr = rec.srcIpAddr
  mac : e.macAddr = rec.macAddr
  tries : e.tryCount.toNat = rec.expiries
  live : rec.expiries < 3

/-- The hash, the rows, the timers and the record fit together. -/
structure ArpInv (R : ArpRun D) : Prop where
  hash : R.state.arpUp = true → R.state.table.hashMapper.isSome = true
  down : R.state.arpUp = false → R.state.Blank ∧ ∀ ip, R.last ip = none
  kept : ∀ ip r, R.state.rowOf ip = some r → R.state.refreshTimer r = true ∧
    ∃ rec, R.last ip = some rec ∧ rec.Matches ip (R.state.table.arpTable r)
  gone : ∀ ip rec, R.state.rowOf ip = none → R.last ip = some rec → 3 ≤ rec.expiries
  timed : ∀ r, R.state.refreshTimer r = true →
    R.state.rowOf (R.state.table.arpTable r).dstIpAddr = some r

theorem ArpInv.init : ArpInv (ArpRun.init D) where
  hash h := by cases h
  down _ := ⟨⟨fun _ => rfl, fun _ => rfl⟩, fun _ => rfl⟩
  kept ip r h := by cases h
  gone ip rec _ h := by cases h
  timed r h := by cases h

/-- Setting a blank table up changes nothing that is remembered. -/
theorem ArpInv.started {last : PfmIpAddr → Option ArpRecord} (h : ArpInv ⟨S, last⟩)
    {S₁ : ArpState D} (hs : ArpStarted S S₁) : ArpInv ⟨S₁, last⟩ := by
  rcases hs.same with rfl | ⟨hdown, hblank⟩
  · exact h
  · have hlast : ∀ ip, last ip = none := (h.down hdown).2
    exact {
      hash := fun _ => hs.hash
      down := fun _ => ⟨hblank, hlast⟩
      kept := fun ip r hr => by simp [hblank.rows ip] at hr
      gone := fun ip rec _ hl => by simp [hlast ip] at hl
      timed := fun r ht => by simp [hblank.timers r] at ht }

/-- Only the row `r`, and what is known of the address `ip`, has changed; the row was the
one of the address, or nobody's. -/
theorem ArpInv.changed {last : PfmIpAddr → Option ArpRecord} (h : ArpInv ⟨S, last⟩)
    {x : Option (Fin pfmArpTableEntries)} {row : PfmArpEntry} {timer : Bool} {rec : ArpRecord}
    (place : S.rowOf ip = some r ∨ (S.rowOf ip = none ∧ ∀ ip, S.rowOf ip ≠ some r))
    (hash : S'.table.hashMapper.isSome = true) (up : S'.arpUp = true)
    (rows : S'.rowOf = Function.update S.rowOf ip x)
    (table : S'.table.arpTable = Function.update S.table.arpTable r row)
    (timers : S'.refreshTimer = Function.update S.refreshTimer r timer)
    (hkept : ∀ r', x = some r' → r' = r ∧ timer = true ∧ rec.Matches ip row)
    (hgone : x = none → 3 ≤ rec.expiries)
    (htimed : timer = true → x = some r ∧ row.dstIpAddr = ip) :
    ArpInv ⟨S', Function.update last ip (some rec)⟩ := by
  refine ⟨fun _ => hash, fun hdown => ?_, ?_, ?_, ?_⟩
  · rw [up] at hdown
    cases hdown
  · intro ip' r' hr'
    simp only [rows, table, timers] at hr' ⊢
    by_cases hne : ip' = ip
    · subst hne
      rw [Function.update_self] at hr'
      obtain ⟨rfl, htimer, hmatch⟩ := hkept r' hr'
      simp only [Function.update_self]
      exact ⟨htimer, rec, rfl, hmatch⟩
    · rw [Function.update_of_ne hne] at hr'
      have hother := rowOf_ne (place.imp_right And.right) hne hr'
      rw [Function.update_of_ne hother, Function.update_of_ne hother, Function.update_of_ne hne]
      exact h.kept ip' r' hr'
  · intro ip' rec' hnone hl
    simp only [rows] at hnone hl
    by_cases hne : ip' = ip
    · subst hne
      rw [Function.update_self] at hnone hl
      obtain rfl := Option.some.inj hl
      exact hgone hnone
    · rw [Function.update_of_ne hne] at hnone hl
      exact h.gone ip' rec' hnone hl
  · intro r' ht
    simp only [rows, table, timers] at ht ⊢
    by_cases hr : r' = r
    · subst hr
      rw [Function.update_self] at ht ⊢
      obtain ⟨hx, hdst⟩ := htimed ht
      rw [hdst, Function.update_self, hx]
    · rw [Function.update_of_ne hr] at ht ⊢
      have hold : S.rowOf (S.table.arpTable r').dstIpAddr = some r' := h.timed r' ht
      have hne : (S.table.arpTable r').dstIpAddr ≠ ip := by
        intro heq
        rw [heq] at hold
        rcases place with hpres | ⟨habs, -⟩
        · exact hr (Option.some.inj (hold.symm.trans hpres))
        · rw [habs] at hold
          cases hold
      rw [Function.update_of_ne hne]
      exact hold

/-- **A reply** on a table that is up keeps the invariant. -/
theorem ArpInv.reply {last : PfmIpAddr → Option ArpRecord} (h : ArpInv ⟨S, last⟩)
    (hup : S'.arpUp = true) (hhash : S'.table.hashMapper.isSome = true)
    {pkt : D.mbuf.Mbuf} {ret : Int} (hout : ArpReplyOutcome S pkt ret S') :
    ArpInv ⟨S', if ret = 0 then
      Function.update last (arpSenderIp pkt) (some (ArpRecord.ofReply pkt)) else last⟩ := by
  cases hout with
  | rejected _ absent full rows table timers =>
      rw [if_neg (by decide)]
      exact {
        hash := fun _ => hhash
        down := fun hdown => by
          rw [hup] at hdown
          cases hdown
        kept := fun ip r hr => by
          simp only [rows, table, timers] at hr ⊢
          exact h.kept ip r hr
        gone := fun ip rec hnone hl => h.gone ip rec (rows ▸ hnone) hl
        timed := fun r ht => by
          simp only [rows, table, timers] at ht ⊢
          exact h.timed r ht }
  | accepted _ r place rows table timers =>
      rw [if_pos rfl]
      refine h.changed place hhash hup rows table timers ?_ (fun hnone => by cases hnone) ?_
      · intro r' hr'
        obtain rfl := Option.some.inj hr'
        exact ⟨rfl, rfl, ⟨rfl, rfl, rfl, rfl, by simp [ArpRecord.ofReply]⟩⟩
      · exact fun _ => ⟨rfl, rfl⟩

/-- An expiry that asks once more leaves the row in place. -/
theorem ArpInv.retried {last : PfmIpAddr → Option ArpRecord} (h : ArpInv ⟨S, last⟩)
    {rec : ArpRecord} (hrow : S.rowOf ip = some r) (hip : (S.table.arpTable r).dstIpAddr = ip)
    (hmatch : rec.Matches ip (S.table.arpTable r)) (htry : (S.table.arpTable r).tryCount < 2)
    (hash : S'.table.hashMapper.isSome = true) (up : S'.arpUp = true)
    (rows : S'.rowOf = S.rowOf)
    (table : S'.table.arpTable = Function.update S.table.arpTable r
      { S.table.arpTable r with tryCount := (S.table.arpTable r).tryCount + 1 })
    (timers : S'.refreshTimer = Function.update S.refreshTimer r true) :
    ArpInv ⟨S', Function.update last ip (some rec.expire)⟩ := by
  have hlt : rec.expiries < 2 := by
    have := UInt8.lt_iff_toNat_lt.mp htry
    rw [hmatch.tries] at this
    simpa using this
  have hrows : S'.rowOf = Function.update S.rowOf ip (some r) := by
    rw [rows, ← hrow, Function.update_eq_self]
  refine h.changed (Or.inl hrow) hash up hrows table timers ?_ (fun hnone => by cases hnone) ?_
  · intro r' hr'
    obtain rfl := Option.some.inj hr'
    refine ⟨rfl, rfl, ⟨hmatch.dst, hmatch.src, hmatch.mac, ?_, ?_⟩⟩
    · have htries := hmatch.tries
      simp only [ArpRecord.expire, UInt8.toNat_add, UInt8.toNat_one]
      omega
    · simp only [ArpRecord.expire]
      omega
  · exact fun _ => ⟨rfl, hip⟩

/-- The third expiry clears the row and forgets the address. -/
theorem ArpInv.cleared {last : PfmIpAddr → Option ArpRecord} (h : ArpInv ⟨S, last⟩)
    {rec : ArpRecord} (hrow : S.rowOf ip = some r)
    (hmatch : rec.Matches ip (S.table.arpTable r)) (htry : ¬ (S.table.arpTable r).tryCount < 2)
    (hash : S'.table.hashMapper.isSome = true) (up : S'.arpUp = true)
    (rows : S'.rowOf = Function.update S.rowOf ip none)
    (table : S'.table.arpTable = Function.update S.table.arpTable r .cleared)
    (timers : S'.refreshTimer = Function.update S.refreshTimer r false) :
    ArpInv ⟨S', Function.update last ip (some rec.expire)⟩ := by
  have hge : 2 ≤ rec.expiries := by
    have hnot := mt UInt8.lt_iff_toNat_lt.mpr htry
    rw [hmatch.tries] at hnot
    exact Nat.le_of_not_lt hnot
  refine h.changed (Or.inl hrow) hash up rows table timers (fun r' hr' => by cases hr') ?_
    (fun hon => by cases hon)
  intro _
  simp only [ArpRecord.expire]
  omega

/-- **An expiry** of a running timer keeps the invariant. -/
theorem ArpInv.expiry {last : PfmIpAddr → Option ArpRecord} (h : ArpInv ⟨S, last⟩)
    (kni : KniTable) (htimer : S.refreshTimer r = true) :
    ArpInv ⟨(refreshCallback kni S r).2, Function.update last (S.table.arpTable r).dstIpAddr
      ((last (S.table.arpTable r).dstIpAddr).map ArpRecord.expire)⟩ := by
  have hrow : S.rowOf (S.table.arpTable r).dstIpAddr = some r := h.timed r htimer
  have hup : S.arpUp = true := by
    by_contra hdown
    have hblank := (h.down (Bool.eq_false_iff.mpr hdown)).1
    rw [hblank.timers r] at htimer
    cases htimer
  obtain ⟨_, rec, hlast, hmatch⟩ := h.kept _ r hrow
  obtain ⟨S', hS', hup', hhash', hcases⟩ := refreshCallback_cases kni hrow
  simp only at hlast hmatch
  rw [hS', hlast]
  rcases hcases with ⟨htry, rows, table, timers⟩ | ⟨htry, rows, table, timers⟩
  · exact h.retried hrow rfl hmatch htry hhash' (hup'.trans hup) rows table timers
  · exact h.cleared hrow hmatch htry hhash' (hup'.trans hup) rows table timers

/-- Every step keeps the invariant. -/
theorem ArpInv.step (hacc : D.arpHash.Accepts) (hfull : D.arpHash.RefusesFull)
    {R R' : ArpRun D} {e : ArpEvent D} (h : ArpInv R) (hstep : arpStep R e = some R') :
    ArpInv R' := by
  obtain ⟨S, last⟩ := R
  cases e with
  | reply lib pkt linkId =>
      obtain ⟨ret, S', hrun, hcases⟩ := pfmArpProcessReply_cases hacc hfull h.hash
        (fun hdown => (h.down hdown).1) lib pkt linkId
      have hR' : R' = ⟨S', if ret = 0 then
          Function.update last (arpSenderIp pkt) (some (ArpRecord.ofReply pkt)) else last⟩ := by
        simp only [arpStep, hrun] at hstep
        exact (Option.some.inj hstep).symm
      rw [hR']
      rcases hcases with ⟨rfl, hdown, hdown', hblank, _⟩ | ⟨S₁, hs, hup', hhash', hout⟩
      · have hlast : ∀ ip, last ip = none := (h.down hdown).2
        rw [if_neg (by decide)]
        exact {
          hash := fun hup => by simp [hdown'] at hup
          down := fun _ => ⟨hblank, hlast⟩
          kept := fun ip r hr => by simp [hblank.rows ip] at hr
          gone := fun ip rec _ hl => by simp [hlast ip] at hl
          timed := fun r ht => by simp [hblank.timers r] at ht }
      · exact (h.started hs).reply hup' hhash' hout
  | expiry kni r =>
      simp only [arpStep] at hstep
      split at hstep
      · rename_i htimer
        obtain rfl := Option.some.inj hstep
        exact h.expiry kni htimer
      · cases hstep

/-! ### What the table answers -/

/-- The same rows, contents and timers. -/
structure SameArp (S S' : ArpState D) : Prop where
  up : S'.arpUp = S.arpUp
  rows : S'.rowOf = S.rowOf
  table : S'.table.arpTable = S.table.arpTable
  timers : S'.refreshTimer = S.refreshTimer

/-- The table answers what the record says, and the next reply or expiry touches the
row of its own address alone. -/
structure ArpAnswers (R : ArpRun D) : Prop where
  present : ∀ ip, (pfmArpQuery R.state.table ip).isSome = true ↔
    ∃ rec, R.last ip = some rec ∧ rec.expiries < 3
  content : ∀ ip e, pfmArpQuery R.state.table ip = some e → e.dstIpAddr = ip ∧
    ∃ rec, R.last ip = some rec ∧ e.macAddr = rec.macAddr ∧ e.srcIpAddr = rec.srcIpAddr
  reply : ∀ pkt linkId, ∃ ret S', pfmArpProcessReply .ok R.state pkt linkId = some (ret, S') ∧
    (ret = 0 ∨ ret = -1) ∧
    (ret = -1 ↔ pfmArpQuery R.state.table (arpSenderIp pkt) = none ∧
      ∀ r, ∃ ip, R.state.rowOf ip = some r) ∧
    (ret = -1 → SameArp R.state S') ∧
    ∀ ip, ip ≠ arpSenderIp pkt → pfmArpQuery S'.table ip = pfmArpQuery R.state.table ip
  expiry : ∀ kni r, R.state.refreshTimer r = true →
    R.state.rowOf (R.state.table.arpTable r).dstIpAddr = some r ∧
    ∀ ip, ip ≠ (R.state.table.arpTable r).dstIpAddr →
      pfmArpQuery (refreshCallback kni R.state r).2.table ip = pfmArpQuery R.state.table ip

/-- Other addresses read their own rows, and these did not change. -/
theorem pfmArpQuery_frame {ip₀ : PfmIpAddr} {x : Option (Fin pfmArpTableEntries)}
    {e : PfmArpEntry} (hrows : S'.rowOf = Function.update S.rowOf ip₀ x)
    (htable : S'.table.arpTable = Function.update S.table.arpTable r e)
    (hown : S.rowOf ip₀ = some r ∨ ∀ ip, S.rowOf ip ≠ some r) (hne : ip ≠ ip₀) :
    pfmArpQuery S'.table ip = pfmArpQuery S.table ip := by
  rw [pfmArpQuery_eq, pfmArpQuery_eq, hrows, Function.update_of_ne hne]
  cases hrow : S.rowOf ip with
  | none => rfl
  | some r' =>
      rw [Option.map_some, Option.map_some, htable,
        Function.update_of_ne (rowOf_ne hown hne hrow)]

theorem ArpInv.answers (hacc : D.arpHash.Accepts) (hfull : D.arpHash.RefusesFull)
    {R : ArpRun D} (h : ArpInv R) : ArpAnswers R := by
  refine ⟨?_, ?_, ?_, ?_⟩
  · intro ip
    rw [pfmArpQuery_eq, Option.isSome_map]
    cases hrow : R.state.rowOf ip with
    | none =>
        refine iff_of_false (by simp) fun hex => ?_
        obtain ⟨rec, hlast, hlt⟩ := hex
        have := h.gone ip rec hrow hlast
        omega
    | some r =>
        obtain ⟨_, rec, hlast, hmatch⟩ := h.kept ip r hrow
        exact iff_of_true rfl ⟨rec, hlast, hmatch.live⟩
  · intro ip e hq
    rw [pfmArpQuery_eq] at hq
    obtain ⟨r, hrow, rfl⟩ := Option.map_eq_some_iff.mp hq
    obtain ⟨_, rec, hlast, hmatch⟩ := h.kept ip r hrow
    exact ⟨hmatch.dst, rec, hlast, hmatch.mac, hmatch.src⟩
  · intro pkt linkId
    obtain ⟨ret, S', hrun, hcases⟩ := pfmArpProcessReply_cases hacc hfull h.hash
      (fun hdown => (h.down hdown).1) .ok pkt linkId
    refine ⟨ret, S', hrun, ?_⟩
    rcases hcases with ⟨_, _, _, _, hlib⟩ | ⟨S₁, hs, hup', _, hout⟩
    · exact absurd rfl hlib
    · -- A blank table knows as little as one that is not set up.
      have hrows₁ : ∀ ip, S₁.rowOf ip = R.state.rowOf ip := by
        intro ip
        rcases hs.same with rfl | ⟨hdown, hblank⟩
        · rfl
        · rw [hblank.rows, (h.down hdown).1.rows]
      have hquery₁ : ∀ ip, pfmArpQuery S₁.table ip = pfmArpQuery R.state.table ip := by
        intro ip
        rcases hs.same with rfl | ⟨hdown, hblank⟩
        · rfl
        · rw [pfmArpQuery_eq, pfmArpQuery_eq, hblank.rows, (h.down hdown).1.rows]
          rfl
      cases hout with
      | rejected _ absent full rows table timers =>
          have hsame : S₁ = R.state := by
            rcases hs.same with hsame | ⟨_, hblank⟩
            · exact hsame
            · obtain ⟨ip, hip⟩ := full ⟨0, by decide⟩
              rw [hblank.rows] at hip
              cases hip
          subst hsame
          refine ⟨Or.inr rfl, iff_of_true rfl ⟨?_, full⟩, fun _ => ?_, fun ip _ => ?_⟩
          · rw [pfmArpQuery_eq, absent]
            rfl
          · exact ⟨hup'.trans hs.up.symm, rows, table, timers⟩
          · rw [pfmArpQuery_eq, pfmArpQuery_eq, rows, table]
      | accepted _ r place rows table timers =>
          refine ⟨Or.inl rfl, iff_of_false (by decide) fun hno => ?_, nofun, fun ip hip => ?_⟩
          · obtain ⟨hnone, hall⟩ := hno
            rw [pfmArpQuery_eq, Option.map_eq_none_iff] at hnone
            obtain ⟨ip, hip⟩ := hall r
            rw [← hrows₁] at hip hnone
            rcases place with hpres | ⟨_, hfree⟩
            · rw [hpres] at hnone
              cases hnone
            · exact hfree ip hip
          · rw [← hquery₁]
            exact pfmArpQuery_frame rows table (place.imp_right And.right) hip
  · intro kni r htimer
    have hrow := h.timed r htimer
    refine ⟨hrow, fun ip hip => ?_⟩
    obtain ⟨S', hS', _, _, ⟨_, rows, table, _⟩ | ⟨_, rows, table, _⟩⟩ :=
      refreshCallback_cases kni hrow
    · rw [hS']
      refine pfmArpQuery_frame (x := some r) ?_ table (Or.inl hrow) hip
      rw [rows, ← hrow, Function.update_eq_self]
    · rw [hS']
      exact pfmArpQuery_frame rows table (Or.inl hrow) hip

/-- **The history of the table.**  After any replies and expiries the table answers
for an address exactly when a reply of it was accepted and its timer has expired less
than three times since, and then with what that reply said. -/
theorem arp_history (hacc : D.arpHash.Accepts) (hfull : D.arpHash.RefusesFull)
    {events : List (ArpEvent D)} {R : ArpRun D}
    (hrun : exec arpStep (ArpRun.init D) events = some R) : ArpAnswers R :=
  (exec_invariant (fun _ _ _ hinv hstep => hinv.step hacc hfull hstep) ArpInv.init
    hrun).answers hacc hfull

/-- A reply of the UPF to the CU-UP. -/
def upfReply : listDpdk.mbuf.Mbuf :=
  ⟨{ mtod := 8192
     headroom := 128
     dataLen := 42
     tailroom := 1878
     byte := fun i =>
       if i = 28 ∨ i = 38 then 10 else if i = 31 then 2 else if i = 41 then 1 else 0
     chained := []
     port := 0
     olFlags := 0 }, by decide⟩

theorem arp_history_upfReply :
    ∃ R, exec arpStep (ArpRun.init listDpdk)
        [.reply .ok upfReply 3, .expiry ⟨[], by decide⟩ 0] = some R ∧ ArpAnswers R := by
  have hsome : (exec arpStep (ArpRun.init listDpdk)
      [.reply .ok upfReply 3, .expiry ⟨[], by decide⟩ 0]).isSome = true := by decide
  obtain ⟨R, hR⟩ := Option.isSome_iff_exists.mp hsome
  exact ⟨R, hR, arp_history (listHash_accepts _ _ _) (listHash_refusesFull _ _ _) hR⟩

end Pfm
