import Pfm.LinkOpen
import Pfm.RoundRobin

/-!
# Reading the links

`link_read` of `pfm_link.c` polls the open links in turn, with a cursor that it keeps
between calls.  Links are opened meanwhile, and the link monitor writes their states.

* `LinkReadInv` : the cursor is behind the link served last, and an entry that is not
  in use yet is not configured;
* `LinkReadInv.turn` : what a call polls, and what it returns.
-/

namespace Pfm

open BoundedLoop StepSystem RoundRobin

variable {Pkt : Type}

/-- One round of `link_statemonitor_pthread_func`.  `up` is what
`rte_eth_link_get_nowait` tells of a port. -/
def linkMonitor (up : UInt16 → Bool) (T : LinkTable) : Option LinkTable :=
  forRange (fun i T => do
    let info ← T.linkInfoList.get? i
    let currState : OpsState := if up info.linkId then .enabled else .disabled
    if currState ≠ info.opsState then do
      let list ← T.linkInfoList.set? i { info with opsState := currState }
      some { T with linkInfoList := list }
    else some T) T.linkCount T

/-- `rx` is what `rte_eth_rx_burst` receives from a port.  The state of the loop is
what was stored in `*link_id`. -/
def linkRead (T : LinkTable) (rx : UInt16 → List Pkt) (nextRead : Nat) :
    Option (Outcome (Option UInt16) Pkt) :=
  loop (fun i linkId => do
    let info ← T.linkInfoList.get? i
    if info.opsState = .enabled then some (some info.linkId, some (rx info.linkId))
    else some (linkId, none)) T.linkCount nextRead maxLinkCount nextRead none

/-- What an open link has to be read, if it is enabled. -/
def linkPoll (T : LinkTable) (rx : UInt16 → List Pkt) (i : Nat) : Option (List Pkt) :=
  if i < T.linkCount then do
    let info ← T.linkInfoList.get? i
    if info.opsState = .enabled then some (rx info.linkId) else none
  else none

/-! ### Runs -/

/-- The links and the cursor. -/
structure LinkReadRun where
  table : LinkTable
  cursor : Cursor

/-- Program start. -/
def LinkReadRun.init : LinkReadRun := ⟨LinkTable.init, Cursor.init⟩

/-- A link opened, the monitor, or a call of `link_read`. -/
inductive LinkReadEvent (Pkt : Type) where
  | opened (c : LinkOpenCall)
  | monitor (up : UInt16 → Bool)
  | read (rx : UInt16 → List Pkt)

def linkReadStep (E : RteEthdev) (R : LinkReadRun) : LinkReadEvent Pkt → Option LinkReadRun
  | .opened c => (pfmLinkOpen E c.rets R.table c.linkName).map fun out =>
      { R with table := out.2.1 }
  | .monitor up => (linkMonitor up R.table).map fun T => { R with table := T }
  | .read rx => (linkRead R.table rx R.cursor.next).map fun out =>
      { R with cursor := R.cursor.after R.table.linkCount out }

/-- A call polls the enabled links in turn, and returns the id of the link served.
Nothing else that happens ends the run. -/
def LinkReadInTurn (E : RteEthdev) (start : LinkReadRun → Nat) (R : LinkReadRun) :
    LinkReadEvent Pkt → Prop
  | .read rx => ∃ out, linkRead R.table rx R.cursor.next = some out ∧
      InTurn (linkPoll R.table rx) R.table.linkCount (start R) out ∧
      ∀ i burst, out.got = some (i, burst) →
        out.state = (R.table.linkInfoList.get? i).map LinkInfo.linkId
  | e => (linkReadStep E R e).isSome

/-- Behind the link served last, among those open then. -/
def LinkReadRun.startThen (R : LinkReadRun) : Nat := RoundRobin.startThen R.cursor.served

/-- Behind the link served last, among those open now. -/
def LinkReadRun.startNow (R : LinkReadRun) : Nat :=
  RoundRobin.startNow R.table.linkCount R.cursor.served

/-- An entry that is not in use yet. -/
def Fresh (T : LinkTable) : Prop :=
  ∀ i info, T.linkCount ≤ i → T.linkInfoList.get? i = some info → info.opsState = .notConfigured

structure LinkReadInv (R : LinkReadRun) : Prop where
  places : Places R.table
  fresh : Fresh R.table
  cursor : R.cursor.Valid R.table.linkCount

theorem LinkReadInv.init : LinkReadInv LinkReadRun.init where
  places _ hi := absurd hi (Nat.not_lt_zero _)
  fresh _ _ _ hget := by
    obtain ⟨-, rfl⟩ := CArray.get?_eq_some_iff.mp hget
    rfl
  cursor := Cursor.Valid.init 0

/-! ### The states of the links -/

/-- No entry has got another state. -/
def SameOps (T T' : LinkTable) : Prop :=
  ∀ i info', T'.linkInfoList.get? i = some info' →
    ∃ info, T.linkInfoList.get? i = some info ∧ info'.opsState = info.opsState

theorem SameOps.rfl {T : LinkTable} : SameOps T T := fun _ info hget => ⟨info, hget, Eq.refl _⟩

theorem SameOps.trans {T T' T'' : LinkTable} (h : SameOps T T') (h' : SameOps T' T'') :
    SameOps T T'' := by
  intro i info'' hget''
  obtain ⟨info', hget', hops'⟩ := h' i info'' hget''
  obtain ⟨info, hget, hops⟩ := h i info' hget'
  exact ⟨info, hget, hops'.trans hops⟩

theorem SameOps.of_set {T : LinkTable} {idx : Nat} {old new : LinkInfo}
    {list : CArray maxLinkCount LinkInfo} {count : Nat}
    (hold : T.linkInfoList.get? idx = some old) (hset : T.linkInfoList.set? idx new = some list)
    (hops : new.opsState = old.opsState) : SameOps T ⟨list, count⟩ := by
  intro i info' hget
  have hget := (CArray.get?_set? hset i).symm.trans hget
  split at hget
  · rename_i heq
    subst heq
    obtain rfl := Option.some.inj hget
    exact ⟨old, hold, hops⟩
  · exact ⟨info', hget, Eq.refl _⟩

theorem readDevice_opsState (E : RteEthdev) (rets : EthRets) (port : UInt16) (info : LinkInfo) :
    (readDevice E rets port info).1.opsState = info.opsState := by
  unfold readDevice
  dsimp only
  split <;> rfl

theorem linkStart_sameOps {E : RteEthdev} {rets : EthRets} {T T' : LinkTable} {linkId : Nat}
    {up : Bool} {calls : List EthCall} (h : linkStart E rets T linkId = some (up, T', calls)) :
    SameOps T T' := by
  obtain ⟨found, -, h⟩ := Option.bind_eq_some_iff.mp h
  cases found with
  | none =>
      obtain ⟨-, rfl, -⟩ : _ ∧ T = T' ∧ _ := by simpa using h
      exact SameOps.rfl
  | some idx =>
      dsimp only at h
      split at h
      · obtain ⟨-, rfl, -⟩ : _ ∧ T = T' ∧ _ := by simpa using h
        exact SameOps.rfl
      · obtain ⟨info, hget, h⟩ := Option.bind_eq_some_iff.mp h
        obtain ⟨list, hset, h⟩ := Option.bind_eq_some_iff.mp h
        obtain ⟨-, rfl, -⟩ : _ ∧ (⟨list, T.linkCount⟩ : LinkTable) = T' ∧ _ := by simpa using h
        exact SameOps.of_set hget hset (readDevice_opsState _ _ _ _)

theorem pfmLinkOpen_sameOps {E : RteEthdev} {rets : EthRets} {T T' : LinkTable} {linkName : CStr}
    {ret : Int} {calls : List EthCall}
    (h : pfmLinkOpen E rets T linkName = some (ret, T', calls)) : SameOps T T' := by
  obtain ⟨found, -, h⟩ := Option.bind_eq_some_iff.mp h
  cases found with
  | some i =>
      obtain ⟨info, -, h⟩ := Option.map_eq_some_iff.mp h
      obtain ⟨-, rfl, -⟩ : _ ∧ T = T' ∧ _ := by simpa using h
      exact SameOps.rfl
  | none =>
  dsimp only at h
  split at h
  · obtain ⟨-, rfl, -⟩ : _ ∧ T = T' ∧ _ := by simpa using h
    exact SameOps.rfl
  split at h
  · obtain ⟨-, rfl, -⟩ : _ ∧ T = T' ∧ _ := by simpa using h
    exact SameOps.rfl
  · obtain ⟨info, hget, h⟩ := Option.bind_eq_some_iff.mp h
    obtain ⟨list, hset, h⟩ := Option.bind_eq_some_iff.mp h
    obtain ⟨⟨up, T₁, calls'⟩, hstart, h⟩ := Option.bind_eq_some_iff.mp h
    have hops : SameOps T T₁ :=
      (SameOps.of_set hget hset (Eq.refl _)).trans (linkStart_sameOps hstart)
    -- the table is that of `link_start`, with one more link or not
    split at h
    · obtain ⟨-, rfl, -⟩ : _ ∧ (⟨T₁.linkInfoList, T.linkCount + 1⟩ : LinkTable) = T' ∧ _ := by
        simpa using h
      exact hops
    · obtain ⟨-, rfl, -⟩ : _ ∧ T₁ = T' ∧ _ := by simpa using h
      exact hops

/-! ### The steps -/

section step

variable {E : RteEthdev} {R : LinkReadRun}

theorem Fresh.mono {T T' : LinkTable} (h : Fresh T) (hops : SameOps T T')
    (hcount : T.linkCount ≤ T'.linkCount) : Fresh T' := by
  intro i info' hi hget'
  obtain ⟨info, hget, heq⟩ := hops i info' hget'
  rw [heq]
  exact h i info (Nat.le_trans hcount hi) hget

/-- What opening a link does to the list. -/
theorem Places.opened {T : LinkTable} (h : Places T) (E : RteEthdev) (c : LinkOpenCall) :
    ∃ ret T' calls, pfmLinkOpen E c.rets T c.linkName = some (ret, T', calls) ∧ Places T' ∧
      T.linkCount ≤ T'.linkCount := by
  obtain ⟨ret, T', calls, hrun, hout⟩ := pfmLinkOpen_cases (E := E) h c
  refine ⟨ret, T', calls, hrun, ?_⟩
  cases hout with
  | reused => exact ⟨h, Nat.le_refl _⟩
  | refused _ _ _ _ _ _ count rest => exact ⟨h.kept count rest, Nat.le_of_eq count.symm⟩
  | added _ _ info _ _ count rest entry _ id =>
      exact ⟨h.added count rest entry id, count ▸ Nat.le_succ _⟩

/-- The monitor writes the states of the open links only. -/
theorem linkMonitor_cases {T : LinkTable} (hplaces : Places T) (hfresh : Fresh T)
    (up : UInt16 → Bool) :
    ∃ T', linkMonitor up T = some T' ∧ T'.linkCount = T.linkCount ∧ Places T' ∧ Fresh T' := by
  refine forRange_isSome (fun _ T' => T'.linkCount = T.linkCount ∧ Places T' ∧ Fresh T')
    ⟨rfl, hplaces, hfresh⟩ ?_
  intro i T₁ hi hinv
  obtain ⟨hcount, hplaces₁, hfresh₁⟩ := hinv
  obtain ⟨info, hget, hid⟩ := hplaces₁ i (hcount ▸ hi)
  rw [hget, Option.bind_eq_bind, Option.bind_some]
  generalize (if up info.linkId then OpsState.enabled else .disabled) = currState
  dsimp only
  split
  swap
  · exact ⟨T₁, rfl, hcount, hplaces₁, hfresh₁⟩
  have hset := CArray.set?_of_lt T₁.linkInfoList (CArray.lt_of_get? hget)
    { info with opsState := currState }
  rw [hset]
  refine ⟨_, rfl, hcount, fun j hj => ?_, fun j info' hj hget' => ?_⟩
  · dsimp only
    rw [CArray.get?_set? hset]
    split
    · rename_i heq
      subst heq
      exact ⟨_, rfl, hid⟩
    · exact hplaces₁ j hj
  · have hget' := (CArray.get?_set? hset j).symm.trans hget'
    rw [if_neg] at hget'
    · exact hfresh₁ j info' hj hget'
    · intro heq
      have hj : T₁.linkCount ≤ j := hj
      omega

/-- There are no more links than the list has room for. -/
theorem Places.count_le {T : LinkTable} (h : Places T) : T.linkCount ≤ maxLinkCount := by
  by_contra hmore
  obtain ⟨info, hget, -⟩ := h maxLinkCount (Nat.not_le.mp hmore)
  exact absurd (CArray.lt_of_get? hget) (Nat.lt_irrefl _)

/-- A turn at a link. -/
theorem LinkReadInv.visit (h : LinkReadInv R) (rx : UInt16 → List Pkt) {i : Nat}
    (hi : i < max R.table.linkCount 1) (linkId : Option UInt16) :
    ∃ linkId', ((R.table.linkInfoList.get? i).bind fun info =>
        if info.opsState = .enabled then some (some info.linkId, some (rx info.linkId))
        else some (linkId, none)) = some (linkId', linkPoll R.table rx i) ∧
      ((linkPoll R.table rx i).isSome →
        linkId' = (R.table.linkInfoList.get? i).map LinkInfo.linkId) := by
  have hroom : i < maxLinkCount :=
    Nat.lt_of_lt_of_le hi (Nat.max_le.mpr ⟨h.places.count_le, by decide⟩)
  obtain ⟨info, hget⟩ : ∃ info, R.table.linkInfoList.get? i = some info :=
    ⟨_, CArray.get?_of_lt _ hroom⟩
  rw [linkPoll, hget, Option.bind_some, Option.bind_eq_bind, Option.bind_some]
  by_cases henabled : info.opsState = .enabled
  · -- an enabled entry is that of an open link
    have hopen : i < R.table.linkCount := by
      by_contra hno
      rw [h.fresh i info (Nat.not_lt.mp hno) hget] at henabled
      cases henabled
    rw [if_pos henabled, if_pos hopen, if_pos henabled]
    exact ⟨_, rfl, fun _ => rfl⟩
  · rw [if_neg henabled, if_neg henabled, ite_self]
    exact ⟨linkId, rfl, fun hsome => by cases hsome⟩

/-- **One call.**  It ends and polls the enabled links in turn. -/
theorem LinkReadInv.turn (h : LinkReadInv R) (rx : UInt16 → List Pkt) :
    LinkReadInTurn E LinkReadRun.startThen R (.read rx) := by
  have hfuel : max R.table.linkCount 1 ≤ maxLinkCount :=
    Nat.max_le.mpr ⟨h.places.count_le, by decide⟩
  obtain ⟨linkId, is, hloop, -, hpost⟩ := loop_eq (linkPoll R.table rx)
    (fun is _ => ∀ i ∈ is, i < max R.table.linkCount 1)
    (fun i linkId => (linkPoll R.table rx i).isSome →
      linkId = (R.table.linkInfoList.get? i).map LinkInfo.linkId)
    (by
      intro i is linkId hok
      obtain ⟨linkId', hvisit, hstored⟩ := h.visit rx (hok i List.mem_cons_self) linkId
      exact ⟨linkId', hvisit, fun j hj => hok j (List.mem_cons_of_mem i hj), hstored⟩)
    h.cursor.lt hfuel (s := none) (fun i hi => mem_order.mp hi)
  refine ⟨_, hloop, ?_, fun i burst hgot => ?_⟩
  · rw [LinkReadRun.startThen, ← h.cursor.next]
    exact Outcome.of_inTurn h.cursor.lt linkId
  · refine hpost i burst hgot ?_
    rw [(serve_some hgot).1]
    rfl

/-- What happens to the links does not end a run, and every call polls them in turn. -/
theorem LinkReadInv.step (h : LinkReadInv R) (e : LinkReadEvent Pkt) :
    LinkReadInTurn E LinkReadRun.startThen R e ∧
      ∀ R', linkReadStep E R e = some R' → LinkReadInv R' := by
  cases e with
  | opened c =>
      obtain ⟨ret, T, calls, hrun, hplaces, hcount⟩ := h.places.opened E c
      have hstep : linkReadStep E R (.opened c : LinkReadEvent Pkt) = some ⟨T, R.cursor⟩ := by
        rw [linkReadStep, hrun]
        rfl
      refine ⟨Option.isSome_of_eq_some hstep, (forall_next hstep).mpr ?_⟩
      exact ⟨hplaces, h.fresh.mono (pfmLinkOpen_sameOps hrun) hcount, h.cursor.mono hcount⟩
  | monitor up =>
      obtain ⟨T, hrun, hcount, hplaces, hfresh⟩ := linkMonitor_cases h.places h.fresh up
      have hstep : linkReadStep E R (.monitor up : LinkReadEvent Pkt) = some ⟨T, R.cursor⟩ := by
        rw [linkReadStep, hrun]
        rfl
      refine ⟨Option.isSome_of_eq_some hstep, (forall_next hstep).mpr ?_⟩
      exact ⟨hplaces, hfresh, h.cursor.mono (Nat.le_of_eq hcount.symm)⟩
  | read rx =>
      have hturn := h.turn (E := E) rx
      refine ⟨hturn, fun R' hstep => ?_⟩
      obtain ⟨out, hrun, hout, -⟩ := hturn
      rw [linkReadStep, hrun] at hstep
      obtain rfl := Option.some.inj hstep
      rw [LinkReadRun.startThen, ← h.cursor.next] at hout
      exact ⟨h.places, h.fresh, h.cursor.after hout⟩

end step

end Pfm
