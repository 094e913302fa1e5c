import Pfm.Link
import Pfm.StepSystem

/-!
# Opening links

Calls of `pfm_link_open` one after the other, next to the calls made of
`rte_ethdev` and the links opened by name.

* `LinkOpenInv` : a link has its place in the list for its port id, and its entry tells
  what its device is;
* `linkOpen_right_iff` : every call of a run does what it should exactly when no
  call opens a link whose name is longer than the list can keep.
-/

namespace Pfm

open BoundedLoop StepSystem

variable {E : RteEthdev}

/-- The list, the calls of `rte_ethdev` so far, and the names opened with the ids
returned. -/
structure LinkOpenRun where
  table : LinkTable
  calls : List EthCall
  opened : List (CStr × Int)

/-- Program start. -/
def LinkOpenRun.init : LinkOpenRun := ⟨LinkTable.init, [], []⟩

/-- A call of `pfm_link_open`. -/
structure LinkOpenCall where
  rets : EthRets
  linkName : CStr

def linkOpenStep (E : RteEthdev) (R : LinkOpenRun) (c : LinkOpenCall) : Option LinkOpenRun :=
  (pfmLinkOpen E c.rets R.table c.linkName).map fun out =>
    ⟨out.2.1, R.calls ++ out.2.2,
      if 0 ≤ out.1 then (c.linkName, out.1) :: R.opened else R.opened⟩

/-- The port was configured and started. -/
def BroughtUp (calls : List EthCall) (port : UInt16) : Prop :=
  ⟨.configure, port, 0⟩ ∈ calls ∧ ⟨.start, port, 0⟩ ∈ calls

/-- An entry tells what the device of its name is. -/
structure EntryRight (E : RteEthdev) (calls : List EthCall) (info : LinkInfo) : Prop where
  port : E.portByName info.name = some info.linkId
  up : BroughtUp calls info.linkId
  mtu : E.mtu info.linkId = some info.mtu
  mac : E.macAddr info.linkId = some info.macAddr

/-- A call that returns an id returns the one of the device, which is up and has
its entry under the name; a name opened before gives its id, and nothing happens. -/
def LinkOpenRight (E : RteEthdev) (R : LinkOpenRun) (c : LinkOpenCall) : Prop :=
  ∃ ret T calls, pfmLinkOpen E c.rets R.table c.linkName = some (ret, T, calls) ∧
    (0 ≤ ret → ∃ i info, i < T.linkCount ∧ T.linkInfoList.get? i = some info ∧
      info.name = c.linkName ∧ ret = info.linkId.toNat ∧
      EntryRight E (R.calls ++ calls) info) ∧
    ∀ id, (c.linkName, id) ∈ R.opened → ret = id ∧ T = R.table ∧ calls = []

/-- The device does what it is told. -/
structure Accepts (rets : EthRets) : Prop where
  configure : rets .configure = 0
  adjust : rets .adjustNbRxTxDesc = 0
  rxQueue : rets .rxQueueSetup = 0
  txQueue : 0 ≤ rets .txQueueSetup
  start : rets .start = 0

/-- There is room in the list for a device, its port id is the next place, and the
device does what it is told. -/
structure CanOpen (E : RteEthdev) (T : LinkTable) (c : LinkOpenCall) : Prop where
  room : T.linkCount < maxLinkCount
  next : E.portByName c.linkName = some (UInt16.ofNat T.linkCount)
  valid : E.isValidPort (UInt16.ofNat T.linkCount) = true
  accepts : Accepts c.rets

/-- The name is too long for the list and the link can be opened. -/
def OpensLong (E : RteEthdev) (R : LinkOpenRun) (c : LinkOpenCall) : Prop :=
  maxLinkNameLen < c.linkName.chars.length ∧ CanOpen E R.table c

/-! ### The port -/

theorem bringUp_fst_iff {rets : EthRets} {port : UInt16} :
    (bringUp rets port).1 = true ↔ Accepts rets := by
  unfold bringUp
  dsimp only
  constructor
  · intro h
    split at h
    · cases h
    split at h
    · cases h
    split at h
    · cases h
    split at h
    · cases h
    rename_i hconf hadj hrx htx
    exact ⟨not_not.mp hconf, not_not.mp hadj, not_not.mp hrx, Int.not_lt.mp htx,
      of_decide_eq_true h⟩
  · intro h
    rw [if_neg (not_not.mpr h.configure), if_neg (not_not.mpr h.adjust),
      if_neg (not_not.mpr h.rxQueue), if_neg (Int.not_lt.mpr h.txQueue)]
    exact decide_eq_true h.start

theorem bringUp_broughtUp {rets : EthRets} {port : UInt16} (h : Accepts rets) :
    BroughtUp (bringUp rets port).2 port := by
  unfold bringUp
  dsimp only
  rw [if_neg (not_not.mpr h.configure), if_neg (not_not.mpr h.adjust),
    if_neg (not_not.mpr h.rxQueue), if_neg (Int.not_lt.mpr h.txQueue)]
  simp [BroughtUp, h.configure, h.start]

theorem BroughtUp.append_left {calls calls' : List EthCall} {port : UInt16}
    (h : BroughtUp calls port) : BroughtUp (calls ++ calls') port :=
  ⟨List.mem_append_left _ h.1, List.mem_append_left _ h.2⟩

theorem BroughtUp.append_right {calls calls' : List EthCall} {port : UInt16}
    (h : BroughtUp calls' port) : BroughtUp (calls ++ calls') port :=
  ⟨List.mem_append_right _ h.1, List.mem_append_right _ h.2⟩

theorem EntryRight.append {calls calls' : List EthCall} {info : LinkInfo}
    (h : EntryRight E calls info) : EntryRight E (calls ++ calls') info :=
  ⟨h.port, h.up.append_left, h.mtu, h.mac⟩

/-- What is read of a port there is. -/
theorem readDevice_of_valid (rets : EthRets) {port : UInt16} (info : LinkInfo)
    (hvalid : E.isValidPort port = true) :
    (readDevice E rets port info).1.linkId = info.linkId ∧
      (readDevice E rets port info).1.name = info.name ∧
      E.mtu port = some (readDevice E rets port info).1.mtu ∧
      E.macAddr port = some (readDevice E rets port info).1.macAddr := by
  obtain ⟨mtu, hmtu⟩ := Option.isSome_iff_exists.mp (E.mtu_valid port hvalid)
  obtain ⟨mac, hmac⟩ := Option.isSome_iff_exists.mp (E.macAddr_valid port hvalid)
  unfold readDevice
  rw [hmtu, hmac]
  exact ⟨rfl, rfl, rfl, rfl⟩

/-! ### One call -/

/-- Every open link has its place in the list for its port id. -/
def Places (T : LinkTable) : Prop :=
  ∀ i, i < T.linkCount → ∃ info, T.linkInfoList.get? i = some info ∧ info.linkId.toNat = i

theorem Places.kept {T T' : LinkTable} (h : Places T) (hcount : T'.linkCount = T.linkCount)
    (hrest : ∀ i, i < T.linkCount → T'.linkInfoList.get? i = T.linkInfoList.get? i) :
    Places T' := by
  intro i hi
  have hi : i < T.linkCount := Nat.lt_of_lt_of_eq hi hcount
  rw [hrest i hi]
  exact h i hi

theorem Places.added {T T' : LinkTable} {info : LinkInfo} (h : Places T)
    (hcount : T'.linkCount = T.linkCount + 1)
    (hrest : ∀ i, i < T.linkCount → T'.linkInfoList.get? i = T.linkInfoList.get? i)
    (hentry : T'.linkInfoList.get? T.linkCount = some info)
    (hid : info.linkId.toNat = T.linkCount) : Places T' := by
  intro i hi
  rcases Nat.lt_succ_iff_lt_or_eq.mp (Nat.lt_of_lt_of_eq hi hcount) with hlt | rfl
  · rw [hrest i hlt]
    exact h i hlt
  · exact ⟨info, hentry, hid⟩

/-- `link_start` finds the new entry, or none. -/
theorem linkStart_found {T : LinkTable} {info : LinkInfo} (hplaces : Places T)
    (hlast : T.linkInfoList.get? T.linkCount = some info) :
    firstIndex (fun i => (T.linkInfoList.get? i).map fun info =>
        decide (info.linkId.toNat = T.linkCount)) (T.linkCount + 1) =
      some (if info.linkId.toNat = T.linkCount then some T.linkCount else none) := by
  have hearlier (i : Nat) (hi : i < T.linkCount) :
      ((T.linkInfoList.get? i).map fun info => decide (info.linkId.toNat = T.linkCount)) =
        some false := by
    obtain ⟨info', hget, hid⟩ := hplaces i hi
    rw [hget, Option.map_some, hid, decide_eq_false (Nat.ne_of_lt hi)]
  split
  · rename_i hid
    apply firstIndex_eq_some_iff.mpr
    refine ⟨Nat.lt_succ_self _, ?_, hearlier⟩
    rw [hlast, Option.map_some, decide_eq_true hid]
  · rename_i hid
    apply firstIndex_eq_none_iff.mpr
    intro i hi
    rcases Nat.lt_succ_iff_lt_or_eq.mp hi with hlt | rfl
    · exact hearlier i hlt
    · rw [hlast, Option.map_some, decide_eq_false hid]

/-- What `link_start` did for the entry after the open links. -/
structure Started (E : RteEthdev) (T : LinkTable) (info : LinkInfo) (T' : LinkTable)
    (calls : List EthCall) (info' : LinkInfo) : Prop where
  entry : T'.linkInfoList.get? T.linkCount = some info'
  name : info'.name = info.name
  id : info'.linkId = info.linkId
  up : BroughtUp calls info'.linkId
  mtu : E.mtu info'.linkId = some info'.mtu
  mac : E.macAddr info'.linkId = some info'.macAddr

/-- `link_start` for a new entry: it succeeds for a valid port whose id is the place
of the entry, if the device does what it is told. -/
theorem linkStart_cases (E : RteEthdev) (rets : EthRets) {T : LinkTable} {info : LinkInfo}
    (hplaces : Places T) (hlast : T.linkInfoList.get? T.linkCount = some info) :
    ∃ up T' calls, linkStart E rets T T.linkCount = some (up, T', calls) ∧
      T'.linkCount = T.linkCount ∧
      (∀ i, i < T.linkCount → T'.linkInfoList.get? i = T.linkInfoList.get? i) ∧
      (up = true ↔ info.linkId.toNat = T.linkCount ∧ E.isValidPort info.linkId = true ∧
        Accepts rets) ∧
      (up = true → ∃ info', Started E T info T' calls info') := by
  have hroom := CArray.lt_of_get? hlast
  unfold linkStart
  rw [linkStart_found hplaces hlast]
  simp only [Option.bind_eq_bind, Option.bind_some]
  by_cases hid : info.linkId.toNat = T.linkCount
  swap
  · rw [if_neg hid]
    exact ⟨false, T, [], rfl, rfl, fun _ _ => rfl, by simp [hid], nofun⟩
  rw [if_pos hid]
  have hport : UInt16.ofNat T.linkCount = info.linkId := by rw [← hid, UInt16.ofNat_toNat]
  simp only [hport]
  by_cases hvalid : E.isValidPort info.linkId = true
  swap
  · rw [if_pos (Bool.eq_false_of_not_eq_true hvalid)]
    exact ⟨false, T, [], rfl, rfl, fun _ _ => rfl, by simp [hvalid], nofun⟩
  obtain ⟨hreadId, hreadName, hmtu, hmac⟩ := readDevice_of_valid rets info hvalid
  rw [if_neg (by simp [hvalid]), hlast, Option.bind_some, CArray.set?_of_lt _ hroom,
    Option.bind_some]
  have hset := CArray.set?_of_lt T.linkInfoList hroom (readDevice E rets info.linkId info).1
  refine ⟨_, _, _, rfl, rfl, ?_, ?_, ?_⟩
  · intro i hi
    rw [CArray.get?_set? hset, if_neg (Nat.ne_of_lt hi)]
  · rw [bringUp_fst_iff]
    simp [hid, hvalid]
  · intro hup
    refine ⟨(readDevice E rets info.linkId info).1, ?_, hreadName, hreadId, ?_, ?_, ?_⟩
    · rw [CArray.get?_set? hset, if_pos rfl]
    · rw [hreadId]
      exact (bringUp_broughtUp (bringUp_fst_iff.mp hup)).append_right
    · rw [hreadId]
      exact hmtu
    · rw [hreadId]
      exact hmac

/-- `pfm_link_open` by outcome: an open link, a failure, or a new link. -/
inductive LinkOpenOutcome (E : RteEthdev) (T : LinkTable) (c : LinkOpenCall) :
    Int → LinkTable → List EthCall → Prop
  | reused (i : Nat) (info : LinkInfo) (open_ : i < T.linkCount)
      (entry : T.linkInfoList.get? i = some info) (name : info.name = c.linkName) :
      LinkOpenOutcome E T c info.linkId.toNat T []
  | refused (ret : Int) (T' : LinkTable) (calls : List EthCall) (code : ret < 0)
      (unlisted : ∀ i info, i < T.linkCount → T.linkInfoList.get? i = some info →
        info.name ≠ c.linkName)
      (cannot : ¬CanOpen E T c) (count : T'.linkCount = T.linkCount)
      (rest : ∀ i, i < T.linkCount → T'.linkInfoList.get? i = T.linkInfoList.get? i) :
      LinkOpenOutcome E T c ret T' calls
  | added (T' : LinkTable) (calls : List EthCall) (info : LinkInfo)
      (unlisted : ∀ i info, i < T.linkCount → T.linkInfoList.get? i = some info →
        info.name ≠ c.linkName)
      (can : CanOpen E T c) (count : T'.linkCount = T.linkCount + 1)
      (rest : ∀ i, i < T.linkCount → T'.linkInfoList.get? i = T.linkInfoList.get? i)
      (entry : T'.linkInfoList.get? T.linkCount = some info)
      (name : info.name = c.linkName.trunc maxLinkNameLen)
      (id : info.linkId.toNat = T.linkCount) (up : BroughtUp calls info.linkId)
      (mtu : E.mtu info.linkId = some info.mtu) (mac : E.macAddr info.linkId = some info.macAddr) :
      LinkOpenOutcome E T c info.linkId.toNat T' calls

theorem pfmLinkOpen_cases {T : LinkTable} (hplaces : Places T) (c : LinkOpenCall) :
    ∃ ret T' calls, pfmLinkOpen E c.rets T c.linkName = some (ret, T', calls) ∧
      LinkOpenOutcome E T c ret T' calls := by
  obtain ⟨found, hfound⟩ := firstIndex_isSome fun i (hi : i < T.linkCount) =>
    show ∃ b, (T.linkInfoList.get? i).map (fun info => decide (info.name = c.linkName)) = some b by
      obtain ⟨info, hget, -⟩ := hplaces i hi
      exact ⟨_, by rw [hget, Option.map_some]⟩
  unfold pfmLinkOpen
  rw [hfound]
  simp only [Option.bind_eq_bind, Option.bind_some]
  cases found with
  | some i =>
      obtain ⟨hi, hname, -⟩ := firstIndex_eq_some_iff.mp hfound
      obtain ⟨info, hget, hname⟩ := Option.map_eq_some_iff.mp hname
      refine ⟨info.linkId.toNat, T, [], ?_, .reused i info hi hget (of_decide_eq_true hname)⟩
      dsimp only
      rw [hget]
      rfl
  | none =>
  have hunlisted (i : Nat) (info : LinkInfo) (hi : i < T.linkCount)
      (hget : T.linkInfoList.get? i = some info) : info.name ≠ c.linkName := by
    have hname := firstIndex_eq_none_iff.mp hfound i hi
    rw [hget, Option.map_some] at hname
    exact of_decide_eq_false (Option.some.inj hname)
  dsimp only
  split
  · rename_i hfull
    exact ⟨_, _, _, rfl, .refused _ _ _ (by decide) hunlisted
      (fun hcan => absurd hcan.room (Nat.not_lt.mpr hfull)) rfl fun _ _ => rfl⟩
  rename_i hroom
  have hroom : T.linkCount < maxLinkCount := Nat.not_le.mp hroom
  cases hport : E.portByName c.linkName with
  | none =>
      refine ⟨_, _, _, rfl, .refused _ _ _ (by decide) hunlisted ?_ rfl fun _ _ => rfl⟩
      intro hcan
      rw [hcan.next] at hport
      cases hport
  | some linkId =>
  obtain ⟨old, hold⟩ : ∃ old, T.linkInfoList.get? T.linkCount = some old :=
    ⟨_, CArray.get?_of_lt _ hroom⟩
  let info : LinkInfo :=
    { old with linkId := linkId, name := c.linkName.trunc maxLinkNameLen }
  obtain ⟨list, hset⟩ : ∃ list, T.linkInfoList.set? T.linkCount info = some list :=
    ⟨_, CArray.set?_of_lt _ hroom info⟩
  have hrest (i : Nat) (hi : i < T.linkCount) : list.get? i = T.linkInfoList.get? i := by
    rw [CArray.get?_set? hset, if_neg (Nat.ne_of_lt hi)]
  have hplaces' : Places ⟨list, T.linkCount⟩ := hplaces.kept rfl hrest
  have hlast : list.get? T.linkCount = some info := by rw [CArray.get?_set? hset, if_pos rfl]
  obtain ⟨up, T', calls, hstart, hcount', hrest', hup, hstarted⟩ :=
    linkStart_cases E c.rets hplaces' hlast
  dsimp only
  rw [hold, Option.bind_some, hset, Option.bind_some, hstart, Option.bind_some]
  have hcan : up = true ↔ CanOpen E T c := by
    rw [hup]
    constructor
    · intro h
      have hnext : UInt16.ofNat T.linkCount = linkId := by
        rw [← h.1, UInt16.ofNat_toNat]
      exact ⟨hroom, by rw [hport, hnext], by rw [hnext]; exact h.2.1, h.2.2⟩
    · intro h
      obtain rfl := Option.some.inj (hport.symm.trans h.next)
      exact ⟨UInt16.toNat_ofNat_of_lt' (Nat.lt_trans hroom (by decide)), h.valid, h.accepts⟩
  split
  · rename_i hok
    obtain ⟨info', hinfo'⟩ := hstarted hok
    have hid : info'.linkId = linkId := hinfo'.id
    refine ⟨_, _, _, rfl, ?_⟩
    rw [← hid]
    exact .added _ _ info' hunlisted (hcan.mp hok) rfl (fun i hi => (hrest' i hi).trans (hrest i hi))
      hinfo'.entry hinfo'.name (by rw [hid]; exact (hup.mp hok).1) hinfo'.up hinfo'.mtu hinfo'.mac
  · rename_i hno
    exact ⟨_, _, _, rfl, .refused _ _ _ (by decide) hunlisted (fun h => hno (hcan.mpr h)) hcount'
      fun i hi => (hrest' i hi).trans (hrest i hi)⟩

/-! ### Runs -/

/-- A link has its place in the list for its port id, its entry tells what its device
is, and every name opened has its entry. -/
structure LinkOpenInv (E : RteEthdev) (R : LinkOpenRun) : Prop where
  places : Places R.table
  right : ∀ i info, i < R.table.linkCount → R.table.linkInfoList.get? i = some info →
    EntryRight E R.calls info
  short : ∀ i info, i < R.table.linkCount → R.table.linkInfoList.get? i = some info →
    info.name.chars.length ≤ maxLinkNameLen
  listed : ∀ name id, (name, id) ∈ R.opened → ∃ i info, i < R.table.linkCount ∧
    R.table.linkInfoList.get? i = some info ∧ info.name = name ∧ id = info.linkId.toNat

theorem LinkOpenInv.init : LinkOpenInv E LinkOpenRun.init where
  places _ hi := absurd hi (Nat.not_lt_zero _)
  right _ _ hi := absurd hi (Nat.not_lt_zero _)
  short _ _ hi := absurd hi (Nat.not_lt_zero _)
  listed _ _ h := absurd h List.not_mem_nil

variable {R : LinkOpenRun} {c : LinkOpenCall}

theorem linkOpenStep_of {ret : Int} {T : LinkTable} {calls : List EthCall}
    (h : pfmLinkOpen E c.rets R.table c.linkName = some (ret, T, calls)) :
    linkOpenStep E R c = some ⟨T, R.calls ++ calls,
      if 0 ≤ ret then (c.linkName, ret) :: R.opened else R.opened⟩ := by
  rw [linkOpenStep, h]
  rfl

/-- The entries of the open links stay. -/
theorem LinkOpenInv.kept (h : LinkOpenInv E R) {T : LinkTable} {calls : List EthCall}
    (hcount : T.linkCount = R.table.linkCount)
    (hrest : ∀ i, i < R.table.linkCount → T.linkInfoList.get? i = R.table.linkInfoList.get? i) :
    LinkOpenInv E ⟨T, R.calls ++ calls, R.opened⟩ where
  places := h.places.kept hcount hrest
  right i info hi hget := by
    have hi : i < R.table.linkCount := Nat.lt_of_lt_of_eq hi hcount
    exact (h.right i info hi (by rw [← hget]; exact (hrest i hi).symm)).append
  short i info hi hget := by
    have hi : i < R.table.linkCount := Nat.lt_of_lt_of_eq hi hcount
    exact h.short i info hi (by rw [← hget]; exact (hrest i hi).symm)
  listed name id hmem := by
    obtain ⟨i, info, hi, hget, hname⟩ := h.listed name id hmem
    exact ⟨i, info, Nat.lt_of_lt_of_eq hi hcount.symm, by rw [← hget]; exact hrest i hi, hname⟩

/-- One more entry. -/
theorem LinkOpenInv.added (h : LinkOpenInv E R) {T : LinkTable} {calls : List EthCall} {info : LinkInfo}
    (hcount : T.linkCount = R.table.linkCount + 1)
    (hrest : ∀ i, i < R.table.linkCount → T.linkInfoList.get? i = R.table.linkInfoList.get? i)
    (hentry : T.linkInfoList.get? R.table.linkCount = some info)
    (hid : info.linkId.toNat = R.table.linkCount)
    (hright : EntryRight E (R.calls ++ calls) info)
    (hshort : info.name.chars.length ≤ maxLinkNameLen) :
    LinkOpenInv E ⟨T, R.calls ++ calls, (info.name, (info.linkId.toNat : Int)) :: R.opened⟩ where
  places := h.places.added hcount hrest hentry hid
  right i info' hi hget := by
    rcases Nat.lt_succ_iff_lt_or_eq.mp (Nat.lt_of_lt_of_eq hi hcount) with hlt | rfl
    · exact (h.right i info' hlt (by rw [← hget]; exact (hrest i hlt).symm)).append
    · obtain rfl := Option.some.inj (hentry.symm.trans hget)
      exact hright
  short i info' hi hget := by
    rcases Nat.lt_succ_iff_lt_or_eq.mp (Nat.lt_of_lt_of_eq hi hcount) with hlt | rfl
    · exact h.short i info' hlt (by rw [← hget]; exact (hrest i hlt).symm)
    · obtain rfl := Option.some.inj (hentry.symm.trans hget)
      exact hshort
  listed name id hmem := by
    rcases List.mem_cons.mp hmem with heq | hmem
    · obtain ⟨rfl, rfl⟩ := Prod.mk.inj heq
      exact ⟨R.table.linkCount, info, by rw [hcount]; exact Nat.lt_succ_self _, hentry, rfl, rfl⟩
    · obtain ⟨i, info', hi, hget, hname⟩ := h.listed name id hmem
      refine ⟨i, info', ?_, ?_, hname⟩
      · rw [hcount]
        exact Nat.lt_succ_of_lt hi
      · rw [← hget]
        exact hrest i hi

/-- An entry that is used once more. -/
theorem LinkOpenInv.reused (h : LinkOpenInv E R) {i : Nat} {info : LinkInfo}
    (hi : i < R.table.linkCount) (hget : R.table.linkInfoList.get? i = some info) :
    LinkOpenInv E ⟨R.table, R.calls, (info.name, (info.linkId.toNat : Int)) :: R.opened⟩ where
  places := h.places
  right := h.right
  short := h.short
  listed name id hmem := by
    rcases List.mem_cons.mp hmem with heq | hmem
    · obtain ⟨rfl, rfl⟩ := Prod.mk.inj heq
      exact ⟨i, info, hi, hget, rfl, rfl⟩
    · exact h.listed name id hmem

/-- A name that is listed is the one of one device. -/
theorem LinkOpenInv.id_of_name (h : LinkOpenInv E R) {i : Nat} {info : LinkInfo}
    (hi : i < R.table.linkCount) (hget : R.table.linkInfoList.get? i = some info) {id : Int}
    (hmem : (info.name, id) ∈ R.opened) : id = info.linkId.toNat := by
  obtain ⟨j, info', hj, hget', hname, hid⟩ := h.listed _ _ hmem
  have hport := (h.right i info hi hget).port
  have hport' := (h.right j info' hj hget').port
  rw [hname, hport] at hport'
  rw [hid, Option.some.inj hport']

/-- **One call.**  It does what it should, and the list stays in order, exactly when
it does not open a link with a long name. -/
theorem LinkOpenInv.step (h : LinkOpenInv E R) (c : LinkOpenCall) :
    ∃ R', linkOpenStep E R c = some R' ∧ (LinkOpenRight E R c → LinkOpenInv E R') ∧
      (LinkOpenRight E R c ↔ ¬OpensLong E R c) := by
  obtain ⟨ret, T, calls, hrun, hout⟩ := pfmLinkOpen_cases h.places c
  refine ⟨_, linkOpenStep_of hrun, ?_⟩
  cases hout with
  | reused i info hi hget hname =>
      have hright : LinkOpenRight E R c := by
        refine ⟨_, _, _, hrun, fun _ => ?_, fun id hmem => ?_⟩
        · exact ⟨i, info, hi, hget, hname, rfl, (h.right i info hi hget).append⟩
        · rw [← hname] at hmem
          exact ⟨(h.id_of_name hi hget hmem).symm, rfl, rfl⟩
      refine ⟨fun _ => ?_, iff_of_true hright fun hlong => ?_⟩
      · rw [List.append_nil, if_pos (Int.natCast_nonneg _), ← hname]
        exact h.reused hi hget
      · exact absurd hlong.1 (Nat.not_lt.mpr (hname ▸ h.short i info hi hget))
  | refused _ _ _ code unlisted cannot count rest =>
      have hright : LinkOpenRight E R c := by
        refine ⟨_, _, _, hrun, fun hret => absurd code (Int.not_lt.mpr hret), fun id hmem => ?_⟩
        obtain ⟨i, info, hi, hget, hname, -⟩ := h.listed _ _ hmem
        exact absurd hname (unlisted i info hi hget)
      refine ⟨fun _ => ?_, iff_of_true hright fun hlong => cannot hlong.2⟩
      rw [if_neg (Int.not_le.mpr code)]
      exact h.kept count rest
  | added _ _ info unlisted can count rest entry name id up mtu mac =>
      have hport : UInt16.ofNat R.table.linkCount = info.linkId := by rw [← id, UInt16.ofNat_toNat]
      have hentry (hshort : c.linkName.chars.length ≤ maxLinkNameLen) :
          info.name = c.linkName ∧ EntryRight E (R.calls ++ calls) info := by
        have hname : info.name = c.linkName := name.trans (CStr.trunc_eq_self_iff.mpr hshort)
        exact ⟨hname, by rw [hname, can.next, hport], up.append_right, mtu, mac⟩
      have hshort : LinkOpenRight E R c ↔ c.linkName.chars.length ≤ maxLinkNameLen := by
        constructor
        · intro hright
          obtain ⟨ret', T', calls', hrun', hopen, -⟩ := hright
          obtain ⟨rfl, rfl, rfl⟩ : _ ∧ T' = T ∧ calls' = calls := by
            simpa using hrun'.symm.trans hrun
          obtain ⟨i, info', hi, hget, hname, -⟩ := hopen (Int.natCast_nonneg _)
          rw [← hname]
          rcases Nat.lt_succ_iff_lt_or_eq.mp (Nat.lt_of_lt_of_eq hi count) with hlt | rfl
          · exact h.short i info' hlt ((rest i hlt).symm.trans hget)
          · obtain rfl := Option.some.inj (entry.symm.trans hget)
            rw [name]
            exact CStr.length_trunc_le _ _
        · intro hshort
          obtain ⟨hname, hright⟩ := hentry hshort
          refine ⟨_, _, _, hrun, fun _ => ?_, fun id' hmem => ?_⟩
          · exact ⟨R.table.linkCount, info, Nat.lt_of_lt_of_eq (Nat.lt_succ_self _) count.symm, entry,
              hname, rfl, hright⟩
          · obtain ⟨i, info', hi, hget, hname', -⟩ := h.listed _ _ hmem
            exact absurd hname' (unlisted i info' hi hget)
      refine ⟨fun hright => ?_, hshort.trans ?_⟩
      · obtain ⟨hname, hentryRight⟩ := hentry (hshort.mp hright)
        rw [if_pos (Int.natCast_nonneg _), ← hname]
        exact h.added count rest entry id hentryRight (hname ▸ hshort.mp hright)
      · rw [OpensLong, not_and_or, Nat.not_lt]
        exact ⟨Or.inl, fun h => h.resolve_right (not_not.mpr can)⟩

/-- Every call of a run does what it should exactly when no call opens a link with a
name longer than the list can keep. -/
theorem linkOpen_right_iff (E : RteEthdev) (calls : List LinkOpenCall) :
    Along (linkOpenStep E) (LinkOpenRight E) LinkOpenRun.init calls ↔
      Along (linkOpenStep E) (fun R c => ¬OpensLong E R c) LinkOpenRun.init calls := by
  have hstep (R : LinkOpenRun) (c : LinkOpenCall) (h : LinkOpenInv E R) :
      ∃ R', linkOpenStep E R c = some R' ∧
        ((LinkOpenRight E R c ∧ LinkOpenInv E R') ↔ ¬OpensLong E R c) := by
    obtain ⟨R', hrun, hinv, hiff⟩ := h.step c
    exact ⟨R', hrun, by rw [and_iff_left_of_imp hinv, hiff]⟩
  have hexact : (Always (linkOpenStep E) (LinkOpenInv E) LinkOpenRun.init calls ∧
      Along (linkOpenStep E) (LinkOpenRight E) LinkOpenRun.init calls) ↔
        Along (linkOpenStep E) (fun R c => ¬OpensLong E R c) LinkOpenRun.init calls :=
    always_along_iff hstep LinkOpenInv.init
  constructor
  · intro h
    refine hexact.mp ⟨always_of_along ?_ LinkOpenInv.init h, h⟩
    intro R c R' hinv hright hrun
    obtain ⟨R'', hrun', hinv', -⟩ := hinv.step c
    obtain rfl := Option.some.inj (hrun'.symm.trans hrun)
    exact hinv' hright
  · intro h
    exact (hexact.mpr h).2

/-- The name `net_pcap_uplink_0`. -/
def uplinkName : CStr :=
  ⟨[110, 101, 116, 95, 112, 99, 97, 112, 95, 117, 112, 108, 105, 110, 107, 95, 48], by decide⟩

/-- One device of that name, on port 0. -/
def uplinkDev : RteEthdev where
  portByName name := if name = uplinkName then some 0 else none
  isValidPort port := port = 0
  mtu _ := some 1500
  mtuRange _ := some (68, 1500)
  macAddr _ := some fun _ => 2
  mtu_valid _ _ := rfl
  macAddr_valid _ _ := rfl

/-- Opened again, the link is not found under its name, and `link_start` fails. -/
theorem uplinkName_not_reopened :
    ¬ Along (linkOpenStep uplinkDev) (LinkOpenRight uplinkDev) LinkOpenRun.init
        [⟨fun _ => 0, uplinkName⟩, ⟨fun _ => 0, uplinkName⟩] := by
  intro h
  obtain ⟨R, hrun, hret⟩ : ∃ R, linkOpenStep uplinkDev LinkOpenRun.init ⟨fun _ => 0, uplinkName⟩ =
      some R ∧ R.opened = [(uplinkName, 0)] ∧
        (pfmLinkOpen uplinkDev (fun _ => 0) R.table uplinkName).map Prod.fst = some (-3) :=
    ⟨_, rfl, rfl, rfl⟩
  obtain ⟨ret, T, calls, hopen, -, hsame⟩ := (h.2 R hrun).1
  rw [hret.1] at hsame
  have hzero := (hsame 0 List.mem_cons_self).1
  rw [hopen, Option.map_some, hzero] at hret
  cases hret.2

end Pfm
