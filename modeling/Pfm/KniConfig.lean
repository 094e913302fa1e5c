import Pfm.Link
import Pfm.StepSystem

/-!
# The interfaces of a link

`kni_open` and `callback_func_kni_if_config` of `pfm_kni.c`: interfaces are put on
links, and the kernel configures them up and down.  The link of an interface is
asked to follow.

The scan before a link is disabled stops at every interface that was not configured
down, so one that was never configured at all keeps its link enabled.

* `KniInv` : a link with an interface that is up was last asked to be enabled;
* `kniConfig_follows_iff` : when the links follow their interfaces, in any run.
-/

namespace Pfm

open BoundedLoop StepSystem

abbrev rteKniNamesize : Nat := 32

/-- `ETH_LINK_UP`. -/
abbrev ethLinkUp : UInt8 := 1

/-- `kni_info_t` with an `rte_kni` pointer of type `Kni`. -/
structure KniEntry (Kni : Type) where
  ptr : Option Kni
  name : CStr
  ipAddr : PfmIpAddr
  macAddr : MacAddr
  subnetMaskLen : Int
  linkId : Int
  opsState : OpsState

/-- `kni_info_list_g` and `kni_count_g`. -/
structure KniList (Kni : Type) where
  kniInfoList : CArray maxKniPorts (KniEntry Kni)
  kniCount : Nat
  kniCount_le : kniCount ≤ maxKniPorts

variable {Kni : Type}

/-- Program start: zeroed entries. -/
def KniList.init (Kni : Type) : KniList Kni where
  kniInfoList _ := ⟨none, CStr.empty, 0, fun _ => 0, 0, 0, .notConfigured⟩
  kniCount := 0
  kniCount_le := Nat.zero_le _

/-- Some interface is as said. -/
def KniList.Any (L : KniList Kni) (p : KniEntry Kni → Prop) : Prop :=
  ∃ i : Fin maxKniPorts, i.val < L.kniCount ∧ p (L.kniInfoList i)

instance (L : KniList Kni) (p : KniEntry Kni → Prop) [DecidablePred p] : Decidable (L.Any p) :=
  inferInstanceAs (Decidable (∃ _, _))

/-- `default_mac_addr_g` of `pfm_kni.c`. -/
def defaultKniMacAddr : MacAddr :=
  fun i => [0x06, 0x10, 0x20, 0x30, 0x40, 0x50].getD i.val 0

/-- What `rte_kni_init`, `rte_eth_macaddr_get` and `rte_kni_alloc` return. -/
structure KniOpenEnv (Kni : Type) where
  kniInit : Int
  macAddr : Option MacAddr
  kniAlloc : Option Kni

/-- The arguments of `kni_open`. -/
structure KniOpenArgs where
  linkId : Int
  kniName : CStr
  ipAddr : PfmIpAddr
  subnetMaskLen : Int

/-- The list afterwards and the pointer returned. -/
def kniOpen (env : KniOpenEnv Kni) (L : KniList Kni) (args : KniOpenArgs) :
    KniList Kni × Option Kni :=
  if L.kniCount = 0 ∧ env.kniInit ≠ 0 then (L, none)
  else if L.Any fun kni => kni.name = args.kniName then (L, none)
  else if h : L.kniCount < maxKniPorts then
    match env.kniAlloc with
    | none => (L, none)
    | some ptr =>
        let i : Fin maxKniPorts := ⟨L.kniCount, h⟩
        -- the state of the entry is left as it is
        let entry := { L.kniInfoList i with
          ptr := some ptr
          name := args.kniName.trunc rteKniNamesize
          ipAddr := args.ipAddr
          subnetMaskLen := args.subnetMaskLen
          linkId := args.linkId
          macAddr := env.macAddr.getD defaultKniMacAddr }
        (⟨Function.update L.kniInfoList i entry, L.kniCount + 1, h⟩, some ptr)
  else (L, none)

/-- Write the state of an interface. -/
def KniList.setOps (L : KniList Kni) (i : Fin maxKniPorts) (st : OpsState) : KniList Kni :=
  { L with
    kniInfoList := Function.update L.kniInfoList i { L.kniInfoList i with opsState := st } }

/-- The list afterwards and the calls of `link_state_change`. -/
def callbackFuncKniIfConfig (L : KniList Kni) (kniId : UInt16) (kniState : UInt8) :
    KniList Kni × List (Int × OpsState) :=
  if h : kniId.toNat < L.kniCount then
    let i : Fin maxKniPorts := ⟨kniId.toNat, Nat.lt_of_lt_of_le h L.kniCount_le⟩
    let kni := L.kniInfoList i
    if kni.ptr.isNone then (L, [])
    else
      let newOpsState : OpsState := if ethLinkUp = kniState then .enabled else .disabled
      let L := L.setOps i newOpsState
      if newOpsState = .enabled then (L, [(kni.linkId, .enabled)])
      -- an interface of the link that was not configured down, or never
      else if L.Any fun other => other.linkId = kni.linkId ∧ other.opsState ≠ .disabled then
        (L, [])
      else (L, [(kni.linkId, .disabled)])
  else (L, [])

/-! ### Runs -/

/-- The interfaces, and the last state each link was asked for. -/
structure KniRun (Kni : Type) where
  list : KniList Kni
  last : Int → Option OpsState

/-- Program start. -/
def KniRun.init (Kni : Type) : KniRun Kni := ⟨KniList.init Kni, fun _ => none⟩

/-- A call of `kni_open`, or an interface configured by the kernel. -/
inductive KniEvent (Kni : Type) where
  | opened (env : KniOpenEnv Kni) (args : KniOpenArgs)
  | config (kniId : UInt16) (kniState : UInt8)

/-- The last states asked for, after some more calls. -/
def requested (last : Int → Option OpsState) (calls : List (Int × OpsState)) :
    Int → Option OpsState :=
  calls.foldl (fun last call => Function.update last call.1 (some call.2)) last

def kniStep (R : KniRun Kni) : KniEvent Kni → Option (KniRun Kni)
  | .opened env args => some ⟨(kniOpen env R.list args).1, R.last⟩
  | .config kniId kniState =>
      let out := callbackFuncKniIfConfig R.list kniId kniState
      some ⟨out.1, requested R.last out.2⟩

/-- An interface of the link is up. -/
def KniList.LinkUp (L : KniList Kni) (linkId : Int) : Prop :=
  L.Any fun kni => kni.linkId = linkId ∧ kni.opsState = .enabled

instance (L : KniList Kni) (linkId : Int) : Decidable (L.LinkUp linkId) :=
  inferInstanceAs (Decidable (L.Any _))

/-- After a callback the link of the interface was last asked for the state of its
interfaces; no other link is asked for anything. -/
def LinkFollows (R : KniRun Kni) : KniEvent Kni → Prop
  | .opened _ _ => True
  | .config kniId kniState =>
      let out := callbackFuncKniIfConfig R.list kniId kniState
      (R.list.kniCount ≤ kniId.toNat → out.2 = []) ∧
      ∀ i : Fin maxKniPorts, i.val = kniId.toNat → i.val < R.list.kniCount →
        let linkId := (R.list.kniInfoList i).linkId
        (∀ call ∈ out.2, call.1 = linkId) ∧
        (out.1.LinkUp linkId → requested R.last out.2 linkId = some .enabled) ∧
        (¬out.1.LinkUp linkId → requested R.last out.2 linkId = some .disabled)

/-- When an interface goes down, another one of its link is up, or all others of it
were configured down, or the link was last asked to be disabled. -/
def DownSettled (R : KniRun Kni) : KniEvent Kni → Prop
  | .opened _ _ => True
  | .config kniId kniState => kniState ≠ ethLinkUp →
      ∀ i : Fin maxKniPorts, i.val = kniId.toNat → i.val < R.list.kniCount →
        let linkId := (R.list.kniInfoList i).linkId
        let others (p : KniEntry Kni → Prop) : Prop :=
          ∀ j, j ≠ i → j.val < R.list.kniCount → (R.list.kniInfoList j).linkId = linkId →
            p (R.list.kniInfoList j)
        ¬others (fun kni => kni.opsState ≠ .enabled) ∨
          others (fun kni => kni.opsState = .disabled) ∨ R.last linkId = some .disabled

/-- A link with an interface that is up was last asked to be enabled; an interface is
new before it is configured. -/
structure KniInv (R : KniRun Kni) : Prop where
  enabled : ∀ linkId, R.list.LinkUp linkId → R.last linkId = some .enabled
  open_ : ∀ i : Fin maxKniPorts, i.val < R.list.kniCount → (R.list.kniInfoList i).ptr.isSome
  fresh : ∀ i : Fin maxKniPorts, R.list.kniCount ≤ i.val →
    (R.list.kniInfoList i).opsState = .notConfigured

theorem KniInv.init : KniInv (KniRun.init Kni) where
  enabled _ h := by
    obtain ⟨i, hi, -⟩ := h
    exact absurd hi (Nat.not_lt_zero _)
  open_ _ h := absurd h (Nat.not_lt_zero _)
  fresh _ _ := rfl

/-! ### One callback -/

section callback

variable {L : KniList Kni} {i : Fin maxKniPorts} {st : OpsState}

@[simp] theorem KniList.setOps_self (L : KniList Kni) (i : Fin maxKniPorts) (st : OpsState) :
    (L.setOps i st).kniInfoList i = { L.kniInfoList i with opsState := st } :=
  Function.update_self i _ _

theorem KniList.setOps_of_ne {j : Fin maxKniPorts} (h : j ≠ i) (st : OpsState) :
    (L.setOps i st).kniInfoList j = L.kniInfoList j :=
  Function.update_of_ne h _ _

theorem KniList.setOps_ptr (L : KniList Kni) (i : Fin maxKniPorts) (st : OpsState)
    (j : Fin maxKniPorts) : ((L.setOps i st).kniInfoList j).ptr = (L.kniInfoList j).ptr := by
  by_cases hji : j = i
  · subst hji
    rw [setOps_self]
  · rw [setOps_of_ne hji]

theorem KniList.setOps_linkId (L : KniList Kni) (i : Fin maxKniPorts) (st : OpsState)
    (j : Fin maxKniPorts) : ((L.setOps i st).kniInfoList j).linkId = (L.kniInfoList j).linkId := by
  by_cases hji : j = i
  · subst hji
    rw [setOps_self]
  · rw [setOps_of_ne hji]

theorem KniList.any_setOps (hi : i.val < L.kniCount) (p : KniEntry Kni → Prop) :
    (L.setOps i st).Any p ↔
      p { L.kniInfoList i with opsState := st } ∨
        ∃ j, j ≠ i ∧ j.val < L.kniCount ∧ p (L.kniInfoList j) := by
  constructor
  · intro h
    obtain ⟨j, hj, hp⟩ := h
    by_cases hji : j = i
    · subst hji
      rw [setOps_self] at hp
      exact Or.inl hp
    · rw [setOps_of_ne hji] at hp
      exact Or.inr ⟨j, hji, hj, hp⟩
  · intro h
    rcases h with hp | ⟨j, hji, hj, hp⟩
    · exact ⟨i, hi, by rwa [setOps_self]⟩
    · exact ⟨j, hj, by rwa [setOps_of_ne hji]⟩

/-- Up. -/
theorem callbackFuncKniIfConfig_up (i : Fin maxKniPorts) {kniId : UInt16}
    (hid : i.val = kniId.toNat) (hi : i.val < L.kniCount) (hptr : (L.kniInfoList i).ptr.isSome) :
    callbackFuncKniIfConfig L kniId ethLinkUp =
      (L.setOps i .enabled, [((L.kniInfoList i).linkId, .enabled)]) := by
  have heq : (⟨kniId.toNat, hid ▸ i.isLt⟩ : Fin maxKniPorts) = i := Fin.ext hid.symm
  rw [callbackFuncKniIfConfig, dif_pos (hid ▸ hi)]
  dsimp only
  rw [heq, if_neg (by rw [Option.isNone_eq_false_iff.mpr hptr]; decide), if_pos rfl, if_pos rfl]

/-- Down. -/
theorem callbackFuncKniIfConfig_down (i : Fin maxKniPorts) {kniId : UInt16} {kniState : UInt8}
    (hdown : kniState ≠ ethLinkUp) (hid : i.val = kniId.toNat) (hi : i.val < L.kniCount)
    (hptr : (L.kniInfoList i).ptr.isSome) :
    callbackFuncKniIfConfig L kniId kniState =
      (L.setOps i .disabled,
        if ∃ j, j ≠ i ∧ j.val < L.kniCount ∧
            (L.kniInfoList j).linkId = (L.kniInfoList i).linkId ∧
            (L.kniInfoList j).opsState ≠ .disabled then []
        else [((L.kniInfoList i).linkId, .disabled)]) := by
  have heq : (⟨kniId.toNat, hid ▸ i.isLt⟩ : Fin maxKniPorts) = i := Fin.ext hid.symm
  rw [callbackFuncKniIfConfig, dif_pos (hid ▸ hi)]
  dsimp only
  rw [heq, if_neg (by rw [Option.isNone_eq_false_iff.mpr hptr]; decide), if_neg (Ne.symm hdown),
    if_neg (by decide)]
  simp only [KniList.any_setOps hi, ne_eq, not_true_eq_false, and_false, false_or]
  split <;> rfl

theorem callbackFuncKniIfConfig_invalid {kniId : UInt16} (kniState : UInt8)
    (h : L.kniCount ≤ kniId.toNat) : callbackFuncKniIfConfig L kniId kniState = (L, []) := by
  rw [callbackFuncKniIfConfig, dif_neg (Nat.not_lt.mpr h)]

/-- The kernel configures an interface that was closed. -/
theorem callbackFuncKniIfConfig_closed (i : Fin maxKniPorts) {kniId : UInt16}
    {kniState : UInt8} (hid : i.val = kniId.toNat) (hi : i.val < L.kniCount)
    (hptr : ¬(L.kniInfoList i).ptr.isSome) :
    callbackFuncKniIfConfig L kniId kniState = (L, []) := by
  have heq : (⟨kniId.toNat, hid ▸ i.isLt⟩ : Fin maxKniPorts) = i := Fin.ext hid.symm
  rw [callbackFuncKniIfConfig, dif_pos (hid ▸ hi)]
  dsimp only
  rw [heq, if_pos (by simpa using hptr)]

/-- A callback writes the state of an interface, or nothing. -/
theorem callbackFuncKniIfConfig_list (L : KniList Kni) (kniId : UInt16) (kniState : UInt8) :
    (callbackFuncKniIfConfig L kniId kniState).1 = L ∨
      ∃ i st, (callbackFuncKniIfConfig L kniId kniState).1 = L.setOps i st := by
  unfold callbackFuncKniIfConfig
  split
  swap
  · exact Or.inl rfl
  dsimp only
  split
  · exact Or.inl rfl
  by_cases hup : ethLinkUp = kniState
  · rw [if_pos hup, if_pos rfl]
    exact Or.inr ⟨_, _, rfl⟩
  · rw [if_neg hup, if_neg (by decide)]
    split
    · exact Or.inr ⟨_, _, rfl⟩
    · exact Or.inr ⟨_, _, rfl⟩

end callback

/-! ### One `kni_open` -/

/-- When `kni_open` creates an interface. -/
structure CanCreate (env : KniOpenEnv Kni) (L : KniList Kni) (args : KniOpenArgs) : Prop where
  init : L.kniCount = 0 → env.kniInit = 0
  fresh : ¬L.Any fun kni => kni.name = args.kniName
  room : L.kniCount < maxKniPorts
  alloc : env.kniAlloc.isSome

/-- An interface was created: its entry stands behind the others. -/
structure KniCreated (env : KniOpenEnv Kni) (L : KniList Kni) (args : KniOpenArgs)
    (L' : KniList Kni) (kni : KniEntry Kni) (kniPtr : Kni) : Prop where
  can : CanCreate env L args
  alloc : env.kniAlloc = some kniPtr
  ptr : kni.ptr = some kniPtr
  ipAddr : kni.ipAddr = args.ipAddr
  linkId : kni.linkId = args.linkId
  opsState : (L.kniInfoList.get? L.kniCount).map KniEntry.opsState = some kni.opsState
  entry : L.kniInfoList.set? L.kniCount kni = some L'.kniInfoList
  count : L'.kniCount = L.kniCount + 1

/-- `kni_open` adds a new interface and returns its pointer, or does nothing. -/
theorem kniOpen_outcome (env : KniOpenEnv Kni) (L : KniList Kni) (args : KniOpenArgs) :
    (kniOpen env L args = (L, none) ∧ ¬CanCreate env L args) ∨
      ∃ L' kni kniPtr, kniOpen env L args = (L', some kniPtr) ∧
        KniCreated env L args L' kni kniPtr := by
  unfold kniOpen
  split
  · rename_i hinit
    exact Or.inl ⟨rfl, fun hcan => hinit.2 (hcan.init hinit.1)⟩
  rename_i hinit
  split
  · rename_i hany
    exact Or.inl ⟨rfl, fun hcan => hcan.fresh hany⟩
  rename_i hfresh
  split
  swap
  · rename_i hfull
    exact Or.inl ⟨rfl, fun hcan => hfull hcan.room⟩
  rename_i hroom
  cases halloc : env.kniAlloc with
  | none =>
      refine Or.inl ⟨rfl, fun hcan => ?_⟩
      have hsome := hcan.alloc
      rw [halloc] at hsome
      cases hsome
  | some ptr =>
      have hcan : CanCreate env L args := by
        refine ⟨fun hzero => ?_, hfresh, hroom, by rw [halloc]; rfl⟩
        exact not_not.mp fun hne => hinit ⟨hzero, hne⟩
      refine Or.inr ⟨_, _, ptr, rfl, hcan, halloc, rfl, rfl, rfl, ?_,
        CArray.set?_of_lt _ hroom _, rfl⟩
      rw [CArray.get?_of_lt _ hroom]
      rfl

/-- The entries afterwards. -/
theorem kniOpen_cases (env : KniOpenEnv Kni) (L : KniList Kni) (args : KniOpenArgs) :
    (kniOpen env L args).1 = L ∨
      (kniOpen env L args).1.kniCount = L.kniCount + 1 ∧
      ∀ j : Fin maxKniPorts,
        (j.val ≠ L.kniCount → (kniOpen env L args).1.kniInfoList j = L.kniInfoList j) ∧
        (j.val = L.kniCount → ((kniOpen env L args).1.kniInfoList j).ptr.isSome ∧
          ((kniOpen env L args).1.kniInfoList j).opsState = (L.kniInfoList j).opsState) := by
  rcases kniOpen_outcome env L args with ⟨hsame, -⟩ | ⟨L', kni, ptr, hopen, hnew⟩
  · exact Or.inl (congrArg Prod.fst hsame)
  have hget (j : Fin maxKniPorts) :
      some (L'.kniInfoList j) =
        if j.val = L.kniCount then some kni else some (L.kniInfoList j) := by
    have h := CArray.get?_set? hnew.entry j.val
    rwa [CArray.get?_of_lt _ j.isLt, CArray.get?_of_lt _ j.isLt] at h
  rw [hopen]
  refine Or.inr ⟨hnew.count, fun j => ⟨fun hj => ?_, fun hj => ?_⟩⟩
  · have h := hget j
    rw [if_neg hj] at h
    exact Option.some.inj h
  · have h := hget j
    rw [if_pos hj] at h
    have hstate := hnew.opsState
    rw [← hj, CArray.get?_of_lt _ j.isLt] at hstate
    rw [Option.some.inj h, hnew.ptr]
    exact ⟨rfl, (Option.some.inj hstate).symm⟩

/-! ### The links -/

section link

variable {R R' : KniRun Kni}

theorem requested_one (last : Int → Option OpsState) (call : Int × OpsState) :
    requested last [call] = Function.update last call.1 (some call.2) := rfl

theorem KniInv.opened (h : KniInv R) (env : KniOpenEnv Kni) (args : KniOpenArgs) :
    KniInv ⟨(kniOpen env R.list args).1, R.last⟩ := by
  rcases kniOpen_cases env R.list args with heq | ⟨hcount, hentry⟩
  · rw [heq]
    exact h
  have hstate (j : Fin maxKniPorts) : ((kniOpen env R.list args).1.kniInfoList j).opsState =
      (R.list.kniInfoList j).opsState := by
    by_cases hj : j.val = R.list.kniCount
    · exact ((hentry j).2 hj).2
    · rw [(hentry j).1 hj]
  refine ⟨fun linkId hup => ?_, fun j hj => ?_, fun j hj => ?_⟩
  · obtain ⟨j, hj, hlink, hup⟩ := hup
    have hj : j.val < R.list.kniCount + 1 := Nat.lt_of_lt_of_eq hj hcount
    rcases Nat.lt_succ_iff_lt_or_eq.mp hj with hlt | hlast
    · rw [(hentry j).1 (Nat.ne_of_lt hlt)] at hlink hup
      exact h.enabled linkId ⟨j, hlt, hlink, hup⟩
    · rw [hstate, h.fresh j (Nat.le_of_eq hlast.symm)] at hup
      cases hup
  · have hj : j.val < R.list.kniCount + 1 := Nat.lt_of_lt_of_eq hj hcount
    rcases Nat.lt_succ_iff_lt_or_eq.mp hj with hlt | hlast
    · rw [(hentry j).1 (Nat.ne_of_lt hlt)]
      exact h.open_ j hlt
    · exact ((hentry j).2 hlast).1
  · have hj : R.list.kniCount + 1 ≤ j.val := hcount ▸ hj
    rw [hstate]
    exact h.fresh j (Nat.le_of_succ_le hj)

/-- The pointers and the new entries, when a state is written. -/
theorem KniInv.setOps (h : KniInv R) {i : Fin maxKniPorts} (hi : i.val < R.list.kniCount)
    {st : OpsState} {last : Int → Option OpsState}
    (henabled : ∀ linkId, (R.list.setOps i st).LinkUp linkId → last linkId = some .enabled) :
    KniInv ⟨R.list.setOps i st, last⟩ where
  enabled := henabled
  open_ j hj := by
    rw [KniList.setOps_ptr]
    exact h.open_ j hj
  fresh j hj := by
    have hji : j ≠ i := by
      intro heq
      subst heq
      exact absurd hi (Nat.not_lt.mpr hj)
    rw [KniList.setOps_of_ne hji]
    exact h.fresh j hj

/-- An interface that is up after another one of its link was configured down. -/
theorem linkUp_setOps_disabled {L : KniList Kni} {i : Fin maxKniPorts} (hi : i.val < L.kniCount)
    (linkId : Int) :
    (L.setOps i .disabled).LinkUp linkId ↔ ∃ j, j ≠ i ∧ j.val < L.kniCount ∧
      (L.kniInfoList j).linkId = linkId ∧ (L.kniInfoList j).opsState = .enabled := by
  rw [KniList.LinkUp, KniList.any_setOps hi, or_iff_right]
  intro h
  cases h.2

theorem KniInv.step (h : KniInv R) (e : KniEvent Kni) (hstep : kniStep R e = some R') :
    KniInv R' := by
  cases e with
  | opened env args =>
      obtain rfl := Option.some.inj hstep
      exact h.opened env args
  | config kniId kniState =>
      obtain rfl := Option.some.inj hstep
      by_cases hid : kniId.toNat < R.list.kniCount
      swap
      · rw [callbackFuncKniIfConfig_invalid kniState (Nat.not_lt.mp hid)]
        exact h
      let i : Fin maxKniPorts := ⟨kniId.toNat, Nat.lt_of_lt_of_le hid R.list.kniCount_le⟩
      have hi : i.val < R.list.kniCount := hid
      have hptr := h.open_ i hi
      by_cases hup : kniState = ethLinkUp
      · subst hup
        rw [callbackFuncKniIfConfig_up i rfl hi hptr, requested_one]
        apply h.setOps hi
        intro linkId hlink
        by_cases hsame : linkId = (R.list.kniInfoList i).linkId
        · rw [hsame, Function.update_self]
        rw [Function.update_of_ne hsame]
        rcases (KniList.any_setOps hi _).mp hlink with hself | ⟨j, -, hj, hkni⟩
        · exact absurd hself.1.symm hsame
        · exact h.enabled linkId ⟨j, hj, hkni⟩
      · rw [callbackFuncKniIfConfig_down i hup rfl hi hptr]
        apply h.setOps hi
        intro linkId hlink
        obtain ⟨j, hji, hj, hlinkId, hstate⟩ := (linkUp_setOps_disabled hi linkId).mp hlink
        have henabled := h.enabled linkId ⟨j, hj, hlinkId, hstate⟩
        split
        · exact henabled
        · rename_i hscan
          rw [requested_one, Function.update_of_ne]
          · exact henabled
          · intro hsame
            exact hscan ⟨j, hji, hj, hlinkId.trans hsame, by rw [hstate]; decide⟩

/-- **One event.**  The link follows exactly when what goes down leaves its link
settled. -/
theorem KniInv.follows_iff (h : KniInv R) (e : KniEvent Kni) :
    LinkFollows R e ↔ DownSettled R e := by
  cases e with
  | opened env args => exact Iff.rfl
  | config kniId kniState =>
      by_cases hid : kniId.toNat < R.list.kniCount
      swap
      · have hinvalid := callbackFuncKniIfConfig_invalid kniState (Nat.not_lt.mp hid)
        refine iff_of_true ⟨fun _ => congrArg Prod.snd hinvalid, ?_⟩ ?_
        · intro i hi hlt
          exact absurd (hi ▸ hlt) hid
        · intro _ i hi hlt
          exact absurd (hi ▸ hlt) hid
      let i : Fin maxKniPorts := ⟨kniId.toNat, Nat.lt_of_lt_of_le hid R.list.kniCount_le⟩
      have hi : i.val < R.list.kniCount := hid
      have hptr := h.open_ i hi
      have honly (j : Fin maxKniPorts) (hj : j.val = kniId.toNat) : j = i := Fin.ext hj
      by_cases hup : kniState = ethLinkUp
      · subst hup
        refine iff_of_true ⟨fun hno => absurd hid (Nat.not_lt.mpr hno), ?_⟩
          (fun hdown => absurd rfl hdown)
        intro j hj _
        obtain rfl := honly j hj
        rw [callbackFuncKniIfConfig_up i rfl hi hptr]
        refine ⟨by simp, fun _ => ?_, fun hno => ?_⟩
        · exact Function.update_self _ _ _
        · exact absurd ((KniList.any_setOps hi _).mpr (Or.inl ⟨rfl, rfl⟩)) hno
      have hcall := callbackFuncKniIfConfig_down i hup rfl hi hptr
      have hlink := linkUp_setOps_disabled hi (R.list.kniInfoList i).linkId
      constructor
      · intro hfollows _ j hj _
        obtain rfl := honly j hj
        obtain ⟨-, -, hdisabled⟩ := hfollows.2 i rfl hi
        rw [hcall] at hdisabled
        by_cases hany : ∃ j, j ≠ i ∧ j.val < R.list.kniCount ∧
            (R.list.kniInfoList j).linkId = (R.list.kniInfoList i).linkId ∧
            (R.list.kniInfoList j).opsState = .enabled
        · refine Or.inl fun hothers => ?_
          obtain ⟨j, hji, hj, hlinkId, hstate⟩ := hany
          exact hothers j hji hj hlinkId hstate
        have hlast := hdisabled fun hup => hany (hlink.mp hup)
        split at hlast
        · exact Or.inr (Or.inr hlast)
        · rename_i hscan
          refine Or.inr (Or.inl fun j hji hj hlinkId => ?_)
          by_contra hstate
          exact hscan ⟨j, hji, hj, hlinkId, hstate⟩
      · intro hsettled
        refine ⟨fun hno => absurd hid (Nat.not_lt.mpr hno), fun j hj _ => ?_⟩
        obtain rfl := honly j hj
        rw [hcall]
        refine ⟨?_, fun hup => ?_, fun hno => ?_⟩
        · split <;> simp
        · obtain ⟨j, hji, hj, hlinkId, hstate⟩ := hlink.mp hup
          rw [if_pos ⟨j, hji, hj, hlinkId, by rw [hstate]; decide⟩]
          exact h.enabled _ ⟨j, hj, hlinkId, hstate⟩
        rcases hsettled hup i rfl hi with hany | hothers | hlast
        · refine absurd (fun j hji hj hlinkId hstate => ?_) hany
          exact hno (hlink.mpr ⟨j, hji, hj, hlinkId, hstate⟩)
        · rw [if_neg]
          · exact Function.update_self _ _ _
          · intro hscan
            obtain ⟨j, hji, hj, hlinkId, hstate⟩ := hscan
            exact hstate (hothers j hji hj hlinkId)
        · split
          · exact hlast
          · exact Function.update_self _ _ _

/-- In any run of interfaces opened and configured, the links follow their interfaces
exactly when every interface that goes down leaves its link settled. -/
theorem kniConfig_follows_iff (events : List (KniEvent Kni)) :
    Along kniStep LinkFollows (KniRun.init Kni) events ↔
      Along kniStep DownSettled (KniRun.init Kni) events :=
  along_congr (fun _ e _ hinv hstep => hinv.step e hstep) (fun _ e hinv => hinv.follows_iff e)
    KniInv.init

end link

/-- The names `NGu0` and `NGu1`. -/
def ngu0 : CStr := ⟨[78, 71, 117, 48], by decide⟩
def ngu1 : CStr := ⟨[78, 71, 117, 49], by decide⟩

/-- Two interfaces on link 0, of which the first goes up and down. -/
def halfConfigured : List (KniEvent Unit) :=
  [.opened ⟨0, none, some ()⟩ ⟨0, ngu0, 0xC0A839C8, 24⟩,
   .opened ⟨0, none, some ()⟩ ⟨0, ngu1, 0xC0A839C9, 24⟩,
   .config 0 1,
   .config 0 0]

/-- Link 0 stays enabled. -/
theorem halfConfigured_not_follows :
    ¬ Along kniStep LinkFollows (KniRun.init Unit) halfConfigured := by
  intro h
  obtain ⟨R, hrun, hcount, hlinkId, hdown, hlast⟩ : ∃ R,
      exec kniStep (KniRun.init Unit) (halfConfigured.take 3) = some R ∧
        0 < R.list.kniCount ∧ (R.list.kniInfoList ⟨0, by decide⟩).linkId = 0 ∧
        ¬(callbackFuncKniIfConfig R.list 0 0).1.LinkUp 0 ∧
        requested R.last (callbackFuncKniIfConfig R.list 0 0).2 0 = some .enabled :=
    ⟨_, rfl, by decide, by decide, by decide, by decide⟩
  have hdrop : Along kniStep LinkFollows R [.config 0 0] :=
    Along.drop (show Along kniStep LinkFollows _ (halfConfigured.take 3 ++ [.config 0 0]) from h)
      hrun
  obtain ⟨-, -, hdisabled⟩ := hdrop.1.2 ⟨0, by decide⟩ rfl hcount
  rw [hlinkId] at hdisabled
  cases (hdisabled hdown).symm.trans hlast

end Pfm
