import Pfm.FrameClass
import Pfm.Ingress
import Pfm.KniConfig

/-!
# The interfaces of the classifier

`pfm_ingress_classifier_add` of `pfm_classifier.c`: an interface is opened in
`pfm_kni.c` and listed in the classifier table of its link.  Only `kni_open` counts
the interfaces against `MAX_KNI_PORTS`; the table of a link has room for as many and
is written to without a look at its length.

* `ClassifierInv` : the table of a link is the part of the interfaces created so far
  that is on the link;
* `pfmIngressClassifierAdd_agree` : the tables agree after any calls, none of which
  leaves a table;
* `packetClassify_created` : a packet is given to an interface of the link that it
  came from.
-/

namespace Pfm

open BoundedLoop StepSystem

/-- `ingress_classifier_t` with its array, NULL where nothing was written. -/
structure IngressTable (Kni : Type) where
  kniCount : Nat
  kniMap : CArray maxKniPorts (KniMapping (Option Kni))

/-- `ingress_classifier_g`, `first_call`, and the interfaces of `pfm_kni.c`. -/
structure ClassifierState (Kni : Type) where
  tables : CArray (lastLinkId + 1) (IngressTable Kni)
  firstCall : Bool
  kniList : KniList Kni

/-- The arguments of `pfm_ingress_classifier_add`, and what the libraries answer. -/
structure ClassifierAddCall (Kni : Type) where
  linkId : Int
  kniName : CStr
  localIpAddr : PfmIpAddr
  subnetMaskLen : Int
  portNo : Int
  env : KniOpenEnv Kni

variable {Kni : Type}

/-- What is passed on to `kni_open`. -/
def ClassifierAddCall.openArgs (call : ClassifierAddCall Kni) : KniOpenArgs :=
  ⟨call.linkId, call.kniName, call.localIpAddr, call.subnetMaskLen⟩

/-- Program start: zeroed tables. -/
def ClassifierState.init (Kni : Type) : ClassifierState Kni where
  tables _ := ⟨0, fun _ => ⟨none, 0, 0⟩⟩
  firstCall := true
  kniList := KniList.init Kni

/-- `ingress_classifier_g[idx].kni_count = 0`. -/
def resetCount (idx : Nat) (tables : CArray (lastLinkId + 1) (IngressTable Kni)) :
    Option (CArray (lastLinkId + 1) (IngressTable Kni)) := do
  let ic ← tables.get? idx
  tables.set? idx { ic with kniCount := 0 }

/-- The loop of the first call. -/
def resetCounts (tables : CArray (lastLinkId + 1) (IngressTable Kni)) :
    Option (CArray (lastLinkId + 1) (IngressTable Kni)) :=
  forRange resetCount (lastLinkId + 1) tables

/-- `ingress_classifier_g` after the test of `first_call`. -/
def initTables (S : ClassifierState Kni) :
    Option (CArray (lastLinkId + 1) (IngressTable Kni)) :=
  if S.firstCall then resetCounts S.tables else some S.tables

/-- Write the entry after the last one; `none` past the end of `kni_map`. -/
def IngressTable.add (ic : IngressTable Kni) (entry : KniMapping (Option Kni)) :
    Option (IngressTable Kni) := do
  let kniMap ← ic.kniMap.set? ic.kniCount entry
  some ⟨ic.kniCount + 1, kniMap⟩

def pfmIngressClassifierAdd (call : ClassifierAddCall Kni) (S : ClassifierState Kni) :
    Option (PfmRetval × ClassifierState Kni) := do
  let link ← CArray.index? (lastLinkId + 1) call.linkId
  let tables ← initTables S
  let (kniList, kniPtr) := kniOpen call.env S.kniList call.openArgs
  match kniPtr with
  | none => some (.failed, ⟨tables, false, kniList⟩)
  | some kniPtr => do
      let ic ← (tables link).add ⟨some kniPtr, call.localIpAddr, call.portNo⟩
      some (.success, ⟨Function.update tables link ic, false, kniList⟩)

/-! ### Runs -/

/-- An interface that was created, and its link. -/
structure Creation (Kni : Type) extends KniMapping Kni where
  linkId : Int

/-- The state, and the interfaces created so far, in order. -/
structure ClassifierRun (Kni : Type) where
  state : ClassifierState Kni
  created : List (Creation Kni)

/-- Program start. -/
def ClassifierRun.init (Kni : Type) : ClassifierRun Kni := ⟨ClassifierState.init Kni, []⟩

/-- What a call that returned `ret` has created. -/
def ClassifierAddCall.creates (call : ClassifierAddCall Kni) (ret : PfmRetval) :
    List (Creation Kni) :=
  match ret, call.env.kniAlloc with
  | .success, some kni => [⟨⟨kni, call.localIpAddr, call.portNo⟩, call.linkId⟩]
  | _, _ => []

def classifierStep (R : ClassifierRun Kni) (call : ClassifierAddCall Kni) :
    Option (ClassifierRun Kni) := do
  let (ret, state) ← pfmIngressClassifierAdd call R.state
  some ⟨state, R.created ++ call.creates ret⟩

/-! ### What the tables list -/

/-- The first `kni_count` entries of `kni_map`. -/
def IngressTable.entries (ic : IngressTable Kni) : List (KniMapping (Option Kni)) :=
  ic.kniMap.firstN ic.kniCount

/-- The first `kni_count_g` entries of `kni_info_list_g`. -/
def KniList.entries (L : KniList Kni) : List (KniEntry Kni) := L.kniInfoList.firstN L.kniCount

/-- The pointer and the address. -/
def KniMapping.pair (kni : KniMapping Kni) : Kni × PfmIpAddr := (kni.kniPtr, kni.localIpAddr)

/-- The pointer and the address. -/
def KniEntry.pair (kni : KniEntry Kni) : Option Kni × PfmIpAddr := (kni.ptr, kni.ipAddr)

/-- An entry as it is written to `kni_map`. -/
def KniMapping.stored (kni : KniMapping Kni) : KniMapping (Option Kni) :=
  ⟨some kni.kniPtr, kni.localIpAddr, kni.portNo⟩

/-- The entries of `kni_info_list_g` that are on a link. -/
def KniList.onLink (L : KniList Kni) (link : Fin (lastLinkId + 1)) : List (KniEntry Kni) :=
  L.entries.filter fun kni => kni.linkId = (link.val : Int)

/-- The interfaces created on a link, in order. -/
def onLink (created : List (Creation Kni)) (link : Fin (lastLinkId + 1)) :
    List (KniMapping Kni) :=
  (created.filter fun kni => kni.linkId = (link.val : Int)).map Creation.toKniMapping

/-- The table of a link lists the interfaces of the link, and the interfaces are listed
in the order in which they were created. -/
structure TablesAgree (R : ClassifierRun Kni) : Prop where
  listed : ∀ link, (R.state.tables link).entries.map KniMapping.pair =
    (R.state.kniList.onLink link).map KniEntry.pair
  order : R.state.kniList.entries.map (fun kni => (kni.linkId, kni.pair)) =
    R.created.map fun kni => (kni.linkId, kni.stored.pair)
  count_le : ∀ link, (R.state.tables link).kniCount ≤ R.state.kniList.kniCount
  room : R.state.kniList.kniCount ≤ maxKniPorts

/-- A call that does not succeed leaves both tables as they are. -/
def FailedKeeps (R : ClassifierRun Kni) (call : ClassifierAddCall Kni) : Prop :=
  ∀ ret S, pfmIngressClassifierAdd call R.state = some (ret, S) → ret ≠ .success →
    S.tables = R.state.tables ∧ S.kniList = R.state.kniList

/-- A call succeeds when the interface can be created, no matter what is listed for its
link. -/
def SucceedsIff (R : ClassifierRun Kni) (call : ClassifierAddCall Kni) : Prop :=
  (∃ S, pfmIngressClassifierAdd call R.state = some (.success, S)) ↔
    CanCreate call.env R.state.kniList call.openArgs

/-- The table has these interfaces and no others. -/
structure IngressTable.Lists (ic : IngressTable Kni) (knis : List (KniMapping Kni)) : Prop where
  count : ic.kniCount = knis.length
  entries : ic.entries = knis.map KniMapping.stored

/-- What every call keeps: the table of a link is the part of the interfaces created
that is on the link, and nothing was created before the first call. -/
structure ClassifierInv (R : ClassifierRun Kni) : Prop where
  tables : ∀ link, (R.state.tables link).Lists (onLink R.created link)
  kniList : R.state.kniList.entries.map (fun kni => (kni.linkId, kni.pair)) =
    R.created.map fun kni => (kni.linkId, kni.stored.pair)
  kniCount : R.state.kniList.kniCount = R.created.length
  first : R.state.firstCall = true → R.created = []

theorem ClassifierInv.init : ClassifierInv (ClassifierRun.init Kni) where
  tables _ := ⟨rfl, rfl⟩
  kniList := rfl
  kniCount := rfl
  first _ := rfl

/-! ### The parts of a call -/

theorem resetCount_eq (tables : CArray (lastLinkId + 1) (IngressTable Kni)) {idx : Nat}
    (h : idx < lastLinkId + 1) :
    resetCount idx tables = some
      (Function.update tables ⟨idx, h⟩ { tables ⟨idx, h⟩ with kniCount := 0 }) := by
  rw [resetCount, CArray.get?_of_lt _ h, Option.bind_eq_bind, Option.bind_some,
    CArray.set?_of_lt _ h]

/-- The tables below the index are empty, the others as they were. -/
def EmptyBelow (tables : CArray (lastLinkId + 1) (IngressTable Kni)) (idx : Nat)
    (tables' : CArray (lastLinkId + 1) (IngressTable Kni)) : Prop :=
  ∀ link, tables' link =
    if link.val < idx then { tables link with kniCount := 0 } else tables link

theorem EmptyBelow.step {tables tables' : CArray (lastLinkId + 1) (IngressTable Kni)} {idx : Nat}
    (h : EmptyBelow tables idx tables') (hidx : idx < lastLinkId + 1) :
    ∃ t, resetCount idx tables' = some t ∧ EmptyBelow tables (idx + 1) t := by
  refine ⟨_, resetCount_eq tables' hidx, fun link => ?_⟩
  by_cases heq : link = ⟨idx, hidx⟩
  · subst heq
    rw [Function.update_self, h, if_neg (Nat.lt_irrefl idx), if_pos (Nat.lt_succ_self idx)]
  · have hne : link.val ≠ idx := fun hval => heq (Fin.ext hval)
    rw [Function.update_of_ne heq, h]
    simp only [Nat.lt_succ_iff_lt_or_eq, hne, or_false]

/-- The first call empties every table. -/
theorem resetCounts_eq (tables : CArray (lastLinkId + 1) (IngressTable Kni)) :
    resetCounts tables = some fun link => { tables link with kniCount := 0 } := by
  obtain ⟨t, hreset, ht⟩ := forRange_isSome (EmptyBelow tables)
    (fun link => (if_neg (Nat.not_lt_zero link.val)).symm)
    fun idx t hidx (h : EmptyBelow tables idx t) => h.step hidx
  rw [resetCounts, hreset]
  refine congrArg some (funext fun link => ?_)
  rw [ht, if_pos link.isLt]

/-- An entry fits behind the others while the table has room. -/
theorem IngressTable.Lists.add {ic : IngressTable Kni} {knis : List (KniMapping Kni)}
    (h : ic.Lists knis) (hroom : ic.kniCount < maxKniPorts) (kni : KniMapping Kni) :
    ∃ ic', ic.add kni.stored = some ic' ∧ ic'.Lists (knis ++ [kni]) := by
  obtain ⟨kniMap, hset⟩ : ∃ kniMap, ic.kniMap.set? ic.kniCount kni.stored = some kniMap :=
    ⟨_, CArray.set?_of_lt ic.kniMap hroom kni.stored⟩
  refine ⟨⟨ic.kniCount + 1, kniMap⟩, ?_, ?_, ?_⟩
  · rw [IngressTable.add, hset]
    rfl
  · rw [h.count, List.length_append]
    rfl
  · rw [IngressTable.entries, CArray.firstN_succ_set? hset, List.map_append]
    exact congrArg (· ++ [kni.stored]) h.entries

theorem KniCreated.entries {env : KniOpenEnv Kni} {L L' : KniList Kni} {args : KniOpenArgs}
    {kni : KniEntry Kni} {kniPtr : Kni} (h : KniCreated env L args L' kni kniPtr) :
    L'.entries = L.entries ++ [kni] := by
  rw [KniList.entries, h.count, CArray.firstN_succ_set? h.entry, KniList.entries]

section creation

variable {created : List (Creation Kni)} {kni : Creation Kni} {link : Fin (lastLinkId + 1)}

theorem onLink_append_self (h : kni.linkId = link.val) :
    onLink (created ++ [kni]) link = onLink created link ++ [kni.toKniMapping] := by
  simp [onLink, h]

theorem onLink_append_other (h : kni.linkId ≠ link.val) :
    onLink (created ++ [kni]) link = onLink created link := by
  simp [onLink, h]

theorem length_onLink_le (created : List (Creation Kni)) (link : Fin (lastLinkId + 1)) :
    (onLink created link).length ≤ created.length := by
  rw [onLink, List.length_map]
  exact List.length_filter_le _ _

end creation

/-! ### One call -/

section call

variable {R : ClassifierRun Kni} {call : ClassifierAddCall Kni} {link : Fin (lastLinkId + 1)}

/-- The reset of the first call finds empty tables. -/
theorem ClassifierInv.initTables (h : ClassifierInv R) :
    initTables R.state = some R.state.tables := by
  unfold Pfm.initTables
  split
  · rename_i hfirst
    rw [resetCounts_eq]
    refine congrArg some (funext fun link => ?_)
    have hempty : (R.state.tables link).kniCount = 0 := by
      rw [(h.tables link).count, h.first hfirst]
      rfl
    rw [← hempty]
  · rfl

/-- The table of a link is no longer than the list of interfaces. -/
theorem ClassifierInv.count_le (h : ClassifierInv R) (link : Fin (lastLinkId + 1)) :
    (R.state.tables link).kniCount ≤ R.state.kniList.kniCount := by
  rw [(h.tables link).count, h.kniCount]
  exact length_onLink_le _ _

/-- A new interface finds room in the table of its link. -/
theorem ClassifierInv.added (h : ClassifierInv R) {args : KniOpenArgs}
    (hlink : args.linkId = link.val) {L' : KniList Kni} {kni : KniEntry Kni} {kniPtr : Kni}
    (hnew : KniCreated call.env R.state.kniList args L' kni kniPtr) (portNo : Int) :
    ∃ ic, (R.state.tables link).add ⟨some kniPtr, args.ipAddr, portNo⟩ = some ic ∧
      ClassifierInv ⟨⟨Function.update R.state.tables link ic, false, L'⟩,
        R.created ++ [⟨⟨kniPtr, args.ipAddr, portNo⟩, args.linkId⟩]⟩ := by
  have hroom : (R.state.tables link).kniCount < maxKniPorts :=
    Nat.lt_of_le_of_lt (h.count_le link) (CArray.lt_of_set? hnew.entry)
  obtain ⟨ic, hadd, hlists⟩ := (h.tables link).add hroom ⟨kniPtr, args.ipAddr, portNo⟩
  refine ⟨ic, hadd, ⟨fun other => ?_, ?_, ?_, nofun⟩⟩
  · dsimp only
    by_cases hother : other = link
    · subst hother
      rw [Function.update_self, onLink_append_self hlink]
      exact hlists
    · have hne : args.linkId ≠ other.val := by
        rw [hlink]
        exact fun heq => hother (Fin.ext (Int.ofNat.inj heq)).symm
      rw [Function.update_of_ne hother, onLink_append_other hne]
      exact h.tables other
  · dsimp only
    rw [hnew.entries, List.map_append, List.map_append, h.kniList]
    simp [KniEntry.pair, KniMapping.pair, KniMapping.stored, hnew.ptr, hnew.ipAddr, hnew.linkId]
  · rw [hnew.count, h.kniCount, List.length_append]
    rfl

/-- What a call does: nothing, or one interface more. -/
inductive AddOutcome (R : ClassifierRun Kni) (call : ClassifierAddCall Kni) :
    PfmRetval → ClassifierState Kni → Prop
  | refused (cannot : ¬CanCreate call.env R.state.kniList call.openArgs) :
      AddOutcome R call .failed ⟨R.state.tables, false, R.state.kniList⟩
  | added (S : ClassifierState Kni) (kniPtr : Kni) (alloc : call.env.kniAlloc = some kniPtr)
      (can : CanCreate call.env R.state.kniList call.openArgs)
      (inv : ClassifierInv
        ⟨S, R.created ++ [⟨⟨kniPtr, call.localIpAddr, call.portNo⟩, call.linkId⟩]⟩) :
      AddOutcome R call .success S

theorem pfmIngressClassifierAdd_outcome (h : ClassifierInv R)
    (hlink : call.linkId = link.val) :
    ∃ ret S, pfmIngressClassifierAdd call R.state = some (ret, S) ∧ AddOutcome R call ret S := by
  unfold pfmIngressClassifierAdd
  simp only [CArray.index?_of_val hlink, h.initTables, Option.bind_eq_bind, Option.bind_some]
  rcases kniOpen_outcome call.env R.state.kniList call.openArgs with
    ⟨hsame, hcannot⟩ | ⟨L', kni, kniPtr, hopen, hnew⟩
  · rw [hsame]
    exact ⟨_, _, rfl, .refused hcannot⟩
  · obtain ⟨ic, hadd, hinv⟩ := h.added hlink hnew call.portNo
    rw [hopen]
    dsimp only [ClassifierAddCall.openArgs] at hadd ⊢
    rw [hadd]
    exact ⟨_, _, rfl, .added _ kniPtr hnew.alloc hnew.can hinv⟩

theorem AddOutcome.inv {ret : PfmRetval} {S : ClassifierState Kni} (h : ClassifierInv R)
    (hout : AddOutcome R call ret S) : ClassifierInv ⟨S, R.created ++ call.creates ret⟩ := by
  cases hout with
  | refused =>
      change ClassifierInv ⟨_, R.created ++ []⟩
      rw [List.append_nil]
      exact ⟨h.tables, h.kniList, h.kniCount, nofun⟩
  | added S kniPtr alloc can inv =>
      simp only [ClassifierAddCall.creates, alloc]
      exact inv

theorem ClassifierInv.step (h : ClassifierInv R) (hlink : call.linkId = link.val) :
    ∃ R', classifierStep R call = some R' ∧ ClassifierInv R' := by
  obtain ⟨ret, S, hadd, hout⟩ := pfmIngressClassifierAdd_outcome h hlink
  exact ⟨_, by rw [classifierStep, hadd]; rfl, hout.inv h⟩

theorem ClassifierInv.success_iff (h : ClassifierInv R) (hlink : call.linkId = link.val) :
    SucceedsIff R call := by
  obtain ⟨ret, S, hadd, hout⟩ := pfmIngressClassifierAdd_outcome h hlink
  rw [SucceedsIff, hadd]
  cases hout with
  | refused cannot => exact iff_of_false (fun hex => nomatch hex) cannot
  | added S kniPtr alloc can inv => exact iff_of_true ⟨S, rfl⟩ can

theorem ClassifierInv.failedKeeps (h : ClassifierInv R) (hlink : call.linkId = link.val) :
    FailedKeeps R call := by
  intro ret S hadd hret
  obtain ⟨ret', S', hadd', hout⟩ := pfmIngressClassifierAdd_outcome h hlink
  obtain ⟨rfl, rfl⟩ := Prod.mk.inj (Option.some.inj (hadd'.symm.trans hadd))
  cases hout with
  | refused => exact ⟨rfl, rfl⟩
  | added => exact absurd rfl hret

end call

/-! ### Runs -/

section run

variable {R : ClassifierRun Kni}

/-- The interfaces of a link, in the list of `pfm_kni.c`. -/
theorem ClassifierInv.onLink (h : ClassifierInv R) (link : Fin (lastLinkId + 1)) :
    (R.state.kniList.onLink link).map KniEntry.pair =
      (onLink R.created link).map fun kni => kni.stored.pair := by
  have hlist :=
    congrArg (fun l => (l.filter fun p => p.1 = (link.val : Int)).map Prod.snd) h.kniList
  simpa only [List.filter_map, List.map_map, Function.comp_def, KniList.onLink, Pfm.onLink]
    using hlist

theorem ClassifierInv.agree (h : ClassifierInv R) : TablesAgree R where
  listed link := by
    rw [h.onLink, (h.tables link).entries, List.map_map]
    rfl
  order := h.kniList
  count_le := h.count_le
  room := R.state.kniList.kniCount_le

/-- A link of the classifier. -/
theorem exists_link {linkId : Int} (h : 0 ≤ linkId ∧ linkId ≤ lastLinkId) :
    ∃ link : Fin (lastLinkId + 1), linkId = link.val :=
  ⟨⟨linkId.toNat, by omega⟩, (Int.toNat_of_nonneg h.1).symm⟩

theorem ClassifierInv.run {calls : List (ClassifierAddCall Kni)}
    (hlinks : ∀ call ∈ calls, 0 ≤ call.linkId ∧ call.linkId ≤ lastLinkId) :
    ∃ R, exec classifierStep (ClassifierRun.init Kni) calls = some R ∧ ClassifierInv R := by
  refine exec_total (fun R call (h : ClassifierInv R) hlink => ?_) ClassifierInv.init hlinks
  obtain ⟨link, hlink⟩ := exists_link hlink
  exact h.step hlink

/-- **The two tables.**  After any calls for links of the classifier, whatever the
libraries answer, the table of every link lists the interfaces of the link in the order
in which they were created; no call writes outside a table, one that fails leaves both as
they are, and one succeeds when its interface can be created. -/
theorem pfmIngressClassifierAdd_agree (calls : List (ClassifierAddCall Kni))
    (hlinks : ∀ call ∈ calls, 0 ≤ call.linkId ∧ call.linkId ≤ lastLinkId) :
    (∃ R, exec classifierStep (ClassifierRun.init Kni) calls = some R ∧ TablesAgree R) ∧
    Along classifierStep (fun R call => FailedKeeps R call ∧ SucceedsIff R call)
      (ClassifierRun.init Kni) calls := by
  constructor
  · obtain ⟨R, hrun, hinv⟩ := ClassifierInv.run hlinks
    exact ⟨R, hrun, hinv.agree⟩
  · refine along_of_inputs (fun R call (h : ClassifierInv R) hlink => ?_) ClassifierInv.init hlinks
    obtain ⟨link, hlink⟩ := exists_link hlink
    obtain ⟨R', hstep, h'⟩ := h.step hlink
    exact ⟨⟨h.failedKeeps hlink, h.success_iff hlink⟩, (forall_next hstep).mpr h'⟩

/-- The names `F1u0` and `F1u1`. -/
def f1u0 : CStr := ⟨[70, 49, 117, 48], by decide⟩
def f1u1 : CStr := ⟨[70, 49, 117, 49], by decide⟩

/-- The calls of `main`, where the second interface cannot be allocated. -/
def mainCalls : List (ClassifierAddCall Nat) :=
  [⟨0, ngu0, 0xC0A839C8, 24, 2152, ⟨0, none, some 10⟩⟩,
   ⟨0, ngu1, 0xC0A839C9, 24, 2152, ⟨0, none, none⟩⟩,
   ⟨1, f1u0, 0xC0A83ACA, 24, 2152, ⟨0, none, some 11⟩⟩,
   ⟨1, f1u1, 0xC0A83ACB, 24, 2152, ⟨0, none, some 12⟩⟩]

theorem mainCalls_agree :
    (∀ call ∈ mainCalls, 0 ≤ call.linkId ∧ call.linkId ≤ lastLinkId) ∧
    (∃ R, exec classifierStep (ClassifierRun.init Nat) mainCalls = some R ∧ TablesAgree R) ∧
    Along classifierStep (fun R call => FailedKeeps R call ∧ SucceedsIff R call)
      (ClassifierRun.init Nat) mainCalls :=
  ⟨by decide, pfmIngressClassifierAdd_agree mainCalls (by decide)⟩

end run

/-! ### What the packet path reads -/

section classify

variable {R : ClassifierRun Kni}

theorem ClassifierInv.length_created_le (h : ClassifierInv R) : R.created.length ≤ maxKniPorts :=
  h.kniCount ▸ R.state.kniList.kniCount_le

/-- The tables of the links as `ingress_classify` reads them. -/
def ClassifierRun.classifiers (R : ClassifierRun Kni) (h : R.created.length ≤ maxKniPorts) :
    CArray (lastLinkId + 1) (IngressClassifier Kni) :=
  fun link => ⟨onLink R.created link, Nat.le_trans (length_onLink_le R.created link) h⟩

/-- The pointer comes from an entry with the destination address. -/
theorem packetClassify_kniPtr {M : RteMbuf} {ic : IngressClassifier Kni} {m : M.Mbuf} {kniPtr : Kni}
    (h : (packetClassify ic m).2 = some kniPtr) :
    ∃ kni ∈ ic.kniMap, kni.kniPtr = kniPtr ∧ kni.localIpAddr = rxDstAddr m := by
  by_cases hipv4 : RxIpv4 m
  swap
  · rw [packetClassify_of_not_ipv4 hipv4] at h
    cases h
  by_cases hbcast : rxDstAddr m = bcastIpAddr
  · rw [packetClassify_of_bcast hipv4 hbcast] at h
    cases h
  cases hkni : ic.kniOf (rxDstAddr m) with
  | none =>
      rw [packetClassify_of_unlisted hipv4 hbcast hkni] at h
      cases h
  | some kni =>
      rw [packetClassify_of_kni hipv4 hbcast hkni] at h
      rw [IngressClassifier.kniOf] at hkni
      exact ⟨kni, List.mem_of_find?_eq_some hkni, Option.some.inj h,
        of_decide_eq_true (List.find?_some hkni :)⟩

/-- **From the tables to the packets.**  After any calls there are classifiers that the
tables list, and a packet is only given to an interface of the link it came from, which
has the packet's destination for its address. -/
theorem packetClassify_created {calls : List (ClassifierAddCall Kni)}
    (hlinks : ∀ call ∈ calls, 0 ≤ call.linkId ∧ call.linkId ≤ lastLinkId)
    (hrun : exec classifierStep (ClassifierRun.init Kni) calls = some R) :
    ∃ tables : CArray (lastLinkId + 1) (IngressClassifier Kni),
      (∀ link, (R.state.tables link).Lists (tables link).kniMap) ∧
      ∀ (M : RteMbuf) (link : Fin (lastLinkId + 1)) (m : M.Mbuf) (kniPtr : Kni),
        (packetClassify (tables link) m).2 = some kniPtr →
        ∃ kni ∈ R.state.kniList.onLink link, kni.ptr = some kniPtr ∧ kni.ipAddr = rxDstAddr m := by
  have h : ClassifierInv R := by
    obtain ⟨R', hrun', h⟩ := ClassifierInv.run hlinks
    obtain rfl := Option.some.inj (hrun'.symm.trans hrun)
    exact h
  refine ⟨R.classifiers h.length_created_le, h.tables, fun M link m kniPtr hm => ?_⟩
  obtain ⟨kni, hmem, hptr, hip⟩ := packetClassify_kniPtr hm
  have hpair : (some kniPtr, rxDstAddr m) ∈ (R.state.kniList.onLink link).map KniEntry.pair := by
    rw [h.onLink link]
    exact List.mem_map.mpr ⟨kni, hmem, by rw [← hptr, ← hip]; rfl⟩
  obtain ⟨entry, hentry, heq⟩ := List.mem_map.mp hpair
  obtain ⟨hptr, hip⟩ := Prod.mk.inj heq
  exact ⟨entry, hentry, hptr, hip⟩

end classify

end Pfm
