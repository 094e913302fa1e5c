import Pfm.KniConfig
import Pfm.LinkRead

/-!
# Reading the interfaces

`kni_close` and `kni_read` of `pfm_kni.c`.  `kni_read` polls the interfaces in turn as
`link_read` does the links; before it polls one it handles a request of the kernel,
which may configure that interface up or down.

* `KniReadInv` : the cursor is behind the interface served last, and an entry that is
  not in use yet has no pointer;
* `reads_inTurn` : every call of `link_read` and `kni_read` polls in turn.
-/

namespace Pfm

open BoundedLoop StepSystem RoundRobin

variable {Kni Pkt : Type}

/-- Write the pointer of an interface. -/
def KniList.setPtr (L : KniList Kni) (i : Fin maxKniPorts) (ptr : Option Kni) : KniList Kni :=
  { L with kniInfoList := Function.update L.kniInfoList i { L.kniInfoList i with ptr := ptr } }

def kniClose [DecidableEq Kni] (L : KniList Kni) (kni : Kni) : Option (KniList Kni) := do
  let found ← firstIndex
    (fun i => (L.kniInfoList.get? i).map fun info => info.ptr = some kni) L.kniCount
  match found with
  | none => some L
  | some idx => if h : idx < maxKniPorts then some (L.setPtr ⟨idx, h⟩ none) else none

/-- `request` is the state that the kernel asks of an interface, when a request is
pending, and `rx` what `rte_kni_rx_burst` receives. -/
structure KniReadEnv (Kni Pkt : Type) where
  request : Nat → Option UInt8
  rx : Kni → List Pkt

/-- `rte_kni_handle_request` for the interface `i`: its port id is its index. -/
def rteKniHandleRequest (env : KniReadEnv Kni Pkt) (L : KniList Kni) (i : Nat) : KniList Kni :=
  match env.request i with
  | none => L
  | some kniState => (callbackFuncKniIfConfig L (UInt16.ofNat i) kniState).1

/-- The state of the loop is the list, and what was stored in `*link_id`. -/
def kniRead (L : KniList Kni) (env : KniReadEnv Kni Pkt) (nextRead : Nat) :
    Option (Outcome (KniList Kni × Option Int) Pkt) :=
  loop (fun i s => do
    let info ← s.1.kniInfoList.get? i
    if info.ptr.isNone then some (s, none)
    else do
      let L := rteKniHandleRequest env s.1 i
      let info ← L.kniInfoList.get? i
      match info.opsState, info.ptr with
      | .enabled, some ptr => some ((L, some info.linkId), some (env.rx ptr))
      | _, _ => some ((L, s.2), none)) L.kniCount nextRead maxKniPorts nextRead (L, none)

/-- The state of an interface behind a request that is pending for it. -/
def KniReadEnv.opsAfter (env : KniReadEnv Kni Pkt) (i : Nat) (ops : OpsState) : OpsState :=
  match env.request i with
  | none => ops
  | some kniState => if ethLinkUp = kniState then .enabled else .disabled

/-- What an open interface has to be read, if it is enabled. -/
def kniPoll (L : KniList Kni) (env : KniReadEnv Kni Pkt) (i : Nat) : Option (List Pkt) :=
  if i < L.kniCount then do
    let info ← L.kniInfoList.get? i
    if env.opsAfter i info.opsState = .enabled then info.ptr.map env.rx else none
  else none

/-! ### Runs -/

/-- The interfaces and the cursor. -/
structure KniReadRun (Kni : Type) where
  list : KniList Kni
  cursor : Cursor

/-- Program start. -/
def KniReadRun.init (Kni : Type) : KniReadRun Kni := ⟨KniList.init Kni, Cursor.init⟩

/-- An interface opened, closed or configured, or a call of `kni_read`. -/
inductive KniReadEvent (Kni Pkt : Type) where
  | opened (env : KniOpenEnv Kni) (args : KniOpenArgs)
  | closed (kni : Kni)
  | config (kniId : UInt16) (kniState : UInt8)
  | read (env : KniReadEnv Kni Pkt)

def kniReadStep [DecidableEq Kni] (R : KniReadRun Kni) :
    KniReadEvent Kni Pkt → Option (KniReadRun Kni)
  | .opened env args => some { R with list := (kniOpen env R.list args).1 }
  | .closed kni => (kniClose R.list kni).map fun L => { R with list := L }
  | .config kniId kniState =>
      some { R with list := (callbackFuncKniIfConfig R.list kniId kniState).1 }
  | .read env => (kniRead R.list env R.cursor.next).map fun out =>
      ⟨out.state.1, R.cursor.after R.list.kniCount out⟩

/-- A call polls the enabled interfaces in turn, and returns the link of the one served.
Nothing else that happens ends the run. -/
def KniReadInTurn [DecidableEq Kni] (start : KniReadRun Kni → Nat) (R : KniReadRun Kni) :
    KniReadEvent Kni Pkt → Prop
  | .read env => ∃ out, kniRead R.list env R.cursor.next = some out ∧
      InTurn (kniPoll R.list env) R.list.kniCount (start R) out ∧
      ∀ i burst, out.got = some (i, burst) →
        out.state.2 = (R.list.kniInfoList.get? i).map KniEntry.linkId
  | e => (kniReadStep R e).isSome

/-- Behind the interface served last, among those open then. -/
def KniReadRun.startThen (R : KniReadRun Kni) : Nat := RoundRobin.startThen R.cursor.served

/-- Behind the interface served last, among those open now. -/
def KniReadRun.startNow (R : KniReadRun Kni) : Nat :=
  RoundRobin.startNow R.list.kniCount R.cursor.served

/-- An entry that is not in use yet has no pointer. -/
def KniList.Fresh (L : KniList Kni) : Prop :=
  ∀ i : Fin maxKniPorts, L.kniCount ≤ i.val → (L.kniInfoList i).ptr = none

structure KniReadInv (R : KniReadRun Kni) : Prop where
  fresh : R.list.Fresh
  cursor : R.cursor.Valid R.list.kniCount

theorem KniReadInv.init : KniReadInv (KniReadRun.init Kni) where
  fresh _ _ := rfl
  cursor := Cursor.Valid.init 0

/-! ### What a request does -/

section request

variable {L : KniList Kni} {i : Fin maxKniPorts}

theorem KniList.setOps_eq (L : KniList Kni) (i : Fin maxKniPorts) :
    L.setOps i (L.kniInfoList i).opsState = L := by
  rw [KniList.setOps, Function.update_eq_self]

theorem KniList.Fresh.setOps (h : L.Fresh) (i : Fin maxKniPorts) (st : OpsState) :
    (L.setOps i st).Fresh := by
  intro j hj
  rw [setOps_ptr]
  exact h j hj

/-- An interface that is open has its state written. -/
theorem callbackFuncKniIfConfig_fst {kniId : UInt16} (kniState : UInt8)
    (hid : i.val = kniId.toNat) (hi : i.val < L.kniCount) (hptr : (L.kniInfoList i).ptr.isSome) :
    (callbackFuncKniIfConfig L kniId kniState).1 =
      L.setOps i (if ethLinkUp = kniState then .enabled else .disabled) := by
  by_cases hup : kniState = ethLinkUp
  · subst hup
    rw [callbackFuncKniIfConfig_up i hid hi hptr, if_pos rfl]
  · rw [callbackFuncKniIfConfig_down i hup hid hi hptr, if_neg (Ne.symm hup)]

theorem callbackFuncKniIfConfig_fresh (h : L.Fresh) (kniId : UInt16) (kniState : UInt8) :
    (callbackFuncKniIfConfig L kniId kniState).1.Fresh ∧
      (callbackFuncKniIfConfig L kniId kniState).1.kniCount = L.kniCount := by
  by_cases hid : kniId.toNat < L.kniCount
  swap
  · rw [callbackFuncKniIfConfig_invalid kniState (Nat.not_lt.mp hid)]
    exact ⟨h, rfl⟩
  let i : Fin maxKniPorts := ⟨kniId.toNat, Nat.lt_of_lt_of_le hid L.kniCount_le⟩
  by_cases hptr : (L.kniInfoList i).ptr.isSome
  · rw [callbackFuncKniIfConfig_fst kniState (i := i) rfl hid hptr]
    exact ⟨h.setOps i _, rfl⟩
  · rw [callbackFuncKniIfConfig, dif_pos hid]
    dsimp only
    rw [if_pos (by rw [Option.not_isSome_iff_eq_none.mp hptr]; rfl)]
    exact ⟨h, rfl⟩

theorem rteKniHandleRequest_eq (env : KniReadEnv Kni Pkt) (hi : i.val < L.kniCount)
    (hptr : (L.kniInfoList i).ptr.isSome) :
    rteKniHandleRequest env L i.val = L.setOps i (env.opsAfter i.val (L.kniInfoList i).opsState) := by
  unfold rteKniHandleRequest KniReadEnv.opsAfter
  cases env.request i.val with
  | none => exact (L.setOps_eq i).symm
  | some kniState =>
      have hroom : i.val < UInt16.size := Nat.lt_trans i.isLt (by decide)
      exact callbackFuncKniIfConfig_fst kniState (UInt16.toNat_ofNat_of_lt' hroom).symm hi hptr

end request

/-! ### One call -/

/-- The interfaces still to visit are as they were. -/
structure KniRest (L₀ : KniList Kni) (is : List Nat) (L : KniList Kni) : Prop where
  nodup : is.Nodup
  lt : ∀ i ∈ is, i < max L₀.kniCount 1
  count : L.kniCount = L₀.kniCount
  fresh : L.Fresh
  same : ∀ j : Fin maxKniPorts, j.val ∈ is → L.kniInfoList j = L₀.kniInfoList j

theorem KniRest.tail {L₀ L : KniList Kni} {i : Nat} {is : List Nat} (h : KniRest L₀ (i :: is) L) :
    KniRest L₀ is L where
  nodup := h.nodup.of_cons
  lt j hj := h.lt j (List.mem_cons_of_mem i hj)
  count := h.count
  fresh := h.fresh
  same j hj := h.same j (List.mem_cons_of_mem i hj)

/-- The state of the interface visited may change. -/
theorem KniRest.setOps {L₀ L : KniList Kni} {i : Fin maxKniPorts} {is : List Nat}
    (h : KniRest L₀ (i.val :: is) L) (st : OpsState) : KniRest L₀ is (L.setOps i st) where
  nodup := h.nodup.of_cons
  lt j hj := h.lt j (List.mem_cons_of_mem i.val hj)
  count := h.count
  fresh := h.fresh.setOps i st
  same j hj := by
    have hji : j ≠ i := by
      intro heq
      subst heq
      exact (List.nodup_cons.mp h.nodup).1 hj
    rw [KniList.setOps_of_ne hji]
    exact h.same j (List.mem_cons_of_mem i.val hj)

theorem max_kniCount_le (L : KniList Kni) : max L.kniCount 1 ≤ maxKniPorts :=
  Nat.max_le.mpr ⟨L.kniCount_le, by decide⟩

/-- A turn at an interface. -/
theorem KniRest.visit {L₀ L : KniList Kni} {i : Nat} {is : List Nat} (h : KniRest L₀ (i :: is) L)
    (env : KniReadEnv Kni Pkt) (linkId : Option Int) :
    ∃ s', ((L.kniInfoList.get? i).bind fun info =>
        if info.ptr.isNone then some ((L, linkId), none)
        else ((rteKniHandleRequest env L i).kniInfoList.get? i).bind fun info =>
          match info.opsState, info.ptr with
          | .enabled, some ptr =>
              some ((rteKniHandleRequest env L i, some info.linkId), some (env.rx ptr))
          | _, _ => some ((rteKniHandleRequest env L i, linkId), none)) =
        some (s', kniPoll L₀ env i) ∧
      KniRest L₀ is s'.1 ∧
      ((kniPoll L₀ env i).isSome → s'.2 = (L₀.kniInfoList.get? i).map KniEntry.linkId) := by
  have hroom : i < maxKniPorts :=
    Nat.lt_of_lt_of_le (h.lt i List.mem_cons_self) (max_kniCount_le L₀)
  obtain ⟨i, rfl⟩ : ∃ j : Fin maxKniPorts, j.val = i := ⟨⟨i, hroom⟩, rfl⟩
  have hsame := h.same i List.mem_cons_self
  have hget (L : KniList Kni) : L.kniInfoList.get? i.val = some (L.kniInfoList i) :=
    CArray.get?_of_lt _ i.isLt
  simp only [kniPoll, hget, Option.bind_eq_bind, Option.bind_some, hsame]
  cases hptr : (L₀.kniInfoList i).ptr with
  | none =>
      have hpoll : (if i.val < L₀.kniCount then
          if env.opsAfter i.val (L₀.kniInfoList i).opsState = .enabled then
            (none : Option Kni).map env.rx else none else none) = none := by
        rw [Option.map_none, ite_self, ite_self]
      rw [hpoll, Option.isNone_none, if_pos rfl]
      exact ⟨_, rfl, h.tail, fun hsome => by cases hsome⟩
  | some ptr =>
      have hptrL : (L.kniInfoList i).ptr = some ptr := hsame ▸ hptr
      -- an entry with a pointer is that of an open interface
      have hopen : i.val < L.kniCount := by
        by_contra hno
        rw [h.fresh i (Nat.not_lt.mp hno)] at hptrL
        cases hptrL
      have hrequest := rteKniHandleRequest_eq env hopen (Option.isSome_of_eq_some hptrL)
      rw [hsame] at hrequest
      rw [Option.isNone_some, if_neg Bool.false_ne_true, if_pos (h.count ▸ hopen), hrequest,
        KniList.setOps_self, hsame]
      dsimp only
      rw [hptr]
      by_cases henabled : env.opsAfter i.val (L₀.kniInfoList i).opsState = .enabled
      · rw [henabled, if_pos rfl]
        exact ⟨(L.setOps i .enabled, _), rfl, h.setOps _, fun _ => rfl⟩
      · rw [if_neg henabled]
        refine ⟨(L.setOps i (env.opsAfter i.val (L₀.kniInfoList i).opsState), linkId), ?_,
          h.setOps _, fun hsome => by cases hsome⟩
        cases hops : env.opsAfter i.val (L₀.kniInfoList i).opsState with
        | enabled => exact absurd hops henabled
        | notConfigured => rfl
        | disabled => rfl
        | faulty => rfl

section step

variable [DecidableEq Kni] {R : KniReadRun Kni}

/-- **One call.**  It ends and polls the enabled interfaces in turn, and leaves a list
in order. -/
theorem KniReadInv.turn (h : KniReadInv R) (env : KniReadEnv Kni Pkt) :
    KniReadInTurn KniReadRun.startThen R (.read env) ∧
      ∀ out, kniRead R.list env R.cursor.next = some out →
        out.state.1.kniCount = R.list.kniCount ∧ out.state.1.Fresh := by
  obtain ⟨s, is, hloop, hrest, hpost⟩ := loop_eq (kniPoll R.list env)
    (fun is (s : KniList Kni × Option Int) => KniRest R.list is s.1)
    (fun i s => (kniPoll R.list env i).isSome →
      s.2 = (R.list.kniInfoList.get? i).map KniEntry.linkId)
    (fun i is s hrest => hrest.visit env s.2)
    h.cursor.lt (max_kniCount_le R.list) (s := (R.list, none))
    ⟨nodup_order _ _, fun i hi => mem_order.mp hi, rfl, h.fresh, fun _ _ => rfl⟩
  refine ⟨⟨_, hloop, ?_, fun i burst hgot => ?_⟩, fun out hout => ?_⟩
  · rw [KniReadRun.startThen, ← h.cursor.next]
    exact Outcome.of_inTurn h.cursor.lt s
  · refine hpost i burst hgot ?_
    rw [(serve_some hgot).1]
    rfl
  · obtain rfl := Option.some.inj (hloop.symm.trans hout)
    exact ⟨hrest.count, hrest.fresh⟩

theorem kniClose_cases {L : KniList Kni} (h : L.Fresh) (kni : Kni) :
    ∃ L', kniClose L kni = some L' ∧ L'.kniCount = L.kniCount ∧ L'.Fresh := by
  obtain ⟨found, hfound⟩ := firstIndex_isSome fun i (hi : i < L.kniCount) =>
    show ∃ b, (L.kniInfoList.get? i).map (fun info => decide (info.ptr = some kni)) = some b by
      rw [CArray.get?_of_lt _ (Nat.lt_of_lt_of_le hi L.kniCount_le)]
      exact ⟨_, rfl⟩
  rw [kniClose, hfound, Option.bind_eq_bind, Option.bind_some]
  cases found with
  | none => exact ⟨L, rfl, rfl, h⟩
  | some idx =>
      have hidx := (firstIndex_eq_some_iff.mp hfound).1
      dsimp only
      rw [dif_pos (Nat.lt_of_lt_of_le hidx L.kniCount_le)]
      refine ⟨_, rfl, rfl, fun j hj => ?_⟩
      have hne : j ≠ ⟨idx, Nat.lt_of_lt_of_le hidx L.kniCount_le⟩ := by
        intro heq
        subst heq
        exact absurd hidx (Nat.not_lt.mpr hj)
      simp only [KniList.setPtr, Function.update_of_ne hne]
      exact h j hj

/-- What happens to the interfaces does not end a run, and every call polls them in
turn. -/
theorem KniReadInv.step (h : KniReadInv R) (e : KniReadEvent Kni Pkt) :
    KniReadInTurn KniReadRun.startThen R e ∧
      ∀ R', kniReadStep R e = some R' → KniReadInv R' := by
  cases e with
  | opened env args =>
      refine ⟨rfl, fun R' hstep => ?_⟩
      obtain rfl := Option.some.inj hstep
      rcases kniOpen_cases env R.list args with heq | ⟨hcount, hentry⟩
      · rw [heq]
        exact h
      · refine ⟨fun j hj => ?_, h.cursor.mono (hcount ▸ Nat.le_succ _)⟩
        have hj : R.list.kniCount + 1 ≤ j.val := hcount ▸ hj
        rw [(hentry j).1 (by omega)]
        exact h.fresh j (Nat.le_of_succ_le hj)
  | closed kni =>
      obtain ⟨L, hrun, hcount, hfresh⟩ := kniClose_cases h.fresh kni
      have hstep : kniReadStep R (.closed kni : KniReadEvent Kni Pkt) = some ⟨L, R.cursor⟩ := by
        rw [kniReadStep, hrun]
        rfl
      refine ⟨Option.isSome_of_eq_some hstep, (forall_next hstep).mpr ?_⟩
      exact ⟨hfresh, h.cursor.mono (Nat.le_of_eq hcount.symm)⟩
  | config kniId kniState =>
      refine ⟨rfl, fun R' hstep => ?_⟩
      obtain rfl := Option.some.inj hstep
      obtain ⟨hfresh, hcount⟩ := callbackFuncKniIfConfig_fresh h.fresh kniId kniState
      exact ⟨hfresh, h.cursor.mono (Nat.le_of_eq hcount.symm)⟩
  | read env =>
      obtain ⟨hturn, hlist⟩ := h.turn env
      refine ⟨hturn, fun R' hstep => ?_⟩
      obtain ⟨out, hrun, hout, -⟩ := hturn
      obtain ⟨hcount, hfresh⟩ := hlist out hrun
      rw [kniReadStep, hrun] at hstep
      obtain rfl := Option.some.inj hstep
      rw [KniReadRun.startThen, ← h.cursor.next] at hout
      exact ⟨hfresh, (h.cursor.after hout).mono (Nat.le_of_eq hcount.symm)⟩

/-- In any run, every call of `link_read` and of `kni_read` ends, polls the enabled
ports at most once each and in turn, from behind the one served last, and returns the
first burst there is with the link of its port. -/
theorem reads_inTurn (E : RteEthdev) (links : List (LinkReadEvent Pkt))
    (knis : List (KniReadEvent Kni Pkt)) :
    Along (linkReadStep E) (LinkReadInTurn E LinkReadRun.startThen) LinkReadRun.init links ∧
      Along kniReadStep (KniReadInTurn KniReadRun.startThen) (KniReadRun.init Kni) knis :=
  ⟨along_of_inv (fun _ e hinv => hinv.step e) LinkReadInv.init,
    along_of_inv (fun _ e hinv => hinv.step e) KniReadInv.init⟩

end step

/-- An interface that is up is served, and then another one is opened and comes up; both
have packets. -/
def addedKni : List (KniReadEvent Bool Unit) :=
  [.opened ⟨0, none, some false⟩ ⟨0, ngu0, 0xC0A839C8, 24⟩,
   .config 0 1,
   .read ⟨fun _ => none, fun _ => [()]⟩,
   .opened ⟨0, none, some true⟩ ⟨0, ngu1, 0xC0A839C9, 24⟩,
   .config 1 1,
   .read ⟨fun _ => none, fun _ => [()]⟩]

/-- The first interface is served again, before the one that now comes behind it. -/
theorem addedKni_not_inTurn :
    ¬ Along kniReadStep (KniReadInTurn KniReadRun.startNow) (KniReadRun.init Bool) addedKni := by
  intro h
  obtain ⟨R, hrun, hstart, hcount, hgot, hpoll⟩ : ∃ R,
      exec kniReadStep (KniReadRun.init Bool) (addedKni.take 5) = some R ∧ R.startNow = 1 ∧
        R.list.kniCount = 2 ∧
        (kniRead R.list ⟨fun _ => none, fun _ => [()]⟩ R.cursor.next).map Outcome.got =
          some (some (0, [()])) ∧
        kniPoll R.list ⟨fun _ => none, fun _ => [()]⟩ 1 = some [()] :=
    ⟨_, rfl, rfl, rfl, rfl, rfl⟩
  have hlast : Along kniReadStep (KniReadInTurn KniReadRun.startNow) R
      [.read ⟨fun _ => none, fun _ => [()]⟩] :=
    Along.drop (show Along kniReadStep _ _ (addedKni.take 5 ++ [.read _]) from h) hrun
  obtain ⟨out, hout, hturn, -⟩ := hlast.1
  rw [hout, Option.map_some] at hgot
  obtain ⟨-, -, -, before, after, horder, -, hbefore⟩ :=
    hturn.served 0 [()] (Option.some.inj hgot)
  rw [hstart, hcount] at horder
  have hfirst : 1 ∈ before := by
    cases before with
    | nil => cases horder
    | cons i before =>
        obtain ⟨rfl, -⟩ := List.cons.inj (show 1 :: [0] = i :: (before ++ 0 :: after) from horder)
        exact List.mem_cons_self
  cases hbefore 1 hfirst [()] hpoll

end Pfm
