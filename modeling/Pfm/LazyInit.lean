import Pfm.RelatedRuns
import Pfm.SetupTrace

/-!
# Setting up the UE table with the first request

The UE table is set up by the first request that needs it.  `ue_ctx_id_alloc` takes the
success of the initialisation for its failure: it then gives no id, and it searches a table
without a hash when the hash could not be created.

* `LazyInitTransparent` : that the table is set up late makes no difference;
* `lazy_init_transparent_iff` : when this holds of a sequence of requests.
-/

namespace Pfm

open BoundedLoop CircularScan StepSystem TwoRuns UeCtxTable

variable {D : Dpdk} {env : Env D} {S S' : Cuup D} {U U' : UeCtxTable D} {T : TunnelTable D}

/-! ### Requests and their answers -/

/-- The return value of a request, and its response where it has one. -/
inductive E1apAnswer where
  | setup (ret : PfmRetval) (rsp : E1apBearerCtxSetupRsp)
  | modify (ret : PfmRetval) (rsp : E1apBearerCtxModifyRsp)
  | release (ret : PfmRetval)

def E1apAnswer.ret : E1apAnswer → PfmRetval
  | .setup ret _ => ret
  | .modify ret _ => ret
  | .release ret => ret

def serveE1ap (S : Cuup D) : E1apCall D → Option (E1apAnswer × Cuup D)
  | .setup env req rsp => (e1apBearerCtxSetup env S req rsp).map fun out =>
      (.setup out.1 out.2.1, out.2.2)
  | .modify env req rsp => (e1apBearerCtxModify env S req rsp).map fun out =>
      (.modify out.1 out.2.1, out.2.2)
  | .release req => (e1apBearerCtxRelease S req).map fun out => (.release out.1, out.2)

def E1apCall.isSetup : E1apCall D → Bool
  | .setup _ _ _ => true
  | .modify _ _ _ => false
  | .release _ => false

/-- The request where `rte_hash_create` of the UE table succeeds, or fails. -/
def E1apCall.withUeHash (b : Bool) : E1apCall D → E1apCall D
  | .setup env req rsp => .setup { env with ueHashCreate := b } req rsp
  | .modify env req rsp => .modify { env with ueHashCreate := b } req rsp
  | .release req => .release req

/-- How a request is refused that finds no UE, or gets no id. -/
def E1apCall.refusal : E1apCall D → E1apAnswer
  | .setup _ req rsp =>
      .setup .failed (e1apBearerSetupFail req.cucpUeId noUeId .rnlResourceUnavail rsp)
  | .modify _ req rsp =>
      .modify .failed (bearerModifyFailure req.cucpUeId req.cuupUeId .rnlUnknownCuupId rsp)
  | .release _ => .release .failed

/-! ### What it means that the initialisation is late -/

/-- The tables hold the same, whether they have been set up or not. -/
structure SameUpToInit (S S' : Cuup D) : Prop where
  tun : S'.tun = S.tun
  rows : S'.ue.ueCtxTable = S.ue.ueCtxTable
  slot : S'.ue.lastAllocatedSlot = S.ue.lastAllocatedSlot
  lastId : S'.ue.lastAssignedId = S.ue.lastAssignedId
  entry : S'.ue.entry = S.ue.entry

/-- The table that `ue_ctx_id_alloc` searches, if it does. -/
def idSearchTable (env : Env D) (U : UeCtxTable D) : Option (UeCtxTable D) :=
  if U.ueCtxHashtable.isSome then some U
  else if env.ueHashCreate then none
  else some { U with ueCtxHashtable := none }

/-- The table that the first lookup of a request is made in, if it makes one. -/
def firstLookup (S : Cuup D) : E1apCall D → Option (UeCtxTable D)
  | .setup env _ _ => idSearchTable env S.ue
  | .modify _ _ _ => if S.ue.ueCtxHashtable.isNone then none else some S.ue
  | .release _ => if S.ue.ueCtxHashtable.isNone then none else some S.ue

/-- A request to set up a UE gets an id from a table that was not set up before. -/
def FirstIdGiven (S : Cuup D) : E1apCall D → Prop
  | .setup env _ _ => S.ue.ueCtxHashtable = none → (ueCtxIdAlloc env S.ue).1.isSome = true
  | .modify _ _ _ => True
  | .release _ => True

/-- Requests served with tunnel table `T` from a UE table that is set up late. -/
structure LazyInitTransparent (T : TunnelTable D) (calls : List (E1apCall D)) : Prop where
  sameRuns : ∃ out out',
    answers serveE1ap ⟨T, UeCtxTable.init D⟩ (calls.map (E1apCall.withUeHash true)) =
      some out ∧
    answers serveE1ap ⟨T, (UeCtxTable.init D).cleared⟩ (calls.map (E1apCall.withUeHash true)) =
      some out' ∧
    out'.1 = out.1 ∧ SameUpToInit out.2 out'.2
  firstId : Along e1apStep FirstIdGiven ⟨T, UeCtxTable.init D⟩
    (calls.map (E1apCall.withUeHash true))
  hashPresent : Along e1apStep
    (fun S call => ∀ U, firstLookup S call = some U → U.ueCtxHashtable.isSome = true)
    ⟨T, UeCtxTable.init D⟩ (calls.map (E1apCall.withUeHash false))

theorem ueCtxIdAlloc_eq (env : Env D) (U : UeCtxTable D) :
    ueCtxIdAlloc env U = (idSearchTable env U).elim (none, U.cleared) ueCtxIdSearch := by
  unfold ueCtxIdAlloc idSearchTable ueCtxTableInit
  split
  · rfl
  · cases env.ueHashCreate with
    | true => rfl
    | false => rfl

theorem e1apStep_eq (S : Cuup D) (call : E1apCall D) :
    e1apStep S call = (serveE1ap S call).map Prod.snd := by
  cases call with
  | setup env req rsp => simp [e1apStep, serveE1ap, Function.comp_def]
  | modify env req rsp => simp [e1apStep, serveE1ap, Function.comp_def]
  | release req => simp [e1apStep, serveE1ap, Function.comp_def]

/-! ### Tables without UEs -/

/-- Where no UE is committed only a setup is more than refused. -/
theorem serveE1ap_of_empty (hempty : ∀ id, S.ue.rowOf id = none) {call : E1apCall D}
    (hcall : call.isSetup = false) : serveE1ap S call = some (call.refusal, S) := by
  cases call with
  | setup env req rsp => cases hcall
  | modify env req rsp =>
      simp only [serveE1ap, e1apBearerCtxModify, ueCtxModify_of_absent (hempty req.cuupUeId),
        Option.bind_eq_bind, Option.bind_some, Option.map_some, E1apCall.refusal]
  | release req =>
      obtain ⟨ret, hret, hremove⟩ := ueCtxRemove_of_absent (hempty req.cuupUeId)
      simp only [serveE1ap, e1apBearerCtxRelease, hremove, Option.bind_eq_bind, Option.bind_some,
        hret, ne_eq, not_false_eq_true, if_true, Option.map_some, E1apCall.refusal]

theorem answers_of_no_setup (hempty : ∀ id, S.ue.rowOf id = none) {calls : List (E1apCall D)}
    (hcalls : ∀ call ∈ calls, call.isSetup = false) :
    answers serveE1ap S calls = some (calls.map E1apCall.refusal, S) := by
  induction calls with
  | nil => rfl
  | cons call calls ih =>
      have hrest := ih fun call hmem => hcalls call (List.mem_cons_of_mem _ hmem)
      have hfirst := serveE1ap_of_empty hempty (hcalls call List.mem_cons_self)
      rw [answers, hfirst, Option.bind_some, hrest]
      rfl

theorem along_of_no_setup (P : Cuup D → E1apCall D → Prop) {calls : List (E1apCall D)}
    (hempty : ∀ id, S.ue.rowOf id = none) (hcalls : ∀ call ∈ calls, call.isSetup = false)
    (hP : ∀ call, call.isSetup = false → P S call) : Along e1apStep P S calls := by
  -- no call changes the state
  refine along_of_inputs (fun S' call (hsame : S' = S) hcall => ?_) rfl hcalls
  subst hsame
  refine ⟨hP call hcall, fun S' hstep => ?_⟩
  rw [e1apStep_eq, serveE1ap_of_empty hempty hcall] at hstep
  exact (Option.some.inj hstep).symm

theorem isSetup_withUeHash (b : Bool) (call : E1apCall D) :
    (call.withUeHash b).isSetup = call.isSetup := by
  cases call <;> rfl

theorem no_setup_withUeHash (b : Bool) {calls : List (E1apCall D)}
    (hcalls : ∀ call ∈ calls, call.isSetup = false) :
    ∀ call ∈ calls.map (E1apCall.withUeHash b), call.isSetup = false := by
  intro call hmem
  obtain ⟨before, hbefore, rfl⟩ := List.mem_map.mp hmem
  rw [isSetup_withUeHash]
  exact hcalls before hbefore

/-! ### The first setup -/

/-- It sets the table up and is refused. -/
theorem serveE1ap_first_setup (hdown : S.ue.ueCtxHashtable = none)
    (hcreate : env.ueHashCreate = true) (req : E1apBearerCtxSetupReq)
    (rsp : E1apBearerCtxSetupRsp) :
    serveE1ap S (.setup env req rsp) =
      some (E1apCall.refusal (.setup env req rsp), { S with ue := S.ue.cleared }) := by
  have halloc : ueCtxIdAlloc env S.ue = (none, S.ue.cleared) := by
    simp [ueCtxIdAlloc, ueCtxTableInit, hdown, hcreate]
  simp only [serveE1ap, e1apBearerCtxSetup, halloc, Option.map_some, E1apCall.refusal]

/-- A setup that gets an id and a row is not refused for the want of them. -/
theorem serveE1ap_ne_refusal (hcond : ¬ RefusedAtOnce S.ue) {req : E1apBearerCtxSetupReq}
    {rsp : E1apBearerCtxSetupRsp} {answer : E1apAnswer}
    (h : serveE1ap S (.setup env req rsp) = some (answer, S')) :
    answer ≠ E1apCall.refusal (.setup env req rsp) := by
  obtain ⟨id, U₁, n, halloc, hadd, -⟩ := alloc_add_of_not_refused env hcond
  have hcause {cucp cuup : UInt32} {rsp₁ : E1apBearerCtxSetupRsp} {ret : PfmRetval}
      (heq : E1apAnswer.setup ret (e1apBearerSetupFail cucp cuup .rnlUnspecified rsp₁) =
        E1apCall.refusal (.setup env req rsp)) : False := by
    have hcauses := congrArg E1apBearerCtxSetupRsp.cause (E1apAnswer.setup.inj heq).2
    cases hcauses
  obtain ⟨⟨ret, rsp', S''⟩, hsetup, hanswer⟩ := Option.map_eq_some_iff.mp h
  obtain rfl := (Prod.mk.inj hanswer).1
  intro heq
  simp only [e1apBearerCtxSetup, halloc, hadd, Option.bind_eq_bind] at hsetup
  obtain ⟨w, -, hsetup⟩ := Option.bind_eq_some_iff.mp hsetup
  split at hsetup
  · obtain ⟨out, -, hsetup⟩ := Option.bind_eq_some_iff.mp hsetup
    obtain ⟨out', -, hsetup⟩ := Option.bind_eq_some_iff.mp hsetup
    obtain ⟨rfl, rfl, -⟩ := by simpa using hsetup
    exact hcause heq
  · obtain ⟨out, -, hsetup⟩ := Option.bind_eq_some_iff.mp hsetup
    split at hsetup
    · obtain ⟨out', -, hsetup⟩ := Option.bind_eq_some_iff.mp hsetup
      obtain ⟨out'', -, hsetup⟩ := Option.bind_eq_some_iff.mp hsetup
      obtain ⟨rfl, rfl, -⟩ := by simpa using hsetup
      exact hcause heq
    · rename_i hok
      obtain ⟨rfl, rfl, -⟩ := by simpa using hsetup
      exact hok (E1apAnswer.setup.inj heq).1

theorem not_refusedAtOnce_cleared (U : UeCtxTable D) : ¬ RefusedAtOnce U.cleared := by
  intro hrefused
  rcases hrefused with hdown | hid | hrow
  · cases hdown
  · have hne : ahead U.cleared.lastAssignedId 1 ≠ U.cleared.lastAssignedId :=
      ahead_ne_self _ Nat.one_pos (by decide)
    exact hid _ hne cleared_rowOf
  · have hne : ahead U.cleared.lastAllocatedSlot 1 ≠ U.cleared.lastAllocatedSlot :=
      ahead_ne_self _ Nat.one_pos (by decide)
    cases hrow _ hne

/-! ### Runs -/

theorem init_rowOf (D : Dpdk) (id : UInt32) : (UeCtxTable.init D).rowOf id = none :=
  rowOf_of_down rfl

/-- Runs with the same answers have no setup: the first one would be answered
differently. -/
theorem no_setup_of_same_answers {calls : List (E1apCall D)}
    {out out' : List E1apAnswer × Cuup D}
    (h : answers serveE1ap ⟨T, UeCtxTable.init D⟩ (calls.map (E1apCall.withUeHash true)) =
      some out)
    (h' : answers serveE1ap ⟨T, (UeCtxTable.init D).cleared⟩
      (calls.map (E1apCall.withUeHash true)) = some out')
    (hsame : out'.1 = out.1) : ∀ call ∈ calls, call.isSetup = false := by
  induction calls generalizing out out' with
  | nil => exact fun call hmem => absurd hmem List.not_mem_nil
  | cons call calls ih =>
      obtain ⟨first, hfirst, h⟩ := Option.bind_eq_some_iff.mp h
      obtain ⟨rest, hrest, rfl⟩ := Option.map_eq_some_iff.mp h
      obtain ⟨first', hfirst', h'⟩ := Option.bind_eq_some_iff.mp h'
      obtain ⟨rest', hrest', rfl⟩ := Option.map_eq_some_iff.mp h'
      obtain ⟨hanswer, htail⟩ := List.cons.inj hsame
      cases hcall : call.isSetup with
      | true =>
          cases call with
          | modify env req rsp => cases hcall
          | release req => cases hcall
          | setup env req rsp =>
              have hrefused := @serveE1ap_first_setup D { env with ueHashCreate := true }
                ⟨T, UeCtxTable.init D⟩ rfl rfl req rsp
              obtain rfl := Option.some.inj (hrefused.symm.trans hfirst)
              exact absurd hanswer (serveE1ap_ne_refusal (not_refusedAtOnce_cleared _) hfirst')
      | false =>
          have hcall' : (call.withUeHash true).isSetup = false := by
            rw [isSetup_withUeHash, hcall]
          have hkept := serveE1ap_of_empty (S := ⟨T, UeCtxTable.init D⟩) (init_rowOf D) hcall'
          have hkept' := serveE1ap_of_empty (S := ⟨T, (UeCtxTable.init D).cleared⟩)
            (fun _ => cleared_rowOf) hcall'
          obtain rfl := Option.some.inj (hkept.symm.trans hfirst)
          obtain rfl := Option.some.inj (hkept'.symm.trans hfirst')
          have hno := ih hrest hrest' htail
          intro call' hmem
          rcases List.mem_cons.mp hmem with rfl | hmem
          · exact hcall
          · exact hno call' hmem

/-- **Late initialisation.**  It makes no difference to a sequence of requests exactly when
none of them is to set up a UE. -/
theorem lazy_init_transparent_iff (T : TunnelTable D) (calls : List (E1apCall D)) :
    LazyInitTransparent T calls ↔ ∀ call ∈ calls, call.isSetup = false := by
  constructor
  · intro h
    obtain ⟨out, out', hrun, hrun', hsame, -⟩ := h.sameRuns
    exact no_setup_of_same_answers hrun hrun' hsame
  · intro hcalls
    have hempty := init_rowOf D
    have htrue := no_setup_withUeHash true hcalls
    have hfalse := no_setup_withUeHash false hcalls
    refine ⟨⟨_, _, answers_of_no_setup hempty htrue,
      answers_of_no_setup (fun _ => cleared_rowOf) htrue, rfl, ?_⟩, ?_, ?_⟩
    · exact ⟨rfl, rfl, rfl, rfl, funext fun id => cleared_entry.trans (entry_of_down rfl).symm⟩
    · refine along_of_no_setup _ hempty htrue ?_
      intro call hcall
      cases call with
      | setup env req rsp => cases hcall
      | modify env req rsp => trivial
      | release req => trivial
    · refine along_of_no_setup _ hempty hfalse ?_
      intro call hcall U hU
      cases call with
      | setup env req rsp => cases hcall
      | modify env req rsp => cases hU
      | release req => cases hU

/-- The first request to set up a UE is refused by a table that is set up late, and served
by one that is set up before. -/
theorem first_setup_refused :
    ¬ ∀ (T : TunnelTable listDpdk) (calls : List (E1apCall listDpdk)),
      LazyInitTransparent T calls := by
  intro h
  obtain ⟨out, out', hrun, hrun', hsame, -⟩ := (h (TunnelTable.init listDpdk) [oneSetup]).sameRuns
  obtain ⟨first, hfirst, hrest⟩ := Option.bind_eq_some_iff.mp hrun
  obtain ⟨first', hfirst', hrest'⟩ := Option.bind_eq_some_iff.mp hrun'
  obtain rfl := Option.some.inj hrest
  obtain rfl := Option.some.inj hrest'
  have hret : (serveE1ap ⟨TunnelTable.init listDpdk, UeCtxTable.init listDpdk⟩
      (oneSetup.withUeHash true)).map (fun out => out.1.ret) = some .failed := by
    decide
  have hret' : (serveE1ap ⟨TunnelTable.init listDpdk, (UeCtxTable.init listDpdk).cleared⟩
      (oneSetup.withUeHash true)).map (fun out => out.1.ret) = some .success := by
    decide
  rw [hfirst, Option.map_some] at hret
  rw [hfirst', Option.map_some] at hret'
  have heq : first'.1 = first.1 := (List.cons.inj hsame).1
  rw [heq, Option.some.inj hret] at hret'
  cases hret'

end Pfm
