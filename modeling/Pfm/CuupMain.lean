import Pfm.CliMeaning
import Pfm.StepSystem
import Pfm.TxPipeline

/-!
# The program from its start to its end

`main` of the CU-UP (`cuup.c`), the lcores it launches the loops on
(`pfm_start_pkt_processing`, `pfm.c`) and the flag that ends them.  Signals come at any time,
and the loops begin and end in any order.  The lcores are numbered from 0, as
`pfm_start_pkt_processing` takes them.

* `loops_started` : each loop is on its own lcore, `rx_loop` is launched last, and no worker
  has an id that the distributor or `worker_info_g` has no room for;
* `main_ends` : loops end when they are told to, and `main` never comes to `exit(0)`: all that
  `tx_loop` ever returns is 1, which it takes for a failure.
-/

namespace Pfm

open BoundedLoop StepSystem

abbrev lcoreMain : Nat := 0
abbrev lcoreRxLoop : Nat := 1
abbrev lcoreTxLoop : Nat := 2
abbrev lcoreDistributor : Nat := 3
abbrev lcoreMinLcoreCount : Nat := 5

/-! ### The program -/

/-- `sys_info_t`, of a pointer whether it was set. -/
structure SysInfo where
  lcoreCount : Nat
  mbufPool : Bool
  txRing : Bool
  rxRing : Bool
  /-- the number of workers it was created for -/
  dist : Option Nat
  deriving DecidableEq

def sysInfoG : SysInfo := ⟨0, false, false, false, none⟩

/-- What the library returns to `pfm_init`, of a pointer whether it is not NULL. -/
structure PfmInitEnv where
  ealInit : Int
  lcoreCount : Nat
  mbufPool : Bool
  txRing : Bool
  rxRing : Bool
  dist : Bool

def pfmInit (env : PfmInitEnv) (info : SysInfo) : PfmRetval × SysInfo :=
  if 0 > env.ealInit then (.failed, info)
  else if lcoreMinLcoreCount > env.lcoreCount then (.failed, info)
  else
    let info := { info with lcoreCount := env.lcoreCount, mbufPool := env.mbufPool }
    if !env.mbufPool then (.failed, info)
    else
      let info := { info with txRing := env.txRing }
      if !env.txRing then (.failed, info)
      else
        let info := { info with rxRing := env.rxRing }
        if !env.rxRing then (.failed, info)
        else if !env.dist then (.failed, { info with dist := none })
        else (.success, { info with dist := some (env.lcoreCount - 4) })

inductive Loop where
  | rxLoop
  | txLoop
  | distLoop
  | workerLoop
  deriving DecidableEq

/-- The state of an lcore. -/
inductive LcoreAt where
  /-- WAIT -/
  | wait
  /-- the loop's function was called -/
  | launched (loop : Loop)
  /-- in its `while` -/
  | looping (loop : Loop)
  /-- FINISHED, with the value returned -/
  | finished (loop : Loop) (ret : Int)
  deriving DecidableEq

/-- The function an lcore was launched with. -/
def LcoreAt.loop : LcoreAt → Option Loop
  | wait => none
  | launched loop | looping loop | finished loop _ => some loop

/-- Up to the `while` of the loop; a worker checks its id before. -/
def Loop.begin (loop : Loop) (lc : Nat) : LcoreAt :=
  if loop = .workerLoop ∧ maxWorkers ≤ lc - lcoreWorker then .finished loop 1
  else .looping loop

/-- What a loop that was told to end returns.  `rx_loop` looks at the flag twice in a turn,
and `between` says that it was set between the two. -/
def Loop.ret (loop : Loop) (between : Bool) : Int :=
  if loop = .rxLoop ∧ between = true then 0 else 1

/-- What `main` does next. -/
inductive MainAt where
  | init
  /-- the last `pfm_ingress_classifier_add`, the only one whose value is looked at -/
  | classifierAdd
  | launchTx
  | launchDist
  /-- the turn of the `for` in `pfm_start_pkt_processing` for `lc` -/
  | launchWorker (lc workerCount : Nat)
  | launchRx
  | cli
  /-- the turn of `RTE_LCORE_FOREACH_SLAVE` for `lc` -/
  | waitLcore (lc : Nat)
  | exited (code : Nat)
  deriving DecidableEq

structure CuupMain where
  sysInfo : SysInfo
  lcores : Nat → LcoreAt
  forceQuit : Bool
  main : MainAt

def CuupMain.init : CuupMain := ⟨sysInfoG, fun _ => .wait, false, .init⟩

/-- A call of `main`, with what it returns. -/
inductive MainCall where
  | init (env : PfmInitEnv)
  | classifierAdd (ret : PfmRetval)
  /-- `rte_eal_remote_launch`, and whether it returns 0 -/
  | launch (ok : Bool)
  /-- `pfm_cli_exec`, with what its array holds before -/
  | cliExec (cli : CArray cliCmdLineLen UInt8) (input : List UInt8)
  | waitLcore

inductive CuupMainEvent where
  | main (call : MainCall)
  /-- SIGINT or SIGTERM -/
  | signal
  /-- the loop of an lcore comes to its `while` -/
  | begins (lc : Nat)
  /-- a loop ends that found `force_quit_g` set -/
  | ends (lc : Nat) (between : Bool)

def CuupMain.setLcore (S : CuupMain) (lc : Nat) (at_ : LcoreAt) : CuupMain :=
  { S with lcores := Function.update S.lcores lc at_ }

def CuupMain.goTo (S : CuupMain) (main : MainAt) : CuupMain := { S with main := main }

def CuupMain.terminate (S : CuupMain) : CuupMain := { S with forceQuit := true }

/-- `terminate_program` and `exit`. -/
def CuupMain.exit (S : CuupMain) (code : Nat) : CuupMain := S.terminate.goTo (.exited code)

/-- An lcore takes a function only while it waits. -/
def CuupMain.remoteLaunch (S : CuupMain) (loop : Loop) (lc : Nat) (ok : Bool) : Option CuupMain :=
  if ok then if S.lcores lc = .wait then some (S.setLcore lc (.launched loop)) else none
  else some S

def mainStep (S : CuupMain) (call : MainCall) : Option CuupMain :=
  match S.main, call with
  | .init, .init env =>
      let out := pfmInit env S.sysInfo
      let S := { S with sysInfo := out.2 }
      some (if out.1 = .success then S.goTo .classifierAdd else S.exit 1)
  | .classifierAdd, .classifierAdd ret =>
      some (S.goTo (if ret = .success then .launchTx else .exited 3))
  | .launchTx, .launch ok =>
      (S.remoteLaunch .txLoop lcoreTxLoop ok).map fun S =>
        if ok then S.goTo .launchDist else S.exit 2
  | .launchDist, .launch ok =>
      (S.remoteLaunch .distLoop lcoreDistributor ok).map fun S =>
        if ok then S.goTo (.launchWorker 0 0) else S.exit 2
  | .launchWorker lc workerCount, .launch ok =>
      if lc < S.sysInfo.lcoreCount then
        if lc ≠ lcoreMain ∧ lc ≠ lcoreRxLoop ∧ lc ≠ lcoreTxLoop ∧ lc ≠ lcoreDistributor then
          (S.remoteLaunch .workerLoop lc ok).map fun S =>
            S.goTo (.launchWorker (lc + 1) (if ok then workerCount + 1 else workerCount))
        else some (S.goTo (.launchWorker (lc + 1) workerCount))
      else some (if workerCount > 0 then S.goTo .launchRx else S.exit 2)
  | .launchRx, .launch ok =>
      (S.remoteLaunch .rxLoop lcoreRxLoop ok).map fun S =>
        if ok then S.goTo .cli else S.exit 2
  | .cli, .cliExec cli input =>
      (pfmCliExec true cli input).map fun out =>
        -- `shutdown` sets the flag itself
        let S := if out.1 = .cliShutdown then S.terminate else S
        if out.1 = .cliExit ∨ out.1 = .cliShutdown then S.goTo (.waitLcore (lcoreMain + 1)) else S
  | .waitLcore lc, .waitLcore =>
      if lc < S.sysInfo.lcoreCount then
        match S.lcores lc with
        | .wait => some (S.goTo (.waitLcore (lc + 1)))
        | .finished _ ret =>
            some ((S.setLcore lc .wait).goTo
              (if ret ≠ 0 then .exited 3 else .waitLcore (lc + 1)))
        | _ => none
      else some (S.exit 0)
  | _, _ => none

/-- Nothing happens after `exit`. -/
def cuupMainStep (S : CuupMain) (e : CuupMainEvent) : Option CuupMain :=
  match S.main with
  | .exited _ => none
  | _ =>
      match e with
      | .main call => mainStep S call
      | .signal => some S.terminate
      | .begins lc =>
          match S.lcores lc with
          | .launched loop => some (S.setLcore lc (loop.begin lc))
          | _ => none
      | .ends lc between =>
          match S.lcores lc with
          | .looping loop =>
              if S.forceQuit then some (S.setLcore lc (.finished loop (loop.ret between)))
              else none
          | _ => none

/-! ### What holds in every run -/

/-- The loop that belongs on an lcore. -/
def loopOn (lc : Nat) : Loop :=
  if lc = lcoreRxLoop then .rxLoop
  else if lc = lcoreTxLoop then .txLoop
  else if lc = lcoreDistributor then .distLoop
  else .workerLoop

/-- An lcore was launched with a loop, and not waited for since. -/
def CuupMain.Runs (S : CuupMain) (lc : Nat) (loop : Loop) : Prop := (S.lcores lc).loop = some loop

/-- All loops behind `rx_loop` were launched. -/
def CuupMain.Fed (S : CuupMain) : Prop :=
  S.Runs lcoreTxLoop .txLoop ∧ S.Runs lcoreDistributor .distLoop ∧ ∃ lc, S.Runs lc .workerLoop

/-- A loop is on its lcore, and the distributor was created for all workers. -/
structure OnPlace (info : SysInfo) (lc : Nat) (loop : Loop) : Prop where
  notMain : lcoreMain < lc
  lt : lc < info.lcoreCount
  loop : loop = loopOn lc
  dist : info.dist = some (info.lcoreCount - 4)

/-- What is true of an lcore, when `told` says that loops were told to end. -/
def LcoreOk (told : Prop) (info : SysInfo) (lc : Nat) : LcoreAt → Prop
  | .wait => True
  | .launched loop => OnPlace info lc loop
  | .looping loop => OnPlace info lc loop ∧ (loop = .workerLoop → lc - lcoreWorker < maxWorkers)
  | .finished loop ret => OnPlace info lc loop ∧ (loop ≠ .rxLoop → ret = 1) ∧
      (told ∨ loop = .workerLoop ∧ maxWorkers ≤ lc - lcoreWorker)

def CuupMain.Ready (S : CuupMain) : Prop :=
  lcoreMinLcoreCount ≤ S.sysInfo.lcoreCount ∧
    S.sysInfo.dist = some (S.sysInfo.lcoreCount - 4)

/-- What is true when `main` is there, when `shut` says that the program was shut down. -/
def MainOk (shut : Prop) (S : CuupMain) : MainAt → Prop
  | .init => ∀ lc, (S.lcores lc).loop = none
  | .classifierAdd | .launchTx => S.Ready ∧ ∀ lc, (S.lcores lc).loop = none
  | .launchDist => S.Ready ∧ (S.lcores lcoreRxLoop).loop = none ∧ S.Runs lcoreTxLoop .txLoop
  | .launchWorker _ workerCount =>
      S.Ready ∧ (S.lcores lcoreRxLoop).loop = none ∧ S.Runs lcoreTxLoop .txLoop ∧
        S.Runs lcoreDistributor .distLoop ∧ (workerCount > 0 → ∃ lc, S.Runs lc .workerLoop)
  | .launchRx => S.Ready ∧ S.Fed
  | .cli => S.Fed
  | .waitLcore lc => shut ∧ S.Runs lcoreTxLoop .txLoop ∧
      (lc = lcoreRxLoop ∨ lc = lcoreTxLoop ∧ (S.lcores lcoreRxLoop).loop = none)
  | .exited code => code ≠ 0

structure CuupMainInv (told shut : Prop) (S : CuupMain) : Prop where
  lcores : ∀ lc, LcoreOk told S.sysInfo lc (S.lcores lc)
  fed : S.Runs lcoreRxLoop .rxLoop → S.Fed
  quit : S.forceQuit = true → told ∨ ∃ code, S.main = .exited code
  main : MainOk shut S S.main

variable {told shut : Prop} {S S' : CuupMain} {lc : Nat} {loop : Loop}

theorem CuupMainInv.init : CuupMainInv told shut CuupMain.init :=
  ⟨fun _ => trivial, nofun, nofun, fun _ => rfl⟩

theorem pfmInit_ready {env : PfmInitEnv} {info : SysInfo} (h : (pfmInit env info).1 = .success) :
    lcoreMinLcoreCount ≤ (pfmInit env info).2.lcoreCount ∧
      (pfmInit env info).2.dist = some ((pfmInit env info).2.lcoreCount - 4) := by
  revert h
  unfold pfmInit
  dsimp only
  split
  · nofun
  split
  · nofun
  rename_i hcount
  split
  · nofun
  split
  · nofun
  split
  · nofun
  split
  · nofun
  exact fun _ => ⟨Nat.le_of_not_lt hcount, rfl⟩

theorem loopOn_worker (hmain : lcoreMain < lc) (h : loopOn lc = .workerLoop) :
    lcoreWorker ≤ lc := by
  by_contra hlt
  have hpos : 0 < lc := hmain
  have hsmall : lc < 4 := Nat.lt_of_not_le hlt
  obtain rfl | rfl | rfl : lc = 1 ∨ lc = 2 ∨ lc = 3 := by omega
  · cases h
  · cases h
  · cases h

/-! ### The lcores -/

section lcores

theorem LcoreOk.place {at_ : LcoreAt} (h : LcoreOk told S.sysInfo lc at_)
    (hloop : at_.loop = some loop) : OnPlace S.sysInfo lc loop := by
  cases at_ with
  | wait => cases hloop
  | launched l =>
      obtain rfl := Option.some.inj hloop
      exact h
  | looping l =>
      obtain rfl := Option.some.inj hloop
      exact h.1
  | finished l ret =>
      obtain rfl := Option.some.inj hloop
      exact h.1

theorem Loop.begin_loop : (loop.begin lc).loop = some loop := by
  unfold Loop.begin
  split <;> rfl

theorem Loop.begin_ok (h : OnPlace S.sysInfo lc loop) :
    LcoreOk told S.sysInfo lc (loop.begin lc) := by
  unfold Loop.begin
  split
  · rename_i hrefused
    exact ⟨h, fun _ => rfl, Or.inr hrefused⟩
  · rename_i hroom
    exact ⟨h, fun hworker => Nat.lt_of_not_le fun hle => hroom ⟨hworker, hle⟩⟩

theorem Loop.ret_eq {between : Bool} (h : loop ≠ .rxLoop) : loop.ret between = 1 :=
  if_neg fun hrx => h hrx.1

@[simp] theorem setLcore_self {at_ : LcoreAt} : (S.setLcore lc at_).lcores lc = at_ := by
  change Function.update S.lcores lc at_ lc = at_
  rw [Function.update_self]

theorem setLcore_ne {at_ : LcoreAt} {i : Nat} (h : i ≠ lc) :
    (S.setLcore lc at_).lcores i = S.lcores i := by
  change Function.update S.lcores lc at_ i = S.lcores i
  rw [Function.update_of_ne h]

/-- One lcore is set, to something that is true of it. -/
theorem lcores_set {at_ : LcoreAt} (h : ∀ lc, LcoreOk told S.sysInfo lc (S.lcores lc))
    (hat : LcoreOk told S.sysInfo lc at_) (i : Nat) :
    LcoreOk told S.sysInfo i ((S.setLcore lc at_).lcores i) := by
  by_cases hi : i = lc
  · subst hi
    rw [setLcore_self]
    exact hat
  · rw [setLcore_ne hi]
    exact h i

theorem setLcore_loop {at_ : LcoreAt} (i : Nat) :
    ((S.setLcore lc at_).lcores i).loop = if i = lc then at_.loop else (S.lcores i).loop := by
  split
  · rename_i hi
    rw [hi, setLcore_self]
  · rename_i hi
    rw [setLcore_ne hi]

theorem remoteLaunch_cases {ok : Bool} (h : S.remoteLaunch loop lc ok = some S') :
    (ok = false ∧ S' = S) ∨
      (ok = true ∧ S.lcores lc = .wait ∧ S' = S.setLcore lc (.launched loop)) := by
  unfold CuupMain.remoteLaunch at h
  split at h
  · rename_i hok
    split at h
    · rename_i hwait
      exact Or.inr ⟨hok, hwait, (Option.some.inj h).symm⟩
    · cases h
  · rename_i hok
    exact Or.inl ⟨Bool.eq_false_of_not_eq_true hok, (Option.some.inj h).symm⟩

/-- A launch keeps what runs. -/
theorem CuupMain.Runs.launched {i : Nat} {l : Loop} (h : S.Runs i l) (hwait : S.lcores lc = .wait) :
    (S.setLcore lc (.launched loop)).Runs i l := by
  rw [CuupMain.Runs, setLcore_loop, if_neg]
  · exact h
  · rintro rfl
    rw [CuupMain.Runs, hwait] at h
    cases h

theorem CuupMain.runs_launched : (S.setLcore lc (.launched loop)).Runs lc loop := by
  rw [CuupMain.Runs, setLcore_loop, if_pos rfl]
  rfl

theorem idle_launched (loop : Loop) {i : Nat} (h : (S.lcores i).loop = none) (hi : i ≠ lc) :
    ((S.setLcore lc (.launched loop)).lcores i).loop = none := by
  rw [setLcore_loop, if_neg hi]
  exact h

theorem not_runs_of_idle (h : (S.lcores lc).loop = none) : ¬S.Runs lc loop := by
  intro hruns
  cases h.symm.trans hruns

/-- The same loops run on the same lcores. -/
structure SameLoops (S S' : CuupMain) : Prop where
  sysInfo : S'.sysInfo = S.sysInfo
  loop : ∀ lc, (S'.lcores lc).loop = (S.lcores lc).loop

theorem SameLoops.runs (h : SameLoops S S') : S'.Runs lc loop ↔ S.Runs lc loop := by
  rw [CuupMain.Runs, h.loop, CuupMain.Runs]

theorem SameLoops.fed (h : SameLoops S S') (hfed : S.Fed) : S'.Fed :=
  ⟨h.runs.mpr hfed.1, h.runs.mpr hfed.2.1, hfed.2.2.imp fun _ => h.runs.mpr⟩

theorem SameLoops.main (h : SameLoops S S') {m : MainAt} (hmain : MainOk shut S m) :
    MainOk shut S' m := by
  have hready (hS : S.Ready) : S'.Ready := by
    rw [CuupMain.Ready, h.sysInfo]
    exact hS
  have hidle {i : Nat} (hi : (S.lcores i).loop = none) : (S'.lcores i).loop = none :=
    (h.loop i).trans hi
  cases m with
  | init => exact fun lc => hidle (hmain lc)
  | classifierAdd | launchTx => exact ⟨hready hmain.1, fun lc => hidle (hmain.2 lc)⟩
  | launchDist => exact ⟨hready hmain.1, hidle hmain.2.1, h.runs.mpr hmain.2.2⟩
  | launchWorker i n =>
      obtain ⟨hS, hrx, htx, hdist, hworker⟩ := hmain
      exact ⟨hready hS, hidle hrx, h.runs.mpr htx, h.runs.mpr hdist,
        fun hn => (hworker hn).imp fun _ => h.runs.mpr⟩
  | launchRx => exact ⟨hready hmain.1, h.fed hmain.2⟩
  | cli => exact h.fed hmain
  | waitLcore i =>
      exact ⟨hmain.1, h.runs.mpr hmain.2.1, hmain.2.2.imp_right fun hi => ⟨hi.1, hidle hi.2⟩⟩
  | exited code => exact hmain

end lcores

/-! ### The steps -/

section steps

theorem CuupMainInv.goTo (h : CuupMainInv told shut S) (hquit : S.forceQuit = true → told)
    {m : MainAt} (hmain : MainOk shut S m) : CuupMainInv told shut (S.goTo m) :=
  ⟨h.lcores, h.fed, fun hS => Or.inl (hquit hS), hmain⟩

theorem CuupMainInv.exit (h : CuupMainInv told shut S) {code : Nat} (hcode : code ≠ 0) :
    CuupMainInv told shut (S.exit code) :=
  ⟨h.lcores, h.fed, fun _ => Or.inr ⟨code, rfl⟩, hcode⟩

/-- A loop is launched on its lcore. -/
theorem CuupMainInv.launched (h : CuupMainInv told shut S) (hquit : S.forceQuit = true → told)
    (hplace : OnPlace S.sysInfo lc loop) {m : MainAt}
    (hfed : (S.setLcore lc (.launched loop)).Runs lcoreRxLoop .rxLoop →
      (S.setLcore lc (.launched loop)).Fed)
    (hmain : MainOk shut (S.setLcore lc (.launched loop)) m) :
    CuupMainInv told shut ((S.setLcore lc (.launched loop)).goTo m) :=
  ⟨lcores_set h.lcores hplace, hfed, fun hS => Or.inl (hquit hS), hmain⟩

/-- The lcores of the loops there is one of. -/
theorem CuupMain.Ready.place (h : S.Ready) (hmain : lcoreMain < lc) (hlc : lc < lcoreWorker) :
    OnPlace S.sysInfo lc (loopOn lc) :=
  ⟨hmain, Nat.lt_trans hlc h.1, rfl, h.2⟩

theorem CuupMain.Ready.worker (h : S.Ready) (hlt : lc < S.sysInfo.lcoreCount)
    (hlc : lc ≠ lcoreMain ∧ lc ≠ lcoreRxLoop ∧ lc ≠ lcoreTxLoop ∧ lc ≠ lcoreDistributor) :
    OnPlace S.sysInfo lc .workerLoop := by
  obtain ⟨hmain, hrx, htx, hdist⟩ := hlc
  refine ⟨Nat.pos_of_ne_zero hmain, hlt, ?_, h.2⟩
  rw [loopOn, if_neg hrx, if_neg htx, if_neg hdist]

/-- An lcore goes on with its loop. -/
theorem CuupMainInv.sameLoop (h : CuupMainInv told shut S) {at_ : LcoreAt}
    (hloop : at_.loop = (S.lcores lc).loop) (hat : LcoreOk told S.sysInfo lc at_) :
    CuupMainInv told shut (S.setLcore lc at_) := by
  have hsame : SameLoops S (S.setLcore lc at_) := by
    refine ⟨rfl, fun i => ?_⟩
    rw [setLcore_loop]
    split
    · rename_i hi
      rw [hi, hloop]
    · rfl
  exact ⟨lcores_set h.lcores hat, fun hrx => hsame.fed (h.fed (hsame.runs.mp hrx)), h.quit,
    hsame.main h.main⟩

theorem lcoreOk_of_idle {info : SysInfo} (hidle : (S.lcores lc).loop = none) :
    LcoreOk told info lc (S.lcores lc) := by
  cases hat : S.lcores lc with
  | wait => trivial
  | launched | looping | finished =>
      rw [hat] at hidle
      cases hidle

/-- The information is set while no loop runs. -/
theorem CuupMainInv.of_idle (hidle : ∀ lc, (S.lcores lc).loop = none)
    (hquit : S.forceQuit = true → told ∨ ∃ code, S.main = .exited code)
    (hmain : MainOk shut S S.main) : CuupMainInv told shut S :=
  ⟨fun lc => lcoreOk_of_idle (hidle lc), fun hrx => absurd hrx (not_runs_of_idle (hidle _)),
    hquit, hmain⟩

/-- `rte_eal_wait_lcore`.  `tx_loop` ends with 1 only, so that no other is waited for
behind it. -/
theorem CuupMainInv.waitLcore (h : CuupMainInv told shut S) (hquit : S.forceQuit = true → told)
    (hmain : MainOk shut S (.waitLcore lc)) {ret : Int} (hret : S.lcores lc = .finished loop ret) :
    CuupMainInv told shut ((S.setLcore lc .wait).goTo
      (if ret ≠ 0 then .exited 3 else .waitLcore (lc + 1))) := by
  obtain ⟨hshut, htx, hlc⟩ := hmain
  have hrx : ((S.setLcore lc .wait).lcores lcoreRxLoop).loop = none := by
    rw [setLcore_loop]
    rcases hlc with rfl | ⟨rfl, hrx⟩
    · rfl
    · exact hrx
  refine ⟨lcores_set h.lcores trivial, fun hruns => absurd hruns (not_runs_of_idle hrx),
    fun hS => Or.inl (hquit hS), ?_⟩
  change MainOk shut (S.setLcore lc .wait) (if ret ≠ 0 then .exited 3 else .waitLcore (lc + 1))
  split
  · exact Nat.succ_ne_zero 2
  rename_i hzero
  rcases hlc with rfl | ⟨rfl, -⟩
  · refine ⟨hshut, ?_, Or.inr ⟨rfl, hrx⟩⟩
    rw [CuupMain.Runs, setLcore_loop, if_neg (by decide)]
    exact htx
  · -- it is `tx_loop` that ended
    have hone := h.lcores lcoreTxLoop
    rw [hret] at hone
    rw [CuupMain.Runs, hret] at htx
    obtain rfl := Option.some.inj htx
    exact absurd (hone.2.1 (by decide) ▸ Int.one_ne_zero) hzero

/-- A step of `main`. -/
theorem CuupMainInv.mainStep (h : CuupMainInv told shut S) (hquit : S.forceQuit = true → told)
    {call : MainCall} (hshutdown : ∀ cli input out, call = .cliExec cli input →
      pfmCliExec true cli input = some out → out.1 = .cliShutdown → shut) (htold : shut → told)
    (hstep : mainStep S call = some S') : CuupMainInv told shut S' := by
  have hmain := h.main
  unfold Pfm.mainStep at hstep
  split at hstep
  · -- `pfm_init`
    rename_i env hat
    rw [hat] at hmain
    obtain rfl := Option.some.inj hstep
    split
    · rename_i hret
      exact .of_idle hmain (fun hS => Or.inl (hquit hS)) ⟨pfmInit_ready hret, hmain⟩
    · exact .of_idle hmain (fun _ => Or.inr ⟨1, rfl⟩) Nat.one_ne_zero
  · -- `pfm_ingress_classifier_add`
    rename_i ret hat
    rw [hat] at hmain
    obtain rfl := Option.some.inj hstep
    apply h.goTo hquit
    split
    · exact hmain
    · exact Nat.succ_ne_zero 2
  · -- `tx_loop` is launched
    rename_i ok hat
    rw [hat] at hmain
    obtain ⟨hready, hidle⟩ := hmain
    obtain ⟨T, hlaunch, rfl⟩ := Option.map_eq_some_iff.mp hstep
    rcases remoteLaunch_cases hlaunch with ⟨rfl, rfl⟩ | ⟨rfl, hwait, rfl⟩
    · exact h.exit (Nat.succ_ne_zero 1)
    · have hrx := idle_launched .txLoop (hidle lcoreRxLoop)
        (show lcoreRxLoop ≠ lcoreTxLoop by decide)
      exact h.launched hquit (hready.place (by decide) (by decide))
        (fun hruns => absurd hruns (not_runs_of_idle hrx))
        ⟨hready, hrx, CuupMain.runs_launched⟩
  · -- `dist_loop` is launched
    rename_i ok hat
    rw [hat] at hmain
    obtain ⟨hready, hrx, htx⟩ := hmain
    obtain ⟨T, hlaunch, rfl⟩ := Option.map_eq_some_iff.mp hstep
    rcases remoteLaunch_cases hlaunch with ⟨rfl, rfl⟩ | ⟨rfl, hwait, rfl⟩
    · exact h.exit (Nat.succ_ne_zero 1)
    · have hrx' := idle_launched .distLoop hrx
        (show lcoreRxLoop ≠ lcoreDistributor by decide)
      exact h.launched hquit (hready.place (by decide) (by decide))
        (fun hruns => absurd hruns (not_runs_of_idle hrx'))
        ⟨hready, hrx', htx.launched hwait, CuupMain.runs_launched,
          fun hworkers => absurd hworkers (Nat.lt_irrefl 0)⟩
  · -- a turn for a worker
    rename_i lc workerCount ok hat
    rw [hat] at hmain
    obtain ⟨hready, hrx, htx, hdist, hworker⟩ := hmain
    split at hstep
    swap
    · obtain rfl := Option.some.inj hstep
      split
      · rename_i hsome
        exact h.goTo hquit ⟨hready, htx, hdist, hworker hsome⟩
      · exact h.exit (Nat.succ_ne_zero 1)
    rename_i hlt
    split at hstep
    swap
    · obtain rfl := Option.some.inj hstep
      exact h.goTo hquit ⟨hready, hrx, htx, hdist, hworker⟩
    rename_i hlc
    obtain ⟨T, hlaunch, rfl⟩ := Option.map_eq_some_iff.mp hstep
    rcases remoteLaunch_cases hlaunch with ⟨rfl, rfl⟩ | ⟨rfl, hwait, rfl⟩
    · exact h.goTo hquit ⟨hready, hrx, htx, hdist, hworker⟩
    · have hrx' := idle_launched .workerLoop hrx hlc.2.1.symm
      refine h.launched hquit (hready.worker hlt hlc)
        (fun hruns => absurd hruns (not_runs_of_idle hrx'))
        ⟨hready, hrx', htx.launched hwait, hdist.launched hwait, fun _ => ⟨lc, ?_⟩⟩
      exact CuupMain.runs_launched
  · -- `rx_loop` is launched
    rename_i ok hat
    rw [hat] at hmain
    obtain ⟨hready, htx, hdist, w, hworker⟩ := hmain
    obtain ⟨T, hlaunch, rfl⟩ := Option.map_eq_some_iff.mp hstep
    rcases remoteLaunch_cases hlaunch with ⟨rfl, rfl⟩ | ⟨rfl, hwait, rfl⟩
    · exact h.exit (Nat.succ_ne_zero 1)
    · have hfed : (S.setLcore lcoreRxLoop (.launched .rxLoop)).Fed :=
        ⟨htx.launched hwait, hdist.launched hwait, w, hworker.launched hwait⟩
      exact h.launched hquit (hready.place (by decide) (by decide)) (fun _ => hfed) hfed
  · -- `pfm_cli_exec`
    rename_i cli input hat
    rw [hat] at hmain
    obtain ⟨out, hexec, rfl⟩ := Option.map_eq_some_iff.mp hstep
    have hconsole := pfmCliExec_console hexec
    dsimp only
    by_cases hret : out.1 = .cliShutdown
    · have hshut : shut := hshutdown cli input out rfl hexec hret
      rw [if_pos hret, if_pos (Or.inr hret)]
      exact ⟨h.lcores, h.fed, fun _ => Or.inl (htold hshut), hshut, hmain.1, Or.inl rfl⟩
    · rw [if_neg hret, if_neg (not_or.mpr ⟨hconsole, hret⟩)]
      exact h
  · -- `rte_eal_wait_lcore`
    rename_i lc hat
    rw [hat] at hmain
    have hlt : lc < S.sysInfo.lcoreCount := by
      have hplace := (h.lcores lcoreTxLoop).place hmain.2.1
      rcases hmain.2.2 with rfl | ⟨rfl, -⟩
      · exact Nat.lt_trans (by decide) hplace.lt
      · exact hplace.lt
    rw [if_pos hlt] at hstep
    split at hstep
    · rename_i hwait
      obtain rfl := Option.some.inj hstep
      obtain ⟨hshut, htx, rfl | ⟨rfl, -⟩⟩ := hmain
      · exact h.goTo hquit ⟨hshut, htx, Or.inr ⟨rfl, congrArg LcoreAt.loop hwait⟩⟩
      · rw [CuupMain.Runs, hwait] at htx
        cases htx
    · rename_i loop ret hret
      obtain rfl := Option.some.inj hstep
      exact h.waitLcore hquit hmain hret
    · cases hstep
  · cases hstep

/-- **Every step** of the program. -/
theorem CuupMainInv.step (h : CuupMainInv told shut S) {e : CuupMainEvent}
    (hsignal : e = .signal → told)
    (hshutdown : ∀ cli input out, e = .main (.cliExec cli input) →
      pfmCliExec true cli input = some out → out.1 = .cliShutdown → shut) (htold : shut → told)
    (hstep : cuupMainStep S e = some S') : CuupMainInv told shut S' := by
  unfold cuupMainStep at hstep
  split at hstep
  · cases hstep
  rename_i hrunning
  have hquit (hS : S.forceQuit = true) : told := by
    rcases h.quit hS with htold | ⟨code, hcode⟩
    · exact htold
    · exact absurd hcode (hrunning code)
  cases e with
  | main call =>
      refine h.mainStep hquit (fun cli input out hcall => ?_) htold hstep
      exact hshutdown cli input out (congrArg _ hcall)
  | signal =>
      obtain rfl := Option.some.inj hstep
      exact ⟨h.lcores, h.fed, fun _ => Or.inl (hsignal rfl), h.main⟩
  | begins lc =>
      dsimp only at hstep
      split at hstep
      · rename_i loop hlaunched
        obtain rfl := Option.some.inj hstep
        have hplace := h.lcores lc
        rw [hlaunched] at hplace
        refine h.sameLoop ?_ (Loop.begin_ok hplace)
        rw [hlaunched, Loop.begin_loop]
        rfl
      · cases hstep
  | ends lc between =>
      dsimp only at hstep
      split at hstep
      · rename_i loop hlooping
        split at hstep
        · rename_i hset
          obtain rfl := Option.some.inj hstep
          have hplace := h.lcores lc
          rw [hlooping] at hplace
          refine h.sameLoop ?_ ⟨hplace.1, Loop.ret_eq, Or.inl (hquit hset)⟩
          rw [hlooping]
          rfl
        · cases hstep
      · cases hstep

end steps

/-- The operator shut the program down. -/
def ShutDown (es : List CuupMainEvent) : Prop :=
  ∃ cli input out, CuupMainEvent.main (.cliExec cli input) ∈ es ∧
    pfmCliExec true cli input = some out ∧ out.1 = .cliShutdown

/-- A signal or the operator told the loops to end. -/
def ToldToEnd (es : List CuupMainEvent) : Prop := .signal ∈ es ∨ ShutDown es

theorem cuup_invariant {es : List CuupMainEvent}
    (hrun : exec cuupMainStep CuupMain.init es = some S) :
    CuupMainInv (ToldToEnd es) (ShutDown es) S := by
  refine exec_invariant_inputs (P := fun e => e ∈ es) (fun S e S' hS he hstep => ?_)
    CuupMainInv.init (fun _ he => he) hrun
  refine hS.step (fun hsignal => Or.inl (hsignal ▸ he)) (fun cli input out hcli hexec hret => ?_)
    Or.inr hstep
  exact ⟨cli, input, out, hcli ▸ he, hexec, hret⟩

/-- **The start.**  In every run each loop is on its own lcore; when `rx_loop` was launched,
the other loops were before it, one worker at least among them; and a worker in its loop has
an id of its own, that `worker_info_g` and the distributor have room for. -/
theorem loops_started {es : List CuupMainEvent}
    (hrun : exec cuupMainStep CuupMain.init es = some S) :
    (∀ lc loop, S.Runs lc loop → lcoreMain < lc ∧ lc < S.sysInfo.lcoreCount ∧
      loop = loopOn lc) ∧
    (S.Runs lcoreRxLoop .rxLoop → S.Fed) ∧
    ∀ lc, S.lcores lc = .looping .workerLoop → lcoreWorker ≤ lc ∧ lc - lcoreWorker < maxWorkers ∧
      ∃ workers, S.sysInfo.dist = some workers ∧ lc - lcoreWorker < workers := by
  have h := cuup_invariant hrun
  refine ⟨fun lc loop hruns => ?_, h.fed, fun lc hlooping => ?_⟩
  · have hplace := (h.lcores lc).place hruns
    exact ⟨hplace.notMain, hplace.lt, hplace.loop⟩
  · have hlc := h.lcores lc
    rw [hlooping] at hlc
    obtain ⟨hplace, hroom⟩ := hlc
    have hworker := loopOn_worker hplace.notMain hplace.loop.symm
    refine ⟨hworker, hroom rfl, _, hplace.dist, ?_⟩
    exact Nat.sub_lt_sub_right hworker hplace.lt

/-- Five lcores, and every call succeeds. -/
def cuupStart : List CuupMainEvent :=
  [.main (.init ⟨0, 5, true, true, true, true⟩), .main (.classifierAdd .success),
    .main (.launch true), .main (.launch true), .main (.launch true), .main (.launch true),
    .main (.launch true), .main (.launch true), .main (.launch true), .main (.launch true),
    .main (.launch true), .begins 1, .begins 2, .begins 3, .begins 4]

def afterCuupStart : Option CuupMain := exec cuupMainStep CuupMain.init cuupStart

theorem loops_started_cuupStart : ∃ S, afterCuupStart = some S ∧ S.main = .cli ∧
    (∀ lc loop, S.Runs lc loop → lcoreMain < lc ∧ lc < S.sysInfo.lcoreCount ∧
      loop = loopOn lc) ∧
    (S.Runs lcoreRxLoop .rxLoop → S.Fed) ∧
    ∀ lc, S.lcores lc = .looping .workerLoop → lcoreWorker ≤ lc ∧ lc - lcoreWorker < maxWorkers ∧
      ∃ workers, S.sysInfo.dist = some workers ∧ lc - lcoreWorker < workers := by
  have hany : (afterCuupStart.any fun S => S.main = .cli) = true := by decide
  obtain ⟨S, hS, hcli⟩ := (Option.any_eq_true _ _).mp hany
  exact ⟨S, hS, of_decide_eq_true hcli, loops_started hS⟩

/-- **The end.**  `main` never comes to `exit(0)`.  It waits for `rx_loop` and `tx_loop` only,
and only after `shutdown`; and no loop ends before a signal or `shutdown` but that of a worker
without an entry in `worker_info_g`. -/
theorem main_ends {es : List CuupMainEvent} (hrun : exec cuupMainStep CuupMain.init es = some S) :
    S.main ≠ .exited 0 ∧
    (∀ lc, S.main = .waitLcore lc → (lc = lcoreRxLoop ∨ lc = lcoreTxLoop) ∧ ShutDown es) ∧
    ∀ lc loop ret, S.lcores lc = .finished loop ret →
      ToldToEnd es ∨ loop = .workerLoop ∧ maxWorkers ≤ lc - lcoreWorker := by
  have h := cuup_invariant hrun
  have hmain := h.main
  refine ⟨fun hexit => ?_, fun lc hwait => ?_, fun lc loop ret hfinished => ?_⟩
  · rw [hexit] at hmain
    exact hmain rfl
  · rw [hwait] at hmain
    exact ⟨hmain.2.2.imp_right And.left, hmain.1⟩
  · have hlc := h.lcores lc
    rw [hfinished] at hlc
    exact hlc.2.2

/-- ` shut`, with a newline. -/
def shutLine : List UInt8 := ascii [' ', 's', 'h', 'u', 't'] ++ [newline]

/-- `shutdown`, when `rx_loop` finds the flag set inside its loop and returns 0. -/
def cuupShutdown : List CuupMainEvent :=
  cuupStart ++ [.main (.cliExec fullOfX shutLine), .ends 1 true, .main .waitLcore, .ends 2 false,
    .main .waitLcore]

def afterCuupShutdown : Option CuupMain := exec cuupMainStep CuupMain.init cuupShutdown

theorem main_ends_cuupShutdown : ∃ S, afterCuupShutdown = some S ∧ S.main = .exited 3 ∧
    S.main ≠ .exited 0 ∧
    (∀ lc, S.main = .waitLcore lc →
      (lc = lcoreRxLoop ∨ lc = lcoreTxLoop) ∧ ShutDown cuupShutdown) ∧
    ∀ lc loop ret, S.lcores lc = .finished loop ret →
      ToldToEnd cuupShutdown ∨ loop = .workerLoop ∧ maxWorkers ≤ lc - lcoreWorker := by
  have hany : (afterCuupShutdown.any fun S => S.main = .exited 3) = true := by decide
  obtain ⟨S, hS, hexited⟩ := (Option.any_eq_true _ _).mp hany
  exact ⟨S, hS, of_decide_eq_true hexited, main_ends hS⟩

end Pfm
