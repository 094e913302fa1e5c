import Pfm.GtpSupervision

/-!
# The paths of a run

All calls that reach the statics of `gtp.c`, in any order: paths are added and deleted
with their tunnels, the timers of their rows expire, and echo responses come in.

* `GtpPathInv` : what is found under an address is a path to it, as some call asked for;
* `gtp_paths_alive` : every run.
-/

namespace Pfm

open BoundedLoop StepSystem

variable {D : Dpdk}

/-- A call of `gtp_path_add` or `gtp_path_del`, a timer that expires, or an echo response
for a path. -/
inductive GtpCall (D : Dpdk) where
  | add (lib : GtpLib D.mbuf) (args : GtpPathArgs)
  | del (remoteIp : PfmIpAddr)
  | echoRequestTimer (alloc : Option D.mbuf.Mbuf) (r : Fin maxGtpPath)
  | echoResponseTimeout (r : Fin maxGtpPath)
  | timerReset (gtpPath : GtpPathInfo)

/-- A timer calls the callback it was started with. -/
def gtpStep (S : GtpState D) : GtpCall D → Option (GtpState D)
  | .add lib args => (gtpPathAdd lib S args).map Prod.snd
  | .del remoteIp => (gtpPathDel S remoteIp).map Prod.snd
  | .echoRequestTimer alloc r =>
      if S.echoTimer r = .echoRequest then gtpEchoRequestTimerCb alloc S r else none
  | .echoResponseTimeout r =>
      if S.echoTimer r = .echoResponseTimeout then some (gtpEchoResponseTimeoutCb S r) else none
  | .timerReset gtpPath => (gtpPathTimerReset S gtpPath).map Prod.snd

/-- A row is for the path that was asked for. -/
structure GtpPathInfo.IsOf (e : GtpPathInfo) (args : GtpPathArgs) : Prop where
  remoteIp : e.remoteIp = args.remoteIp
  remotePortNo : e.remotePortNo = UInt16.ofInt args.remotePortNo
  localIp : e.localIp = args.localIp
  localPortNo : e.localPortNo = UInt16.ofInt args.localPortNo

/-- A path in the table: asked for with its address, under supervision, and with a retry
counter in bounds. -/
structure PathAlive (asked : GtpPathArgs → Prop) (S : GtpState D) (ip : PfmIpAddr)
    (r : Fin maxGtpPath) : Prop where
  asked : ∃ args, asked args ∧ args.remoteIp = ip ∧ (S.table.gtpTable r).IsOf args
  retries : (S.table.gtpTable r).retryCount.toNat ≤ n3Requests
  timer : S.echoTimer r ≠ .stopped

def GtpPathInv (asked : GtpPathArgs → Prop) (S : GtpState D) : Prop :=
  ∀ ip p, D.gtpHash.entry S.table.gtpTableHash ip = some p → PathAlive asked S ip p.1

section inv

variable {asked : GtpPathArgs → Prop} {S S' : GtpState D} {r : Fin maxGtpPath}

theorem PathAlive.remoteIp {ip : PfmIpAddr} (h : PathAlive asked S ip r) :
    (S.table.gtpTable r).remoteIp = ip := by
  obtain ⟨args, -, hip, hof⟩ := h.asked
  exact hof.remoteIp.trans hip

theorem GtpPathInv.of_none (h : ∀ ip, D.gtpHash.entry S.table.gtpTableHash ip = none) :
    GtpPathInv asked S := by
  intro ip p hentry
  rw [h ip] at hentry
  cases hentry

/-- A row that goes on, with its timer. -/
theorem GtpPathInv.write (h : GtpPathInv asked S) {e : GtpPathInfo} {t : GtpTimer}
    (hof : ∀ args, (S.table.gtpTable r).IsOf args → e.IsOf args)
    (hretries : (S.table.gtpTable r).retryCount.toNat ≤ n3Requests →
      e.retryCount.toNat ≤ n3Requests)
    (ht : t ≠ .stopped) : GtpPathInv asked ((S.setRow r e).setTimer r t) := by
  intro ip p hentry
  have halive := h ip p hentry
  by_cases hp : p.1 = r
  · obtain ⟨args, hasked, hip, hargs⟩ := halive.asked
    have hold := halive.retries
    refine ⟨⟨args, hasked, hip, ?_⟩, ?_, ?_⟩
    · simp only [GtpState.setTimer, GtpState.setRow, hp, Function.update_self]
      exact hof args (hp ▸ hargs)
    · simp only [GtpState.setTimer, GtpState.setRow, hp, Function.update_self]
      exact hretries (hp ▸ hold)
    · simp only [GtpState.setTimer, hp, Function.update_self]
      exact ht
  · refine ⟨?_, ?_, ?_⟩
    · simp only [GtpState.setTimer, GtpState.setRow, Function.update_of_ne hp]
      exact halive.asked
    · simp only [GtpState.setTimer, GtpState.setRow, Function.update_of_ne hp]
      exact halive.retries
    · simp only [GtpState.setTimer, GtpState.setRow, Function.update_of_ne hp]
      exact halive.timer

/-- A row that is cleared, with what was counted in it before: its address is not found
any more, and the others are left alone. -/
theorem GtpPathInv.clear (h : GtpPathInv asked S) {e : GtpPathInfo}
    (he : e.remoteIp = (S.table.gtpTable r).remoteIp) :
    GtpPathInv asked (gtpPathClear (S.setRow r e) r).2 := by
  obtain ⟨key, hkey⟩ : ∃ key, key = (S.table.gtpTable r).remoteIp := ⟨_, rfl⟩
  have hdelkey : (((S.setRow r e).setTimer r .stopped).table.gtpTable r).remoteIp = key := by
    simp only [GtpState.setTimer, GtpState.setRow, Function.update_self]
    rw [he, hkey]
  -- what is found afterwards was found before, in another row
  have hfound : ∀ ip p,
      D.gtpHash.entry (D.gtpHash.del S.table.gtpTableHash key).2 ip = some p →
        D.gtpHash.entry S.table.gtpTableHash ip = some p ∧ p.1 ≠ r := by
    intro ip p hentry
    have hold : D.gtpHash.entry S.table.gtpTableHash ip = some p ∧ ip ≠ key := by
      cases hpresent : D.gtpHash.entry S.table.gtpTableHash key with
      | none =>
          have hsame := RteHash.entry_del_of_absent (H := D.gtpHash) hpresent
          rw [hsame] at hentry
          refine ⟨hentry, ?_⟩
          intro heq
          rw [heq, hpresent] at hentry
          cases hentry
      | some q =>
          rw [(RteHash.del_of_entry (p := q.1) (d := q.2) hpresent).2] at hentry
          by_cases hip : ip = key
          · rw [hip, Function.update_self] at hentry
            cases hentry
          · rw [Function.update_of_ne hip] at hentry
            exact ⟨hentry, hip⟩
    refine ⟨hold.1, fun hp => hold.2 ?_⟩
    have hip := (h ip p hold.1).remoteIp
    rw [hp, ← hkey] at hip
    exact hip.symm
  intro ip p hentry
  have hhash : (gtpPathClear (S.setRow r e) r).2.table.gtpTableHash =
      (D.gtpHash.del S.table.gtpTableHash key).2 := by
    unfold gtpPathClear
    dsimp only
    rw [hdelkey]
    split <;> rfl
  rw [hhash] at hentry
  obtain ⟨hold, hp⟩ := hfound ip p hentry
  have halive := h ip p hold
  have hrow : (gtpPathClear (S.setRow r e) r).2.table.gtpTable p.1 = S.table.gtpTable p.1 := by
    unfold gtpPathClear
    dsimp only
    split <;> simp [GtpState.setRow, GtpState.setTimer, GtpState.withHash, Function.update_of_ne hp]
  have htimer : (gtpPathClear (S.setRow r e) r).2.echoTimer p.1 = S.echoTimer p.1 := by
    unfold gtpPathClear
    dsimp only
    split <;> simp [GtpState.setRow, GtpState.setTimer, GtpState.withHash, Function.update_of_ne hp]
  exact ⟨by rw [hrow]; exact halive.asked, by rw [hrow]; exact halive.retries,
    by rw [htimer]; exact halive.timer⟩

/-- A path goes on from a row for it, counted once more and waiting for an echo. -/
theorem GtpPathInv.start {lib : GtpLib D.mbuf} {ret : PfmRetval}
    (h : ∀ ip p, D.gtpHash.entry S.table.gtpTableHash ip = some p →
      if p.1 = r then
        (∃ args, asked args ∧ args.remoteIp = ip ∧ (S.table.gtpTable r).IsOf args) ∧
          (S.table.gtpTable r).retryCount.toNat ≤ n3Requests
      else PathAlive asked S ip p.1)
    (hrun : gtpPathStart lib S r = some (ret, S')) : GtpPathInv asked S' := by
  obtain ⟨req, -, hend⟩ := Option.bind_eq_some_iff.mp hrun
  obtain ⟨-, rfl⟩ := Prod.mk.inj (Option.some.inj hend)
  intro ip p hentry
  have hp := h ip p hentry
  split at hp
  · rename_i heq
    obtain ⟨⟨args, hasked, hip, hargs⟩, hretries⟩ := hp
    refine ⟨⟨args, hasked, hip, ?_⟩, ?_, ?_⟩
    · simp only [GtpState.setTimer, GtpState.setRow, heq, Function.update_self]
      exact ⟨hargs.1, hargs.2, hargs.3, hargs.4⟩
    · simp only [GtpState.setTimer, GtpState.setRow, heq, Function.update_self]
      exact hretries
    · simp only [GtpState.setTimer, heq, Function.update_self]
      exact nofun
  · rename_i hne
    refine ⟨?_, ?_, ?_⟩
    · simp only [GtpState.setTimer, GtpState.setRow, Function.update_of_ne hne]
      exact hp.asked
    · simp only [GtpState.setTimer, GtpState.setRow, Function.update_of_ne hne]
      exact hp.retries
    · simp only [GtpState.setTimer, GtpState.setRow, Function.update_of_ne hne]
      exact hp.timer

theorem GtpPathInv.addUp (h : GtpPathInv asked S) {lib : GtpLib D.mbuf} {args : GtpPathArgs}
    (hasked : asked args) {ret : PfmRetval} (hrun : gtpPathAddUp lib S args = some (ret, S')) :
    GtpPathInv asked S' := by
  unfold gtpPathAddUp at hrun
  dsimp only at hrun
  split at hrun
  · rename_i habsent
    obtain ⟨t, ht⟩ : ∃ t, S.table.gtpTableHash = some t := by
      cases hhash : S.table.gtpTableHash with
      | none =>
          rw [hhash] at habsent
          cases habsent
      | some t => exact ⟨t, rfl⟩
    have hnone : D.gtpHash.entry (some t) args.remoteIp = none := by
      rw [ht] at habsent
      cases hentry : D.gtpHash.entry (some t) args.remoteIp with
      | none => rfl
      | some p =>
          rw [RteHash.lookup_of_entry (p := p.1) (d := p.2) hentry] at habsent
          exact absurd habsent (by simp [ENOENT])
    rw [ht] at hrun
    rcases RteHash.addKey_of_absent () hnone with ⟨q, hcode, hentries⟩ | ⟨hcode, hneg, hentries⟩
    · rw [if_neg (by omega)] at hrun
      obtain ⟨r, hr, hrun⟩ := Option.bind_eq_some_iff.mp hrun
      rw [CArray.index?_of_val hcode] at hr
      obtain rfl := Option.some.inj hr
      refine GtpPathInv.start (fun ip p hentry => ?_) hrun
      have hentry' : D.gtpHash.entry (D.gtpHash.addKey (some t) args.remoteIp ()).2 ip = some p :=
        hentry
      rw [hentries] at hentry'
      by_cases hip : ip = args.remoteIp
      · rw [hip, Function.update_self] at hentry'
        obtain rfl := Option.some.inj hentry'
        rw [if_pos rfl]
        simp only [GtpState.setRow, Function.update_self]
        exact ⟨⟨args, hasked, hip.symm, rfl, rfl, rfl, rfl⟩, Nat.zero_le _⟩
      · rw [Function.update_of_ne hip] at hentry'
        have hne : p.1 ≠ q := by
          intro heq
          have hnew : D.gtpHash.entry (D.gtpHash.addKey (some t) args.remoteIp ()).2
              args.remoteIp = some (q, ()) := by
            rw [hentries, Function.update_self]
          have hold : D.gtpHash.entry (D.gtpHash.addKey (some t) args.remoteIp ()).2 ip =
              some (q, ()) := by
            rw [hentries, Function.update_of_ne hip, hentry', ← heq]
          exact hip (RteHash.entry_inj hold hnew)
        rw [if_neg hne]
        have halive := h ip p (by rw [ht]; exact hentry')
        refine ⟨?_, ?_, halive.timer⟩
        · simp only [GtpState.setRow, GtpState.withHash, Function.update_of_ne hne]
          exact halive.asked
        · simp only [GtpState.setRow, GtpState.withHash, Function.update_of_ne hne]
          exact halive.retries
    · rw [if_pos (hcode ▸ hneg)] at hrun
      obtain ⟨-, rfl⟩ := Prod.mk.inj (Option.some.inj hrun)
      intro ip p hentry
      have hentry' : D.gtpHash.entry (D.gtpHash.addKey (some t) args.remoteIp ()).2 ip = some p :=
        hentry
      rw [hentries, ← ht] at hentry'
      exact ⟨(h ip p hentry').asked, (h ip p hentry').retries, (h ip p hentry').timer⟩
  split at hrun
  · obtain ⟨-, rfl⟩ := Prod.mk.inj (Option.some.inj hrun)
    exact h
  · -- a key that is there has no data
    obtain ⟨r, hr, -⟩ := Option.bind_eq_some_iff.mp hrun
    obtain ⟨_, -, hptr⟩ := Option.bind_eq_some_iff.mp hr
    cases hptr

theorem GtpPathInv.add (h : GtpPathInv asked S) {lib : GtpLib D.mbuf} {args : GtpPathArgs}
    (hasked : asked args) {ret : PfmRetval} (hrun : gtpPathAdd lib S args = some (ret, S')) :
    GtpPathInv asked S' := by
  have hinit : GtpPathInv asked (gtpTableInit lib S).2 := by
    apply GtpPathInv.of_none
    intro ip
    unfold gtpTableInit
    dsimp only
    split
    · split
      · exact RteHash.entry_empty _ _
      · exact RteHash.entry_empty _ _
    · rfl
  unfold gtpPathAdd at hrun
  dsimp only at hrun
  split at hrun
  · exact h.addUp hasked hrun
  split at hrun
  · obtain ⟨-, rfl⟩ := Prod.mk.inj (Option.some.inj hrun)
    exact hinit
  · exact hinit.addUp hasked hrun

theorem GtpPathInv.del (h : GtpPathInv asked S) {remoteIp : PfmIpAddr} {ret : PfmRetval}
    (hrun : gtpPathDel S remoteIp = some (ret, S')) : GtpPathInv asked S' := by
  unfold gtpPathDel at hrun
  dsimp only at hrun
  split at hrun
  · obtain ⟨-, rfl⟩ := Prod.mk.inj (Option.some.inj hrun)
    exact h
  obtain ⟨r, -, hrun⟩ := Option.bind_eq_some_iff.mp hrun
  split at hrun
  · obtain rfl := (congrArg Prod.snd (Option.some.inj hrun)).symm
    exact h.clear rfl
  · obtain ⟨-, rfl⟩ := Prod.mk.inj (Option.some.inj hrun)
    intro ip p hentry
    have halive := h ip p hentry
    by_cases hp : p.1 = r
    · obtain ⟨args, hasked, hip, hargs⟩ := halive.asked
      have hretries := halive.retries
      rw [hp] at hargs hretries
      refine ⟨⟨args, hasked, hip, ?_⟩, ?_, halive.timer⟩
      · simp only [GtpState.setRow, hp, Function.update_self]
        exact ⟨hargs.1, hargs.2, hargs.3, hargs.4⟩
      · simp only [GtpState.setRow, hp, Function.update_self]
        exact hretries
    · refine ⟨?_, ?_, halive.timer⟩
      · simp only [GtpState.setRow, Function.update_of_ne hp]
        exact halive.asked
      · simp only [GtpState.setRow, Function.update_of_ne hp]
        exact halive.retries

/-- **One call.** -/
theorem GtpPathInv.step (h : GtpPathInv asked S) {c : GtpCall D}
    (hasked : ∀ lib args, c = .add lib args → asked args) (hstep : gtpStep S c = some S') :
    GtpPathInv asked S' := by
  cases c with
  | add lib args =>
      obtain ⟨⟨ret, S₁⟩, hrun, rfl⟩ := Option.map_eq_some_iff.mp hstep
      exact h.add (hasked lib args rfl) hrun
  | del remoteIp =>
      obtain ⟨⟨ret, S₁⟩, hrun, rfl⟩ := Option.map_eq_some_iff.mp hstep
      exact h.del hrun
  | echoRequestTimer alloc r =>
      simp only [gtpStep] at hstep
      split at hstep
      swap
      · cases hstep
      unfold gtpEchoRequestTimerCb at hstep
      dsimp only at hstep
      split at hstep
      · obtain rfl := Option.some.inj hstep
        exact h.clear rfl
      · rename_i hfew
        obtain ⟨req, -, hend⟩ := Option.bind_eq_some_iff.mp hstep
        obtain rfl := Option.some.inj hend
        exact h.write (fun args hargs => ⟨hargs.1, hargs.2, hargs.3, hargs.4⟩)
          (fun _ => Nat.not_lt.mp hfew) nofun
  | echoResponseTimeout r =>
      simp only [gtpStep] at hstep
      split at hstep
      swap
      · cases hstep
      obtain rfl := Option.some.inj hstep
      have hwrite := h.write (r := r) (e := S.table.gtpTable r) (t := .echoRequest)
        (fun _ hargs => hargs) (fun hretries => hretries) nofun
      rwa [GtpState.setRow, Function.update_eq_self] at hwrite
  | timerReset gtpPath =>
      obtain ⟨⟨ret, S₁⟩, hrun, rfl⟩ := Option.map_eq_some_iff.mp hstep
      unfold gtpPathTimerReset at hrun
      dsimp only at hrun
      split at hrun
      · cases hrun
      split at hrun
      · obtain ⟨-, rfl⟩ := Prod.mk.inj (Option.some.inj hrun)
        exact h
      · obtain ⟨r, -, hend⟩ := Option.bind_eq_some_iff.mp hrun
        obtain ⟨-, rfl⟩ := Prod.mk.inj (Option.some.inj hend)
        exact h.write (fun args hargs => ⟨hargs.1, hargs.2, hargs.3, hargs.4⟩)
          (fun _ => Nat.zero_le _) nofun

theorem GtpPathInv.init : GtpPathInv asked (GtpState.init D) :=
  GtpPathInv.of_none fun _ => rfl

/-- What `gtp_path_get` finds. -/
theorem GtpPathInv.get (h : GtpPathInv asked S) {ip : PfmIpAddr} {e : GtpPathInfo}
    (hget : gtpPathGet S.table ip = some e) :
    ∃ r, S.table.gtpTable r = e ∧ PathAlive asked S ip r := by
  rw [gtpPathGet_eq] at hget
  obtain ⟨p, hentry, rfl⟩ := Option.map_eq_some_iff.mp hget
  exact ⟨p.1, rfl, h ip p hentry⟩

end inv

/-- **The paths that are found.**  In any run, a path found under an address leads to that
address, as some `gtp_path_add` of the run asked for; its timer is running, and its retry
counter does not pass `N3_REQUESTS`.  The request of `gtp_path_add` is not counted. -/
theorem gtp_paths_alive {calls : List (GtpCall D)} {S : GtpState D}
    (hrun : exec gtpStep (GtpState.init D) calls = some S) {ip : PfmIpAddr} {e : GtpPathInfo}
    (hget : gtpPathGet S.table ip = some e) :
    e.remoteIp = ip ∧ e.retryCount.toNat ≤ n3Requests ∧
      (∃ lib args, GtpCall.add lib args ∈ calls ∧ e.IsOf args) ∧
      ∃ r, S.table.gtpTable r = e ∧ S.echoTimer r ≠ .stopped := by
  let asked (args : GtpPathArgs) : Prop := ∃ lib, GtpCall.add lib args ∈ calls
  have hinv : GtpPathInv asked S := by
    refine exec_invariant_inputs (P := fun c => c ∈ calls) (fun S c S' hS hc hstep => ?_)
      GtpPathInv.init (fun _ hc => hc) hrun
    refine hS.step (fun lib args heq => ⟨lib, heq ▸ hc⟩) hstep
  obtain ⟨r, rfl, halive⟩ := hinv.get hget
  obtain ⟨args, ⟨lib, hmem⟩, -, hof⟩ := halive.asked
  exact ⟨halive.remoteIp, halive.retries, ⟨lib, args, hmem, hof⟩, r, rfl, halive.timer⟩

/-- A path to the UPF, whose timers expire once each. -/
def upfPathCalls : List (GtpCall listDpdk) :=
  [.add readyLib (pathTo upfIp), .echoResponseTimeout firstPath, .echoRequestTimer none firstPath]

theorem gtp_paths_alive_upf : ∃ S e, exec gtpStep (GtpState.init listDpdk) upfPathCalls = some S ∧
    gtpPathGet S.table upfIp = some e ∧ e.remoteIp = upfIp ∧ e.retryCount.toNat ≤ n3Requests ∧
    (∃ lib args, GtpCall.add lib args ∈ upfPathCalls ∧ e.IsOf args) ∧
    ∃ r, S.table.gtpTable r = e ∧ S.echoTimer r ≠ .stopped := by
  have hany : ((exec gtpStep (GtpState.init listDpdk) upfPathCalls).any fun S =>
      (gtpPathGet S.table upfIp).isSome) = true := by decide
  obtain ⟨S, hS, hfound⟩ := (Option.any_eq_true _ _).mp hany
  obtain ⟨e, he⟩ := Option.isSome_iff_exists.mp hfound
  exact ⟨S, e, hS, he, gtp_paths_alive hS he⟩

end Pfm
