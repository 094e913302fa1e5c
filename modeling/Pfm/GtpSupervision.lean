import Pfm.GtpPathCount

/-!
# Supervision of a GTP path

Runs of the timers and the echo responses of one live path, next to a count of the
echo-request periods since the last response.  An echo response looks the path up by
its data pointer, which is NULL, and an echo request faults when it gets a packet; so
the supervision works, `Supervised`, in the runs in which neither happens.
-/

namespace Pfm

open BoundedLoop StepSystem

variable {D : Dpdk} {ip : PfmIpAddr} {r : Fin maxGtpPath}

/-- The table, the firings of `gtp_echo_request_timer_cb` for the path since its last
echo response, whether the last step was a response, and whether the program has
crashed. -/
structure EchoRun (D : Dpdk) where
  state : GtpState D
  fired : Nat
  answered : Bool
  crashed : Bool

/-- What happens to the path. -/
inductive EchoEvent (D : Dpdk) where
  | echoRequestTimer (alloc : Option D.mbuf.Mbuf)
  | echoResponseTimeout
  | dataInd (tunnels : TunnelTable D) (ind : DataInd D.mbuf)

/-- A timer fires only while it is running to that callback, and a packet counts here
only when it is an echo response from the path's address. -/
def echoStep (ip : PfmIpAddr) (r : Fin maxGtpPath) (R : EchoRun D) :
    EchoEvent D → Option (EchoRun D)
  | .echoRequestTimer alloc =>
      if R.crashed = false ∧ R.state.echoTimer r = .echoRequest then
        match gtpEchoRequestTimerCb alloc R.state r with
        | none => some { R with crashed := true }
        | some S => some { R with state := S, fired := R.fired + 1, answered := false }
      else none
  | .echoResponseTimeout =>
      if R.crashed = false ∧ R.state.echoTimer r = .echoResponseTimeout then
        some { R with state := gtpEchoResponseTimeoutCb R.state r, answered := false }
      else none
  | .dataInd tunnels ind =>
      if R.crashed = false ∧ ind.remoteIpAddr = ip then
        match pfmDataInd R.state.table tunnels ind with
        | .gtpPathTimerReset gtpEntry _ =>
            match gtpPathTimerReset R.state gtpEntry with
            | none => some { R with crashed := true }
            | some (_, S) => some { R with state := S, fired := 0, answered := true }
        | _ => none
      else none

/-- The program runs; while there is the path its retry count is the number of firings
since the last response and its timer runs; a response has set the count to 0 and the
timer to the response timeout; and the path is gone only after more than `N3_REQUESTS`
firings without a response. -/
structure Supervised (ip : PfmIpAddr) (r : Fin maxGtpPath) (R : EchoRun D) : Prop where
  running : R.crashed = false
  count : ∀ e, gtpPathGet R.state.table ip = some e →
    e.retryCount.toNat = R.fired ∧ R.state.echoTimer r ≠ .stopped
  answered : R.answered = true → ∃ e, gtpPathGet R.state.table ip = some e ∧
    e.retryCount = 0 ∧ R.state.echoTimer r = .echoResponseTimeout
  removed : gtpPathGet R.state.table ip = none → n3Requests < R.fired

/-- The step is survived: the firing removes the path or finds no packet, and there is
no echo response. -/
def Survives (R : EchoRun D) : EchoEvent D → Prop
  | .echoRequestTimer alloc => n3Requests ≤ R.fired ∨ alloc = none
  | .echoResponseTimeout => True
  | .dataInd _ _ => False

/-- A live path: its row is at its hash position, its timer runs, and it has been asked
for an echo so many times. -/
structure LivePath (S : GtpState D) (ip : PfmIpAddr) (r : Fin maxGtpPath) (fired : Nat) :
    Prop where
  entry : D.gtpHash.entry S.table.gtpTableHash ip = some (r, ())
  remoteIp : (S.table.gtpTable r).remoteIp = ip
  timer : S.echoTimer r ≠ .stopped
  retryCount : (S.table.gtpTable r).retryCount.toNat = fired
  fired_le : fired ≤ n3Requests

/-- The path was removed. -/
structure RemovedPath (S : GtpState D) (ip : PfmIpAddr) (r : Fin maxGtpPath) (fired : Nat) :
    Prop where
  entry : D.gtpHash.entry S.table.gtpTableHash ip = none
  timer : S.echoTimer r = .stopped
  fired_gt : n3Requests < fired

/-- What surviving steps keep. -/
structure EchoInv (ip : PfmIpAddr) (r : Fin maxGtpPath) (R : EchoRun D) : Prop where
  running : R.crashed = false
  unanswered : R.answered = false
  path : LivePath R.state ip r R.fired ∨ RemovedPath R.state ip r R.fired

theorem EchoInv.supervised {R : EchoRun D} (h : EchoInv ip r R) : Supervised ip r R := by
  refine ⟨h.running, fun e hget => ?_, fun hans => ?_, fun hget => ?_⟩
  · rw [gtpPathGet_eq] at hget
    rcases h.path with hlive | hgone
    · rw [hlive.entry, Option.map_some, Option.some.injEq] at hget
      subst hget
      exact ⟨hlive.retryCount, hlive.timer⟩
    · rw [hgone.entry] at hget
      cases hget
  · rw [h.unanswered] at hans
    cases hans
  · rw [gtpPathGet_eq] at hget
    rcases h.path with hlive | hgone
    · rw [hlive.entry] at hget
      cases hget
    · exact hgone.fired_gt

/-- One more firing in the row. -/
theorem LivePath.retryCount_succ {S : GtpState D} {fired : Nat} (h : LivePath S ip r fired) :
    ((S.table.gtpTable r).retryCount + 1).toNat = fired + 1 := by
  have hle : fired ≤ 5 := h.fired_le
  have hcount := h.retryCount
  rw [UInt16.toNat_add, UInt16.toNat_one]
  omega

/-- The last firing removes the path. -/
theorem gtpEchoRequestTimerCb_last {S : GtpState D} (h : LivePath S ip r n3Requests)
    (alloc : Option D.mbuf.Mbuf) :
    ∃ S', gtpEchoRequestTimerCb alloc S r = some S' ∧ RemovedPath S' ip r (n3Requests + 1) := by
  let S₁ := S.setRow r { S.table.gtpTable r with
    retryCount := (S.table.gtpTable r).retryCount + 1 }
  refine ⟨(gtpPathClear S₁ r).2, ?_, ?_⟩
  · have hlast : n3Requests < ((S.table.gtpTable r).retryCount + 1).toNat := by
      rw [h.retryCount_succ]
      exact Nat.lt_succ_self _
    rw [gtpEchoRequestTimerCb]
    exact if_pos hlast
  · have hrow : ((S₁.setTimer r .stopped).table.gtpTable r).remoteIp = ip := by
      change (Function.update S.table.gtpTable r _ r).remoteIp = ip
      rw [Function.update_self]
      exact h.remoteIp
    have hentry : D.gtpHash.entry (S₁.setTimer r .stopped).table.gtpTableHash ip = some (r, ()) :=
      h.entry
    obtain ⟨hcode, hdel⟩ := RteHash.del_of_entry hentry
    have hfound : ¬ ((D.gtpHash.del (S₁.setTimer r .stopped).table.gtpTableHash ip).1 = -ENOENT ∨
        (D.gtpHash.del (S₁.setTimer r .stopped).table.gtpTableHash ip).1 = -EINVAL) := by
      rw [hcode]
      simp [ENOENT, EINVAL]
    rw [gtpPathClear, hrow, if_neg hfound]
    refine ⟨?_, Function.update_self _ _ _, Nat.lt_succ_self _⟩
    change D.gtpHash.entry
      (D.gtpHash.del (S₁.setTimer r .stopped).table.gtpTableHash ip).2 ip = none
    rw [hdel, Function.update_self]

/-- A firing before that asks for an echo, which faults unless there is no packet. -/
theorem gtpEchoRequestTimerCb_retry {S : GtpState D} {fired : Nat} (h : LivePath S ip r fired)
    (hfired : fired < n3Requests) (alloc : Option D.mbuf.Mbuf) :
    ∃ S', gtpEchoRequestTimerCb alloc S r = (if alloc.isSome then none else some S') ∧
      LivePath S' ip r (fired + 1) := by
  let entry : GtpPathInfo := { S.table.gtpTable r with
    retryCount := (S.table.gtpTable r).retryCount + 1 }
  have hrow : ((S.setRow r entry).setTimer r .echoResponseTimeout).table.gtpTable r = entry :=
    Function.update_self _ _ _
  refine ⟨(S.setRow r entry).setTimer r .echoResponseTimeout, ?_, ?_⟩
  · have hmore : ¬ n3Requests < ((S.table.gtpTable r).retryCount + 1).toNat := by
      rw [h.retryCount_succ]
      omega
    rw [gtpEchoRequestTimerCb]
    dsimp only
    rw [if_neg hmore, gtpEchoRequestSend_eq]
    cases alloc with
    | none => rfl
    | some mbuf => rfl
  · refine ⟨h.entry, ?_, ?_, ?_, hfired⟩
    · rw [hrow]
      exact h.remoteIp
    · change Function.update S.echoTimer r .echoResponseTimeout r ≠ .stopped
      rw [Function.update_self]
      decide
    · rw [hrow]
      exact h.retryCount_succ

/-- An echo response faults: the data pointer of the path is NULL. -/
theorem gtpPathTimerReset_of_live {S : GtpState D} {gtpPath : GtpPathInfo}
    (h : D.gtpHash.entry S.table.gtpTableHash gtpPath.remoteIp = some (r, ())) :
    gtpPathTimerReset S gtpPath = none := by
  unfold gtpPathTimerReset
  dsimp only
  rw [RteHash.lookup_of_entry h, if_neg (by simp [ENOENT]), if_neg (by simp)]
  rfl

/-- What `pfm_data_ind` hands to `gtp_path_timer_reset` is the path of the sender. -/
theorem pfmDataInd_timerReset {g : GtpTable D} {T : TunnelTable D} {ind : DataInd D.mbuf}
    {gtpEntry : GtpPathInfo} {mbuf : D.mbuf.Mbuf}
    (h : pfmDataInd g T ind = .gtpPathTimerReset gtpEntry mbuf) :
    gtpPathGet g ind.remoteIpAddr = some gtpEntry := by
  have hout := pfmDataInd_cases g T ind
  rw [h] at hout
  cases hout with
  | echoResponse _ _ received _ => exact received.path

theorem EchoInv.echoRequestTimer {R R' : EchoRun D} (h : EchoInv ip r R)
    (alloc : Option D.mbuf.Mbuf)
    (hstep : echoStep ip r R (.echoRequestTimer alloc) = some R') :
    (Survives R (.echoRequestTimer alloc) → EchoInv ip r R') ∧
      (¬ Survives R (.echoRequestTimer alloc) → R'.crashed = true) := by
  simp only [echoStep] at hstep
  split at hstep
  · rename_i hfires
    rcases h.path with hlive | hgone
    · rcases Nat.lt_or_ge R.fired n3Requests with hmore | hlast
      · obtain ⟨S', hcb, hlive'⟩ := gtpEchoRequestTimerCb_retry hlive hmore alloc
        rw [hcb] at hstep
        cases alloc with
        | none =>
            obtain rfl := Option.some.inj hstep
            exact ⟨fun _ => ⟨h.running, rfl, Or.inl hlive'⟩,
              fun hno => absurd (Or.inr rfl) hno⟩
        | some mbuf =>
            obtain rfl := Option.some.inj hstep
            refine ⟨fun hs => ?_, fun _ => rfl⟩
            rcases hs with hge | hnone
            · omega
            · cases hnone
      · have hfired : R.fired = n3Requests := Nat.le_antisymm hlive.fired_le hlast
        rw [hfired] at hlive
        obtain ⟨S', hcb, hgone'⟩ := gtpEchoRequestTimerCb_last hlive alloc
        rw [hcb] at hstep
        obtain rfl := Option.some.inj hstep
        refine ⟨fun _ => ⟨h.running, rfl, Or.inr ?_⟩, fun hno => absurd (Or.inl hlast) hno⟩
        rw [hfired]
        exact hgone'
    · rw [hgone.timer] at hfires
      cases hfires.2
  · cases hstep

theorem EchoInv.echoResponseTimeout {R R' : EchoRun D} (h : EchoInv ip r R)
    (hstep : echoStep ip r R .echoResponseTimeout = some R') :
    (Survives R .echoResponseTimeout → EchoInv ip r R') ∧
      (¬ Survives R .echoResponseTimeout → R'.crashed = true) := by
  simp only [echoStep] at hstep
  split at hstep
  · rename_i hfires
    obtain rfl := Option.some.inj hstep
    refine ⟨fun _ => ⟨h.running, rfl, ?_⟩, fun hno => absurd trivial hno⟩
    rcases h.path with hlive | hgone
    · refine Or.inl ⟨hlive.entry, hlive.remoteIp, ?_, hlive.retryCount, hlive.fired_le⟩
      change Function.update R.state.echoTimer r .echoRequest r ≠ .stopped
      rw [Function.update_self]
      decide
    · rw [hgone.timer] at hfires
      cases hfires.2
  · cases hstep

theorem EchoInv.dataInd {R R' : EchoRun D} (h : EchoInv ip r R) (tunnels : TunnelTable D)
    (ind : DataInd D.mbuf)
    (hstep : echoStep ip r R (.dataInd tunnels ind) = some R') :
    (Survives R (.dataInd tunnels ind) → EchoInv ip r R') ∧
      (¬ Survives R (.dataInd tunnels ind) → R'.crashed = true) := by
  simp only [echoStep] at hstep
  split at hstep
  · rename_i hfrom
    split at hstep
    · rename_i gtpEntry mbuf hind
      have hget := pfmDataInd_timerReset hind
      rw [hfrom.2, gtpPathGet_eq] at hget
      rcases h.path with hlive | hgone
      · rw [hlive.entry, Option.map_some, Option.some.injEq] at hget
        have hentry : D.gtpHash.entry R.state.table.gtpTableHash gtpEntry.remoteIp =
            some (r, ()) := by
          rw [← hget, hlive.remoteIp]
          exact hlive.entry
        rw [gtpPathTimerReset_of_live hentry] at hstep
        obtain rfl := Option.some.inj hstep
        exact ⟨fun hs => absurd hs (fun hs => hs), fun _ => rfl⟩
      · rw [hgone.entry] at hget
        cases hget
    · cases hstep
  · cases hstep

/-- **One step**: it is survived exactly when the supervision goes on. -/
theorem EchoInv.step {R R' : EchoRun D} {e : EchoEvent D} (h : EchoInv ip r R)
    (hstep : echoStep ip r R e = some R') :
    (Survives R e → EchoInv ip r R') ∧ (¬ Survives R e → R'.crashed = true) := by
  cases e with
  | echoRequestTimer alloc => exact h.echoRequestTimer alloc hstep
  | echoResponseTimeout => exact h.echoResponseTimeout hstep
  | dataInd tunnels ind => exact h.dataInd tunnels ind hstep

/-- **Supervision of a path.**  In every run of a live path the supervision works in
every state exactly when every step is survived. -/
theorem supervised_iff {S : GtpState D} {fired : Nat} (hlive : LivePath S ip r fired)
    {events : List (EchoEvent D)} {R : EchoRun D}
    (hrun : exec (echoStep ip r) ⟨S, fired, false, false⟩ events = some R) :
    Always (echoStep ip r) (Supervised ip r) ⟨S, fired, false, false⟩ events ↔
      Along (echoStep ip r) Survives ⟨S, fired, false, false⟩ events := by
  have hinit : EchoInv ip r (⟨S, fired, false, false⟩ : EchoRun D) :=
    ⟨rfl, rfl, Or.inl hlive⟩
  generalize (⟨S, fired, false, false⟩ : EchoRun D) = R₀ at *
  clear hlive
  induction events generalizing R₀ with
  | nil => exact iff_of_true hinit.supervised trivial
  | cons e events ih =>
      obtain ⟨R₁, hstep, hrest⟩ := Option.bind_eq_some_iff.mp hrun
      obtain ⟨hyes, hno⟩ := hinit.step hstep
      by_cases hs : Survives R₀ e
      · have hiff := ih R₁ hrest (hyes hs)
        rw [always_cons hstep, along_cons hstep]
        exact and_congr (iff_of_true hinit.supervised hs) hiff
      · refine iff_of_false (fun halways => ?_) fun halong => hs halong.1
        have hrunning := (halways.2 R₁ hstep).head.running
        rw [hno hs] at hrunning
        cases hrunning

/-- The path to the UPF has just been added. -/
def upfPathState : GtpState listDpdk := ⟨upfPath, false, true, fun _ => .echoResponseTimeout⟩

def firstPath : Fin maxGtpPath := ⟨0, by decide⟩

theorem upfPathState_live : LivePath upfPathState upfIp firstPath 0 where
  entry := rfl
  remoteIp := rfl
  timer := by decide
  retryCount := rfl
  fired_le := Nat.zero_le _

/-- An echo response. -/
def echoResponse : listDpdk.mbuf.Mbuf :=
  ⟨{ mtod := 8192
     headroom := 128
     dataLen := 8
     tailroom := 1912
     byte := fun i => if i = 0 then 0x30 else if i = 1 then 0x02 else 0
     chained := []
     port := 0
     olFlags := 0 }, by decide⟩

theorem supervised_iff_upf :
    ∃ R, exec (echoStep upfIp firstPath) ⟨upfPathState, 0, false, false⟩
        [.echoResponseTimeout, .echoRequestTimer none] = some R ∧
      (Always (echoStep upfIp firstPath) (Supervised upfIp firstPath)
          ⟨upfPathState, 0, false, false⟩ [.echoResponseTimeout, .echoRequestTimer none] ↔
        Along (echoStep upfIp firstPath) Survives ⟨upfPathState, 0, false, false⟩
          [.echoResponseTimeout, .echoRequestTimer none]) := by
  have hsome : (exec (echoStep upfIp firstPath) ⟨upfPathState, 0, false, false⟩
      [.echoResponseTimeout, .echoRequestTimer none]).isSome = true := by decide
  obtain ⟨R, hR⟩ := Option.isSome_iff_exists.mp hsome
  exact ⟨R, hR, supervised_iff upfPathState_live hR⟩

/-- The first echo response from the UPF crashes the program. -/
theorem upf_echoResponse_crashes :
    ¬ Always (echoStep upfIp firstPath) (Supervised upfIp firstPath)
        ⟨upfPathState, 0, false, false⟩
        [.dataInd (TunnelTable.init listDpdk) ⟨upfIp, cuupIp, .udp, 2152, 2152, echoResponse⟩] := by
  intro halways
  have hcrashed : (exec (echoStep upfIp firstPath) ⟨upfPathState, 0, false, false⟩
      [.dataInd (TunnelTable.init listDpdk) ⟨upfIp, cuupIp, .udp, 2152, 2152, echoResponse⟩]).map
        EchoRun.crashed = some true := by decide
  obtain ⟨R, hrun, hR⟩ := Option.map_eq_some_iff.mp hcrashed
  obtain ⟨R₁, hstep, hend⟩ := Option.bind_eq_some_iff.mp hrun
  obtain rfl := Option.some.inj hend
  have hrunning := (halways.2 R₁ hstep).running
  rw [hR] at hrunning
  cases hrunning

end Pfm
