import Pfm.GtpHeader
import Pfm.GtpPath
import Pfm.StepSystem

/-!
# Counting the users of a GTP path

Runs of `gtp_path_add` and `gtp_path_del` next to a record of how often each address
was added and deleted.  The flag of the table is never set, so the second call of
`gtp_path_add` creates the table again, which fails because there is one of its name;
and with a packet for it an echo request faults.  The count is right for the runs that
do not get there, `AddsOnce`.
-/

namespace Pfm

open BoundedLoop StepSystem

variable {D : Dpdk}

/-- The table and what has happened to it: the calls of `gtp_path_add` and the
successful calls of `gtp_path_del` for every address, the add that created its path,
whether an add has failed, and whether the program has crashed. -/
structure PathRun (D : Dpdk) where
  state : GtpState D
  added : PfmIpAddr → Nat
  deleted : PfmIpAddr → Nat
  created : PfmIpAddr → Option GtpPathArgs
  failed : Bool
  crashed : Bool

/-- Program start. -/
def PathRun.init (D : Dpdk) : PathRun D :=
  ⟨GtpState.init D, fun _ => 0, fun _ => 0, fun _ => none, false, false⟩

inductive PathEvent (D : Dpdk) where
  | add (lib : GtpLib D.mbuf) (args : GtpPathArgs)
  | del (remoteIp : PfmIpAddr)

/-- One more for an address. -/
def bump (f : PfmIpAddr → Nat) (ip : PfmIpAddr) : PfmIpAddr → Nat :=
  Function.update f ip (f ip + 1)

/-- A program that has crashed makes no further step. -/
def pathStep (R : PathRun D) : PathEvent D → Option (PathRun D)
  | .add lib args =>
      if R.crashed then none
      else match gtpPathAdd lib R.state args with
        | none => some { R with crashed := true }
        | some (ret, S) =>
            some { R with
              state := S
              added := bump R.added args.remoteIp
              created :=
                if (gtpPathGet R.state.table args.remoteIp).isSome then R.created
                else Function.update R.created args.remoteIp (some args)
              failed := R.failed || ret ≠ .success }
  | .del remoteIp =>
      if R.crashed then none
      else match gtpPathDel R.state remoteIp with
        | none => some { R with crashed := true }
        | some (ret, S) =>
            some { R with
              state := S
              deleted := if ret = .success then bump R.deleted remoteIp else R.deleted }

/-- The path is as it was created, and counts its users. -/
structure GtpPathInfo.Counts (e : GtpPathInfo) (args : GtpPathArgs) (users : Nat) : Prop where
  localIp : e.localIp = args.localIp
  localPortNo : e.localPortNo = UInt16.ofInt args.localPortNo
  remotePortNo : e.remotePortNo = UInt16.ofInt args.remotePortNo
  tunnelCount : e.tunnelCount.toNat = users

/-- Every add has succeeded, and there is a path for exactly the addresses that were
added more often than deleted, with the difference as its count. -/
structure PathsCounted (R : PathRun D) : Prop where
  running : R.crashed = false
  succeeded : R.failed = false
  present : ∀ ip, (gtpPathGet R.state.table ip).isSome = true ↔ R.deleted ip < R.added ip
  content : ∀ ip e, gtpPathGet R.state.table ip = some e →
    ∃ args, R.created ip = some args ∧ e.Counts args (R.added ip - R.deleted ip)

/-- The calls of `gtp_path_add`. -/
def adds (events : List (PathEvent D)) : List (GtpLib D.mbuf × GtpPathArgs) :=
  events.filterMap fun e =>
    match e with
    | .add lib args => some (lib, args)
    | .del _ => none

/-- There is at most one add, the library sets the table up for it, and there is no
packet for its echo request. -/
def AddsOnce (events : List (PathEvent D)) : Prop :=
  adds events = [] ∨ ∃ lib args, adds events = [(lib, args)] ∧
    lib.hashCreate = true ∧ lib.timerInit = true ∧ lib.alloc = none

/-! ### One add from the start -/

/-- After the one add: its path is there, or it was deleted. -/
structure OnePath (R : PathRun D) (args : GtpPathArgs) : Prop where
  running : R.crashed = false
  succeeded : R.failed = false
  down : R.state.gtpTableUp = false
  named : R.state.hashNamed = true
  hash : R.state.table.gtpTableHash.isSome = true
  added : R.added = bump (fun _ => 0) args.remoteIp
  created : R.created args.remoteIp = some args
  path :
    (∃ r, D.gtpHash.entry R.state.table.gtpTableHash =
        Function.update (fun _ => none) args.remoteIp (some (r, ())) ∧
      R.state.table.gtpTable r = { args.path with tunnelCount := 1 } ∧ R.deleted = fun _ => 0) ∨
    ((∀ ip, D.gtpHash.entry R.state.table.gtpTableHash ip = none) ∧
      R.deleted = bump (fun _ => 0) args.remoteIp)

theorem bump_zero_self (ip : PfmIpAddr) : bump (fun _ => 0) ip ip = 1 := by simp [bump]

theorem bump_zero_of_ne {ip ip' : PfmIpAddr} (h : ip' ≠ ip) : bump (fun _ => 0) ip ip' = 0 := by
  simp [bump, h]

theorem OnePath.counted {R : PathRun D} {args : GtpPathArgs} (h : OnePath R args) :
    PathsCounted R := by
  have hpath := h.path
  refine ⟨h.running, h.succeeded, fun ip => ?_, fun ip e hget => ?_⟩
  · rw [gtpPathGet_eq, Option.isSome_map, h.added]
    rcases hpath with ⟨r, hentry, _, hdeleted⟩ | ⟨hentry, hdeleted⟩
    · rw [hentry, hdeleted]
      by_cases hip : ip = args.remoteIp
      · subst hip
        simp [bump_zero_self]
      · simp [Function.update_of_ne hip, bump_zero_of_ne hip]
    · rw [hentry ip, hdeleted]
      simp
  · rw [gtpPathGet_eq] at hget
    rcases hpath with ⟨r, hentry, hrow, hdeleted⟩ | ⟨hentry, _⟩
    · rw [hentry] at hget
      by_cases hip : ip = args.remoteIp
      · subst hip
        rw [Function.update_self, Option.map_some, Option.some.injEq, hrow] at hget
        refine ⟨args, h.created, ?_⟩
        rw [h.added, hdeleted, bump_zero_self, ← hget]
        exact ⟨rfl, rfl, rfl, rfl⟩
      · rw [Function.update_of_ne hip] at hget
        cases hget
    · rw [hentry ip] at hget
      cases hget

/-- A lookup in the table of the one path. -/
theorem OnePath.lookup_absent {R : PathRun D} {args : GtpPathArgs} (h : OnePath R args)
    {ip : PfmIpAddr} (hnone : D.gtpHash.entry R.state.table.gtpTableHash ip = none) :
    D.gtpHash.lookup R.state.table.gtpTableHash ip = (-ENOENT, none) := by
  obtain ⟨t, ht⟩ := Option.isSome_iff_exists.mp h.hash
  rw [ht] at hnone ⊢
  exact RteHash.lookup_of_absent hnone

/-- Deleting what is not there changes nothing. -/
theorem pathStep_del_absent {R : PathRun D} {ip : PfmIpAddr} (hrunning : R.crashed = false)
    (hneg : (D.gtpHash.lookup R.state.table.gtpTableHash ip).1 < 0) :
    pathStep R (.del ip) = some R := by
  have hdel : gtpPathDel R.state ip = some (.failed, R.state) := by
    unfold gtpPathDel
    exact if_pos hneg
  rw [pathStep, if_neg (by simp [hrunning]), hdel]
  rfl

/-- The one path, when it is deleted. -/
theorem gtpPathDel_of_one {S : GtpState D} {ip : PfmIpAddr} {r : Fin maxGtpPath}
    (hhash : S.table.gtpTableHash.isSome = true)
    (hentry : D.gtpHash.entry S.table.gtpTableHash ip = some (r, ()))
    (hip : (S.table.gtpTable r).remoteIp = ip) (hcount : (S.table.gtpTable r).tunnelCount = 1) :
    ∃ S', gtpPathDel S ip = some (.success, S') ∧ S'.gtpTableUp = S.gtpTableUp ∧
      S'.hashNamed = S.hashNamed ∧ S'.table.gtpTableHash.isSome = true ∧
      D.gtpHash.entry S'.table.gtpTableHash =
        Function.update (D.gtpHash.entry S.table.gtpTableHash) ip none := by
  obtain ⟨t, ht⟩ := Option.isSome_iff_exists.mp hhash
  obtain ⟨hcode, hgone⟩ := RteHash.del_of_entry hentry
  have hindex : CArray.index? maxGtpPath (r.val : Int) = some r := CArray.index?_of_val rfl
  have hrow : ∀ e : GtpPathInfo, ((S.setRow r e).setTimer r .stopped).table.gtpTable r = e :=
    fun e => Function.update_self _ _ _
  have hkept : ∀ e : GtpPathInfo,
      ((S.setRow r e).setTimer r .stopped).table.gtpTableHash = S.table.gtpTableHash :=
    fun _ => rfl
  unfold gtpPathDel
  dsimp only
  rw [RteHash.lookup_of_entry hentry]
  dsimp only
  rw [if_neg (by simp), hindex, Option.bind_eq_bind, Option.bind_some, hcount, if_pos (by decide)]
  unfold gtpPathClear
  dsimp only
  rw [hrow, hkept, hip, if_neg (by rw [hcode]; simp [ENOENT, EINVAL])]
  refine ⟨_, rfl, rfl, rfl, ?_, hgone⟩
  change (D.gtpHash.del S.table.gtpTableHash ip).2.isSome = true
  rw [ht]
  rfl

/-- A deletion keeps the one path, or takes it away. -/
theorem OnePath.del {R : PathRun D} {args : GtpPathArgs} (h : OnePath R args) (ip : PfmIpAddr) :
    ∃ R', pathStep R (.del ip) = some R' ∧ OnePath R' args := by
  have habsent (hnone : D.gtpHash.entry R.state.table.gtpTableHash ip = none) :
      pathStep R (.del ip) = some R :=
    pathStep_del_absent h.running (by rw [h.lookup_absent hnone]; decide)
  rcases h.path with ⟨r, hentry, hrow, hdeleted⟩ | ⟨hentry, _⟩
  · by_cases hip : ip = args.remoteIp
    · have hown : D.gtpHash.entry R.state.table.gtpTableHash ip = some (r, ()) := by
        rw [hentry, hip, Function.update_self]
      obtain ⟨S', hdel, hup, hnamed, hhash, hgone⟩ := gtpPathDel_of_one h.hash hown
        (by rw [hrow, hip]; rfl) (by rw [hrow])
      refine ⟨{ R with state := S', deleted := bump R.deleted ip }, ?_, ?_⟩
      · simp only [pathStep, h.running, hdel]
        rfl
      · refine ⟨h.running, h.succeeded, hup.trans h.down, hnamed.trans h.named, hhash, h.added,
          h.created, Or.inr ⟨fun ip' => ?_, ?_⟩⟩
        · rw [hgone, hentry, hip, Function.update_idem]
          by_cases hip' : ip' = args.remoteIp
          · rw [hip', Function.update_self]
          · rw [Function.update_of_ne hip']
        · rw [hdeleted, hip]
    · exact ⟨R, habsent (by rw [hentry, Function.update_of_ne hip]), h⟩
  · exact ⟨R, habsent (hentry ip), h⟩

/-- A second add fails: there is a hash table of the name. -/
theorem OnePath.add {R : PathRun D} {args : GtpPathArgs} (h : OnePath R args)
    (lib : GtpLib D.mbuf) (args' : GtpPathArgs) :
    ∃ R', pathStep R (.add lib args') = some R' ∧ ¬ PathsCounted R' := by
  have hadd : gtpPathAdd lib R.state args' = some (.failed, R.state.withHash none) := by
    simp [gtpPathAdd, gtpTableInit, h.down, h.named]
  refine ⟨_, by simp only [pathStep, h.running, hadd]; rfl, fun hcounted => ?_⟩
  have hfailed := hcounted.succeeded
  simp at hfailed

theorem OnePath.always_iff {R : PathRun D} {args : GtpPathArgs} (h : OnePath R args)
    (events : List (PathEvent D)) :
    Always pathStep PathsCounted R events ↔ adds events = [] := by
  induction events generalizing R with
  | nil => exact iff_of_true h.counted rfl
  | cons e events ih =>
      cases e with
      | del ip =>
          obtain ⟨R', hstep, hone⟩ := h.del ip
          have hadds : adds (.del ip :: events) = adds events := rfl
          rw [hadds, ← ih hone, always_cons hstep]
          exact and_iff_right h.counted
      | add lib args' =>
          obtain ⟨R', hstep, hnot⟩ := h.add lib args'
          refine iff_of_false (fun halways => hnot (halways.2 R' hstep).head) ?_
          simp [adds]

/-- The first add. -/
theorem gtpPathAdd_init (hacc : D.gtpHash.Accepts) {lib : GtpLib D.mbuf}
    (hcreate : lib.hashCreate = true) (htimer : lib.timerInit = true) (args : GtpPathArgs) :
    ∃ S, gtpPathAdd lib (GtpState.init D) args =
        (if lib.alloc.isSome then none else some (.success, S)) ∧
      S.gtpTableUp = false ∧ S.hashNamed = true ∧ S.table.gtpTableHash.isSome = true ∧
      ∃ r, D.gtpHash.entry S.table.gtpTableHash =
          Function.update (fun _ => none) args.remoteIp (some (r, ())) ∧
        S.table.gtpTable r = { args.path with tunnelCount := 1 } := by
  let S₀ : GtpState D :=
    { (GtpState.init D).withHash (some D.gtpHash.empty) with
      hashNamed := true, echoTimer := fun _ => .stopped }
  have hinit : gtpTableInit lib (GtpState.init D) = (.success, S₀) := by
    rw [gtpTableInit, if_pos ⟨hcreate, rfl⟩]
    dsimp only
    rw [if_pos htimer]
  have hempty : D.gtpHash.entry (some D.gtpHash.empty) = fun _ => none := by
    funext ip
    exact RteHash.entry_empty (H := D.gtpHash) ip
  have habs : D.gtpHash.entry (some D.gtpHash.empty) args.remoteIp = none := by rw [hempty]
  -- the first key of an empty table is not refused
  have hcard : (D.gtpHash.keys D.gtpHash.empty).card < maxGtpPath := by
    have hnone : D.gtpHash.keys D.gtpHash.empty = ∅ := by
      apply Finset.eq_empty_of_forall_notMem
      intro ip hip
      have hslot := (D.gtpHash.mem_keys _ _).mp hip
      rw [D.gtpHash.slot_empty] at hslot
      cases hslot
    rw [hnone]
    decide
  have hcode := hacc D.gtpHash.empty args.remoteIp () hcard
  rcases RteHash.addKey_of_absent () habs with ⟨r, hpos, hentry⟩ | ⟨_, hneg, _⟩
  · let S₁ := S₀.withHash (D.gtpHash.addKey (some D.gtpHash.empty) args.remoteIp ()).2
    let S₂ := (S₁.setRow r args.path).setRow r { args.path with tunnelCount := 1 }
    have hrow : (S₁.setRow r args.path).table.gtpTable r = args.path := Function.update_self _ _ _
    have hadd : gtpPathAdd lib (GtpState.init D) args =
        if lib.alloc.isSome then none
        else some (.success, S₂.setTimer r .echoResponseTimeout) := by
      have hindex := CArray.index?_of_val hpos
      have hlooked : D.gtpHash.lookup S₀.table.gtpTableHash args.remoteIp = (-ENOENT, none) :=
        RteHash.lookup_of_absent habs
      rw [gtpPathAdd, if_neg (by simp [GtpState.init])]
      dsimp only
      rw [hinit, if_neg (by simp), gtpPathAddUp]
      dsimp only
      rw [hlooked, if_pos rfl]
      change (if (D.gtpHash.addKey (some D.gtpHash.empty) args.remoteIp ()).1 < 0 then _ else
        (CArray.index? maxGtpPath
          (D.gtpHash.addKey (some D.gtpHash.empty) args.remoteIp ()).1).bind
            fun r => gtpPathStart lib (S₁.setRow r args.path) r) = _
      rw [if_neg (by rw [hpos]; omega), hindex, Option.bind_some, gtpPathStart,
        hrow, gtpEchoRequestSend_eq]
      cases lib.alloc with
      | none => rfl
      | some mbuf => rfl
    refine ⟨_, hadd, rfl, rfl, RteHash.addKey_isSome _ _ _, r, ?_, Function.update_self _ _ _⟩
    rw [← hempty]
    exact hentry
  · omega

/-- The first add, in a run. -/
theorem pathStep_add_init (hacc : D.gtpHash.Accepts) (lib : GtpLib D.mbuf) (args : GtpPathArgs) :
    ∃ R, pathStep (PathRun.init D) (.add lib args) = some R ∧
      (OnePath R args ∧ lib.hashCreate = true ∧ lib.timerInit = true ∧ lib.alloc = none ∨
        ¬ PathsCounted R ∧
          ¬ (lib.hashCreate = true ∧ lib.timerInit = true ∧ lib.alloc = none)) := by
  by_cases hlib : lib.hashCreate = true ∧ lib.timerInit = true
  · obtain ⟨S, hadd, hdown, hnamed, hhash, r, hentry, hrow⟩ :=
      gtpPathAdd_init hacc hlib.1 hlib.2 args
    cases halloc : lib.alloc with
    | none =>
        rw [halloc, if_neg (by simp)] at hadd
        refine ⟨_, by simp only [pathStep, PathRun.init, hadd]; rfl,
          Or.inl ⟨?_, hlib.1, hlib.2, rfl⟩⟩
        exact ⟨rfl, rfl, hdown, hnamed, hhash, rfl,
          by simp [GtpState.init, GtpTable.init, gtpPathGet_eq],
          Or.inl ⟨r, hentry, hrow, rfl⟩⟩
    | some mbuf =>
        rw [halloc, if_pos Option.isSome_some] at hadd
        refine ⟨_, by simp only [pathStep, PathRun.init, hadd]; rfl, Or.inr ⟨fun h => ?_, by simp⟩⟩
        have hrunning := h.running
        cases hrunning
  · have hinit : (gtpTableInit lib (GtpState.init D)).1 = .failed := by
      unfold gtpTableInit
      split
      · rename_i hcreate
        have hno : ¬ lib.timerInit = true := fun htimer => hlib ⟨hcreate.1, htimer⟩
        dsimp only
        rw [if_neg hno]
      · rfl
    have hadd : gtpPathAdd lib (GtpState.init D) args =
        some (.failed, (gtpTableInit lib (GtpState.init D)).2) := by
      rw [gtpPathAdd, if_neg (by simp [GtpState.init])]
      exact if_pos hinit
    refine ⟨_, by simp only [pathStep, PathRun.init, hadd]; rfl,
      Or.inr ⟨fun h => ?_, fun hok => hlib ⟨hok.1, hok.2.1⟩⟩⟩
    have hsucceeded := h.succeeded
    simp at hsucceeded

theorem init_pathsCounted : PathsCounted (PathRun.init D) where
  running := rfl
  succeeded := rfl
  present ip := by
    rw [gtpPathGet_eq]
    simp [PathRun.init, GtpState.init, GtpTable.init]
  content ip e h := by
    rw [gtpPathGet_eq] at h
    cases h

/-- **Counting paths.**  The count is right after every call of a run exactly when the run
adds at most once, and that add finds the library ready and no packet for its echo
request. -/
theorem paths_counted_iff (hacc : D.gtpHash.Accepts) (events : List (PathEvent D)) :
    Always pathStep PathsCounted (PathRun.init D) events ↔ AddsOnce events := by
  induction events with
  | nil => exact iff_of_true init_pathsCounted (Or.inl rfl)
  | cons e events ih =>
      cases e with
      | del ip =>
          have hstep : pathStep (PathRun.init D) (.del ip) = some (PathRun.init D) :=
            pathStep_del_absent rfl (by simp [PathRun.init, GtpState.init, GtpTable.init, EINVAL])
          have hadds : AddsOnce (.del ip :: events) ↔ AddsOnce events := Iff.rfl
          rw [hadds, ← ih, always_cons hstep]
          exact and_iff_right init_pathsCounted
      | add lib args =>
          have hcons : adds (.add lib args :: events) = (lib, args) :: adds events := rfl
          obtain ⟨R, hstep, ⟨hone, hlib⟩ | ⟨hnot, hlib⟩⟩ := pathStep_add_init hacc lib args
          · have hrest := hone.always_iff events
            constructor
            · intro halways
              refine Or.inr ⟨lib, args, ?_, hlib⟩
              rw [hcons, hrest.mp (halways.2 R hstep)]
            · intro honce
              have hnil : adds events = [] := by
                rcases honce with hnil | ⟨lib', args', hadds, _⟩
                · cases hnil
                · rw [hcons] at hadds
                  exact (List.cons.inj hadds).2
              exact (always_cons hstep).mpr ⟨init_pathsCounted, hrest.mpr hnil⟩
          · refine iff_of_false (fun halways => hnot (halways.2 R hstep).head) fun honce => ?_
            rcases honce with hnil | ⟨lib', args', hadds, hlib'⟩
            · cases hnil
            · rw [hcons] at hadds
              obtain ⟨rfl, rfl⟩ := Prod.mk.inj (List.cons.inj hadds).1
              exact hlib hlib'

/-- The library is ready, and there is no packet. -/
def readyLib : GtpLib listDpdk.mbuf := ⟨true, true, none⟩

/-- The path from the CU-UP to an address. -/
def pathTo (remoteIp : PfmIpAddr) : GtpPathArgs := ⟨cuupIp, 2152, remoteIp, 2152⟩

theorem paths_counted_iff_once :
    Always pathStep PathsCounted (PathRun.init listDpdk)
        [.add readyLib (pathTo upfIp), .del upfIp, .del upfIp] ↔
      AddsOnce [.add readyLib (pathTo upfIp), .del upfIp, .del upfIp] :=
  paths_counted_iff (listHash_accepts _ _ _) _

/-- The second of two paths is not added. -/
theorem paths_two_not_counted :
    ¬ Always pathStep PathsCounted (PathRun.init listDpdk)
        [.add readyLib (pathTo upfIp), .add readyLib (pathTo 0x0A000003)] := by
  intro halways
  have hfailed : ((exec pathStep (PathRun.init listDpdk)
      [.add readyLib (pathTo upfIp), .add readyLib (pathTo 0x0A000003)]).map
        PathRun.failed) = some true := by decide
  obtain ⟨R, hrun, hR⟩ := Option.map_eq_some_iff.mp hfailed
  obtain ⟨R₁, hfirst, hrest⟩ := Option.bind_eq_some_iff.mp hrun
  obtain ⟨R₂, hsecond, hend⟩ := Option.bind_eq_some_iff.mp hrest
  obtain rfl := Option.some.inj hend
  have hsucceeded := ((halways.2 R₁ hfirst).2 R₂ hsecond).succeeded
  rw [hR] at hsucceeded
  cases hsucceeded

end Pfm
