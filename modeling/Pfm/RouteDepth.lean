import Pfm.RouteHistory

/-!
# Routes of any depth

`pfm_route_add` takes the depth as an 8-bit number and hands it to the LPM.  For
a depth no prefix has, `rte_lpm_is_rule_present` fails, which the code takes for
a prefix it already has: it goes on to write a row whose index nobody set.  With a
depth from 1 to 32 the call installs the route or changes nothing.
-/

namespace Pfm

open BoundedLoop LongestPrefix

/-- The arguments of `pfm_route_add`. -/
structure RouteReq where
  netMask : PfmIpAddr
  netMaskDepth : UInt8
  gatewayAddr : PfmIpAddr
  linkId : UInt16

namespace RouteReq

/-- The row they are stored in.  The link loses its upper byte. -/
def row (req : RouteReq) : Route :=
  ⟨req.linkId.toUInt8, req.netMask, req.netMaskDepth, req.gatewayAddr⟩

def depth (req : RouteReq) : Nat := req.netMaskDepth.toNat

def addr (req : RouteReq) : PfmIpAddr := ipMasked req.depth req.netMask

end RouteReq

/-- The arguments, without what is known of the depth. -/
def RouteArgs.req (args : RouteArgs) : RouteReq :=
  ⟨args.netMask, args.netMaskDepth, args.gatewayAddr, args.linkId⟩

variable {D : Dpdk}

/-- `pfm_route_add` for any depth, `none` where the row to write was never set. -/
def pfmRouteAddReq (lpmCreate : Bool) (S : RouteState D) (req : RouteReq) :
    Option (Int × RouteState D) :=
  match lpmEnsureUp lpmCreate S with
  | none => some (-1, S)
  | some lpm =>
      let S := S.withLpm lpm
      let present := D.lpm.isRulePresent lpm req.netMask req.netMaskDepth
      -- a failure of the test is not 0 either
      if present.1 ≠ 0 then do
        let key ← present.2
        some (0, S.setRow key req.row)
      else if h : S.entryCount < pfmRouteLpmMaxEntries then
        let key : Fin pfmRouteLpmMaxEntries := ⟨S.entryCount, h⟩
        let added := D.lpm.add lpm req.netMask req.netMaskDepth key
        let S := S.withLpm added.2
        if added.1 < 0 then some (added.1, S)
        else some (0, { S with entryCount := S.entryCount + 1 }.setRow key req.row)
      else some (-ENOMEM, S)

theorem pfmRouteAddReq_req (lpmCreate : Bool) (S : RouteState D) (args : RouteArgs) :
    pfmRouteAddReq lpmCreate S args.req = pfmRouteAdd lpmCreate S args :=
  rfl

/-- `rte_lpm_is_rule_present` refuses a depth that no prefix has, and then leaves
`*next_hop` as it was. -/
def RefusesBadDepth (D : Dpdk) : Prop :=
  ∀ t ip d, ¬(1 ≤ d ∧ d ≤ 32) → D.lpm.isRulePresent t ip d = (-EINVAL, none)

/-- What a call leaves behind when it installs its route: the prefix has a row, the
one it had or the next free one, and the row holds the route. -/
structure RouteInstalled (S : RouteState D) (req : RouteReq) (S' : RouteState D)
    (key : Fin pfmRouteLpmMaxEntries) : Prop where
  key_eq : S.rules req.depth req.addr = some key ∧ S'.entryCount = S.entryCount ∨
    key.val = S.entryCount ∧ S'.entryCount = S.entryCount + 1
  rules : S'.rules = S.rules.set req.depth req.addr key
  table : S'.table.routeTable = Function.update S.table.routeTable key req.row

/-- A call installs its route and returns 0, or returns a negative value and leaves
the routes as they were. -/
def RouteAddAtomic (lpmCreate : Bool) (S : RouteState D) (req : RouteReq) : Prop :=
  ∃ ret S', pfmRouteAddReq lpmCreate S req = some (ret, S') ∧
    (ret = 0 ∧ (∃ key, RouteInstalled S req S' key) ∨
      ret < 0 ∧ S'.rules = S.rules ∧ S'.table.routeTable = S.table.routeTable ∧
        S'.entryCount = S.entryCount)

/-- With a depth that a prefix can have, whatever the state. -/
theorem routeAddAtomic_of_args (lpmCreate : Bool) (S : RouteState D) (args : RouteArgs) :
    RouteAddAtomic lpmCreate S args.req := by
  obtain ⟨ret, S', hrun, hout⟩ := pfmRouteAdd_cases lpmCreate S args
  refine ⟨ret, S', hrun, ?_⟩
  cases hout with
  | failed _ _ code rules table count => exact Or.inr ⟨code, rules, table, count⟩
  | updated _ key present rules table count =>
      have hset : S'.rules = S.rules.set args.depth args.addr key := by
        rw [Rules.set_of_eq present, rules]
      exact Or.inl ⟨rfl, key, Or.inl ⟨present, count⟩, hset, table⟩
  | appended _ key next rules table count =>
      exact Or.inl ⟨rfl, key, Or.inr ⟨next, count⟩, rules, table⟩

/-- With another depth there is no row to write. -/
theorem pfmRouteAddReq_of_bad_depth (hrefuses : RefusesBadDepth D) {lpmCreate : Bool}
    {S : RouteState D} {req : RouteReq}
    (hdepth : ¬(1 ≤ req.netMaskDepth ∧ req.netMaskDepth ≤ 32))
    {lpm : D.lpm.Table} (hup : lpmEnsureUp lpmCreate S = some lpm) :
    pfmRouteAddReq lpmCreate S req = none := by
  have hpresent := hrefuses lpm req.netMask req.netMaskDepth hdepth
  unfold pfmRouteAddReq
  rw [hup]
  dsimp only
  rw [hpresent, if_pos (by simp [EINVAL])]
  rfl

/-- A call is safe and atomic exactly when its depth is one that a prefix can have,
or when there is no LPM and none can be created. -/
theorem routeAddAtomic_iff (hrefuses : RefusesBadDepth D) (lpmCreate : Bool) (S : RouteState D)
    (req : RouteReq) :
    RouteAddAtomic lpmCreate S req ↔
      (1 ≤ req.netMaskDepth ∧ req.netMaskDepth ≤ 32) ∨
        S.table.lpmMapper = none ∧ lpmCreate = false := by
  have hdown : lpmEnsureUp lpmCreate S = none ↔ S.table.lpmMapper = none ∧ lpmCreate = false := by
    unfold lpmEnsureUp
    cases S.table.lpmMapper with
    | some lpm => simp
    | none => cases lpmCreate <;> simp
  constructor
  · intro h
    obtain ⟨ret, S', hrun, -⟩ := h
    by_cases hdepth : 1 ≤ req.netMaskDepth ∧ req.netMaskDepth ≤ 32
    · exact Or.inl hdepth
    cases hup : lpmEnsureUp lpmCreate S with
    | none => exact Or.inr (hdown.mp hup)
    | some lpm =>
        rw [pfmRouteAddReq_of_bad_depth hrefuses hdepth hup] at hrun
        cases hrun
  · intro h
    rcases h with hdepth | hno
    · exact routeAddAtomic_of_args lpmCreate S
        ⟨req.netMask, req.netMaskDepth, req.gatewayAddr, req.linkId, hdepth.1, hdepth.2⟩
    · refine ⟨-1, S, ?_, Or.inr ⟨by decide, rfl, rfl, rfl⟩⟩
      rw [pfmRouteAddReq, hdown.mpr hno]

/-! ### An LPM that refuses -/

/-- `ruleLpm`, with the failure of the test for a depth that no prefix has. -/
def refusingLpm (hops : Nat) : RteLpm hops :=
  { ruleLpm hops with
    isRulePresent := fun t ip d =>
      if 1 ≤ d ∧ d ≤ 32 then (ruleLpm hops).isRulePresent t ip d else (-EINVAL, none)
    rule_present := fun t ip d k hpos hle h => by
      rw [if_pos ⟨hpos, hle⟩]
      exact (ruleLpm hops).rule_present t ip d k hpos hle h
    rule_absent := fun t ip d hpos hle h => by
      rw [if_pos ⟨hpos, hle⟩]
      exact (ruleLpm hops).rule_absent t ip d hpos hle h }

/-- `listDpdk` with that LPM. -/
def refusingDpdk : Dpdk := { listDpdk with lpm := refusingLpm pfmRouteLpmMaxEntries }

theorem refusingDpdk_refuses : RefusesBadDepth refusingDpdk := fun _ _ _ h => if_neg h

/-- A default route. -/
def defaultRoute : RouteReq := ⟨0, 0, 0x0A000001, 0⟩

theorem routeAddAtomic_iff_defaultRoute :
    RouteAddAtomic true (RouteState.init refusingDpdk) defaultRoute ↔
      (1 ≤ defaultRoute.netMaskDepth ∧ defaultRoute.netMaskDepth ≤ 32) ∨
        (RouteState.init refusingDpdk).table.lpmMapper = none ∧ true = false :=
  routeAddAtomic_iff refusingDpdk_refuses true (RouteState.init refusingDpdk) defaultRoute

/-- The first call asks for a default route. -/
theorem defaultRoute_not_atomic :
    ¬ ∀ D : Dpdk, RefusesBadDepth D → ∀ lpmCreate (S : RouteState D) (req : RouteReq),
      RouteAddAtomic lpmCreate S req := by
  intro h
  obtain ⟨ret, S', hrun, -⟩ :=
    h refusingDpdk refusingDpdk_refuses true (RouteState.init refusingDpdk) defaultRoute
  have hnone : pfmRouteAddReq true (RouteState.init refusingDpdk) defaultRoute = none := rfl
  rw [hnone] at hrun
  cases hrun

end Pfm
