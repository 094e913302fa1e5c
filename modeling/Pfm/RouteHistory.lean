import Pfm.Route
import Pfm.StepSystem

/-!
# The history of the route table

Routes added one after the other, some of them without success, next to a record of
the last successful add of every prefix.

* `RouteInv` : every prefix in the LPM has a row of its own, which holds what the
  record says;
* `route_history` : a query answers with the longest recorded prefix of an address.
-/

namespace Pfm

open BoundedLoop LongestPrefix StepSystem

variable {D : Dpdk} {S S' : RouteState D}

/-- A query reads the row at the longest prefix. -/
theorem pfmRouteQuery_eq (S : RouteState D) (ip : PfmIpAddr) :
    pfmRouteQuery S.table ip = (longest ipMasked S.rules 32 ip).map S.table.routeTable := by
  unfold pfmRouteQuery RouteState.rules
  cases S.table.lpmMapper with
  | none =>
      have hnone : longest ipMasked (fun _ _ => none : Rules PfmIpAddr
          (Fin pfmRouteLpmMaxEntries)) 32 ip = none :=
        longest_eq_none_iff.mpr fun _ _ _ => rfl
      simp only [hnone, Option.map_none]
  | some lpm =>
      simp only [D.lpm.lookup_eq]
      cases longest ipMasked (D.lpm.rules lpm) 32 ip <;> rfl

/-- The prefix of a route. -/
def RouteArgs.depth (args : RouteArgs) : Nat := args.netMaskDepth.toNat

/-- The address of its prefix. -/
def RouteArgs.addr (args : RouteArgs) : PfmIpAddr := ipMasked args.depth args.netMask

/-- A table is there or can be made; and the prefix is known, or there is a row for it and
`rte_lpm_add` takes it. -/
def CanAdd (S : RouteState D) (lpmCreate : Bool) (args : RouteArgs) (known : Prop) : Prop :=
  ∃ lpm, lpmEnsureUp lpmCreate S = some lpm ∧
    (known ∨ ∃ hroom : S.entryCount < pfmRouteLpmMaxEntries,
      0 ≤ (D.lpm.add lpm args.netMask args.netMaskDepth ⟨S.entryCount, hroom⟩).1)

/-- `pfm_route_add` by outcome: nothing done, the row of a known prefix overwritten,
or a new prefix and row. -/
inductive RouteAddOutcome (S : RouteState D) (lpmCreate : Bool) (args : RouteArgs) :
    Int → RouteState D → Prop
  | failed (ret : Int) (S' : RouteState D) (code : ret < 0) (rules : S'.rules = S.rules)
      (table : S'.table.routeTable = S.table.routeTable) (count : S'.entryCount = S.entryCount)
      (cannot : ¬CanAdd S lpmCreate args (S.rules args.depth args.addr ≠ none)) :
      RouteAddOutcome S lpmCreate args ret S'
  | updated (S' : RouteState D) (key : Fin pfmRouteLpmMaxEntries)
      (present : S.rules args.depth args.addr = some key) (rules : S'.rules = S.rules)
      (table : S'.table.routeTable = Function.update S.table.routeTable key args.row)
      (count : S'.entryCount = S.entryCount)
      (can : CanAdd S lpmCreate args (S.rules args.depth args.addr ≠ none)) :
      RouteAddOutcome S lpmCreate args 0 S'
  | appended (S' : RouteState D) (key : Fin pfmRouteLpmMaxEntries)
      (next : key.val = S.entryCount)
      (rules : S'.rules = S.rules.set args.depth args.addr key)
      (table : S'.table.routeTable = Function.update S.table.routeTable key args.row)
      (count : S'.entryCount = S.entryCount + 1)
      (can : CanAdd S lpmCreate args (S.rules args.depth args.addr ≠ none)) :
      RouteAddOutcome S lpmCreate args 0 S'

theorem lpmEnsureUp_rules {lpmCreate : Bool} {lpm : D.lpm.Table}
    (h : lpmEnsureUp lpmCreate S = some lpm) : D.lpm.rules lpm = S.rules := by
  unfold lpmEnsureUp at h
  unfold RouteState.rules
  cases hm : S.table.lpmMapper with
  | some lpm' =>
      simp only [hm] at h
      obtain rfl := Option.some.inj h
      rfl
  | none =>
      simp only [hm] at h
      split at h
      · obtain rfl := Option.some.inj h
        funext d a
        exact D.lpm.rules_empty d a
      · cases h

theorem pfmRouteAdd_cases (lpmCreate : Bool) (S : RouteState D) (args : RouteArgs) :
    ∃ ret S', pfmRouteAdd lpmCreate S args = some (ret, S') ∧
      RouteAddOutcome S lpmCreate args ret S' := by
  unfold pfmRouteAdd
  cases hup : lpmEnsureUp lpmCreate S with
  | none =>
      refine ⟨-1, S, rfl, .failed _ _ (by decide) rfl rfl rfl fun hcan => ?_⟩
      obtain ⟨lpm, hlpm, -⟩ := hcan
      cases hup.symm.trans hlpm
  | some lpm =>
      have hrules := lpmEnsureUp_rules hup
      dsimp only
      cases hrule : S.rules args.depth args.addr with
      | some key =>
          have hpres := D.lpm.rule_present lpm args.netMask args.netMaskDepth key
            args.depth_pos args.depth_le (by rw [hrules]; exact hrule)
          have hknown : S.rules args.depth args.addr ≠ none :=
            Option.ne_none_iff_exists'.mpr ⟨key, hrule⟩
          rw [hpres]
          exact ⟨0, _, rfl, .updated _ key hrule hrules rfl rfl ⟨lpm, hup, Or.inl hknown⟩⟩
      | none =>
          have habs := D.lpm.rule_absent lpm args.netMask args.netMaskDepth
            args.depth_pos args.depth_le (by rw [hrules]; exact hrule)
          -- a new prefix needs a row, and `rte_lpm_add`
          have hnew (hcan : CanAdd S lpmCreate args (S.rules args.depth args.addr ≠ none)) :
              ∃ hroom : S.entryCount < pfmRouteLpmMaxEntries,
                0 ≤ (D.lpm.add lpm args.netMask args.netMaskDepth ⟨S.entryCount, hroom⟩).1 := by
            obtain ⟨lpm', hlpm, hknown | hroom⟩ := hcan
            · exact absurd hrule hknown
            · obtain rfl := Option.some.inj (hup.symm.trans hlpm)
              exact hroom
          rw [habs, if_neg (by simp)]
          split
          · rename_i hroom
            rcases D.lpm.add_cases lpm args.netMask args.netMaskDepth ⟨S.entryCount, hroom⟩
                args.depth_pos args.depth_le with ⟨hcode, hadd⟩ | ⟨hcode, hadd⟩
            · have htakes : 0 ≤ (D.lpm.add lpm args.netMask args.netMaskDepth
                  ⟨S.entryCount, hroom⟩).1 := Int.le_of_eq hcode.symm
              refine ⟨0, _, if_neg (Int.not_lt.mpr htakes), .appended _ ⟨S.entryCount, hroom⟩ rfl
                ?_ rfl rfl ⟨lpm, hup, Or.inr ⟨hroom, htakes⟩⟩⟩
              rw [← hrules]
              exact hadd
            · refine ⟨_, _, if_pos hcode, .failed _ _ hcode (hadd.trans hrules) rfl rfl
                fun hcan => ?_⟩
              obtain ⟨_, htakes⟩ := hnew hcan
              exact absurd hcode (Int.not_lt.mpr htakes)
          · rename_i hfull
            exact ⟨_, _, rfl, .failed _ _ (by decide) hrules rfl rfl
              fun hcan => hfull (hnew hcan).1⟩

/-! ### Runs -/

/-- The table, and the last successful add of every prefix. -/
structure RouteRun (D : Dpdk) where
  state : RouteState D
  last : Rules PfmIpAddr RouteArgs

/-- Program start. -/
def RouteRun.init (D : Dpdk) : RouteRun D := ⟨RouteState.init D, fun _ _ => none⟩

/-- A call of `pfm_route_add`. -/
structure RouteEvent where
  lpmCreate : Bool
  args : RouteArgs

def routeStep (R : RouteRun D) (e : RouteEvent) : Option (RouteRun D) := do
  let (ret, S) ← pfmRouteAdd e.lpmCreate R.state e.args
  some ⟨S, if ret = 0 then R.last.set e.args.depth e.args.addr e.args else R.last⟩

/-- Every prefix has a row of its own, among those given out, with its last add. -/
structure RouteInv (R : RouteRun D) : Prop where
  rows : ∀ d a, (R.last d a).map RouteArgs.row =
    (R.state.rules d a).map R.state.table.routeTable
  below : ∀ d a key, R.state.rules d a = some key → key.val < R.state.entryCount
  own : ∀ d a d' a' key, R.state.rules d a = some key → R.state.rules d' a' = some key →
    d' = d ∧ a' = a

theorem RouteInv.init : RouteInv (RouteRun.init D) where
  rows _ _ := rfl
  below _ _ _ h := by cases h
  own _ _ _ _ _ h := by cases h

/-- A prefix that has a row keeps it. -/
theorem RouteInv.updated {S S' : RouteState D} {last : Rules PfmIpAddr RouteArgs}
    {args : RouteArgs} {key : Fin pfmRouteLpmMaxEntries} (h : RouteInv ⟨S, last⟩)
    (present : S.rules args.depth args.addr = some key) (rules : S'.rules = S.rules)
    (table : S'.table.routeTable = Function.update S.table.routeTable key args.row)
    (count : S'.entryCount = S.entryCount) :
    RouteInv ⟨S', last.set args.depth args.addr args⟩ := by
  refine ⟨fun d a => ?_, ?_, ?_⟩
  · simp only [rules, table]
    by_cases hp : d = args.depth ∧ a = args.addr
    · obtain ⟨rfl, rfl⟩ := hp
      rw [Rules.set_self, present]
      simp
    · rw [Rules.set_of_ne hp, h.rows]
      cases hrule : S.rules d a with
      | none => rfl
      | some key' =>
          have hne : key' ≠ key := by
            intro heq
            subst heq
            exact hp (h.own _ _ _ _ _ present hrule)
          rw [Option.map_some, Option.map_some, Function.update_of_ne hne]
  · rw [rules, count]
    exact h.below
  · rw [rules]
    exact h.own

/-- A new prefix is given a row that no prefix had. -/
theorem RouteInv.appended {S S' : RouteState D} {last : Rules PfmIpAddr RouteArgs}
    {args : RouteArgs} {key : Fin pfmRouteLpmMaxEntries} (h : RouteInv ⟨S, last⟩)
    (next : key.val = S.entryCount) (rules : S'.rules = S.rules.set args.depth args.addr key)
    (table : S'.table.routeTable = Function.update S.table.routeTable key args.row)
    (count : S'.entryCount = S.entryCount + 1) :
    RouteInv ⟨S', last.set args.depth args.addr args⟩ := by
  have hfresh : ∀ d a key', S.rules d a = some key' → key' ≠ key := by
    intro d a key' hrule heq
    have := h.below d a key' hrule
    simp only [heq] at this
    omega
  refine ⟨fun d a => ?_, fun d a key' hrule => ?_, fun d a d' a' key' hrule hrule' => ?_⟩
  · simp only [rules, table]
    by_cases hp : d = args.depth ∧ a = args.addr
    · obtain ⟨rfl, rfl⟩ := hp
      rw [Rules.set_self, Rules.set_self]
      simp
    · rw [Rules.set_of_ne hp, Rules.set_of_ne hp, h.rows]
      cases hrule : S.rules d a with
      | none => rfl
      | some key' =>
          rw [Option.map_some, Option.map_some,
            Function.update_of_ne (hfresh d a key' hrule)]
  · simp only [rules, count] at hrule ⊢
    by_cases hp : d = args.depth ∧ a = args.addr
    · obtain ⟨rfl, rfl⟩ := hp
      rw [Rules.set_self] at hrule
      obtain rfl := Option.some.inj hrule
      omega
    · rw [Rules.set_of_ne hp] at hrule
      have hbelow : key'.val < S.entryCount := h.below d a key' hrule
      omega
  · simp only [rules] at hrule hrule'
    by_cases hp : d = args.depth ∧ a = args.addr
    · obtain ⟨rfl, rfl⟩ := hp
      rw [Rules.set_self] at hrule
      obtain rfl := Option.some.inj hrule
      by_contra hp'
      rw [Rules.set_of_ne hp'] at hrule'
      exact hfresh _ _ _ hrule' rfl
    · rw [Rules.set_of_ne hp] at hrule
      by_cases hp' : d' = args.depth ∧ a' = args.addr
      · obtain ⟨rfl, rfl⟩ := hp'
        rw [Rules.set_self] at hrule'
        obtain rfl := Option.some.inj hrule'
        exact absurd rfl (hfresh _ _ _ hrule)
      · rw [Rules.set_of_ne hp'] at hrule'
        exact h.own _ _ _ _ _ hrule hrule'

theorem RouteInv.step {R R' : RouteRun D} {e : RouteEvent} (h : RouteInv R)
    (hstep : routeStep R e = some R') : RouteInv R' := by
  obtain ⟨ret, S', hrun, hout⟩ := pfmRouteAdd_cases e.lpmCreate R.state e.args
  have hR' : R' = ⟨S', if ret = 0 then R.last.set e.args.depth e.args.addr e.args
      else R.last⟩ := by
    simp only [routeStep, hrun] at hstep
    exact (Option.some.inj hstep).symm
  rw [hR']
  cases hout with
  | failed _ _ code rules table count _ =>
      rw [if_neg (by omega)]
      refine ⟨?_, ?_, ?_⟩
      · rw [rules, table]
        exact h.rows
      · rw [rules, count]
        exact h.below
      · rw [rules]
        exact h.own
  | updated _ key present rules table count _ =>
      rw [if_pos rfl]
      exact h.updated present rules table count
  | appended _ key next rules table count _ =>
      rw [if_pos rfl]
      exact h.appended next rules table count

/-! ### What a query answers -/

/-- A query gives the row of the longest recorded prefix that the address matches;
a call succeeds when it can, and one that fails changes no query. -/
structure RouteAnswers (R : RouteRun D) : Prop where
  found : ∀ ip row, pfmRouteQuery R.state.table ip = some row ↔
    ∃ d args, IsLongest ipMasked R.last 32 ip d ∧ R.last d (ipMasked d ip) = some args ∧
      row = args.row
  absent : ∀ ip, pfmRouteQuery R.state.table ip = none ↔
    ∀ d, 0 < d → d ≤ 32 → R.last d (ipMasked d ip) = none
  total : ∀ lpmCreate args, ∃ ret S', pfmRouteAdd lpmCreate R.state args = some (ret, S')
  success : ∀ lpmCreate args,
    (∃ S', pfmRouteAdd lpmCreate R.state args = some (0, S')) ↔
      CanAdd R.state lpmCreate args (R.last args.depth args.addr ≠ none)
  failed : ∀ lpmCreate args ret S', pfmRouteAdd lpmCreate R.state args = some (ret, S') →
    ret ≠ 0 → ∀ ip, pfmRouteQuery S'.table ip = pfmRouteQuery R.state.table ip

/-- The answer in terms of the record. -/
theorem RouteInv.query {R : RouteRun D} (h : RouteInv R) (ip : PfmIpAddr) :
    pfmRouteQuery R.state.table ip = (longest ipMasked R.last 32 ip).map RouteArgs.row :=
  calc pfmRouteQuery R.state.table ip
      = (longest ipMasked R.state.rules 32 ip).map R.state.table.routeTable :=
        pfmRouteQuery_eq R.state ip
    _ = longest ipMasked (fun d a => (R.last d a).map RouteArgs.row) 32 ip :=
        (longest_map h.rows 32 ip).symm
    _ = (longest ipMasked R.last 32 ip).map RouteArgs.row :=
        longest_map (fun _ _ => rfl) 32 ip

/-- A prefix with a row has a record, and one with a record has a row. -/
theorem RouteInv.last_eq_none_iff {R : RouteRun D} (h : RouteInv R) (d : Nat) (a : PfmIpAddr) :
    R.last d a = none ↔ R.state.rules d a = none := by
  rw [← Option.map_eq_none_iff (f := RouteArgs.row), h.rows, Option.map_eq_none_iff]

/-- When a route is added. -/
theorem RouteInv.success_iff {R : RouteRun D} (h : RouteInv R) (lpmCreate : Bool)
    (args : RouteArgs) : (∃ S', pfmRouteAdd lpmCreate R.state args = some (0, S')) ↔
      CanAdd R.state lpmCreate args (R.last args.depth args.addr ≠ none) := by
  obtain ⟨ret, S', hrun, hout⟩ := pfmRouteAdd_cases lpmCreate R.state args
  rw [hrun, ne_eq, h.last_eq_none_iff]
  cases hout with
  | failed _ _ code _ _ _ cannot =>
      refine iff_of_false (fun hex => ?_) cannot
      obtain ⟨S'', heq⟩ := hex
      obtain ⟨rfl, -⟩ := Prod.mk.inj (Option.some.inj heq)
      exact Int.lt_irrefl 0 code
  | updated _ _ _ _ _ _ can => exact iff_of_true ⟨S', rfl⟩ can
  | appended _ _ _ _ _ _ can => exact iff_of_true ⟨S', rfl⟩ can

theorem RouteInv.answers {R : RouteRun D} (h : RouteInv R) : RouteAnswers R := by
  refine ⟨fun ip row => ?_, fun ip => ?_, fun lpmCreate args => ?_, h.success_iff, ?_⟩
  · rw [h.query, Option.map_eq_some_iff]
    simp only [longest_eq_some_iff]
    constructor
    · intro hex
      obtain ⟨args, ⟨d, hd, hlast⟩, rfl⟩ := hex
      exact ⟨d, args, hd, hlast, rfl⟩
    · intro hex
      obtain ⟨d, args, hd, hlast, rfl⟩ := hex
      exact ⟨args, ⟨d, hd, hlast⟩, rfl⟩
  · rw [h.query, Option.map_eq_none_iff, longest_eq_none_iff]
  · obtain ⟨ret, S', hrun, _⟩ := pfmRouteAdd_cases lpmCreate R.state args
    exact ⟨ret, S', hrun⟩
  · intro lpmCreate args ret S' hrun hret ip
    obtain ⟨ret', S'', hrun', hout⟩ := pfmRouteAdd_cases lpmCreate R.state args
    obtain ⟨rfl, rfl⟩ := Prod.mk.inj (Option.some.inj (hrun'.symm.trans hrun))
    cases hout with
    | failed _ _ _ rules table _ _ => rw [pfmRouteQuery_eq, pfmRouteQuery_eq, rules, table]
    | updated => exact absurd rfl hret
    | appended => exact absurd rfl hret

/-- **The history of the routes.**  After any calls of `pfm_route_add`, whichever of
them failed, an address is routed by the last successful add of its longest prefix. -/
theorem route_history {events : List RouteEvent} {R : RouteRun D}
    (hrun : exec routeStep (RouteRun.init D) events = some R) : RouteAnswers R :=
  (exec_invariant (fun _ _ _ hinv hstep => hinv.step hstep) RouteInv.init hrun).answers

/-- A route, one below it, and a new gateway for the second. -/
def routeEvents : List RouteEvent :=
  [⟨true, ⟨0x0A000000, 8, 0x0A000001, 0, by decide, by decide⟩⟩,
   ⟨true, ⟨0x0A010203, 16, 0x0A000002, 1, by decide, by decide⟩⟩,
   ⟨true, ⟨0x0A010000, 16, 0x0A000003, 1, by decide, by decide⟩⟩]

theorem route_history_routeEvents :
    ∃ R, exec routeStep (RouteRun.init listDpdk) routeEvents = some R ∧ RouteAnswers R := by
  have hsome : (exec routeStep (RouteRun.init listDpdk) routeEvents).isSome = true := by decide
  obtain ⟨R, hR⟩ := Option.isSome_iff_exists.mp hsome
  exact ⟨R, hR, route_history hR⟩

end Pfm
