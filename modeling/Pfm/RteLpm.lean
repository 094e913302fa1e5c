import Mathlib.Algebra.Group.Nat.Defs
import Pfm.LongestPrefix

/-!
# The longest-prefix-match library

The repository keeps its routes behind DPDK's `rte_lpm`, whose code is not part of
it.  `RteLpm` is what the repository relies on, for depths from 1 to 32.

* an address is looked up by longest-prefix match, which gives the next hop stored
  at the prefix;
* a rule is at the address masked to its depth, whatever address it was given;
* adding a rule either stores its next hop, or fails with a negative code and
  changes nothing.

Which rules are refused is left to the implementation.
-/

namespace Pfm

open LongestPrefix

/-- An address with all but its first `d` bits cleared. -/
def ipMasked (d : Nat) (ip : UInt32) : UInt32 := ip &&& UInt32.ofNat (2 ^ 32 - 2 ^ (32 - d))

/-- An `rte_lpm` with next hops below `hops`. -/
structure RteLpm (hops : Nat) where
  Table : Type
  /-- the next hop at every prefix -/
  rules : Table → Rules UInt32 (Fin hops)
  /-- what `rte_lpm_create` returns -/
  empty : Table
  /-- `rte_lpm_is_rule_present`: return code and `*next_hop` -/
  isRulePresent : Table → UInt32 → UInt8 → Int × Option (Fin hops)
  /-- `rte_lpm_add` -/
  add : Table → UInt32 → UInt8 → Fin hops → Int × Table
  /-- `rte_lpm_lookup`, `none` for `-ENOENT` -/
  lookup : Table → UInt32 → Option (Fin hops)
  rules_empty : ∀ d a, rules empty d a = none
  lookup_eq : ∀ t ip, lookup t ip = longest ipMasked (rules t) 32 ip
  rule_present : ∀ t ip d k, 1 ≤ d → d ≤ 32 → rules t d.toNat (ipMasked d.toNat ip) = some k →
    isRulePresent t ip d = (1, some k)
  rule_absent : ∀ t ip d, 1 ≤ d → d ≤ 32 → rules t d.toNat (ipMasked d.toNat ip) = none →
    isRulePresent t ip d = (0, none)
  add_cases : ∀ t ip d k, 1 ≤ d → d ≤ 32 →
    ((add t ip d k).1 = 0 ∧
      rules (add t ip d k).2 = (rules t).set d.toNat (ipMasked d.toNat ip) k) ∨
    ((add t ip d k).1 < 0 ∧ rules (add t ip d k).2 = rules t)

/-- Rules kept as they are, and none refused. -/
def ruleLpm (hops : Nat) : RteLpm hops where
  Table := Rules UInt32 (Fin hops)
  rules t := t
  empty := fun _ _ => none
  isRulePresent t ip d :=
    match t d.toNat (ipMasked d.toNat ip) with
    | some k => (1, some k)
    | none => (0, none)
  add t ip d k := (0, t.set d.toNat (ipMasked d.toNat ip) k)
  lookup t ip := longest ipMasked t 32 ip
  rules_empty _ _ := rfl
  lookup_eq _ _ := rfl
  rule_present t ip d k _ _ h := by rw [h]
  rule_absent t ip d _ _ h := by rw [h]
  add_cases _ _ _ _ _ _ := Or.inl ⟨rfl, rfl⟩

end Pfm
