import Pfm.BearerContext
import Pfm.UeCtxSpec

/-!
# Lookups and the committed tables

The call sites of `rte_hash_lookup_data` and `rte_hash_del_key` do not read the
return code alike: some take every non-negative code for a hit, some only zero.
The code of a hit is the position of the key, so the two readings agree on the
key at position zero and on no other.

* `LookupsAgree` is what the callers of the lookups rely on;
* `AllAtZero` says that no committed key has another position than zero;
* `lookupsAgree_iff_allAtZero` : the two are the same.
-/

namespace Pfm

open StepSystem

variable {D : Dpdk} {T : TunnelTable D} {U : UeCtxTable D} {env : Env D}

/-- The lookups answer by the committed tables, `ue_ctx_add` refuses the
committed ids and, while a row can be found, no others, and `tunnel_commit` says
so whenever it changed the hash. -/
structure LookupsAgree (S : Cuup D) : Prop where
  tunnelGet_eq : ∀ key, tunnelGet S.tun key = S.tun.rowOf key
  ueCtxGet_eq : ∀ id, ueCtxGet S.ue id = S.ue.rowOf id
  ueCtxAdd_committed : ∀ env id, (S.ue.rowOf id).isSome → (ueCtxAdd env S.ue id).1 = none
  ueCtxAdd_other : ∀ env id, S.ue.rowOf id = none → ¬ NoUeRow S.ue →
    (S.ue.ueCtxHashtable.isSome = true ∨ env.ueHashCreate = true) →
    (ueCtxAdd env S.ue id).1 ≠ none
  commit_changed : ∀ nt, (tunnelCommit S.tun (some nt)).2.entry ≠ S.tun.entry →
    (tunnelCommit S.tun (some nt)).1 = .success

/-- Every committed key and every committed id has position zero. -/
structure AllAtZero (S : Cuup D) : Prop where
  tunnel : ∀ key p r, S.tun.entry key = some (p, r) → p.val = 0
  ue : ∀ id p n, S.ue.entry id = some (p, n) → p.val = 0

/-- `tunnel_get` finds the key at position zero. -/
theorem tunnelGet_eq_some_iff {key : TunnelKey} {r : TunnelIdx} :
    tunnelGet T key = some r ↔ ∃ p, T.entry key = some (p, r) ∧ p.val = 0 := by
  unfold tunnelGet
  split
  · rename_i hdown
    have hdown' : T.tunnelHashtable = none := by simpa using hdown
    simp [TunnelTable.entry_of_down hdown']
  · exact RteHash.lookup_zero_data_iff

/-- `ue_ctx_get` finds the id at position zero. -/
theorem ueCtxGet_eq_some_iff {id : UInt32} {n : UeIdx} :
    ueCtxGet U id = some n ↔ ∃ p, U.entry id = some (p, n) ∧ p.val = 0 := by
  unfold ueCtxGet
  split
  · rename_i hdown
    have hdown' : U.ueCtxHashtable = none := by simpa using hdown
    simp [UeCtxTable.entry_of_down hdown']
  · exact RteHash.lookup_zero_data_iff

theorem tunnelGet_eq_rowOf_iff {key : TunnelKey} :
    tunnelGet T key = T.rowOf key ↔ ∀ p r, T.entry key = some (p, r) → p.val = 0 := by
  constructor
  · intro h p r hk
    have hrow : T.rowOf key = some r := TunnelTable.rowOf_eq_some_iff.mpr ⟨p, hk⟩
    obtain ⟨q, hq, h0⟩ := tunnelGet_eq_some_iff.mp (h.trans hrow)
    obtain rfl : p = q := by simpa [hk] using hq
    exact h0
  · intro h
    cases hk : T.entry key with
    | none =>
        rw [TunnelTable.rowOf_eq_none_iff.mpr hk]
        cases hg : tunnelGet T key with
        | none => rfl
        | some r =>
            obtain ⟨p, hp, _⟩ := tunnelGet_eq_some_iff.mp hg
            simp [hk] at hp
    | some x =>
        obtain ⟨p, r⟩ := x
        rw [TunnelTable.rowOf_eq_some_iff.mpr ⟨p, hk⟩]
        exact tunnelGet_eq_some_iff.mpr ⟨p, hk, h p r hk⟩

theorem ueCtxGet_eq_rowOf_iff {id : UInt32} :
    ueCtxGet U id = U.rowOf id ↔ ∀ p n, U.entry id = some (p, n) → p.val = 0 := by
  constructor
  · intro h p n hk
    have hrow : U.rowOf id = some n := UeCtxTable.rowOf_eq_some_iff.mpr ⟨p, hk⟩
    obtain ⟨q, hq, h0⟩ := ueCtxGet_eq_some_iff.mp (h.trans hrow)
    obtain rfl : p = q := by simpa [hk] using hq
    exact h0
  · intro h
    cases hk : U.entry id with
    | none =>
        rw [UeCtxTable.rowOf_eq_none_iff.mpr hk]
        cases hg : ueCtxGet U id with
        | none => rfl
        | some n =>
            obtain ⟨p, hp, _⟩ := ueCtxGet_eq_some_iff.mp hg
            simp [hk] at hp
    | some x =>
        obtain ⟨p, n⟩ := x
        rw [UeCtxTable.rowOf_eq_some_iff.mpr ⟨p, hk⟩]
        exact ueCtxGet_eq_some_iff.mpr ⟨p, hk, h p n hk⟩

/-- `ue_ctx_add` refuses the id at position zero. -/
theorem ueCtxAdd_of_zero {id : UInt32} {p : Fin maxUeCount} {n : UeIdx}
    (hk : U.entry id = some (p, n)) (hp : p.val = 0) : (ueCtxAdd env U id).1 = none := by
  have hup := UeCtxTable.up_of_rowOf (UeCtxTable.rowOf_eq_some_iff.mpr ⟨p, hk⟩)
  simp [ueCtxAdd, hup, RteHash.lookup_of_entry hk, hp]

/-- A table that `ue_ctx_add` has set up has every row free. -/
theorem not_noUeRow_cleared (U : UeCtxTable D) : ¬ NoUeRow U.cleared := by
  intro h
  have hne : CircularScan.ahead U.lastAllocatedSlot 1 ≠ U.lastAllocatedSlot :=
    CircularScan.ahead_ne_self _ Nat.one_pos (by decide)
  exact absurd (h _ hne) (by simp [UeCtxTable.used, UeCtxTable.cleared])

/-- `ue_ctx_add` gives an absent id a row when the table is or comes up and a
row can be found. -/
theorem ueCtxAdd_of_absent_ne_none {id : UInt32} (habs : U.rowOf id = none)
    (hrow : ¬ NoUeRow U)
    (hup : U.ueCtxHashtable.isSome = true ∨ env.ueHashCreate = true) :
    (ueCtxAdd env U id).1 ≠ none := by
  cases hh : U.ueCtxHashtable with
  | some h =>
      have hup' : U.ueCtxHashtable.isSome = true := by simp [hh]
      rw [ueCtxAdd_of_absent hup' habs, Ne, ueCtxAlloc_none_iff]
      exact hrow
  | none =>
      have hcreate : env.ueHashCreate = true := by simpa [hh] using hup
      have hfresh : ueCtxAdd env U id = ueCtxAdd env U.cleared id := by
        simp [ueCtxAdd, ueCtxTableInit, hh, hcreate, UeCtxTable.cleared]
      rw [hfresh, ueCtxAdd_of_absent rfl UeCtxTable.cleared_rowOf, Ne, ueCtxAlloc_none_iff]
      exact not_noUeRow_cleared U

/-- A commit that changed the hash fails only by deleting a key whose position is
not zero. -/
theorem tunnelCommit_changed {nt : TunnelIdx}
    (hzero : ∀ key p r, T.entry key = some (p, r) → p.val = 0)
    (hne : (tunnelCommit T (some nt)).2.entry ≠ T.entry) :
    (tunnelCommit T (some nt)).1 = .success := by
  have hc := tunnelCommit_cases T nt
  generalize hres : tunnelCommit T (some nt) = res at hc hne ⊢
  obtain ⟨ret, T'⟩ := res
  simp only at hc hne ⊢
  cases hc with
  | down => exact absurd rfl hne
  | refused _ _ hash => exact absurd hash hne
  | inserted | kept | replaced => rfl
  | deleted _ p hmap => simp [hzero _ p nt hmap]

/-- **What the lookups depend on.**  They agree with the committed tables exactly
when every committed key and id has position zero. -/
theorem lookupsAgree_iff {S : Cuup D} : LookupsAgree S ↔ AllAtZero S := by
  constructor
  · intro h
    exact ⟨fun key => tunnelGet_eq_rowOf_iff.mp (h.tunnelGet_eq key),
      fun id => ueCtxGet_eq_rowOf_iff.mp (h.ueCtxGet_eq id)⟩
  · intro h
    refine ⟨fun key => tunnelGet_eq_rowOf_iff.mpr (h.tunnel key),
      fun id => ueCtxGet_eq_rowOf_iff.mpr (h.ue id), ?_, ?_, ?_⟩
    · intro env id hid
      obtain ⟨n, hn⟩ := Option.isSome_iff_exists.mp hid
      obtain ⟨p, hp⟩ := UeCtxTable.rowOf_eq_some_iff.mp hn
      exact ueCtxAdd_of_zero hp (h.ue id p n hp)
    · intro env id habs hrow hup
      exact ueCtxAdd_of_absent_ne_none habs hrow hup
    · intro nt hne
      exact tunnelCommit_changed h.tunnel hne

/-- Two committed tunnel keys cannot both be at position zero. -/
theorem AllAtZero.one_key {S : Cuup D} (h : AllAtZero S) {k k' : TunnelKey}
    {r r' : TunnelIdx} (hk : S.tun.rowOf k = some r) (hk' : S.tun.rowOf k' = some r') :
    k = k' := by
  obtain ⟨p, hp⟩ := TunnelTable.rowOf_eq_some_iff.mp hk
  obtain ⟨p', hp'⟩ := TunnelTable.rowOf_eq_some_iff.mp hk'
  have hpp : p = p' := Fin.ext ((h.tunnel k p r hp).trans (h.tunnel k' p' r' hp').symm)
  subst hpp
  exact RteHash.entry_inj hp hp'

/-- **Every state and every run.**  In whatever state, the lookups agree exactly
when every key is at position zero; and they agree in every state of a run of
bearer-context requests exactly when every key is there in every state of it. -/
theorem lookupsAgree_iff_allAtZero (D : Dpdk) :
    (∀ S : Cuup D, LookupsAgree S ↔ AllAtZero S) ∧
    ∀ calls, Always e1apStep LookupsAgree (Cuup.init D) calls ↔
      Always e1apStep AllAtZero (Cuup.init D) calls :=
  ⟨fun _ => lookupsAgree_iff, fun _ =>
    ⟨Always.imp fun _ => lookupsAgree_iff.mp, Always.imp fun _ => lookupsAgree_iff.mpr⟩⟩

/-! ### One UE with one PDU session and one DRB

The first setup request only sets the UE table up; the second is served.  Its two
tunnels are committed at two positions. -/

def upfEnv : Env listDpdk := ⟨upfArp, RouteTable.init listDpdk, true, true⟩

def oneDrb : DrbSetupReqInfo := ⟨1, upfIp, 70⟩

def onePdus : PdusSetupReqInfo := ⟨5, 1, upfIp, 80, fun _ => oneDrb⟩

def setupRsp : E1apBearerCtxSetupRsp where
  cucpUeId := 0
  cuupUeId := 0
  cause := .none
  pdusSetupSuccCount := 0
  pdusSetupFailCount := 0
  pdusSuccList _ := ⟨0, 0, 0, 0, 0, fun _ => ⟨0, 0, 0⟩, fun _ => ⟨0, .none⟩⟩
  pdusFailList _ := ⟨0, .none⟩

/-- A setup request for one PDU session with one DRB. -/
def oneSetupReq : E1apBearerCtxSetupReq := ⟨9, 1, fun _ => onePdus⟩

def oneSetup : E1apCall listDpdk := .setup upfEnv oneSetupReq setupRsp

/-- `tunnel_get` answers NULL for the committed tunnel of the PDU session. -/
theorem second_key_not_found :
    ¬ ∀ calls S, exec e1apStep (Cuup.init listDpdk) calls = some S → LookupsAgree S := by
  intro h
  have hrun : ∃ S, exec e1apStep (Cuup.init listDpdk) [oneSetup, oneSetup] = some S ∧
      tunnelGet S.tun ⟨cuupIp, 1⟩ ≠ S.tun.rowOf ⟨cuupIp, 1⟩ := by
    have hdec : ((exec e1apStep (Cuup.init listDpdk) [oneSetup, oneSetup]).map fun S =>
        decide (tunnelGet S.tun ⟨cuupIp, 1⟩ ≠ S.tun.rowOf ⟨cuupIp, 1⟩)) = some true := by
      decide
    obtain ⟨S, hS, hne⟩ := Option.map_eq_some_iff.mp hdec
    exact ⟨S, hS, of_decide_eq_true hne⟩
  obtain ⟨S, hS, hne⟩ := hrun
  exact hne ((h _ S hS).tunnelGet_eq _)

end Pfm
