import Pfm.Tunnel

/-!
# The UE context table

`ue_ctx.c`: one table of rows, a hash from CU-UP UE id to row, and in every row
the lists of the UE's PDU-session and DRB tunnels.  `ueCtxCommit` commits the
tunnels of both lists, packs the lists, and only then makes the row current.

A row is passed by its index; its two lists are C arrays of pointers into the
tunnel table, NULL being `none`.  A NULL pointer read through, or an index
outside a list, ends the run.
-/

namespace Pfm

open BoundedLoop CircularScan

/-- `ue_ctx_t`. -/
structure UeCtx where
  cuupUeId : UInt32
  cucpUeId : UInt32
  pdusCount : Nat
  drbCount : Nat
  newUlFlowDetectedCount : Nat
  isRowUsed : Bool
  pdusTunnelList : CArray maxPdusPerUe (Option TunnelIdx)
  drbTunnelList : CArray maxDrbPerUe (Option TunnelIdx)

/-- A row of a table that is still all zeros. -/
def UeCtx.zero : UeCtx where
  cuupUeId := 0
  cucpUeId := 0
  pdusCount := 0
  drbCount := 0
  newUlFlowDetectedCount := 0
  isRowUsed := false
  pdusTunnelList _ := none
  drbTunnelList _ := none

/-- The statics of `ue_ctx.c`. -/
structure UeCtxTable (D : Dpdk) where
  ueCtxTable : UeIdx → UeCtx
  lastAllocatedSlot : UeIdx
  ueCtxHashtable : Option D.ueHash.Table
  lastAssignedId : Fin maxUeCount

/-- Both tables. -/
structure Cuup (D : Dpdk) where
  tun : TunnelTable D
  ue : UeCtxTable D

variable {D : Dpdk}

namespace UeCtxTable

/-- The table at program start. -/
def init (D : Dpdk) : UeCtxTable D where
  ueCtxTable _ := UeCtx.zero
  lastAllocatedSlot := 0
  ueCtxHashtable := none
  lastAssignedId := 0

/-- Write a row. -/
def setRow (U : UeCtxTable D) (n : UeIdx) (c : UeCtx) : UeCtxTable D :=
  { U with ueCtxTable := Function.update U.ueCtxTable n c }

/-- `ue_ctx_table_g[n].is_row_used = b`. -/
def setUsed (U : UeCtxTable D) (n : UeIdx) (b : Bool) : UeCtxTable D :=
  U.setRow n { U.ueCtxTable n with isRowUsed := b }

/-- Give row `n` out for the UE `id`. -/
def takeRow (U : UeCtxTable D) (n : UeIdx) (id : UInt32) : UeCtxTable D :=
  { U.setRow n { U.ueCtxTable n with cuupUeId := id, isRowUsed := true } with
    lastAllocatedSlot := n }

/-- The table right after a successful `ue_ctx_table_init`. -/
def cleared (U : UeCtxTable D) : UeCtxTable D :=
  { U with
    ueCtxHashtable := some D.ueHash.empty
    ueCtxTable := fun i => { U.ueCtxTable i with isRowUsed := false } }

/-- `ue_ctx_table_g[n].is_row_used`. -/
def used (U : UeCtxTable D) (n : UeIdx) : Bool := (U.ueCtxTable n).isRowUsed

/-- The hash entry of a UE id: its position and the row it maps to. -/
def entry (U : UeCtxTable D) (id : UInt32) : Option (Fin maxUeCount × UeIdx) :=
  D.ueHash.entry U.ueCtxHashtable id

/-- The row a committed id maps to. -/
def rowOf (U : UeCtxTable D) (id : UInt32) : Option UeIdx :=
  (U.entry id).map Prod.snd

end UeCtxTable

/-- Both tables at program start. -/
def Cuup.init (D : Dpdk) : Cuup D := ⟨TunnelTable.init D, UeCtxTable.init D⟩

open UeCtxTable

def ueCtxTableInit (env : Env D) (U : UeCtxTable D) : PfmRetval × UeCtxTable D :=
  if env.ueHashCreate then (.success, U.cleared)
  else (.failed, { U with ueCtxHashtable := none })

/-- The id `i` as the hash has it. -/
def ueId (i : Fin maxUeCount) : UInt32 := UInt32.ofNat i.val

/-- The search for a free id. -/
def ueCtxIdSearch (U : UeCtxTable D) : Option UInt32 × UeCtxTable D :=
  match scan (fun i => idProbe (D.ueHash.lookup U.ueCtxHashtable (ueId i)).1)
      U.lastAssignedId with
  | none => (none, U)
  | some i => (some (ueId i), { U with lastAssignedId := i })

/-- `none` is `PFM_FAILED`.  The test after the initialisation is the wrong way
round: the call fails when the table was set up and goes on when it was not. -/
def ueCtxIdAlloc (env : Env D) (U : UeCtxTable D) : Option UInt32 × UeCtxTable D :=
  if U.ueCtxHashtable.isSome then ueCtxIdSearch U
  else match ueCtxTableInit env U with
    | (.failed, U') => ueCtxIdSearch U'
    | (_, U') => (none, U')

def ueCtxAlloc (U : UeCtxTable D) (id : UInt32) : Option UeIdx × UeCtxTable D :=
  match scan (fun i => rowProbe (U.used i)) U.lastAllocatedSlot with
  | none => (none, U)
  | some i => (some i, U.takeRow i id)

/-- Only a lookup code of zero counts as an existing entry. -/
def ueCtxAdd (env : Env D) (U : UeCtxTable D) (id : UInt32) :
    Option UeIdx × UeCtxTable D :=
  let ready :=
    if U.ueCtxHashtable.isSome then some U
    else match ueCtxTableInit env U with
      | (.success, U') => some U'
      | _ => none
  match ready with
  | none => (none, U)
  | some U =>
      if (D.ueHash.lookup U.ueCtxHashtable id).1 = 0 then (none, U)
      else ueCtxAlloc U id

/-- Only a lookup code of zero counts as a hit. -/
def ueCtxGet (U : UeCtxTable D) (id : UInt32) : Option UeIdx :=
  if U.ueCtxHashtable.isNone then none
  else
    let ret := D.ueHash.lookup U.ueCtxHashtable id
    if ret.1 = 0 then ret.2 else none

/-- `pdus_remove` or `drb_remove` on every tunnel of a list. -/
def removeTunnels {n : Nat} (list : CArray n (Option TunnelIdx)) (count : Nat)
    (T : TunnelTable D) : Option (TunnelTable D) :=
  forRange (fun i T => do
    let nt ← list.deref? i
    some (tunnelRemove T (T.tunnelTable nt).key).2) count T

def ueCtxRemove (S : Cuup D) (id : UInt32) : Option (PfmRetval × Cuup D) :=
  if S.ue.ueCtxHashtable.isNone then some (.failed, S)
  else
    let ret := D.ueHash.lookup S.ue.ueCtxHashtable id
    if ret.1 < 0 then
      if ret.1 = -ENOENT then some (.notFound, S) else some (.failed, S)
    else match ret.2 with
      | none => some (.failed, S)
      | some entry => do
          let ctx := S.ue.ueCtxTable entry
          let T ← removeTunnels ctx.pdusTunnelList ctx.pdusCount S.tun
          let T ← removeTunnels ctx.drbTunnelList ctx.drbCount T
          some (.success, ⟨T, S.ue.setUsed entry false⟩)

/-- `for (i = 0; i < count; i++) to[i] = from[i];` -/
def copyTunnels {n : Nat} (old new : CArray n (Option TunnelIdx)) (count : Nat) :
    Option (CArray n (Option TunnelIdx)) :=
  forRange (fun i l => do
    let nt ← old.get? i
    l.set? i nt) count new

/-- The CU-CP UE id is not copied to the new row. -/
def ueCtxModify (U : UeCtxTable D) (id : UInt32) :
    Option (Option UeIdx × UeCtxTable D) :=
  if U.ueCtxHashtable.isNone then some (none, U)
  else
    let ret := D.ueHash.lookup U.ueCtxHashtable id
    if ret.1 < 0 then some (none, U)
    else match ret.2 with
      | none => some (none, U)
      | some entry =>
          match ueCtxAlloc U id with
          | (none, U) => some (none, U)
          | (some newCtx, U) => do
              let ctx := U.ueCtxTable newCtx
              let old := U.ueCtxTable entry
              -- The new row can be the entry itself, whose counts are then the
              -- loop counters just set to zero.
              let pdusCount := if newCtx = entry then 0 else old.pdusCount
              let drbCount := if newCtx = entry then 0 else old.drbCount
              let pdusList ← copyTunnels old.pdusTunnelList ctx.pdusTunnelList pdusCount
              let drbList ← copyTunnels old.drbTunnelList ctx.drbTunnelList drbCount
              some (some newCtx, U.setRow newCtx
                { ctx with
                  pdusCount := pdusCount
                  pdusTunnelList := pdusList
                  drbCount := drbCount
                  drbTunnelList := drbList })

/-- `drb_commit` or `pdus_commit` on every tunnel of a list.  A tunnel whose row
is not used afterwards leaves NULL in the list. -/
def commitTunnels {n : Nat} (count : Nat)
    (s : TunnelTable D × CArray n (Option TunnelIdx)) :
    Option (TunnelTable D × CArray n (Option TunnelIdx)) :=
  forRange (fun i s => do
    let nt ← s.2.deref? i
    let T := (tunnelCommit s.1 (some nt)).2
    if T.used nt then some (T, s.2)
    else do
      let list ← s.2.set? i none
      some (T, list)) count s

/-- A packing loop: `if (from[i] != NULL) { list[j] = from[i]; j++; }`, where
`from` may be the list itself. -/
def packTunnels {m n : Nat}
    (source : CArray n (Option TunnelIdx) → CArray m (Option TunnelIdx)) (count : Nat)
    (list : CArray n (Option TunnelIdx)) : Option (CArray n (Option TunnelIdx) × Nat) :=
  forRange (fun i s => do
    match ← (source s.1).get? i with
    | none => some s
    | some nt => do
        let list ← s.1.set? s.2 (some nt)
        some (list, s.2 + 1)) count (list, 0)

/-- The end of `ue_ctx_commit`: the row becomes the one its id maps to. -/
def ueCtxCommitEntry (U : UeCtxTable D) (newCtx : UeIdx) : PfmRetval × UeCtxTable D :=
  let id := (U.ueCtxTable newCtx).cuupUeId
  let ret := D.ueHash.lookup U.ueCtxHashtable id
  if ret.1 < 0 then
    if ret.1 = -ENOENT then
      let added := D.ueHash.add U.ueCtxHashtable id newCtx
      (if added.1 < 0 then .failed else .success, { U with ueCtxHashtable := added.2 })
    else (.failed, U)
  else match ret.2 with
    | none => (.failed, U)
    | some entry =>
        if entry = newCtx then
          if U.used entry then (.success, U)
          else
            let deleted := D.ueHash.del U.ueCtxHashtable id
            (if deleted.1 ≠ 0 then .failed else .success,
              { U with ueCtxHashtable := deleted.2 })
        else
          let U := U.setUsed entry false
          let added := D.ueHash.add U.ueCtxHashtable id newCtx
          (if added.1 ≠ 0 then .failed else .success, { U with ueCtxHashtable := added.2 })

/-- The second packing loop tests and reads the DRB list for the PDU-session
list, and leaves `pdus_count` as it is. -/
def ueCtxCommit (S : Cuup D) (newCtx : Option UeIdx) : Option (PfmRetval × Cuup D) :=
  if S.ue.ueCtxHashtable.isNone then some (.failed, S)
  else match newCtx with
    | none => some (.failed, S)
    | some n => do
        let ctx := S.ue.ueCtxTable n
        let (T, drbList) ← commitTunnels ctx.drbCount (S.tun, ctx.drbTunnelList)
        let (drbList, drbCount) ← packTunnels id ctx.drbCount drbList
        let (T, pdusList) ← commitTunnels ctx.pdusCount (T, ctx.pdusTunnelList)
        let (pdusList, _) ← packTunnels (fun _ => drbList) ctx.pdusCount pdusList
        let U := S.ue.setRow n
          { ctx with
            drbTunnelList := drbList
            drbCount := drbCount
            pdusTunnelList := pdusList }
        some ((ueCtxCommitEntry U n).1, ⟨T, (ueCtxCommitEntry U n).2⟩)

/-- `pdus_rollback` or `drb_rollback` on every tunnel of a list. -/
def rollbackTunnels {n : Nat} (list : CArray n (Option TunnelIdx)) (count : Nat)
    (T : TunnelTable D) : Option (TunnelTable D) :=
  forRange (fun i T => do
    let nt ← list.get? i
    some (tunnelRollback T nt).2) count T

/-- Both lists of a row. -/
def UeCtx.rollback (ctx : UeCtx) (T : TunnelTable D) : Option (TunnelTable D) := do
  let T ← rollbackTunnels ctx.pdusTunnelList ctx.pdusCount T
  rollbackTunnels ctx.drbTunnelList ctx.drbCount T

def ueCtxRollback (S : Cuup D) (n : UeIdx) : Option (PfmRetval × Cuup D) :=
  if S.ue.ueCtxHashtable.isNone then some (.failed, S)
  else
    let ctx := S.ue.ueCtxTable n
    let ret := D.ueHash.lookup S.ue.ueCtxHashtable ctx.cuupUeId
    if ret.1 < 0 then
      if ret.1 = -ENOENT then
        if ctx.isRowUsed then do
          let T ← ctx.rollback S.tun
          some (.success, ⟨T, S.ue.setUsed n false⟩)
        else some (.failed, S)
      else some (.failed, S)
    else match ret.2 with
      | none => some (.failed, S)
      | some entry =>
          if n = entry then
            if S.ue.used entry then some (.success, S)
            else do
              let T ← ctx.rollback S.tun
              some (.success, ⟨T, S.ue.setUsed entry true⟩)
          else if ctx.isRowUsed && S.ue.used entry then do
            let T ← (S.ue.ueCtxTable entry).rollback S.tun
            some (.success, ⟨T, S.ue.setUsed n false⟩)
          else some (.failed, S)

end Pfm
