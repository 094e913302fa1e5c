import Pfm.NextHop

/-!
# The route table

`pfm_route_add` of `pfm_route.c`.  The LPM maps a prefix to a row of the table: a
prefix it already has keeps its row, which is overwritten, and a new one gets the
next row.
-/

namespace Pfm

open BoundedLoop LongestPrefix

/-- The arguments of `pfm_route_add`, with a depth that a prefix can have. -/
structure RouteArgs where
  netMask : PfmIpAddr
  netMaskDepth : UInt8
  gatewayAddr : PfmIpAddr
  linkId : UInt16
  depth_pos : 1 ≤ netMaskDepth
  depth_le : netMaskDepth ≤ 32

/-- The row they are stored in.  The link loses its upper byte. -/
def RouteArgs.row (args : RouteArgs) : Route :=
  ⟨args.linkId.toUInt8, args.netMask, args.netMaskDepth, args.gatewayAddr⟩

/-- The statics of `pfm_route.c`. -/
structure RouteState (D : Dpdk) where
  table : RouteTable D
  entryCount : Nat

variable {D : Dpdk}

namespace RouteState

/-- The state at program start. -/
def init (D : Dpdk) : RouteState D := ⟨RouteTable.init D, 0⟩

/-- The state with another LPM table. -/
def withLpm (S : RouteState D) (lpm : D.lpm.Table) : RouteState D :=
  { S with table := { S.table with lpmMapper := some lpm } }

/-- Write a row. -/
def setRow (S : RouteState D) (key : Fin pfmRouteLpmMaxEntries) (row : Route) :
    RouteState D :=
  { S with table := { S.table with routeTable := Function.update S.table.routeTable key row } }

/-- The row at every prefix. -/
def rules (S : RouteState D) : Rules PfmIpAddr (Fin pfmRouteLpmMaxEntries) :=
  match S.table.lpmMapper with
  | none => fun _ _ => none
  | some lpm => D.lpm.rules lpm

end RouteState

/-- "First call to route_add": the LPM table, set up when `lpmCreate` says that
`rte_lpm_create` gives one. -/
def lpmEnsureUp (lpmCreate : Bool) (S : RouteState D) : Option D.lpm.Table :=
  match S.table.lpmMapper with
  | some lpm => some lpm
  | none => if lpmCreate then some D.lpm.empty else none

/-- `none` where the row to write was never set. -/
def pfmRouteAdd (lpmCreate : Bool) (S : RouteState D) (args : RouteArgs) :
    Option (Int × RouteState D) :=
  match lpmEnsureUp lpmCreate S with
  | none => some (-1, S)
  | some lpm =>
      let S := S.withLpm lpm
      let present := D.lpm.isRulePresent lpm args.netMask args.netMaskDepth
      if present.1 ≠ 0 then do
        let key ← present.2
        some (0, S.setRow key args.row)
      else if h : S.entryCount < pfmRouteLpmMaxEntries then
        let key : Fin pfmRouteLpmMaxEntries := ⟨S.entryCount, h⟩
        let added := D.lpm.add lpm args.netMask args.netMaskDepth key
        let S := S.withLpm added.2
        if added.1 < 0 then some (added.1, S)
        else some (0, { S with entryCount := S.entryCount + 1 }.setRow key args.row)
      else some (-ENOMEM, S)

end Pfm
