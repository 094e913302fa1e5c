import Pfm.Comm

/-!
# Next-hop lookup

The ARP table (`pfm_arp.c`) and the route table (`pfm_route.c`) as the other
modules query them.  An address resolves when the ARP table has an entry for
it, or else for the gateway of its longest-prefix route.

Both query functions set their table up on the first call.  A table just set
up is empty, and a table that could not be set up answers NULL, so neither
changes an answer.
-/

namespace Pfm

open BoundedLoop

/-- `pfm_arp_entry_t` without its timer. -/
structure PfmArpEntry where
  dstIpAddr : PfmIpAddr
  srcIpAddr : PfmIpAddr
  macAddr : CArray macAddrSize UInt8
  linkId : UInt16
  tryCount : UInt8

/-- `route_t`. -/
structure Route where
  linkId : UInt8
  netMask : PfmIpAddr
  netMaskDepth : UInt8
  gatewayAddr : PfmIpAddr

/-- The statics of `pfm_arp.c`. -/
structure ArpTable (D : Dpdk) where
  arpTable : CArray pfmArpTableEntries PfmArpEntry
  hashMapper : Option D.arpHash.Table

/-- The statics of `pfm_route.c` that a query reads. -/
structure RouteTable (D : Dpdk) where
  routeTable : CArray pfmRouteLpmMaxEntries Route
  lpmMapper : Option D.lpm.Table

variable {D : Dpdk}

/-- The entry lives in the row at the hash position of the address. -/
def pfmArpQuery (t : ArpTable D) (ipAddr : PfmIpAddr) : Option PfmArpEntry :=
  let key := (D.arpHash.lookup t.hashMapper ipAddr).1
  if key < 0 then none else t.arpTable.get? key.toNat

def pfmRouteQuery (t : RouteTable D) (ipAddr : PfmIpAddr) : Option Route :=
  match t.lpmMapper with
  | none => none
  | some lpm =>
      match D.lpm.lookup lpm ipAddr with
      | some key => some (t.routeTable key)
      | none => none

/-- The ARP entry of an address itself, or else of its route's gateway. -/
def nextHop (arp : ArpTable D) (route : RouteTable D) (ipAddr : PfmIpAddr) :
    Option PfmArpEntry :=
  match pfmArpQuery arp ipAddr with
  | some arpEntry => some arpEntry
  | none =>
      match pfmRouteQuery route ipAddr with
      | some routeEntry => pfmArpQuery arp routeEntry.gatewayAddr
      | none => none

/-- The ARP table at program start. -/
def ArpTable.init (D : Dpdk) : ArpTable D :=
  ⟨fun _ => ⟨0, 0, fun _ => 0, 0, 0⟩, none⟩

/-- The route table at program start. -/
def RouteTable.init (D : Dpdk) : RouteTable D :=
  ⟨fun _ => ⟨0, 0, 0, 0⟩, none⟩

def upfIp : PfmIpAddr := 0x0A000002

def cuupIp : PfmIpAddr := 0x0A000001

/-- An ARP table with the entry of the UPF. -/
def upfArp : ArpTable listDpdk where
  arpTable _ := ⟨upfIp, cuupIp, fun _ => 0, 0, 0⟩
  hashMapper := some (listDpdk.arpHash.addKeyData listDpdk.arpHash.empty upfIp ()).2

end Pfm
