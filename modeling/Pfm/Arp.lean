import Pfm.Kni
import Pfm.NextHop

/-!
# The ARP table

`pfm_arp.c`: replies fill the row at the hash position of their sender, and the
refresh timer of the row asks again twice before it clears the row.

The library sets a table up on the first call.  A timer is running or it is not;
what it runs is always `refreshCallback` on its own row.
-/

namespace Pfm

open BoundedLoop

/-- What the libraries answer while `arp_init` sets the table up: whether
`rte_hash_create` gives a table, and whether `rte_timer_subsystem_init` gives 0. -/
structure ArpLib where
  hashCreate : Bool
  timerInit : Bool

/-- Both set up. -/
def ArpLib.ok : ArpLib := ⟨true, true⟩

/-- The statics of `pfm_arp.c`, and which of the refresh timers are running. -/
structure ArpState (D : Dpdk) where
  table : ArpTable D
  arpUp : Bool
  refreshTimer : CArray pfmArpTableEntries Bool

variable {D : Dpdk} {M : RteMbuf}

namespace ArpState

/-- The state at program start. -/
def init (D : Dpdk) : ArpState D := ⟨ArpTable.init D, false, fun _ => false⟩

/-- The state with another hash table. -/
def withHash (S : ArpState D) (h : Option D.arpHash.Table) : ArpState D :=
  { S with table := { S.table with hashMapper := h } }

/-- Write a row. -/
def setRow (S : ArpState D) (r : Fin pfmArpTableEntries) (e : PfmArpEntry) : ArpState D :=
  { S with table := { S.table with arpTable := Function.update S.table.arpTable r e } }

/-- Start or stop the timer of a row. -/
def setTimer (S : ArpState D) (r : Fin pfmArpTableEntries) (b : Bool) : ArpState D :=
  { S with refreshTimer := Function.update S.refreshTimer r b }

/-- The row of an address: its hash position. -/
def rowOf (S : ArpState D) (ip : PfmIpAddr) : Option (Fin pfmArpTableEntries) :=
  (D.arpHash.entry S.table.hashMapper ip).map Prod.fst

end ArpState

open ArpState

def arpInit (lib : ArpLib) (S : ArpState D) : Int × ArpState D :=
  if lib.hashCreate then
    let S : ArpState D :=
      { S.withHash (some D.arpHash.empty) with refreshTimer := fun _ => false }
    if lib.timerInit then (0, { S with arpUp := true }) else (-1, S)
  else (-1, S.withHash none)

/-- A row that was cleared. -/
def PfmArpEntry.cleared : PfmArpEntry := ⟨0, 0, fun _ => 0, 0, 0⟩

def arpClearEntry (S : ArpState D) (r : Fin pfmArpTableEntries) : ArpState D :=
  let deleted := D.arpHash.del S.table.hashMapper (S.table.arpTable r).dstIpAddr
  ((S.withHash deleted.2).setRow r .cleared).setTimer r false

/-- The requests it sends, and the state it leaves. -/
def refreshCallback (kni : KniTable) (S : ArpState D) (r : Fin pfmArpTableEntries) :
    List KniTxArp × ArpState D :=
  let arpEntry := S.table.arpTable r
  if arpEntry.tryCount < 2 then
    ([⟨arpEntry.linkId.toNat, arpEntry.srcIpAddr, arpEntry.dstIpAddr, fun _ => 0xFF⟩],
      (S.setTimer r true).setRow r { arpEntry with tryCount := arpEntry.tryCount + 1 })
  else
    (pfmKniBroadcastArp kni arpEntry.dstIpAddr fun _ => 0xFF, arpClearEntry S r)

/-- The sender's MAC address in an ARP packet. -/
def arpSenderMac (pkt : M.Mbuf) : MacAddr := fun i => RteMbuf.byte pkt (22 + i.val)

/-- The sender's IP address in an ARP packet. -/
def arpSenderIp (pkt : M.Mbuf) : PfmIpAddr := RteMbuf.ntohl pkt 28

/-- The target's IP address in an ARP packet. -/
def arpTargetIp (pkt : M.Mbuf) : PfmIpAddr := RteMbuf.ntohl pkt 38

/-- The row a reply leaves.  The link is not among the fields filled in. -/
def PfmArpEntry.fill (e : PfmArpEntry) (pkt : M.Mbuf) : PfmArpEntry :=
  { e with
    dstIpAddr := arpSenderIp pkt
    srcIpAddr := arpTargetIp pkt
    macAddr := arpSenderMac pkt
    tryCount := 0 }

/-- The part of `pfm_arp_process_reply` behind the initialisation.  Only `-ENOSPC` is
checked for; another negative code indexes outside the table, which is `none`. -/
def arpReplyFill (S : ArpState D) (pkt : D.mbuf.Mbuf) : Option (Int × ArpState D) :=
  let added := D.arpHash.addKey S.table.hashMapper (arpSenderIp pkt) ()
  let S := S.withHash added.2
  if added.1 = -ENOSPC then some (-1, S)
  else do
    let r ← CArray.index? pfmArpTableEntries added.1
    some (0, (S.setRow r ((S.table.arpTable r).fill pkt)).setTimer r true)

/-- The link goes into a trace message and nowhere else. -/
def pfmArpProcessReply (lib : ArpLib) (S : ArpState D) (pkt : D.mbuf.Mbuf)
    (_linkId : UInt16) : Option (Int × ArpState D) :=
  if S.arpUp then arpReplyFill S pkt
  else
    let init := arpInit lib S
    if init.1 ≠ 0 then some (-1, init.2) else arpReplyFill init.2 pkt

end Pfm
