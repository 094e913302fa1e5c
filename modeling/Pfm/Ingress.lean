import Pfm.Arp
import Pfm.Classifier

/-!
# The ingress loop

`ingress_classify` of `pfm_classifier.c`: a burst from one link is spread over the
KNIs, the rx ring and the free pool.  What happens to the packet buffers is written
to a log, so that a buffer that is in none of the entries is one that was lost.

The arrays of collected packets have room for `RX_BURST_SIZE`; writing past them, or
using the NULL that a failed `rte_pktmbuf_clone` returns, is `none`.
-/

namespace Pfm

open BoundedLoop

abbrev rxBurstSize : Nat := 32
abbrev lastLinkId : Nat := maxLinkCount

/-- Which buffer of a packet it is: the received one, the clone for
`pfm_arp_process_reply`, or the clone for an entry of `kni_map`. -/
inductive BufUse where
  | rx
  | arp
  | copy (i : Nat)
  deriving DecidableEq

/-- A packet buffer, and the index of its packet in the burst. -/
structure IngressBuf (M : RteMbuf) where
  mbuf : M.Mbuf
  idx : Nat
  use : BufUse

/-- What is done with the buffers.  `sent` of the packets of a burst are taken. -/
inductive IngressAct (M : RteMbuf) (Kni : Type) where
  | clone (buf : IngressBuf M)
  | kniTxBurst (kni : Kni) (pkts : List (IngressBuf M)) (sent : Nat)
  | ringEnqueue (pkts : List (IngressBuf M)) (sent : Nat)
  | free (buf : IngressBuf M)

/-- What the libraries answer during one burst: which clones are made, how many
packets are taken by the burst call behind so many log entries, and what `arp_init`
meets. -/
structure IngressEnv where
  clone : Nat → BufUse → Bool
  taken : Nat → Nat
  arpLib : Nat → ArpLib

/-- The locals of `ingress_classify`, the ARP table, and the log. -/
structure IngressState (D : Dpdk) (Kni : Type) where
  kniPkts : List (IngressBuf D.mbuf)
  ringPkts : List (IngressBuf D.mbuf)
  kniPtr : Option Kni
  lastKniPtr : Option Kni
  arp : ArpState D
  log : List (IngressAct D.mbuf Kni)

variable {D : Dpdk} {M : RteMbuf} {Kni : Type}

/-- The locals before the first packet.  `kni_ptr` is not read before it is set. -/
def IngressState.init (Kni : Type) (arp : ArpState D) : IngressState D Kni :=
  ⟨[], [], none, none, arp, []⟩

/-- The received buffers. -/
def rxBufs (pkts : List M.Mbuf) : List (IngressBuf M) :=
  pkts.zipIdx.map fun p => ⟨p.1, p.2, .rx⟩

/-- A KNI that is NULL is not written to, and nothing is freed. -/
def kniWrite (env : IngressEnv) (kni : Option Kni) (pktBurst : List (IngressBuf M))
    (log : List (IngressAct M Kni)) : List (IngressAct M Kni) :=
  match kni with
  | none => log
  | some kni =>
      let pktsSend := min (env.taken log.length) pktBurst.length
      log ++ .kniTxBurst kni pktBurst pktsSend :: (pktBurst.drop pktsSend).map .free

def ringWrite (env : IngressEnv) (pktBurst : List (IngressBuf M))
    (log : List (IngressAct M Kni)) : List (IngressAct M Kni) :=
  let pktsSend := min (env.taken log.length) pktBurst.length
  log ++ .ringEnqueue pktBurst pktsSend :: (pktBurst.drop pktsSend).map .free

/-- `rte_pktmbuf_clone`, `none` for NULL. -/
def cloneBuf (env : IngressEnv) (buf : IngressBuf M) (use : BufUse)
    (log : List (IngressAct M Kni)) : Option (IngressBuf M × List (IngressAct M Kni)) :=
  let clone : IngressBuf M := { buf with use := use }
  if env.clone buf.idx use then some (clone, log ++ [.clone clone]) else none

/-- `(0x08 == packet[12]) && (0x06 == packet[13]) && (0x02 == packet[21])`. -/
def isArpReply (mbuf : M.Mbuf) : Bool :=
  RteMbuf.byte mbuf 12 = 0x08 ∧ RteMbuf.byte mbuf 13 = 0x06 ∧ RteMbuf.byte mbuf 21 = 0x02

/-- The clone is given to `pfm_arp_process_reply` and to nobody else. -/
def ingressArp (env : IngressEnv) (linkId : UInt16) (buf : IngressBuf D.mbuf)
    (s : IngressState D Kni) : Option (IngressState D Kni) :=
  if isArpReply buf.mbuf then do
    let (arpPkt, log) ← cloneBuf env buf .arp s.log
    let (_, arp) ← pfmArpProcessReply (env.arpLib buf.idx) s.arp arpPkt.mbuf linkId
    some { s with arp := arp, log := log }
  else some s

/-- One turn of the loop over the KNIs of the link. -/
def ingressCopy (env : IngressEnv) (ic : IngressClassifier Kni) (buf : IngressBuf M) (i : Nat)
    (log : List (IngressAct M Kni)) : Option (List (IngressAct M Kni)) := do
  let entry ← ic.kniMap[i]?
  let (clone, log) ← cloneBuf env buf (.copy i) log
  some (kniWrite env (some entry.kniPtr) [clone] log)

/-- A clone for every KNI but the last, and the packet itself for that. -/
def ingressBroadcast (env : IngressEnv) (ic : IngressClassifier Kni) (buf : IngressBuf M)
    (log : List (IngressAct M Kni)) : Option (List (IngressAct M Kni)) := do
  let kniCount := ic.kniMap.length
  let log ← forRange (ingressCopy env ic buf) (kniCount - 1) log
  if 0 < kniCount then do
    let entry ← ic.kniMap[kniCount - 1]?
    some (kniWrite env (some entry.kniPtr) [buf] log)
  else some log

section loop

variable [DecidableEq Kni]

/-- The body of the loop.  `last_kni_ptr` is only set where it is already set. -/
def ingressPkt (env : IngressEnv) (ic : IngressClassifier Kni) (linkId : UInt16)
    (s : IngressState D Kni) (buf : IngressBuf D.mbuf) : Option (IngressState D Kni) :=
  let classified := packetClassify ic buf.mbuf
  let kniPtr := classified.2
  let s := { s with kniPtr := kniPtr }
  match classified.1 with
  | .gtp =>
      if s.ringPkts.length < rxBurstSize then
        some { s with ringPkts := s.ringPkts ++ [buf] }
      else none
  | .others =>
      let s :=
        if s.lastKniPtr ≠ kniPtr ∧ s.lastKniPtr ≠ none then
          { s with
            log := kniWrite env kniPtr s.kniPkts s.log
            kniPkts := []
            lastKniPtr := kniPtr }
        else s
      if s.kniPkts.length < rxBurstSize then some { s with kniPkts := s.kniPkts ++ [buf] }
      else none
  | .broadcast => do
      let s ← ingressArp env linkId buf s
      let log ← ingressBroadcast env ic buf s.log
      some { s with log := log }
  | .unknown => some { s with log := s.log ++ [.free buf] }

/-- What is flushed behind the loop, to the KNI of the last packet of the burst. -/
def ingressFlush (env : IngressEnv) (s : IngressState D Kni) : List (IngressAct D.mbuf Kni) :=
  let log := if 0 < s.kniPkts.length then kniWrite env s.kniPtr s.kniPkts s.log else s.log
  if 0 < s.ringPkts.length then ringWrite env s.ringPkts log else log

def ingressClassify (env : IngressEnv) (tables : CArray (lastLinkId + 1) (IngressClassifier Kni))
    (linkId : UInt16) (arp : ArpState D) (pkts : List D.mbuf.Mbuf) :
    Option (List (IngressAct D.mbuf Kni) × ArpState D) :=
  if h : linkId.toNat < lastLinkId + 1 then do
    let ic := tables ⟨linkId.toNat, h⟩
    let s ← (rxBufs pkts).foldlM (ingressPkt env ic linkId) (IngressState.init Kni arp)
    some (ingressFlush env s, s.arp)
  else some ([], arp)

end loop

end Pfm
