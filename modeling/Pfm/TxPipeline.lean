import Pfm.CircularQueue
import Pfm.FrameAgreement
import Pfm.Gtp

/-!
# The transmit pipeline

The way of a packet from `pfm_data_req` to the NIC: the transmit queue of its worker,
the distributor, the TX ring and the transmit loop (`pfm_worker_loop.c`,
`pfm_dist_loop.c`, `pfm_tx_loop.c`).  The loops run on their own cores, so their steps
come in any order; each is one event here, and the bursts a loop holds in its local
arrays between two of its steps are part of the state.

The distributor keeps the packets that workers returned until `dist_loop` asks for
them, and then gives some of them in some order.
-/

namespace Pfm

open BoundedLoop CircularScan

abbrev maxLcores : Nat := 32
abbrev lcoreWorker : Nat := 4
abbrev maxWorkers : Nat := maxLcores - lcoreWorker
abbrev txBurstSize : Nat := 32
abbrev maxPktPerTx : Nat := 8
abbrev txRingSize : Nat := 64

/-- How many packets an `rte_ring` of `TX_RING_SIZE` holds. -/
abbrev txRingRoom : Nat := txRingSize - 1

variable {D : Dpdk} {M : RteMbuf}

/-- A NULL in a slot in use is `none`. -/
def getPktToTx (w : WorkerInfo M) : Nat → Option (List M.Mbuf × WorkerInfo M)
  | 0 => some ([], w)
  | maxPkt + 1 =>
      if w.txQueueHead = w.txQueueTail then some ([], w)
      else do
        let pkt ← w.txQueue w.txQueueTail
        let (txPkts, w) ← getPktToTx { w with txQueueTail := ahead w.txQueueTail 1 } maxPkt
        some (pkt :: txPkts, w)

/-- The state of all loops, and the packets that went in and out. -/
structure TxPipeline (D : Dpdk) where
  workers : CArray maxWorkers (WorkerInfo D.mbuf)
  /-- `tx_pkts` of each `worker_loop` -/
  workerPkts : CArray maxWorkers (List D.mbuf.Mbuf)
  /-- returned to the distributor -/
  distributor : List D.mbuf.Mbuf
  /-- `ret_pkts` of `dist_loop` -/
  retPkts : List D.mbuf.Mbuf
  txRing : List D.mbuf.Mbuf
  /-- `tx_pkts` of `tx_loop` from `next_pkt_idx` on -/
  txPkts : List D.mbuf.Mbuf
  outPkts : List D.mbuf.Mbuf
  lastLinkId : UInt16
  /-- accepted by `pfm_data_req`, or put into the ring by others -/
  entered : List D.mbuf.Mbuf
  transmitted : List D.mbuf.Mbuf
  freed : List D.mbuf.Mbuf

/-- All loops started. -/
def TxPipeline.init (D : Dpdk) : TxPipeline D :=
  ⟨fun _ => idleWorker, fun _ => [], [], [], [], [], [], 0, [], [], []⟩

/-- One step of one of the loops. -/
inductive TxEvent (D : Dpdk) where
  /-- `worker_loop`: `pfm_data_req` for a packet -/
  | dataReq (w : Fin maxWorkers) (tables : LinkTables D) (req : DataReq D.mbuf)
  /-- `worker_loop`: `get_pkt_to_tx` -/
  | getPktToTx (w : Fin maxWorkers)
  /-- `worker_loop`: `rte_distributor_get_pkt` or `rte_distributor_return_pkt`, and
  whether it returned 0 -/
  | returnPkt (w : Fin maxWorkers) (ok : Bool)
  /-- `dist_loop`: `rte_distributor_returned_pkts`, and which packets it gives -/
  | returnedPkts (picks : List Nat)
  /-- `dist_loop`: `rte_ring_enqueue_burst` -/
  | enqueueBurst
  /-- `pfm_kni_tx_arp`: `rte_ring_enqueue` -/
  | kniTxArp (mbuf : D.mbuf.Mbuf)
  /-- `tx_loop`: a burst from a KNI, and how many of it the NIC takes -/
  | kniRead (pkts : List D.mbuf.Mbuf) (sent : Nat)
  /-- `tx_loop`: `rte_ring_dequeue_burst` -/
  | dequeueBurst
  /-- `tx_loop`: the next packet, and how many the NIC takes if a burst is sent -/
  | txPkt (sent : Nat)
  /-- `tx_loop`: the burst behind the last packet -/
  | txLast (sent : Nat)

/-- What `pfm_data_req` does on worker `w`. -/
def DataReq.run (req : DataReq D.mbuf) (tables : LinkTables D) (w : Fin maxWorkers)
    (wkr : WorkerInfo D.mbuf) : DataReqEnd D.mbuf :=
  pfmDataReq tables (lcoreWorker + w.val) wkr req.localIpAddr req.remoteIpAddr req.protocol
    req.localPortNo req.remotePortNo req.mbuf

/-- Take items out of a list one by one, each by its index in what is left. -/
def pick {α : Type} : List Nat → List α → Option (List α × List α)
  | [], l => some ([], l)
  | i :: is, l => do
      let a ← l[i]?
      let (picked, rest) ← pick is (l.eraseIdx i)
      some (a :: picked, rest)

/-- The NIC takes the first packets of the burst; the others are freed. -/
def txBurst (S : TxPipeline D) (pkts : List D.mbuf.Mbuf) (sent : Nat) : TxPipeline D :=
  { S with transmitted := S.transmitted ++ pkts.take sent, freed := S.freed ++ pkts.drop sent }

/-- A step, `none` where its loop is not at that step. -/
def txStep (S : TxPipeline D) : TxEvent D → Option (TxPipeline D)
  | .dataReq w tables req =>
      match req.run tables w (S.workers w) with
      | .freed _ _ => some S
      | .queued mbuf wkr =>
          some { S with
            workers := Function.update S.workers w wkr
            entered := S.entered ++ [mbuf] }
  | .getPktToTx w =>
      if S.workerPkts w = [] then do
        let (txPkts, wkr) ← getPktToTx (S.workers w) maxPktPerTx
        some { S with
          workers := Function.update S.workers w wkr
          workerPkts := Function.update S.workerPkts w txPkts }
      else none
  | .returnPkt w ok =>
      some { S with
        workerPkts := Function.update S.workerPkts w []
        distributor := if ok then S.distributor ++ S.workerPkts w else S.distributor }
  | .returnedPkts picks =>
      if S.retPkts = [] ∧ picks.length ≤ txBurstSize then do
        let (retPkts, rest) ← pick picks S.distributor
        some { S with distributor := rest, retPkts := retPkts }
      else none
  | .enqueueBurst =>
      -- what the ring has no room for is forgotten
      some { S with
        retPkts := []
        txRing := S.txRing ++ S.retPkts.take (txRingRoom - S.txRing.length) }
  | .kniTxArp mbuf =>
      if S.txRing.length < txRingRoom then
        some { S with txRing := S.txRing ++ [mbuf], entered := S.entered ++ [mbuf] }
      else some { S with freed := S.freed ++ [mbuf], entered := S.entered ++ [mbuf] }
  | .kniRead pkts sent =>
      if S.txPkts = [] ∧ S.outPkts = [] then
        some (txBurst { S with entered := S.entered ++ pkts } pkts sent)
      else none
  | .dequeueBurst =>
      if S.txPkts = [] ∧ S.outPkts = [] then
        let txPkts := S.txRing.take txBurstSize
        some { S with
          txRing := S.txRing.drop txBurstSize
          txPkts := txPkts
          lastLinkId := (txPkts.head?.map RteMbuf.port).getD S.lastLinkId }
      else none
  | .txPkt sent =>
      match S.txPkts with
      | [] => none
      | pkt :: rest =>
          let linkId := RteMbuf.port pkt
          if linkId ≠ S.lastLinkId then
            some { txBurst S S.outPkts sent with
              txPkts := rest
              outPkts := [pkt]
              lastLinkId := linkId }
          else some { S with txPkts := rest, outPkts := S.outPkts ++ [pkt] }
  | .txLast sent =>
      if S.txPkts = [] then some { txBurst S S.outPkts sent with outPkts := [] } else none

/-! ### What a step can do -/

/-- What a step leaves, and what its guards say. -/
inductive TxOutcome (S : TxPipeline D) : TxEvent D → TxPipeline D → Prop
  | dataFreed (w : Fin maxWorkers) (tables : LinkTables D) (req : DataReq D.mbuf) :
      TxOutcome S (.dataReq w tables req) S
  | dataQueued {w : Fin maxWorkers} {tables : LinkTables D} {req : DataReq D.mbuf}
      {mbuf : D.mbuf.Mbuf} {wkr : WorkerInfo D.mbuf}
      (hrun : req.run tables w (S.workers w) = .queued mbuf wkr) :
      TxOutcome S (.dataReq w tables req)
        { S with
          workers := Function.update S.workers w wkr
          entered := S.entered ++ [mbuf] }
  | getPktToTx {w : Fin maxWorkers} {txPkts : List D.mbuf.Mbuf} {wkr : WorkerInfo D.mbuf}
      (hnone : S.workerPkts w = [])
      (hget : Pfm.getPktToTx (S.workers w) maxPktPerTx = some (txPkts, wkr)) :
      TxOutcome S (.getPktToTx w)
        { S with
          workers := Function.update S.workers w wkr
          workerPkts := Function.update S.workerPkts w txPkts }
  | returnPkt (w : Fin maxWorkers) (ok : Bool) :
      TxOutcome S (.returnPkt w ok)
        { S with
          workerPkts := Function.update S.workerPkts w []
          distributor := if ok then S.distributor ++ S.workerPkts w else S.distributor }
  | returnedPkts {picks : List Nat} {retPkts rest : List D.mbuf.Mbuf} (hnone : S.retPkts = [])
      (hroom : picks.length ≤ txBurstSize)
      (hpick : pick picks S.distributor = some (retPkts, rest)) :
      TxOutcome S (.returnedPkts picks) { S with distributor := rest, retPkts := retPkts }
  | enqueueBurst :
      TxOutcome S .enqueueBurst
        { S with
          retPkts := []
          txRing := S.txRing ++ S.retPkts.take (txRingRoom - S.txRing.length) }
  | arpQueued (mbuf : D.mbuf.Mbuf) (hroom : S.txRing.length < txRingRoom) :
      TxOutcome S (.kniTxArp mbuf)
        { S with txRing := S.txRing ++ [mbuf], entered := S.entered ++ [mbuf] }
  | arpFreed (mbuf : D.mbuf.Mbuf) (hfull : ¬S.txRing.length < txRingRoom) :
      TxOutcome S (.kniTxArp mbuf)
        { S with freed := S.freed ++ [mbuf], entered := S.entered ++ [mbuf] }
  | kniRead (pkts : List D.mbuf.Mbuf) (sent : Nat) (hpkts : S.txPkts = [])
      (hout : S.outPkts = []) :
      TxOutcome S (.kniRead pkts sent)
        (txBurst { S with entered := S.entered ++ pkts } pkts sent)
  | dequeueBurst (hpkts : S.txPkts = []) (hout : S.outPkts = []) :
      TxOutcome S .dequeueBurst
        { S with
          txRing := S.txRing.drop txBurstSize
          txPkts := S.txRing.take txBurstSize
          lastLinkId := ((S.txRing.take txBurstSize).head?.map RteMbuf.port).getD S.lastLinkId }
  | otherLink {pkt : D.mbuf.Mbuf} {rest : List D.mbuf.Mbuf} (sent : Nat)
      (hpkts : S.txPkts = pkt :: rest) (hlink : RteMbuf.port pkt ≠ S.lastLinkId) :
      TxOutcome S (.txPkt sent)
        { txBurst S S.outPkts sent with
          txPkts := rest
          outPkts := [pkt]
          lastLinkId := RteMbuf.port pkt }
  | sameLink {pkt : D.mbuf.Mbuf} {rest : List D.mbuf.Mbuf} (sent : Nat)
      (hpkts : S.txPkts = pkt :: rest) (hlink : RteMbuf.port pkt = S.lastLinkId) :
      TxOutcome S (.txPkt sent) { S with txPkts := rest, outPkts := S.outPkts ++ [pkt] }
  | txLast (sent : Nat) (hpkts : S.txPkts = []) :
      TxOutcome S (.txLast sent) { txBurst S S.outPkts sent with outPkts := [] }

theorem txStep_outcome {S S' : TxPipeline D} {e : TxEvent D} (hstep : txStep S e = some S') :
    TxOutcome S e S' := by
  cases e with
  | dataReq w tables req =>
      simp only [txStep] at hstep
      split at hstep
      · obtain rfl := Option.some.inj hstep
        exact .dataFreed w tables req
      · rename_i mbuf wkr hrun
        obtain rfl := Option.some.inj hstep
        exact .dataQueued hrun
  | getPktToTx w =>
      simp only [txStep] at hstep
      split at hstep
      swap
      · cases hstep
      rename_i hnone
      obtain ⟨⟨txPkts, wkr⟩, hget, hend⟩ := Option.bind_eq_some_iff.mp hstep
      obtain rfl := Option.some.inj hend
      exact .getPktToTx hnone hget
  | returnPkt w ok =>
      obtain rfl := Option.some.inj hstep
      exact .returnPkt w ok
  | returnedPkts picks =>
      simp only [txStep] at hstep
      split at hstep
      swap
      · cases hstep
      rename_i hguard
      obtain ⟨⟨retPkts, rest⟩, hpick, hend⟩ := Option.bind_eq_some_iff.mp hstep
      obtain rfl := Option.some.inj hend
      exact .returnedPkts hguard.1 hguard.2 hpick
  | enqueueBurst =>
      obtain rfl := Option.some.inj hstep
      exact .enqueueBurst
  | kniTxArp mbuf =>
      simp only [txStep] at hstep
      split at hstep
      · rename_i hroom
        obtain rfl := Option.some.inj hstep
        exact .arpQueued mbuf hroom
      · rename_i hfull
        obtain rfl := Option.some.inj hstep
        exact .arpFreed mbuf hfull
  | kniRead pkts sent =>
      simp only [txStep] at hstep
      split at hstep
      · rename_i hempty
        obtain rfl := Option.some.inj hstep
        exact .kniRead pkts sent hempty.1 hempty.2
      · cases hstep
  | dequeueBurst =>
      simp only [txStep] at hstep
      split at hstep
      · rename_i hempty
        obtain rfl := Option.some.inj hstep
        exact .dequeueBurst hempty.1 hempty.2
      · cases hstep
  | txPkt sent =>
      simp only [txStep] at hstep
      split at hstep
      · cases hstep
      rename_i pkt rest hpkts
      split at hstep
      · rename_i hlink
        obtain rfl := Option.some.inj hstep
        exact .otherLink sent hpkts hlink
      · rename_i hlink
        obtain rfl := Option.some.inj hstep
        exact .sameLink sent hpkts (not_not.mp hlink)
  | txLast sent =>
      simp only [txStep] at hstep
      split at hstep
      · rename_i hpkts
        obtain rfl := Option.some.inj hstep
        exact .txLast sent hpkts
      · cases hstep

end Pfm
