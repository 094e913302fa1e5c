import Pfm.ArpProtocol
import Pfm.GtpPaths
import Pfm.PacketDisposal

/-!
# The data plane

All loops of the program at work, from the NICs to the NICs: `rx_loop` classifies bursts
and runs the timers, `dist_loop` hands packets to the workers, `worker_loop` serves them one
by one, and the transmit pipeline takes what they send.  The steps of the loops, of the
control threads and of the timers come in any order.

The classifiers are set up before the loops are started.  Routes and tunnels are whatever
they are when a packet is served.

* `rx_conserved` : between the NIC and the workers no packet is lost or duplicated;
* `plane_transmits` : what is transmitted is an answer to a packet that was received, an ARP
  request, or from the kernel; and no packet is answered twice.
-/

namespace Pfm

open BoundedLoop StepSystem TxPipeline

variable {D : Dpdk} {M : RteMbuf} {Kni : Type}

/-- How many packets an `rte_ring` of `RX_RING_SIZE` holds. -/
abbrev rxRingRoom : Nat := 63

/-- How many packets the distributor gives to a worker at once. -/
abbrev rteDistBurstSize : Nat := 8

/-- A packet that was answered, what was sent, and the routes at the time. -/
structure PktAnswered (D : Dpdk) where
  request : D.mbuf.Mbuf
  frame : D.mbuf.Mbuf
  route : RouteTable D

/-- The tables and the packets in each loop, and what became of packets. -/
structure DataPlane (D : Dpdk) (Kni : Type) where
  host : ArpHost D Kni
  gtp : GtpState D
  /-- calls of `pfm_kni_tx_arp` still to be made -/
  arpCalls : List KniTxArp
  rxRing : List D.mbuf.Mbuf
  /-- `pkt_burst` of `dist_loop` -/
  pktBurst : List D.mbuf.Mbuf
  /-- given to the distributor -/
  backlog : List D.mbuf.Mbuf
  /-- `rx_pkts` of each `worker_loop` from `i` on -/
  rxPkts : CArray maxWorkers (List D.mbuf.Mbuf)
  tx : TxPipeline D
  /-- taken by the RX ring -/
  arrived : List D.mbuf.Mbuf
  /-- served by a worker -/
  served : List D.mbuf.Mbuf
  answered : List (PktAnswered D)
  /-- ARP requests made -/
  arps : List D.mbuf.Mbuf
  /-- from the KNIs -/
  kernel : List D.mbuf.Mbuf

/-- All loops started. -/
def DataPlane.init (D : Dpdk) (Kni : Type) : DataPlane D Kni :=
  ⟨ArpHost.init D Kni, GtpState.init D, [], [], [], [], fun _ => [], TxPipeline.init D, [], [], [],
    [], []⟩

/-- A step of one of the loops, a timer, or a call of the control threads. -/
inductive PlaneEvent (D : Dpdk) (Kni : Type) where
  | kniOpened (env : KniOpenEnv Kni) (args : KniOpenArgs)
  | kniClosed (kni : Kni)
  | kniConfig (kniId : UInt16) (kniState : UInt8)
  /-- `gtp_path_add`, `gtp_path_del` and the timers of the paths -/
  | gtp (c : GtpCall D)
  /-- `rx_loop`: a burst of `link_read` is classified -/
  | ingress (env : IngressEnv) (linkId : UInt16) (burst : List (RxFrame D.mbuf))
  /-- `rx_loop`: `rte_timer_manage` finds a timer of the ARP table expired -/
  | arpTimer (r : Fin pfmArpTableEntries)
  /-- one of the calls of `pfm_kni_tx_arp` -/
  | txArp (i : Nat) (alloc : Option (FreshMbuf D.mbuf))
  /-- `dist_loop`: `rte_ring_dequeue_burst` -/
  | distDequeue
  /-- `dist_loop`: `rte_distributor_process` -/
  | distProcess
  /-- `worker_loop`: `rte_distributor_get_pkt`, and which packets it gives -/
  | workerGet (w : Fin maxWorkers) (picks : List Nat)
  /-- `worker_loop`: the next packet -/
  | workerPkt (w : Fin maxWorkers) (route : RouteTable D) (T : TunnelTable D)
  /-- a step of the transmit pipeline -/
  | tx (e : TxEvent D)

/-- The packets of a burst that the RX ring took. -/
def ringTaken (log : List (IngressAct M Kni)) : List M.Mbuf :=
  log.flatMap fun act =>
    match act with
    | .ringEnqueue pkts sent => (pkts.take sent).map IngressBuf.mbuf
    | _ => []

/-- The packet that `pfm_data_ind` sends for one that was received. -/
def pktAnswer (g : GtpTable D) (T : TunnelTable D) (pkt : D.mbuf.Mbuf) : Option (DataReq D.mbuf) :=
  match workerPkt pkt with
  | .freed _ => none
  | .dataInd ind =>
      match pfmDataInd g T ind with
      | .gtpEchoResponseSend gtpEntry mbuf => some (gtpEchoResponseSend gtpEntry mbuf)
      | _ => none

/-- A step of the loops that only pass packets on. -/
def TxEvent.passesOn : TxEvent D → Bool
  | .dataReq _ _ _ => false
  | .kniTxArp _ => false
  | _ => true

/-- The packets that come from a KNI. -/
def TxEvent.fromKernel : TxEvent D → List D.mbuf.Mbuf
  | .kniRead pkts _ => pkts
  | _ => []

/-- A worker has served a packet. -/
def DataPlane.serve (S : DataPlane D Kni) (w : Fin maxWorkers) (route : RouteTable D)
    (T : TunnelTable D) (pkt : D.mbuf.Mbuf) : Option (DataPlane D Kni) := do
  let links : LinkTables D := ⟨S.host.kni.table, S.host.arp.table, route⟩
  let served ← serveWorkerPkt links w T (S.tx.workers w) S.gtp pkt
  let done := { S with gtp := served.gtp, served := S.served ++ [pkt] }
  match pktAnswer S.gtp.table T pkt with
  | none => some done
  | some req =>
      match req.run links w (S.tx.workers w) with
      | .freed _ arps => some { done with arpCalls := S.arpCalls ++ arps }
      | .queued frame _ =>
          (txStep S.tx (.dataReq w links req)).map fun tx =>
            { done with tx := tx, answered := S.answered ++ [⟨pkt, frame, route⟩] }

/-- What serving a packet leaves. -/
inductive ServeOutcome (S : DataPlane D Kni) (w : Fin maxWorkers) (route : RouteTable D)
    (T : TunnelTable D) (pkt : D.mbuf.Mbuf) : DataPlane D Kni → Prop
  /-- nothing was sent -/
  | unanswered {links : LinkTables D} {served : PktServed D} (calls : List KniTxArp)
      (hserved : serveWorkerPkt links w T (S.tx.workers w) S.gtp pkt = some served) :
      ServeOutcome S w route T pkt
        { S with gtp := served.gtp, served := S.served ++ [pkt], arpCalls := calls }
  /-- an answer was queued -/
  | answered {served : PktServed D} {req : DataReq D.mbuf} {frame : D.mbuf.Mbuf}
      {wkr : WorkerInfo D.mbuf} {tx : TxPipeline D}
      (hserved : serveWorkerPkt ⟨S.host.kni.table, S.host.arp.table, route⟩ w T (S.tx.workers w)
        S.gtp pkt = some served)
      (hanswer : pktAnswer S.gtp.table T pkt = some req)
      (hrun : req.run ⟨S.host.kni.table, S.host.arp.table, route⟩ w (S.tx.workers w) =
        .queued frame wkr)
      (htx : txStep S.tx (.dataReq w ⟨S.host.kni.table, S.host.arp.table, route⟩ req) =
        some tx) :
      ServeOutcome S w route T pkt
        { S with
          gtp := served.gtp
          served := S.served ++ [pkt]
          tx := tx
          answered := S.answered ++ [⟨pkt, frame, route⟩] }

theorem DataPlane.serve_outcome {S S' : DataPlane D Kni} {w : Fin maxWorkers}
    {route : RouteTable D} {T : TunnelTable D} {pkt : D.mbuf.Mbuf}
    (h : S.serve w route T pkt = some S') : ServeOutcome S w route T pkt S' := by
  unfold DataPlane.serve at h
  obtain ⟨served, hserved, h⟩ := Option.bind_eq_some_iff.mp h
  dsimp only at h
  split at h
  · obtain rfl := Option.some.inj h
    exact .unanswered S.arpCalls hserved
  rename_i req hanswer
  split at h
  · obtain rfl := Option.some.inj h
    exact .unanswered _ hserved
  · rename_i frame wkr hrun
    obtain ⟨tx, htx, rfl⟩ := Option.map_eq_some_iff.mp h
    exact .answered hserved hanswer hrun htx

section step

variable [DecidableEq Kni]

/-- A step, `none` where its loop is not at that step. -/
def planeStep (P : RteMbufLen D.mbuf)
    (classifiers : CArray (lastLinkId + 1) (IngressClassifier Kni)) (S : DataPlane D Kni) :
    PlaneEvent D Kni → Option (DataPlane D Kni)
  | .kniOpened env args =>
      some { S with host := { S.host with kni := (kniOpen env S.host.kni args).1 } }
  | .kniClosed kni => (kniClose S.host.kni kni).map fun L =>
      { S with host := { S.host with kni := L } }
  | .kniConfig kniId kniState =>
      some { S with
        host := { S.host with kni := (callbackFuncKniIfConfig S.host.kni kniId kniState).1 } }
  | .gtp c => (gtpStep S.gtp c).map fun gtp => { S with gtp := gtp }
  | .ingress env linkId burst => do
      let out ← ingressClassify env classifiers linkId S.host.arp (burst.map RxFrame.mbuf)
      if S.rxRing.length + (ringTaken out.1).length ≤ rxRingRoom then
        some { S with
          host := { S.host with arp := out.2 }
          rxRing := S.rxRing ++ ringTaken out.1
          arrived := S.arrived ++ ringTaken out.1 }
      else none
  | .arpTimer r =>
      if S.host.arp.refreshTimer r then
        let out := refreshCallback S.host.kni.table S.host.arp r
        some { S with host := { S.host with arp := out.2 }, arpCalls := S.arpCalls ++ out.1 }
      else none
  | .txArp i alloc => do
      let call ← S.arpCalls[i]?
      let S := { S with arpCalls := S.arpCalls.eraseIdx i }
      let env : TxArpEnv D.mbuf := ⟨alloc, S.tx.txRing.length < txRingRoom⟩
      match pfmKniTxArp P S.host.kni.table env call with
      | .unknownSender => some S
      | .noMbuf => some S
      | .freed mbuf => (txStep S.tx (.kniTxArp mbuf)).map fun tx =>
          { S with tx := tx, arps := S.arps ++ [mbuf] }
      | .queued mbuf => (txStep S.tx (.kniTxArp mbuf)).map fun tx =>
          { S with tx := tx, arps := S.arps ++ [mbuf] }
  | .distDequeue =>
      if S.pktBurst = [] then
        some { S with
          rxRing := S.rxRing.drop rxBurstSize
          pktBurst := S.rxRing.take rxBurstSize }
      else none
  | .distProcess => some { S with pktBurst := [], backlog := S.backlog ++ S.pktBurst }
  | .workerGet w picks =>
      if S.rxPkts w = [] ∧ picks.length ≤ rteDistBurstSize then do
        let (pkts, rest) ← pick picks S.backlog
        some { S with backlog := rest, rxPkts := Function.update S.rxPkts w pkts }
      else none
  | .workerPkt w route T =>
      match S.rxPkts w with
      | [] => none
      | pkt :: rest =>
          DataPlane.serve { S with rxPkts := Function.update S.rxPkts w rest } w route T pkt
  | .tx e =>
      if e.passesOn then
        (txStep S.tx e).map fun tx => { S with tx := tx, kernel := S.kernel ++ e.fromKernel }
      else none

/-! ### What a step can do -/

/-- What a step leaves, and what its guards say. -/
inductive PlaneOutcome (P : RteMbufLen D.mbuf)
    (classifiers : CArray (lastLinkId + 1) (IngressClassifier Kni)) (S : DataPlane D Kni) :
    PlaneEvent D Kni → DataPlane D Kni → Prop
  | kniOpened (env : KniOpenEnv Kni) (args : KniOpenArgs) :
      PlaneOutcome P classifiers S (.kniOpened env args)
        { S with host := { S.host with kni := (kniOpen env S.host.kni args).1 } }
  | kniClosed {kni : Kni} {L : KniList Kni} (hclose : kniClose S.host.kni kni = some L) :
      PlaneOutcome P classifiers S (.kniClosed kni) { S with host := { S.host with kni := L } }
  | kniConfig (kniId : UInt16) (kniState : UInt8) :
      PlaneOutcome P classifiers S (.kniConfig kniId kniState)
        { S with
          host := { S.host with kni := (callbackFuncKniIfConfig S.host.kni kniId kniState).1 } }
  | gtp {c : GtpCall D} {gtp : GtpState D} (hgtp : gtpStep S.gtp c = some gtp) :
      PlaneOutcome P classifiers S (.gtp c) { S with gtp := gtp }
  | ingress {env : IngressEnv} {linkId : UInt16} {burst : List (RxFrame D.mbuf)}
      {log : List (IngressAct D.mbuf Kni)} {arp : ArpState D}
      (hrun : ingressClassify env classifiers linkId S.host.arp (burst.map RxFrame.mbuf) =
        some (log, arp)) :
      PlaneOutcome P classifiers S (.ingress env linkId burst)
        { S with
          host := { S.host with arp := arp }
          rxRing := S.rxRing ++ ringTaken log
          arrived := S.arrived ++ ringTaken log }
  | arpTimer {r : Fin pfmArpTableEntries} (htimer : S.host.arp.refreshTimer r = true) :
      PlaneOutcome P classifiers S (.arpTimer r)
        { S with
          host := { S.host with arp := (refreshCallback S.host.kni.table S.host.arp r).2 }
          arpCalls := S.arpCalls ++ (refreshCallback S.host.kni.table S.host.arp r).1 }
  /-- without an interface or an mbuf -/
  | noArp (i : Nat) (alloc : Option (FreshMbuf D.mbuf)) :
      PlaneOutcome P classifiers S (.txArp i alloc)
        { S with arpCalls := S.arpCalls.eraseIdx i }
  | txArp {i : Nat} {alloc : Option (FreshMbuf D.mbuf)} {env : TxArpEnv D.mbuf} {call : KniTxArp}
      {mbuf : D.mbuf.Mbuf} {tx : TxPipeline D}
      (hrun : pfmKniTxArp P S.host.kni.table env call = .queued mbuf ∨
        pfmKniTxArp P S.host.kni.table env call = .freed mbuf)
      (htx : txStep S.tx (.kniTxArp mbuf) = some tx) :
      PlaneOutcome P classifiers S (.txArp i alloc)
        { S with arpCalls := S.arpCalls.eraseIdx i, tx := tx, arps := S.arps ++ [mbuf] }
  | distDequeue (hempty : S.pktBurst = []) :
      PlaneOutcome P classifiers S .distDequeue
        { S with
          rxRing := S.rxRing.drop rxBurstSize
          pktBurst := S.rxRing.take rxBurstSize }
  | distProcess :
      PlaneOutcome P classifiers S .distProcess
        { S with pktBurst := [], backlog := S.backlog ++ S.pktBurst }
  | workerGet {w : Fin maxWorkers} {picks : List Nat} {pkts rest : List D.mbuf.Mbuf}
      (hnone : S.rxPkts w = []) (hroom : picks.length ≤ rteDistBurstSize)
      (hpick : pick picks S.backlog = some (pkts, rest)) :
      PlaneOutcome P classifiers S (.workerGet w picks)
        { S with backlog := rest, rxPkts := Function.update S.rxPkts w pkts }
  | workerPkt {w : Fin maxWorkers} {route : RouteTable D} {T : TunnelTable D}
      {pkt : D.mbuf.Mbuf} {rest : List D.mbuf.Mbuf} {S' : DataPlane D Kni}
      (hpkts : S.rxPkts w = pkt :: rest)
      (hserve : ServeOutcome { S with rxPkts := Function.update S.rxPkts w rest } w route T pkt
        S') :
      PlaneOutcome P classifiers S (.workerPkt w route T) S'
  | tx {e : TxEvent D} {tx : TxPipeline D} (hpasses : e.passesOn = true)
      (htx : txStep S.tx e = some tx) :
      PlaneOutcome P classifiers S (.tx e)
        { S with tx := tx, kernel := S.kernel ++ e.fromKernel }

theorem planeStep_outcome {P : RteMbufLen D.mbuf}
    {classifiers : CArray (lastLinkId + 1) (IngressClassifier Kni)} {S S' : DataPlane D Kni}
    {e : PlaneEvent D Kni} (hstep : planeStep P classifiers S e = some S') :
    PlaneOutcome P classifiers S e S' := by
  cases e with
  | kniOpened env args =>
      obtain rfl := Option.some.inj hstep
      exact .kniOpened env args
  | kniClosed kni =>
      obtain ⟨L, hclose, rfl⟩ := Option.map_eq_some_iff.mp hstep
      exact .kniClosed hclose
  | kniConfig kniId kniState =>
      obtain rfl := Option.some.inj hstep
      exact .kniConfig kniId kniState
  | gtp c =>
      obtain ⟨gtp, hgtp, rfl⟩ := Option.map_eq_some_iff.mp hstep
      exact .gtp hgtp
  | ingress env linkId burst =>
      obtain ⟨⟨log, arp⟩, hrun, hstep⟩ := Option.bind_eq_some_iff.mp hstep
      split at hstep
      · obtain rfl := Option.some.inj hstep
        exact .ingress hrun
      · cases hstep
  | arpTimer r =>
      simp only [planeStep] at hstep
      split at hstep
      · rename_i htimer
        obtain rfl := Option.some.inj hstep
        exact .arpTimer htimer
      · cases hstep
  | txArp i alloc =>
      obtain ⟨call, -, hstep⟩ := Option.bind_eq_some_iff.mp hstep
      dsimp only at hstep
      split at hstep
      · obtain rfl := Option.some.inj hstep
        exact .noArp i alloc
      · obtain rfl := Option.some.inj hstep
        exact .noArp i alloc
      · rename_i mbuf hrun
        obtain ⟨tx, htx, rfl⟩ := Option.map_eq_some_iff.mp hstep
        exact .txArp (Or.inr hrun) htx
      · rename_i mbuf hrun
        obtain ⟨tx, htx, rfl⟩ := Option.map_eq_some_iff.mp hstep
        exact .txArp (Or.inl hrun) htx
  | distDequeue =>
      simp only [planeStep] at hstep
      split at hstep
      · rename_i hempty
        obtain rfl := Option.some.inj hstep
        exact .distDequeue hempty
      · cases hstep
  | distProcess =>
      obtain rfl := Option.some.inj hstep
      exact .distProcess
  | workerGet w picks =>
      simp only [planeStep] at hstep
      split at hstep
      swap
      · cases hstep
      rename_i hguard
      obtain ⟨⟨pkts, rest⟩, hpick, hstep⟩ := Option.bind_eq_some_iff.mp hstep
      obtain rfl := Option.some.inj hstep
      exact .workerGet hguard.1 hguard.2 hpick
  | workerPkt w route T =>
      simp only [planeStep] at hstep
      split at hstep
      · cases hstep
      · rename_i pkt rest hpkts
        exact .workerPkt hpkts (DataPlane.serve_outcome hstep)
  | tx e =>
      simp only [planeStep] at hstep
      split at hstep
      · rename_i hpasses
        obtain ⟨tx, htx, rfl⟩ := Option.map_eq_some_iff.mp hstep
        exact .tx hpasses htx
      · cases hstep

end step

/-! ### From the NIC to the workers -/

/-- The packets on their way to a worker. -/
def DataPlane.rxHeld (S : DataPlane D Kni) : Multiset D.mbuf.Mbuf :=
  ((S.rxRing ++ S.pktBurst ++ S.backlog : List D.mbuf.Mbuf) : Multiset D.mbuf.Mbuf) +
    ∑ w, (S.rxPkts w : Multiset D.mbuf.Mbuf)

/-- Every packet that the RX ring took is a GTP packet of its link, and is in one place on
its way to a worker, or was served once. -/
structure RxInv (classifiers : CArray (lastLinkId + 1) (IngressClassifier Kni))
    (S : DataPlane D Kni) : Prop where
  conserved : (S.arrived : Multiset D.mbuf.Mbuf) =
    S.rxHeld + (S.served : Multiset D.mbuf.Mbuf)
  gtp : ∀ pkt ∈ S.arrived, ∃ linkId,
    (packetClassify (linkClassifier classifiers linkId) pkt).1 = .gtp

section rx

variable {classifiers : CArray (lastLinkId + 1) (IngressClassifier Kni)} {S S' : DataPlane D Kni}

theorem RxInv.init : RxInv classifiers (DataPlane.init D Kni) where
  conserved := by
    have hpkts : ∀ w ∈ Finset.univ, ((DataPlane.init D Kni).rxPkts w : Multiset D.mbuf.Mbuf) = 0 :=
      fun _ _ => rfl
    rw [DataPlane.rxHeld, Finset.sum_eq_zero hpkts]
    rfl
  gtp _ h := absurd h List.not_mem_nil

/-- A step that has nothing to do with received packets. -/
theorem RxInv.congr (h : RxInv classifiers S) (hring : S'.rxRing = S.rxRing)
    (hburst : S'.pktBurst = S.pktBurst) (hbacklog : S'.backlog = S.backlog)
    (hpkts : S'.rxPkts = S.rxPkts) (harrived : S'.arrived = S.arrived)
    (hserved : S'.served = S.served) : RxInv classifiers S' := by
  refine ⟨?_, harrived ▸ h.gtp⟩
  rw [DataPlane.rxHeld, hring, hburst, hbacklog, hpkts, harrived, hserved]
  exact h.conserved

/-- Packets that are passed on, up to those of a worker. -/
theorem RxInv.moved (h : RxInv classifiers S) (w : Fin maxWorkers) {pkts : List D.mbuf.Mbuf}
    (hpkts : S'.rxPkts = Function.update S.rxPkts w pkts) {done : List D.mbuf.Mbuf}
    (hserved : S'.served = S.served ++ done) (harrived : S'.arrived = S.arrived)
    (hlists : (S'.rxRing ++ S'.pktBurst ++ S'.backlog ++ pkts ++ done).Perm
      (S.rxRing ++ S.pktBurst ++ S.backlog ++ S.rxPkts w)) : RxInv classifiers S' := by
  refine ⟨?_, harrived ▸ h.gtp⟩
  have hsum := sum_update_add (fun i => (S.rxPkts i : Multiset D.mbuf.Mbuf)) w
    (pkts : Multiset D.mbuf.Mbuf)
  have hupdate : (fun i => (S'.rxPkts i : Multiset D.mbuf.Mbuf)) =
      Function.update (fun i => (S.rxPkts i : Multiset D.mbuf.Mbuf)) w pkts := by
    funext i
    rw [hpkts]
    by_cases hi : i = w
    · subst hi
      rw [Function.update_self, Function.update_self]
    · rw [Function.update_of_ne hi, Function.update_of_ne hi]
  have hcoe := Multiset.coe_eq_coe.mpr hlists
  simp only [← Multiset.coe_add] at hcoe
  have hold := h.conserved
  simp only [DataPlane.rxHeld, ← Multiset.coe_add] at hold ⊢
  rw [harrived, hserved, hold, hupdate, ← Multiset.coe_add]
  -- the packets of the other workers are the same on both sides
  apply add_right_cancel (b := (S.rxPkts w : Multiset D.mbuf.Mbuf))
  calc _ = (S.rxRing + S.pktBurst + S.backlog + S.rxPkts w : Multiset D.mbuf.Mbuf) +
        ∑ i, (S.rxPkts i : Multiset D.mbuf.Mbuf) + S.served := by abel
    _ = (S'.rxRing + S'.pktBurst + S'.backlog + pkts + done : Multiset D.mbuf.Mbuf) +
        ∑ i, (S.rxPkts i : Multiset D.mbuf.Mbuf) + S.served := by rw [hcoe]
    _ = (S'.rxRing + S'.pktBurst + S'.backlog : Multiset D.mbuf.Mbuf) +
        (∑ i, (S.rxPkts i : Multiset D.mbuf.Mbuf) + pkts) + (S.served + done) := by abel
    _ = (S'.rxRing + S'.pktBurst + S'.backlog : Multiset D.mbuf.Mbuf) +
        (∑ i, Function.update (fun i => (S.rxPkts i : Multiset D.mbuf.Mbuf)) w pkts i +
          S.rxPkts w) + (S.served + done) := by rw [hsum]
    _ = _ := by abel

/-- What a worker leaves of a state in which it took the packet. -/
theorem ServeOutcome.rx {w : Fin maxWorkers} {route : RouteTable D} {T : TunnelTable D}
    {pkt : D.mbuf.Mbuf} (h : ServeOutcome S w route T pkt S') :
    S'.rxRing = S.rxRing ∧ S'.pktBurst = S.pktBurst ∧ S'.backlog = S.backlog ∧
      S'.rxPkts = S.rxPkts ∧ S'.arrived = S.arrived ∧ S'.served = S.served ++ [pkt] := by
  cases h with
  | unanswered | answered => exact ⟨rfl, rfl, rfl, rfl, rfl, rfl⟩

variable [DecidableEq Kni]

/-- The ring takes packets of class GTP only. -/
theorem ringTaken_gtp {env : IngressEnv} {linkId : UInt16} {arp arp' : ArpState D}
    {pkts : List D.mbuf.Mbuf} {log : List (IngressAct D.mbuf Kni)}
    (h : ingressClassify env classifiers linkId arp pkts = some (log, arp')) :
    ∀ pkt ∈ ringTaken log, (packetClassify (linkClassifier classifiers linkId) pkt).1 = .gtp := by
  intro pkt hpkt
  obtain ⟨act, hact, hpkt⟩ := List.mem_flatMap.mp hpkt
  obtain ⟨buf, hbuf, rfl⟩ : ∃ buf ∈ ringed log, buf.mbuf = pkt := by
    cases act with
    | ringEnqueue pkts sent =>
        obtain ⟨buf, hbuf, heq⟩ := List.mem_map.mp hpkt
        exact ⟨buf, List.mem_flatMap.mpr ⟨_, hact, List.mem_of_mem_take hbuf⟩, heq⟩
    | clone | kniTxBurst | free => cases hpkt
  unfold ingressClassify at h
  split at h
  swap
  · obtain ⟨rfl, -⟩ := Prod.mk.inj (Option.some.inj h)
    cases hbuf
  rename_i hlink
  have htable : linkClassifier classifiers linkId = classifiers ⟨linkId.toNat, hlink⟩ :=
    dif_pos hlink
  obtain ⟨s, hloop, hend⟩ := Option.bind_eq_some_iff.mp h
  obtain ⟨rfl, -⟩ := Prod.mk.inj (Option.some.inj hend)
  have hinv := (LoopInv.init env (classifiers ⟨linkId.toNat, hlink⟩) arp).run hloop
  rw [(ingressFlush_adds env s).ringed, hinv.ringed, List.nil_append, hinv.ringPkts] at hbuf
  rw [htable]
  exact of_decide_eq_true (List.mem_filter.mp hbuf).2

variable {P : RteMbufLen D.mbuf}

/-- **One step.** -/
theorem RxInv.step (h : RxInv classifiers S) {e : PlaneEvent D Kni}
    (hstep : planeStep P classifiers S e = some S') : RxInv classifiers S' := by
  cases planeStep_outcome hstep with
  | kniOpened | kniClosed | kniConfig | gtp | arpTimer | noArp | txArp | tx =>
      exact h.congr rfl rfl rfl rfl rfl rfl
  | @ingress env linkId burst log arp hrun =>
      refine ⟨?_, fun pkt hpkt => ?_⟩
      · have hold := h.conserved
        simp only [DataPlane.rxHeld, ← Multiset.coe_add] at hold ⊢
        rw [hold]
        abel
      · rcases List.mem_append.mp hpkt with hold | hnew
        · exact h.gtp pkt hold
        · exact ⟨linkId, ringTaken_gtp hrun pkt hnew⟩
  | distDequeue hempty =>
      refine h.moved ⟨0, by decide⟩ (Function.update_eq_self _ _).symm
        (List.append_nil S.served).symm rfl ?_
      rw [hempty, List.append_nil, List.append_nil, List.append_assoc, List.append_assoc,
        ← List.append_assoc (S.rxRing.drop rxBurstSize)]
      refine (List.perm_append_comm.append_right _).trans ?_
      rw [List.take_append_drop, List.append_assoc]
  | distProcess =>
      refine h.moved ⟨0, by decide⟩ (Function.update_eq_self _ _).symm
        (List.append_nil S.served).symm rfl ?_
      rw [List.append_nil, List.append_nil]
      refine List.Perm.append_right _ ?_
      rw [List.append_assoc]
      exact List.perm_append_comm.append_left _
  | @workerGet w picks pkts rest hnone hroom hpick =>
      refine h.moved w rfl (List.append_nil S.served).symm rfl ?_
      rw [hnone, List.append_nil, List.append_nil, List.append_assoc]
      refine List.Perm.append_left _ ?_
      exact List.perm_append_comm.trans (pick_perm hpick).symm
  | @workerPkt w route T pkt rest _ hpkts hserve =>
      obtain ⟨hring, hburst, hbacklog, hrx, harrived, hserved⟩ := hserve.rx
      refine h.moved w hrx hserved harrived ?_
      rw [hring, hburst, hbacklog, hpkts, List.append_assoc]
      refine List.Perm.append_left _ ?_
      exact List.perm_append_comm

/-- **The way in.**  In every run of all loops, in any order of their steps, each packet that
the RX ring took is in one place on its way to a worker, or was served by a worker, once;
and all of them are GTP packets of the link they came from. -/
theorem rx_conserved {es : List (PlaneEvent D Kni)}
    (hrun : exec (planeStep P classifiers) (DataPlane.init D Kni) es = some S) :
    (S.arrived : Multiset D.mbuf.Mbuf) = S.rxHeld + (S.served : Multiset D.mbuf.Mbuf) ∧
      ∀ pkt ∈ S.served, ∃ linkId,
        (packetClassify (linkClassifier classifiers linkId) pkt).1 = .gtp := by
  have h : RxInv classifiers S :=
    exec_invariant (fun _ _ _ hinv hstep => hinv.step hstep) RxInv.init hrun
  refine ⟨h.conserved, fun pkt hpkt => h.gtp pkt ?_⟩
  have hle : (S.served : Multiset D.mbuf.Mbuf) ≤ (S.arrived : Multiset D.mbuf.Mbuf) := by
    rw [h.conserved]
    exact Multiset.le_add_left _ _
  exact Multiset.mem_coe.mp (Multiset.mem_of_le hle (Multiset.mem_coe.mpr hpkt))

/-- An echo request of the UPF. -/
def echoFrame : UdpFrame :=
  ⟨defaultKniMacAddr, fun _ => 2, ⟨69, 0, 36, 0, 0, 64, 17, 0, upfIp, cuupIp⟩,
    ⟨2152, 2152, 16, 0⟩, [0x30, 0x01, 0, 0, 0, 0, 0, 0]⟩

def echoRx : RxFrame viewMbuf :=
  ⟨mbufOf (echoFrame.bytes ++ []), echoFrame.bytes, [], received_mbufOf _⟩

/-- The interface of the CU-UP, with the port of GTP. -/
def cuupClassifiers : CArray (lastLinkId + 1) (IngressClassifier Unit) :=
  fun _ => ⟨[⟨(), cuupIp, 2152⟩], by decide⟩

/-- The UPF announces its address and sends an echo request, and the answer goes out. -/
def upfPlane : List (PlaneEvent listDpdk Unit) :=
  [.kniOpened ⟨0, none, some ()⟩ ⟨0, ngu0, cuupIp, 24⟩,
    .gtp (.add readyLib (pathTo upfIp)),
    .ingress ⟨fun _ _ => true, fun _ => 32, fun _ => .ok⟩ 0 [upfRx, echoRx],
    .distDequeue, .distProcess, .workerGet firstWorker [0],
    .workerPkt firstWorker (RouteTable.init listDpdk) (TunnelTable.init listDpdk),
    .tx (.getPktToTx firstWorker), .tx (.returnPkt firstWorker true), .tx (.returnedPkts [0]),
    .tx .enqueueBurst, .tx .dequeueBurst, .tx (.txPkt 0), .tx (.txLast 1)]

/-- All loops behind it. -/
def afterUpfPlane : Option (DataPlane listDpdk Unit) :=
  exec (planeStep viewMbufLen cuupClassifiers) (DataPlane.init listDpdk Unit) upfPlane

theorem rx_conserved_upfPlane : ∃ S, afterUpfPlane = some S ∧ S.served.length = 1 ∧
    (S.arrived : Multiset listDpdk.mbuf.Mbuf) =
      S.rxHeld + (S.served : Multiset listDpdk.mbuf.Mbuf) ∧
    ∀ pkt ∈ S.served, ∃ linkId,
      (packetClassify (linkClassifier cuupClassifiers linkId) pkt).1 = .gtp := by
  have hany : (afterUpfPlane.any fun S => S.served.length = 1) = true := by decide
  obtain ⟨S, hS, hserved⟩ := (Option.any_eq_true _ _).mp hany
  exact ⟨S, hS, of_decide_eq_true hserved, rx_conserved hS⟩

end rx

/-! ### What is transmitted -/

/-- A frame answers a packet.  The packet is an echo request from the other end of a path,
which was asked for.  What is behind its GTP header goes back there in a UDP packet, without
a GTP header of its own. -/
structure AnswerOf (asked : GtpPathArgs → Prop) (pkt frame : M.Mbuf) : Prop where
  udp : RteMbuf.byte pkt (etherHdrSize + nextProtoIdOff) = PfmProtocol.udp.number
  headers : udpFrameHdrSize + gtpHdrSize ≤ RteMbuf.dataLen pkt
  request : (gtpHdrAt pkt).flags = 0x30 ∧ (gtpHdrAt pkt).messageType = 0x01
  back : ∃ f args lcoreId packetId csum, Carries frame f ∧ asked args ∧
    RteMbuf.ntohl pkt (etherHdrSize + srcAddrOff) = args.remoteIp ∧
    f.ip = { ipv4HdrOf lcoreId packetId f.payload.length .udp args.localIp args.remoteIp with
      hdrChecksum := csum } ∧
    f.udp = udpHdrOf f.payload.length args.localPortNo args.remotePortNo ∧
    f.payload = echoReplyBytes pkt (udpFrameHdrSize + gtpHdrSize)

section answer

variable {asked : GtpPathArgs → Prop} {G : GtpState D} {T : TunnelTable D} {pkt : D.mbuf.Mbuf}
  {req : DataReq D.mbuf}

theorem pktAnswer_some {g : GtpTable D} (h : pktAnswer g T pkt = some req) :
    ∃ ind gtpEntry mbuf, workerPkt pkt = .dataInd ind ∧
      pfmDataInd g T ind = .gtpEchoResponseSend gtpEntry mbuf ∧
      req = gtpEchoResponseSend gtpEntry mbuf := by
  unfold pktAnswer at h
  split at h
  · cases h
  rename_i ind hpkt
  split at h
  · rename_i gtpEntry mbuf hind
    exact ⟨ind, gtpEntry, mbuf, hpkt, hind, (Option.some.inj h).symm⟩
  · cases h

/-- What `pfm_data_req` makes of an answer. -/
theorem answerOf_queued (hpaths : GtpPathInv asked G) (h : pktAnswer G.table T pkt = some req)
    {links : LinkTables D} {w : Fin maxWorkers} {wkr wkr' : WorkerInfo D.mbuf}
    {frame : D.mbuf.Mbuf} (hrun : req.run links w wkr = .queued frame wkr') :
    AnswerOf asked pkt frame := by
  obtain ⟨ind, gtpEntry, mbuf, hpkt, hind, rfl⟩ := pktAnswer_some h
  have hout := pfmDataInd_cases G.table T ind
  rw [hind] at hout
  obtain ⟨hrec, htype⟩ : GtpReceived G.table ind gtpEntry mbuf ∧
      (gtpHdrOf ind.mbuf).messageType = 0x01 := by
    cases hout with
    | echoRequest _ _ hrec htype => exact ⟨hrec, htype⟩
  have hecho : EchoRequest G.table ind gtpEntry := ⟨hrec.path, hrec.headers, hrec.flags, htype⟩
  obtain ⟨-, hfreed⟩ | ⟨hproto, hlen, ind', hpkt', hremote, -, hview⟩ := workerPkt_cases pkt
  · cases hpkt.symm.trans hfreed
  obtain rfl := WorkerPktEnd.dataInd.inj (hpkt.symm.trans hpkt')
  have hhdr := gtpHdrOf_of_adj hview
  have hdataLen : RteMbuf.dataLen ind.mbuf = RteMbuf.dataLen pkt - udpFrameHdrSize := by
    rw [RteMbuf.dataLen, hview]
    rfl
  obtain ⟨r, rfl, halive⟩ := hpaths.get hrec.path
  obtain ⟨args, hasked, hip, hof⟩ := halive.asked
  obtain ⟨smac, dmac, linkId, -, hsrc, hdst, hroom, -⟩ := pfmDataReq_frame hrun
  obtain ⟨frame', csum, hrun', hcarries⟩ := pfmDataReq_carries links (lcoreWorker + w.val) wkr
    .udp (G.table.gtpTable r).localPortNo.toNat (G.table.gtpTable r).remotePortNo.toNat
    hroom hsrc hdst
  obtain ⟨rfl, -⟩ := DataReqEnd.queued.inj (hrun.symm.trans hrun')
  have hpayload := (packet_echoReply hecho hind).trans (echoReplyBytes_adj hlen hview gtpHdrSize)
  have hudp (n : Nat) : udpHdrOf n (G.table.gtpTable r).localPortNo.toNat
      (G.table.gtpTable r).remotePortNo.toNat = udpHdrOf n args.localPortNo args.remotePortNo := by
    rw [udpHdrOf, ofInt_toNat, ofInt_toNat, hof.localPortNo, hof.remotePortNo]
    rfl
  refine ⟨hproto, ?_, ⟨hhdr ▸ hrec.flags, hhdr ▸ htype⟩, _, args, lcoreWorker + w.val,
    wkr.packetId, csum, hcarries, hasked, ?_, ?_, ?_, hpayload⟩
  · have hgtp := hrec.headers
    omega
  · rw [← hremote, hip]
  · rw [RteMbuf.length_packet, ← hof.localIp, ← hof.remoteIp]
    rfl
  · rw [RteMbuf.length_packet]
    exact hudp _

end answer

section account

variable {S S' : TxPipeline D} {e : TxEvent D}

/-- The packets that go into the transmit pipeline from elsewhere. -/
theorem txStep_passesOn (hpasses : e.passesOn = true) (hstep : txStep S e = some S') :
    S'.entered = S.entered ++ e.fromKernel := by
  cases txStep_outcome hstep with
  | dataFreed | dataQueued | arpQueued | arpFreed => cases hpasses
  | kniRead => rfl
  | getPktToTx | returnPkt | returnedPkts | enqueueBurst | dequeueBurst | otherLink | sameLink
  | txLast => exact (List.append_nil _).symm

theorem txStep_kniTxArp {mbuf : D.mbuf.Mbuf} (hstep : txStep S (.kniTxArp mbuf) = some S') :
    S'.entered = S.entered ++ [mbuf] := by
  cases txStep_outcome hstep with
  | arpQueued | arpFreed => rfl

theorem txStep_dataReq {w : Fin maxWorkers} {tables : LinkTables D} {req : DataReq D.mbuf}
    {frame : D.mbuf.Mbuf} {wkr : WorkerInfo D.mbuf}
    (hrun : req.run tables w (S.workers w) = .queued frame wkr)
    (hstep : txStep S (.dataReq w tables req) = some S') : S'.entered = S.entered ++ [frame] := by
  simp only [txStep, hrun] at hstep
  obtain rfl := Option.some.inj hstep
  rfl

/-- What is accounted for went in. -/
def WithinEntered (S : TxPipeline D) : Prop :=
  S.Sound ∧ S.accounted ≤ (S.entered : Multiset D.mbuf.Mbuf)

theorem WithinEntered.step (h : WithinEntered S) (hstep : txStep S e = some S') :
    WithinEntered S' := by
  obtain ⟨new, haccount⟩ := txStep_account h.1 hstep
  refine ⟨haccount.sound, ?_⟩
  calc S'.accounted ≤ S'.accounted + (dropped S e : Multiset D.mbuf.Mbuf) :=
        Multiset.le_add_right _ _
    _ = S.accounted + (new : Multiset D.mbuf.Mbuf) := haccount.accounted
    _ ≤ (S.entered : Multiset D.mbuf.Mbuf) + (new : Multiset D.mbuf.Mbuf) :=
        add_le_add_left h.2 _
    _ = (S'.entered : Multiset D.mbuf.Mbuf) := by rw [haccount.entered, Multiset.coe_add]

theorem WithinEntered.init : WithinEntered (TxPipeline.init D) :=
  ⟨init_sound, le_of_eq init_conserved.symm⟩

theorem WithinEntered.transmitted (h : WithinEntered S) :
    (S.transmitted : Multiset D.mbuf.Mbuf) ≤ (S.entered : Multiset D.mbuf.Mbuf) := by
  refine le_trans ?_ h.2
  rw [accounted, ← Multiset.coe_add, ← add_assoc, add_right_comm]
  exact Multiset.le_add_left _ _

end account

/-- What went into the transmit pipeline are answers, ARP requests and packets of the
kernel, and every answer is to a packet that was served. -/
structure PlaneInv (asked : GtpPathArgs → Prop) (S : DataPlane D Kni) : Prop where
  paths : GtpPathInv asked S.gtp
  within : WithinEntered S.tx
  entered : S.tx.entered.Perm (S.answered.map PktAnswered.frame ++ S.arps ++ S.kernel)
  once : (S.answered.map PktAnswered.request).Sublist S.served
  answers : ∀ a ∈ S.answered, AnswerOf asked a.request a.frame
  requests : ∀ mbuf ∈ S.arps, ∃ a : ArpFrame, RteMbuf.packet mbuf = a.bytes ∧
    a.arpOpcode = arpOpRequest

section plane

variable {asked : GtpPathArgs → Prop} {S S' : DataPlane D Kni}

theorem PlaneInv.init : PlaneInv asked (DataPlane.init D Kni) where
  paths := GtpPathInv.init
  within := WithinEntered.init
  entered := List.Perm.refl _
  once := List.Sublist.refl _
  answers _ h := absurd h List.not_mem_nil
  requests _ h := absurd h List.not_mem_nil

/-- The paths when a packet was served. -/
theorem serveWorkerPkt_gtp {links : LinkTables D} {w : Fin maxWorkers} {T : TunnelTable D}
    {wkr : WorkerInfo D.mbuf} {G : GtpState D} {pkt : D.mbuf.Mbuf} {served : PktServed D}
    (h : serveWorkerPkt links w T wkr G pkt = some served) :
    served.gtp = G ∨ ∃ gtpEntry, gtpStep G (.timerReset gtpEntry) = some served.gtp := by
  unfold serveWorkerPkt at h
  split at h
  · obtain rfl := Option.some.inj h
    exact Or.inl rfl
  unfold serveDataInd at h
  split at h
  · obtain rfl := Option.some.inj h
    exact Or.inl rfl
  · obtain rfl := Option.some.inj h
    exact Or.inl rfl
  · rename_i gtpEntry mbuf hind
    obtain ⟨⟨ret, G'⟩, hreset, hend⟩ := Option.bind_eq_some_iff.mp h
    obtain rfl := Option.some.inj hend
    exact Or.inr ⟨gtpEntry, by rw [gtpStep, hreset]; rfl⟩
  · obtain ⟨out, -, hend⟩ := Option.bind_eq_some_iff.mp h
    split at hend
    · obtain rfl := Option.some.inj hend
      exact Or.inl rfl
    · obtain rfl := Option.some.inj hend
      exact Or.inl rfl
  · obtain rfl := Option.some.inj h
    exact Or.inl rfl

/-- The paths behind a packet. -/
theorem PlaneInv.served (h : PlaneInv asked S) {links : LinkTables D} {w : Fin maxWorkers}
    {T : TunnelTable D} {wkr : WorkerInfo D.mbuf} {pkt : D.mbuf.Mbuf} {served : PktServed D}
    (hserved : serveWorkerPkt links w T wkr S.gtp pkt = some served) :
    GtpPathInv asked served.gtp := by
  rcases serveWorkerPkt_gtp hserved with hsame | ⟨gtpEntry, hreset⟩
  · rw [hsame]
    exact h.paths
  · exact h.paths.step (fun _ _ hadd => by cases hadd) hreset

/-- A worker serves a packet. -/
theorem PlaneInv.serve (h : PlaneInv asked S) {w : Fin maxWorkers} {route : RouteTable D}
    {T : TunnelTable D} {pkt : D.mbuf.Mbuf} (hserve : ServeOutcome S w route T pkt S') :
    PlaneInv asked S' := by
  cases hserve with
  | unanswered calls hserved =>
      exact ⟨h.served hserved, h.within, h.entered,
        h.once.trans (List.sublist_append_left _ _), h.answers, h.requests⟩
  | @answered served req frame wkr tx hserved hanswer hrun htx =>
      refine ⟨h.served hserved, h.within.step htx, ?_, ?_, ?_, h.requests⟩
      · dsimp only
        rw [txStep_dataReq hrun htx, List.map_append, List.append_assoc, List.append_assoc]
        refine (h.entered.append_right _).trans ?_
        rw [List.append_assoc, List.append_assoc]
        refine List.Perm.append_left _ ?_
        rw [← List.append_assoc]
        exact List.perm_append_comm
      · rw [List.map_append]
        exact h.once.append (List.Sublist.refl _)
      · intro a ha
        rcases List.mem_append.mp ha with hold | hnew
        · exact h.answers a hold
        · obtain rfl := List.mem_singleton.mp hnew
          exact answerOf_queued h.paths hanswer hrun

variable {P : RteMbufLen D.mbuf}

/-- A call of `pfm_kni_tx_arp` that made a request. -/
theorem PlaneInv.txArp (h : PlaneInv asked S) {t : KniTable} {env : TxArpEnv D.mbuf}
    {call : KniTxArp} {mbuf : D.mbuf.Mbuf} {calls : List KniTxArp} {tx : TxPipeline D}
    (hrun : pfmKniTxArp P t env call = .queued mbuf ∨ pfmKniTxArp P t env call = .freed mbuf)
    (hstep : txStep S.tx (.kniTxArp mbuf) = some tx) :
    PlaneInv asked { S with arpCalls := calls, tx := tx, arps := S.arps ++ [mbuf] } := by
  refine ⟨h.paths, h.within.step hstep, ?_, h.once, h.answers, fun m hm => ?_⟩
  · dsimp only
    rw [txStep_kniTxArp hstep]
    refine (h.entered.append_right _).trans ?_
    rw [List.append_assoc, List.append_assoc, List.append_assoc, List.append_assoc]
    refine List.Perm.append_left _ ?_
    exact List.Perm.append_left _ List.perm_append_comm
  · rcases List.mem_append.mp hm with hold | hnew
    · exact h.requests m hold
    · obtain rfl := List.mem_singleton.mp hnew
      obtain ⟨kni, -, -, hmade⟩ := pfmKniTxArp_made hrun
      exact ⟨call.request kni, hmade.packet_eq, rfl⟩

variable [DecidableEq Kni] {classifiers : CArray (lastLinkId + 1) (IngressClassifier Kni)}

/-- **One step.** -/
theorem PlaneInv.step (h : PlaneInv asked S) {e : PlaneEvent D Kni}
    (hasked : ∀ lib args, e = .gtp (.add lib args) → asked args)
    (hstep : planeStep P classifiers S e = some S') : PlaneInv asked S' := by
  cases planeStep_outcome hstep with
  | kniOpened | kniClosed | kniConfig | ingress | arpTimer | noArp | distDequeue | distProcess
  | workerGet =>
      exact ⟨h.paths, h.within, h.entered, h.once, h.answers, h.requests⟩
  | gtp hgtp =>
      have hpaths := h.paths.step (fun lib args heq => hasked lib args (congrArg _ heq)) hgtp
      exact ⟨hpaths, h.within, h.entered, h.once, h.answers, h.requests⟩
  | txArp hrun htx => exact h.txArp hrun htx
  | @workerPkt w route T pkt rest _ hpkts hserve =>
      have htook : PlaneInv asked { S with rxPkts := Function.update S.rxPkts w rest } :=
        ⟨h.paths, h.within, h.entered, h.once, h.answers, h.requests⟩
      exact htook.serve hserve
  | tx hpasses htx =>
      refine ⟨h.paths, h.within.step htx, ?_, h.once, h.answers, h.requests⟩
      dsimp only
      rw [txStep_passesOn hpasses htx, ← List.append_assoc]
      exact h.entered.append_right _

/-- **The way out.**  In every run of all loops, what is transmitted are answers, ARP
requests of the program and packets of the kernel, each at most once.  An answer is to an
echo request that the RX ring took, of the other end of a path that was asked for, and brings
back what was behind its GTP header; and no packet is answered twice. -/
theorem plane_transmits {es : List (PlaneEvent D Kni)}
    (hrun : exec (planeStep P classifiers) (DataPlane.init D Kni) es = some S) :
    (S.tx.transmitted : Multiset D.mbuf.Mbuf) ≤
        (S.answered.map PktAnswered.frame ++ S.arps ++ S.kernel : List D.mbuf.Mbuf) ∧
      (S.answered.map PktAnswered.request : Multiset D.mbuf.Mbuf) ≤ S.arrived ∧
      (∀ a ∈ S.answered,
        AnswerOf (fun args => ∃ lib, .gtp (.add lib args) ∈ es) a.request a.frame) ∧
      ∀ mbuf ∈ S.arps, ∃ a : ArpFrame, RteMbuf.packet mbuf = a.bytes ∧
        a.arpOpcode = arpOpRequest := by
  have h : PlaneInv (fun args => ∃ lib, PlaneEvent.gtp (.add lib args) ∈ es) S := by
    refine exec_invariant_inputs (P := fun e => e ∈ es) (fun S e S' hS he hstep => ?_)
      PlaneInv.init (fun _ he => he) hrun
    exact hS.step (fun lib args heq => ⟨lib, heq ▸ he⟩) hstep
  have hrx : RxInv classifiers S :=
    exec_invariant (fun _ _ _ hinv hstep => hinv.step hstep) RxInv.init hrun
  refine ⟨?_, ?_, h.answers, h.requests⟩
  · exact le_of_le_of_eq h.within.transmitted (Multiset.coe_eq_coe.mpr h.entered)
  · rw [hrx.conserved]
    exact le_trans (Multiset.coe_le.mpr h.once.subperm) (Multiset.le_add_left _ _)

theorem plane_transmits_upfPlane : ∃ S, afterUpfPlane = some S ∧ S.answered.length = 1 ∧
    (S.tx.transmitted : Multiset listDpdk.mbuf.Mbuf) ≤
      (S.answered.map PktAnswered.frame ++ S.arps ++ S.kernel : List listDpdk.mbuf.Mbuf) ∧
    (S.answered.map PktAnswered.request : Multiset listDpdk.mbuf.Mbuf) ≤ S.arrived ∧
    (∀ a ∈ S.answered,
      AnswerOf (fun args => ∃ lib, .gtp (.add lib args) ∈ upfPlane) a.request a.frame) ∧
    ∀ mbuf ∈ S.arps, ∃ a : ArpFrame, RteMbuf.packet mbuf = a.bytes ∧
      a.arpOpcode = arpOpRequest := by
  have hany : (afterUpfPlane.any fun S => S.answered.length = 1) = true := by decide
  obtain ⟨S, hS, hanswered⟩ := (Option.any_eq_true _ _).mp hany
  exact ⟨S, hS, of_decide_eq_true hanswered, plane_transmits hS⟩

end plane

end Pfm
