import Pfm.DataPlane

/-!
# The data plane on a network

The loops of `DataPlane` in place of the single steps of `ArpProtocol`.  What the program
sends waits in queues and rings before it is transmitted, and what it receives before it is
served, while the tables change.

* `planeStep_serves` : the tables change as those of `ArpHost` do;
* `plane_reaches` : the answers are addressed to who has the address of the next hop.
-/

namespace Pfm

open BoundedLoop StepSystem LossyNetwork

variable {D : Dpdk} {Kni : Type}

/-- A new interface has a MAC address of its own, and the card takes only what is for it. -/
def PlaneEvent.Admissible (lan : Lan) (t : KniTable) : PlaneEvent D Kni → Prop
  | .kniOpened env _ => lan.Free (env.macAddr.getD defaultKniMacAddr)
  | .ingress _ _ burst => ∀ rx ∈ burst, TakesFrame t rx.frame
  | _ => True

instance (lan : Lan) (t : KniTable) (e : PlaneEvent D Kni) : Decidable (e.Admissible lan t) :=
  match e with
  | .kniOpened env _ => inferInstanceAs (Decidable (lan.Free (env.macAddr.getD defaultKniMacAddr)))
  | .ingress _ _ burst => inferInstanceAs (Decidable (∀ rx ∈ burst, TakesFrame t rx.frame))
  | .kniClosed _ | .kniConfig _ _ | .gtp _ | .arpTimer _ | .txArp _ _ | .distDequeue | .distProcess
  | .workerGet _ _ | .workerPkt _ _ _ | .tx _ => .isTrue trivial

/-- The frames that come in: from a NIC, or from the kernel. -/
def planeBrings : PlaneEvent D Kni → List (List UInt8)
  | .ingress _ _ burst => burst.map RxFrame.frame
  | .tx e => e.fromKernel.map RteMbuf.packet
  | _ => []

section step

variable [DecidableEq Kni]

/-- A step, and the frames that are transmitted. -/
def planeServe (lan : Lan) (P : RteMbufLen D.mbuf)
    (classifiers : CArray (lastLinkId + 1) (IngressClassifier Kni)) (S : DataPlane D Kni)
    (e : PlaneEvent D Kni) : Option (DataPlane D Kni × List (List UInt8)) :=
  if e.Admissible lan S.host.kni.table then
    (planeStep P classifiers S e).map fun S' =>
      (S', (S'.tx.transmitted.drop S.tx.transmitted.length).map RteMbuf.packet)
  else none

/-- The data plane as a party on the network. -/
def planeParty (lan : Lan) (P : RteMbufLen D.mbuf)
    (classifiers : CArray (lastLinkId + 1) (IngressClassifier Kni)) :
    Party (DataPlane D Kni) (PlaneEvent D Kni) (List UInt8) :=
  ⟨planeServe lan P classifiers, planeBrings⟩

/-- A step on the network, with honest others.  The kernel is one of them. -/
def planeNetStep (lan : Lan) (P : RteMbufLen D.mbuf)
    (classifiers : CArray (lastLinkId + 1) (IngressClassifier Kni))
    (N : Net (DataPlane D Kni) (List UInt8)) (e : NetEvent (PlaneEvent D Kni) (List UInt8)) :
    Option (Net (DataPlane D Kni) (List UInt8)) :=
  netStep (planeParty lan P classifiers) (fun S => Honest lan S.host.kni.table) N e

end step

/-! ### The tables -/

/-- No request is sent. -/
def noTxArp (M : RteMbuf) : Nat → TxArpEnv M := fun _ => ⟨none, false⟩

section tables

variable {lan : Lan} {P : RteMbufLen D.mbuf}
  {classifiers : CArray (lastLinkId + 1) (IngressClassifier Kni)} {S S' : DataPlane D Kni}

theorem ServeOutcome.host {w : Fin maxWorkers} {route : RouteTable D} {T : TunnelTable D}
    {pkt : D.mbuf.Mbuf} (h : ServeOutcome S w route T pkt S') : S'.host = S.host := by
  cases h with
  | unanswered | answered => rfl

variable [DecidableEq Kni]

/-- **The tables of a step** are left alone, or change as those of the program do that
serves the input at once. -/
theorem planeStep_serves {e : PlaneEvent D Kni} (hadm : e.Admissible lan S.host.kni.table)
    (hstep : planeStep P classifiers S e = some S') :
    S'.host = S.host ∨ ∃ i out, arpServe lan P S.host i = some (S'.host, out) ∧
      ∀ frame ∈ arpBrings i, frame ∈ planeBrings e := by
  cases planeStep_outcome hstep with
  | kniOpened env args =>
      have hfree : lan.Free (env.macAddr.getD defaultKniMacAddr) := hadm
      refine Or.inr ⟨.opened env args, [], ?_, fun _ hframe => by cases hframe⟩
      rw [arpServe, if_pos hfree]
  | @kniClosed kni L hclose =>
      refine Or.inr ⟨.closed kni, [], ?_, fun _ hframe => by cases hframe⟩
      rw [arpServe, hclose]
      rfl
  | kniConfig kniId kniState =>
      exact Or.inr ⟨.config kniId kniState, [], rfl, fun _ hframe => by cases hframe⟩
  | @ingress env linkId burst log arp hrun =>
      have htakes : ∀ rx ∈ burst, TakesFrame S.host.kni.table rx.frame := hadm
      refine Or.inr ⟨.ingress env classifiers linkId burst, [], ?_, fun _ hframe => hframe⟩
      rw [arpServe, if_pos htakes, hrun]
      rfl
  | @arpTimer r htimer =>
      let calls := (refreshCallback S.host.kni.table S.host.arp r).1
      refine Or.inr ⟨.expiry r (noTxArp D.mbuf),
        arpFrames P S.host.kni.table (noTxArp D.mbuf) calls, ?_, fun _ hframe => by cases hframe⟩
      rw [arpServe, if_pos htimer]
  | workerPkt _ hserve => exact Or.inl hserve.host
  | gtp | noArp | txArp | distDequeue | distProcess | workerGet | tx => exact Or.inl rfl

/-- Interfaces are only added. -/
theorem planeStep_grows {e : PlaneEvent D Kni} (hadm : e.Admissible lan S.host.kni.table)
    (hstep : planeStep P classifiers S e = some S') :
    Grows lan S.host.kni.table S'.host.kni.table := by
  rcases planeStep_serves hadm hstep with hsame | ⟨i, out, hserve, -⟩
  · rw [hsame]
    exact Grows.refl lan _
  · exact arpServe_grows hserve

end tables

/-! ### What is sent -/

/-- An answer goes to who has the address of the next hop: the one it is for, or the gateway
to it. -/
def ReachesHop (lan : Lan) (t : KniTable) (a : PktAnswered D) : Prop :=
  ∃ f hop, Carries a.frame f ∧ Owns lan t hop f.dAddr ∧
    (hop = f.ip.dstAddr ∨ ∃ route, pfmRouteQuery a.route f.ip.dstAddr = some route ∧
      hop = route.gatewayAddr)

/-- What a step puts into the transmit pipeline, and the answers among it. -/
structure PlaneSent (S S' : DataPlane D Kni) (e : PlaneEvent D Kni) (P : RteMbufLen D.mbuf)
    (new : List D.mbuf.Mbuf) (done : List (PktAnswered D)) : Prop where
  entered : S'.tx.entered = S.tx.entered ++ new
  answered : S'.answered = S.answered ++ done
  sent : ∀ a ∈ done, ∃ (w : Fin maxWorkers) (req : DataReq D.mbuf) (wkr wkr' : WorkerInfo D.mbuf),
    req.run ⟨S.host.kni.table, S.host.arp.table, a.route⟩ w wkr = .queued a.frame wkr'
  source : ∀ m ∈ new, m ∈ done.map PktAnswered.frame ∨
    (∃ env call, pfmKniTxArp P S.host.kni.table env call = .queued m ∨
      pfmKniTxArp P S.host.kni.table env call = .freed m) ∨
    RteMbuf.packet m ∈ planeBrings e

section sent

variable {lan : Lan} {t t' : KniTable} {P : RteMbufLen D.mbuf}
  {classifiers : CArray (lastLinkId + 1) (IngressClassifier Kni)} {S S' : DataPlane D Kni}
  {e : PlaneEvent D Kni}

theorem ReachesHop.mono {a : PktAnswered D} (hgrows : Grows lan t t') (h : ReachesHop lan t a) :
    ReachesHop lan t' a := by
  obtain ⟨f, hop, hcarries, hown, hhop⟩ := h
  exact ⟨f, hop, hcarries, hown.mono hgrows, hhop⟩

/-- A step that sends nothing. -/
theorem PlaneSent.none (htx : S'.tx.entered = S.tx.entered) (hanswered : S'.answered = S.answered) :
    PlaneSent S S' e P [] [] where
  entered := htx.trans (List.append_nil _).symm
  answered := hanswered.trans (List.append_nil _).symm
  sent _ h := absurd h List.not_mem_nil
  source _ h := absurd h List.not_mem_nil

/-- A worker serves a packet. -/
theorem PlaneSent.serve {w : Fin maxWorkers} {route : RouteTable D} {T : TunnelTable D}
    {pkt : D.mbuf.Mbuf} (h : ServeOutcome S w route T pkt S') :
    ∃ new done, PlaneSent S S' e P new done := by
  cases h with
  | unanswered calls hserved => exact ⟨[], [], PlaneSent.none rfl rfl⟩
  | @answered served req frame wkr tx hserved hanswer hrun htx =>
      refine ⟨[frame], [⟨pkt, frame, route⟩], txStep_dataReq hrun htx, rfl, fun a ha => ?_, ?_⟩
      · obtain rfl := List.mem_singleton.mp ha
        exact ⟨w, req, _, wkr, hrun⟩
      · intro m hm
        exact Or.inl hm

variable [DecidableEq Kni]

theorem planeStep_sent (hstep : planeStep P classifiers S e = some S') :
    ∃ new done, PlaneSent S S' e P new done := by
  cases planeStep_outcome hstep with
  | kniOpened | kniClosed | kniConfig | gtp | ingress | arpTimer | noArp | distDequeue
  | distProcess | workerGet =>
      exact ⟨[], [], PlaneSent.none rfl rfl⟩
  | @txArp i alloc env call mbuf tx hrun htx =>
      refine ⟨[mbuf], [], txStep_kniTxArp htx, (List.append_nil _).symm,
        fun _ h => absurd h List.not_mem_nil, fun m hm => ?_⟩
      obtain rfl := List.mem_singleton.mp hm
      exact Or.inr (Or.inl ⟨env, call, hrun⟩)
  | @workerPkt w route T pkt rest _ hpkts hserve =>
      obtain ⟨new, done, hsent⟩ := PlaneSent.serve (e := .workerPkt w route T) (P := P) hserve
      exact ⟨new, done, hsent.entered, hsent.answered, hsent.sent, hsent.source⟩
  | @tx e tx hpasses htx =>
      refine ⟨e.fromKernel, [], txStep_passesOn hpasses htx, (List.append_nil _).symm,
        fun _ h => absurd h List.not_mem_nil, fun m hm => ?_⟩
      exact Or.inr (Or.inr (List.mem_map_of_mem hm))

end sent

/-! ### Every run -/

/-- The tables are true, what waits is good, and the answers reach the next hop. -/
structure PlaneNetInv (lan : Lan) (S : DataPlane D Kni) : Prop where
  host : ArpHostInv lan S.host
  plane : PlaneInv (fun _ => True) S
  waiting : ∀ m ∈ S.tx.entered, GoodFrame lan S.host.kni.table (RteMbuf.packet m)
  reaches : ∀ a ∈ S.answered, ReachesHop lan S.host.kni.table a

section run

variable {lan : Lan} {P : RteMbufLen D.mbuf}
  {classifiers : CArray (lastLinkId + 1) (IngressClassifier Kni)} {S S' : DataPlane D Kni}

theorem PlaneNetInv.init : PlaneNetInv lan (DataPlane.init D Kni) where
  host := ArpHostInv.init
  plane := PlaneInv.init
  waiting _ h := absurd h List.not_mem_nil
  reaches _ h := absurd h List.not_mem_nil

/-- A packet that a worker queues. -/
theorem PlaneNetInv.queued (hinv : PlaneNetInv lan S) {a : PktAnswered D} {w : Fin maxWorkers}
    {req : DataReq D.mbuf} {wkr wkr' : WorkerInfo D.mbuf}
    (hrun : req.run ⟨S.host.kni.table, S.host.arp.table, a.route⟩ w wkr = .queued a.frame wkr') :
    ReachesHop lan S.host.kni.table a ∧
      GoodFrame lan S.host.kni.table (RteMbuf.packet a.frame) := by
  let call : DataReqCall D := ⟨a.route, lcoreWorker + w.val, wkr, req.localIpAddr,
    req.remoteIpAddr, req.protocol, req.localPortNo, req.remotePortNo, req.mbuf⟩
  have hcall : call.run S.host = .queued a.frame wkr' := hrun
  obtain ⟨f, hop, hcarries, hdst, hown, hhop, -⟩ := hinv.host.truthful.queued hcall
  have hremote : f.ip.dstAddr = req.remoteIpAddr := hdst
  refine ⟨⟨f, hop, hcarries, hown, ?_⟩, GoodFrame.of_notArp (notArp_of_carries hcarries)⟩
  rw [hremote]
  exact hhop

variable [DecidableEq Kni]

/-- **One step**, with good frames, keeps all of it and transmits good frames. -/
theorem PlaneNetInv.serve (hacc : D.arpHash.Accepts) (hfull : D.arpHash.RefusesFull)
    {e : PlaneEvent D Kni} {out : List (List UInt8)} (hinv : PlaneNetInv lan S)
    (hgood : ∀ frame ∈ planeBrings e, GoodFrame lan S.host.kni.table frame)
    (h : planeServe lan P classifiers S e = some (S', out)) :
    PlaneNetInv lan S' ∧ ∀ frame ∈ out, GoodFrame lan S'.host.kni.table frame := by
  unfold planeServe at h
  split at h
  swap
  · cases h
  rename_i hadm
  obtain ⟨S₁, hstep, h⟩ := Option.map_eq_some_iff.mp h
  obtain ⟨hstate, rfl⟩ := Prod.mk.inj h
  rw [hstate] at hstep ⊢
  have hgrows := planeStep_grows hadm hstep
  have hhost : ArpHostInv lan S'.host := by
    rcases planeStep_serves hadm hstep with hsame | ⟨i, sent, hserve, hbrings⟩
    · rw [hsame]
      exact hinv.host
    · exact (hinv.host.serve hacc hfull (fun frame hframe => hgood frame (hbrings frame hframe))
        hserve).1
  obtain ⟨new, done, hsent⟩ := planeStep_sent hstep
  have hdone : ∀ a ∈ done, ReachesHop lan S.host.kni.table a ∧
      GoodFrame lan S.host.kni.table (RteMbuf.packet a.frame) := by
    intro a ha
    obtain ⟨w, req, wkr, wkr', hrun⟩ := hsent.sent a ha
    exact hinv.queued hrun
  have hnew : ∀ m ∈ new, GoodFrame lan S.host.kni.table (RteMbuf.packet m) := by
    intro m hm
    rcases hsent.source m hm with hanswer | ⟨env, call, hmade⟩ | hkernel
    · obtain ⟨a, ha, rfl⟩ := List.mem_map.mp hanswer
      exact (hdone a ha).2
    · obtain ⟨kni, hkni, hip, hreq⟩ := pfmKniTxArp_made hmade
      exact GoodFrame.of_request hkni hip hreq
    · exact hgood _ hkernel
  have hplane := hinv.plane.step (fun _ _ _ => trivial) hstep
  have hwaiting : ∀ m ∈ S'.tx.entered, GoodFrame lan S'.host.kni.table (RteMbuf.packet m) := by
    intro m hm
    rw [hsent.entered] at hm
    rcases List.mem_append.mp hm with hold | hm
    · exact (hinv.waiting m hold).mono hgrows
    · exact (hnew m hm).mono hgrows
  refine ⟨⟨hhost, hplane, hwaiting, fun a ha => ?_⟩, fun frame hframe => ?_⟩
  · rw [hsent.answered] at ha
    rcases List.mem_append.mp ha with hold | ha
    · exact (hinv.reaches a hold).mono hgrows
    · exact (hdone a ha).1.mono hgrows
  · -- what is transmitted waited before
    obtain ⟨m, hm, rfl⟩ := List.mem_map.mp hframe
    have hmem : m ∈ (S'.tx.transmitted : Multiset D.mbuf.Mbuf) :=
      Multiset.mem_coe.mpr (List.mem_of_mem_drop hm)
    exact hwaiting m (Multiset.mem_coe.mp (Multiset.mem_of_le hplane.within.transmitted hmem))

/-- The network keeps both. -/
theorem plane_keeps (hacc : D.arpHash.Accepts) (hfull : D.arpHash.RefusesFull) (lan : Lan)
    (P : RteMbufLen D.mbuf) (classifiers : CArray (lastLinkId + 1) (IngressClassifier Kni)) :
    Keeps (planeParty lan P classifiers)
      (fun S : DataPlane D Kni => Honest lan S.host.kni.table) (PlaneNetInv lan)
      fun S => GoodFrame lan S.host.kni.table where
  serve hinv hgood h := hinv.serve hacc hfull hgood h
  mono h hgood := by
    simp only [planeParty, planeServe] at h
    split at h
    · rename_i hadm
      obtain ⟨_, hstep, h⟩ := Option.map_eq_some_iff.mp h
      obtain ⟨rfl, -⟩ := Prod.mk.inj h
      exact hgood.mono (planeStep_grows hadm hstep)
    · cases h
  other _ hsent hhonest := GoodFrame.of_honest hsent hhonest

/-- **The answers reach the next hop.**  The loops run in any order, packets wait for as long
as they like while the tables change, and the network does what it likes with frames: the ARP
table says nothing untrue, and every answer goes to the sender of the packet it answers, in a
frame for who has the address of the next hop. -/
theorem plane_reaches (hacc : D.arpHash.Accepts) (hfull : D.arpHash.RefusesFull)
    {es : List (NetEvent (PlaneEvent D Kni) (List UInt8))}
    {N : Net (DataPlane D Kni) (List UInt8)}
    (hrun : exec (planeNetStep lan P classifiers) (Net.init (DataPlane.init D Kni)) es = some N) :
    ArpTruthful lan N.party.host ∧
      ∀ a ∈ N.party.answered, ∃ f hop, Carries a.frame f ∧
        f.ip.dstAddr = RteMbuf.ntohl a.request (etherHdrSize + srcAddrOff) ∧
        Owns lan N.party.host.kni.table hop f.dAddr ∧
        (hop = f.ip.dstAddr ∨ ∃ route, pfmRouteQuery a.route f.ip.dstAddr = some route ∧
          hop = route.gatewayAddr) := by
  have hinv := ((plane_keeps hacc hfull lan P classifiers).run PlaneNetInv.init hrun).1
  refine ⟨hinv.host.truthful, fun a ha => ?_⟩
  obtain ⟨f, hop, hcarries, hown, hhop⟩ := hinv.reaches a ha
  obtain ⟨f', args, _, _, _, hcarries', -, hfrom, hip, -⟩ := (hinv.plane.answers a ha).back
  refine ⟨f, hop, hcarries, ?_, hown, hhop⟩
  calc f.ip.dstAddr = f'.ip.dstAddr := hcarries.dstAddr.symm.trans hcarries'.dstAddr
    _ = args.remoteIp := congrArg RteIpv4Hdr.dstAddr hip
    _ = RteMbuf.ntohl a.request (etherHdrSize + srcAddrOff) := hfrom.symm

/-- The frames of the UPF, and what the loops make of them. -/
def upfPlaneNet : List (NetEvent (PlaneEvent listDpdk Unit) (List UInt8)) :=
  .other upfFrame.bytes :: .other echoFrame.bytes :: upfPlane.map .serve

def afterUpfPlaneNet : Option (Net (DataPlane listDpdk Unit) (List UInt8)) :=
  exec (planeNetStep upfLan viewMbufLen cuupClassifiers) (Net.init (DataPlane.init listDpdk Unit))
    upfPlaneNet

theorem plane_reaches_upfPlaneNet : ∃ N, afterUpfPlaneNet = some N ∧
    N.party.answered.length = 1 ∧ ArpTruthful upfLan N.party.host ∧
    ∀ a ∈ N.party.answered, ∃ f hop, Carries a.frame f ∧
      f.ip.dstAddr = RteMbuf.ntohl a.request (etherHdrSize + srcAddrOff) ∧
      Owns upfLan N.party.host.kni.table hop f.dAddr ∧
      (hop = f.ip.dstAddr ∨ ∃ route, pfmRouteQuery a.route f.ip.dstAddr = some route ∧
        hop = route.gatewayAddr) := by
  have hany : (afterUpfPlaneNet.any fun N => N.party.answered.length = 1) = true := by decide
  obtain ⟨N, hN, hanswered⟩ := (Option.any_eq_true _ _).mp hany
  exact ⟨N, hN, of_decide_eq_true hanswered,
    plane_reaches (listHash_accepts _ _ _) (listHash_refusesFull _ _ _) hN⟩

end run

end Pfm
