import Pfm.ArpHistory
import Pfm.FrameAgreement
import Pfm.RouteHistory

/-!
# The link a packet leaves on

`pfm_data_req` sends a packet on the link stored with its next hop.  A reply does not
store the link it came in on, so every row has the link it was zeroed with, and the
packet leaves on the right link only when that is link 0.
-/

namespace Pfm

open BoundedLoop StepSystem

variable {D : Dpdk}

/-- The address whose ARP entry is used for `ip`: its own, or its gateway's. -/
def nextHopAddr (arp : ArpTable D) (route : RouteTable D) (ip : PfmIpAddr) :
    Option PfmIpAddr :=
  if (pfmArpQuery arp ip).isSome then some ip
  else
    match pfmRouteQuery route ip with
    | some routeEntry =>
        if (pfmArpQuery arp routeEntry.gatewayAddr).isSome then some routeEntry.gatewayAddr
        else none
    | none => none

theorem nextHop_eq_some {arp : ArpTable D} {route : RouteTable D} {ip : PfmIpAddr}
    {e : PfmArpEntry} (h : nextHop arp route ip = some e) :
    ∃ hop, nextHopAddr arp route ip = some hop ∧ pfmArpQuery arp hop = some e := by
  unfold nextHop at h
  unfold nextHopAddr
  cases harp : pfmArpQuery arp ip with
  | some own =>
      simp only [harp] at h
      obtain rfl := Option.some.inj h
      exact ⟨ip, by simp, harp⟩
  | none =>
      simp only [harp] at h
      cases hroute : pfmRouteQuery route ip with
      | none => simp [hroute] at h
      | some routeEntry =>
          simp only [hroute] at h
          exact ⟨routeEntry.gatewayAddr, by simp [h], h⟩

/-- The port of a packet that is queued is the link of its next hop. -/
theorem pfmDataReq_queued {t : LinkTables D} {lcoreId : Nat} {wkr wkr' : WorkerInfo D.mbuf}
    {localIpAddr remoteIpAddr : PfmIpAddr} {protocol : PfmProtocol}
    {localPortNo remotePortNo : Int} {mbuf frame : D.mbuf.Mbuf}
    (h : pfmDataReq t lcoreId wkr localIpAddr remoteIpAddr protocol localPortNo remotePortNo
      mbuf = .queued frame wkr') :
    ∃ hop e, nextHopAddr t.arp t.route remoteIpAddr = some hop ∧
      pfmArpQuery t.arp hop = some e ∧ RteMbuf.port frame = e.linkId := by
  obtain ⟨_, _, linkId, _, _, hdst, _, _, rfl, _⟩ := pfmDataReq_frame h
  obtain ⟨e, hhop, hpair⟩ := Option.map_eq_some_iff.mp hdst
  obtain ⟨_, rfl⟩ := Prod.mk.inj hpair
  obtain ⟨hop, haddr, hquery⟩ := nextHop_eq_some hhop
  refine ⟨hop, e, haddr, hquery, ?_⟩
  rw [RteMbuf.port, D.mbuf.view_orOlFlags, D.mbuf.view_setPort]

/-! ### Runs -/

/-- The tables a next hop is found in, and the link of the last reply of every
address. -/
structure LinkRun (D : Dpdk) where
  arp : ArpRun D
  route : RouteRun D
  lastLink : PfmIpAddr → Option UInt16

/-- Program start. -/
def LinkRun.init (D : Dpdk) : LinkRun D := ⟨ArpRun.init D, RouteRun.init D, fun _ => none⟩

/-- Something happens to the ARP table, or a route is added. -/
inductive LinkEvent (D : Dpdk) where
  | arp (e : ArpEvent D)
  | route (e : RouteEvent)

/-- The links known after an event: a reply tells the link it came in on. -/
def ArpEvent.learn (lastLink : PfmIpAddr → Option UInt16) :
    ArpEvent D → PfmIpAddr → Option UInt16
  | .reply _ pkt linkId => Function.update lastLink (arpSenderIp pkt) (some linkId)
  | .expiry _ _ => lastLink

def linkStep (R : LinkRun D) : LinkEvent D → Option (LinkRun D)
  | .arp e => do
      let arp ← arpStep R.arp e
      some { R with arp := arp, lastLink := e.learn R.lastLink }
  | .route e => do
      let route ← routeStep R.route e
      some { R with route := route }

/-- Every row has the link it was zeroed with. -/
def ArpState.Unlinked (S : ArpState D) : Prop :=
  ∀ r, (S.table.arpTable r).linkId = 0

theorem ArpState.Unlinked.setRow {S : ArpState D} (h : S.Unlinked)
    {r : Fin pfmArpTableEntries} {e : PfmArpEntry} (he : e.linkId = 0) :
    (S.setRow r e).Unlinked := by
  intro r'
  change (Function.update S.table.arpTable r e r').linkId = 0
  by_cases hr : r' = r
  · subst hr
    rw [Function.update_self]
    exact he
  · rw [Function.update_of_ne hr]
    exact h r'

theorem arpInit_unlinked {S : ArpState D} (h : S.Unlinked) (lib : ArpLib) :
    (arpInit lib S).2.Unlinked := by
  unfold arpInit
  split
  · split
    · exact h
    · exact h
  · exact h

theorem arpReplyFill_unlinked {S S' : ArpState D} (h : S.Unlinked) {pkt : D.mbuf.Mbuf}
    {ret : Int} (hfill : arpReplyFill S pkt = some (ret, S')) : S'.Unlinked := by
  unfold arpReplyFill at hfill
  dsimp only at hfill
  split at hfill
  · obtain ⟨_, rfl⟩ := Prod.mk.inj (Option.some.inj hfill)
    exact h
  · obtain ⟨r, _, hset⟩ := Option.bind_eq_some_iff.mp hfill
    obtain ⟨_, rfl⟩ := Prod.mk.inj (Option.some.inj hset)
    exact ArpState.Unlinked.setRow h (h r)

/-- A reply fills its row in, all but the link. -/
theorem pfmArpProcessReply_unlinked {S S' : ArpState D} (h : S.Unlinked) {lib : ArpLib}
    {pkt : D.mbuf.Mbuf} {linkId : UInt16} {ret : Int}
    (hrun : pfmArpProcessReply lib S pkt linkId = some (ret, S')) : S'.Unlinked := by
  unfold pfmArpProcessReply at hrun
  dsimp only at hrun
  split at hrun
  · exact arpReplyFill_unlinked h hrun
  · split at hrun
    · obtain ⟨_, rfl⟩ := Prod.mk.inj (Option.some.inj hrun)
      exact arpInit_unlinked h lib
    · exact arpReplyFill_unlinked (arpInit_unlinked h lib) hrun

theorem refreshCallback_unlinked {S : ArpState D} (h : S.Unlinked) (kni : KniTable)
    (r : Fin pfmArpTableEntries) : (refreshCallback kni S r).2.Unlinked := by
  unfold refreshCallback
  dsimp only
  split
  · exact ArpState.Unlinked.setRow h (h r)
  · exact ArpState.Unlinked.setRow h rfl

/-- No row has a link, and every address with an accepted reply has a link it was
learned on. -/
structure LinkInv (R : LinkRun D) : Prop where
  arp : ArpInv R.arp
  unlinked : R.arp.state.Unlinked
  learned : ∀ ip, (R.arp.last ip).isSome = true → (R.lastLink ip).isSome = true

theorem LinkInv.init : LinkInv (LinkRun.init D) where
  arp := ArpInv.init
  unlinked _ := rfl
  learned _ h := by cases h

theorem arpStep_unlinked {R R' : ArpRun D} {e : ArpEvent D} (h : R.state.Unlinked)
    (hstep : arpStep R e = some R') : R'.state.Unlinked := by
  cases e with
  | reply lib pkt linkId =>
      obtain ⟨⟨ret, S'⟩, hrun, hR'⟩ := Option.bind_eq_some_iff.mp hstep
      obtain rfl := Option.some.inj hR'
      exact pfmArpProcessReply_unlinked h hrun
  | expiry kni r =>
      simp only [arpStep] at hstep
      split at hstep
      · obtain rfl := Option.some.inj hstep
        exact refreshCallback_unlinked h kni r
      · cases hstep

/-- An address gets a record with a reply, and then its link is known. -/
theorem arpStep_learned {R R' : ArpRun D} {e : ArpEvent D} {lastLink : PfmIpAddr → Option UInt16}
    (h : ∀ ip, (R.last ip).isSome = true → (lastLink ip).isSome = true)
    (hstep : arpStep R e = some R') (ip : PfmIpAddr) (hip : (R'.last ip).isSome = true) :
    (e.learn lastLink ip).isSome = true := by
  cases e with
  | reply lib pkt linkId =>
      obtain ⟨⟨ret, S'⟩, hrun, hR'⟩ := Option.bind_eq_some_iff.mp hstep
      obtain rfl := Option.some.inj hR'
      rw [ArpEvent.learn]
      by_cases hsender : ip = arpSenderIp pkt
      · subst hsender
        simp
      · rw [Function.update_of_ne hsender]
        apply h
        dsimp only at hip
        split at hip
        · rwa [Function.update_of_ne hsender] at hip
        · exact hip
  | expiry kni r =>
      simp only [arpStep] at hstep
      split at hstep
      · obtain rfl := Option.some.inj hstep
        apply h
        by_cases hown : ip = (R.state.table.arpTable r).dstIpAddr
        · subst hown
          simpa using hip
        · dsimp only at hip
          rwa [Function.update_of_ne hown] at hip
      · cases hstep

theorem LinkInv.step (hacc : D.arpHash.Accepts) (hfull : D.arpHash.RefusesFull)
    {R R' : LinkRun D} {e : LinkEvent D} (h : LinkInv R) (hstep : linkStep R e = some R') :
    LinkInv R' := by
  cases e with
  | arp e =>
      obtain ⟨arp, harp, hR'⟩ := Option.bind_eq_some_iff.mp hstep
      obtain rfl := Option.some.inj hR'
      exact ⟨h.arp.step hacc hfull harp, arpStep_unlinked h.unlinked harp,
        arpStep_learned h.learned harp⟩
  | route e =>
      obtain ⟨route, _, hR'⟩ := Option.bind_eq_some_iff.mp hstep
      obtain rfl := Option.some.inj hR'
      exact ⟨h.arp, h.unlinked, h.learned⟩

/-- The tables a packet is sent with. -/
def LinkRun.tables (R : LinkRun D) (kni : KniTable) : LinkTables D :=
  ⟨kni, R.arp.state.table, R.route.state.table⟩

/-- The port of the packet is the link its next hop was learned on. -/
def PortLearned (R : LinkRun D) (remoteIpAddr : PfmIpAddr) (frame : D.mbuf.Mbuf) : Prop :=
  ∃ hop, nextHopAddr R.arp.state.table R.route.state.table remoteIpAddr = some hop ∧
    R.lastLink hop = some (RteMbuf.port frame)

/-- The most recent reply of the next hop came in on link 0. -/
def LearnedOnLinkZero (R : LinkRun D) (remoteIpAddr : PfmIpAddr) : Prop :=
  ∃ hop, nextHopAddr R.arp.state.table R.route.state.table remoteIpAddr = some hop ∧
    R.lastLink hop = some 0

/-- Whatever happened before, a packet leaves on link 0. -/
theorem LinkInv.port {R : LinkRun D} (h : LinkInv R) {kni : KniTable} {lcoreId : Nat}
    {wkr wkr' : WorkerInfo D.mbuf} {localIpAddr remoteIpAddr : PfmIpAddr}
    {protocol : PfmProtocol} {localPortNo remotePortNo : Int} {mbuf frame : D.mbuf.Mbuf}
    (hq : pfmDataReq (R.tables kni) lcoreId wkr localIpAddr remoteIpAddr protocol localPortNo
      remotePortNo mbuf = .queued frame wkr') : RteMbuf.port frame = 0 := by
  obtain ⟨hop, e, _, hquery, hport⟩ := pfmDataReq_queued hq
  rw [hport]
  change pfmArpQuery R.arp.state.table hop = some e at hquery
  rw [pfmArpQuery_eq] at hquery
  obtain ⟨r, _, rfl⟩ := Option.map_eq_some_iff.mp hquery
  exact h.unlinked r

/-- **Learned links.**  After any replies, expiries and route additions, a packet that
is queued leaves on the link its next hop was learned on exactly when that is link 0. -/
theorem port_learned_iff (hacc : D.arpHash.Accepts) (hfull : D.arpHash.RefusesFull)
    {events : List (LinkEvent D)} {R : LinkRun D}
    (hrun : exec linkStep (LinkRun.init D) events = some R) {kni : KniTable} {lcoreId : Nat}
    {wkr wkr' : WorkerInfo D.mbuf} {localIpAddr remoteIpAddr : PfmIpAddr}
    {protocol : PfmProtocol} {localPortNo remotePortNo : Int} {mbuf frame : D.mbuf.Mbuf}
    (hq : pfmDataReq (R.tables kni) lcoreId wkr localIpAddr remoteIpAddr protocol localPortNo
      remotePortNo mbuf = .queued frame wkr') :
    (∃ hop link, nextHopAddr R.arp.state.table R.route.state.table remoteIpAddr = some hop ∧
      R.lastLink hop = some link) ∧
    (PortLearned R remoteIpAddr frame ↔ LearnedOnLinkZero R remoteIpAddr) := by
  have hinv : LinkInv R :=
    exec_invariant (fun _ _ _ hinv hstep => hinv.step hacc hfull hstep) LinkInv.init hrun
  have hport := hinv.port hq
  obtain ⟨hop, e, haddr, hquery, _⟩ := pfmDataReq_queued hq
  constructor
  · have hpresent : (pfmArpQuery R.arp.state.table hop).isSome = true := by
      change pfmArpQuery R.arp.state.table hop = some e at hquery
      rw [hquery]
      rfl
    obtain ⟨rec, hlast, _⟩ := ((hinv.arp.answers hacc hfull).present hop).mp hpresent
    obtain ⟨link, hlink⟩ := Option.isSome_iff_exists.mp (hinv.learned hop (by simp [hlast]))
    exact ⟨hop, link, haddr, hlink⟩
  · rw [PortLearned, LearnedOnLinkZero, hport]

/-- The UPF answers on link 3. -/
def upfReplyEvents : List (LinkEvent listDpdk) := [.arp (.reply .ok upfReply 3)]

/-- A packet to the UPF is queued then. -/
theorem upfReplyEvents_queued :
    ∃ R frame, exec linkStep (LinkRun.init listDpdk) upfReplyEvents = some R ∧
      nextHopAddr R.arp.state.table R.route.state.table upfIp = some upfIp ∧
      R.lastLink upfIp = some 3 ∧
      pfmDataReq (R.tables peerLinks.kni) 4 idleWorker cuupIp upfIp .udp 2152 2152 shortMbuf =
        .queued frame (queuePktToTx idleWorker frame) := by
  have hresolved : ((exec linkStep (LinkRun.init listDpdk) upfReplyEvents).bind fun R =>
      dstMacAddrGet (R.tables peerLinks.kni) upfIp).isSome = true := by decide
  have hhop : ((exec linkStep (LinkRun.init listDpdk) upfReplyEvents).bind fun R =>
      nextHopAddr R.arp.state.table R.route.state.table upfIp) = some upfIp := by decide
  have hlink : ((exec linkStep (LinkRun.init listDpdk) upfReplyEvents).bind fun R =>
      R.lastLink upfIp) = some 3 := by decide
  obtain ⟨⟨dmac, linkId⟩, hbind⟩ := Option.isSome_iff_exists.mp hresolved
  obtain ⟨R, hR, hdst⟩ := Option.bind_eq_some_iff.mp hbind
  rw [hR] at hhop hlink
  have hroom : udpFrameHdrSize ≤ RteMbuf.headroom shortMbuf := by decide
  have hsrc : srcMacAddrGet (R.tables peerLinks.kni) cuupIp = some fun _ => 2 := rfl
  obtain ⟨frame, _, hframe, _⟩ := pfmDataReq_carries (R.tables peerLinks.kni) 4 idleWorker .udp
    2152 2152 hroom hsrc hdst
  exact ⟨R, frame, hR, hhop, hlink, hframe⟩

theorem port_learned_iff_upfReply :
    ∃ R frame, exec linkStep (LinkRun.init listDpdk) upfReplyEvents = some R ∧
      (PortLearned R upfIp frame ↔ LearnedOnLinkZero R upfIp) := by
  obtain ⟨R, frame, hR, _, _, hq⟩ := upfReplyEvents_queued
  exact ⟨R, frame, hR, (port_learned_iff (listHash_accepts _ _ _) (listHash_refusesFull _ _ _)
    hR hq).2⟩

/-- The UPF is known from link 3 only, and its packets leave on link 0. -/
theorem upfReply_port_not_learned :
    ∃ R frame, exec linkStep (LinkRun.init listDpdk) upfReplyEvents = some R ∧
      nextHopAddr R.arp.state.table R.route.state.table upfIp = some upfIp ∧
      R.lastLink upfIp = some 3 ∧
      pfmDataReq (R.tables peerLinks.kni) 4 idleWorker cuupIp upfIp .udp 2152 2152 shortMbuf =
        .queued frame (queuePktToTx idleWorker frame) ∧
      RteMbuf.port frame = 0 ∧ ¬ PortLearned R upfIp frame := by
  obtain ⟨R, frame, hR, hhop, hlink, hq⟩ := upfReplyEvents_queued
  have hinv : LinkInv R :=
    exec_invariant (fun _ _ _ hinv hstep => hinv.step (listHash_accepts _ _ _)
      (listHash_refusesFull _ _ _) hstep) LinkInv.init hR
  have hport : RteMbuf.port frame = 0 := hinv.port hq
  refine ⟨R, frame, hR, hhop, hlink, hq, hport, fun hlearned => ?_⟩
  obtain ⟨hop, haddr, hl⟩ := hlearned
  rw [hhop] at haddr
  obtain rfl := Option.some.inj haddr
  rw [hlink, hport] at hl
  exact absurd (Option.some.inj hl) (by decide)

end Pfm
