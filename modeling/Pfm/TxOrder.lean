import Pfm.TxConservation

/-!
# The order in which packets leave

The TX ring is first in, first out, and `tx_loop` sends what it takes out of it link by
link.  The bursts of a KNI go out between those of the ring.

* `TxOrder` : the transmit pipeline, and what went through the ring;
* `tx_in_order` : packets leave in the order in which the ring took them, each on the link
  that it is for.
-/

namespace Pfm

open BoundedLoop StepSystem TxPipeline

variable {D : Dpdk}

/-- The transmit pipeline, the packets the ring took, and those of them that the NICs took,
each with the link of its burst. -/
structure TxOrder (D : Dpdk) where
  tx : TxPipeline D
  rung : List D.mbuf.Mbuf
  left : List (UInt16 × D.mbuf.Mbuf)

def TxOrder.init (D : Dpdk) : TxOrder D := ⟨TxPipeline.init D, [], []⟩

/-- What the ring takes in a step. -/
def ringTakes (S : TxPipeline D) : TxEvent D → List D.mbuf.Mbuf
  | .enqueueBurst => S.retPkts.take (txRingRoom - S.txRing.length)
  | .kniTxArp mbuf => if S.txRing.length < txRingRoom then [mbuf] else []
  | _ => []

/-- What a step from `S` to `S'` transmits of what was in the ring: a burst for the last
link. -/
def ringSends (S S' : TxPipeline D) : TxEvent D → List (UInt16 × D.mbuf.Mbuf)
  | .txPkt _ => (S'.transmitted.drop S.transmitted.length).map (Prod.mk S.lastLinkId)
  | .txLast _ => (S'.transmitted.drop S.transmitted.length).map (Prod.mk S.lastLinkId)
  | _ => []

def txOrderStep (R : TxOrder D) (e : TxEvent D) : Option (TxOrder D) :=
  (txStep R.tx e).map fun S => ⟨S, R.rung ++ ringTakes R.tx e, R.left ++ ringSends R.tx S e⟩

/-- The packets that left. -/
def TxOrder.gone (R : TxOrder D) : List D.mbuf.Mbuf := R.left.map Prod.snd

/-- What the ring took is behind `tx_loop`, in its arrays, or in the ring, in this order;
and `out_pkts` has packets of the last link. -/
structure InOrder (R : TxOrder D) (done : List D.mbuf.Mbuf) : Prop where
  rung : R.rung = done ++ (R.tx.outPkts ++ R.tx.txPkts ++ R.tx.txRing)
  gone : R.gone.Sublist done
  transmitted : R.gone.Sublist R.tx.transmitted
  burst : ∀ pkt ∈ R.tx.outPkts, RteMbuf.port pkt = R.tx.lastLinkId
  link : ∀ sent ∈ R.left, RteMbuf.port sent.2 = sent.1

section order

variable {R : TxOrder D} {done : List D.mbuf.Mbuf} {S : TxPipeline D}

/-- A step of the other loops, which may put packets into the ring. -/
theorem InOrder.takes (h : InOrder R done) (pkts : List D.mbuf.Mbuf)
    (hout : S.outPkts = R.tx.outPkts) (htx : S.txPkts = R.tx.txPkts)
    (hring : S.txRing = R.tx.txRing ++ pkts) (hlink : S.lastLinkId = R.tx.lastLinkId)
    (htransmitted : R.tx.transmitted.Sublist S.transmitted) :
    InOrder ⟨S, R.rung ++ pkts, R.left ++ []⟩ done := by
  rw [List.append_nil]
  refine ⟨?_, h.gone, h.transmitted.trans htransmitted, ?_, h.link⟩
  · rw [hout, htx, hring, h.rung, List.append_assoc, ← List.append_assoc _ R.tx.txRing]
  · rw [hout, hlink]
    exact h.burst

theorem InOrder.others (h : InOrder R done) (hout : S.outPkts = R.tx.outPkts)
    (htx : S.txPkts = R.tx.txPkts) (hring : S.txRing = R.tx.txRing)
    (hlink : S.lastLinkId = R.tx.lastLinkId)
    (htransmitted : R.tx.transmitted.Sublist S.transmitted) :
    InOrder ⟨S, R.rung ++ [], R.left ++ []⟩ done :=
  h.takes [] hout htx (hring.trans (List.append_nil _).symm) hlink htransmitted

/-- Packets go from the ring to the arrays of `tx_loop`, or from one to the other. -/
theorem InOrder.keeps (h : InOrder R done)
    (hlists : S.outPkts ++ S.txPkts ++ S.txRing = R.tx.outPkts ++ R.tx.txPkts ++ R.tx.txRing)
    (htransmitted : S.transmitted = R.tx.transmitted)
    (hburst : ∀ pkt ∈ S.outPkts, RteMbuf.port pkt = S.lastLinkId) :
    InOrder ⟨S, R.rung ++ [], R.left ++ []⟩ done := by
  rw [List.append_nil, List.append_nil]
  refine ⟨?_, h.gone, htransmitted ▸ h.transmitted, hburst, h.link⟩
  rw [hlists]
  exact h.rung

/-- A burst of `out_pkts` is sent. -/
theorem InOrder.sends (h : InOrder R done) (sent : Nat)
    (hlists : S.outPkts ++ S.txPkts ++ S.txRing = R.tx.txPkts ++ R.tx.txRing)
    (htransmitted : S.transmitted = R.tx.transmitted ++ R.tx.outPkts.take sent)
    (hburst : ∀ pkt ∈ S.outPkts, RteMbuf.port pkt = S.lastLinkId) :
    InOrder ⟨S, R.rung ++ [], R.left ++
      (S.transmitted.drop R.tx.transmitted.length).map (Prod.mk R.tx.lastLinkId)⟩
      (done ++ R.tx.outPkts) := by
  have hnew : S.transmitted.drop R.tx.transmitted.length = R.tx.outPkts.take sent := by
    rw [htransmitted, List.drop_left]
  have hgone (l : List D.mbuf.Mbuf) : (R.left ++ l.map (Prod.mk R.tx.lastLinkId)).map Prod.snd =
      R.gone ++ l := by
    rw [List.map_append, List.map_map]
    exact congrArg (R.gone ++ ·) (List.map_id l)
  rw [List.append_nil, hnew]
  refine ⟨?_, ?_, ?_, hburst, fun sent hsent => ?_⟩
  · dsimp only
    rw [hlists, h.rung, List.append_assoc, List.append_assoc]
  · rw [TxOrder.gone, hgone]
    exact h.gone.append (List.take_sublist _ _)
  · rw [TxOrder.gone, hgone]
    dsimp only
    rw [htransmitted]
    exact h.transmitted.append (List.Sublist.refl _)
  · rcases List.mem_append.mp hsent with hold | hnew
    · exact h.link sent hold
    · obtain ⟨pkt, hpkt, rfl⟩ := List.mem_map.mp hnew
      exact h.burst pkt (List.mem_of_mem_take hpkt)

/-- **One step.** -/
theorem InOrder.step (h : InOrder R done) {e : TxEvent D} (hstep : txStep R.tx e = some S) :
    ∃ done', InOrder ⟨S, R.rung ++ ringTakes R.tx e, R.left ++ ringSends R.tx S e⟩ done' := by
  have hrefl := List.Sublist.refl R.tx.transmitted
  cases txStep_outcome hstep with
  | dataFreed | dataQueued | getPktToTx | returnPkt | returnedPkts =>
      exact ⟨done, h.others rfl rfl rfl rfl hrefl⟩
  | enqueueBurst => exact ⟨done, h.takes _ rfl rfl rfl rfl hrefl⟩
  | arpQueued mbuf hroom =>
      rw [ringTakes, if_pos hroom]
      exact ⟨done, h.takes _ rfl rfl rfl rfl hrefl⟩
  | arpFreed mbuf hfull =>
      rw [ringTakes, if_neg hfull]
      exact ⟨done, h.others rfl rfl rfl rfl hrefl⟩
  | kniRead => exact ⟨done, h.others rfl rfl rfl rfl (List.sublist_append_left _ _)⟩
  | dequeueBurst hpkts hout =>
      refine ⟨done, h.keeps ?_ rfl fun pkt hpkt => ?_⟩
      · dsimp only
        rw [hpkts, hout, List.nil_append, List.take_append_drop]
        rfl
      · rw [hout] at hpkt
        cases hpkt
  | @otherLink pkt rest sent hpkts hlink =>
      refine ⟨done ++ R.tx.outPkts, h.sends sent ?_ rfl fun p hp => ?_⟩
      · rw [hpkts]
        rfl
      · obtain rfl := List.mem_singleton.mp hp
        rfl
  | @sameLink pkt rest sent hpkts hlink =>
      -- the packet joins the others of its link
      have hnone : ringSends R.tx { R.tx with txPkts := rest, outPkts := R.tx.outPkts ++ [pkt] }
          (.txPkt sent) = [] := by
        rw [ringSends, List.drop_length]
        rfl
      refine ⟨done, ?_⟩
      rw [hnone]
      refine h.keeps ?_ rfl fun p hp => ?_
      · dsimp only
        rw [hpkts, List.append_assoc R.tx.outPkts]
        rfl
      · rcases List.mem_append.mp hp with hold | hnew
        · exact h.burst p hold
        · obtain rfl := List.mem_singleton.mp hnew
          exact hlink
  | txLast sent hpkts =>
      refine ⟨done ++ R.tx.outPkts, h.sends sent rfl rfl fun p hp => ?_⟩
      cases hp

/-- **Packets leave in order.**  In every run of the loops, in any order of their steps, the
packets that left are, in the order in which they left, among those that the ring took, and
behind them come, in order, those that `tx_loop` has in its arrays and those in the ring.
Each left in a burst for its own link. -/
theorem tx_in_order {es : List (TxEvent D)}
    (hrun : exec txOrderStep (TxOrder.init D) es = some R) :
    (R.gone ++ (R.tx.outPkts ++ R.tx.txPkts ++ R.tx.txRing)).Sublist R.rung ∧
      R.gone.Sublist R.tx.transmitted ∧ ∀ sent ∈ R.left, RteMbuf.port sent.2 = sent.1 := by
  have hinit : InOrder (TxOrder.init D) [] :=
    ⟨rfl, List.Sublist.refl _, List.Sublist.refl _, fun _ h => absurd h List.not_mem_nil,
      fun _ h => absurd h List.not_mem_nil⟩
  obtain ⟨done, h⟩ : ∃ done, InOrder R done := by
    refine @exec_invariant _ _ txOrderStep (fun R : TxOrder D => ∃ done, InOrder R done)
      (fun R e R' hinv hstep => ?_) es _ R ⟨[], hinit⟩ hrun
    obtain ⟨done, h⟩ := hinv
    obtain ⟨S, htx, rfl⟩ := Option.map_eq_some_iff.mp hstep
    exact h.step htx
  refine ⟨?_, h.transmitted, h.link⟩
  rw [h.rung]
  exact h.gone.append (List.Sublist.refl _)

/-- Two ARP requests, of which one has left. -/
def twoRequests : List (TxEvent listDpdk) :=
  [.kniTxArp shortMbuf, .dequeueBurst, .txPkt 0, .kniTxArp shortMbuf, .txLast 1]

def afterTwoRequests : Option (TxOrder listDpdk) :=
  exec txOrderStep (TxOrder.init listDpdk) twoRequests

theorem tx_in_order_twoRequests : ∃ R, afterTwoRequests = some R ∧ R.left.length = 1 ∧
    (R.gone ++ (R.tx.outPkts ++ R.tx.txPkts ++ R.tx.txRing)).Sublist R.rung ∧
    R.gone.Sublist R.tx.transmitted ∧ ∀ sent ∈ R.left, RteMbuf.port sent.2 = sent.1 := by
  have hany : (afterTwoRequests.any fun R => R.left.length = 1) = true := by decide
  obtain ⟨R, hR, hleft⟩ := (Option.any_eq_true _ _).mp hany
  exact ⟨R, hR, of_decide_eq_true hleft, tx_in_order hR⟩

end order

end Pfm
