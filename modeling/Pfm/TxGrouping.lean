import Pfm.TxPipeline

/-!
# Bursts by link

`tx_loop` of `pfm_tx_loop.c` with what it dequeued from the TX ring: packets for one
link after the other go out in one call of `tx_burst`, which frees what the NIC does
not take.

* `TxLoop.Groups` : the calls made so far and the packets held back are the packets
  seen so far, by link;
* `txLoop_groups` : the calls for a whole burst;
* `txStep_txPkt_eq` : a turn of the loop is a step of the pipeline.
-/

namespace Pfm

variable {D : Dpdk} {M : RteMbuf}

/-- The loop of `tx_burst` that frees the packets from an index on. -/
def burstFreed (pkts : List M.Mbuf) (txPkts : Nat) : List M.Mbuf :=
  if h : txPkts < pkts.length then pkts[txPkts] :: burstFreed pkts (txPkts + 1) else []
termination_by pkts.length - txPkts

/-- `last_link_id`, the `out_count` packets in `out_pkts`, and the calls of `tx_burst`
so far. -/
structure TxLoop (M : RteMbuf) where
  lastLinkId : Int
  outPkts : List M.Mbuf
  bursts : List (Int × List M.Mbuf)

/-- `tx_pkts[next_pkt_idx]->port`. -/
abbrev linkIdOf (pkt : M.Mbuf) : Int := (RteMbuf.port pkt).toNat

/-- The next packet, `none` for a store behind `out_pkts`. -/
def txLoopTurn (S : TxLoop M) (pkt : M.Mbuf) : Option (TxLoop M) :=
  let linkId := linkIdOf pkt
  let S : TxLoop M :=
    if linkId ≠ S.lastLinkId then ⟨linkId, [], S.bursts ++ [(S.lastLinkId, S.outPkts)]⟩ else S
  if S.outPkts.length < txBurstSize then some { S with outPkts := S.outPkts ++ [pkt] } else none

/-- The calls of `tx_burst` for what was dequeued. -/
def txLoopBursts : List M.Mbuf → Option (List (Int × List M.Mbuf))
  | [] => some []
  | pkt :: txPkts => do
      let S ← (pkt :: txPkts).foldlM txLoopTurn ⟨linkIdOf pkt, [], []⟩
      some (if 0 < S.outPkts.length then S.bursts ++ [(S.lastLinkId, S.outPkts)] else S.bursts)

theorem nil_length_lt : ([] : List M.Mbuf).length < txBurstSize :=
  show 0 < txBurstSize by decide

/-! ### One call of `tx_burst` -/

theorem burstFreed_eq (pkts : List M.Mbuf) (txPkts : Nat) :
    burstFreed pkts txPkts = pkts.drop txPkts := by
  fun_induction burstFreed pkts txPkts with
  | case1 txPkts h ih => rw [ih, List.drop_eq_getElem_cons h]
  | case2 txPkts h => rw [List.drop_of_length_le (Nat.not_lt.mp h)]

/-- `tx_burst` frees what the NIC does not take of a burst. -/
theorem txBurst_freed (S : TxPipeline D) (pkts : List D.mbuf.Mbuf) (sent : Nat) :
    (txBurst S pkts sent).freed = S.freed ++ burstFreed pkts sent := by
  rw [burstFreed_eq]
  rfl

/-! ### The loop -/

/-- A call of `tx_burst` with packets for its link. -/
def IsGroup (burst : Int × List M.Mbuf) : Prop :=
  burst.2 ≠ [] ∧ ∀ pkt ∈ burst.2, linkIdOf pkt = burst.1

/-- The packets of the calls, in order. -/
def sentIn (bursts : List (Int × List M.Mbuf)) : List M.Mbuf := (bursts.map Prod.snd).flatten

/-- The packets seen are those of the calls and those held back, each with its own
link. -/
structure TxLoop.Groups (S : TxLoop M) (seen : List M.Mbuf) : Prop where
  seen_eq : sentIn S.bursts ++ S.outPkts = seen
  bursts : ∀ burst ∈ S.bursts, IsGroup burst
  out : IsGroup (S.lastLinkId, S.outPkts)

theorem sentIn_concat (bursts : List (Int × List M.Mbuf)) (burst : Int × List M.Mbuf) :
    sentIn (bursts ++ [burst]) = sentIn bursts ++ burst.2 := by
  simp [sentIn]

/-- One packet more. -/
theorem TxLoop.Groups.turn {S : TxLoop M} {seen : List M.Mbuf} (h : S.Groups seen)
    (pkt : M.Mbuf) (hroom : seen.length < txBurstSize) :
    ∃ S', txLoopTurn S pkt = some S' ∧ S'.Groups (seen ++ [pkt]) := by
  unfold txLoopTurn
  dsimp only
  by_cases hlink : linkIdOf pkt = S.lastLinkId
  · have hlen : S.outPkts.length < txBurstSize := by
      have := congrArg List.length h.seen_eq
      rw [List.length_append] at this
      omega
    rw [if_neg (not_not.mpr hlink), if_pos hlen]
    refine ⟨_, rfl, ?_, h.bursts, ?_, ?_⟩
    · rw [← h.seen_eq, List.append_assoc]
    · exact List.append_ne_nil_of_right_ne_nil _ (List.cons_ne_nil _ _)
    · intro p hp
      rcases List.mem_append.mp hp with hp | hp
      · exact h.out.2 p hp
      · rw [List.mem_singleton.mp hp]
        exact hlink
  · rw [if_pos hlink, if_pos nil_length_lt]
    refine ⟨_, rfl, ?_, ?_, ?_, ?_⟩
    · rw [sentIn_concat, h.seen_eq]
      rfl
    · intro burst hburst
      rcases List.mem_append.mp hburst with hburst | hburst
      · exact h.bursts burst hburst
      · rw [List.mem_singleton.mp hburst]
        exact h.out
    · exact List.cons_ne_nil _ _
    · intro p hp
      rw [List.mem_singleton.mp hp]

/-- The packets behind those seen. -/
theorem TxLoop.Groups.rest {S : TxLoop M} {seen : List M.Mbuf} (h : S.Groups seen)
    (rest : List M.Mbuf) (hroom : seen.length + rest.length ≤ txBurstSize) :
    ∃ S', rest.foldlM txLoopTurn S = some S' ∧ S'.Groups (seen ++ rest) := by
  induction rest generalizing S seen with
  | nil => exact ⟨S, rfl, by rwa [List.append_nil]⟩
  | cons pkt rest ih =>
      rw [List.length_cons] at hroom
      obtain ⟨S₁, hturn, h₁⟩ := h.turn pkt (by omega)
      obtain ⟨S', hrest, h'⟩ := ih h₁ (by rw [List.length_append, List.length_singleton]; omega)
      refine ⟨S', ?_, by rwa [List.append_assoc] at h'⟩
      rw [List.foldlM_cons, hturn]
      exact hrest

/-- The first packet has the link the loop starts with. -/
theorem txLoopTurn_first (pkt : M.Mbuf) :
    txLoopTurn ⟨linkIdOf pkt, [], []⟩ pkt = some ⟨linkIdOf pkt, [pkt], []⟩ := by
  unfold txLoopTurn
  dsimp only
  rw [if_neg (not_not.mpr rfl), if_pos nil_length_lt]
  rfl

/-- **A burst.**  The calls of `tx_burst` have the packets of the burst in order, each
call some for its own link; of each call the packets that the NIC does not take, and
no others, are freed once. -/
theorem txLoop_groups {txPkts : List M.Mbuf} (hlen : txPkts.length ≤ txBurstSize) :
    ∃ bursts, txLoopBursts txPkts = some bursts ∧ sentIn bursts = txPkts ∧
      (∀ burst ∈ bursts, IsGroup burst) ∧
      ∀ (pkts : List M.Mbuf) (sent : Nat),
        pkts.take sent ++ burstFreed pkts sent = pkts ∧
        (pkts.Nodup → ∀ pkt ∈ pkts.take sent, pkt ∉ burstFreed pkts sent) := by
  have hfreed (pkts : List M.Mbuf) (sent : Nat) :
      pkts.take sent ++ burstFreed pkts sent = pkts ∧
        (pkts.Nodup → ∀ pkt ∈ pkts.take sent, pkt ∉ burstFreed pkts sent) := by
    rw [burstFreed_eq]
    refine ⟨List.take_append_drop sent pkts, fun hnodup pkt htake hdrop => ?_⟩
    exact List.disjoint_take_drop hnodup (Nat.le_refl sent) htake hdrop
  cases txPkts with
  | nil => exact ⟨[], rfl, rfl, nofun, hfreed⟩
  | cons pkt txPkts =>
      have hfirst : TxLoop.Groups ⟨linkIdOf pkt, [pkt], []⟩ [pkt] :=
        ⟨rfl, nofun, List.cons_ne_nil _ _, fun p hp => by rw [List.mem_singleton.mp hp]⟩
      obtain ⟨S, hrun, h⟩ := hfirst.rest txPkts (by rw [List.length_cons] at hlen; simp; omega)
      refine ⟨S.bursts ++ [(S.lastLinkId, S.outPkts)], ?_, ?_, ?_, hfreed⟩
      · rw [txLoopBursts, List.foldlM_cons, txLoopTurn_first]
        change (txPkts.foldlM txLoopTurn _).bind _ = _
        rw [hrun, Option.bind_some, if_pos (List.length_pos_iff.mpr h.out.1)]
      · rw [sentIn_concat, h.seen_eq]
        rfl
      · intro burst hburst
        rcases List.mem_append.mp hburst with hburst | hburst
        · exact h.bursts burst hburst
        · rw [List.mem_singleton.mp hburst]
          exact h.out

/-- An empty packet for a link. -/
def emptyPktOn (link : UInt16) : viewMbuf.Mbuf :=
  ⟨{ mtod := pageSize
     headroom := 0
     dataLen := 0
     tailroom := 0
     byte := fun _ => 0
     chained := []
     port := link
     olFlags := 0 }, Nat.le_refl pageSize⟩

theorem txLoop_groups_emptyPkts :
    ∃ bursts, txLoopBursts [emptyPktOn 1, emptyPktOn 1, emptyPktOn 0] = some bursts ∧
      sentIn bursts = [emptyPktOn 1, emptyPktOn 1, emptyPktOn 0] ∧
      (∀ burst ∈ bursts, IsGroup burst) ∧
      ∀ (pkts : List viewMbuf.Mbuf) (sent : Nat),
        pkts.take sent ++ burstFreed pkts sent = pkts ∧
        (pkts.Nodup → ∀ pkt ∈ pkts.take sent, pkt ∉ burstFreed pkts sent) :=
  txLoop_groups (show 3 ≤ txBurstSize by decide)

/-- The turn of the loop is what the pipeline does with the next packet. -/
theorem txStep_txPkt_eq {S : TxPipeline D} {pkt : D.mbuf.Mbuf} {rest : List D.mbuf.Mbuf}
    (h : S.txPkts = pkt :: rest) (sent : Nat) {T : TxLoop D.mbuf}
    (hturn : txLoopTurn ⟨S.lastLinkId.toNat, S.outPkts, []⟩ pkt = some T) :
    ∃ S', txStep S (.txPkt sent) = some S' ∧ S'.txPkts = rest ∧ S'.outPkts = T.outPkts ∧
      (S'.lastLinkId.toNat : Int) = T.lastLinkId ∧
      S'.transmitted = S.transmitted ++ T.bursts.flatMap (fun burst => burst.2.take sent) ∧
      S'.freed = S.freed ++ T.bursts.flatMap (fun burst => burstFreed burst.2 sent) := by
  have hports {a b : UInt16} : ((a.toNat : Int) = b.toNat) ↔ a = b := by
    rw [Int.ofNat_inj, UInt16.toNat_inj]
  unfold txLoopTurn at hturn
  dsimp only at hturn
  unfold txStep
  rw [h]
  dsimp only
  by_cases hlink : RteMbuf.port pkt = S.lastLinkId
  · rw [if_neg (not_not.mpr (hports.mpr hlink))] at hturn
    rw [if_neg (not_not.mpr hlink)]
    split at hturn
    · obtain rfl := Option.some.inj hturn
      exact ⟨_, rfl, rfl, rfl, rfl, (List.append_nil _).symm, (List.append_nil _).symm⟩
    · cases hturn
  · rw [if_pos (fun heq => hlink (hports.mp heq)), if_pos nil_length_lt] at hturn
    rw [if_pos hlink]
    obtain rfl := Option.some.inj hturn
    refine ⟨_, rfl, rfl, rfl, rfl, ?_, ?_⟩
    · exact congrArg (S.transmitted ++ ·) (List.append_nil _).symm
    · exact (txBurst_freed S S.outPkts sent).trans
        (congrArg (S.freed ++ ·) (List.append_nil _).symm)

end Pfm
