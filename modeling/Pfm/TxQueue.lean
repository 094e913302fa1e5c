import Pfm.TxConservation
import Pfm.TxGrouping

/-!
# The transmit queue of a worker

`queue_pkt_to_tx` and `get_pkt_to_tx` of `pfm_worker_loop.c` with their cursors as the
integers they are, and the turns of `worker_loop` around them.

* `TxQueue.waiting` is the queue as a list; the two functions are `++ [pkt]` and
  `take` and `drop` on it;
* `TxQueueInv` : the cursors stay in the array, and what was accepted is what was
  returned and what waits, in order;
* `txQueue_fifo` : every run of the two functions, and every run of `worker_loop`.
-/

namespace Pfm

open BoundedLoop CircularScan CircularQueue StepSystem

variable {M : RteMbuf}

/-- The queue in `worker_info_t`. -/
structure TxQueue (M : RteMbuf) where
  txQueue : CArray txQueueSize (Option M.Mbuf)
  txQueueHead : Int
  txQueueTail : Int

namespace TxQueue

/-- `++` of a cursor that goes back to 0 behind the array. -/
def next (cursor : Int) : Int := if txQueueSize = cursor + 1 then 0 else cursor + 1

/-- `queue_pkt_to_tx`, and whether the packet was taken; `none` for a store outside
the array. -/
def queuePktToTx (q : TxQueue M) (txPkts : M.Mbuf) : Option (Bool × TxQueue M) := do
  let lastTxQueueHead := q.txQueueHead
  let slot ← CArray.index? txQueueSize q.txQueueHead
  let q := { q with
    txQueue := Function.update q.txQueue slot (some txPkts)
    txQueueHead := next q.txQueueHead }
  if q.txQueueHead = q.txQueueTail then
    some (false, { q with txQueueHead := lastTxQueueHead })
  else some (true, q)

/-- The loop of `get_pkt_to_tx` with `txSz` packets taken, `none` for a read outside
the array or of an empty slot. -/
def getFrom : Nat → TxQueue M → Int → Int → Option (List M.Mbuf × TxQueue M)
  | 0, _, _, _ => none
  | fuel + 1, q, txSz, maxPkt =>
      if q.txQueueHead ≠ q.txQueueTail then
        if txSz ≥ maxPkt then some ([], q)
        else do
          let slot ← CArray.index? txQueueSize q.txQueueTail
          let pkt ← q.txQueue slot
          let (txPkts, q) ←
            getFrom fuel { q with txQueueTail := next q.txQueueTail } (txSz + 1) maxPkt
          some (pkt :: txPkts, q)
      else some ([], q)

/-- `get_pkt_to_tx`.  The tail meets the head before it is back where it was. -/
def getPktToTx (q : TxQueue M) (maxPkt : Int) : Option (List M.Mbuf × TxQueue M) :=
  getFrom txQueueSize q 0 maxPkt

/-- The packets from the tail to the head. -/
def waiting (q : TxQueue M) : List M.Mbuf :=
  (List.range ((q.txQueueHead - q.txQueueTail) % txQueueSize).toNat).filterMap fun i : Nat =>
    (CArray.index? txQueueSize ((q.txQueueTail + i) % txQueueSize)).bind q.txQueue

/-- Both cursors are in the array. -/
def InArray (q : TxQueue M) : Prop :=
  (0 ≤ q.txQueueHead ∧ q.txQueueHead < txQueueSize) ∧
    0 ≤ q.txQueueTail ∧ q.txQueueTail < txQueueSize

end TxQueue

/-- The queue of a worker, with its cursors as integers. -/
def WorkerInfo.rawQueue (w : WorkerInfo M) : TxQueue M :=
  ⟨w.txQueue, w.txQueueHead.val, w.txQueueTail.val⟩

namespace WorkerInfo

theorem rawQueue_inArray (w : WorkerInfo M) : w.rawQueue.InArray :=
  ⟨⟨Int.natCast_nonneg _, Int.ofNat_lt.mpr w.txQueueHead.isLt⟩,
    Int.natCast_nonneg _, Int.ofNat_lt.mpr w.txQueueTail.isLt⟩

theorem next_val (c : Fin txQueueSize) : TxQueue.next c.val = (ahead c 1).val := by
  have hlt : c.val < 32 := c.isLt
  simp only [TxQueue.next, ahead, txQueueSize]
  split <;> omega

theorem waiting_rawQueue (w : WorkerInfo M) : w.rawQueue.waiting = w.queued := by
  have hhead : w.txQueueHead.val < 32 := w.txQueueHead.isLt
  have htail : w.txQueueTail.val < 32 := w.txQueueTail.isLt
  have hdist : ((w.rawQueue.txQueueHead - w.rawQueue.txQueueTail) % txQueueSize).toNat =
      dist w.txQueueTail w.txQueueHead := by
    simp only [rawQueue, CircularScan.dist, txQueueSize]
    omega
  rw [TxQueue.waiting, hdist, queued, contents]
  apply List.filterMap_congr
  intro i _
  have hslot : (w.rawQueue.txQueueTail + i) % txQueueSize = (ahead w.txQueueTail i).val := by
    simp only [rawQueue, ahead, txQueueSize]
    omega
  rw [CArray.index?_of_val hslot, Option.bind_some]
  rfl

/-- The integer cursors do what the cursors of a worker do. -/
theorem queuePktToTx_rawQueue (w : WorkerInfo M) (pkt : M.Mbuf) :
    w.rawQueue.queuePktToTx pkt =
      some (!decide w.Full, (Pfm.queuePktToTx w pkt).rawQueue) := by
  have hslot : CArray.index? txQueueSize w.rawQueue.txQueueHead = some w.txQueueHead :=
    CArray.index?_of_val rfl
  have hnext : TxQueue.next w.rawQueue.txQueueHead = (ahead w.txQueueHead 1).val :=
    next_val w.txQueueHead
  have hmeet : ((ahead w.txQueueHead 1).val : Int) = w.rawQueue.txQueueTail ↔ w.Full :=
    Int.ofNat_inj.trans Fin.val_inj
  rw [TxQueue.queuePktToTx]
  dsimp only
  rw [hslot, hnext, Option.bind_eq_bind, Option.bind_some, Pfm.queuePktToTx]
  by_cases hfull : w.Full
  · rw [if_pos (hmeet.mpr hfull), if_pos (show ahead w.txQueueHead 1 = w.txQueueTail from hfull),
      decide_eq_true hfull]
    rfl
  · rw [if_neg (fun heq => hfull (hmeet.mp heq)),
      if_neg (show ¬ahead w.txQueueHead 1 = w.txQueueTail from hfull), decide_eq_false hfull]
    rfl

theorem getFrom_rawQueue {w : WorkerInfo M} (h : w.Sound) {fuel : Nat}
    (hfuel : w.queued.length < fuel) (txSz maxPkt : Int) :
    w.rawQueue.getFrom fuel txSz maxPkt =
      (Pfm.getPktToTx w (maxPkt - txSz).toNat).map fun out => (out.1, out.2.rawQueue) := by
  induction fuel generalizing w txSz with
  | zero => exact absurd hfuel (Nat.not_lt_zero _)
  | succ fuel ih =>
      have hmeet : w.rawQueue.txQueueHead ≠ w.rawQueue.txQueueTail ↔
          w.txQueueHead ≠ w.txQueueTail := not_congr (Int.ofNat_inj.trans Fin.val_inj)
      rw [TxQueue.getFrom]
      by_cases hempty : w.txQueueHead = w.txQueueTail
      · rw [if_neg (fun hne => hmeet.mp hne hempty)]
        cases (maxPkt - txSz).toNat with
        | zero => rfl
        | succ n =>
            rw [Pfm.getPktToTx, if_pos hempty]
            rfl
      rw [if_pos (hmeet.mpr hempty)]
      by_cases hmax : txSz ≥ maxPkt
      · rw [if_pos hmax, show (maxPkt - txSz).toNat = 0 by omega]
        rfl
      obtain ⟨items, hitems⟩ := h
      obtain ⟨pkt, rest, rfl, hslot, hrest⟩ := hitems.dequeue hempty
      let w' : WorkerInfo M := { w with txQueueTail := ahead w.txQueueTail 1 }
      have hqueued' : w'.queued = rest := hrest.contents_eq
      have hqueued : w.queued = pkt :: rest := hitems.contents_eq
      have htail : CArray.index? txQueueSize w.rawQueue.txQueueTail = some w.txQueueTail :=
        CArray.index?_of_val rfl
      have hnext : ({ w.rawQueue with txQueueTail := TxQueue.next w.rawQueue.txQueueTail } :
          TxQueue M) = w'.rawQueue := by
        have hval : TxQueue.next w.rawQueue.txQueueTail = (ahead w.txQueueTail 1).val :=
          next_val w.txQueueTail
        rw [hval]
        rfl
      have hread : w.rawQueue.txQueue w.txQueueTail = some pkt := hslot
      have hlen : w'.queued.length < fuel := by
        rw [hqueued] at hfuel
        rw [hqueued']
        exact Nat.lt_of_succ_lt_succ hfuel
      have hleft : (maxPkt - txSz).toNat = (maxPkt - (txSz + 1)).toNat + 1 := by omega
      rw [if_neg hmax, htail, hnext, hleft, Pfm.getPktToTx, if_neg hempty]
      simp only [Option.bind_eq_bind, Option.bind_some, hread, hslot]
      rw [ih ⟨rest, hrest⟩ hlen]
      change _ = Option.map _ ((Pfm.getPktToTx w' _).bind _)
      cases Pfm.getPktToTx w' (maxPkt - (txSz + 1)).toNat with
      | none => rfl
      | some out => rfl

end WorkerInfo

/-! ### Runs of the two functions -/

/-- The queue, and the packets accepted, returned and refused so far. -/
structure TxQueueRun (M : RteMbuf) where
  queue : TxQueue M
  accepted : List M.Mbuf
  returned : List M.Mbuf
  refused : List M.Mbuf

/-- An empty queue: whatever is in the array, the cursors are the same. -/
def TxQueueRun.init (slots : CArray txQueueSize (Option M.Mbuf)) (c : Fin txQueueSize) :
    TxQueueRun M :=
  ⟨⟨slots, c.val, c.val⟩, [], [], []⟩

/-- A call of one of the two functions. -/
inductive TxQueueOp (M : RteMbuf) where
  | queuePkt (pkt : M.Mbuf)
  | getPkt (maxPkt : Int)

def txQueueStep (R : TxQueueRun M) : TxQueueOp M → Option (TxQueueRun M)
  | .queuePkt pkt => (R.queue.queuePktToTx pkt).map fun out =>
      { R with
        queue := out.2
        accepted := if out.1 then R.accepted ++ [pkt] else R.accepted
        refused := if out.1 then R.refused else R.refused ++ [pkt] }
  | .getPkt maxPkt => (R.queue.getPktToTx maxPkt).map fun out =>
      { R with queue := out.2, returned := R.returned ++ out.1 }

/-- The queue is a bounded one, first in first out: one packet more goes to its end
unless it is full, and then changes nothing; packets are taken from its front. -/
structure BoundedFifo (q : TxQueue M) : Prop where
  inArray : q.InArray
  queuePkt : ∀ pkt, ∃ ok q', q.queuePktToTx pkt = some (ok, q') ∧
    (ok = false ↔ q.waiting.length = txQueueSize - 1) ∧
    q'.waiting = q.waiting ++ if ok then [pkt] else []
  getPkt : ∀ maxPkt : Int, ∃ q', q.getPktToTx maxPkt = some (q.waiting.take maxPkt.toNat, q') ∧
    q'.waiting = q.waiting.drop maxPkt.toNat

/-- The queue is the one of a worker, and what was accepted was returned or waits. -/
structure TxQueueInv (R : TxQueueRun M) : Prop where
  sound : ∃ w : WorkerInfo M, w.Sound ∧ w.rawQueue = R.queue
  accepted : R.accepted = R.returned ++ R.queue.waiting

theorem WorkerInfo.length_queued {w : WorkerInfo M} (h : w.Sound) :
    w.queued.length < txQueueSize ∧ (w.Full ↔ w.queued.length = txQueueSize - 1) := by
  obtain ⟨items, hitems⟩ := h
  have hlen : w.queued.length = dist w.txQueueTail w.txQueueHead := by
    rw [WorkerInfo.queued, hitems.contents_eq, hitems.length]
  have hlt : w.queued.length < txQueueSize := by
    rw [hlen]
    exact dist_lt _ _
  refine ⟨hlt, ?_⟩
  constructor
  · intro hfull
    by_contra hroom
    have hone : dist w.txQueueTail w.txQueueHead + 1 < txQueueSize := by omega
    have hmeet := dist_ahead_of_lt hone
    rw [show ahead w.txQueueHead 1 = w.txQueueTail from hfull, CircularScan.dist_self] at hmeet
    omega
  · intro hlast
    by_contra hroom
    have hone := dist_ahead_one hroom
    have hbound := dist_lt w.txQueueTail (ahead w.txQueueHead 1)
    omega

theorem queuePktToTx_waiting {w : WorkerInfo M} (h : w.Sound) (pkt : M.Mbuf) :
    ∃ (ok : Bool) (w' : WorkerInfo M), w.rawQueue.queuePktToTx pkt = some (ok, w'.rawQueue) ∧ w'.Sound ∧
      (ok = false ↔ w.rawQueue.waiting.length = txQueueSize - 1) ∧
      w'.rawQueue.waiting = w.rawQueue.waiting ++ if ok then [pkt] else [] := by
  obtain ⟨hsound, hqueued⟩ := queuePktToTx_spec h pkt
  refine ⟨_, _, w.queuePktToTx_rawQueue pkt, hsound, ?_, ?_⟩
  · rw [w.waiting_rawQueue, ← (WorkerInfo.length_queued h).2]
    simp
  · rw [WorkerInfo.waiting_rawQueue, WorkerInfo.waiting_rawQueue, hqueued]
    simp

theorem getPktToTx_waiting {w : WorkerInfo M} (h : w.Sound) (maxPkt : Int) :
    ∃ w' : WorkerInfo M, w.rawQueue.getPktToTx maxPkt =
        some (w.rawQueue.waiting.take maxPkt.toNat, w'.rawQueue) ∧ w'.Sound ∧
      w'.rawQueue.waiting = w.rawQueue.waiting.drop maxPkt.toNat := by
  obtain ⟨w', hget, hsound, hqueued⟩ := getPktToTx_take h maxPkt.toNat
  refine ⟨w', ?_, hsound, ?_⟩
  · rw [TxQueue.getPktToTx, WorkerInfo.getFrom_rawQueue h (WorkerInfo.length_queued h).1,
      Int.sub_zero, hget, w.waiting_rawQueue]
    rfl
  · rw [WorkerInfo.waiting_rawQueue, WorkerInfo.waiting_rawQueue, hqueued]

namespace TxQueueInv

theorem init (slots : CArray txQueueSize (Option M.Mbuf)) (c : Fin txQueueSize) :
    TxQueueInv (TxQueueRun.init slots c) := by
  have hholds := holds_nil slots c
  refine ⟨⟨⟨slots, c, c, 0⟩, ⟨[], hholds⟩, rfl⟩, ?_⟩
  have hwaiting := WorkerInfo.waiting_rawQueue (⟨slots, c, c, 0⟩ : WorkerInfo M)
  rw [WorkerInfo.queued, hholds.contents_eq] at hwaiting
  exact hwaiting.symm

variable {R R' : TxQueueRun M}

theorem length_lt (h : TxQueueInv R) : R.queue.waiting.length < txQueueSize := by
  obtain ⟨w, hsound, hw⟩ := h.sound
  rw [← hw, w.waiting_rawQueue]
  exact (WorkerInfo.length_queued hsound).1

theorem fifo (h : TxQueueInv R) : BoundedFifo R.queue := by
  obtain ⟨w, hsound, hw⟩ := h.sound
  rw [← hw]
  refine ⟨w.rawQueue_inArray, fun pkt => ?_, fun maxPkt => ?_⟩
  · obtain ⟨ok, w', hrun, -, hfull, hwaiting⟩ := queuePktToTx_waiting hsound pkt
    exact ⟨ok, w'.rawQueue, hrun, hfull, hwaiting⟩
  · obtain ⟨w', hrun, -, hwaiting⟩ := getPktToTx_waiting hsound maxPkt
    exact ⟨w'.rawQueue, hrun, hwaiting⟩

/-- A packet is accepted, or refused by a full queue. -/
theorem queuePkt (h : TxQueueInv R) (pkt : M.Mbuf) :
    ∃ R', txQueueStep R (.queuePkt pkt) = some R' ∧ TxQueueInv R' ∧
      (R.queue.waiting.length < txQueueSize - 1 →
        R'.refused = R.refused ∧ R'.accepted = R.accepted ++ [pkt] ∧
        R'.queue.waiting = R.queue.waiting ++ [pkt]) := by
  obtain ⟨w, hsound, hw⟩ := h.sound
  obtain ⟨ok, w', hrun, hsound', hfull, hwaiting⟩ := queuePktToTx_waiting hsound pkt
  rw [hw] at hrun hfull hwaiting
  refine ⟨_, by rw [txQueueStep, hrun]; rfl, ⟨⟨w', hsound', rfl⟩, ?_⟩, fun hroom => ?_⟩
  · rw [hwaiting, h.accepted]
    cases ok with
    | true => simp
    | false => simp
  · have hok : ok = true := by
      by_contra hno
      have hlen := hfull.mp (Bool.eq_false_of_not_eq_true hno)
      omega
    subst hok
    exact ⟨rfl, rfl, hwaiting⟩

theorem getPkt (h : TxQueueInv R) (maxPkt : Int) :
    ∃ q, R.queue.getPktToTx maxPkt = some (R.queue.waiting.take maxPkt.toNat, q) ∧
      q.waiting = R.queue.waiting.drop maxPkt.toNat ∧
      TxQueueInv { R with
        queue := q
        returned := R.returned ++ R.queue.waiting.take maxPkt.toNat } := by
  obtain ⟨w, hsound, hw⟩ := h.sound
  obtain ⟨w', hrun, hsound', hwaiting⟩ := getPktToTx_waiting hsound maxPkt
  rw [hw] at hrun hwaiting
  refine ⟨w'.rawQueue, hrun, hwaiting, ⟨w', hsound', rfl⟩, ?_⟩
  dsimp only
  rw [hwaiting, List.append_assoc, List.take_append_drop, h.accepted]

theorem step (h : TxQueueInv R) (op : TxQueueOp M) :
    ∃ R', txQueueStep R op = some R' ∧ TxQueueInv R' := by
  cases op with
  | queuePkt pkt =>
      obtain ⟨R', hrun, h', -⟩ := h.queuePkt pkt
      exact ⟨R', hrun, h'⟩
  | getPkt maxPkt =>
      obtain ⟨q, hrun, -, h'⟩ := h.getPkt maxPkt
      exact ⟨_, by rw [txQueueStep, hrun]; rfl, h'⟩

theorem exec (h : TxQueueInv R) (ops : List (TxQueueOp M)) :
    ∃ R', StepSystem.exec txQueueStep R ops = some R' ∧ TxQueueInv R' :=
  exec_total (P := fun _ => True) (fun _ op h _ => h.step op) h fun _ _ => trivial

end TxQueueInv

/-! ### The turns of `worker_loop` -/

/-- "Clear any accumulated packets". -/
def clearQueue : Nat → TxQueueRun M → Option (TxQueueRun M)
  | 0, _ => none
  | fuel + 1, R => do
      let (txPkts, queue) ← R.queue.getPktToTx maxPktPerTx
      let R := { R with queue := queue, returned := R.returned ++ txPkts }
      if txPkts.length = 0 then some R else clearQueue fuel R

/-- A turn of the loop.  For every packet that `rte_distributor_get_pkt` gives, `reqs`
has the packets that `pfm_data_req` hands to `queue_pkt_to_tx` on its behalf. -/
def workerLoopTurn (R : TxQueueRun M) (reqs : List (List M.Mbuf)) : Option (TxQueueRun M) := do
  let R ← txQueueStep R (.getPkt maxPktPerTx)
  let R ← clearQueue txQueueSize R
  reqs.flatten.foldlM (fun R pkt => txQueueStep R (.queuePkt pkt)) R

section turns

variable {R : TxQueueRun M}

/-- Every turn of the clearing loop but the last takes a packet. -/
theorem TxQueueInv.clear (h : TxQueueInv R) {fuel : Nat}
    (hfuel : R.queue.waiting.length < fuel) :
    ∃ R', clearQueue fuel R = some R' ∧ TxQueueInv R' ∧ R'.queue.waiting = [] ∧
      R'.accepted = R.accepted ∧ R'.refused = R.refused := by
  induction fuel generalizing R with
  | zero => exact absurd hfuel (Nat.not_lt_zero _)
  | succ fuel ih =>
      obtain ⟨q, hget, hwaiting, h'⟩ := h.getPkt maxPktPerTx
      rw [clearQueue, hget, Option.bind_eq_bind, Option.bind_some]
      dsimp only
      have htake : (R.queue.waiting.take (Int.toNat maxPktPerTx)).length =
          min maxPktPerTx R.queue.waiting.length := List.length_take
      have hmax : maxPktPerTx = 8 := rfl
      split
      · rename_i hnone
        refine ⟨_, rfl, h', ?_, rfl, rfl⟩
        dsimp only
        rw [hwaiting, List.length_eq_zero_iff.mp (show R.queue.waiting.length = 0 by omega),
          List.drop_nil]
      · rename_i hsome
        refine ih h' ?_
        dsimp only
        rw [hwaiting, List.length_drop, show Int.toNat maxPktPerTx = 8 from rfl]
        omega

/-- Packets for which there is room. -/
theorem TxQueueInv.queueAll (h : TxQueueInv R) (pkts : List M.Mbuf)
    (hroom : R.queue.waiting.length + pkts.length ≤ txQueueSize - 1) :
    ∃ R', pkts.foldlM (fun R pkt => txQueueStep R (.queuePkt pkt)) R = some R' ∧
      TxQueueInv R' ∧ R'.accepted = R.accepted ++ pkts ∧ R'.refused = R.refused := by
  induction pkts generalizing R with
  | nil => exact ⟨R, rfl, h, (List.append_nil _).symm, rfl⟩
  | cons pkt pkts ih =>
      rw [List.length_cons] at hroom
      obtain ⟨R₁, hstep, h₁, hone⟩ := h.queuePkt pkt
      obtain ⟨hrefused, haccepted, hwaiting⟩ := hone (by omega)
      obtain ⟨R', hrun, h', haccepted', hrefused'⟩ := ih h₁ (by
        rw [hwaiting, List.length_append, List.length_singleton]
        omega)
      refine ⟨R', ?_, h', ?_, hrefused'.trans hrefused⟩
      · rw [List.foldlM_cons, hstep]
        exact hrun
      · rw [haccepted', haccepted, List.append_assoc]
        rfl

/-- The packets that a batch may ask for. -/
structure BatchFits (reqs : List (List M.Mbuf)) : Prop where
  batch : reqs.length < txQueueSize
  one : ∀ pkts ∈ reqs, pkts.length ≤ 1

theorem BatchFits.length_flatten {reqs : List (List M.Mbuf)} (h : BatchFits reqs) :
    reqs.flatten.length ≤ txQueueSize - 1 := by
  have hle : reqs.flatten.length ≤ reqs.length := by
    have hone := h.one
    clear h
    induction reqs with
    | nil => exact Nat.le_refl _
    | cons pkts reqs ih =>
        rw [List.flatten_cons, List.length_append, List.length_cons]
        have hhead := hone pkts List.mem_cons_self
        have htail := ih fun pkts hmem => hone pkts (List.mem_cons_of_mem _ hmem)
        omega
  exact Nat.le_trans hle (Nat.le_sub_one_of_lt h.batch)

/-- A turn accepts what its batch asks for. -/
theorem TxQueueInv.turn (h : TxQueueInv R) {reqs : List (List M.Mbuf)} (hfits : BatchFits reqs) :
    ∃ R', workerLoopTurn R reqs = some R' ∧ TxQueueInv R' ∧
      R'.accepted = R.accepted ++ reqs.flatten ∧ R'.refused = R.refused := by
  obtain ⟨q, hget, hwaiting, h₁⟩ := h.getPkt maxPktPerTx
  obtain ⟨R₂, hclear, h₂, hempty, haccepted, hrefused⟩ := h₁.clear h₁.length_lt
  obtain ⟨R', hrun, h', haccepted', hrefused'⟩ := h₂.queueAll reqs.flatten (by
    rw [hempty, List.length_nil, Nat.zero_add]
    exact hfits.length_flatten)
  refine ⟨R', ?_, h', by rw [haccepted', haccepted], by rw [hrefused', hrefused]⟩
  rw [workerLoopTurn, txQueueStep, hget]
  change (clearQueue txQueueSize _).bind _ = _
  rw [hclear, Option.bind_some, hrun]

theorem TxQueueInv.turns (h : TxQueueInv R) {batches : List (List (List M.Mbuf))}
    (hfits : ∀ reqs ∈ batches, BatchFits reqs) :
    ∃ R', StepSystem.exec workerLoopTurn R batches = some R' ∧ TxQueueInv R' ∧
      R'.accepted = R.accepted ++ batches.flatten.flatten ∧ R'.refused = R.refused := by
  induction batches generalizing R with
  | nil => exact ⟨R, rfl, h, (List.append_nil _).symm, rfl⟩
  | cons reqs batches ih =>
      obtain ⟨R₁, hturn, h₁, haccepted₁, hrefused₁⟩ := h.turn (hfits reqs List.mem_cons_self)
      obtain ⟨R', hrun, h', haccepted, hrefused⟩ :=
        ih h₁ fun reqs hmem => hfits reqs (List.mem_cons_of_mem _ hmem)
      refine ⟨R', ?_, h', ?_, hrefused.trans hrefused₁⟩
      · rw [exec_cons, hturn, Option.bind_some, hrun]
      · rw [haccepted, haccepted₁, List.append_assoc, List.flatten_cons, List.flatten_append]

end turns

/-- **The transmit queue.**  From an empty queue, in every run of the two functions the
queue is a bounded one, and what was accepted is what was returned and what waits, in
order; `worker_loop` has no packet refused, and no packet is lost. -/
theorem txQueue_fifo (slots : CArray txQueueSize (Option M.Mbuf)) (c : Fin txQueueSize) :
    (∀ ops, ∃ R, exec txQueueStep (TxQueueRun.init slots c) ops = some R ∧
      BoundedFifo R.queue ∧ R.accepted = R.returned ++ R.queue.waiting) ∧
    ∀ batches, (∀ reqs ∈ batches, BatchFits reqs) →
      ∃ R, exec workerLoopTurn (TxQueueRun.init slots c) batches = some R ∧
        R.refused = [] ∧ R.accepted = batches.flatten.flatten ∧
        R.accepted = R.returned ++ R.queue.waiting := by
  have hinit := TxQueueInv.init slots c
  refine ⟨fun ops => ?_, fun batches hfits => ?_⟩
  · obtain ⟨R, hrun, h⟩ := hinit.exec ops
    exact ⟨R, hrun, h.fifo, h.accepted⟩
  · obtain ⟨R, hrun, h, haccepted, hrefused⟩ := hinit.turns hfits
    exact ⟨R, hrun, hrefused, haccepted, h.accepted⟩

/-- Two batches, of one packet and of two, of which the first asks for nothing. -/
theorem txQueue_fifo_twoBatches :
    ∃ R, exec workerLoopTurn (TxQueueRun.init (fun _ => none) ⟨31, by decide⟩)
        [[[emptyPktOn 0]], [[], [emptyPktOn 1]]] = some R ∧
      R.refused = [] ∧ R.accepted = [emptyPktOn 0, emptyPktOn 1] ∧
      R.accepted = R.returned ++ R.queue.waiting :=
  (txQueue_fifo (fun _ => none) ⟨31, by decide⟩).2 _ (by
    intro reqs hmem
    rcases List.mem_cons.mp hmem with rfl | hmem
    · exact ⟨show 1 < 32 by decide, by simp⟩
    · rw [List.mem_singleton.mp hmem]
      exact ⟨show 2 < 32 by decide, by simp⟩)

end Pfm
