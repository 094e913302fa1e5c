import Pfm.DataPlane
import Pfm.TxQueue

/-!
# The workers in the order of their loop

`DataPlane` lets a worker take its steps in any order.  `worker_loop` has an order of its
own: take packets from the transmit queue, give them back and get others with
`rte_distributor_get_pkt`, clear what is left in the queue, and only then serve the packets.

* `WorkerAt` : where a worker is in its loop;
* `loops_lose_at_ring` : in this order no worker ever loses a packet, and the loop that
  clears the queue never finds one.
-/

namespace Pfm

open BoundedLoop CircularQueue StepSystem TxPipeline

variable {D : Dpdk} {M : RteMbuf} {Kni : Type}

/-- Before which call a worker is. -/
inductive WorkerAt where
  /-- serving packets, or at the top of the loop -/
  | turn
  /-- `rte_distributor_get_pkt`, which gives the packets back -/
  | getPkt
  /-- `rte_distributor_get_pkt`, which waits for packets -/
  | poll
  /-- `get_pkt_to_tx` of the clearing loop -/
  | clear
  /-- `rte_distributor_return_pkt` -/
  | returnPkt
  deriving DecidableEq

/-- The worker whose step it is. -/
def PlaneEvent.worker : PlaneEvent D Kni → Option (Fin maxWorkers)
  | .workerGet w _ => some w
  | .workerPkt w _ _ => some w
  | .tx (.getPktToTx w) => some w
  | .tx (.returnPkt w _) => some w
  | _ => none

/-- Where worker `w` is after its step from `S` to `S'`, `none` where it is not at that
step. -/
def WorkerAt.next (S S' : DataPlane D Kni) (w : Fin maxWorkers) :
    WorkerAt → PlaneEvent D Kni → Option WorkerAt
  | .turn, .workerPkt _ _ _ => some .turn
  | .turn, .tx (.getPktToTx _) => if S.rxPkts w = [] then some .getPkt else none
  | .getPkt, .tx (.returnPkt _ ok) => if ok then some .poll else none
  | .poll, .workerGet _ _ => some .clear
  | .clear, .tx (.getPktToTx _) => if S'.tx.workerPkts w = [] then some .turn else some .returnPkt
  | .returnPkt, .tx (.returnPkt _ _) => some .clear
  | _, _ => none

/-- What the TX ring has no room for. -/
def ringRefused (S : TxPipeline D) : PlaneEvent D Kni → List D.mbuf.Mbuf
  | .tx .enqueueBurst => dropped S .enqueueBurst
  | _ => []

/-- The data plane, and where its workers are. -/
structure PlaneLoops (D : Dpdk) (Kni : Type) where
  plane : DataPlane D Kni
  workerAt : CArray maxWorkers WorkerAt
  /-- refused by the TX ring in `dist_loop` -/
  refused : List D.mbuf.Mbuf

/-- All loops started. -/
def PlaneLoops.init (D : Dpdk) (Kni : Type) : PlaneLoops D Kni :=
  ⟨DataPlane.init D Kni, fun _ => .turn, []⟩

/-- A step, of a worker only in the order of its loop. -/
def loopsStep [DecidableEq Kni] (P : RteMbufLen D.mbuf)
    (classifiers : CArray (lastLinkId + 1) (IngressClassifier Kni)) (R : PlaneLoops D Kni)
    (e : PlaneEvent D Kni) : Option (PlaneLoops D Kni) := do
  let S ← planeStep P classifiers R.plane e
  let refused := R.refused ++ ringRefused R.plane.tx e
  match e.worker with
  | none => some ⟨S, R.workerAt, refused⟩
  | some w => do
      let next ← (R.workerAt w).next R.plane S w e
      some ⟨S, Function.update R.workerAt w next, refused⟩

/-! ### The order -/

section next

variable {S S' : DataPlane D Kni} {w v : Fin maxWorkers} {before after : WorkerAt}

theorem WorkerAt.next_workerGet {picks : List Nat}
    (h : before.next S S' w (.workerGet v picks) = some after) :
    before = .poll ∧ after = .clear := by
  cases before with
  | poll => exact ⟨rfl, (Option.some.inj h).symm⟩
  | turn => cases h
  | getPkt => cases h
  | clear => cases h
  | returnPkt => cases h

theorem WorkerAt.next_workerPkt {route : RouteTable D} {T : TunnelTable D}
    (h : before.next S S' w (.workerPkt v route T) = some after) :
    before = .turn ∧ after = .turn := by
  cases before with
  | turn => exact ⟨rfl, (Option.some.inj h).symm⟩
  | getPkt => cases h
  | poll => cases h
  | clear => cases h
  | returnPkt => cases h

theorem WorkerAt.next_getPktToTx (h : before.next S S' w (.tx (.getPktToTx v)) = some after) :
    before = .turn ∧ S.rxPkts w = [] ∧ after = .getPkt ∨
      before = .clear ∧ after = if S'.tx.workerPkts w = [] then .turn else .returnPkt := by
  cases before with
  | turn =>
      obtain ⟨hempty, hafter⟩ := Option.ite_none_right_eq_some.mp h
      exact Or.inl ⟨rfl, hempty, (Option.some.inj hafter).symm⟩
  | clear =>
      refine Or.inr ⟨rfl, ?_⟩
      simp only [WorkerAt.next] at h
      split at h
      · rename_i hnone
        rw [if_pos hnone]
        exact (Option.some.inj h).symm
      · rename_i hsome
        rw [if_neg hsome]
        exact (Option.some.inj h).symm
  | getPkt => cases h
  | poll => cases h
  | returnPkt => cases h

theorem WorkerAt.next_returnPkt {ok : Bool}
    (h : before.next S S' w (.tx (.returnPkt v ok)) = some after) :
    before = .getPkt ∧ ok = true ∧ after = .poll ∨ before = .returnPkt ∧ after = .clear := by
  cases before with
  | getPkt =>
      obtain ⟨hok, hafter⟩ := Option.ite_none_right_eq_some.mp h
      exact Or.inl ⟨rfl, hok, (Option.some.inj hafter).symm⟩
  | returnPkt => exact Or.inr ⟨rfl, (Option.some.inj h).symm⟩
  | turn => cases h
  | poll => cases h
  | clear => cases h

end next

/-! ### Steps of the transmit pipeline -/

/-- The worker whose queue or burst an event is about. -/
def TxEvent.worker : TxEvent D → Option (Fin maxWorkers)
  | .dataReq w _ _ => some w
  | .getPktToTx w => some w
  | .returnPkt w _ => some w
  | _ => none

section tx

variable {S S' : TxPipeline D} {e : TxEvent D}

theorem txStep_workers (hstep : txStep S e = some S') {v : Fin maxWorkers}
    (hv : e.worker ≠ some v) : S'.workers v = S.workers v ∧ S'.workerPkts v = S.workerPkts v := by
  have hne {w : Fin maxWorkers} (hw : e.worker = some w) : v ≠ w := by
    intro heq
    rw [heq] at hv
    exact hv hw
  cases txStep_outcome hstep with
  | dataQueued => exact ⟨Function.update_of_ne (hne rfl) _ _, rfl⟩
  | getPktToTx =>
      exact ⟨Function.update_of_ne (hne rfl) _ _, Function.update_of_ne (hne rfl) _ _⟩
  | returnPkt => exact ⟨rfl, Function.update_of_ne (hne rfl) _ _⟩
  | dataFreed | returnedPkts | enqueueBurst | arpQueued | arpFreed | kniRead | dequeueBurst
  | otherLink | sameLink | txLast => exact ⟨rfl, rfl⟩

/-- `get_pkt_to_tx` takes from the front of the queue. -/
theorem txStep_getPktToTx (hsound : S.Sound) {w : Fin maxWorkers}
    (hstep : txStep S (.getPktToTx w) = some S') :
    S'.workerPkts w = (S.workers w).queued.take maxPktPerTx ∧
      (S'.workers w).queued = (S.workers w).queued.drop maxPktPerTx := by
  cases txStep_outcome hstep with
  | @getPktToTx w txPkts wkr hnone hget =>
      obtain ⟨_, hget', -, hqueued⟩ := getPktToTx_take (hsound w) maxPktPerTx
      obtain ⟨rfl, rfl⟩ := Prod.mk.inj (Option.some.inj (hget'.symm.trans hget))
      refine ⟨Function.update_self _ _ _, ?_⟩
      dsimp only
      rw [Function.update_self, hqueued]

/-- `pfm_data_req` queues at most one packet. -/
theorem txStep_dataReq_queue (hsound : S.Sound) {w : Fin maxWorkers} {tables : LinkTables D}
    {req : DataReq D.mbuf} (hstep : txStep S (.dataReq w tables req) = some S') :
    S'.workerPkts = S.workerPkts ∧
      (S'.workers w).queued.length ≤ (S.workers w).queued.length + 1 := by
  cases txStep_outcome hstep with
  | dataFreed => exact ⟨rfl, Nat.le_succ _⟩
  | @dataQueued w tables req mbuf wkr hrun =>
      obtain ⟨_, _, _, _, _, _, _, _, _, rfl⟩ := pfmDataReq_frame hrun
      obtain ⟨-, hqueued⟩ := queuePktToTx_spec (hsound w) mbuf
      refine ⟨rfl, ?_⟩
      dsimp only
      rw [Function.update_self, hqueued, List.length_append]
      split
      · exact Nat.le_succ _
      · exact Nat.le_refl _

/-- It drops none while the queue has room. -/
theorem dropped_dataReq (hsound : S.Sound) {w : Fin maxWorkers} {tables : LinkTables D}
    {req : DataReq D.mbuf} (hroom : (S.workers w).queued.length < rteDistBurstSize) :
    dropped S (.dataReq w tables req) = [] := by
  have hfull : ¬(S.workers w).Full := by
    intro hfull
    have hlast := (WorkerInfo.length_queued (hsound w)).2.mp hfull
    rw [hlast] at hroom
    exact absurd hroom (by decide)
  rw [dropped]
  split
  · rfl
  · rw [if_neg hfull]

end tx

/-! ### Steps of the data plane -/

section plane

variable [DecidableEq Kni] {P : RteMbufLen D.mbuf}
  {classifiers : CArray (lastLinkId + 1) (IngressClassifier Kni)} {S S' : DataPlane D Kni}
  {e : PlaneEvent D Kni}

/-- A step of nobody's loop but those of the workers changes what they have. -/
theorem planeStep_others (hworker : e.worker = none)
    (hstep : planeStep P classifiers S e = some S') :
    S'.rxPkts = S.rxPkts ∧ (S'.tx = S.tx ∧ ringRefused S.tx e = [] ∨
      ∃ te : TxEvent D, te.worker = none ∧ txStep S.tx te = some S'.tx ∧
        dropped S.tx te = ringRefused S.tx e) := by
  cases planeStep_outcome hstep with
  | kniOpened | kniClosed | kniConfig | gtp | ingress | arpTimer | noArp | distDequeue
  | distProcess =>
      exact ⟨rfl, Or.inl ⟨rfl, rfl⟩⟩
  | @txArp i alloc env call mbuf tx hrun htx =>
      exact ⟨rfl, Or.inr ⟨.kniTxArp mbuf, rfl, htx, rfl⟩⟩
  | workerGet => cases hworker
  | workerPkt => cases hworker
  | @tx te tx hpasses htx =>
      refine ⟨rfl, Or.inr ⟨te, ?_, htx, ?_⟩⟩
      · cases te with
        | dataReq w tables req => cases hpasses
        | getPktToTx w => cases hworker
        | returnPkt w ok => cases hworker
        | _ => rfl
      · cases te with
        | dataReq w tables req => cases hpasses
        | getPktToTx w => cases hworker
        | returnPkt w ok => cases hworker
        | _ => rfl

end plane

theorem pick_length {α : Type} {is : List Nat} {l picked rest : List α}
    (h : pick is l = some (picked, rest)) : picked.length = is.length := by
  induction is generalizing l picked with
  | nil =>
      obtain ⟨rfl, rfl⟩ := Prod.mk.inj (Option.some.inj h)
      rfl
  | cons i is ih =>
      obtain ⟨a, -, hrest⟩ := Option.bind_eq_some_iff.mp h
      obtain ⟨⟨as, rest'⟩, hpick, hend⟩ := Option.bind_eq_some_iff.mp hrest
      obtain ⟨rfl, rfl⟩ := Prod.mk.inj (Option.some.inj hend)
      rw [List.length_cons, List.length_cons, ih hpick]

/-! ### Every run -/

/-- What a worker can have: packets in its queue, packets taken from it, and packets to
serve. -/
def WorkerAt.Fits (queued workerPkts rxPkts : List M.Mbuf) : WorkerAt → Prop
  | .turn => workerPkts = [] ∧ queued.length + rxPkts.length ≤ rteDistBurstSize
  | .getPkt => queued = [] ∧ rxPkts = []
  | .poll => queued = [] ∧ workerPkts = [] ∧ rxPkts = []
  | .clear => queued = [] ∧ workerPkts = [] ∧ rxPkts.length ≤ rteDistBurstSize
  | .returnPkt => False

/-- The packets of a worker, where it is. -/
def DataPlane.Fits (S : DataPlane D Kni) (w : Fin maxWorkers) (at_ : WorkerAt) : Prop :=
  at_.Fits (S.tx.workers w).queued (S.tx.workerPkts w) (S.rxPkts w)

/-- None is missing but those that the ring refused. -/
structure Accounted (S : TxPipeline D) (refused : List D.mbuf.Mbuf) : Prop where
  sound : S.Sound
  account : (S.entered : Multiset D.mbuf.Mbuf) = S.accounted + (refused : Multiset D.mbuf.Mbuf)

structure LoopsInv (R : PlaneLoops D Kni) : Prop where
  accounted : Accounted R.plane.tx R.refused
  fits : ∀ w, R.plane.Fits w (R.workerAt w)

section run

variable {R R' : PlaneLoops D Kni} {S S' : DataPlane D Kni} {w : Fin maxWorkers}

theorem LoopsInv.init : LoopsInv (PlaneLoops.init D Kni) where
  accounted := ⟨init_sound, init_conserved.trans (add_zero _).symm⟩
  fits w := by
    have hqueued : (idleWorker (M := D.mbuf)).queued = [] := (holds_nil _ _).contents_eq
    refine ⟨rfl, ?_⟩
    rw [show ((PlaneLoops.init D Kni).plane.tx.workers w).queued = [] from hqueued]
    exact Nat.zero_le _

/-- What was not dropped is accounted for. -/
theorem Accounted.step {S S' : TxPipeline D} {refused : List D.mbuf.Mbuf} {e : TxEvent D}
    (h : Accounted S refused) (hstep : txStep S e = some S') :
    Accounted S' (refused ++ dropped S e) := by
  obtain ⟨new, hstep⟩ := txStep_account h.sound hstep
  refine ⟨hstep.sound, ?_⟩
  calc (S'.entered : Multiset D.mbuf.Mbuf) = S.accounted + refused + new := by
        rw [hstep.entered, ← Multiset.coe_add, h.account]
    _ = S.accounted + new + refused := add_right_comm _ _ _
    _ = S'.accounted + dropped S e + refused := by rw [hstep.accounted]
    _ = S'.accounted + (refused ++ dropped S e : List D.mbuf.Mbuf) := by
        rw [add_assoc, ← Multiset.coe_add, add_comm (dropped S e : Multiset D.mbuf.Mbuf)]

/-- There is always room in the queue. -/
theorem DataPlane.Fits.le {at_ : WorkerAt} (h : S.Fits w at_) :
    (S.tx.workers w).queued.length + (S.rxPkts w).length ≤ rteDistBurstSize := by
  cases at_ with
  | turn => exact h.2
  | getPkt =>
      rw [h.1, h.2]
      exact Nat.zero_le _
  | poll =>
      rw [h.1, h.2.2]
      exact Nat.zero_le _
  | clear =>
      rw [h.1, List.length_nil, Nat.zero_add]
      exact h.2.2
  | returnPkt => exact h.elim

/-- What nobody's step but that of worker `w` changes. -/
theorem DataPlane.Fits.congr {before : WorkerAt} (h : S.Fits w before)
    (hworkers : S'.tx.workers w = S.tx.workers w)
    (hpkts : S'.tx.workerPkts w = S.tx.workerPkts w) (hrx : S'.rxPkts w = S.rxPkts w) :
    S'.Fits w before := by
  rw [DataPlane.Fits, hworkers, hpkts, hrx]
  exact h

/-- What a step of worker `w` does to the account, to its packets and to those of the
others. -/
structure WorkerStep (S S' : DataPlane D Kni) (w : Fin maxWorkers) (after : WorkerAt) : Prop where
  tx : S'.tx = S.tx ∨ ∃ te : TxEvent D, te.worker = some w ∧ txStep S.tx te = some S'.tx ∧
    dropped S.tx te = []
  rxPkts : ∀ v, v ≠ w → S'.rxPkts v = S.rxPkts v
  fits : S'.Fits w after

variable {before after : WorkerAt}

/-- **The worker gets packets.**  It had none left. -/
theorem DataPlane.Fits.workerGet {picks : List Nat} {pkts rest : List D.mbuf.Mbuf}
    (h : S.Fits w before) (hroom : picks.length ≤ rteDistBurstSize)
    (hpick : pick picks S.backlog = some (pkts, rest))
    (hnext : before.next S S' w (.workerGet w picks) = some after) :
    DataPlane.Fits { S with backlog := rest, rxPkts := Function.update S.rxPkts w pkts } w
      after := by
  obtain ⟨rfl, rfl⟩ := WorkerAt.next_workerGet hnext
  obtain ⟨hqueued, hpkts, -⟩ := h
  refine ⟨hqueued, hpkts, ?_⟩
  dsimp only
  rw [Function.update_self]
  exact (pick_length hpick).trans_le hroom

/-- **It serves one**, for which it queues at most one. -/
theorem DataPlane.Fits.workerPkt {route : RouteTable D} {T : TunnelTable D} {pkt : D.mbuf.Mbuf}
    {rest : List D.mbuf.Mbuf} (h : S.Fits w before) (hsound : S.tx.Sound)
    (hpkts : S.rxPkts w = pkt :: rest)
    (hserve : ServeOutcome { S with rxPkts := Function.update S.rxPkts w rest } w route T pkt S')
    (hnext : before.next S S' w (.workerPkt w route T) = some after) :
    WorkerStep S S' w after := by
  obtain ⟨rfl, rfl⟩ := WorkerAt.next_workerPkt hnext
  obtain ⟨-, -, -, hrx, -, -⟩ := hserve.rx
  have hothers : ∀ v, v ≠ w → S'.rxPkts v = S.rxPkts v := by
    intro v hv
    rw [hrx]
    exact Function.update_of_ne hv _ _
  have hown : S'.rxPkts w = rest := by
    rw [hrx]
    exact Function.update_self _ _ _
  obtain ⟨hnone, hle⟩ := h
  rw [hpkts, List.length_cons] at hle
  have hroom : (S.tx.workers w).queued.length < rteDistBurstSize := by omega
  cases hserve with
  | unanswered calls hserved =>
      refine ⟨Or.inl rfl, hothers, ?_⟩
      rw [DataPlane.Fits, hown]
      exact ⟨hnone, Nat.le_of_succ_le hle⟩
  | @answered served req frame wkr tx hserved hanswer hrun htx =>
      obtain ⟨hkept, hqueued⟩ := txStep_dataReq_queue hsound htx
      refine ⟨Or.inr ⟨_, rfl, htx, dropped_dataReq hsound hroom⟩, hothers, ?_⟩
      rw [DataPlane.Fits, hown]
      dsimp only
      rw [hkept]
      exact ⟨hnone, by omega⟩

/-- **It takes packets from its queue**: all of them at the top, and then none is left to
clear. -/
theorem DataPlane.Fits.getPktToTx (h : S.Fits w before) (hsound : S.tx.Sound)
    (hnext : before.next S S' w (.tx (.getPktToTx w)) = some after)
    (htx : txStep S.tx (.getPktToTx w) = some S'.tx) (hrx : S'.rxPkts = S.rxPkts) :
    S'.Fits w after := by
  obtain ⟨htaken, hleft⟩ := txStep_getPktToTx hsound htx
  have hle := h.le
  have hmax : maxPktPerTx = rteDistBurstSize := rfl
  rw [DataPlane.Fits, hrx]
  rcases WorkerAt.next_getPktToTx hnext with ⟨rfl, hempty, rfl⟩ | ⟨rfl, hafter⟩
  · refine ⟨?_, hempty⟩
    rw [hleft]
    exact List.drop_eq_nil_of_le (by omega)
  · obtain ⟨hqueued, -, hrx⟩ := h
    rw [hqueued, List.take_nil] at htaken
    rw [hqueued, List.drop_nil] at hleft
    rw [if_pos htaken] at hafter
    subst hafter
    refine ⟨htaken, ?_⟩
    rw [hleft, List.length_nil, Nat.zero_add]
    exact hrx

/-- **It gives packets back.** -/
theorem DataPlane.Fits.returnPkt {ok : Bool} (h : S.Fits w before)
    (hnext : before.next S S' w (.tx (.returnPkt w ok)) = some after)
    (htx : txStep S.tx (.returnPkt w ok) = some S'.tx) (hrx : S'.rxPkts = S.rxPkts) :
    dropped S.tx (.returnPkt w ok) = [] ∧ S'.Fits w after := by
  rcases WorkerAt.next_returnPkt hnext with ⟨rfl, rfl, rfl⟩ | ⟨rfl, -⟩
  · refine ⟨rfl, ?_⟩
    rw [DataPlane.Fits, hrx, ← Option.some.inj htx]
    exact ⟨h.1, Function.update_self _ _ _, h.2⟩
  · exact h.elim

variable [DecidableEq Kni] {P : RteMbufLen D.mbuf}
  {classifiers : CArray (lastLinkId + 1) (IngressClassifier Kni)}

theorem planeStep_worker {e : PlaneEvent D Kni} (hworker : e.worker = some w)
    (h : S.Fits w before) (hsound : S.tx.Sound) (hstep : planeStep P classifiers S e = some S')
    (hnext : before.next S S' w e = some after) :
    WorkerStep S S' w after ∧ ringRefused S.tx e = [] := by
  cases planeStep_outcome hstep with
  | @workerGet v picks pkts rest hnone hroom hpick =>
      obtain rfl := Option.some.inj hworker
      have hfits := h.workerGet hroom hpick hnext
      exact ⟨⟨Or.inl rfl, fun u hu => Function.update_of_ne hu _ _, hfits⟩, rfl⟩
  | @workerPkt v route T pkt rest _ hpkts hserve =>
      obtain rfl := Option.some.inj hworker
      exact ⟨h.workerPkt hsound hpkts hserve hnext, rfl⟩
  | @tx te tx hpasses htx =>
      cases te with
      | getPktToTx v =>
          obtain rfl := Option.some.inj hworker
          have hfits := h.getPktToTx hsound hnext htx rfl
          exact ⟨⟨Or.inr ⟨_, rfl, htx, rfl⟩, fun u _ => rfl, hfits⟩, rfl⟩
      | returnPkt v ok =>
          obtain rfl := Option.some.inj hworker
          obtain ⟨hdrop, hfits⟩ := h.returnPkt hnext htx rfl
          exact ⟨⟨Or.inr ⟨_, rfl, htx, hdrop⟩, fun u _ => rfl, hfits⟩, rfl⟩
      | dataReq | returnedPkts | enqueueBurst | kniTxArp | kniRead | dequeueBurst | txPkt
      | txLast => cases hworker
  | kniOpened | kniClosed | kniConfig | gtp | ingress | arpTimer | noArp | txArp | distDequeue
  | distProcess => cases hworker

/-- **One step** of the loops. -/
theorem LoopsInv.step (h : LoopsInv R) {e : PlaneEvent D Kni}
    (hstep : loopsStep P classifiers R e = some R') : LoopsInv R' := by
  obtain ⟨S, hplane, hstep⟩ := Option.bind_eq_some_iff.mp hstep
  dsimp only at hstep
  cases hworker : e.worker with
  | none =>
      rw [hworker] at hstep
      obtain rfl := Option.some.inj hstep
      obtain ⟨hrx, htx⟩ := planeStep_others hworker hplane
      rcases htx with ⟨htx, hnone⟩ | ⟨te, hte, htx, hdrop⟩
      · rw [hnone, List.append_nil]
        refine ⟨htx ▸ h.accounted, fun w => (h.fits w).congr ?_ ?_ (congrFun hrx w)⟩
        · rw [htx]
        · rw [htx]
      · rw [← hdrop]
        refine ⟨h.accounted.step htx, fun w => ?_⟩
        obtain ⟨hworkers, hpkts⟩ := txStep_workers htx (v := w) (by rw [hte]; nofun)
        exact (h.fits w).congr hworkers hpkts (congrFun hrx w)
  | some w =>
      rw [hworker] at hstep
      obtain ⟨next, hnext, hstep⟩ := Option.bind_eq_some_iff.mp hstep
      obtain rfl := Option.some.inj hstep
      obtain ⟨hw, hnone⟩ := planeStep_worker hworker (h.fits w) h.accounted.sound hplane hnext
      rw [hnone, List.append_nil]
      refine ⟨?_, fun v => ?_⟩
      · rcases hw.tx with htx | ⟨te, -, htx, hdrop⟩
        · exact htx ▸ h.accounted
        · have haccounted := h.accounted.step htx
          rw [hdrop, List.append_nil] at haccounted
          exact haccounted
      · dsimp only
        by_cases hv : v = w
        · subst hv
          rw [Function.update_self]
          exact hw.fits
        rw [Function.update_of_ne hv]
        rcases hw.tx with htx | ⟨te, hte, htx, -⟩
        · refine (h.fits v).congr ?_ ?_ (hw.rxPkts v hv)
          · rw [htx]
          · rw [htx]
        · have hother : te.worker ≠ some v := fun heq =>
            hv (Option.some.inj (heq.symm.trans hte))
          obtain ⟨hworkers, hpkts⟩ := txStep_workers htx hother
          exact (h.fits v).congr hworkers hpkts (hw.rxPkts v hv)

/-- **Packets get lost at one place only.**  With all workers in the order of their loop, and
everything else in any order, a packet that `pfm_data_req` accepted is in one place of the
pipeline, was transmitted or freed once, or was refused by the TX ring in `dist_loop`.  No
worker has more than a burst of packets waiting or to serve, so that its queue is never full,
and `rte_distributor_return_pkt` is never called. -/
theorem loops_lose_at_ring {es : List (PlaneEvent D Kni)}
    (hrun : exec (loopsStep P classifiers) (PlaneLoops.init D Kni) es = some R) :
    (R.plane.tx.entered : Multiset D.mbuf.Mbuf) =
        R.plane.tx.accounted + (R.refused : Multiset D.mbuf.Mbuf) ∧
      ∀ w, (R.plane.tx.workers w).queued.length + (R.plane.rxPkts w).length ≤ rteDistBurstSize ∧
        ¬(R.plane.tx.workers w).Full ∧ R.workerAt w ≠ .returnPkt := by
  have h : LoopsInv R := exec_invariant (fun _ _ _ hinv hstep => hinv.step hstep) LoopsInv.init hrun
  refine ⟨h.accounted.account, fun w => ⟨(h.fits w).le, fun hfull => ?_, fun hat => ?_⟩⟩
  · have hlast := (WorkerInfo.length_queued (h.accounted.sound w)).2.mp hfull
    have hle := (h.fits w).le
    have hroom : rteDistBurstSize < txQueueSize - 1 := by decide
    omega
  · have hfits := h.fits w
    rw [hat] at hfits
    exact hfits

/-- The run of the UPF, with the worker in the order of its loop. -/
def upfLoops : List (PlaneEvent listDpdk Unit) :=
  upfPlane.take 5 ++
    [.tx (.getPktToTx firstWorker), .tx (.returnPkt firstWorker true), .workerGet firstWorker [0],
      .tx (.getPktToTx firstWorker)] ++ upfPlane.drop 6

def afterUpfLoops : Option (PlaneLoops listDpdk Unit) :=
  exec (loopsStep viewMbufLen cuupClassifiers) (PlaneLoops.init listDpdk Unit) upfLoops

theorem loops_lose_at_ring_upfLoops : ∃ R, afterUpfLoops = some R ∧
    R.plane.tx.transmitted.length = 1 ∧
    (R.plane.tx.entered : Multiset listDpdk.mbuf.Mbuf) =
      R.plane.tx.accounted + (R.refused : Multiset listDpdk.mbuf.Mbuf) ∧
    ∀ w, (R.plane.tx.workers w).queued.length + (R.plane.rxPkts w).length ≤ rteDistBurstSize ∧
      ¬(R.plane.tx.workers w).Full ∧ R.workerAt w ≠ .returnPkt := by
  have hany : (afterUpfLoops.any fun R => R.plane.tx.transmitted.length = 1) = true := by decide
  obtain ⟨R, hR, htransmitted⟩ := (Option.any_eq_true _ _).mp hany
  exact ⟨R, hR, of_decide_eq_true htransmitted, loops_lose_at_ring hR⟩

end run

end Pfm
