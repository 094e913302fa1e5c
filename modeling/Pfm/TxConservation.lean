import Mathlib.Algebra.BigOperators.Fin
import Mathlib.Algebra.Order.Group.Multiset
import Mathlib.Tactic.Abel
import Pfm.StepSystem
import Pfm.TxPipeline

/-!
# No packet is lost on the transmit pipeline

Packets are counted as multisets: what went in is what is somewhere in the pipeline,
was transmitted or was freed.  Every step keeps this account but for the packets it
drops, so the account is right in every state of a run exactly when no step of the run
drops a packet.
-/

namespace Pfm

open BoundedLoop CircularScan CircularQueue StepSystem

variable {D : Dpdk} {M : RteMbuf}

/-! ### The queue of a worker -/

namespace WorkerInfo

/-- The packets waiting in the queue. -/
def queued (w : WorkerInfo M) : List M.Mbuf :=
  contents w.txQueue w.txQueueTail w.txQueueHead

/-- The slots in use hold packets. -/
def Sound (w : WorkerInfo M) : Prop :=
  ∃ items, Holds w.txQueue w.txQueueTail w.txQueueHead items

/-- One more packet would make the cursors meet. -/
def Full (w : WorkerInfo M) : Prop := ahead w.txQueueHead 1 = w.txQueueTail

instance (w : WorkerInfo M) : Decidable w.Full :=
  inferInstanceAs (Decidable (ahead w.txQueueHead 1 = w.txQueueTail))

end WorkerInfo

/-- A packet is put on the queue, or dropped when that is full. -/
theorem queuePktToTx_spec {w : WorkerInfo M} (h : w.Sound) (pkt : M.Mbuf) :
    (queuePktToTx w pkt).Sound ∧
      (queuePktToTx w pkt).queued = w.queued ++ if w.Full then [] else [pkt] := by
  obtain ⟨items, hitems⟩ := h
  rw [WorkerInfo.queued, WorkerInfo.queued, hitems.contents_eq, queuePktToTx]
  by_cases hfull : w.Full
  · have hmeet : ahead w.txQueueHead 1 = w.txQueueTail := hfull
    rw [if_pos hmeet, if_pos hfull, List.append_nil]
    have hkept := hitems.write_head (some pkt)
    exact ⟨⟨items, hkept⟩, hkept.contents_eq⟩
  · have hroom : ahead w.txQueueHead 1 ≠ w.txQueueTail := hfull
    rw [if_neg hroom, if_neg hfull]
    have hnew := hitems.enqueue hroom pkt
    exact ⟨⟨items ++ [pkt], hnew⟩, hnew.contents_eq⟩

/-- Packets are taken from the front of the queue. -/
theorem getPktToTx_take {w : WorkerInfo M} (h : w.Sound) (maxPkt : Nat) :
    ∃ w', getPktToTx w maxPkt = some (w.queued.take maxPkt, w') ∧ w'.Sound ∧
      w'.queued = w.queued.drop maxPkt := by
  induction maxPkt generalizing w with
  | zero => exact ⟨w, rfl, h, rfl⟩
  | succ maxPkt ih =>
      obtain ⟨items, hitems⟩ := h
      have hqueued : w.queued = items := hitems.contents_eq
      rw [getPktToTx, hqueued]
      by_cases hempty : w.txQueueHead = w.txQueueTail
      · have hlen : items.length = 0 := by
          rw [hitems.length, hempty, CircularScan.dist_self]
        obtain rfl : items = [] := List.length_eq_zero_iff.mp hlen
        rw [if_pos hempty]
        exact ⟨w, rfl, ⟨[], hitems⟩, hqueued⟩
      · obtain ⟨pkt, rest, rfl, hslot, hrest⟩ := hitems.dequeue hempty
        obtain ⟨w', hget, hsound, htail⟩ :=
          ih (w := { w with txQueueTail := ahead w.txQueueTail 1 }) ⟨rest, hrest⟩
        have hqueued' : ({ w with txQueueTail := ahead w.txQueueTail 1 } : WorkerInfo M).queued =
            rest := hrest.contents_eq
        rw [hqueued'] at hget htail
        rw [if_neg hempty, hslot, Option.bind_eq_bind, Option.bind_some, hget]
        exact ⟨w', rfl, hsound, htail⟩

theorem getPktToTx_spec {w : WorkerInfo M} (h : w.Sound) (maxPkt : Nat) :
    ∃ txPkts w', getPktToTx w maxPkt = some (txPkts, w') ∧ w'.Sound ∧
      w.queued = txPkts ++ w'.queued := by
  obtain ⟨w', hget, hsound, hqueued⟩ := getPktToTx_take h maxPkt
  exact ⟨_, w', hget, hsound, by rw [hqueued, List.take_append_drop]⟩

theorem pick_perm {α : Type} {is : List Nat} {l picked rest : List α}
    (h : pick is l = some (picked, rest)) : l.Perm (picked ++ rest) := by
  induction is generalizing l picked with
  | nil =>
      obtain ⟨rfl, rfl⟩ := Prod.mk.inj (Option.some.inj h)
      exact List.Perm.refl _
  | cons i is ih =>
      obtain ⟨a, hget, hrest⟩ := Option.bind_eq_some_iff.mp h
      obtain ⟨⟨as, rest'⟩, hpick, hend⟩ := Option.bind_eq_some_iff.mp hrest
      obtain ⟨rfl, rfl⟩ := Prod.mk.inj (Option.some.inj hend)
      obtain ⟨hi, rfl⟩ := List.getElem?_eq_some_iff.mp hget
      exact (List.getElem_cons_eraseIdx_perm hi).symm.trans ((ih hpick).cons _)

/-! ### The account -/

namespace TxPipeline

/-- What a worker holds. -/
def workerHeld (S : TxPipeline D) (w : Fin maxWorkers) : Multiset D.mbuf.Mbuf :=
  ((S.workers w).queued : Multiset D.mbuf.Mbuf) + (S.workerPkts w : Multiset D.mbuf.Mbuf)

/-- The packets in the worker queues, the distributor, the TX ring and the local bursts
of the loops. -/
def inFlight (S : TxPipeline D) : Multiset D.mbuf.Mbuf :=
  ∑ w, S.workerHeld w +
    ((S.distributor ++ S.retPkts ++ S.txRing ++ S.txPkts ++ S.outPkts : List D.mbuf.Mbuf) :
      Multiset D.mbuf.Mbuf)

/-- Where the packets are that went in. -/
def accounted (S : TxPipeline D) : Multiset D.mbuf.Mbuf :=
  S.inFlight + ((S.transmitted ++ S.freed : List D.mbuf.Mbuf) : Multiset D.mbuf.Mbuf)

/-- Every packet that went in is in one place of the pipeline, or was transmitted once,
or was freed once. -/
def Conserved (S : TxPipeline D) : Prop :=
  (S.entered : Multiset D.mbuf.Mbuf) = S.accounted

/-- The queues of all workers are sound. -/
def Sound (S : TxPipeline D) : Prop := ∀ w, (S.workers w).Sound

end TxPipeline

open TxPipeline

/-- The packets a step drops without freeing them. -/
def dropped (S : TxPipeline D) : TxEvent D → List D.mbuf.Mbuf
  | .dataReq w tables req =>
      match req.run tables w (S.workers w) with
      | .freed _ _ => []
      | .queued mbuf _ => if (S.workers w).Full then [mbuf] else []
  | .returnPkt w ok => if ok then [] else S.workerPkts w
  | .enqueueBurst => S.retPkts.drop (txRingRoom - S.txRing.length)
  | _ => []

/-- A sum in which one summand is exchanged. -/
theorem sum_update_add {k : Nat} {α : Type} (f : Fin k → Multiset α) (w : Fin k)
    (b : Multiset α) : ∑ i, Function.update f w b i + f w = ∑ i, f i + b := by
  rw [Finset.sum_update_of_mem (Finset.mem_univ w), ← Finset.sum_sdiff
    (Finset.subset_univ {w}), Finset.sum_singleton]
  abel

/-- Exchanging one worker. -/
theorem sum_workerHeld {S S' : TxPipeline D} {w : Fin maxWorkers}
    (h : ∀ i, i ≠ w → S'.workers i = S.workers i ∧ S'.workerPkts i = S.workerPkts i) :
    ∑ i, S'.workerHeld i + S.workerHeld w = ∑ i, S.workerHeld i + S'.workerHeld w := by
  have hupdate : S'.workerHeld = Function.update S.workerHeld w (S'.workerHeld w) := by
    funext i
    by_cases hi : i = w
    · subst hi
      rw [Function.update_self]
    · obtain ⟨hworker, hpkts⟩ := h i hi
      rw [Function.update_of_ne hi, workerHeld, workerHeld, hworker, hpkts]
  rw [hupdate, sum_update_add, Function.update_self]

/-- A step of a loop that is no worker: the account of the other places. -/
theorem accounted_of_workers {S S' : TxPipeline D} (hworkers : S'.workers = S.workers)
    (hpkts : S'.workerPkts = S.workerPkts) {new lost : List D.mbuf.Mbuf}
    (hlists : (S'.distributor ++ S'.retPkts ++ S'.txRing ++ S'.txPkts ++ S'.outPkts ++
        (S'.transmitted ++ S'.freed) ++ lost).Perm
      (S.distributor ++ S.retPkts ++ S.txRing ++ S.txPkts ++ S.outPkts ++
        (S.transmitted ++ S.freed) ++ new)) :
    S'.accounted + (lost : Multiset D.mbuf.Mbuf) = S.accounted + (new : Multiset D.mbuf.Mbuf) := by
  have hheld : S'.workerHeld = S.workerHeld := by
    funext w
    rw [workerHeld, workerHeld, hworkers, hpkts]
  have hcoe := Multiset.coe_eq_coe.mpr hlists
  simp only [← Multiset.coe_add] at hcoe
  simp only [accounted, inFlight, hheld, ← Multiset.coe_add]
  simp only [add_assoc] at hcoe ⊢
  rw [hcoe]

/-- A list cut in two. -/
theorem count_take_add_drop {α : Type} [DecidableEq α] (a : α) (n : Nat) (l : List α) :
    (l.take n).count a + (l.drop n).count a = l.count a := by
  rw [← List.count_append, List.take_append_drop]

section step

variable {S S' : TxPipeline D} {e : TxEvent D}

/-- What is shown of a step: the queues stay sound, and what is accounted for changes by
what goes in and what is dropped. -/
structure StepAccount (S : TxPipeline D) (e : TxEvent D) (S' : TxPipeline D)
    (new : List D.mbuf.Mbuf) : Prop where
  sound : S'.Sound
  entered : S'.entered = S.entered ++ new
  accounted : S'.accounted + (dropped S e : Multiset D.mbuf.Mbuf) =
    S.accounted + (new : Multiset D.mbuf.Mbuf)

/-- The steps of the distributor's and the transmit loop, and of others that use the
ring. -/
theorem StepAccount.of_lists {new : List D.mbuf.Mbuf} (hsound : S.Sound)
    (hworkers : S'.workers = S.workers) (hpkts : S'.workerPkts = S.workerPkts)
    (hentered : S'.entered = S.entered ++ new)
    (hlists : (S'.distributor ++ S'.retPkts ++ S'.txRing ++ S'.txPkts ++ S'.outPkts ++
        (S'.transmitted ++ S'.freed) ++ dropped S e).Perm
      (S.distributor ++ S.retPkts ++ S.txRing ++ S.txPkts ++ S.outPkts ++
        (S.transmitted ++ S.freed) ++ new)) : StepAccount S e S' new where
  sound w := by
    rw [hworkers]
    exact hsound w
  entered := hentered
  accounted := accounted_of_workers hworkers hpkts hlists

/-- The steps of a worker. -/
theorem StepAccount.of_worker (w : Fin maxWorkers) {new lost : List D.mbuf.Mbuf}
    (hsound : S.Sound) (hsound' : (S'.workers w).Sound)
    (hothers : ∀ i, i ≠ w → S'.workers i = S.workers i ∧ S'.workerPkts i = S.workerPkts i)
    (hentered : S'.entered = S.entered ++ new) (hlost : dropped S e = lost)
    (hlists : ((S'.workers w).queued ++ S'.workerPkts w ++ S'.distributor ++ lost).Perm
      ((S.workers w).queued ++ S.workerPkts w ++ S.distributor ++ new))
    (hret : S'.retPkts = S.retPkts) (hring : S'.txRing = S.txRing) (htx : S'.txPkts = S.txPkts)
    (hout : S'.outPkts = S.outPkts) (hsent : S'.transmitted = S.transmitted)
    (hfreed : S'.freed = S.freed) : StepAccount S e S' new where
  sound i := by
    by_cases hi : i = w
    · subst hi
      exact hsound'
    · rw [(hothers i hi).1]
      exact hsound i
  entered := hentered
  accounted := by
    have hsum := sum_workerHeld hothers
    have hcoe : S'.workerHeld w + S'.distributor + lost = S.workerHeld w + S.distributor + new := by
      have hlists := Multiset.coe_eq_coe.mpr hlists
      simp only [← Multiset.coe_add] at hlists
      exact hlists
    rw [hlost]
    simp only [TxPipeline.accounted, inFlight, hret, hring, htx, hout, hsent, hfreed,
      ← Multiset.coe_add]
    obtain ⟨rest, hrest⟩ : ∃ rest : Multiset D.mbuf.Mbuf, rest =
      S.retPkts + S.txRing + S.txPkts + S.outPkts + (S.transmitted + S.freed) := ⟨_, rfl⟩
    -- the other workers are the same on both sides
    apply add_right_cancel (b := S.workerHeld w)
    calc _ = (∑ i, S'.workerHeld i + S.workerHeld w) + (S'.distributor + lost) + rest := by
          rw [hrest]
          abel
      _ = ∑ i, S.workerHeld i + (S'.workerHeld w + S'.distributor + lost) + rest := by
          rw [hsum]
          abel
      _ = ∑ i, S.workerHeld i + (S.workerHeld w + S.distributor + new) + rest := by rw [hcoe]
      _ = _ := by
          rw [hrest]
          abel

/-! ### What each event does to the account -/

theorem dataReq_account (hsound : S.Sound) (w : Fin maxWorkers) (tables : LinkTables D)
    (req : DataReq D.mbuf) (hstep : txStep S (.dataReq w tables req) = some S') :
    ∃ new, StepAccount S (.dataReq w tables req) S' new := by
  classical
  simp only [txStep] at hstep
  cases hreq : req.run tables w (S.workers w) with
  | freed mbuf arps =>
      simp only [hreq] at hstep
      obtain rfl := Option.some.inj hstep
      refine ⟨[], .of_lists hsound rfl rfl (List.append_nil _).symm ?_⟩
      simp [dropped, hreq]
  | queued mbuf wkr =>
      simp only [hreq] at hstep
      obtain rfl := Option.some.inj hstep
      obtain ⟨_, _, _, _, _, _, _, _, _, rfl⟩ := pfmDataReq_frame hreq
      obtain ⟨hsound', hqueued⟩ := queuePktToTx_spec (hsound w) mbuf
      have hlost : dropped S (.dataReq w tables req) =
          if (S.workers w).Full then [mbuf] else [] := by simp only [dropped, hreq]
      refine ⟨[mbuf], .of_worker w hsound ?_ ?_ rfl hlost ?_ rfl rfl rfl rfl rfl rfl⟩
      · simpa using hsound'
      · intro i hi
        exact ⟨Function.update_of_ne hi _ _, rfl⟩
      · simp only [Function.update_self, hqueued]
        rw [List.perm_iff_count]
        intro a
        split
        · simp only [List.count_append, List.count_nil]
          omega
        · simp only [List.count_append, List.count_nil]
          omega

theorem getPktToTx_account (hsound : S.Sound) (w : Fin maxWorkers)
    (hstep : txStep S (.getPktToTx w) = some S') : ∃ new, StepAccount S (.getPktToTx w) S' new := by
  classical
  simp only [txStep] at hstep
  split at hstep
  · rename_i hpc
    obtain ⟨txPkts, w', hget, hsound', hqueued⟩ := getPktToTx_spec (hsound w) maxPktPerTx
    rw [hget] at hstep
    obtain rfl := Option.some.inj hstep
    refine ⟨[], .of_worker w hsound ?_ ?_ (List.append_nil _).symm rfl ?_ rfl rfl rfl rfl rfl
      rfl⟩
    · simpa using hsound'
    · intro i hi
      exact ⟨Function.update_of_ne hi _ _, Function.update_of_ne hi _ _⟩
    · simp only [Function.update_self, hqueued, hpc]
      rw [List.perm_iff_count]
      intro a
      simp only [dropped, List.count_append, List.count_nil]
      omega
  · cases hstep

theorem returnPkt_account (hsound : S.Sound) (w : Fin maxWorkers) (ok : Bool)
    (hstep : txStep S (.returnPkt w ok) = some S') :
    ∃ new, StepAccount S (.returnPkt w ok) S' new := by
  classical
  obtain rfl := Option.some.inj hstep
  refine ⟨[], .of_worker w hsound (hsound w) ?_ (List.append_nil _).symm rfl ?_ rfl rfl rfl rfl
    rfl rfl⟩
  · intro i hi
    exact ⟨rfl, Function.update_of_ne hi _ _⟩
  · simp only [Function.update_self]
    rw [List.perm_iff_count]
    intro a
    cases ok with
    | true =>
        simp only [dropped, if_true, List.count_append, List.count_nil]
        omega
    | false =>
        simp only [dropped, Bool.false_eq_true, if_false, List.count_append, List.count_nil]
        omega

theorem returnedPkts_account (hsound : S.Sound) (picks : List Nat)
    (hstep : txStep S (.returnedPkts picks) = some S') :
    ∃ new, StepAccount S (.returnedPkts picks) S' new := by
  classical
  simp only [txStep] at hstep
  split at hstep
  · rename_i hpc
    obtain ⟨⟨retPkts, rest⟩, hpick, hend⟩ := Option.bind_eq_some_iff.mp hstep
    obtain rfl := Option.some.inj hend
    have hperm := List.perm_iff_count.mp (pick_perm hpick)
    refine ⟨[], .of_lists hsound rfl rfl (List.append_nil _).symm ?_⟩
    rw [List.perm_iff_count]
    intro a
    have := hperm a
    simp only [dropped, hpc.1, List.count_append, List.count_nil] at this ⊢
    omega
  · cases hstep

theorem enqueueBurst_account (hsound : S.Sound)
    (hstep : txStep S .enqueueBurst = some S') : ∃ new, StepAccount S .enqueueBurst S' new := by
  classical
  obtain rfl := Option.some.inj hstep
  refine ⟨[], .of_lists hsound rfl rfl (List.append_nil _).symm ?_⟩
  rw [List.perm_iff_count]
  intro a
  have := count_take_add_drop a (txRingRoom - S.txRing.length) S.retPkts
  simp only [dropped, List.count_append, List.count_nil]
  omega

theorem kniTxArp_account (hsound : S.Sound) (mbuf : D.mbuf.Mbuf)
    (hstep : txStep S (.kniTxArp mbuf) = some S') :
    ∃ new, StepAccount S (.kniTxArp mbuf) S' new := by
  classical
  simp only [txStep] at hstep
  split at hstep
  · obtain rfl := Option.some.inj hstep
    refine ⟨[mbuf], .of_lists hsound rfl rfl rfl ?_⟩
    rw [List.perm_iff_count]
    intro a
    simp only [dropped, List.count_append, List.count_nil]
    omega
  · obtain rfl := Option.some.inj hstep
    refine ⟨[mbuf], .of_lists hsound rfl rfl rfl ?_⟩
    rw [List.perm_iff_count]
    intro a
    simp only [dropped, List.count_append, List.count_nil]
    omega

theorem kniRead_account (hsound : S.Sound) (pkts : List D.mbuf.Mbuf) (sent : Nat)
    (hstep : txStep S (.kniRead pkts sent) = some S') :
    ∃ new, StepAccount S (.kniRead pkts sent) S' new := by
  classical
  simp only [txStep] at hstep
  split at hstep
  · obtain rfl := Option.some.inj hstep
    refine ⟨pkts, .of_lists hsound rfl rfl rfl ?_⟩
    rw [List.perm_iff_count]
    intro a
    have := count_take_add_drop a sent pkts
    simp only [txBurst, dropped, List.count_append, List.count_nil]
    omega
  · cases hstep

theorem dequeueBurst_account (hsound : S.Sound)
    (hstep : txStep S .dequeueBurst = some S') : ∃ new, StepAccount S .dequeueBurst S' new := by
  classical
  simp only [txStep] at hstep
  split at hstep
  · rename_i hpc
    obtain rfl := Option.some.inj hstep
    refine ⟨[], .of_lists hsound rfl rfl (List.append_nil _).symm ?_⟩
    rw [List.perm_iff_count]
    intro a
    have := count_take_add_drop a txBurstSize S.txRing
    simp only [dropped, hpc.1, hpc.2, List.count_append, List.count_nil]
    omega
  · cases hstep

theorem txPkt_account (hsound : S.Sound) (sent : Nat)
    (hstep : txStep S (.txPkt sent) = some S') : ∃ new, StepAccount S (.txPkt sent) S' new := by
  classical
  simp only [txStep] at hstep
  split at hstep
  · cases hstep
  · rename_i pkt rest hpkts
    split at hstep
    · obtain rfl := Option.some.inj hstep
      refine ⟨[], .of_lists hsound rfl rfl (List.append_nil _).symm ?_⟩
      rw [List.perm_iff_count]
      intro a
      have := count_take_add_drop a sent S.outPkts
      simp only [txBurst, dropped, hpkts, List.count_append, List.count_nil,
        List.count_cons]
      omega
    · obtain rfl := Option.some.inj hstep
      refine ⟨[], .of_lists hsound rfl rfl (List.append_nil _).symm ?_⟩
      rw [List.perm_iff_count]
      intro a
      simp only [dropped, hpkts, List.count_append, List.count_nil, List.count_cons]
      omega

theorem txLast_account (hsound : S.Sound) (sent : Nat)
    (hstep : txStep S (.txLast sent) = some S') : ∃ new, StepAccount S (.txLast sent) S' new := by
  classical
  simp only [txStep] at hstep
  split at hstep
  · obtain rfl := Option.some.inj hstep
    refine ⟨[], .of_lists hsound rfl rfl (List.append_nil _).symm ?_⟩
    rw [List.perm_iff_count]
    intro a
    have := count_take_add_drop a sent S.outPkts
    simp only [txBurst, dropped, List.count_append, List.count_nil]
    omega
  · cases hstep

/-- **One step.** -/
theorem txStep_account (hsound : S.Sound) (hstep : txStep S e = some S') :
    ∃ new, StepAccount S e S' new := by
  cases e with
  | dataReq w tables req => exact dataReq_account hsound w tables req hstep
  | getPktToTx w => exact getPktToTx_account hsound w hstep
  | returnPkt w ok => exact returnPkt_account hsound w ok hstep
  | returnedPkts picks => exact returnedPkts_account hsound picks hstep
  | enqueueBurst => exact enqueueBurst_account hsound hstep
  | kniTxArp mbuf => exact kniTxArp_account hsound mbuf hstep
  | kniRead pkts sent => exact kniRead_account hsound pkts sent hstep
  | dequeueBurst => exact dequeueBurst_account hsound hstep
  | txPkt sent => exact txPkt_account hsound sent hstep
  | txLast sent => exact txLast_account hsound sent hstep

/-- The step drops nothing: a packet is accepted only while the queue of its worker has
room, the distributor takes what a worker returns, and the ring has room for all packets
of the burst. -/
def DropsNothing (S : TxPipeline D) : TxEvent D → Prop
  | .dataReq w tables req =>
      ∀ mbuf wkr, req.run tables w (S.workers w) = .queued mbuf wkr → ¬ (S.workers w).Full
  | .returnPkt w ok => ok = true ∨ S.workerPkts w = []
  | .enqueueBurst => S.txRing.length + S.retPkts.length ≤ txRingRoom ∨ S.retPkts = []
  | _ => True

theorem dropsNothing_iff : DropsNothing S e ↔ dropped S e = [] := by
  cases e with
  | dataReq w tables req =>
      rw [DropsNothing, dropped]
      cases hreq : req.run tables w (S.workers w) with
      | freed mbuf arps => simp
      | queued mbuf wkr =>
          by_cases hfull : (S.workers w).Full
          · simp [hfull]
          · simp [hfull]
  | returnPkt w ok =>
      rw [DropsNothing, dropped]
      cases ok with
      | true => simp
      | false => simp
  | enqueueBurst =>
      rw [DropsNothing, dropped, List.drop_eq_nil_iff, ← List.length_eq_zero_iff]
      omega
  | _ => exact iff_of_true trivial rfl

theorem StepAccount.conserved_iff {new : List D.mbuf.Mbuf} (h : StepAccount S e S' new)
    (hcons : S.Conserved) : S'.Conserved ↔ DropsNothing S e := by
  have hentered : (S'.entered : Multiset D.mbuf.Mbuf) = S.accounted + new := by
    rw [h.entered, ← Multiset.coe_add, hcons]
  rw [Conserved, hentered, ← h.accounted, add_eq_left, Multiset.coe_eq_zero, dropsNothing_iff]

end step

/-- Steps that have to be possible for their account to matter. -/
theorem txStep_isSome_of_drops {S : TxPipeline D} {e : TxEvent D} (h : ¬ DropsNothing S e) :
    ∃ S', txStep S e = some S' := by
  cases e with
  | dataReq w tables req =>
      simp only [txStep]
      cases req.run tables w (S.workers w) with
      | freed mbuf arps => exact ⟨_, rfl⟩
      | queued mbuf wkr => exact ⟨_, rfl⟩
  | returnPkt w ok => exact ⟨_, rfl⟩
  | enqueueBurst => exact ⟨_, rfl⟩
  | _ => exact absurd trivial h

theorem always_conserved_iff {S : TxPipeline D} (hsound : S.Sound) (hcons : S.Conserved)
    (events : List (TxEvent D)) :
    Always txStep Conserved S events ↔ Along txStep DropsNothing S events := by
  induction events generalizing S with
  | nil => exact iff_of_true hcons trivial
  | cons e events ih =>
      constructor
      · intro halways
        have hnothing : DropsNothing S e := by
          by_contra hdrops
          obtain ⟨S', hstep⟩ := txStep_isSome_of_drops hdrops
          obtain ⟨new, haccount⟩ := txStep_account hsound hstep
          exact hdrops ((haccount.conserved_iff hcons).mp (halways.2 S' hstep).head)
        refine ⟨hnothing, fun S' hstep => ?_⟩
        obtain ⟨new, haccount⟩ := txStep_account hsound hstep
        exact (ih haccount.sound ((haccount.conserved_iff hcons).mpr hnothing)).mp
          (halways.2 S' hstep)
      · intro halong
        refine ⟨hcons, fun S' hstep => ?_⟩
        obtain ⟨new, haccount⟩ := txStep_account hsound hstep
        exact (ih haccount.sound ((haccount.conserved_iff hcons).mpr halong.1)).mpr
          (halong.2 S' hstep)

theorem init_sound : (TxPipeline.init D).Sound :=
  fun _ => ⟨[], holds_nil _ _⟩

theorem init_conserved : (TxPipeline.init D).Conserved := by
  have hheld (w : Fin maxWorkers) : (TxPipeline.init D).workerHeld w = 0 := by
    rw [workerHeld]
    have hqueued : ((TxPipeline.init D).workers w).queued = [] := (holds_nil _ _).contents_eq
    rw [hqueued]
    rfl
  rw [Conserved, accounted, inFlight, Finset.sum_eq_zero fun w _ => hheld w]
  rfl

/-- **The transmit pipeline.**  In every run of the loops, in any order of their steps,
no packet is lost or duplicated in any state exactly when no step of the run drops one. -/
theorem tx_conserved_iff (D : Dpdk) (events : List (TxEvent D)) :
    Always txStep Conserved (TxPipeline.init D) events ↔
      Along txStep DropsNothing (TxPipeline.init D) events :=
  always_conserved_iff init_sound init_conserved events

def firstWorker : Fin maxWorkers := ⟨0, by decide⟩

/-- ARP requests fill the ring, and a packet gets as far as `dist_loop`. -/
def ringFullEvents : List (TxEvent listDpdk) :=
  List.replicate txRingRoom (.kniTxArp shortMbuf) ++
    [.dataReq firstWorker peerLinks ⟨cuupIp, upfIp, .udp, 2152, 2152, shortMbuf⟩,
     .getPktToTx firstWorker, .returnPkt firstWorker true, .returnedPkts [0]]

/-- The ring does not take the packet, and nobody frees it. -/
theorem ringFull_not_conserved :
    ¬ Always txStep Conserved (TxPipeline.init listDpdk) (ringFullEvents ++ [.enqueueBurst]) := by
  intro halways
  have hlengths : (exec txStep (TxPipeline.init listDpdk) ringFullEvents).map
      (fun S => (S.txRing.length, S.retPkts.length)) = some (63, 1) := by decide
  obtain ⟨S, hrun, hS⟩ := Option.map_eq_some_iff.mp hlengths
  obtain ⟨hring, hret⟩ := Prod.mk.inj hS
  have halong := (always_conserved_iff init_sound init_conserved _).mp halways
  have hlast : DropsNothing S .enqueueBurst := (halong.drop hrun).1
  rcases hlast with hroom | hnil
  · have hle : S.txRing.length + S.retPkts.length ≤ 63 := hroom
    omega
  · rw [hnil] at hret
    cases hret

end Pfm
