import Mathlib.Data.List.Nodup
import Mathlib.Data.List.Perm.Basic
import Pfm.Ingress

/-!
# Where the packets of a burst go

`Delivered` says that every packet of a burst goes where its class sends it, and that
every buffer, clones included, ends in exactly one place.  The loop does this for the
bursts that `IngressFits` describes and no others: the packets for KNIs are all
written to the KNI of the last packet of the burst.
-/

namespace Pfm

open BoundedLoop

variable {D : Dpdk} {M : RteMbuf} {Kni : Type}

/-! ### Reading the log -/

namespace IngressAct

/-- The packets handed to a KNI. -/
def offers : IngressAct M Kni → List (Kni × IngressBuf M)
  | .kniTxBurst kni pkts _ => pkts.map fun buf => (kni, buf)
  | _ => []

/-- The packets handed to the rx ring. -/
def rings : IngressAct M Kni → List (IngressBuf M)
  | .ringEnqueue pkts _ => pkts
  | _ => []

/-- The buffers taken over by a KNI or the ring, or freed. -/
def gone : IngressAct M Kni → List (IngressBuf M)
  | .kniTxBurst _ pkts sent => pkts.take sent
  | .ringEnqueue pkts sent => pkts.take sent
  | .free buf => [buf]
  | .clone _ => []

/-- The buffers taken from the pool. -/
def clones : IngressAct M Kni → List (IngressBuf M)
  | .clone buf => [buf]
  | _ => []

end IngressAct

section log

variable (log log' : List (IngressAct M Kni))

def offered : List (Kni × IngressBuf M) := log.flatMap IngressAct.offers

def ringed : List (IngressBuf M) := log.flatMap IngressAct.rings

def gone : List (IngressBuf M) := log.flatMap IngressAct.gone

def cloned : List (IngressBuf M) := log.flatMap IngressAct.clones

@[simp] theorem offered_append : offered (log ++ log') = offered log ++ offered log' :=
  List.flatMap_append

@[simp] theorem ringed_append : ringed (log ++ log') = ringed log ++ ringed log' :=
  List.flatMap_append

@[simp] theorem gone_append : gone (log ++ log') = gone log ++ gone log' :=
  List.flatMap_append

@[simp] theorem cloned_append : cloned (log ++ log') = cloned log ++ cloned log' :=
  List.flatMap_append

end log

/-- What a piece of the code adds to the log: packets offered to KNIs and to the ring,
buffers that are gone, and clones. -/
structure Adds (log log' : List (IngressAct M Kni)) (kniPkts : List (Kni × IngressBuf M))
    (ringPkts goneBufs clones : List (IngressBuf M)) : Prop where
  offered : offered log' = offered log ++ kniPkts
  ringed : ringed log' = ringed log ++ ringPkts
  gone : gone log' = gone log ++ goneBufs
  cloned : cloned log' = cloned log ++ clones
  kept : ∀ act ∈ log, act ∈ log'

namespace Adds

variable {log₁ log₂ log₃ : List (IngressAct M Kni)} {k k' : List (Kni × IngressBuf M)}
  {r r' g g' c c' : List (IngressBuf M)}

theorem refl (log : List (IngressAct M Kni)) : Adds log log [] [] [] [] where
  offered := by simp
  ringed := by simp
  gone := by simp
  cloned := by simp
  kept _ h := h

theorem trans (h : Adds log₁ log₂ k r g c) (h' : Adds log₂ log₃ k' r' g' c') :
    Adds log₁ log₃ (k ++ k') (r ++ r') (g ++ g') (c ++ c') where
  offered := by rw [h'.offered, h.offered, List.append_assoc]
  ringed := by rw [h'.ringed, h.ringed, List.append_assoc]
  gone := by rw [h'.gone, h.gone, List.append_assoc]
  cloned := by rw [h'.cloned, h.cloned, List.append_assoc]
  kept act hact := h'.kept act (h.kept act hact)

theorem of_append (log new : List (IngressAct M Kni)) :
    Adds log (log ++ new) (Pfm.offered new) (Pfm.ringed new) (Pfm.gone new)
      (Pfm.cloned new) where
  offered := by simp
  ringed := by simp
  gone := by simp
  cloned := by simp
  kept _ h := List.mem_append_left _ h

end Adds

/-- A burst and the freeing of what was not taken of it. -/
theorem adds_burst (log : List (IngressAct M Kni)) (act : IngressAct M Kni)
    (pkts : List (IngressBuf M)) (sent : Nat) (hgone : act.gone = pkts.take sent)
    (hclones : act.clones = []) :
    Adds log (log ++ act :: (pkts.drop sent).map .free) act.offers act.rings pkts [] := by
  have hfrees (bufs : List (IngressBuf M)) :
      offered (bufs.map (.free : IngressBuf M → IngressAct M Kni)) = [] ∧
      ringed (bufs.map (.free : IngressBuf M → IngressAct M Kni)) = [] ∧
      gone (bufs.map (.free : IngressBuf M → IngressAct M Kni)) = bufs ∧
      cloned (bufs.map (.free : IngressBuf M → IngressAct M Kni)) = [] := by
    induction bufs with
    | nil => exact ⟨rfl, rfl, rfl, rfl⟩
    | cons buf bufs ih =>
        obtain ⟨h1, h2, h3, h4⟩ := ih
        exact ⟨h1, h2, congrArg (buf :: ·) h3, h4⟩
  obtain ⟨h1, h2, h3, h4⟩ := hfrees (pkts.drop sent)
  have hadds := Adds.of_append log (act :: (pkts.drop sent).map .free)
  have ho : offered (act :: (pkts.drop sent).map .free) = act.offers := by
    rw [offered, List.flatMap_cons, ← offered, h1, List.append_nil]
  have hr : ringed (act :: (pkts.drop sent).map .free) = act.rings := by
    rw [ringed, List.flatMap_cons, ← ringed, h2, List.append_nil]
  have hg : gone (act :: (pkts.drop sent).map .free) = pkts := by
    rw [gone, List.flatMap_cons, ← gone, h3, hgone, List.take_append_drop]
  have hc : cloned (act :: (pkts.drop sent).map .free) = [] := by
    rw [cloned, List.flatMap_cons, ← cloned, h4, hclones, List.append_nil]
  rw [ho, hr, hg, hc] at hadds
  exact hadds

/-- A KNI that is there takes or frees everything it is given. -/
theorem kniWrite_adds (env : IngressEnv) (kni : Kni) (pkts : List (IngressBuf M))
    (log : List (IngressAct M Kni)) :
    Adds log (kniWrite env (some kni) pkts log) (pkts.map fun buf => (kni, buf)) [] pkts [] :=
  adds_burst log (.kniTxBurst kni pkts (min (env.taken log.length) pkts.length)) pkts _ rfl rfl

theorem ringWrite_adds (env : IngressEnv) (pkts : List (IngressBuf M))
    (log : List (IngressAct M Kni)) :
    Adds log (ringWrite env pkts log) [] pkts pkts [] :=
  adds_burst log (.ringEnqueue pkts (min (env.taken log.length) pkts.length)) pkts _ rfl rfl

theorem cloneBuf_adds {env : IngressEnv} {buf clone : IngressBuf M} {use : BufUse}
    {log log' : List (IngressAct M Kni)} (h : cloneBuf env buf use log = some (clone, log')) :
    clone = { buf with use := use } ∧ env.clone buf.idx use = true ∧
      Adds log log' [] [] [] [clone] := by
  unfold cloneBuf at h
  dsimp only at h
  split at h
  · rename_i hclone
    obtain ⟨rfl, rfl⟩ := Prod.mk.inj (Option.some.inj h)
    exact ⟨rfl, hclone, Adds.of_append log [.clone { buf with use := use }]⟩
  · cases h

/-! ### One packet -/

/-- What `packet_classify` says of the packet. -/
def IngressBuf.cls (ic : IngressClassifier Kni) (buf : IngressBuf M) : PktClass :=
  (packetClassify ic buf.mbuf).1

/-- The KNI that `packet_classify` returns. -/
def IngressBuf.kni (ic : IngressClassifier Kni) (buf : IngressBuf M) : Option Kni :=
  (packetClassify ic buf.mbuf).2

/-- A packet for a KNI has one. -/
theorem kni_of_others {ic : IngressClassifier Kni} {buf : IngressBuf M}
    (h : buf.cls ic = .others) : ∃ kni, buf.kni ic = some kni := by
  unfold IngressBuf.cls packetClassify at h
  unfold IngressBuf.kni packetClassify
  dsimp only at h ⊢
  split at h
  · cases h
  split at h
  · cases h
  split at h
  · cases h
  rename_i harp htype hbcast
  rw [if_neg harp, if_neg htype, if_neg hbcast]
  cases hkni : ic.kniOf (RteMbuf.ntohl buf.mbuf (etherHdrSize + dstAddrOff)) with
  | none => simp [hkni] at h
  | some entry =>
      dsimp only
      split
      · exact ⟨_, rfl⟩
      · split
        · exact ⟨_, rfl⟩
        · exact ⟨_, rfl⟩

/-- An ARP reply goes to every KNI. -/
theorem broadcast_of_isArpReply {ic : IngressClassifier Kni} {buf : IngressBuf M}
    (h : isArpReply buf.mbuf = true) : buf.cls ic = .broadcast := by
  have harp := of_decide_eq_true h
  rw [IngressBuf.cls, packetClassify, if_pos ⟨harp.1.symm, harp.2.1.symm⟩]

/-- The clones for the first `k` KNIs. -/
def kniClones (buf : IngressBuf M) (k : Nat) : List (IngressBuf M) :=
  (List.range k).map fun i => { buf with use := .copy i }

/-- What the KNIs of the link are to get of a broadcast packet: a clone each, and the
last the packet itself. -/
def broadcastOffers (ic : IngressClassifier Kni) (buf : IngressBuf M) :
    List (Kni × IngressBuf M) :=
  (ic.kniMap.map KniMapping.kniPtr).zip
    (kniClones buf (ic.kniMap.length - 1) ++ if ic.kniMap = [] then [] else [buf])

/-- A broadcast packet that is offered to nobody. -/
def unoffered (ic : IngressClassifier Kni) (buf : IngressBuf M) : List (IngressBuf M) :=
  if ic.kniMap = [] then [buf] else []

/-- The loop over the KNIs but the last. -/
theorem broadcastLoop_adds {env : IngressEnv} {ic : IngressClassifier Kni} {buf : IngressBuf M}
    {log log' : List (IngressAct M Kni)} {k : Nat}
    (h : forRange (ingressCopy env ic buf) k log = some log') :
    Adds log log' (((ic.kniMap.take k).map KniMapping.kniPtr).zip (kniClones buf k)) []
      (kniClones buf k) (kniClones buf k) ∧
    ∀ i, i < k → env.clone buf.idx (.copy i) = true := by
  induction k generalizing log' with
  | zero =>
      obtain rfl := Option.some.inj h
      refine ⟨?_, fun i hi => absurd hi (Nat.not_lt_zero i)⟩
      simpa [kniClones] using Adds.refl log
  | succ k ih =>
      rw [forRange_succ] at h
      obtain ⟨log₁, hloop, hturn⟩ := Option.bind_eq_some_iff.mp h
      obtain ⟨hadds, hclones⟩ := ih hloop
      obtain ⟨entry, hentry, hturn⟩ := Option.bind_eq_some_iff.mp hturn
      obtain ⟨⟨clone, log₂⟩, hclone, hturn⟩ := Option.bind_eq_some_iff.mp hturn
      obtain rfl := Option.some.inj hturn
      obtain ⟨rfl, hok, hadds₂⟩ := cloneBuf_adds hclone
      have hsucc : kniClones buf (k + 1) = kniClones buf k ++ [{ buf with use := .copy k }] := by
        simp [kniClones, List.range_succ]
      obtain ⟨hk, rfl⟩ := List.getElem?_eq_some_iff.mp hentry
      have hzip : ((ic.kniMap.take (k + 1)).map KniMapping.kniPtr).zip (kniClones buf (k + 1)) =
          ((ic.kniMap.take k).map KniMapping.kniPtr).zip (kniClones buf k) ++
            [(ic.kniMap[k].kniPtr, { buf with use := .copy k })] := by
        rw [hsucc, List.take_succ_eq_append_getElem hk, List.map_append, List.zip_append]
        · rfl
        · simp [kniClones]
          omega
      refine ⟨?_, ?_⟩
      · have hall := (hadds.trans hadds₂).trans (kniWrite_adds env ic.kniMap[k].kniPtr
          [{ buf with use := .copy k }] log₂)
        rw [hzip, hsucc]
        simpa using hall
      · intro i hi
        rcases Nat.lt_succ_iff_lt_or_eq.mp hi with hlt | rfl
        · exact hclones i hlt
        · exact hok

/-- A broadcast packet is offered to every KNI of the link. -/
theorem ingressBroadcast_adds {env : IngressEnv} {ic : IngressClassifier Kni}
    {buf : IngressBuf M} {log log' : List (IngressAct M Kni)}
    (h : ingressBroadcast env ic buf log = some log') :
    (∃ goneBufs, Adds log log' (broadcastOffers ic buf) [] goneBufs
      (kniClones buf (ic.kniMap.length - 1)) ∧
      goneBufs ++ unoffered ic buf = kniClones buf (ic.kniMap.length - 1) ++ [buf]) ∧
    ∀ i, i < ic.kniMap.length - 1 → env.clone buf.idx (.copy i) = true := by
  unfold ingressBroadcast at h
  obtain ⟨log₁, hloop, hlast⟩ := Option.bind_eq_some_iff.mp h
  obtain ⟨hadds, hclones⟩ := broadcastLoop_adds hloop
  refine ⟨?_, hclones⟩
  split at hlast
  · rename_i hpos
    obtain ⟨entry, hentry, hwrite⟩ := Option.bind_eq_some_iff.mp hlast
    obtain rfl := Option.some.inj hwrite
    obtain ⟨hk, rfl⟩ := List.getElem?_eq_some_iff.mp hentry
    have hne : ic.kniMap ≠ [] := List.ne_nil_of_length_pos hpos
    have hall := hadds.trans (kniWrite_adds env ic.kniMap[ic.kniMap.length - 1].kniPtr [buf] log₁)
    have hoffers : broadcastOffers ic buf =
        ((ic.kniMap.take (ic.kniMap.length - 1)).map KniMapping.kniPtr).zip
          (kniClones buf (ic.kniMap.length - 1)) ++
          [(ic.kniMap[ic.kniMap.length - 1].kniPtr, buf)] := by
      have htake := List.take_succ_eq_append_getElem hk
      rw [Nat.sub_add_cancel hpos, List.take_length] at htake
      have hptrs := congrArg (List.map KniMapping.kniPtr) htake
      rw [broadcastOffers, if_neg hne, hptrs, List.map_append, List.zip_append]
      · rfl
      · simp [kniClones]
    refine ⟨kniClones buf (ic.kniMap.length - 1) ++ [buf], ?_, ?_⟩
    · rw [hoffers]
      simpa using hall
    · rw [unoffered, if_neg hne, List.append_nil]
  · rename_i hpos
    obtain rfl := Option.some.inj hlast
    have hnil : ic.kniMap = [] := List.length_eq_zero_iff.mp (by omega)
    refine ⟨kniClones buf (ic.kniMap.length - 1), ?_, ?_⟩
    · simpa [broadcastOffers, hnil] using hadds
    · rw [unoffered, if_pos hnil]

theorem ingressBroadcast_isSome {env : IngressEnv} {ic : IngressClassifier Kni}
    {buf : IngressBuf M} {log : List (IngressAct M Kni)}
    (h : ∀ i, i < ic.kniMap.length - 1 → env.clone buf.idx (.copy i) = true) :
    ∃ log', ingressBroadcast env ic buf log = some log' := by
  have hcopy (i : Nat) (t : List (IngressAct M Kni)) (hi : i < ic.kniMap.length - 1) :
      ∃ u, ingressCopy env ic buf i t = some u ∧ True := by
    have hentry : ic.kniMap[i]? = some ic.kniMap[i] := List.getElem?_eq_getElem (by omega)
    have hclone : cloneBuf env buf (.copy i) t =
        some ({ buf with use := .copy i }, t ++ [.clone { buf with use := .copy i }]) :=
      if_pos (h i hi)
    exact ⟨_, by rw [ingressCopy, hentry, Option.bind_eq_bind, Option.bind_some, hclone]; rfl,
      trivial⟩
  obtain ⟨log₁, hloop, _⟩ : ∃ log₁, forRange (ingressCopy env ic buf) (ic.kniMap.length - 1) log =
      some log₁ ∧ True :=
    forRange_isSome (fun _ _ => True) trivial fun i t hi _ => hcopy i t hi
  unfold ingressBroadcast
  dsimp only
  rw [hloop, Option.bind_eq_bind, Option.bind_some]
  split
  · have hentry : ic.kniMap[ic.kniMap.length - 1]? = some ic.kniMap[ic.kniMap.length - 1] :=
      List.getElem?_eq_getElem (by omega)
    exact ⟨_, by rw [hentry]; rfl⟩
  · exact ⟨_, rfl⟩

/-- The clone of an ARP reply that nobody frees. -/
def replyClone (buf : IngressBuf M) : List (IngressBuf M) :=
  if isArpReply buf.mbuf then [{ buf with use := .arp }] else []

theorem ingressArp_adds {env : IngressEnv} {linkId : UInt16} {buf : IngressBuf D.mbuf}
    {s s' : IngressState D Kni} (h : ingressArp env linkId buf s = some s') :
    Adds s.log s'.log [] [] [] (replyClone buf) ∧
      s' = { s with arp := s'.arp, log := s'.log } := by
  unfold ingressArp at h
  unfold replyClone
  split at h
  · rename_i hreply
    obtain ⟨⟨arpPkt, log⟩, hclone, hrest⟩ := Option.bind_eq_some_iff.mp h
    obtain ⟨⟨ret, arp⟩, _, hset⟩ := Option.bind_eq_some_iff.mp hrest
    obtain rfl := Option.some.inj hset
    obtain ⟨rfl, _, hadds⟩ := cloneBuf_adds hclone
    rw [if_pos hreply]
    exact ⟨hadds, rfl⟩
  · rename_i hreply
    obtain rfl := Option.some.inj h
    rw [if_neg hreply]
    exact ⟨Adds.refl s.log, rfl⟩

/-! ### The loop -/

/-- What the KNIs get of a packet while the loop runs: only broadcasts are written
there. -/
def offersOf (ic : IngressClassifier Kni) (buf : IngressBuf M) : List (Kni × IngressBuf M) :=
  if buf.cls ic = .broadcast then broadcastOffers ic buf else []

/-- What is lost of a packet while the loop runs. -/
def lostOf (ic : IngressClassifier Kni) (buf : IngressBuf M) : List (IngressBuf M) :=
  if buf.cls ic = .broadcast then replyClone buf ++ unoffered ic buf else []

/-- Every clone for a KNI is made. -/
def ClonesMade (env : IngressEnv) (ic : IngressClassifier Kni) (buf : IngressBuf M) : Prop :=
  buf.cls ic = .broadcast →
    ∀ i, i < ic.kniMap.length - 1 → env.clone buf.idx (.copy i) = true

/-- The state behind the packets `done`: no KNI was ever remembered, so all packets
for KNIs are still collected. -/
structure LoopInv (env : IngressEnv) (ic : IngressClassifier Kni)
    (done : List (IngressBuf D.mbuf)) (s : IngressState D Kni) : Prop where
  last : s.lastKniPtr = none
  kniPtr : s.kniPtr = done.getLast?.bind (IngressBuf.kni ic)
  kniPkts : s.kniPkts = done.filter fun buf => buf.cls ic = .others
  ringPkts : s.ringPkts = done.filter fun buf => buf.cls ic = .gtp
  offered : offered s.log = done.flatMap (offersOf ic)
  ringed : ringed s.log = []
  unknown : ∀ buf ∈ done, buf.cls ic = .unknown → .free buf ∈ s.log
  ledger : (gone s.log ++ s.kniPkts ++ s.ringPkts ++ done.flatMap (lostOf ic)).Perm
    (done ++ cloned s.log)
  clones : ∀ buf ∈ done, ClonesMade env ic buf

theorem LoopInv.init (env : IngressEnv) (ic : IngressClassifier Kni) (arp : ArpState D) :
    LoopInv env ic [] (IngressState.init Kni arp) where
  last := rfl
  kniPtr := rfl
  kniPkts := rfl
  ringPkts := rfl
  offered := rfl
  ringed := rfl
  unknown _ h := by cases h
  ledger := List.Perm.refl _
  clones _ h := by cases h

/-- Two balanced accounts make one. -/
theorem ledger_add {α : Type} {g k r l d c g' k' r' l' d' c' : List α}
    (h : (g ++ k ++ r ++ l).Perm (d ++ c)) (h' : (g' ++ k' ++ r' ++ l').Perm (d' ++ c')) :
    (g ++ g' ++ (k ++ k') ++ (r ++ r') ++ (l ++ l')).Perm (d ++ d' ++ (c ++ c')) := by
  classical
  rw [List.perm_iff_count] at h h' ⊢
  intro a
  have ha := h a
  have ha' := h' a
  simp only [List.count_append] at ha ha' ⊢
  omega

section loop

variable {env : IngressEnv} {ic : IngressClassifier Kni} {linkId : UInt16}
  {done : List (IngressBuf D.mbuf)} {buf : IngressBuf D.mbuf} {s s' : IngressState D Kni}

/-- What a step has to show: what it adds for its packet, and that this balances. -/
theorem LoopInv.extend (h : LoopInv env ic done s) {goneBufs kniPkts ringPkts clones :
      List (IngressBuf D.mbuf)}
    (hadds : Adds s.log s'.log (offersOf ic buf) [] goneBufs clones)
    (hlast : s'.lastKniPtr = none) (hkniPtr : s'.kniPtr = buf.kni ic)
    (hkni : s'.kniPkts = s.kniPkts ++ kniPkts) (hring : s'.ringPkts = s.ringPkts ++ ringPkts)
    (hkniPkts : kniPkts = [buf].filter fun b => b.cls ic = .others)
    (hringPkts : ringPkts = [buf].filter fun b => b.cls ic = .gtp)
    (hunknown : buf.cls ic = .unknown → .free buf ∈ s'.log)
    (hledger : (goneBufs ++ kniPkts ++ ringPkts ++ lostOf ic buf).Perm ([buf] ++ clones))
    (hclones : ClonesMade env ic buf) : LoopInv env ic (done ++ [buf]) s' where
  last := hlast
  kniPtr := by rw [hkniPtr]; simp
  kniPkts := by rw [hkni, hkniPkts, h.kniPkts, List.filter_append]
  ringPkts := by rw [hring, hringPkts, h.ringPkts, List.filter_append]
  offered := by
    rw [hadds.offered, h.offered, List.flatMap_append, List.flatMap_singleton]
  ringed := by rw [hadds.ringed, h.ringed, List.append_nil]
  unknown := by
    intro b hb hcls
    rcases List.mem_append.mp hb with hb | hb
    · exact hadds.kept _ (h.unknown b hb hcls)
    · obtain rfl := List.mem_singleton.mp hb
      exact hunknown hcls
  ledger := by
    rw [hadds.gone, hadds.cloned, hkni, hring, List.flatMap_append, List.flatMap_singleton]
    exact ledger_add h.ledger hledger
  clones := by
    intro b hb
    rcases List.mem_append.mp hb with hb | hb
    · exact h.clones b hb
    · obtain rfl := List.mem_singleton.mp hb
      exact hclones

variable [DecidableEq Kni]

/-- Every packet is collected, written or freed by its class. -/
theorem LoopInv.step (h : LoopInv env ic done s)
    (hstep : ingressPkt env ic linkId s buf = some s') :
    LoopInv env ic (done ++ [buf]) s' := by
  unfold ingressPkt at hstep
  cases hcls : buf.cls ic with
  | gtp =>
      have hpair : (packetClassify ic buf.mbuf).1 = .gtp := hcls
      have hoffers : offersOf ic buf = [] := by simp [offersOf, hcls]
      simp only [hpair] at hstep
      split at hstep
      · obtain rfl := Option.some.inj hstep
        refine h.extend (hoffers ▸ Adds.refl s.log) h.last rfl (List.append_nil _).symm rfl
          (by simp [hcls]) (by simp [hcls]) (by simp [hcls]) ?_ (by simp [ClonesMade, hcls])
        simp [lostOf, hcls]
      · cases hstep
  | others =>
      have hpair : (packetClassify ic buf.mbuf).1 = .others := hcls
      have hoffers : offersOf ic buf = [] := by simp [offersOf, hcls]
      -- the KNI remembered is still NULL
      simp only [hpair, h.last, ne_eq, not_true_eq_false, and_false, if_false] at hstep
      split at hstep
      · obtain rfl := Option.some.inj hstep
        refine h.extend (hoffers ▸ Adds.refl s.log) rfl rfl rfl (List.append_nil _).symm
          (by simp [hcls]) (by simp [hcls]) (by simp [hcls]) ?_ (by simp [ClonesMade, hcls])
        simp [lostOf, hcls]
      · cases hstep
  | broadcast =>
      have hpair : (packetClassify ic buf.mbuf).1 = .broadcast := hcls
      have hoffers : offersOf ic buf = broadcastOffers ic buf := by simp [offersOf, hcls]
      simp only [hpair] at hstep
      obtain ⟨s₁, harp, hrest⟩ := Option.bind_eq_some_iff.mp hstep
      obtain ⟨log, hbcast, hset⟩ := Option.bind_eq_some_iff.mp hrest
      obtain rfl := Option.some.inj hset
      obtain ⟨hadds₁, hs₁⟩ := ingressArp_adds harp
      obtain ⟨⟨goneBufs, hadds₂, hgone⟩, hclones⟩ := ingressBroadcast_adds hbcast
      have hadds := hadds₁.trans hadds₂
      rw [List.nil_append, List.nil_append, List.nil_append, ← hoffers] at hadds
      rw [hs₁]
      refine h.extend hadds h.last rfl (List.append_nil _).symm (List.append_nil _).symm
        (by simp [hcls]) (by simp [hcls]) (by simp [hcls]) ?_ (fun _ => hclones)
      -- the packet and the clones for the KNIs are gone, or lost with the reply's clone
      have hlost : lostOf ic buf = replyClone buf ++ unoffered ic buf := by simp [lostOf, hcls]
      have hswap : (goneBufs ++ (replyClone buf ++ unoffered ic buf)).Perm
          (replyClone buf ++ (goneBufs ++ unoffered ic buf)) := by
        rw [← List.append_assoc, ← List.append_assoc]
        exact List.perm_append_comm.append_right _
      have hclose : (replyClone buf ++ (kniClones buf (ic.kniMap.length - 1) ++ [buf])).Perm
          ([buf] ++ (replyClone buf ++ kniClones buf (ic.kniMap.length - 1))) := by
        rw [← List.append_assoc]
        exact List.perm_append_comm
      rw [hgone] at hswap
      rw [hlost, List.append_nil, List.append_nil]
      exact hswap.trans hclose
  | unknown =>
      have hpair : (packetClassify ic buf.mbuf).1 = .unknown := hcls
      have hoffers : offersOf ic buf = [] := by simp [offersOf, hcls]
      simp only [hpair] at hstep
      obtain rfl := Option.some.inj hstep
      have hadds : Adds s.log (s.log ++ [.free buf]) (offersOf ic buf) [] [buf] [] := by
        rw [hoffers]
        exact Adds.of_append s.log [.free buf]
      refine h.extend hadds h.last rfl (List.append_nil _).symm (List.append_nil _).symm
        (by simp [hcls]) (by simp [hcls]) (by simp) ?_ (by simp [ClonesMade, hcls])
      simp [lostOf, hcls]

theorem LoopInv.run {rest : List (IngressBuf D.mbuf)} (h : LoopInv env ic done s)
    (hrun : rest.foldlM (ingressPkt env ic linkId) s = some s') :
    LoopInv env ic (done ++ rest) s' := by
  induction rest generalizing done s with
  | nil =>
      obtain rfl := Option.some.inj hrun
      rw [List.append_nil]
      exact h
  | cons buf rest ih =>
      rw [List.foldlM_cons] at hrun
      obtain ⟨s₁, hstep, hrest⟩ := Option.bind_eq_some_iff.mp hrun
      have hinv := ih (h.step hstep) hrest
      rwa [List.append_assoc, List.singleton_append] at hinv

/-- A packet that is no ARP reply and whose clones are made is got through. -/
theorem LoopInv.step_isSome (h : LoopInv env ic done s) (hroom : done.length < rxBurstSize)
    (hreply : isArpReply buf.mbuf = false) (hclones : ClonesMade env ic buf) :
    ∃ s', ingressPkt env ic linkId s buf = some s' := by
  have hkniRoom : s.kniPkts.length < rxBurstSize := by
    rw [h.kniPkts]
    exact Nat.lt_of_le_of_lt (List.length_filter_le _ _) hroom
  have hringRoom : s.ringPkts.length < rxBurstSize := by
    rw [h.ringPkts]
    exact Nat.lt_of_le_of_lt (List.length_filter_le _ _) hroom
  unfold ingressPkt
  cases hcls : buf.cls ic with
  | gtp =>
      have hpair : (packetClassify ic buf.mbuf).1 = .gtp := hcls
      simp only [hpair]
      exact ⟨_, if_pos hringRoom⟩
  | others =>
      have hpair : (packetClassify ic buf.mbuf).1 = .others := hcls
      simp only [hpair, h.last, ne_eq, not_true_eq_false, and_false, if_false]
      exact ⟨_, if_pos hkniRoom⟩
  | broadcast =>
      have hpair : (packetClassify ic buf.mbuf).1 = .broadcast := hcls
      have harp (t : IngressState D Kni) : ingressArp env linkId buf t = some t := by
        rw [ingressArp, if_neg (by simp [hreply])]
      obtain ⟨log, hlog⟩ : ∃ log, ingressBroadcast _ ic buf s.log = some log :=
        ingressBroadcast_isSome (hclones hcls)
      simp only [hpair, harp]
      exact ⟨_, by rw [Option.bind_eq_bind, Option.bind_some, hlog]; rfl⟩
  | unknown =>
      have hpair : (packetClassify ic buf.mbuf).1 = .unknown := hcls
      simp only [hpair]
      exact ⟨_, rfl⟩

theorem LoopInv.run_isSome {rest : List (IngressBuf D.mbuf)} (h : LoopInv env ic done s)
    (hroom : (done ++ rest).length ≤ rxBurstSize)
    (hreply : ∀ buf ∈ rest, isArpReply buf.mbuf = false)
    (hclones : ∀ buf ∈ rest, ClonesMade env ic buf) :
    ∃ s', rest.foldlM (ingressPkt env ic linkId) s = some s' := by
  induction rest generalizing done s with
  | nil => exact ⟨s, rfl⟩
  | cons buf rest ih =>
      have hlen : done.length + (rest.length + 1) ≤ rxBurstSize := by
        simpa [List.length_append] using hroom
      obtain ⟨s₁, hstep⟩ : ∃ s₁, ingressPkt env ic linkId s buf = some s₁ :=
        h.step_isSome (by omega) (hreply buf List.mem_cons_self) (hclones buf List.mem_cons_self)
      obtain ⟨s', hrest⟩ := ih (h.step hstep) (by simpa using hroom)
        (fun b hb => hreply b (List.mem_cons_of_mem buf hb))
        (fun b hb => hclones b (List.mem_cons_of_mem buf hb))
      exact ⟨s', by rw [List.foldlM_cons, hstep]; exact hrest⟩

end loop

/-- What is flushed: everything collected, to the KNI of the last packet if it has
one. -/
theorem ingressFlush_adds (env : IngressEnv) (s : IngressState D Kni) :
    Adds s.log (ingressFlush env s)
      (match s.kniPtr with
        | none => []
        | some kni => s.kniPkts.map fun buf => (kni, buf))
      s.ringPkts ((if s.kniPtr = none then [] else s.kniPkts) ++ s.ringPkts) [] := by
  have hring (log : List (IngressAct D.mbuf Kni)) :
      Adds log (if 0 < s.ringPkts.length then ringWrite env s.ringPkts log else log)
        [] s.ringPkts s.ringPkts [] := by
    split
    · exact ringWrite_adds env s.ringPkts log
    · rename_i hnone
      have hnil : s.ringPkts = [] := List.length_eq_zero_iff.mp (by omega)
      rw [hnil]
      exact Adds.refl log
  have hkni : Adds s.log
      (if 0 < s.kniPkts.length then kniWrite env s.kniPtr s.kniPkts s.log else s.log)
      (match s.kniPtr with
        | none => []
        | some kni => s.kniPkts.map fun buf => (kni, buf))
      [] (if s.kniPtr = none then [] else s.kniPkts) [] := by
    cases hptr : s.kniPtr with
    | none =>
        rw [kniWrite, ite_self]
        exact Adds.refl s.log
    | some kni =>
        have hsome : (if some kni = none then [] else s.kniPkts) = s.kniPkts := if_neg (by simp)
        rw [hsome]
        split
        · exact kniWrite_adds env kni s.kniPkts s.log
        · rename_i hnone
          have hnil : s.kniPkts = [] := List.length_eq_zero_iff.mp (by omega)
          rw [hnil]
          exact Adds.refl s.log
  have hall := hkni.trans (hring _)
  rw [List.append_nil, List.nil_append, List.append_nil] at hall
  exact hall

/-! ### The burst -/

/-- The packets of a burst have different indices. -/
theorem nodup_idx_rxBufs (pkts : List M.Mbuf) : ((rxBufs pkts).map IngressBuf.idx).Nodup := by
  have hidx : (rxBufs pkts).map IngressBuf.idx = pkts.zipIdx.map Prod.snd := by
    rw [rxBufs, List.map_map]
    rfl
  rw [hidx, List.zipIdx_map_snd]
  exact List.nodup_range'

/-- What one packet contributes, picked by its index. -/
theorem filter_flatMap_idx {f : IngressBuf M → List (Kni × IngressBuf M)}
    (hf : ∀ buf, ∀ p ∈ f buf, p.2.idx = buf.idx) {bufs : List (IngressBuf M)}
    (hnodup : (bufs.map IngressBuf.idx).Nodup) {buf : IngressBuf M} (hbuf : buf ∈ bufs) :
    ((bufs.flatMap f).filter fun p => p.2.idx = buf.idx) = f buf := by
  have hown (b : IngressBuf M) (hb : b.idx = buf.idx) :
      ((f b).filter fun p => p.2.idx = buf.idx) = f b := by
    apply List.filter_eq_self.mpr
    intro p hp
    simpa using (hf b p hp).trans hb
  have hother (b : IngressBuf M) (hb : b.idx ≠ buf.idx) :
      ((f b).filter fun p => p.2.idx = buf.idx) = [] := by
    apply List.filter_eq_nil_iff.mpr
    intro p hp
    simpa [hf b p hp] using hb
  induction bufs with
  | nil => cases hbuf
  | cons b bufs ih =>
      rw [List.map_cons, List.nodup_cons] at hnodup
      rw [List.flatMap_cons, List.filter_append]
      rcases List.mem_cons.mp hbuf with rfl | hrest
      · have hnone : ((bufs.flatMap f).filter fun p => p.2.idx = buf.idx) = [] := by
          rw [List.filter_flatMap, List.flatMap_eq_nil_iff]
          intro b hb
          apply hother
          intro heq
          exact hnodup.1 (heq ▸ List.mem_map_of_mem hb)
        rw [hown buf rfl, hnone, List.append_nil]
      · have hne : b.idx ≠ buf.idx := by
          intro heq
          exact hnodup.1 (heq ▸ List.mem_map_of_mem hrest)
        rw [hother b hne, List.nil_append, ih hnodup.2 hrest]

/-- The offers of a broadcast packet are of its own buffers, one for every KNI. -/
theorem broadcastOffers_spec (ic : IngressClassifier Kni) (buf : IngressBuf M) :
    (broadcastOffers ic buf).map Prod.fst = ic.kniMap.map KniMapping.kniPtr ∧
      ∀ p ∈ broadcastOffers ic buf, p.2.idx = buf.idx ∧ p.2.mbuf = buf.mbuf := by
  constructor
  · rw [broadcastOffers, List.map_fst_zip]
    cases hmap : ic.kniMap with
    | nil => simp
    | cons entry rest => simp [kniClones]
  · intro p hp
    have hmem := (List.of_mem_zip hp).2
    rcases List.mem_append.mp hmem with hclone | hlast
    · obtain ⟨i, _, hi⟩ := List.mem_map.mp hclone
      rw [← hi]
      exact ⟨rfl, rfl⟩
    · split at hlast
      · cases hlast
      · rw [List.mem_singleton.mp hlast]
        exact ⟨rfl, rfl⟩

theorem offersOf_spec {ic : IngressClassifier Kni} {buf : IngressBuf M}
    {p : Kni × IngressBuf M} (hp : p ∈ offersOf ic buf) :
    p.2.idx = buf.idx ∧ p.2.cls ic = .broadcast := by
  unfold offersOf at hp
  split at hp
  · rename_i hcls
    obtain ⟨hidx, hmbuf⟩ := (broadcastOffers_spec ic buf).2 p hp
    exact ⟨hidx, by rw [IngressBuf.cls, hmbuf]; exact hcls⟩
  · cases hp

section burst

variable {env : IngressEnv} {ic : IngressClassifier Kni} {s : IngressState D Kni}

/-- The KNIs that were given the packet at an index of the burst, or a clone of it. -/
def knisGiven (idx : Nat) (log : List (IngressAct M Kni)) : List Kni :=
  ((offered log).filter fun p => p.2.idx = idx).map Prod.fst

/-- The KNIs that were given a broadcast packet: all of the link. -/
theorem LoopInv.knisGiven {bufs : List (IngressBuf D.mbuf)} (h : LoopInv env ic bufs s)
    (hnodup : (bufs.map IngressBuf.idx).Nodup) {buf : IngressBuf D.mbuf} (hbuf : buf ∈ bufs)
    (hcls : buf.cls ic = .broadcast) :
    knisGiven buf.idx (ingressFlush env s) = ic.kniMap.map KniMapping.kniPtr := by
  -- what is flushed are other packets
  have hidx : ∀ b ∈ s.kniPkts, b.idx ≠ buf.idx := by
    intro b hb heq
    rw [h.kniPkts] at hb
    obtain ⟨hmem, hb⟩ := List.mem_filter.mp hb
    rw [List.inj_on_of_nodup_map hnodup hmem hbuf heq, hcls] at hb
    simp at hb
  have hflush : (match s.kniPtr with
      | none => []
      | some kni => s.kniPkts.map fun b => (kni, b)).filter
        (fun p : Kni × IngressBuf D.mbuf => decide (p.2.idx = buf.idx)) = [] := by
    cases s.kniPtr with
    | none => rfl
    | some kni =>
        apply List.filter_eq_nil_iff.mpr
        intro p hp
        obtain ⟨b, hb, rfl⟩ := List.mem_map.mp hp
        simpa using hidx b hb
  have hoffers : offersOf ic buf = broadcastOffers ic buf := if_pos hcls
  rw [Pfm.knisGiven, (ingressFlush_adds env s).offered, h.offered, List.filter_append, hflush,
    List.append_nil, filter_flatMap_idx (fun b p hp => (offersOf_spec hp).1) hnodup hbuf, hoffers,
    (broadcastOffers_spec ic buf).1]

variable [DecidableEq Kni]

/-- The packets a KNI was given, in order. -/
def offeredTo (kni : Kni) (log : List (IngressAct M Kni)) : List (IngressBuf M) :=
  ((offered log).filter fun p => p.1 = kni).map Prod.snd

/-- Every packet goes where its class sends it, and every buffer that was received or
cloned is taken over by a KNI or the ring, or freed, exactly once.  What a KNI or the
ring is given and has no room for is freed. -/
structure Delivered (ic : IngressClassifier Kni) (bufs : List (IngressBuf M))
    (log : List (IngressAct M Kni)) : Prop where
  others : ∀ kni, ((offeredTo kni log).filter fun buf => buf.cls ic = .others) =
    bufs.filter fun buf => buf.cls ic = .others ∧ buf.kni ic = some kni
  gtp : ringed log = bufs.filter fun buf => buf.cls ic = .gtp
  broadcast : ∀ buf ∈ bufs, buf.cls ic = .broadcast →
    knisGiven buf.idx log = ic.kniMap.map KniMapping.kniPtr
  unknown : ∀ buf ∈ bufs, buf.cls ic = .unknown → .free buf ∈ log
  noLoss : (gone log).Perm (bufs ++ cloned log)

/-- The bursts that are delivered: the packets for KNIs are all for the one that
`packet_classify` returns for the last packet of the burst; a link without KNIs gets no
broadcasts; there is no ARP reply; and the clones for the KNIs are made. -/
structure IngressFits (env : IngressEnv) (ic : IngressClassifier Kni)
    (bufs : List (IngressBuf M)) : Prop where
  lastKni : ∀ buf ∈ bufs, buf.cls ic = .others →
    bufs.getLast?.bind (IngressBuf.kni ic) = buf.kni ic
  hasKni : ∀ buf ∈ bufs, buf.cls ic = .broadcast → ic.kniMap ≠ []
  noReply : ∀ buf ∈ bufs, isArpReply buf.mbuf = false
  clones : ∀ buf ∈ bufs, ClonesMade env ic buf

/-- The packets a KNI was given of the class OTHERS: what was collected, if it is the
KNI of the last packet. -/
theorem LoopInv.offeredTo_others {bufs : List (IngressBuf D.mbuf)} (h : LoopInv env ic bufs s)
    (kni : Kni) :
    ((offeredTo kni (ingressFlush env s)).filter fun buf => buf.cls ic = .others) =
      if s.kniPtr = some kni then s.kniPkts else [] := by
  have hbcast : (((bufs.flatMap (offersOf ic)).filter fun p => p.1 = kni).map Prod.snd).filter
      (fun buf => buf.cls ic = .others) = [] := by
    apply List.filter_eq_nil_iff.mpr
    intro buf hbuf
    obtain ⟨p, hp, rfl⟩ := List.mem_map.mp hbuf
    obtain ⟨b, _, hpb⟩ := List.mem_flatMap.mp (List.mem_filter.mp hp).1
    simp [(offersOf_spec hpb).2]
  have hothers : s.kniPkts.filter (fun buf => buf.cls ic = .others) = s.kniPkts := by
    rw [h.kniPkts, List.filter_filter]
    simp
  rw [offeredTo, (ingressFlush_adds env s).offered, h.offered, List.filter_append, List.map_append,
    List.filter_append, hbcast, List.nil_append]
  cases hptr : s.kniPtr with
  | none => simp
  | some k =>
      by_cases hk : k = kni
      · subst hk
        rw [if_pos rfl]
        simpa [List.filter_map, Function.comp_def] using hothers
      · rw [if_neg (by simpa using hk)]
        simp [List.filter_map, Function.comp_def, hk]

/-- A burst that fits is delivered. -/
theorem LoopInv.delivered {bufs : List (IngressBuf D.mbuf)} (h : LoopInv env ic bufs s)
    (hnodup : (bufs.map IngressBuf.idx).Nodup) (hfits : IngressFits env ic bufs) :
    Delivered ic bufs (ingressFlush env s) := by
  have hflush := ingressFlush_adds env s
  have hkniPtr : ∀ buf ∈ s.kniPkts, buf.kni ic = s.kniPtr := by
    intro buf hbuf
    rw [h.kniPkts] at hbuf
    obtain ⟨hmem, hcls⟩ := List.mem_filter.mp hbuf
    rw [h.kniPtr]
    exact (hfits.lastKni buf hmem (of_decide_eq_true hcls)).symm
  refine ⟨fun kni => ?_, ?_, ?_, ?_, ?_⟩
  · rw [h.offeredTo_others]
    have hboth : (bufs.filter fun buf => decide (buf.cls ic = .others ∧ buf.kni ic = some kni)) =
        s.kniPkts.filter fun buf => decide (buf.kni ic = some kni) := by
      rw [h.kniPkts, List.filter_filter]
      apply List.filter_congr
      intro buf _
      simp [Bool.and_comm]
    rw [hboth]
    split
    · rename_i hptr
      symm
      apply List.filter_eq_self.mpr
      intro buf hbuf
      simp [hkniPtr buf hbuf, hptr]
    · rename_i hptr
      symm
      apply List.filter_eq_nil_iff.mpr
      intro buf hbuf
      simpa [hkniPtr buf hbuf] using hptr
  · rw [hflush.ringed, h.ringed, List.nil_append, h.ringPkts]
  · intro buf hbuf hcls
    exact h.knisGiven hnodup hbuf hcls
  · intro buf hbuf hcls
    exact hflush.kept _ (h.unknown buf hbuf hcls)
  · have hlost : bufs.flatMap (lostOf ic) = [] := by
      rw [List.flatMap_eq_nil_iff]
      intro buf hbuf
      unfold lostOf
      split
      · rename_i hcls
        simp [replyClone, unoffered, hfits.noReply buf hbuf, hfits.hasKni buf hbuf hcls]
      · rfl
    have hgiven : (if s.kniPtr = none then [] else s.kniPkts) = s.kniPkts := by
      split
      · rename_i hptr
        symm
        apply List.eq_nil_iff_forall_not_mem.mpr
        intro buf hbuf
        have hcls := (List.mem_filter.mp (h.kniPkts ▸ hbuf)).2
        obtain ⟨kni, hkni⟩ := kni_of_others (of_decide_eq_true hcls)
        rw [hkniPtr buf hbuf, hptr] at hkni
        cases hkni
      · rfl
    have hledger := h.ledger
    rw [hlost, List.append_nil, List.append_assoc] at hledger
    rw [hflush.gone, hflush.cloned, hgiven, List.append_nil]
    exact hledger

/-- A burst that is delivered fits. -/
theorem LoopInv.fits {bufs : List (IngressBuf D.mbuf)} (h : LoopInv env ic bufs s)
    (hdel : Delivered ic bufs (ingressFlush env s)) : IngressFits env ic bufs := by
  have hflush := ingressFlush_adds env s
  -- the account of the loop against the one of the whole burst: nothing was lost
  have hlen := hdel.noLoss.length_eq
  have hlen' := h.ledger.length_eq
  rw [hflush.gone, hflush.cloned, List.append_nil] at hlen
  simp only [List.length_append] at hlen hlen'
  have hgiven : (if s.kniPtr = none then [] else s.kniPkts).length ≤ s.kniPkts.length := by
    split
    · exact Nat.zero_le _
    · exact Nat.le_refl _
  have hlost : bufs.flatMap (lostOf ic) = [] := List.length_eq_zero_iff.mp (by omega)
  have hlostOf : ∀ buf ∈ bufs, buf.cls ic = .broadcast →
      replyClone buf ++ unoffered ic buf = [] := by
    intro buf hbuf hcls
    have hnil := List.flatMap_eq_nil_iff.mp hlost buf hbuf
    rwa [lostOf, if_pos hcls] at hnil
  refine ⟨fun buf hbuf hcls => ?_, fun buf hbuf hcls hmap => ?_, fun buf hbuf => ?_, h.clones⟩
  · obtain ⟨kni, hkni⟩ := kni_of_others hcls
    have hmem : buf ∈ bufs.filter fun b => b.cls ic = .others ∧ b.kni ic = some kni := by
      simp [hbuf, hcls, hkni]
    rw [← hdel.others kni, h.offeredTo_others] at hmem
    split at hmem
    · rename_i hptr
      rw [← h.kniPtr, hptr, hkni]
    · cases hmem
  · have hnil := (List.append_eq_nil_iff.mp (hlostOf buf hbuf hcls)).2
    rw [unoffered, if_pos hmap] at hnil
    cases hnil
  · by_contra hreply
    rw [Bool.not_eq_false] at hreply
    have hnil := (List.append_eq_nil_iff.mp
      (hlostOf buf hbuf (broadcast_of_isArpReply hreply))).1
    rw [replyClone, if_pos hreply] at hnil
    cases hnil

/-- The table of a link.  There is none for a link that is not open. -/
def linkClassifier (tables : CArray (lastLinkId + 1) (IngressClassifier Kni)) (linkId : UInt16) :
    IngressClassifier Kni :=
  if h : linkId.toNat < lastLinkId + 1 then tables ⟨linkId.toNat, h⟩ else ⟨[], Nat.zero_le _⟩

/-- **Ingress delivery.**  A burst is delivered exactly when it fits, and comes from one
of the links, or is empty. -/
theorem ingress_delivered_iff {D : Dpdk} {Kni : Type} [DecidableEq Kni] (env : IngressEnv)
    (tables : CArray (lastLinkId + 1) (IngressClassifier Kni)) (linkId : UInt16)
    (arp : ArpState D) {pkts : List D.mbuf.Mbuf} (hlen : pkts.length ≤ rxBurstSize) :
    (∃ log arp', ingressClassify env tables linkId arp pkts = some (log, arp') ∧
      Delivered (linkClassifier tables linkId) (rxBufs pkts) log) ↔
    (pkts = [] ∨ linkId.toNat ≤ lastLinkId) ∧
      IngressFits env (linkClassifier tables linkId) (rxBufs pkts) := by
  by_cases hlink : linkId.toNat < lastLinkId + 1
  · have htable : linkClassifier tables linkId = tables ⟨linkId.toNat, hlink⟩ := dif_pos hlink
    have hinit := LoopInv.init env (tables ⟨linkId.toNat, hlink⟩) arp
    rw [htable, ingressClassify, dif_pos hlink]
    constructor
    · intro hex
      obtain ⟨log, arp', hrun, hdel⟩ := hex
      obtain ⟨s, hloop, hend⟩ := Option.bind_eq_some_iff.mp hrun
      obtain ⟨rfl, _⟩ := Prod.mk.inj (Option.some.inj hend)
      exact ⟨Or.inr (by omega), (hinit.run hloop).fits hdel⟩
    · intro hboth
      obtain ⟨_, hfits⟩ := hboth
      have hroom : ([] ++ rxBufs pkts).length ≤ rxBurstSize := by simpa [rxBufs] using hlen
      obtain ⟨s, hloop⟩ : ∃ s, (rxBufs pkts).foldlM
          (ingressPkt env (tables ⟨linkId.toNat, hlink⟩) linkId) (IngressState.init Kni arp) =
          some s := hinit.run_isSome hroom hfits.noReply hfits.clones
      refine ⟨ingressFlush env s, s.arp, Option.bind_eq_some_iff.mpr ⟨s, hloop, rfl⟩, ?_⟩
      exact (hinit.run hloop).delivered (nodup_idx_rxBufs pkts) hfits
  · rw [ingressClassify, dif_neg hlink]
    constructor
    · intro hex
      obtain ⟨log, arp', hrun, hdel⟩ := hex
      obtain ⟨rfl, _⟩ := Prod.mk.inj (Option.some.inj hrun)
      -- nothing was done, so nothing may have been received
      have hnil : rxBufs pkts = [] := by
        apply List.length_eq_zero_iff.mp
        have := hdel.noLoss.length_eq
        simpa [gone, cloned] using this.symm
      have hpkts : pkts = [] := by simpa [rxBufs] using hnil
      rw [hnil]
      exact ⟨Or.inl hpkts, ⟨nofun, nofun, nofun, nofun⟩⟩
    · intro hboth
      obtain ⟨rfl | hlink', _⟩ := hboth
      · exact ⟨[], arp, rfl, ⟨fun _ => rfl, rfl, nofun, nofun, List.Perm.refl _⟩⟩
      · omega

end burst

/-- A link with two KNIs. -/
def twoKnis : CArray (lastLinkId + 1) (IngressClassifier Nat) :=
  fun _ => ⟨[⟨1, 0x0A000001, 2152⟩, ⟨2, 0x0A000002, 2152⟩], by decide⟩

/-- An ICMP packet to 10.0.0.`last`. -/
def icmpTo (last : UInt8) : listDpdk.mbuf.Mbuf :=
  ⟨{ mtod := 8192
     headroom := 128
     dataLen := 60
     tailroom := 1860
     byte := fun i =>
       if i = 12 then 8 else if i = 23 then 1 else if i = 30 then 10
       else if i = 33 then last else 0
     chained := []
     port := 0
     olFlags := 0 }, by change 4096 + 128 ≤ 8192; decide⟩

/-- Every clone is made and every burst taken. -/
def idealEnv : IngressEnv := ⟨fun _ _ => true, fun _ => 32, fun _ => .ok⟩

theorem ingress_delivered_iff_icmp :
    (∃ log arp', ingressClassify idealEnv twoKnis 0 (ArpState.init listDpdk)
        [icmpTo 1, icmpTo 1] = some (log, arp') ∧
      Delivered (linkClassifier twoKnis 0) (rxBufs [icmpTo 1, icmpTo 1]) log) ↔
    ([icmpTo 1, icmpTo 1] = [] ∨ (0 : UInt16).toNat ≤ lastLinkId) ∧
      IngressFits idealEnv (linkClassifier twoKnis 0) (rxBufs [icmpTo 1, icmpTo 1]) :=
  ingress_delivered_iff idealEnv twoKnis 0 (ArpState.init listDpdk) (by decide)

/-- Of two packets for two KNIs the second KNI gets both. -/
theorem ingress_icmp_misdelivered :
    ¬ ∃ log arp', ingressClassify idealEnv twoKnis 0 (ArpState.init listDpdk)
        [icmpTo 1, icmpTo 2] = some (log, arp') ∧
      Delivered (linkClassifier twoKnis 0) (rxBufs [icmpTo 1, icmpTo 2]) log := by
  intro hex
  obtain ⟨log, arp', hrun, hdel⟩ := hex
  have hsecond := congrArg List.length (hdel.others 2)
  have hgiven : (ingressClassify idealEnv twoKnis 0 (ArpState.init listDpdk)
      [icmpTo 1, icmpTo 2]).map (fun r => ((offeredTo 2 r.1).filter
        fun buf => buf.cls (linkClassifier twoKnis 0) = .others).length) = some 2 := by decide
  rw [hrun, Option.map_some, Option.some.injEq] at hgiven
  rw [hgiven] at hsecond
  revert hsecond
  decide

end Pfm
