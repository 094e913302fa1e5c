import Pfm.ArpFrame
import Pfm.ArpHistory
import Pfm.ClassifierAdd
import Pfm.FrameAgreement
import Pfm.IngressDelivery
import Pfm.KniRead
import Pfm.LossyNetwork

/-!
# Address resolution on a network

The program on an Ethernet with other stations.  It sends requests when it has a packet
for an address it does not know (`pfm_data_req`) and when an entry of its table gets old
(`refresh_callback`), and takes the replies that come in with a burst
(`ingress_classify`).  The kernel behind its interfaces asks and answers too, with their
addresses.  Frames get lost, delayed, reordered and duplicated.

* `Honest` : the others speak for their own addresses only;
* `arp_truthful` : then the table never says anything untrue.
-/

namespace Pfm

open BoundedLoop ByteBuffer StepSystem ArpState LossyNetwork

variable {D : Dpdk} {Kni : Type}

/-! ### The addresses in use -/

/-- The bit of a MAC address that stands for many stations. -/
def isGroupMac (mac : MacAddr) : Bool := mac 0 % 2 = 1

/-- The other stations: who has which address. -/
structure Lan where
  stations : List (PfmIpAddr × MacAddr)
  unicast : ∀ station ∈ stations, isGroupMac station.2 = false

/-- A MAC address that an interface can have beside the other stations. -/
def Lan.Free (lan : Lan) (mac : MacAddr) : Prop :=
  isGroupMac mac = false ∧ ∀ station ∈ lan.stations, station.2 ≠ mac

instance (lan : Lan) (mac : MacAddr) : Decidable (lan.Free mac) :=
  @instDecidableAnd _ _ inferInstance (List.decidableBAll _ _)

/-- What the packet path reads of an interface. -/
def KniEntry.info (kni : KniEntry Kni) : KniInfo := ⟨kni.ipAddr, kni.macAddr, kni.linkId⟩

theorem KniList.length_infos_le (L : KniList Kni) :
    (L.entries.map KniEntry.info).length ≤ maxKniPorts := by
  rw [List.length_map, KniList.entries, CArray.firstN, List.length_take]
  exact Nat.le_trans (Nat.min_le_left _ _) L.kniCount_le

/-- The interfaces as the packet path reads them. -/
def KniList.table (L : KniList Kni) : KniTable :=
  ⟨L.entries.map KniEntry.info, L.length_infos_le⟩

/-- An interface of the table has this address, and this MAC address. -/
def HasIp (t : KniTable) (ip : PfmIpAddr) : Prop := ∃ kni ∈ t.kniInfoList, kni.ipAddr = ip

def HasMac (t : KniTable) (mac : MacAddr) : Prop := ∃ kni ∈ t.kniInfoList, kni.macAddr = mac

instance (t : KniTable) (ip : PfmIpAddr) : Decidable (HasIp t ip) :=
  inferInstanceAs (Decidable (∃ kni ∈ t.kniInfoList, _))

instance (t : KniTable) (mac : MacAddr) : Decidable (HasMac t mac) :=
  inferInstanceAs (Decidable (∃ kni ∈ t.kniInfoList, _))

/-- Who answers for an address has this MAC address: another station, or an interface. -/
def Owns (lan : Lan) (t : KniTable) (ip : PfmIpAddr) (mac : MacAddr) : Prop :=
  (ip, mac) ∈ lan.stations ∨ ∃ kni ∈ t.kniInfoList, kni.ipAddr = ip ∧ kni.macAddr = mac

instance (lan : Lan) (t : KniTable) (ip : PfmIpAddr) (mac : MacAddr) :
    Decidable (Owns lan t ip mac) :=
  inferInstanceAs (Decidable (_ ∨ _))

/-! ### The frames of the others -/

/-- A frame of another type than ARP. -/
def NotArp (frame : List UInt8) : Prop :=
  etherHdrSize ≤ frame.length ∧ (frame.drop etherTypeOff).take 2 ≠ bigEndian 2 etherTypeArp

instance (frame : List UInt8) : Decidable (NotArp frame) := inferInstanceAs (Decidable (_ ∧ _))

/-- The reply to a request, from whoever has the address. -/
structure Answers (req a : ArpFrame) : Prop where
  opcode : req.arpOpcode = arpOpRequest
  sip : a.arpSip = req.arpTip
  tha : a.arpTha = req.arpSha
  tip : a.arpTip = req.arpSip
  dAddr : a.dAddr = req.arpSha

instance (req a : ArpFrame) : Decidable (Answers req a) :=
  decidable_of_iff (req.arpOpcode = arpOpRequest ∧ a.arpSip = req.arpTip ∧
    a.arpTha = req.arpSha ∧ a.arpTip = req.arpSip ∧ a.dAddr = req.arpSha)
    ⟨fun ⟨h1, h2, h3, h4, h5⟩ => ⟨h1, h2, h3, h4, h5⟩, fun h => ⟨h.1, h.2, h.3, h.4, h.5⟩⟩

/-- A reply to nobody: a station announces its own address to all. -/
def Announces (a : ArpFrame) : Prop := a.arpTip = a.arpSip ∧ a.dAddr = broadcastMac

instance (a : ArpFrame) : Decidable (Announces a) := inferInstanceAs (Decidable (_ ∧ _))

/-- What the other stations, and the kernel, send.  They ask from their own addresses,
and reply for them, to a request that was sent or to all. -/
def Honest (lan : Lan) (t : KniTable) (sent : List (List UInt8)) (frame : List UInt8) : Prop :=
  match ArpFrame.parse frame with
  | none => NotArp frame
  | some a => Owns lan t a.arpSip a.arpSha ∧
      (a.arpOpcode = arpOpRequest ∨ a.arpOpcode = arpOpReply ∧
        (Announces a ∨ ∃ req ∈ sent.filterMap ArpFrame.parse, Answers req a))

instance (lan : Lan) (t : KniTable) (sent : List (List UInt8)) (frame : List UInt8) :
    Decidable (Honest lan t sent frame) := by
  unfold Honest
  cases ArpFrame.parse frame with
  | none => exact inferInstanceAs (Decidable (NotArp frame))
  | some a => exact inferInstanceAs (Decidable (_ ∧ _))

/-! ### The program -/

/-- The interfaces and the ARP table. -/
structure ArpHost (D : Dpdk) (Kni : Type) where
  kni : KniList Kni
  arp : ArpState D

/-- Program start. -/
def ArpHost.init (D : Dpdk) (Kni : Type) : ArpHost D Kni := ⟨KniList.init Kni, ArpState.init D⟩

/-- A buffer that the network card filled with a frame. -/
structure RxFrame (M : RteMbuf) where
  mbuf : M.Mbuf
  frame : List UInt8
  pad : List UInt8
  received : Received M mbuf (frame ++ pad)

/-- The card takes frames for the addresses of the interfaces, and for groups. -/
def TakesFrame (t : KniTable) (frame : List UInt8) : Prop :=
  let dAddr := ArpFrame.macOf (frame.take macAddrSize)
  HasMac t dAddr ∨ isGroupMac dAddr = true

instance (t : KniTable) (frame : List UInt8) : Decidable (TakesFrame t frame) :=
  inferInstanceAs (Decidable (_ ∨ _))

/-- A call of `pfm_data_req`, and the routes at the time. -/
structure DataReqCall (D : Dpdk) where
  route : RouteTable D
  lcoreId : Nat
  wkr : WorkerInfo D.mbuf
  localIpAddr : PfmIpAddr
  remoteIpAddr : PfmIpAddr
  protocol : PfmProtocol
  localPortNo : Int
  remotePortNo : Int
  mbuf : D.mbuf.Mbuf

def DataReqCall.run (call : DataReqCall D) (H : ArpHost D Kni) : DataReqEnd D.mbuf :=
  pfmDataReq ⟨H.kni.table, H.arp.table, call.route⟩ call.lcoreId call.wkr call.localIpAddr
    call.remoteIpAddr call.protocol call.localPortNo call.remotePortNo call.mbuf

/-- An interface opened, closed or configured, a burst, a timer that expires, or a packet
to be sent. -/
inductive ArpInput (D : Dpdk) (Kni : Type) where
  | opened (env : KniOpenEnv Kni) (args : KniOpenArgs)
  | closed (kni : Kni)
  | config (kniId : UInt16) (kniState : UInt8)
  | ingress (env : IngressEnv) (tables : CArray (lastLinkId + 1) (IngressClassifier Kni))
      (linkId : UInt16) (burst : List (RxFrame D.mbuf))
  | expiry (r : Fin pfmArpTableEntries) (envs : Nat → TxArpEnv D.mbuf)
  | dataReq (call : DataReqCall D) (envs : Nat → TxArpEnv D.mbuf)

/-- The frames of some calls of `pfm_kni_tx_arp` that reach the TX loop. -/
def arpFrames (P : RteMbufLen D.mbuf) (t : KniTable) (envs : Nat → TxArpEnv D.mbuf)
    (calls : List KniTxArp) : List (List UInt8) :=
  calls.zipIdx.filterMap fun call =>
    match pfmKniTxArp P t (envs call.2) call.1 with
    | .queued mbuf => some (RteMbuf.packet mbuf)
    | _ => none

section host

variable [DecidableEq Kni]

/-- One input.  A new interface has a MAC address of its own, the card takes only what is
for it, and a timer expires only when it runs. -/
def arpServe (lan : Lan) (P : RteMbufLen D.mbuf) (H : ArpHost D Kni) :
    ArpInput D Kni → Option (ArpHost D Kni × List (List UInt8))
  | .opened env args =>
      if lan.Free (env.macAddr.getD defaultKniMacAddr) then
        some ({ H with kni := (kniOpen env H.kni args).1 }, [])
      else none
  | .closed kni => (kniClose H.kni kni).map fun L => ({ H with kni := L }, [])
  | .config kniId kniState =>
      some ({ H with kni := (callbackFuncKniIfConfig H.kni kniId kniState).1 }, [])
  | .ingress env tables linkId burst =>
      if ∀ rx ∈ burst, TakesFrame H.kni.table rx.frame then
        (ingressClassify env tables linkId H.arp (burst.map RxFrame.mbuf)).map fun out =>
          ({ H with arp := out.2 }, [])
      else none
  | .expiry r envs =>
      if H.arp.refreshTimer r then
        let out := refreshCallback H.kni.table H.arp r
        some ({ H with arp := out.2 }, arpFrames P H.kni.table envs out.1)
      else none
  | .dataReq call envs =>
      some (H,
        match call.run H with
        | .freed _ arps => arpFrames P H.kni.table envs arps
        | .queued frame _ => [RteMbuf.packet frame])

/-- The frames a burst brings. -/
def arpBrings : ArpInput D Kni → List (List UInt8)
  | .ingress _ _ _ burst => burst.map RxFrame.frame
  | _ => []

/-- The program as a party on the network. -/
def arpParty (lan : Lan) (P : RteMbufLen D.mbuf) :
    Party (ArpHost D Kni) (ArpInput D Kni) (List UInt8) := ⟨arpServe lan P, arpBrings⟩

/-- A step on the network, with honest others. -/
def arpNetStep (lan : Lan) (P : RteMbufLen D.mbuf) (N : Net (ArpHost D Kni) (List UInt8))
    (e : NetEvent (ArpInput D Kni) (List UInt8)) : Option (Net (ArpHost D Kni) (List UInt8)) :=
  netStep (arpParty lan P) (fun H => Honest lan H.kni.table) N e

end host

/-! ### The interfaces -/

section grows

variable {lan : Lan} {t t' : KniTable} {L L' : KniList Kni}

/-- Interfaces are only added, each with a MAC address of its own. -/
structure Grows (lan : Lan) (t t' : KniTable) : Prop where
  kept : ∀ kni ∈ t.kniInfoList, kni ∈ t'.kniInfoList
  new : ∀ kni ∈ t'.kniInfoList, kni ∈ t.kniInfoList ∨ lan.Free kni.macAddr

theorem Grows.refl (lan : Lan) (t : KniTable) : Grows lan t t := ⟨fun _ h => h, fun _ h => Or.inl h⟩

theorem KniList.table_congr (hcount : L'.kniCount = L.kniCount)
    (hinfo : ∀ i, (L'.kniInfoList i).info = (L.kniInfoList i).info) : L'.table = L.table := by
  have hlist : L'.entries.map KniEntry.info = L.entries.map KniEntry.info := by
    simp only [KniList.entries, CArray.firstN, List.map_take, List.map_ofFn, hcount]
    exact congrArg (fun f => (List.ofFn f).take L.kniCount) (funext hinfo)
  simp only [KniList.table, hlist]

theorem KniList.table_setOps (L : KniList Kni) (i : Fin maxKniPorts) (st : OpsState) :
    (L.setOps i st).table = L.table := by
  refine KniList.table_congr (Eq.refl _) fun j => ?_
  by_cases hji : j = i
  · subst hji
    rw [KniList.setOps_self]
    exact Eq.refl _
  · rw [KniList.setOps_of_ne hji]

theorem KniList.table_setPtr (L : KniList Kni) (i : Fin maxKniPorts) (ptr : Option Kni) :
    (L.setPtr i ptr).table = L.table := by
  refine KniList.table_congr (Eq.refl _) fun j => ?_
  simp only [KniList.setPtr]
  by_cases hji : j = i
  · subst hji
    rw [Function.update_self]
    exact Eq.refl _
  · rw [Function.update_of_ne hji]

/-- Configuring an interface changes nothing that the packet path reads. -/
theorem callbackFuncKniIfConfig_table (L : KniList Kni) (kniId : UInt16) (kniState : UInt8) :
    (callbackFuncKniIfConfig L kniId kniState).1.table = L.table := by
  rcases callbackFuncKniIfConfig_list L kniId kniState with hsame | ⟨i, st, hset⟩
  · rw [hsame]
  · rw [hset, KniList.table_setOps]

theorem kniClose_table [DecidableEq Kni] {kni : Kni} (h : kniClose L kni = some L') :
    L'.table = L.table := by
  unfold kniClose at h
  obtain ⟨found, -, h⟩ := Option.bind_eq_some_iff.mp h
  cases found with
  | none =>
      obtain rfl := Option.some.inj h
      exact Eq.refl _
  | some idx =>
      dsimp only at h
      split at h
      · obtain rfl := Option.some.inj h
        exact KniList.table_setPtr _ _ _
      · cases h

/-- The interface that `kni_open` adds has the MAC address of its link. -/
theorem KniCreated.macAddr {env : KniOpenEnv Kni} {args : KniOpenArgs} {kni : KniEntry Kni}
    {kniPtr : Kni} (hnew : KniCreated env L args L' kni kniPtr)
    (hopen : kniOpen env L args = (L', some kniPtr)) :
    kni.macAddr = env.macAddr.getD defaultKniMacAddr := by
  have hentry := hnew.entry
  rw [CArray.set?_of_lt _ hnew.can.room] at hentry
  rw [kniOpen, if_neg fun h => h.2 (hnew.can.init h.1), if_neg hnew.can.fresh,
    dif_pos hnew.can.room, hnew.alloc] at hopen
  obtain ⟨hlist, -⟩ := Prod.mk.inj hopen
  have hsame := congrFun ((Option.some.inj hentry).trans (congrArg KniList.kniInfoList hlist.symm))
    ⟨L.kniCount, hnew.can.room⟩
  dsimp only at hsame
  rw [Function.update_self, Function.update_self] at hsame
  rw [hsame]

theorem kniOpen_grows (env : KniOpenEnv Kni) (L : KniList Kni) (args : KniOpenArgs)
    (hfree : lan.Free (env.macAddr.getD defaultKniMacAddr)) :
    Grows lan L.table (kniOpen env L args).1.table := by
  rcases kniOpen_outcome env L args with ⟨hsame, -⟩ | ⟨L', kni, kniPtr, hopen, hnew⟩
  · rw [hsame]
    exact Grows.refl lan _
  · have hlist : L'.table.kniInfoList = L.table.kniInfoList ++ [kni.info] := by
      simp only [KniList.table, hnew.entries, List.map_append, List.map_cons, List.map_nil]
    rw [hopen]
    refine ⟨fun old hold => ?_, fun new hmem => ?_⟩
    · rw [hlist]
      exact List.mem_append_left _ hold
    · rw [hlist] at hmem
      rcases List.mem_append.mp hmem with hold | hadded
      · exact Or.inl hold
      · obtain rfl := List.mem_singleton.mp hadded
        have hmac : kni.info.macAddr = env.macAddr.getD defaultKniMacAddr := hnew.macAddr hopen
        exact Or.inr (hmac ▸ hfree)

theorem HasIp.mono (h : Grows lan t t') {ip : PfmIpAddr} (hip : HasIp t ip) : HasIp t' ip := by
  obtain ⟨kni, hkni, heq⟩ := hip
  exact ⟨kni, h.kept kni hkni, heq⟩

theorem Owns.mono (h : Grows lan t t') {ip : PfmIpAddr} {mac : MacAddr} (hown : Owns lan t ip mac) :
    Owns lan t' ip mac := by
  rcases hown with hother | ⟨kni, hkni, heq⟩
  · exact Or.inl hother
  · exact Or.inr ⟨kni, h.kept kni hkni, heq⟩

end grows

/-! ### Good frames -/

/-- A frame that says nothing untrue.  A reply goes to one who asked, or is an
announcement. -/
def GoodFrame (lan : Lan) (t : KniTable) (frame : List UInt8) : Prop :=
  match ArpFrame.parse frame with
  | none => NotArp frame
  | some a => Owns lan t a.arpSip a.arpSha ∧
      (a.arpOpcode = arpOpRequest ∨ a.arpOpcode = arpOpReply ∧
        (Announces a ∨ Owns lan t a.arpTip a.arpTha ∧ a.dAddr = a.arpTha))

section good

variable {lan : Lan} {t t' : KniTable} {frame : List UInt8}

theorem GoodFrame.mono (h : Grows lan t t') (hgood : GoodFrame lan t frame) :
    GoodFrame lan t' frame := by
  unfold GoodFrame at hgood ⊢
  cases hparse : ArpFrame.parse frame with
  | none =>
      rw [hparse] at hgood
      exact hgood
  | some a =>
      rw [hparse] at hgood
      obtain ⟨hown, hkind⟩ := hgood
      refine ⟨hown.mono h, hkind.imp_right fun hreply => ?_⟩
      exact hreply.imp_right fun hto => hto.imp_right fun hasked => ⟨hasked.1.mono h, hasked.2⟩

/-- Honest others answer good frames with good frames. -/
theorem GoodFrame.of_honest {sent : List (List UInt8)}
    (hsent : ∀ frame ∈ sent, GoodFrame lan t frame) (h : Honest lan t sent frame) :
    GoodFrame lan t frame := by
  unfold Honest at h
  unfold GoodFrame
  cases hparse : ArpFrame.parse frame with
  | none =>
      rw [hparse] at h
      exact h
  | some a =>
      rw [hparse] at h
      obtain ⟨hown, hkind⟩ := h
      refine ⟨hown, hkind.imp_right fun hreply => ?_⟩
      refine hreply.imp_right fun hto => hto.imp_right fun hasked => ?_
      obtain ⟨req, hreq, hans⟩ := hasked
      obtain ⟨asked, hasked, hread⟩ := List.mem_filterMap.mp hreq
      -- the request came from its own address
      have hgood := hsent asked hasked
      simp only [GoodFrame, hread] at hgood
      rw [hans.tip, hans.tha, hans.dAddr]
      exact ⟨hgood.1, rfl⟩

/-- The type of an ARP frame. -/
theorem ArpFrame.type_bytes (a : ArpFrame) (pad : List UInt8) :
    ((a.bytes ++ pad).drop etherTypeOff).take 2 = bigEndian 2 etherTypeArp := by
  have hsplit : a.bytes ++ pad = (List.ofFn a.dAddr ++ List.ofFn a.sAddr) ++
      (bigEndian 2 etherTypeArp ++ ((a.fields.drop 3).flatten ++ pad)) := by
    simp only [ArpFrame.bytes, ArpFrame.fields, ArpFrame.fixed, List.cons_append, List.nil_append,
      List.flatten_cons, List.drop_succ_cons, List.drop_zero, List.append_assoc]
  rw [hsplit, List.drop_left' (by simp), List.take_left' (length_bigEndian 2 _)]

/-- Its destination. -/
theorem ArpFrame.dAddr_bytes (a : ArpFrame) (pad : List UInt8) :
    ArpFrame.macOf ((a.bytes ++ pad).take macAddrSize) = a.dAddr := by
  have hsplit : a.bytes ++ pad = List.ofFn a.dAddr ++ ((a.fields.drop 1).flatten ++ pad) := by
    simp only [ArpFrame.bytes, ArpFrame.fields, ArpFrame.fixed, List.cons_append, List.nil_append,
      List.flatten_cons, List.drop_succ_cons, List.drop_zero, List.append_assoc]
  rw [hsplit, List.take_left' List.length_ofFn, ArpFrame.macOf_ofFn]

theorem GoodFrame.of_notArp (h : NotArp frame) : GoodFrame lan t frame := by
  unfold GoodFrame
  cases hparse : ArpFrame.parse frame with
  | none => exact h
  | some a =>
      obtain ⟨pad, rfl⟩ := ArpFrame.bytes_of_parse hparse
      exact absurd (a.type_bytes pad) h.2

/-- The frame of a packet that `pfm_data_req` queues. -/
theorem notArp_of_carries {M : RteMbuf} {m : M.Mbuf} {f : UdpFrame} (h : Carries m f) :
    NotArp (RteMbuf.packet m) := by
  have htype : (f.bytes.drop etherTypeOff).take 2 = bigEndian 2 etherTypeIpv4 := by
    have hsplit : f.bytes = (List.ofFn f.dAddr ++ List.ofFn f.sAddr) ++
        (bigEndian 2 etherTypeIpv4 ++ (f.ip.bytes ++ f.udp.bytes ++ f.payload)) := by
      simp only [UdpFrame.bytes, UdpFrame.etherHdr, List.append_assoc]
    rw [hsplit, List.drop_left' (by simp), List.take_left' (length_bigEndian 2 _)]
  refine ⟨?_, ?_⟩
  · rw [h.packet, f.length_bytes]
    exact Nat.le_trans (by decide) (Nat.le_add_right _ _)
  · rw [h.packet, htype]
    decide

/-- A request that the program made. -/
theorem GoodFrame.of_request {M : RteMbuf} {mbuf : M.Mbuf} {call : KniTxArp} {kni : KniInfo}
    (hkni : kni ∈ t.kniInfoList) (hip : kni.ipAddr = call.senderIpAddr)
    (hreq : Received M mbuf (call.request kni).bytes) :
    GoodFrame lan t (RteMbuf.packet mbuf) := by
  have hparse := ArpFrame.parse_bytes (call.request kni) []
  rw [List.append_nil, ← hreq.packet_eq] at hparse
  rw [GoodFrame, hparse]
  exact ⟨Or.inr ⟨kni, hkni, hip, rfl⟩, Or.inl rfl⟩

/-- The program asks from the addresses of its interfaces. -/
theorem GoodFrame.of_arpFrames {P : RteMbufLen D.mbuf} {envs : Nat → TxArpEnv D.mbuf}
    {calls : List KniTxArp} (h : frame ∈ arpFrames P t envs calls) : GoodFrame lan t frame := by
  obtain ⟨call, -, hframe⟩ := List.mem_filterMap.mp h
  split at hframe
  swap
  · cases hframe
  rename_i mbuf hmbuf
  obtain rfl := Option.some.inj hframe
  obtain ⟨kni, hkni, hip, hreq⟩ := pfmKniTxArp_made (Or.inl hmbuf)
  exact GoodFrame.of_request hkni hip hreq

/-- A reply that the card takes is true, and was for an interface or for all. -/
theorem GoodFrame.reply {M : RteMbuf} {rx : RxFrame M} (h : GoodFrame lan t rx.frame)
    (hfree : ∀ kni ∈ t.kniInfoList, lan.Free kni.macAddr) (htakes : TakesFrame t rx.frame)
    (hreply : isArpReply rx.mbuf = true) :
    Owns lan t (arpSenderIp rx.mbuf) (arpSenderMac rx.mbuf) ∧
      (arpTargetIp rx.mbuf = arpSenderIp rx.mbuf ∨ HasIp t (arpTargetIp rx.mbuf)) := by
  unfold GoodFrame at h
  cases hparse : ArpFrame.parse rx.frame with
  | none =>
      rw [hparse] at h
      obtain ⟨hlen, htype⟩ : NotArp rx.frame := h
      have hlen' : etherHdrSize ≤ (rx.frame ++ rx.pad).length := by
        rw [List.length_append]
        omega
      have hfield := rx.received.etherType_of_isArpReply hlen' hreply
      have hdrop : 2 ≤ (rx.frame.drop etherTypeOff).length := by
        rw [List.length_drop]
        exact Nat.le_sub_of_add_le hlen
      rw [List.drop_append_of_le_length (Nat.le_trans (by decide) hlen),
        List.take_append_of_le_length hdrop] at hfield
      exact absurd hfield htype
  | some a =>
      rw [hparse] at h
      obtain ⟨hown, hkind⟩ := h
      obtain ⟨pad, hbytes⟩ := ArpFrame.bytes_of_parse hparse
      have hrx := rx.received
      rw [hbytes, List.append_assoc] at hrx
      rw [hrx.arpSenderIp, hrx.arpSenderMac, hrx.arpTargetIp]
      refine ⟨hown, ?_⟩
      have hop := hrx.isArpReply_iff.mp hreply
      rcases hkind with hreq | ⟨-, hann | ⟨hasked, hto⟩⟩
      · rw [hreq] at hop
        exact absurd hop (by decide)
      · exact Or.inl hann.1
      · -- the card took it, so it was not for another station
        rw [TakesFrame, hbytes, a.dAddr_bytes, hto] at htakes
        rcases hasked with hother | ⟨kni, hkni, hip, -⟩
        · rcases htakes with ⟨kni, hkni, hmac⟩ | hgroup
          · exact absurd hmac.symm ((hfree kni hkni).2 _ hother)
          · rw [lan.unicast _ hother] at hgroup
            cases hgroup
        · exact Or.inr ⟨kni, hkni, hip⟩

end good

/-! ### A burst -/

section burst

variable [DecidableEq Kni] {I : ArpState D → Prop} {env : IngressEnv} {linkId : UInt16}

/-- What every reply keeps of the ARP table. -/
def ReplyKeeps (linkId : UInt16) (I : ArpState D → Prop) (pkt : D.mbuf.Mbuf) : Prop :=
  isArpReply pkt = true → ∀ lib S ret S', I S →
    pfmArpProcessReply lib S pkt linkId = some (ret, S') → I S'

theorem ingressPkt_arp {ic : IngressClassifier Kni} {s s' : IngressState D Kni}
    {buf : IngressBuf D.mbuf} (hI : I s.arp) (hkeeps : ReplyKeeps linkId I buf.mbuf)
    (h : ingressPkt env ic linkId s buf = some s') : I s'.arp := by
  unfold ingressPkt at h
  dsimp only at h
  split at h
  · split at h
    · obtain rfl := Option.some.inj h
      exact hI
    · cases h
  · split at h
    · split at h
      · obtain rfl := Option.some.inj h
        exact hI
      · cases h
    · split at h
      · obtain rfl := Option.some.inj h
        exact hI
      · cases h
  · obtain ⟨s₁, harp, h⟩ := Option.bind_eq_some_iff.mp h
    obtain ⟨log, -, h⟩ := Option.bind_eq_some_iff.mp h
    obtain rfl := Option.some.inj h
    -- the only place where the table is written
    unfold ingressArp at harp
    split at harp
    · rename_i hreply
      obtain ⟨clone, hclone, harp⟩ := Option.bind_eq_some_iff.mp harp
      obtain ⟨⟨ret, S'⟩, hprocess, harp⟩ := Option.bind_eq_some_iff.mp harp
      obtain rfl := Option.some.inj harp
      obtain ⟨hbuf, -, -⟩ := cloneBuf_adds hclone
      rw [hbuf] at hprocess
      exact hkeeps hreply _ _ _ _ hI hprocess
    · obtain rfl := Option.some.inj harp
      exact hI
  · obtain rfl := Option.some.inj h
    exact hI

/-- The ARP table behind a burst. -/
theorem ingressClassify_arp {tables : CArray (lastLinkId + 1) (IngressClassifier Kni)}
    {S S' : ArpState D} {pkts : List D.mbuf.Mbuf} {log : List (IngressAct D.mbuf Kni)}
    (hI : I S) (hkeeps : ∀ pkt ∈ pkts, ReplyKeeps linkId I pkt)
    (h : ingressClassify env tables linkId S pkts = some (log, S')) : I S' := by
  unfold ingressClassify at h
  split at h
  swap
  · obtain ⟨-, rfl⟩ := Prod.mk.inj (Option.some.inj h)
    exact hI
  obtain ⟨s, hloop, h⟩ := Option.bind_eq_some_iff.mp h
  obtain ⟨-, rfl⟩ := Prod.mk.inj (Option.some.inj h)
  rw [foldlM_eq_exec] at hloop
  refine @exec_invariant_inputs _ _ _ (fun s : IngressState D Kni => I s.arp)
    (fun buf => ReplyKeeps linkId I buf.mbuf)
    (fun s buf s' hs hbuf hstep => ingressPkt_arp hs hbuf hstep) _ _ _ hI ?_ hloop
  intro buf hbuf
  obtain ⟨⟨pkt, idx⟩, hp, rfl⟩ := List.mem_map.mp hbuf
  exact hkeeps pkt (List.fst_mem_of_mem_zipIdx hp)

end burst

/-! ### Every run -/

/-- What the table remembers of an address is true, and was said to an interface or to
all. -/
def ArpRecord.True (lan : Lan) (t : KniTable) (ip : PfmIpAddr) (rec : ArpRecord) : Prop :=
  Owns lan t ip rec.macAddr ∧ (rec.srcIpAddr = ip ∨ HasIp t rec.srcIpAddr)

/-- The table fits together, for some history of true replies. -/
def ArpTrue (lan : Lan) (t : KniTable) (S : ArpState D) : Prop :=
  ∃ last, ArpInv ⟨S, last⟩ ∧ ∀ ip rec, last ip = some rec → rec.True lan t ip

structure ArpHostInv (lan : Lan) (H : ArpHost D Kni) : Prop where
  free : ∀ kni ∈ H.kni.table.kniInfoList, lan.Free kni.macAddr
  arp : ArpTrue lan H.kni.table H.arp

section run

variable {lan : Lan} {t t' : KniTable} {S S' : ArpState D} {H H' : ArpHost D Kni}

theorem ArpRecord.True.mono {ip : PfmIpAddr} {rec : ArpRecord} (hgrows : Grows lan t t')
    (h : rec.True lan t ip) : rec.True lan t' ip :=
  ⟨h.1.mono hgrows, h.2.imp_right (HasIp.mono hgrows)⟩

theorem ArpTrue.mono (hgrows : Grows lan t t') (h : ArpTrue lan t S) : ArpTrue lan t' S := by
  obtain ⟨last, hinv, htrue⟩ := h
  exact ⟨last, hinv, fun ip rec hlast => (htrue ip rec hlast).mono hgrows⟩

/-- A true reply keeps the table true. -/
theorem ArpTrue.reply (hacc : D.arpHash.Accepts) (hfull : D.arpHash.RefusesFull) {lib : ArpLib}
    {pkt : D.mbuf.Mbuf} {linkId : UInt16} {ret : Int} (h : ArpTrue lan t S)
    (hpkt : (ArpRecord.ofReply pkt).True lan t (arpSenderIp pkt))
    (hrun : pfmArpProcessReply lib S pkt linkId = some (ret, S')) : ArpTrue lan t S' := by
  obtain ⟨last, hinv, htrue⟩ := h
  have hstep : arpStep ⟨S, last⟩ (.reply lib pkt linkId) = some ⟨S', if ret = 0 then
      Function.update last (arpSenderIp pkt) (some (ArpRecord.ofReply pkt)) else last⟩ := by
    rw [arpStep, hrun]
    rfl
  refine ⟨_, hinv.step hacc hfull hstep, fun ip rec hlast => ?_⟩
  split at hlast
  swap
  · exact htrue ip rec hlast
  by_cases hip : ip = arpSenderIp pkt
  · subst hip
    rw [Function.update_self] at hlast
    obtain rfl := Option.some.inj hlast
    exact hpkt
  · rw [Function.update_of_ne hip] at hlast
    exact htrue ip rec hlast

/-- So does a timer. -/
theorem ArpTrue.expiry (hacc : D.arpHash.Accepts) (hfull : D.arpHash.RefusesFull) (kni : KniTable)
    {r : Fin pfmArpTableEntries} (h : ArpTrue lan t S) (htimer : S.refreshTimer r = true) :
    ArpTrue lan t (refreshCallback kni S r).2 := by
  obtain ⟨last, hinv, htrue⟩ := h
  let dst := (S.table.arpTable r).dstIpAddr
  have hstep : arpStep ⟨S, last⟩ (.expiry kni r) = some ⟨(refreshCallback kni S r).2,
      Function.update last dst ((last dst).map ArpRecord.expire)⟩ := by
    rw [arpStep, if_pos htimer]
  refine ⟨_, hinv.step hacc hfull hstep, fun ip rec hlast => ?_⟩
  by_cases hip : ip = dst
  · subst hip
    rw [Function.update_self] at hlast
    obtain ⟨rec', hlast', rfl⟩ := Option.map_eq_some_iff.mp hlast
    exact htrue _ rec' hlast'
  · rw [Function.update_of_ne hip] at hlast
    exact htrue ip rec hlast

theorem ArpHostInv.init : ArpHostInv lan (ArpHost.init D Kni) where
  free kni hkni := by cases hkni
  arp := ⟨fun _ => none, ArpInv.init, fun ip rec hlast => by cases hlast⟩

/-- What the table says, and asks. -/
structure ArpTruthful (lan : Lan) (H : ArpHost D Kni) : Prop where
  entry : ∀ ip e, pfmArpQuery H.arp.table ip = some e →
    Owns lan H.kni.table ip e.macAddr ∧ (e.srcIpAddr = ip ∨ HasIp H.kni.table e.srcIpAddr)
  refresh : ∀ r, H.arp.refreshTimer r = true →
    ∀ call ∈ (refreshCallback H.kni.table H.arp r).1,
      call.senderIpAddr = call.targetIpAddr ∨ HasIp H.kni.table call.senderIpAddr

theorem ArpHostInv.truthful (h : ArpHostInv lan H) : ArpTruthful lan H := by
  obtain ⟨last, hinv, htrue⟩ := h.arp
  refine ⟨fun ip e hquery => ?_, fun r htimer call hcall => ?_⟩
  · rw [pfmArpQuery_eq] at hquery
    obtain ⟨r, hrow, rfl⟩ := Option.map_eq_some_iff.mp hquery
    obtain ⟨-, rec, hlast, hmatch⟩ := hinv.kept ip r hrow
    rw [hmatch.mac, hmatch.src]
    exact htrue ip rec hlast
  · have hrow := hinv.timed r htimer
    obtain ⟨-, rec, hlast, hmatch⟩ := hinv.kept _ r hrow
    obtain ⟨-, hsrc⟩ := htrue _ rec hlast
    rw [← hmatch.src] at hsrc
    unfold refreshCallback at hcall
    dsimp only at hcall
    split at hcall
    · obtain rfl := List.mem_singleton.mp hcall
      exact hsrc
    · obtain ⟨kni, hkni, rfl⟩ := List.mem_map.mp hcall
      exact Or.inr ⟨kni, hkni, rfl⟩

/-- A packet that `pfm_data_req` queues while the table says nothing untrue. -/
theorem ArpTruthful.queued (htruth : ArpTruthful lan H) {call : DataReqCall D}
    {frame : D.mbuf.Mbuf} {wkr : WorkerInfo D.mbuf} (hqueued : call.run H = .queued frame wkr) :
    ∃ f hop, Carries frame f ∧ f.ip.dstAddr = call.remoteIpAddr ∧
      Owns lan H.kni.table hop f.dAddr ∧
      (hop = call.remoteIpAddr ∨
        ∃ route, pfmRouteQuery call.route call.remoteIpAddr = some route ∧
          hop = route.gatewayAddr) ∧
      kniIpv4MacAddrGet H.kni.table call.localIpAddr = some f.sAddr := by
  obtain ⟨smac, dmac, linkId, -, hsrc, hdst, hroom, -⟩ := pfmDataReq_frame hqueued
  obtain ⟨frame', csum, hrun', hcarries⟩ := pfmDataReq_carries _ call.lcoreId call.wkr
    call.protocol call.localPortNo call.remotePortNo hroom hsrc hdst
  obtain ⟨rfl, -⟩ := DataReqEnd.queued.inj (hqueued.symm.trans hrun')
  obtain ⟨e, hhop, hmac⟩ := Option.map_eq_some_iff.mp hdst
  obtain ⟨rfl, -⟩ := Prod.mk.inj hmac
  unfold nextHop at hhop
  dsimp only at hhop
  cases hown : pfmArpQuery H.arp.table call.remoteIpAddr with
  | some e' =>
      rw [hown] at hhop
      obtain rfl := Option.some.inj hhop
      exact ⟨_, call.remoteIpAddr, hcarries, rfl, (htruth.entry _ _ hown).1, Or.inl rfl, hsrc⟩
  | none =>
      rw [hown] at hhop
      cases hroute : pfmRouteQuery call.route call.remoteIpAddr with
      | none =>
          rw [hroute] at hhop
          cases hhop
      | some route =>
          rw [hroute] at hhop
          exact ⟨_, route.gatewayAddr, hcarries, rfl, (htruth.entry _ _ hhop).1,
            Or.inr ⟨route, rfl, rfl⟩, hsrc⟩

variable [DecidableEq Kni] {P : RteMbufLen D.mbuf}

/-- The interfaces behind an input. -/
theorem arpServe_grows {i : ArpInput D Kni} {out : List (List UInt8)}
    (h : arpServe lan P H i = some (H', out)) : Grows lan H.kni.table H'.kni.table := by
  cases i with
  | opened env args =>
      simp only [arpServe] at h
      split at h
      · rename_i hfree
        obtain ⟨rfl, -⟩ := Prod.mk.inj (Option.some.inj h)
        exact kniOpen_grows env H.kni args hfree
      · cases h
  | closed kni =>
      obtain ⟨L, hclose, h⟩ := Option.map_eq_some_iff.mp h
      obtain ⟨rfl, -⟩ := Prod.mk.inj h
      rw [kniClose_table hclose]
      exact Grows.refl lan _
  | config kniId kniState =>
      obtain ⟨rfl, -⟩ := Prod.mk.inj (Option.some.inj h)
      rw [callbackFuncKniIfConfig_table]
      exact Grows.refl lan _
  | ingress env tables linkId burst =>
      simp only [arpServe] at h
      split at h
      · obtain ⟨_, -, h⟩ := Option.map_eq_some_iff.mp h
        obtain ⟨rfl, -⟩ := Prod.mk.inj h
        exact Grows.refl lan _
      · cases h
  | expiry r envs =>
      simp only [arpServe] at h
      split at h
      · obtain ⟨rfl, -⟩ := Prod.mk.inj (Option.some.inj h)
        exact Grows.refl lan _
      · cases h
  | dataReq call envs =>
      obtain ⟨rfl, -⟩ := Prod.mk.inj (Option.some.inj h)
      exact Grows.refl lan _

/-- **One input**, with good frames, keeps the table true and sends good frames. -/
theorem ArpHostInv.serve (hacc : D.arpHash.Accepts) (hfull : D.arpHash.RefusesFull)
    {i : ArpInput D Kni} {out : List (List UInt8)} (hinv : ArpHostInv lan H)
    (hgood : ∀ frame ∈ arpBrings i, GoodFrame lan H.kni.table frame)
    (h : arpServe lan P H i = some (H', out)) :
    ArpHostInv lan H' ∧ ∀ frame ∈ out, GoodFrame lan H'.kni.table frame := by
  have hgrows := arpServe_grows h
  have hfree : ∀ kni ∈ H'.kni.table.kniInfoList, lan.Free kni.macAddr := by
    intro kni hkni
    rcases hgrows.new kni hkni with hold | hnew
    · exact hinv.free kni hold
    · exact hnew
  have hsame (harp : H'.arp = H.arp) : ArpHostInv lan H' :=
    ⟨hfree, harp ▸ hinv.arp.mono hgrows⟩
  cases i with
  | opened env args =>
      simp only [arpServe] at h
      split at h
      · obtain ⟨rfl, rfl⟩ := Prod.mk.inj (Option.some.inj h)
        exact ⟨hsame rfl, fun frame hframe => by cases hframe⟩
      · cases h
  | closed kni =>
      obtain ⟨L, -, h⟩ := Option.map_eq_some_iff.mp h
      obtain ⟨rfl, rfl⟩ := Prod.mk.inj h
      exact ⟨hsame rfl, fun frame hframe => by cases hframe⟩
  | config kniId kniState =>
      obtain ⟨rfl, rfl⟩ := Prod.mk.inj (Option.some.inj h)
      exact ⟨hsame rfl, fun frame hframe => by cases hframe⟩
  | ingress env tables linkId burst =>
      simp only [arpServe] at h
      split at h
      swap
      · cases h
      rename_i htakes
      obtain ⟨⟨log, S⟩, hrun, h⟩ := Option.map_eq_some_iff.mp h
      obtain ⟨rfl, rfl⟩ := Prod.mk.inj h
      refine ⟨⟨hfree, ?_⟩, fun frame hframe => by cases hframe⟩
      refine ingressClassify_arp (I := ArpTrue lan H.kni.table) hinv.arp ?_ hrun
      intro pkt hpkt hreply lib S₁ ret S₂ htrue hprocess
      obtain ⟨rx, hrx, rfl⟩ := List.mem_map.mp hpkt
      have hframe := hgood rx.frame (List.mem_map_of_mem hrx)
      exact htrue.reply hacc hfull (hframe.reply hinv.free (htakes rx hrx) hreply) hprocess
  | expiry r envs =>
      simp only [arpServe] at h
      split at h
      swap
      · cases h
      rename_i htimer
      obtain ⟨rfl, rfl⟩ := Prod.mk.inj (Option.some.inj h)
      exact ⟨⟨hfree, hinv.arp.expiry hacc hfull _ htimer⟩, fun frame => GoodFrame.of_arpFrames⟩
  | dataReq call envs =>
      obtain ⟨rfl, rfl⟩ := Prod.mk.inj (Option.some.inj h)
      refine ⟨hsame rfl, fun frame hframe => ?_⟩
      cases hrun : call.run H with
      | freed mbuf arps =>
          rw [hrun] at hframe
          exact GoodFrame.of_arpFrames hframe
      | queued m wkr =>
          rw [hrun] at hframe
          obtain rfl := List.mem_singleton.mp hframe
          obtain ⟨smac, dmac, linkId, -, hsrc, hdst, hroom, -⟩ := pfmDataReq_frame hrun
          obtain ⟨frame', csum, hrun', hcarries⟩ := pfmDataReq_carries _ call.lcoreId call.wkr
            call.protocol call.localPortNo call.remotePortNo hroom hsrc hdst
          obtain ⟨rfl, -⟩ := DataReqEnd.queued.inj (hrun.symm.trans hrun')
          exact GoodFrame.of_notArp (notArp_of_carries hcarries)

/-- The network keeps both. -/
theorem arp_keeps (hacc : D.arpHash.Accepts) (hfull : D.arpHash.RefusesFull) (lan : Lan)
    (P : RteMbufLen D.mbuf) :
    Keeps (arpParty lan P) (fun H : ArpHost D Kni => Honest lan H.kni.table) (ArpHostInv lan)
      fun H => GoodFrame lan H.kni.table where
  serve hinv hgood h := hinv.serve hacc hfull hgood h
  mono h hgood := hgood.mono (arpServe_grows h)
  other _ hsent hhonest := GoodFrame.of_honest hsent hhonest

/-- **The table never says anything untrue**, among honest stations on any network. -/
theorem arp_truthful (hacc : D.arpHash.Accepts) (hfull : D.arpHash.RefusesFull)
    {es : List (NetEvent (ArpInput D Kni) (List UInt8))}
    {N : Net (ArpHost D Kni) (List UInt8)}
    (hrun : exec (arpNetStep lan P) (Net.init (ArpHost.init D Kni)) es = some N) :
    ArpTruthful lan N.party :=
  ((arp_keeps hacc hfull lan P).run ArpHostInv.init hrun).1.truthful

theorem upfStation_unicast :
    ∀ station ∈ [((upfIp, fun _ => 2) : PfmIpAddr × MacAddr)], isGroupMac station.2 = false :=
  List.forall_mem_singleton.mpr (by decide)

/-- The network with the UPF. -/
def upfLan : Lan := ⟨[(upfIp, fun _ => 2)], upfStation_unicast⟩

/-- The UPF announces its address. -/
def upfFrame : ArpFrame :=
  ⟨broadcastMac, fun _ => 2, arpOpReply, fun _ => 2, upfIp, zeroMac, upfIp⟩

theorem pageSize_add_headroom_le : pageSize + 128 ≤ 8192 := by decide

/-- A buffer that holds a packet. -/
def mbufOf (packet : List UInt8) : viewMbuf.Mbuf :=
  ⟨{ mtod := 8192
     headroom := 128
     dataLen := packet.length
     tailroom := 2048 - packet.length
     byte := fun i => packet.getD i.toNat 0
     chained := []
     port := 0
     olFlags := 0 }, pageSize_add_headroom_le⟩

theorem received_mbufOf (packet : List UInt8) : Received viewMbuf (mbufOf packet) packet := by
  refine ⟨?_, rfl⟩
  change slice (fun i => packet.getD i.toNat 0) 0 packet.length ++ [] = packet
  rw [List.append_nil]
  apply List.ext_getElem
  · rw [length_slice]
  · intro i _ hi
    rw [getElem_slice, Int.zero_add, Int.toNat_natCast, List.getD_eq_getElem _ _ hi]

/-- The frame as it is received, without padding. -/
def upfRx : RxFrame viewMbuf :=
  ⟨mbufOf (upfFrame.bytes ++ []), upfFrame.bytes, [], received_mbufOf _⟩

/-- An interface is opened, and the announcement arrives. -/
def upfNet : List (NetEvent (ArpInput listDpdk Unit) (List UInt8)) :=
  [.serve (.opened ⟨0, none, some ()⟩ ⟨0, ngu0, cuupIp, 24⟩),
    .other upfFrame.bytes,
    .serve (.ingress ⟨fun _ _ => true, fun _ => 32, fun _ => .ok⟩ (fun _ => ⟨[], by decide⟩) 0
      [upfRx])]

/-- The network behind the announcement. -/
def afterUpfNet : Option (Net (ArpHost listDpdk Unit) (List UInt8)) :=
  exec (arpNetStep upfLan viewMbufLen) (Net.init (ArpHost.init listDpdk Unit)) upfNet

theorem arp_truthful_upfNet : ∃ N, afterUpfNet = some N ∧
    (pfmArpQuery N.party.arp.table upfIp).isSome = true ∧ ArpTruthful upfLan N.party := by
  have hany : (afterUpfNet.any fun N =>
      (pfmArpQuery N.party.arp.table upfIp).isSome) = true := by decide
  obtain ⟨N, hN, hknown⟩ := (Option.any_eq_true _ _).mp hany
  exact ⟨N, hN, hknown, arp_truthful (listHash_accepts _ _ _) (listHash_refusesFull _ _ _) hN⟩

/-- A queued packet is addressed to who has the address, or has the gateway's. -/
theorem arp_nextHop (hacc : D.arpHash.Accepts) (hfull : D.arpHash.RefusesFull)
    {es : List (NetEvent (ArpInput D Kni) (List UInt8))}
    {N : Net (ArpHost D Kni) (List UInt8)}
    (hrun : exec (arpNetStep lan P) (Net.init (ArpHost.init D Kni)) es = some N)
    (call : DataReqCall D) {frame : D.mbuf.Mbuf} {wkr : WorkerInfo D.mbuf}
    (hqueued : call.run N.party = .queued frame wkr) :
    ∃ f hop, Carries frame f ∧ f.ip.dstAddr = call.remoteIpAddr ∧
      Owns lan N.party.kni.table hop f.dAddr ∧
      (hop = call.remoteIpAddr ∨
        ∃ route, pfmRouteQuery call.route call.remoteIpAddr = some route ∧
          hop = route.gatewayAddr) ∧
      kniIpv4MacAddrGet N.party.kni.table call.localIpAddr = some f.sAddr := by
  exact (((arp_keeps hacc hfull lan P).run ArpHostInv.init hrun).1).truthful.queued hqueued

/-- A packet for the UPF. -/
def upfCall : DataReqCall listDpdk :=
  ⟨RouteTable.init listDpdk, 4, ⟨fun _ => none, 0, 0, 0⟩, cuupIp, upfIp, .udp, 2152, 2152,
    mbufOf [1, 2, 3]⟩

/-- Whether a packet was queued. -/
def DataReqEnd.isQueued {M : RteMbuf} : DataReqEnd M → Bool
  | .freed _ _ => false
  | .queued _ _ => true

theorem arp_nextHop_upfCall : ∃ N frame wkr, afterUpfNet = some N ∧
    upfCall.run N.party = .queued frame wkr ∧
    ∃ f hop, Carries frame f ∧ f.ip.dstAddr = upfIp ∧ Owns upfLan N.party.kni.table hop f.dAddr ∧
      (hop = upfIp ∨ ∃ route, pfmRouteQuery (RouteTable.init listDpdk) upfIp = some route ∧
        hop = route.gatewayAddr) ∧
      kniIpv4MacAddrGet N.party.kni.table cuupIp = some f.sAddr := by
  have hany : (afterUpfNet.any fun N => (upfCall.run N.party).isQueued) = true := by decide
  obtain ⟨N, hN, hqueued⟩ := (Option.any_eq_true _ _).mp hany
  cases hrun : upfCall.run N.party with
  | freed mbuf arps =>
      rw [hrun] at hqueued
      cases hqueued
  | queued frame wkr =>
      exact ⟨N, frame, wkr, hN, hrun,
        arp_nextHop (listHash_accepts _ _ _) (listHash_refusesFull _ _ _) hN upfCall hrun⟩

end run

end Pfm
