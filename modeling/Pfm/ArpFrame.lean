import Pfm.FieldLayout
import Pfm.Ingress

/-!
# ARP frames

`pfm_kni_tx_arp` of `pfm_kni.c` writes an ARP request into a new buffer, field by
field, and gives it to the TX loop.

* `ArpFrame` is an ARP packet for IPv4 with its Ethernet header; `parse_bytes` and
  `bytes_of_parse` : its bytes are read back, and are the only ones that are;
* `pfmKniTxArp_sends` : what is sent is the request asked for.
-/

namespace Pfm

open ByteBuffer FieldLayout

/-- Size of `struct rte_arp_hdr`. -/
abbrev arpHdrSize : Nat := 28

/-- `RTE_ETHER_TYPE_ARP`. -/
abbrev etherTypeArp : Nat := 0x0806

/-- `RTE_ARP_HRD_ETHER`. -/
abbrev arpHrdEther : Nat := 1

/-- `RTE_ARP_OP_REQUEST` and `RTE_ARP_OP_REPLY`. -/
abbrev arpOpRequest : UInt16 := 1
abbrev arpOpReply : UInt16 := 2

/-- Offsets in `struct rte_arp_hdr`. -/
abbrev arpHardwareOff : Nat := 0
abbrev arpProtocolOff : Nat := 2
abbrev arpHlenOff : Nat := 4
abbrev arpPlenOff : Nat := 5
abbrev arpOpcodeOff : Nat := 6
abbrev arpShaOff : Nat := 8
abbrev arpSipOff : Nat := 14
abbrev arpThaOff : Nat := 18
abbrev arpTipOff : Nat := 24

/-- The Ethernet address of no station, and that of all of them. -/
def zeroMac : MacAddr := fun _ => 0
def broadcastMac : MacAddr := fun _ => 0xFF

/-- `struct rte_ether_hdr` and `struct rte_arp_hdr` of an ARP packet for IPv4, in host
order. -/
structure ArpFrame where
  dAddr : MacAddr
  sAddr : MacAddr
  arpOpcode : UInt16
  arpSha : MacAddr
  arpSip : PfmIpAddr
  arpTha : MacAddr
  arpTip : PfmIpAddr
  deriving DecidableEq

namespace ArpFrame

/-- The fields before the opcode and behind the Ethernet addresses. -/
def fixed : List (List UInt8) :=
  [bigEndian 2 etherTypeArp, bigEndian 2 arpHrdEther, bigEndian 2 etherTypeIpv4,
    [UInt8.ofNat macAddrSize], [4]]

/-- The fields in their order. -/
def fields (f : ArpFrame) : List (List UInt8) :=
  [List.ofFn f.dAddr, List.ofFn f.sAddr] ++ fixed ++
    [bigEndian 2 f.arpOpcode.toNat, List.ofFn f.arpSha, bigEndian 4 f.arpSip.toNat,
      List.ofFn f.arpTha, bigEndian 4 f.arpTip.toNat]

/-- Their widths. -/
def widths : List Nat := [6, 6, 2, 2, 2, 1, 1, 2, 6, 4, 6, 4]

def bytes (f : ArpFrame) : List UInt8 := f.fields.flatten

/-- The address in a field of six bytes. -/
def macOf (field : List UInt8) : MacAddr := fun i => field.getD i.val 0

/-- Read a packet.  Padding may follow it. -/
def parse (packet : List UInt8) : Option ArpFrame :=
  if packet.length < etherHdrSize + arpHdrSize then none
  else match (cut widths packet).1 with
    | [dAddr, sAddr, etherType, hardware, protocol, hlen, plen, opcode, sha, sip, tha, tip] =>
        if [etherType, hardware, protocol, hlen, plen] = fixed then
          some
            { dAddr := macOf dAddr
              sAddr := macOf sAddr
              arpOpcode := UInt16.ofNat (ofBigEndian opcode)
              arpSha := macOf sha
              arpSip := UInt32.ofNat (ofBigEndian sip)
              arpTha := macOf tha
              arpTip := UInt32.ofNat (ofBigEndian tip) }
        else none
    | _ => none

@[simp] theorem macOf_ofFn (mac : MacAddr) : macOf (List.ofFn mac) = mac := by
  funext i
  have hi : i.val < (List.ofFn mac).length := by
    rw [List.length_ofFn]
    exact i.isLt
  rw [macOf, List.getD_eq_getElem _ _ hi, List.getElem_ofFn]

theorem ofFn_macOf {field : List UInt8} (h : field.length = macAddrSize) :
    List.ofFn (macOf field) = field := by
  apply List.ext_getElem
  · rw [List.length_ofFn, h]
  · intro i _ hi
    rw [List.getElem_ofFn, macOf, List.getD_eq_getElem _ _ hi]

theorem map_length_fields (f : ArpFrame) : f.fields.map List.length = widths := by
  simp [fields, fixed, widths]

@[simp] theorem length_bytes (f : ArpFrame) : f.bytes.length = etherHdrSize + arpHdrSize := by
  rw [bytes, List.length_flatten, map_length_fields]
  rfl

/-- **Round trip.**  A packet is read back, whatever padding follows it. -/
theorem parse_bytes (f : ArpFrame) (pad : List UInt8) : parse (f.bytes ++ pad) = some f := by
  have hlen : ¬(f.bytes ++ pad).length < etherHdrSize + arpHdrSize := by
    rw [List.length_append, length_bytes]
    omega
  have hcut : (cut widths (f.bytes ++ pad)).1 = f.fields := by
    rw [bytes, ← f.map_length_fields, cut_flatten]
  have hop : ofBigEndian (bigEndian 2 f.arpOpcode.toNat) = f.arpOpcode.toNat :=
    ofBigEndian_bigEndian_of_lt f.arpOpcode.toNat_lt
  have hsip : ofBigEndian (bigEndian 4 f.arpSip.toNat) = f.arpSip.toNat :=
    ofBigEndian_bigEndian_of_lt f.arpSip.toNat_lt
  have htip : ofBigEndian (bigEndian 4 f.arpTip.toNat) = f.arpTip.toNat :=
    ofBigEndian_bigEndian_of_lt f.arpTip.toNat_lt
  rw [parse, if_neg hlen, hcut]
  simp only [fields, fixed, List.cons_append, List.nil_append, macOf_ofFn, hop, hsip, htip,
    UInt16.ofNat_toNat, UInt32.ofNat_toNat, if_true]

theorem bigEndian_ofNat16 {field : List UInt8} (h : field.length = 2) :
    bigEndian 2 (UInt16.ofNat (ofBigEndian field)).toNat = field := by
  have hlt : ofBigEndian field < 2 ^ 16 := by
    have := ofBigEndian_lt field
    rw [h] at this
    exact this
  rw [UInt16.toNat_ofNat_of_lt' hlt, ← h, bigEndian_ofBigEndian]

theorem bigEndian_ofNat32 {field : List UInt8} (h : field.length = 4) :
    bigEndian 4 (UInt32.ofNat (ofBigEndian field)).toNat = field := by
  have hlt : ofBigEndian field < 2 ^ 32 := by
    have := ofBigEndian_lt field
    rw [h] at this
    exact this
  rw [UInt32.toNat_ofNat_of_lt' hlt, ← h, bigEndian_ofBigEndian]

/-- Nothing else is read as this packet. -/
theorem bytes_of_parse {packet : List UInt8} {f : ArpFrame} (h : parse packet = some f) :
    ∃ pad, packet = f.bytes ++ pad := by
  unfold parse at h
  split at h
  · cases h
  rename_i hlen
  have hsum : widths.sum ≤ packet.length := Nat.not_lt.mp hlen
  have hwidths := map_length_cut hsum
  have hwhole := flatten_cut widths packet
  split at h
  swap
  · cases h
  rename_i dAddr sAddr etherType hardware protocol hlen plen opcode sha sip tha tip hcut
  rw [hcut] at hwidths hwhole
  split at h
  swap
  · cases h
  rename_i hfixed
  obtain rfl := Option.some.inj h
  simp only [List.map_cons, List.map_nil, widths, List.cons.injEq, and_true] at hwidths
  obtain ⟨hd, hs, -, -, -, -, -, hop, hsha, hsip, htha, htip⟩ := hwidths
  refine ⟨(cut widths packet).2, ?_⟩
  rw [bytes, fields, ← hfixed, ofFn_macOf hd, ofFn_macOf hs, ofFn_macOf hsha, ofFn_macOf htha,
    bigEndian_ofNat16 hop, bigEndian_ofNat32 hsip, bigEndian_ofNat32 htip]
  exact hwhole.symm

end ArpFrame

/-! ### Reading an ARP packet where it lies -/

section received

variable {M : RteMbuf} {mbuf : M.Mbuf} {f : ArpFrame} {pad : List UInt8}

/-- A packet in one segment. -/
structure Received (M : RteMbuf) (mbuf : M.Mbuf) (packet : List UInt8) : Prop where
  packet_eq : RteMbuf.packet mbuf = packet
  chained_eq : (M.view mbuf).chained = []

/-- The fields of an ARP packet lie where the program reads them. -/
theorem Received.slice (h : Received M mbuf (f.bytes ++ pad)) (pre : List (List UInt8))
    (field : List UInt8) (post : List (List UInt8)) {off n : Nat}
    (hfields : f.fields = pre ++ field :: post) (hoff : pre.flatten.length = off)
    (hn : field.length = n) : ByteBuffer.slice (M.view mbuf).byte off n = field := by
  have hpacket : (M.view mbuf).packet = pre.flatten ++ field ++ (post.flatten ++ pad) := by
    have hbytes : f.bytes = pre.flatten ++ field ++ post.flatten := by
      rw [ArpFrame.bytes, hfields, List.flatten_append, List.flatten_cons, List.append_assoc]
    rw [← List.append_assoc, ← hbytes]
    exact h.packet_eq
  have hlen : (M.view mbuf).dataLen = (M.view mbuf).packet.length := by
    rw [MbufView.length_packet, MbufView.pktLen, h.chained_eq]
    rfl
  refine MbufView.slice_of_packet hpacket hoff hn ?_
  rw [hlen, hpacket, ← hoff, ← hn]
  simp only [List.length_append]
  omega

theorem Received.arpSenderMac (h : Received M mbuf (f.bytes ++ pad)) :
    Pfm.arpSenderMac mbuf = f.arpSha := by
  have hslice : ByteBuffer.slice (M.view mbuf).byte (22 : Nat) 6 = List.ofFn f.arpSha :=
    h.slice (f.fields.take 8) (List.ofFn f.arpSha) (f.fields.drop 9) rfl
      (by simp [ArpFrame.fields, ArpFrame.fixed]) List.length_ofFn
  funext i
  have hi : i.val < (List.ofFn f.arpSha).length := by
    rw [List.length_ofFn]
    exact i.isLt
  have hget : (List.ofFn f.arpSha)[i.val] = (M.view mbuf).byte (22 + i.val) := by
    simp only [← hslice, getElem_slice]
    rfl
  rw [List.getElem_ofFn] at hget
  rw [Pfm.arpSenderMac, RteMbuf.byte, Int.natCast_add, hget]
  rfl

theorem Received.arpSenderIp (h : Received M mbuf (f.bytes ++ pad)) :
    Pfm.arpSenderIp mbuf = f.arpSip :=
  RteMbuf.ntohl_of_slice (h.slice (f.fields.take 9) (bigEndian 4 f.arpSip.toNat)
    (f.fields.drop 10) rfl (by simp [ArpFrame.fields, ArpFrame.fixed]) (length_bigEndian 4 _))

theorem Received.arpTargetIp (h : Received M mbuf (f.bytes ++ pad)) :
    Pfm.arpTargetIp mbuf = f.arpTip :=
  RteMbuf.ntohl_of_slice (h.slice (f.fields.take 11) (bigEndian 4 f.arpTip.toNat)
    (f.fields.drop 12) rfl (by simp [ArpFrame.fields, ArpFrame.fixed]) (length_bigEndian 4 _))

/-- A packet taken for an ARP reply has the type of one. -/
theorem Received.etherType_of_isArpReply {packet : List UInt8} (h : Received M mbuf packet)
    (hlen : etherHdrSize ≤ packet.length) (hreply : isArpReply mbuf = true) :
    (packet.drop etherTypeOff).take 2 = bigEndian 2 etherTypeArp := by
  have hfirst : (M.view mbuf).dataLen = packet.length := by
    rw [← h.packet_eq, RteMbuf.length_packet, RteMbuf.pktLen, MbufView.pktLen, h.chained_eq]
    rfl
  have hslice := @MbufView.slice_byte (M.view mbuf) etherTypeOff 2 (by rw [hfirst]; exact hlen)
  have hpacket : (M.view mbuf).packet = packet := h.packet_eq
  rw [hpacket] at hslice
  rw [isArpReply, decide_eq_true_iff] at hreply
  obtain ⟨h12, h13, -⟩ := hreply
  rw [← hslice, slice_two]
  exact congrArg₂ (fun a b => [a, b]) h12 h13

/-- The two bytes of a field. -/
theorem Received.byte_two {x off : Nat}
    (h : ByteBuffer.slice (M.view mbuf).byte off 2 = bigEndian 2 x) :
    RteMbuf.byte mbuf off = UInt8.ofNat (x / 256) ∧
      RteMbuf.byte mbuf (off + 1) = UInt8.ofNat x := by
  rw [slice_two] at h
  simpa [bigEndian, RteMbuf.byte] using h

/-- Only the low byte of the opcode is looked at. -/
theorem Received.isArpReply_iff (h : Received M mbuf (f.bytes ++ pad)) :
    isArpReply mbuf = true ↔ f.arpOpcode.toNat % 256 = 2 := by
  have htype : ByteBuffer.slice (M.view mbuf).byte (12 : Nat) 2 = bigEndian 2 etherTypeArp :=
    h.slice (f.fields.take 2) (bigEndian 2 etherTypeArp) (f.fields.drop 3) rfl
      (by simp [ArpFrame.fields, ArpFrame.fixed]) (length_bigEndian 2 _)
  have hop : ByteBuffer.slice (M.view mbuf).byte (20 : Nat) 2 = bigEndian 2 f.arpOpcode.toNat :=
    h.slice (f.fields.take 7) (bigEndian 2 f.arpOpcode.toNat) (f.fields.drop 8) rfl
      (by simp [ArpFrame.fields, ArpFrame.fixed]) (length_bigEndian 2 _)
  obtain ⟨h12, h13⟩ := Received.byte_two htype
  obtain ⟨-, h21⟩ := Received.byte_two hop
  have hlow : (UInt8.ofNat f.arpOpcode.toNat = 2) ↔ f.arpOpcode.toNat % 256 = 2 := by
    rw [← UInt8.toNat_inj]
    simp
  rw [isArpReply, decide_eq_true_iff, h12, h13, h21, hlow]
  exact ⟨fun h => h.2.2, fun h => ⟨by decide, by decide, h⟩⟩

end received

/-! ### Sending a request -/

/-- `RTE_MBUF_DEFAULT_DATAROOM`. -/
abbrev rteMbufDefaultDataroom : Nat := 2048

/-- A buffer as `rte_pktmbuf_alloc` gives it. -/
structure FreshMbuf (M : RteMbuf) where
  mbuf : M.Mbuf
  dataLen_eq : (M.view mbuf).dataLen = 0
  chained_eq : (M.view mbuf).chained = []
  tailroom_eq : (M.view mbuf).tailroom = rteMbufDefaultDataroom

/-- Buffers whose length can be set. -/
structure RteMbufLen (M : RteMbuf) where
  /-- `mbuf->data_len = n; mbuf->pkt_len = n`, of a buffer of one segment -/
  setLen : M.Mbuf → Nat → M.Mbuf
  view_setLen : ∀ m n, M.view (setLen m n) =
    { M.view m with
      dataLen := n
      tailroom := (M.view m).dataLen + (M.view m).tailroom - n }

/-- What `rte_pktmbuf_alloc` gives, and whether `rte_ring_enqueue` returns 0. -/
structure TxArpEnv (M : RteMbuf) where
  alloc : Option (FreshMbuf M)
  enqueued : Bool

/-- What becomes of a call of `pfm_kni_tx_arp`. -/
inductive TxArpEnd (M : RteMbuf) where
  | unknownSender
  | noMbuf
  | freed (mbuf : M.Mbuf)
  | queued (mbuf : M.Mbuf)

section tx

variable {M : RteMbuf}

/-- The fields, in the order in which they are stored. -/
def storeArpRequest (mbuf : M.Mbuf) (senderMacAddr targetMacAddr : MacAddr)
    (senderIpAddr targetIpAddr : PfmIpAddr) : M.Mbuf :=
  let arp (off : Nat) : Int := etherHdrSize + off
  let mbuf := M.store mbuf sAddrOff (List.ofFn senderMacAddr)
  let mbuf := M.store mbuf dAddrOff (List.ofFn targetMacAddr)
  let mbuf := M.store mbuf etherTypeOff (bigEndian 2 etherTypeArp)
  let mbuf := M.store mbuf (arp arpHardwareOff) (bigEndian 2 arpHrdEther)
  let mbuf := M.store mbuf (arp arpProtocolOff) (bigEndian 2 etherTypeIpv4)
  let mbuf := M.store mbuf (arp arpHlenOff) [UInt8.ofNat macAddrSize]
  let mbuf := M.store mbuf (arp arpPlenOff) [4]
  let mbuf := M.store mbuf (arp arpOpcodeOff) (bigEndian 2 arpOpRequest.toNat)
  let mbuf := M.store mbuf (arp arpShaOff) (List.ofFn senderMacAddr)
  let mbuf := M.store mbuf (arp arpSipOff) (bigEndian 4 senderIpAddr.toNat)
  let mbuf := M.store mbuf (arp arpThaOff) (List.ofFn zeroMac)
  M.store mbuf (arp arpTipOff) (bigEndian 4 targetIpAddr.toNat)

def pfmKniTxArp (P : RteMbufLen M) (t : KniTable) (env : TxArpEnv M) (call : KniTxArp) :
    TxArpEnd M :=
  match t.kniInfoList.find? fun kni => kni.ipAddr = call.senderIpAddr with
  | none => .unknownSender
  | some kni =>
      match env.alloc with
      | none => .noMbuf
      | some fresh =>
          let mbuf := P.setLen fresh.mbuf (etherHdrSize + arpHdrSize)
          let mbuf := M.setPort mbuf (UInt16.ofInt call.linkId)
          let mbuf := storeArpRequest mbuf kni.macAddr call.targetMacAddr call.senderIpAddr
            call.targetIpAddr
          if env.enqueued then .queued mbuf else .freed mbuf

/-- The request that a call asks for, from the interface. -/
def KniTxArp.request (call : KniTxArp) (kni : KniInfo) : ArpFrame where
  dAddr := call.targetMacAddr
  sAddr := kni.macAddr
  arpOpcode := arpOpRequest
  arpSha := kni.macAddr
  arpSip := call.senderIpAddr
  arpTha := zeroMac
  arpTip := call.targetIpAddr

/-- The stores make up the frame. -/
theorem view_storeArpRequest (mbuf : M.Mbuf) (call : KniTxArp) (kni : KniInfo) :
    M.view (storeArpRequest mbuf kni.macAddr call.targetMacAddr call.senderIpAddr
      call.targetIpAddr) = (M.view mbuf).store 0 (call.request kni).bytes := by
  simp only [storeArpRequest, M.view_store, MbufView.store]
  have hether : patch (patch (M.view mbuf).byte sAddrOff (List.ofFn kni.macAddr)) dAddrOff
      (List.ofFn call.targetMacAddr) =
        patch (M.view mbuf).byte dAddrOff (List.ofFn call.targetMacAddr ++ List.ofFn kni.macAddr) :=
    patch_front (by simp)
  -- the last field is joined to the one before it, and so on
  rw [hether, patch_behind (by simp), patch_behind (by simp), patch_behind (by simp),
    patch_behind (by simp), patch_behind (by simp), patch_behind (by simp),
    patch_behind (by simp), patch_behind (by simp), patch_behind (by simp),
    patch_behind (by simp)]
  simp only [ArpFrame.bytes, ArpFrame.fields, ArpFrame.fixed, KniTxArp.request,
    List.flatten_append, List.flatten_cons, List.flatten_nil, List.append_nil, List.append_assoc]
  rfl

/-- A fresh buffer that was filled in is the request. -/
theorem received_storeArpRequest (P : RteMbufLen M) (fresh : FreshMbuf M) (call : KniTxArp)
    (kni : KniInfo) (port : UInt16) :
    let mbuf := storeArpRequest
      (M.setPort (P.setLen fresh.mbuf (etherHdrSize + arpHdrSize)) port)
      kni.macAddr call.targetMacAddr call.senderIpAddr call.targetIpAddr
    Received M mbuf (call.request kni).bytes ∧ RteMbuf.port mbuf = port := by
  intro mbuf
  have hview : M.view mbuf =
      ({ M.view (P.setLen fresh.mbuf (etherHdrSize + arpHdrSize)) with port := port } :
        MbufView).store 0 (call.request kni).bytes := by
    rw [view_storeArpRequest, M.view_setPort]
  rw [P.view_setLen] at hview
  refine ⟨⟨?_, ?_⟩, ?_⟩
  · rw [RteMbuf.packet, hview, MbufView.packet]
    change slice (patch _ 0 (call.request kni).bytes) 0 (etherHdrSize + arpHdrSize) ++
      (M.view fresh.mbuf).chained = _
    rw [fresh.chained_eq, List.append_nil, slice_patch_of_length _ _ (ArpFrame.length_bytes _)]
  · rw [hview]
    exact fresh.chained_eq
  · rw [RteMbuf.port, hview]
    rfl

/-- A call by outcome. -/
theorem pfmKniTxArp_cases (P : RteMbufLen M) (t : KniTable) (env : TxArpEnv M)
    (call : KniTxArp) :
    (pfmKniTxArp P t env call = .unknownSender ∧
      ∀ kni ∈ t.kniInfoList, kni.ipAddr ≠ call.senderIpAddr) ∨
    ∃ kni ∈ t.kniInfoList, kni.ipAddr = call.senderIpAddr ∧
      kniIpv4MacAddrGet t call.senderIpAddr = some kni.macAddr ∧
      ((pfmKniTxArp P t env call = .noMbuf ∧ env.alloc = none) ∨
        ∃ mbuf, pfmKniTxArp P t env call = (if env.enqueued then .queued mbuf else .freed mbuf) ∧
          Received M mbuf (call.request kni).bytes ∧
          RteMbuf.port mbuf = UInt16.ofInt call.linkId) := by
  cases hfind : t.kniInfoList.find? fun kni => decide (kni.ipAddr = call.senderIpAddr) with
  | none =>
      refine Or.inl ⟨by rw [pfmKniTxArp, hfind], fun kni hkni hip => ?_⟩
      exact List.find?_eq_none.mp hfind kni hkni (decide_eq_true hip)
  | some kni =>
      have hip : kni.ipAddr = call.senderIpAddr := by simpa using List.find?_some hfind
      refine Or.inr ⟨kni, List.mem_of_find?_eq_some hfind, hip, ?_, ?_⟩
      · rw [kniIpv4MacAddrGet, hfind]
        rfl
      · cases halloc : env.alloc with
        | none => exact Or.inl ⟨by rw [pfmKniTxArp, hfind, halloc], rfl⟩
        | some fresh =>
            obtain ⟨hreq, hport⟩ :=
              received_storeArpRequest P fresh call kni (UInt16.ofInt call.linkId)
            refine Or.inr ⟨_, ?_, hreq, hport⟩
            rw [pfmKniTxArp, hfind, halloc]

/-- A buffer that was filled holds the request of an interface. -/
theorem pfmKniTxArp_made {P : RteMbufLen M} {t : KniTable} {env : TxArpEnv M} {call : KniTxArp}
    {mbuf : M.Mbuf} (h : pfmKniTxArp P t env call = .queued mbuf ∨
      pfmKniTxArp P t env call = .freed mbuf) :
    ∃ kni ∈ t.kniInfoList, kni.ipAddr = call.senderIpAddr ∧
      Received M mbuf (call.request kni).bytes := by
  rcases pfmKniTxArp_cases P t env call with
    ⟨hrun, -⟩ | ⟨kni, hkni, hip, -, ⟨hrun, -⟩ | ⟨mbuf', hrun, hreq, -⟩⟩
  · rw [hrun] at h
    rcases h with h | h
    · cases h
    · cases h
  · rw [hrun] at h
    rcases h with h | h
    · cases h
    · cases h
  refine ⟨kni, hkni, hip, ?_⟩
  have hsame : mbuf' = mbuf := by
    rw [hrun] at h
    split at h
    · rcases h with h | h
      · exact TxArpEnd.queued.inj h
      · cases h
    · rcases h with h | h
      · cases h
      · exact TxArpEnd.freed.inj h
  exact hsame ▸ hreq

/-- A request is not taken for a reply when it comes back. -/
theorem not_isArpReply_request {mbuf : M.Mbuf} {call : KniTxArp} {kni : KniInfo}
    (h : Received M mbuf (call.request kni).bytes) : isArpReply mbuf = false := by
  have h' : Received M mbuf ((call.request kni).bytes ++ []) := by rwa [List.append_nil]
  rw [Bool.eq_false_iff, ne_eq, h'.isArpReply_iff]
  exact (by decide : ¬arpOpRequest.toNat % 256 = 2)

/-- The buffer holds the request of the call, and nothing else. -/
structure SendsRequest (t : KniTable) (call : KniTxArp) (mbuf : M.Mbuf) : Prop where
  reads : ∃ macAddr, kniIpv4MacAddrGet t call.senderIpAddr = some macAddr ∧
    ArpFrame.parse (RteMbuf.packet mbuf) =
      some ⟨call.targetMacAddr, macAddr, arpOpRequest, macAddr, call.senderIpAddr, zeroMac,
        call.targetIpAddr⟩
  pktLen : RteMbuf.pktLen mbuf = etherHdrSize + arpHdrSize
  port : RteMbuf.port mbuf = UInt16.ofInt call.linkId
  notReply : isArpReply mbuf = false

/-- What becomes of a call, and of the buffer it allocates. -/
def TxArpEnd.AsAsked (t : KniTable) (env : TxArpEnv M) (call : KniTxArp) : TxArpEnd M → Prop
  | .unknownSender => kniIpv4MacAddrGet t call.senderIpAddr = none
  | .noMbuf => (kniIpv4MacAddrGet t call.senderIpAddr).isSome = true ∧ env.alloc = none
  | .freed mbuf => env.enqueued = false ∧ SendsRequest t call mbuf
  | .queued mbuf => env.enqueued = true ∧ SendsRequest t call mbuf

/-- **What is sent** is the request asked for, from an interface of the table.  A
broadcast always has the interface. -/
theorem pfmKniTxArp_sends (P : RteMbufLen M) (t : KniTable) :
    (∀ env call, (pfmKniTxArp P t env call).AsAsked t env call) ∧
    ∀ env targetIpAddr targetMacAddr, ∀ call ∈ pfmKniBroadcastArp t targetIpAddr targetMacAddr,
      pfmKniTxArp P t env call ≠ .unknownSender := by
  refine ⟨fun env call => ?_, fun env targetIpAddr targetMacAddr call hcall hno => ?_⟩
  · rcases pfmKniTxArp_cases P t env call with ⟨hrun, hnone⟩ | ⟨kni, -, -, hmac, hout⟩
    · have hfind :
          t.kniInfoList.find? (fun kni => decide (kni.ipAddr = call.senderIpAddr)) = none :=
        List.find?_eq_none.mpr fun kni hkni => by simpa using hnone kni hkni
      rw [hrun, TxArpEnd.AsAsked, kniIpv4MacAddrGet, hfind]
      rfl
    · rcases hout with ⟨hrun, halloc⟩ | ⟨mbuf, hrun, hreq, hport⟩
      · rw [hrun]
        exact ⟨Option.isSome_of_eq_some hmac, halloc⟩
      · have hsends : SendsRequest t call mbuf := {
          reads := ⟨kni.macAddr, hmac, by
            have hparse := ArpFrame.parse_bytes (call.request kni) []
            rwa [List.append_nil, ← hreq.packet_eq] at hparse⟩
          pktLen := by rw [← RteMbuf.length_packet, hreq.packet_eq, ArpFrame.length_bytes]
          port := hport
          notReply := not_isArpReply_request hreq }
        rw [hrun]
        split
        · rename_i henq
          exact ⟨henq, hsends⟩
        · rename_i henq
          exact ⟨Bool.eq_false_iff.mpr henq, hsends⟩
  · obtain ⟨kni, hkni, rfl⟩ := List.mem_map.mp hcall
    rcases pfmKniTxArp_cases P t env ⟨kni.linkId, kni.ipAddr, targetIpAddr, targetMacAddr⟩ with
      ⟨-, hnone⟩ | ⟨_, -, -, -, ⟨hrun, -⟩ | ⟨mbuf, hrun, -, -⟩⟩
    · exact hnone kni hkni rfl
    · rw [hrun] at hno
      cases hno
    · rw [hrun] at hno
      split at hno <;> cases hno

end tx

/-- The buffers of `viewMbuf`. -/
def viewMbufLen : RteMbufLen viewMbuf where
  setLen v n :=
    ⟨{ v.val with dataLen := n, tailroom := v.val.dataLen + v.val.tailroom - n }, v.property⟩
  view_setLen _ _ := rfl

end Pfm
