import Pfm.Classifier

/-!
# What a frame says

`packet_classify` looks at a buffer, at fixed places; what the frame in the
buffer says is `IsGtpFrame`, where the UDP header follows an IPv4 header as long
as its IHL field tells and both lie inside the frame.  The classifier answers
GTP for those frames and no others, whatever lies in the buffer behind the frame,
exactly when the frame `ClassifiesExactly`: the place where the code looks for the
port and the place where the header has it say the same, and a frame that ends
before that place is decided by the bytes it has.
-/

namespace Pfm

open ByteBuffer

variable {M : RteMbuf} {Kni : Type}

/-- The type of the frame, where the classifier looks for it, is IPv4. -/
abbrev RxIpv4 (m : M.Mbuf) : Prop :=
  RteMbuf.byte m etherTypeOff = 0x08 ∧ RteMbuf.byte m (etherTypeOff + 1) = 0x00

/-- The destination address, where the classifier looks for it. -/
abbrev rxDstAddr (m : M.Mbuf) : PfmIpAddr := RteMbuf.ntohl m (etherHdrSize + dstAddrOff)

/-- The destination port, where the classifier looks for it. -/
abbrev rxDstPort (m : M.Mbuf) : UInt16 :=
  RteMbuf.ntohs m (etherHdrSize + ipv4HdrSize + dstPortOff)

/-- Where the IPv4 header of a frame ends: its first byte has the length in
words, IHL, in the low half. -/
def ipHdrEnd (f : List UInt8) : Nat := etherHdrSize + 4 * ((f.getD etherHdrSize 0).toNat % 16)

/-- The UDP header behind the IPv4 header lies in the frame and has this
destination port. -/
def HasUdpPort (f : List UInt8) (port : Int) : Prop :=
  ipHdrEnd f + udpHdrSize ≤ f.length ∧
    port = ofBigEndian ((f.drop (ipHdrEnd f + dstPortOff)).take 2)

/-- A frame for GTP: UDP over IPv4 to the address of an interface and the port
that the interface has for GTP. -/
def IsGtpFrame (ic : IngressClassifier Kni) (f : List UInt8) : Prop :=
  (f.drop etherTypeOff).take 2 = bigEndian 2 etherTypeIpv4 ∧
  (f.drop (etherHdrSize + nextProtoIdOff)).take 1 = [17] ∧
  ∃ kni ∈ ic.kniMap, kni.localIpAddr ≠ bcastIpAddr ∧
    (f.drop (etherHdrSize + dstAddrOff)).take 4 = bigEndian 4 kni.localIpAddr.toNat ∧
    HasUdpPort f kni.portNo

/-- The bytes of the frame from an offset on do not contradict these; the frame
may end before they do. -/
def Agrees (m : M.Mbuf) (off : Nat) (field : List UInt8) : Prop :=
  ∀ i, (h : i < field.length) → off + i < RteMbuf.dataLen m → RteMbuf.byte m (off + i) = field[i]

/-- Whatever follows the frame, the destination is not the broadcast address and
not in the table. -/
def DstUnlisted (ic : IngressClassifier Kni) (m : M.Mbuf) : Prop :=
  ∀ ip : PfmIpAddr, Agrees m (etherHdrSize + dstAddrOff) (bigEndian 4 ip.toNat) →
    ip ≠ bcastIpAddr ∧ ic.kniOf ip = none

/-- No port is asked for, or none in its place is the one of the interface. -/
def PortSettled (ic : IngressClassifier Kni) (m : M.Mbuf) : Prop :=
  rxDstAddr m = bcastIpAddr ∨ RteMbuf.byte m (etherHdrSize + nextProtoIdOff) ≠ 17 ∨
    ∀ kni, ic.kniOf (rxDstAddr m) = some kni → ∀ port : UInt16,
      Agrees m (etherHdrSize + ipv4HdrSize + dstPortOff) (bigEndian 2 port.toNat) →
      (port.toNat : Int) ≠ kni.portNo

/-- The bytes of the frame settle what the classifier answers: they rule out
IPv4, or every listed destination, or they have the whole IPv4 header and that is
enough, or they have the port too. -/
def AnswerInFrame (ic : IngressClassifier Kni) (m : M.Mbuf) : Prop :=
  ¬ Agrees m etherTypeOff (bigEndian 2 etherTypeIpv4) ∨ DstUnlisted ic m ∨
  etherHdrSize + ipv4HdrSize ≤ RteMbuf.dataLen m ∧ PortSettled ic m ∨
  etherHdrSize + ipv4HdrSize + dstPortOff + 2 ≤ RteMbuf.dataLen m

/-- For UDP to an interface, the port where the classifier looks is the one of
the interface just when the UDP header has the port of an interface with that
address. -/
def PortInPlace (ic : IngressClassifier Kni) (m : M.Mbuf) : Prop :=
  RxIpv4 m → rxDstAddr m ≠ bcastIpAddr → RteMbuf.byte m (etherHdrSize + nextProtoIdOff) = 17 →
  ∀ kni, ic.kniOf (rxDstAddr m) = some kni →
    ((rxDstPort m).toNat = kni.portNo ↔
      ∃ kni' ∈ ic.kniMap, kni'.localIpAddr = rxDstAddr m ∧
        HasUdpPort (RteMbuf.packet m) kni'.portNo)

/-- The classifier is right about the frame and asks for nothing behind it. -/
def ClassifiesExactly (ic : IngressClassifier Kni) (m : M.Mbuf) : Prop :=
  AnswerInFrame ic m ∧
    if etherHdrSize + ipv4HdrSize + dstPortOff + 2 ≤ RteMbuf.dataLen m then PortInPlace ic m
    else ¬ IsGtpFrame ic (RteMbuf.packet m)

/-! ### The fields of a buffer -/

section fields

variable {m : M.Mbuf} {off : Nat}

theorem bigEndian_ntohl (m : M.Mbuf) (off : Nat) :
    bigEndian 4 (RteMbuf.ntohl m off).toNat = slice (M.view m).byte off 4 := by
  have hlen : (slice (M.view m).byte off 4).length = 4 := length_slice _ _ _
  have hlt := ofBigEndian_lt (slice (M.view m).byte off 4)
  have hread := bigEndian_ofBigEndian (slice (M.view m).byte off 4)
  rw [hlen] at hlt hread
  rw [RteMbuf.ntohl, UInt32.toNat_ofNat_of_lt' hlt, hread]

theorem bigEndian_ntohs (m : M.Mbuf) (off : Nat) :
    bigEndian 2 (RteMbuf.ntohs m off).toNat = slice (M.view m).byte off 2 := by
  have hlen : (slice (M.view m).byte off 2).length = 2 := length_slice _ _ _
  have hlt := ofBigEndian_lt (slice (M.view m).byte off 2)
  have hread := bigEndian_ofBigEndian (slice (M.view m).byte off 2)
  rw [hlen] at hlt hread
  rw [RteMbuf.ntohs, UInt16.toNat_ofNat_of_lt' hlt, hread]

/-- A buffer agrees with its own bytes. -/
theorem agrees_slice (m : M.Mbuf) (off n : Nat) :
    Agrees m off (slice (M.view m).byte off n) := by
  intro i hi _
  rw [getElem_slice, RteMbuf.byte, Int.natCast_add]

theorem agrees_byte (m : M.Mbuf) (off : Nat) : Agrees m off [RteMbuf.byte m off] := by
  have hagrees := agrees_slice m off 1
  rwa [slice_one] at hagrees

theorem agrees_ntohl (m : M.Mbuf) (off : Nat) :
    Agrees m off (bigEndian 4 (RteMbuf.ntohl m off).toNat) := by
  rw [bigEndian_ntohl]
  exact agrees_slice m off 4

theorem agrees_ntohs (m : M.Mbuf) (off : Nat) :
    Agrees m off (bigEndian 2 (RteMbuf.ntohs m off).toNat) := by
  rw [bigEndian_ntohs]
  exact agrees_slice m off 2

theorem byte_of_slice_eq {field : List UInt8}
    (h : slice (M.view m).byte off field.length = field) (i : Nat) (hi : i < field.length) :
    RteMbuf.byte m (off + i) = field[i] := by
  have hbyte := getElem_slice (M.view m).byte off (by rw [length_slice]; exact hi)
  simp only [h] at hbyte
  rw [hbyte, RteMbuf.byte, Int.natCast_add]

/-- A field inside the frame is what the frame agrees with. -/
theorem slice_of_agrees {field : List UInt8} (hagrees : Agrees m off field)
    (hin : off + field.length ≤ RteMbuf.dataLen m) :
    slice (M.view m).byte off field.length = field := by
  apply List.ext_getElem
  · exact length_slice _ _ _
  intro i hi hi'
  rw [getElem_slice, ← hagrees i hi' (by omega), RteMbuf.byte, Int.natCast_add]

theorem agrees_etherType (hipv4 : RxIpv4 m) :
    Agrees m etherTypeOff (bigEndian 2 etherTypeIpv4) := by
  intro i hi _
  match i, hi with
  | 0, _ => exact hipv4.1
  | 1, _ => exact hipv4.2

/-- The last byte of a field is free when it lies behind the frame. -/
theorem Agrees.change_last {l : List UInt8} {a : UInt8} (h : Agrees m off (l ++ [a]))
    (hend : RteMbuf.dataLen m ≤ off + l.length) (b : UInt8) : Agrees m off (l ++ [b]) := by
  intro i hi hin
  have hbyte := h i (by simpa using hi) hin
  rw [List.getElem_append_left (by omega)] at hbyte ⊢
  exact hbyte

end fields

/-! ### The bytes behind the frame -/

section behind

variable (m : M.Mbuf) (bs : List UInt8)

/-- The buffer with other bytes behind the frame. -/
abbrev withBehind : M.Mbuf := M.store m (RteMbuf.dataLen m) bs

theorem dataLen_withBehind : RteMbuf.dataLen (withBehind m bs) = RteMbuf.dataLen m := by
  rw [RteMbuf.dataLen, M.view_store]
  rfl

theorem slice_withBehind {off n : Nat} (h : off + n ≤ RteMbuf.dataLen m) :
    slice (M.view (withBehind m bs)).byte off n = slice (M.view m).byte off n := by
  rw [M.view_store]
  exact slice_patch_disjoint (Or.inl (by omega))

theorem byte_withBehind {off : Nat} (h : off < RteMbuf.dataLen m) :
    RteMbuf.byte (withBehind m bs) off = RteMbuf.byte m off := by
  apply RteMbuf.byte_of_slice
  rw [slice_withBehind m bs h, slice_one]
  rfl

theorem ntohl_withBehind {off : Nat} (h : off + 4 ≤ RteMbuf.dataLen m) :
    RteMbuf.ntohl (withBehind m bs) off = RteMbuf.ntohl m off := by
  rw [RteMbuf.ntohl, RteMbuf.ntohl, slice_withBehind m bs h]

theorem ntohs_withBehind {off : Nat} (h : off + 2 ≤ RteMbuf.dataLen m) :
    RteMbuf.ntohs (withBehind m bs) off = RteMbuf.ntohs m off := by
  rw [RteMbuf.ntohs, RteMbuf.ntohs, slice_withBehind m bs h]

theorem agrees_withBehind {off : Nat} {field : List UInt8} :
    Agrees (withBehind m bs) off field ↔ Agrees m off field := by
  apply forall_congr'
  intro i
  apply forall_congr'
  intro hi
  rw [dataLen_withBehind]
  apply imp_congr_right
  intro hin
  rw [byte_withBehind m bs hin]

end behind

/-- With the rest of `pre ++ field ++ post` behind the frame, the buffer has
`field` at its place, if the frame agrees with it. -/
theorem slice_completed {m : M.Mbuf} {bs : List UInt8} (pre field post : List UInt8) {off : Nat}
    (hbs : bs = pre ++ field ++ post) (hoff : pre.length = off) (hagrees : Agrees m off field) :
    slice (M.view (withBehind m (bs.drop (RteMbuf.dataLen m)))).byte off field.length = field := by
  subst hbs hoff
  apply List.ext_getElem
  · exact length_slice _ _ _
  intro i hi hi'
  rw [getElem_slice, M.view_store]
  change patch _ _ _ _ = _
  by_cases hin : pre.length + i < RteMbuf.dataLen m
  · rw [patch, if_neg (by omega), ← hagrees i hi' hin, RteMbuf.byte, Int.natCast_add]
  · have hlen : ((pre ++ field ++ post).drop (RteMbuf.dataLen m)).length =
        pre.length + field.length + post.length - RteMbuf.dataLen m := by
      rw [List.length_drop, List.length_append, List.length_append]
    have hidx : ((pre.length : Int) + i - RteMbuf.dataLen m).toNat =
        pre.length + i - RteMbuf.dataLen m := by omega
    have hsum : RteMbuf.dataLen m + (pre.length + i - RteMbuf.dataLen m) = pre.length + i := by
      omega
    rw [patch, if_pos (by rw [hlen]; omega), hidx, List.getD_eq_getElem _ _ (by rw [hlen]; omega),
      List.getElem_drop]
    simp only [hsum]
    rw [List.getElem_append_left (by simp; omega), List.getElem_append_right (by omega)]
    simp

/-- Any fields that the frame agrees with can be read from the buffer, with the
right bytes behind the frame. -/
theorem exists_completion {m : M.Mbuf} {proto : UInt8} {ip : UInt32} {port : UInt16}
    (htype : Agrees m etherTypeOff (bigEndian 2 etherTypeIpv4))
    (hproto : Agrees m (etherHdrSize + nextProtoIdOff) [proto])
    (hip : Agrees m (etherHdrSize + dstAddrOff) (bigEndian 4 ip.toNat))
    (hport : Agrees m (etherHdrSize + ipv4HdrSize + dstPortOff) (bigEndian 2 port.toNat)) :
    ∃ bs, RxIpv4 (withBehind m bs) ∧
      RteMbuf.byte (withBehind m bs) (etherHdrSize + nextProtoIdOff) = proto ∧
      rxDstAddr (withBehind m bs) = ip ∧ rxDstPort (withBehind m bs) = port := by
  let toProto := List.replicate 12 0 ++ bigEndian 2 etherTypeIpv4 ++ List.replicate 9 0
  let toIp := toProto ++ [proto] ++ List.replicate 6 0
  let toPort := toIp ++ bigEndian 4 ip.toNat ++ List.replicate 2 0
  let bs := toPort ++ bigEndian 2 port.toNat
  let fromPort := List.replicate 2 0 ++ bigEndian 2 port.toNat
  let fromIp := List.replicate 6 0 ++ bigEndian 4 ip.toNat ++ fromPort
  have htypeBytes := slice_completed (List.replicate 12 0) _ (List.replicate 9 0 ++ [proto] ++ fromIp)
    (show bs = _ by simp only [bs, toPort, toIp, toProto, fromIp, fromPort, List.append_assoc]) rfl htype
  have hprotoBytes := slice_completed toProto _ fromIp
    (show bs = _ by simp only [bs, toPort, toIp, fromIp, fromPort, List.append_assoc]) rfl hproto
  have hipBytes := slice_completed toIp _ fromPort
    (show bs = _ by simp only [bs, toPort, fromPort, List.append_assoc]) rfl hip
  have hportBytes := slice_completed toPort _ []
    (show bs = _ from (List.append_nil _).symm) rfl hport
  have htype' := byte_of_slice_eq htypeBytes
  refine ⟨bs.drop (RteMbuf.dataLen m), ⟨htype' 0 (by decide), htype' 1 (by decide)⟩,
    RteMbuf.byte_of_slice hprotoBytes, ?_, ?_⟩
  · rw [length_bigEndian] at hipBytes
    exact RteMbuf.ntohl_of_slice hipBytes
  · rw [length_bigEndian] at hportBytes
    exact RteMbuf.ntohs_of_slice hportBytes

/-! ### What the classifier answers -/

section answer

variable {ic : IngressClassifier Kni} {m : M.Mbuf}

/-- `packet_classify` reads six bytes and the two bytes of the port. -/
theorem packetClassify_congr {m' : M.Mbuf}
    (h8 : RteMbuf.byte m' etherTypeOff = RteMbuf.byte m etherTypeOff)
    (h0 : RteMbuf.byte m' (etherTypeOff + 1) = RteMbuf.byte m (etherTypeOff + 1))
    (hproto : RteMbuf.byte m' (etherHdrSize + nextProtoIdOff) =
      RteMbuf.byte m (etherHdrSize + nextProtoIdOff))
    (hip : rxDstAddr m' = rxDstAddr m) (hport : rxDstPort m' = rxDstPort m) :
    packetClassify ic m' = packetClassify ic m := by
  rw [rxDstAddr, rxDstAddr] at hip
  rw [rxDstPort, rxDstPort] at hport
  unfold packetClassify
  rw [h8, h0, hproto, hip, hport]

theorem packetClassify_of_not_ipv4 (h : ¬RxIpv4 m) :
    packetClassify ic m = (.broadcast, none) := by
  unfold packetClassify
  dsimp only
  split
  · rfl
  rw [if_pos]
  intro hipv4
  exact h ⟨hipv4.1.symm, hipv4.2.symm⟩

theorem packetClassify_of_ipv4 (hipv4 : RxIpv4 m) :
    packetClassify ic m =
      if rxDstAddr m = bcastIpAddr then (.broadcast, none)
      else match ic.kniOf (rxDstAddr m) with
        | none => (.unknown, none)
        | some kni =>
            if 17 ≠ RteMbuf.byte m (etherHdrSize + nextProtoIdOff) then
              (.others, some kni.kniPtr)
            else if (rxDstPort m).toNat = kni.portNo then (.gtp, some kni.kniPtr)
            else (.others, some kni.kniPtr) := by
  unfold packetClassify
  dsimp only
  rw [hipv4.1, hipv4.2, if_neg (by decide)]
  exact if_neg (by decide)

theorem packetClassify_of_bcast (hipv4 : RxIpv4 m) (hip : rxDstAddr m = bcastIpAddr) :
    packetClassify ic m = (.broadcast, none) := by
  rw [packetClassify_of_ipv4 hipv4, if_pos hip]

theorem packetClassify_of_unlisted (hipv4 : RxIpv4 m)
    (hip : rxDstAddr m ≠ bcastIpAddr) (hkni : ic.kniOf (rxDstAddr m) = none) :
    packetClassify ic m = (.unknown, none) := by
  rw [packetClassify_of_ipv4 hipv4, if_neg hip, hkni]

/-- A packet for an interface is not dropped, and is not for all of them. -/
theorem packetClassify_of_kni {kni : KniMapping Kni} (hipv4 : RxIpv4 m)
    (hip : rxDstAddr m ≠ bcastIpAddr) (hkni : ic.kniOf (rxDstAddr m) = some kni) :
    packetClassify ic m =
      (if RteMbuf.byte m (etherHdrSize + nextProtoIdOff) = 17 ∧
          (rxDstPort m).toNat = kni.portNo then .gtp else .others, some kni.kniPtr) := by
  rw [packetClassify_of_ipv4 hipv4, if_neg hip, hkni]
  dsimp only
  by_cases hproto : RteMbuf.byte m (etherHdrSize + nextProtoIdOff) = 17
  · rw [hproto, if_neg (by decide)]
    by_cases hport : (rxDstPort m).toNat = kni.portNo
    · rw [if_pos hport, if_pos ⟨rfl, hport⟩]
    · rw [if_neg hport, if_neg (fun h => hport h.2)]
  · rw [if_pos (Ne.symm hproto), if_neg (fun h => hproto h.1)]

end answer

/-- Another address with the same first three bytes is neither the broadcast
address nor in the table: there are 256 of them, and the table is short. -/
theorem exists_unlisted (ic : IngressClassifier Kni) (ip : PfmIpAddr) :
    ∃ ip' : PfmIpAddr, ip'.toNat / 256 = ip.toNat / 256 ∧
      ip' ≠ bcastIpAddr ∧ ic.kniOf ip' = none := by
  let taken := 255 :: ic.kniMap.map fun kni => kni.localIpAddr.toNat % 256
  have hcount := ic.kniCount_le
  have hfree : ∃ b ∈ List.range 256, b ∉ taken := by
    by_contra hall
    push Not at hall
    have hle := (List.subperm_of_subset List.nodup_range hall).length_le
    simp only [taken, List.length_range, List.length_cons, List.length_map, maxKniPorts] at hle hcount
    omega
  obtain ⟨b, hb, hfree⟩ := hfree
  have hlt := ip.toNat_lt
  have hb := List.mem_range.mp hb
  have hnat : (UInt32.ofNat (ip.toNat / 256 * 256 + b)).toNat = ip.toNat / 256 * 256 + b :=
    UInt32.toNat_ofNat_of_lt' (show _ < 2 ^ 32 by omega)
  refine ⟨UInt32.ofNat (ip.toNat / 256 * 256 + b), by omega, ?_, ?_⟩
  · intro heq
    have hlast := congrArg (fun a : PfmIpAddr => a.toNat % 256) heq
    simp only [hnat] at hlast
    have hbcast : bcastIpAddr.toNat % 256 = 255 := by decide
    apply hfree
    rw [show b = 255 by omega]
    exact List.mem_cons_self
  · apply List.find?_eq_none.mpr
    intro kni hmem heq
    apply hfree
    apply List.mem_cons_of_mem
    apply List.mem_map.mpr
    refine ⟨kni, hmem, ?_⟩
    rw [of_decide_eq_true heq, hnat]
    omega

/-! ### The answer and the frame -/

section exactness

variable {ic : IngressClassifier Kni} {m : M.Mbuf}

theorem rxIpv4_withBehind (hin : etherHdrSize ≤ RteMbuf.dataLen m) (bs : List UInt8) :
    RxIpv4 (withBehind m bs) ↔ RxIpv4 m := by
  rw [RxIpv4, RxIpv4, byte_withBehind m bs (Nat.lt_of_lt_of_le (by decide) hin),
    byte_withBehind m bs (Nat.lt_of_lt_of_le (by decide) hin)]

theorem DstUnlisted.length (h : DstUnlisted ic m) :
    etherHdrSize + dstAddrOff < RteMbuf.dataLen m := by
  by_contra hshort
  have hbcast : Agrees m (etherHdrSize + dstAddrOff) (bigEndian 4 bcastIpAddr.toNat) :=
    fun i _ hin => absurd hin (by omega)
  exact (h bcastIpAddr hbcast).1 rfl

theorem DstUnlisted.withBehind (h : DstUnlisted ic m) (bs : List UInt8) :
    DstUnlisted ic (withBehind m bs) := by
  intro ip hagrees
  exact h ip ((agrees_withBehind m bs).mp hagrees)

theorem DstUnlisted.answer (h : DstUnlisted ic m) :
    packetClassify ic m = if RxIpv4 m then (.unknown, none) else (.broadcast, none) := by
  obtain ⟨hip, hkni⟩ := h (rxDstAddr m) (agrees_ntohl m _)
  split
  · rename_i hipv4
    exact packetClassify_of_unlisted hipv4 hip hkni
  · rename_i hipv4
    exact packetClassify_of_not_ipv4 hipv4

theorem PortSettled.withBehind (h : PortSettled ic m)
    (hin : etherHdrSize + ipv4HdrSize ≤ RteMbuf.dataLen m) (bs : List UInt8) :
    PortSettled ic (withBehind m bs) := by
  have hip : rxDstAddr (Pfm.withBehind m bs) = rxDstAddr m := ntohl_withBehind m bs hin
  have hproto := byte_withBehind m bs
    (Nat.lt_of_lt_of_le (show etherHdrSize + nextProtoIdOff < _ by decide) hin)
  rw [PortSettled, hip, hproto]
  refine h.imp_right (Or.imp_right fun hports kni hkni port hagrees => ?_)
  exact hports kni hkni port ((agrees_withBehind m bs).mp hagrees)

/-- The class and the interface, from the type and the destination. -/
theorem PortSettled.answer (h : PortSettled ic m) :
    packetClassify ic m =
      if RxIpv4 m then
        if rxDstAddr m = bcastIpAddr then (.broadcast, none)
        else match ic.kniOf (rxDstAddr m) with
          | none => (.unknown, none)
          | some kni => (.others, some kni.kniPtr)
      else (.broadcast, none) := by
  by_cases hipv4 : RxIpv4 m
  swap
  · rw [if_neg hipv4, packetClassify_of_not_ipv4 hipv4]
  rw [if_pos hipv4]
  by_cases hip : rxDstAddr m = bcastIpAddr
  · rw [if_pos hip, packetClassify_of_bcast hipv4 hip]
  rw [if_neg hip]
  cases hkni : ic.kniOf (rxDstAddr m) with
  | none => exact packetClassify_of_unlisted hipv4 hip hkni
  | some kni =>
      rw [packetClassify_of_kni hipv4 hip hkni, if_neg]
      intro hgtp
      rcases h with hbcast | hproto | hports
      · exact hip hbcast
      · exact hproto hgtp.1
      · exact hports kni hkni (rxDstPort m) (agrees_ntohs m _) hgtp.2

/-- The bytes behind the frame have no say where the frame settles the answer. -/
theorem AnswerInFrame.withBehind (h : AnswerInFrame ic m) (bs : List UInt8) :
    packetClassify ic (withBehind m bs) = packetClassify ic m := by
  rcases h with htype | hip | ⟨hlong, hport⟩ | hlong
  · have hno : ¬RxIpv4 m := fun hipv4 => htype (agrees_etherType hipv4)
    have hno' : ¬RxIpv4 (Pfm.withBehind m bs) := fun hipv4 =>
      htype ((agrees_withBehind m bs).mp (agrees_etherType hipv4))
    rw [packetClassify_of_not_ipv4 hno, packetClassify_of_not_ipv4 hno']
  · have hin : etherHdrSize ≤ RteMbuf.dataLen m := Nat.le_of_lt
      (Nat.lt_of_le_of_lt (Nat.le_add_right _ _) hip.length)
    simp only [hip.answer, (hip.withBehind bs).answer, rxIpv4_withBehind hin bs]
  · have hin : etherHdrSize ≤ RteMbuf.dataLen m := Nat.le_trans (Nat.le_add_right _ _) hlong
    have hip : rxDstAddr (Pfm.withBehind m bs) = rxDstAddr m := ntohl_withBehind m bs hlong
    simp only [hport.answer, (hport.withBehind hlong bs).answer, rxIpv4_withBehind hin bs, hip]
  · have hbyte {off : Nat} (hoff : off < etherHdrSize + ipv4HdrSize + dstPortOff + 2) :=
      byte_withBehind m bs (Nat.lt_of_lt_of_le hoff hlong)
    exact packetClassify_congr (hbyte (by decide)) (hbyte (by decide)) (hbyte (by decide))
      (ntohl_withBehind m bs (Nat.le_trans (by decide) hlong)) (ntohs_withBehind m bs hlong)

/-- A frame that ends before its port is not taken for GTP. -/
theorem AnswerInFrame.ne_gtp (h : AnswerInFrame ic m)
    (hshort : ¬etherHdrSize + ipv4HdrSize + dstPortOff + 2 ≤ RteMbuf.dataLen m) :
    (packetClassify ic m).1 ≠ .gtp := by
  rcases h with htype | hip | ⟨-, hport⟩ | hlong
  · rw [packetClassify_of_not_ipv4 fun hipv4 => htype (agrees_etherType hipv4)]
    simp
  · rw [hip.answer]
    split <;> simp
  · rw [hport.answer]
    split
    · split
      · simp
      · split <;> simp
    · simp
  · exact absurd hlong hshort

/-- The last byte of the port decides between GTP and the rest. -/
theorem exists_port_pair (port : UInt16) :
    ∃ port' : UInt16, port'.toNat / 256 = port.toNat / 256 ∧ port' ≠ port := by
  have hlt := port.toNat_lt
  have hnat : (UInt16.ofNat (port.toNat / 256 * 256 + (port.toNat + 1) % 256)).toNat =
      port.toNat / 256 * 256 + (port.toNat + 1) % 256 :=
    UInt16.toNat_ofNat_of_lt' (show _ < 2 ^ 16 by omega)
  refine ⟨UInt16.ofNat (port.toNat / 256 * 256 + (port.toNat + 1) % 256), by omega, ?_⟩
  intro heq
  have heq := congrArg UInt16.toNat heq
  omega

/-- Where the frame ends in its destination and may be for an interface, what
follows it makes the difference. -/
theorem exists_answers_of_listed (htype : Agrees m etherTypeOff (bigEndian 2 etherTypeIpv4))
    (hlisted : ¬DstUnlisted ic m) (hshort : ¬etherHdrSize + ipv4HdrSize ≤ RteMbuf.dataLen m) :
    ∃ bs bs', packetClassify ic (withBehind m bs) ≠ packetClassify ic (withBehind m bs') := by
  rw [DstUnlisted] at hlisted
  push Not at hlisted
  obtain ⟨ip, hagrees, hip⟩ := hlisted
  obtain ⟨ip', hprefix, hbcast', hkni'⟩ := exists_unlisted ic ip
  have hagrees' : Agrees m (etherHdrSize + dstAddrOff) (bigEndian 4 ip'.toNat) := by
    rw [bigEndian_concat, hprefix]
    rw [bigEndian_concat] at hagrees
    simp only [etherHdrSize, ipv4HdrSize, Nat.not_le] at hshort
    exact hagrees.change_last (by rw [length_bigEndian]; exact Nat.le_of_lt_succ hshort) _
  obtain ⟨bs, hipv4, -, hdst, -⟩ := exists_completion htype (agrees_byte m _) hagrees
    (agrees_ntohs m _)
  obtain ⟨bs', hipv4', -, hdst', -⟩ := exists_completion htype (agrees_byte m _) hagrees'
    (agrees_ntohs m _)
  refine ⟨bs, bs', ?_⟩
  rw [packetClassify_of_unlisted hipv4' (by rwa [hdst']) (by rwa [hdst'])]
  by_cases hbcast : ip = bcastIpAddr
  · rw [packetClassify_of_bcast hipv4 (by rwa [hdst])]
    simp
  · obtain ⟨kni, hkni⟩ := Option.ne_none_iff_exists'.mp (hip hbcast)
    rw [packetClassify_of_kni hipv4 (by rwa [hdst]) (by rwa [hdst])]
    simp

/-- Where the frame ends in the port, which may be the one of the interface, what
follows it makes the difference. -/
theorem exists_answers_of_port (htype : Agrees m etherTypeOff (bigEndian 2 etherTypeIpv4))
    (hport : ¬PortSettled ic m)
    (hshort : ¬etherHdrSize + ipv4HdrSize + dstPortOff + 2 ≤ RteMbuf.dataLen m) :
    ∃ bs bs', packetClassify ic (withBehind m bs) ≠ packetClassify ic (withBehind m bs') := by
  rw [PortSettled] at hport
  push Not at hport
  obtain ⟨hbcast, hproto, kni, hkni, port, hagrees, hgtp⟩ := hport
  obtain ⟨port', hprefix, hne⟩ := exists_port_pair port
  have hagrees' : Agrees m (etherHdrSize + ipv4HdrSize + dstPortOff)
      (bigEndian 2 port'.toNat) := by
    rw [bigEndian_concat, hprefix]
    rw [bigEndian_concat] at hagrees
    simp only [etherHdrSize, ipv4HdrSize, dstPortOff, Nat.not_le] at hshort
    exact hagrees.change_last (by rw [length_bigEndian]; exact Nat.le_of_lt_succ hshort) _
  obtain ⟨bs, hipv4, hproto₁, hdst, hdstPort⟩ := exists_completion htype (agrees_byte m _)
    (agrees_ntohl m _) hagrees
  obtain ⟨bs', hipv4', -, hdst', hdstPort'⟩ := exists_completion htype (agrees_byte m _)
    (agrees_ntohl m _) hagrees'
  refine ⟨bs, bs', ?_⟩
  rw [packetClassify_of_kni hipv4 (by rwa [hdst]) (by rwa [hdst]),
    packetClassify_of_kni hipv4' (by rwa [hdst']) (by rwa [hdst']),
    if_pos ⟨hproto₁.trans hproto, by rwa [hdstPort]⟩, if_neg]
  · simp
  · intro hgtp'
    have hport' := hgtp'.2
    rw [hdstPort', ← hgtp] at hport'
    exact hne (UInt16.toNat_inj.mp (Int.ofNat_inj.mp hport'))

/-- An answer that the bytes behind the frame cannot change is settled by the
frame. -/
theorem answerInFrame_of_withBehind
    (h : ∀ bs, packetClassify ic (withBehind m bs) = packetClassify ic m) :
    AnswerInFrame ic m := by
  by_contra hopen
  simp only [AnswerInFrame, not_or, not_and, not_not] at hopen
  obtain ⟨htype, hlisted, hport, hshort⟩ := hopen
  have hdiffer : ∃ bs bs', packetClassify ic (withBehind m bs) ≠
      packetClassify ic (withBehind m bs') := by
    by_cases hlong : etherHdrSize + ipv4HdrSize ≤ RteMbuf.dataLen m
    · exact exists_answers_of_port htype (hport hlong) hshort
    · exact exists_answers_of_listed htype hlisted hlong
  obtain ⟨bs, bs', hne⟩ := hdiffer
  exact hne ((h bs).trans (h bs').symm)

/-- The fields of the IPv4 header of a frame that has them. -/
theorem isGtpFrame_iff (hlong : etherHdrSize + ipv4HdrSize ≤ RteMbuf.dataLen m) :
    IsGtpFrame ic (RteMbuf.packet m) ↔
      RxIpv4 m ∧ RteMbuf.byte m (etherHdrSize + nextProtoIdOff) = 17 ∧
      rxDstAddr m ≠ bcastIpAddr ∧
      ∃ kni ∈ ic.kniMap, kni.localIpAddr = rxDstAddr m ∧
        HasUdpPort (RteMbuf.packet m) kni.portNo := by
  have hfield {off n : Nat} (hin : off + n ≤ etherHdrSize + ipv4HdrSize) :
      ((RteMbuf.packet m).drop off).take n = slice (M.view m).byte off n :=
    ((M.view m).slice_byte (Nat.le_trans hin hlong)).symm
  have htype : slice (M.view m).byte etherTypeOff 2 = bigEndian 2 etherTypeIpv4 ↔ RxIpv4 m := by
    constructor
    · intro hslice
      have hbyte := byte_of_slice_eq (show slice _ _ (bigEndian 2 etherTypeIpv4).length =
        bigEndian 2 etherTypeIpv4 from hslice)
      exact ⟨hbyte 0 (by decide), hbyte 1 (by decide)⟩
    · intro hipv4
      exact slice_of_agrees (agrees_etherType hipv4) (Nat.le_trans (by decide) hlong)
  have hproto : slice (M.view m).byte (etherHdrSize + nextProtoIdOff : Nat) 1 = [17] ↔
      RteMbuf.byte m (etherHdrSize + nextProtoIdOff) = 17 := by
    rw [slice_one, List.cons.injEq, and_iff_left rfl]
    rfl
  have hip (ip : PfmIpAddr) : slice (M.view m).byte (etherHdrSize + dstAddrOff : Nat) 4 =
      bigEndian 4 ip.toNat ↔ ip = rxDstAddr m := by
    constructor
    · intro hslice
      exact (RteMbuf.ntohl_of_slice hslice).symm
    · intro heq
      rw [heq, bigEndian_ntohl]
  rw [IsGtpFrame, hfield (by decide), hfield (by decide), hfield (by decide), htype, hproto]
  refine and_congr_right fun _ => and_congr_right fun _ => ?_
  constructor
  · intro h
    obtain ⟨kni, hmem, hbcast, haddr, hport⟩ := h
    have haddr := (hip _).mp haddr
    exact ⟨by rwa [← haddr], kni, hmem, haddr, hport⟩
  · intro h
    obtain ⟨hbcast, kni, hmem, haddr, hport⟩ := h
    exact ⟨kni, hmem, by rwa [haddr], (hip _).mpr haddr, hport⟩

/-- A frame that reaches the place of the port is classified for what it is just
when the port is in that place. -/
theorem gtp_iff_isGtpFrame_iff
    (hlong : etherHdrSize + ipv4HdrSize + dstPortOff + 2 ≤ RteMbuf.dataLen m) :
    ((packetClassify ic m).1 = .gtp ↔ IsGtpFrame ic (RteMbuf.packet m)) ↔ PortInPlace ic m := by
  rw [isGtpFrame_iff (Nat.le_trans (by decide) hlong)]
  constructor
  · intro h hipv4 hbcast hproto kni hkni
    rw [packetClassify_of_kni hipv4 hbcast hkni] at h
    constructor
    · intro hport
      exact (h.mp (by rw [if_pos ⟨hproto, hport⟩])).2.2.2
    · intro hhas
      have hgtp := h.mpr ⟨hipv4, hproto, hbcast, hhas⟩
      by_contra hport
      rw [if_neg fun hport' => hport hport'.2] at hgtp
      cases hgtp
  · intro h
    rw [packetClassify_gtp_iff]
    constructor
    · intro hgtp
      obtain ⟨h8, h0, hbcast, hproto, kni, hkni, hport⟩ := hgtp
      exact ⟨⟨h8, h0⟩, hproto, hbcast, (h ⟨h8, h0⟩ hbcast hproto kni hkni).mp hport.symm⟩
    · intro hframe
      obtain ⟨hipv4, hproto, hbcast, kni', hmem, haddr, hport⟩ := hframe
      obtain ⟨kni, hkni⟩ : ∃ kni, ic.kniOf (rxDstAddr m) = some kni := by
        apply Option.isSome_iff_exists.mp
        rw [IngressClassifier.kniOf, List.find?_isSome]
        exact ⟨kni', hmem, decide_eq_true haddr⟩
      have hport := (h hipv4 hbcast hproto kni hkni).mpr ⟨kni', hmem, haddr, hport⟩
      exact ⟨hipv4.1, hipv4.2, hbcast, hproto, kni, hkni, hport.symm⟩

/-- The classifier is right about a frame whatever lies behind it, and answers
the same whatever lies behind it, exactly when `ClassifiesExactly`. -/
theorem packetClassify_exact_iff (ic : IngressClassifier Kni) (m : M.Mbuf) :
    (∀ bs, ((packetClassify ic (withBehind m bs)).1 = .gtp ↔ IsGtpFrame ic (RteMbuf.packet m)) ∧
      packetClassify ic (withBehind m bs) = packetClassify ic m) ↔ ClassifiesExactly ic m := by
  have hright (hframe : AnswerInFrame ic m) :
      ((packetClassify ic m).1 = .gtp ↔ IsGtpFrame ic (RteMbuf.packet m)) ↔
        if etherHdrSize + ipv4HdrSize + dstPortOff + 2 ≤ RteMbuf.dataLen m then PortInPlace ic m
        else ¬ IsGtpFrame ic (RteMbuf.packet m) := by
    split
    · rename_i hlong
      exact gtp_iff_isGtpFrame_iff hlong
    · rename_i hshort
      rw [iff_false_left (hframe.ne_gtp hshort)]
  constructor
  · intro h
    have hframe := answerInFrame_of_withBehind fun bs => (h bs).2
    refine ⟨hframe, (hright hframe).mp ?_⟩
    rw [← (h []).2]
    exact (h []).1
  · intro h bs
    have hsame := h.1.withBehind bs
    rw [hsame]
    exact ⟨(hright h.1).mpr h.2, rfl⟩

end exactness

/-- A frame for port 2152 of 10.0.0.1 whose IPv4 header has one word of options. -/
def optionFrame : viewMbuf.Mbuf :=
  ⟨{ mtod := pageSize, headroom := 0, dataLen := 46, tailroom := 0
     byte := fun i => match i with
       | 12 => 0x08
       | 14 => 0x46
       | 23 => 17
       | 30 => 10
       | 33 => 1
       | 40 => 0x08
       | 41 => 0x68
       | _ => 0
     chained := [], port := 0, olFlags := 0 }, by decide⟩

/-- The classifier looks for its port in the options. -/
theorem optionFrame_not_exact :
    ¬ ∀ bs,
      ((packetClassify ⟨[⟨(), 0x0A000001, 2152⟩], by decide⟩ (withBehind optionFrame bs)).1 =
          .gtp ↔
        IsGtpFrame (⟨[⟨(), 0x0A000001, 2152⟩], by decide⟩ : IngressClassifier Unit)
          (RteMbuf.packet optionFrame)) ∧
      packetClassify ⟨[⟨(), 0x0A000001, 2152⟩], by decide⟩ (withBehind optionFrame bs) =
        packetClassify ⟨[⟨(), 0x0A000001, 2152⟩], by decide⟩ optionFrame := by
  intro h
  have hframe : IsGtpFrame (⟨[⟨(), 0x0A000001, 2152⟩], by decide⟩ : IngressClassifier Unit)
      (RteMbuf.packet optionFrame) :=
    ⟨by decide, by decide, ⟨(), 0x0A000001, 2152⟩, List.mem_cons_self, by decide, by decide,
      by decide, by decide⟩
  have hgtp := (h []).1.mpr hframe
  revert hgtp
  decide

end Pfm
