import Pfm.FrameAgreement
import Pfm.OnesComplement

/-!
# The checksum of the IPv4 header

`check_sum` is called for the 20 bytes of the header.  Its loop and its padding
take in the three bytes behind them as well (`checkSum_eq`), which
`pfm_data_req` has not written yet: they are what the headroom held.  And the
sum of the big-endian words is stored in host order.  `queued_ipv4Hdr` is the
header of a frame as it is queued.
-/

namespace Pfm

open BoundedLoop ByteBuffer OnesComplement

variable {D : Dpdk} {M : RteMbuf}

/-- The folding loop keeps the one's-complement value. -/
theorem endAround_foldCarry (fuel csum : Nat) :
    endAround 65535 (foldCarry fuel csum) = endAround 65535 csum := by
  induction fuel generalizing csum with
  | zero => rfl
  | succ fuel ih =>
      rw [foldCarry]
      split
      · rfl
      · rw [ih, endAround_fold (B := 65536) (by decide)]

theorem foldCarry_eq {csum : Nat} (h : csum < 2 ^ 32) :
    foldCarry 2 csum = endAround 65535 csum := by
  have hlt := foldCarry_lt h
  rw [← endAround_foldCarry 2 csum, endAround_of_le (by omega)]

/-- **The bytes of an even length that are summed**: three more than the length. -/
theorem checkSum_eq (pkt : M.Mbuf) (addr : Nat) {pktLen : Nat} (heven : pktLen % 2 = 0)
    (hlen : pktLen ≤ 65532) :
    checkSum pkt addr pktLen =
      ~~~ UInt16.ofNat
        (endAround 65535 (words (slice (M.view pkt).byte addr (pktLen + 3))).sum) := by
  have hbytes : pktLen + 3 = 2 * (pktLen / 2 + 1) + 1 := by omega
  have hsum : (words (slice (M.view pkt).byte addr (pktLen + 3))).sum =
      (List.range (pktLen / 2 + 1)).foldl
        (fun csum k => csum + ((RteMbuf.byte pkt (addr + 2 * k)).toNat * 256 +
          (RteMbuf.byte pkt (addr + 2 * k + 1)).toNat)) 0 +
      (RteMbuf.byte pkt (addr + 2 * (pktLen / 2 + 1))).toNat * 256 := by
    rw [hbytes, slice_add, words_append (length_slice _ _ _), List.sum_append, sum_words_slice,
      slice_one, List.sum_eq_foldl, List.foldl_map]
    simp only [words, List.sum_cons, List.sum_nil, Nat.add_zero, RteMbuf.byte, Int.natCast_add,
      Int.add_assoc]
  have hlt : (words (slice (M.view pkt).byte addr (pktLen + 3))).sum < 2 ^ 32 := by
    have hle := sum_words_le (slice (M.view pkt).byte addr (pktLen + 3))
    rw [length_slice] at hle
    omega
  rw [checkSum, if_pos heven, ← hsum, Nat.mod_eq_of_lt hlt, foldCarry_eq hlt]

/-! ### The header of a queued frame -/

/-- The 20 bytes of the IPv4 header of a frame. -/
def ipv4Hdr (frame : M.Mbuf) : List UInt8 := slice (M.view frame).byte etherHdrSize ipv4HdrSize

/-- The three bytes of the headroom that come to lie behind the IPv4 header. -/
def bytesBehindHdr (mbuf : M.Mbuf) : List UInt8 :=
  slice (M.view mbuf).byte (etherHdrSize + ipv4HdrSize - udpFrameHdrSize : Int) 3

/-- The header with its checksum. -/
def RteIpv4Hdr.withCheckSum (hdr : RteIpv4Hdr) (csum : UInt16) : RteIpv4Hdr :=
  { hdr with hdrChecksum := csum }

/-- The words of a header, but for its checksum. -/
def RteIpv4Hdr.wordSum (hdr : RteIpv4Hdr) : Nat := (words (hdr.withCheckSum 0).bytes).sum

/-- The words in front of the checksum and behind it. -/
theorem words_withCheckSum (hdr : RteIpv4Hdr) (csum : UInt16) :
    words (hdr.withCheckSum csum).bytes =
      words ([hdr.versionIhl, hdr.typeOfService] ++ bigEndian 2 hdr.totalLength.toNat ++
        bigEndian 2 hdr.packetId.toNat ++ bigEndian 2 hdr.fragmentOffset.toNat ++
        [hdr.timeToLive, hdr.nextProtoId]) ++
      words (littleEndian 2 csum.toNat) ++ words (bigEndian 4 hdr.srcAddr.toNat) ++
      words (bigEndian 4 hdr.dstAddr.toNat) := by
  rw [← words_append (k := 5), ← words_append (k := 6), ← words_append (k := 8)]
  · rfl
  · simp
  · simp
  · simp

/-- The checksum, stored low byte first, is read the other way round. -/
theorem sum_words_withCheckSum (hdr : RteIpv4Hdr) (csum : UInt16) :
    (words (hdr.withCheckSum csum).bytes).sum =
      hdr.wordSum + (csum.toNat % 256 * 256 + csum.toNat / 256) := by
  have hlt := csum.toNat_lt
  have hswap (c : UInt16) : (words (littleEndian 2 c.toNat)).sum =
      c.toNat % 256 * 256 + c.toNat / 256 % 256 := by
    simp [littleEndian, bigEndian, words]
  have hzero : (words (littleEndian 2 (0 : UInt16).toNat)).sum = 0 := rfl
  rw [RteIpv4Hdr.wordSum, words_withCheckSum, words_withCheckSum hdr 0]
  simp only [List.sum_append, hswap csum, hzero]
  omega

/-! ### Its one's-complement sum -/

/-- The complement of the sum, as a number. -/
theorem toNat_complement {csum : Nat} (h : csum ≤ 65535) :
    (~~~ UInt16.ofNat csum).toNat = 65535 - csum := by
  have hlt : csum < 65536 := by omega
  rw [UInt16.toNat_not, UInt16.toNat_ofNat_of_lt' hlt]
  rfl

/-- The sum is all ones when the bytes summed for the checksum, once more in the
wrong order, make up for it. -/
theorem dvd_swapped_iff (hdrSum behind : Nat) :
    let csum := 65535 - endAround 65535 (hdrSum + behind)
    65535 ∣ hdrSum + (csum % 256 * 256 + csum / 256) ↔
      65535 ∣ 255 * hdrSum + 256 * behind := by
  intro csum
  have hle := endAround_le (m := 65535) (by decide) (hdrSum + behind)
  have hmod : endAround 65535 (hdrSum + behind) % 65535 = (hdrSum + behind) % 65535 :=
    endAround_modEq 65535 (hdrSum + behind)
  have hswap : csum % 256 * 256 + csum / 256 + 65535 * (csum / 256) = 256 * csum := by omega
  have hcsum : 65535 ∣ csum + (hdrSum + behind) := by omega
  omega

/-- Headers with the checksums of two sums are the same only for sums of one value. -/
theorem modEq_of_withCheckSum_eq {hdr : RteIpv4Hdr} {s s' : Nat} (hs : 0 < s) (hs' : 0 < s')
    (h : (hdr.withCheckSum (~~~ UInt16.ofNat (endAround 65535 s))).bytes =
      (hdr.withCheckSum (~~~ UInt16.ofNat (endAround 65535 s'))).bytes) : s ≡ s' [MOD 65535] := by
  have hle := endAround_le (m := 65535) (by decide) s
  have hle' := endAround_le (m := 65535) (by decide) s'
  have hsum := congrArg (fun bytes => (words bytes).sum) h
  simp only [sum_words_withCheckSum, toNat_complement hle, toNat_complement hle'] at hsum
  apply (endAround_eq_iff hs hs').mp
  omega

section queued

variable {t : LinkTables D} {lcoreId : Nat} {wkr wkr' : WorkerInfo D.mbuf}
  {localIpAddr remoteIpAddr : PfmIpAddr} {protocol : PfmProtocol}
  {localPortNo remotePortNo : Int} {mbuf frame : D.mbuf.Mbuf}

/-- **The header of a queued frame.**  Its checksum is that of its own words and
of what the headroom held behind them. -/
theorem queued_ipv4Hdr
    (h : pfmDataReq t lcoreId wkr localIpAddr remoteIpAddr protocol localPortNo remotePortNo
      mbuf = .queued frame wkr') :
    let hdr := ipv4HdrOf lcoreId wkr.packetId (RteMbuf.pktLen mbuf) protocol localIpAddr
      remoteIpAddr
    ipv4Hdr frame =
      (hdr.withCheckSum (~~~ UInt16.ofNat
        (endAround 65535 (hdr.wordSum + (words (bytesBehindHdr mbuf)).sum)))).bytes := by
  obtain ⟨smac, dmac, linkId, m, -, -, -, hview, hframe, -⟩ := pfmDataReq_frame h
  intro hdr
  let ether := D.mbuf.store (D.mbuf.store (D.mbuf.store m sAddrOff (List.ofFn smac)) dAddrOff
    (List.ofFn dmac)) etherTypeOff (bigEndian 2 etherTypeIpv4)
  have hether : (D.mbuf.view ether).byte = patch (patch (patch (D.mbuf.view m).byte sAddrOff
      (List.ofFn smac)) dAddrOff (List.ofFn dmac)) etherTypeOff (bigEndian 2 etherTypeIpv4) := by
    simp only [ether, D.mbuf.view_store]
    rfl
  have hbehind : slice (D.mbuf.view ether).byte (etherHdrSize + ipv4HdrSize) 3 =
      bytesBehindHdr mbuf := by
    rw [hether, slice_patch_disjoint (by simp), slice_patch_disjoint (by simp),
      slice_patch_disjoint (by simp), hview]
    apply slice_congr
    intro i _
    simp only [MbufView.prepend]
    congr 1
    omega
  have hcsum : checkSum (D.mbuf.store ether etherHdrSize hdr.bytes) etherHdrSize ipv4HdrSize =
      ~~~ UInt16.ofNat (endAround 65535 (hdr.wordSum + (words (bytesBehindHdr mbuf)).sum)) := by
    have hsplit : slice (D.mbuf.view (D.mbuf.store ether etherHdrSize hdr.bytes)).byte
        (etherHdrSize : Nat) (ipv4HdrSize + 3) = hdr.bytes ++ bytesBehindHdr mbuf := by
      rw [D.mbuf.view_store, MbufView.store, slice_add,
        slice_patch_of_length _ _ hdr.length_bytes, slice_patch_disjoint (by simp), ← hbehind]
    rw [checkSum_eq _ _ (by decide) (by decide), hsplit, words_append (k := 10) (by simp),
      List.sum_append]
    rfl
  rw [RteIpv4Hdr.withCheckSum, ← hcsum, ← slice_fillIpv4Hdr ether hdr, hframe, ipv4Hdr,
    D.mbuf.view_orOlFlags, D.mbuf.view_setPort, D.mbuf.view_store, MbufView.store,
    slice_patch_disjoint (by simp)]

/-- The version and the length of a header are in its first word. -/
theorem wordSum_pos : 0 < (ipv4HdrOf lcoreId wkr.packetId (RteMbuf.pktLen mbuf) protocol localIpAddr
    remoteIpAddr).wordSum := by
  apply Nat.lt_of_lt_of_le (by decide : 0 < 0x45 * 256 + 0)
  exact Nat.le_add_right _ _

/-- When the sum over the header of a queued frame is all ones. -/
theorem sum_ipv4Hdr_iff
    (h : pfmDataReq t lcoreId wkr localIpAddr remoteIpAddr protocol localPortNo remotePortNo
      mbuf = .queued frame wkr') :
    sum 65536 (words (ipv4Hdr frame)) = 0xFFFF ↔
      65535 ∣ 255 * (ipv4HdrOf lcoreId wkr.packetId (RteMbuf.pktLen mbuf) protocol localIpAddr
        remoteIpAddr).wordSum + 256 * (words (bytesBehindHdr mbuf)).sum := by
  let hdr := ipv4HdrOf lcoreId wkr.packetId (RteMbuf.pktLen mbuf) protocol localIpAddr
    remoteIpAddr
  have hpos : 0 < hdr.wordSum := wordSum_pos
  have hle := endAround_le (m := 65535) (by decide)
    (hdr.wordSum + (words (bytesBehindHdr mbuf)).sum)
  rw [sum_eq_endAround (by decide) (words_lt _), queued_ipv4Hdr h, sum_words_withCheckSum,
    toNat_complement hle, endAround_eq_modulus_iff (by decide)
      (Nat.lt_of_lt_of_le hpos (Nat.le_add_right _ _))]
  exact dvd_swapped_iff _ _

/-- The same packet with another byte in the headroom gets another checksum. -/
theorem exists_other_ipv4Hdr
    (h : pfmDataReq t lcoreId wkr localIpAddr remoteIpAddr protocol localPortNo remotePortNo
      mbuf = .queued frame wkr') :
    ∃ mbuf' frame', RteMbuf.packet mbuf' = RteMbuf.packet mbuf ∧
      pfmDataReq t lcoreId wkr localIpAddr remoteIpAddr protocol localPortNo remotePortNo
        mbuf' = .queued frame' (queuePktToTx wkr frame') ∧
      ipv4Hdr frame' ≠ ipv4Hdr frame := by
  obtain ⟨smac, dmac, linkId, m, hsrc, hdst, hroom, -, -, -⟩ := pfmDataReq_frame h
  let f := (D.mbuf.view mbuf).byte
  let mbuf' := D.mbuf.store mbuf (-7) [f (-7) + 1]
  have hview : D.mbuf.view mbuf' = (D.mbuf.view mbuf).store (-7) [f (-7) + 1] :=
    D.mbuf.view_store mbuf (-7) _
  have hpacket : RteMbuf.packet mbuf' = RteMbuf.packet mbuf := by
    rw [RteMbuf.packet, hview, MbufView.packet, MbufView.store, slice_patch_disjoint (by simp)]
    rfl
  have hpktLen : RteMbuf.pktLen mbuf' = RteMbuf.pktLen mbuf := by
    rw [← RteMbuf.length_packet, hpacket, RteMbuf.length_packet]
  have hroom' : udpFrameHdrSize ≤ RteMbuf.headroom mbuf' := by
    rw [RteMbuf.headroom, hview]
    exact hroom
  obtain ⟨frame', csum, hreq, -⟩ := pfmDataReq_carries t lcoreId wkr protocol localPortNo
    remotePortNo hroom' hsrc hdst
  refine ⟨mbuf', frame', hpacket, hreq, ?_⟩
  -- the two sums are 1 or 255 apart
  have hbehind : (words (bytesBehindHdr mbuf)).sum =
      (f (-8)).toNat * 256 + (f (-7)).toNat + (f (-6)).toNat * 256 := by
    simp [bytesBehindHdr, slice, List.range_succ, words, f]
  have hbehind' : (words (bytesBehindHdr mbuf')).sum =
      (f (-8)).toNat * 256 + ((f (-7)).toNat + 1) % 256 + (f (-6)).toNat * 256 := by
    simp [bytesBehindHdr, slice, List.range_succ, words, hview, MbufView.store, patch, f]
  have hhdr := queued_ipv4Hdr h
  have hhdr' := queued_ipv4Hdr hreq
  have hpos : 0 < (ipv4HdrOf lcoreId wkr.packetId (RteMbuf.pktLen mbuf) protocol localIpAddr
      remoteIpAddr).wordSum := wordSum_pos
  have hlt := (f (-7)).toNat_lt
  rw [hpktLen] at hhdr'
  intro heq
  rw [hhdr, hhdr'] at heq
  have hmod := modEq_of_withCheckSum_eq (Nat.add_pos_left hpos _) (Nat.add_pos_left hpos _) heq
  have hbehindMod := Nat.ModEq.add_left_cancel' _ hmod
  rw [hbehind, hbehind'] at hbehindMod
  simp only [Nat.ModEq] at hbehindMod
  omega

/-- What the checksum of a queued frame should be: all words of the header add up
to all ones, and the header is the same for every buffer with that packet in it. -/
structure ChecksumRight (t : LinkTables D) (lcoreId : Nat) (wkr : WorkerInfo D.mbuf)
    (localIpAddr remoteIpAddr : PfmIpAddr) (protocol : PfmProtocol)
    (localPortNo remotePortNo : Int) (mbuf frame : D.mbuf.Mbuf) : Prop where
  allOnes : sum 65536 (words (ipv4Hdr frame)) = 0xFFFF
  own : ∀ mbuf' frame' wkr', RteMbuf.packet mbuf' = RteMbuf.packet mbuf →
    pfmDataReq t lcoreId wkr localIpAddr remoteIpAddr protocol localPortNo remotePortNo mbuf' =
      .queued frame' wkr' → ipv4Hdr frame' = ipv4Hdr frame

/-- **The checksum takes in what is not the header's.**  It is right for no frame
that `pfm_data_req` queues, since it changes with the headroom.  The words add
up to all ones exactly when the two defects, the bytes summed behind the header
and the order the sum is stored in, cancel each other. -/
theorem dataReq_checksum
    (h : pfmDataReq t lcoreId wkr localIpAddr remoteIpAddr protocol localPortNo remotePortNo
      mbuf = .queued frame wkr') :
    ¬ ChecksumRight t lcoreId wkr localIpAddr remoteIpAddr protocol localPortNo remotePortNo
        mbuf frame ∧
      (sum 65536 (words (ipv4Hdr frame)) = 0xFFFF ↔
        65535 ∣ 255 * (ipv4HdrOf lcoreId wkr.packetId (RteMbuf.pktLen mbuf) protocol localIpAddr
          remoteIpAddr).wordSum + 256 * (words (bytesBehindHdr mbuf)).sum) := by
  constructor
  · intro hright
    obtain ⟨mbuf', frame', hpacket, hreq, hne⟩ := exists_other_ipv4Hdr h
    exact hne (hright.own mbuf' frame' _ hpacket hreq)
  · exact sum_ipv4Hdr_iff h

end queued

/-- What `pfm_data_req` queues for `shortMbuf`. -/
theorem shortMbuf_queued : ∃ frame,
    pfmDataReq peerLinks 4 idleWorker cuupIp upfIp .udp 2152 2152 shortMbuf =
      .queued frame (queuePktToTx idleWorker frame) := by
  have hsrc : srcMacAddrGet peerLinks cuupIp = some fun _ => 2 := rfl
  have hdst : dstMacAddrGet peerLinks upfIp = some (fun _ => 0, 0) := rfl
  have hroom : udpFrameHdrSize ≤ RteMbuf.headroom shortMbuf := by decide
  obtain ⟨frame, csum, hreq, -⟩ :=
    pfmDataReq_carries peerLinks 4 idleWorker .udp 2152 2152 hroom hsrc hdst
  exact ⟨frame, hreq⟩

/-- The sum of its header's words is another one. -/
theorem shortMbuf_checksum_wrong : ∃ frame wkr,
    pfmDataReq peerLinks 4 idleWorker cuupIp upfIp .udp 2152 2152 shortMbuf =
      .queued frame wkr ∧ sum 65536 (words (ipv4Hdr frame)) ≠ 0xFFFF := by
  obtain ⟨frame, hreq⟩ := shortMbuf_queued
  refine ⟨frame, _, hreq, ?_⟩
  rw [ne_eq, sum_ipv4Hdr_iff hreq]
  decide

theorem dataReq_checksum_shortMbuf : ∃ frame,
    pfmDataReq peerLinks 4 idleWorker cuupIp upfIp .udp 2152 2152 shortMbuf =
      .queued frame (queuePktToTx idleWorker frame) ∧
    ¬ ChecksumRight peerLinks 4 idleWorker cuupIp upfIp .udp 2152 2152 shortMbuf frame := by
  obtain ⟨frame, hreq⟩ := shortMbuf_queued
  exact ⟨frame, hreq, (dataReq_checksum hreq).1⟩

end Pfm
