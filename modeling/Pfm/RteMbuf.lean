import Pfm.ByteBuffer

/-!
# The packet-buffer library

Packets are DPDK's `rte_mbuf`, whose code is not part of the repository.
`RteMbuf` is what the repository relies on.  An mbuf shows as an `MbufView`: the
buffer of its first segment, with the packet somewhere in the middle of it, and
the bytes of the segments chained to it.

* `rte_pktmbuf_prepend` moves the start of the packet down into the headroom,
  and `rte_pktmbuf_adj` up into the first segment; each answers NULL when there
  is not that much.  Neither touches a byte, so the bytes of a new header are
  first what happened to be in the headroom;
* a store changes the bytes it is aimed at and nothing else;
* no buffer lies in the first page of the address space, which is never mapped.

How mbufs are allocated, pooled and counted is left to the implementation.
-/

namespace Pfm

open ByteBuffer

/-- The part of an address space that is never mapped. -/
abbrev pageSize : Nat := 4096

/-- What a program sees of an mbuf.  Offsets count from the start of the packet,
so the buffer goes from `-headroom` to `dataLen + tailroom`. -/
structure MbufView where
  /-- the address `rte_pktmbuf_mtod` returns -/
  mtod : Nat
  headroom : Nat
  /-- `data_len`: the bytes of the packet in the first segment -/
  dataLen : Nat
  tailroom : Nat
  /-- the bytes of the buffer -/
  byte : Int → UInt8
  /-- the bytes of the packet in the further segments -/
  chained : List UInt8
  port : UInt16
  olFlags : UInt64

namespace MbufView

/-- The bytes of the packet. -/
def packet (v : MbufView) : List UInt8 := slice v.byte 0 v.dataLen ++ v.chained

/-- `pkt_len`. -/
def pktLen (v : MbufView) : Nat := v.dataLen + v.chained.length

/-- The packet starts `n` bytes earlier. -/
def prepend (v : MbufView) (n : Nat) : MbufView :=
  { v with
    mtod := v.mtod - n
    headroom := v.headroom - n
    dataLen := v.dataLen + n
    byte := fun i => v.byte (i - n) }

/-- The packet starts `n` bytes later. -/
def adj (v : MbufView) (n : Nat) : MbufView :=
  { v with
    mtod := v.mtod + n
    headroom := v.headroom + n
    dataLen := v.dataLen - n
    byte := fun i => v.byte (i + n) }

/-- Store `bs` at offset `off`. -/
def store (v : MbufView) (off : Int) (bs : List UInt8) : MbufView :=
  { v with byte := patch v.byte off bs }

theorem length_packet (v : MbufView) : v.packet.length = v.pktLen := by
  rw [packet, List.length_append, length_slice, pktLen]

/-- A field that lies in the first segment is part of the packet. -/
theorem slice_byte (v : MbufView) {off n : Nat} (h : off + n ≤ v.dataLen) :
    slice v.byte off n = (v.packet.drop off).take n := by
  have hpart := slice_part v.byte 0 h
  rw [Int.zero_add] at hpart
  rw [hpart, packet, List.drop_append_of_le_length (by rw [length_slice]; omega),
    List.take_append_of_le_length (by rw [List.length_drop, length_slice]; omega)]

/-- The bytes of the packet between two others. -/
theorem slice_of_packet {v : MbufView} {pre field post : List UInt8} {off n : Nat}
    (h : v.packet = pre ++ field ++ post) (hpre : pre.length = off) (hfield : field.length = n)
    (hlen : off + n ≤ v.dataLen) : slice v.byte off n = field := by
  rw [v.slice_byte hlen, h, List.append_assoc, List.drop_left' hpre, List.take_left' hfield]

theorem packet_adj (v : MbufView) {n : Nat} (h : n ≤ v.dataLen) :
    (v.adj n).packet = v.packet.drop n := by
  have hsplit := slice_add v.byte 0 n (v.dataLen - n)
  rw [Nat.add_sub_cancel' h, Int.zero_add] at hsplit
  have hshift : slice (v.adj n).byte 0 (v.dataLen - n) = slice v.byte n (v.dataLen - n) := by
    apply slice_congr
    intro i _
    simp only [adj]
    congr 1
    omega
  change slice (v.adj n).byte 0 (v.dataLen - n) ++ v.chained = _
  rw [hshift, packet, hsplit, List.append_assoc, List.drop_append_of_le_length (by simp),
    List.drop_of_length_le (by simp), List.nil_append]

/-- The old packet behind the place for a new header. -/
theorem slice_prepend (v : MbufView) (n k : Nat) :
    slice (v.prepend n).byte n k = slice v.byte 0 k := by
  apply slice_congr
  intro i _
  simp only [prepend]
  congr 1
  omega

/-- Where a header was put in front of it, the old packet follows it. -/
theorem packet_of_header {v w : MbufView} {n : Nat} (hlen : w.dataLen = v.dataLen + n)
    (hchain : w.chained = v.chained)
    (hrest : slice w.byte n v.dataLen = slice v.byte 0 v.dataLen) :
    w.packet = slice w.byte 0 n ++ v.packet := by
  rw [packet, hlen, Nat.add_comm, slice_add, Int.zero_add, hrest, hchain, List.append_assoc, packet]

end MbufView

/-- An implementation of the packet buffers. -/
structure RteMbuf where
  Mbuf : Type
  view : Mbuf → MbufView
  /-- `rte_pktmbuf_prepend`, `none` for NULL -/
  prepend : Mbuf → Nat → Option Mbuf
  /-- `rte_pktmbuf_adj`, `none` for NULL -/
  adj : Mbuf → Nat → Option Mbuf
  /-- store bytes at an offset from `rte_pktmbuf_mtod` -/
  store : Mbuf → Int → List UInt8 → Mbuf
  /-- `mbuf->port = port` -/
  setPort : Mbuf → UInt16 → Mbuf
  /-- `mbuf->ol_flags |= flags` -/
  orOlFlags : Mbuf → UInt64 → Mbuf
  /-- `PKT_TX_IPV4` -/
  pktTxIpv4 : UInt64
  /-- `PKT_TX_IP_CKSUM` -/
  pktTxIpCksum : UInt64
  mtod_mapped : ∀ m, pageSize + (view m).headroom ≤ (view m).mtod
  prepend_none : ∀ m n, (view m).headroom < n → prepend m n = none
  prepend_some : ∀ m n, n ≤ (view m).headroom →
    ∃ m', prepend m n = some m' ∧ view m' = (view m).prepend n
  adj_none : ∀ m n, (view m).dataLen < n → adj m n = none
  adj_some : ∀ m n, n ≤ (view m).dataLen →
    ∃ m', adj m n = some m' ∧ view m' = (view m).adj n
  view_store : ∀ m off bs, view (store m off bs) = (view m).store off bs
  view_setPort : ∀ m p, view (setPort m p) = { view m with port := p }
  view_orOlFlags : ∀ m f, view (orOlFlags m f) = { view m with olFlags := (view m).olFlags ||| f }

namespace RteMbuf

variable {M : RteMbuf}

/-- The bytes of the packet. -/
def packet (m : M.Mbuf) : List UInt8 := (M.view m).packet

/-- `mbuf->pkt_len`. -/
def pktLen (m : M.Mbuf) : Nat := (M.view m).pktLen

/-- `mbuf->data_len`. -/
def dataLen (m : M.Mbuf) : Nat := (M.view m).dataLen

/-- `rte_pktmbuf_headroom`. -/
def headroom (m : M.Mbuf) : Nat := (M.view m).headroom

/-- `mbuf->port`. -/
def port (m : M.Mbuf) : UInt16 := (M.view m).port

/-- The byte at an offset from `rte_pktmbuf_mtod`. -/
def byte (m : M.Mbuf) (off : Nat) : UInt8 := (M.view m).byte off

/-- `ntohs` of the two bytes at an offset. -/
def ntohs (m : M.Mbuf) (off : Nat) : UInt16 :=
  UInt16.ofNat (ofBigEndian (slice (M.view m).byte off 2))

/-- `ntohl` of the four bytes at an offset. -/
def ntohl (m : M.Mbuf) (off : Nat) : UInt32 :=
  UInt32.ofNat (ofBigEndian (slice (M.view m).byte off 4))

/-- A store to an address, `none` for a fault.  An address is one of the mbuf's
buffer, or one of the first page, where every store faults. -/
def storeAt (m : M.Mbuf) (addr : Nat) (bs : List UInt8) : Option M.Mbuf :=
  let off : Int := addr - (M.view m).mtod
  if -(M.view m).headroom ≤ off ∧ off + bs.length ≤ (M.view m).dataLen + (M.view m).tailroom then
    some (M.store m off bs)
  else none

theorem length_packet (m : M.Mbuf) : (packet m).length = pktLen m :=
  (M.view m).length_packet

/-- A store to the first page of the address space faults. -/
theorem storeAt_of_lt_pageSize {m : M.Mbuf} {addr : Nat} (bs : List UInt8)
    (h : addr < pageSize) : storeAt m addr bs = none := by
  have hmapped := M.mtod_mapped m
  rw [storeAt, if_neg (by omega)]

section fields

variable {m : M.Mbuf} {off : Nat}

theorem byte_of_slice {b : UInt8} (h : slice (M.view m).byte off 1 = [b]) : byte m off = b := by
  rw [slice_one] at h
  exact List.head_eq_of_cons_eq h

/-- A field that was filled in with `htons`. -/
theorem ntohs_of_slice {x : UInt16}
    (h : slice (M.view m).byte off 2 = bigEndian 2 x.toNat) : ntohs m off = x := by
  rw [ntohs, h, ofBigEndian_bigEndian_of_lt x.toNat_lt, UInt16.ofNat_toNat]

/-- A field that was filled in with `htonl`. -/
theorem ntohl_of_slice {x : UInt32}
    (h : slice (M.view m).byte off 4 = bigEndian 4 x.toNat) : ntohl m off = x := by
  rw [ntohl, h, ofBigEndian_bigEndian_of_lt x.toNat_lt, UInt32.ofNat_toNat]

end fields

/-- After `rte_pktmbuf_adj` the packet is what followed the bytes removed. -/
theorem adj_packet {m : M.Mbuf} {n : Nat} (h : n ≤ dataLen m) :
    ∃ m', M.adj m n = some m' ∧ packet m' = (packet m).drop n := by
  obtain ⟨m', hadj, hview⟩ := M.adj_some m n h
  exact ⟨m', hadj, by rw [packet, hview, (M.view m).packet_adj h]; rfl⟩

end RteMbuf

/-- Packet buffers that are their views. -/
def viewMbuf : RteMbuf where
  Mbuf := { v : MbufView // pageSize + v.headroom ≤ v.mtod }
  view := Subtype.val
  prepend v n :=
    if h : n ≤ v.val.headroom then
      some ⟨v.val.prepend n, by
        have := v.property
        simp only [MbufView.prepend]
        omega⟩
    else none
  adj v n :=
    if n ≤ v.val.dataLen then
      some ⟨v.val.adj n, by
        have := v.property
        simp only [MbufView.adj]
        omega⟩
    else none
  store v off bs := ⟨v.val.store off bs, v.property⟩
  setPort v p := ⟨{ v.val with port := p }, v.property⟩
  orOlFlags v f := ⟨{ v.val with olFlags := v.val.olFlags ||| f }, v.property⟩
  pktTxIpv4 := 0x80000000000000
  pktTxIpCksum := 0x40000000000000
  mtod_mapped v := v.property
  prepend_none v n h := by rw [dif_neg (by omega)]
  prepend_some v n h := by rw [dif_pos h]; exact ⟨_, rfl, rfl⟩
  adj_none v n h := by rw [if_neg (by omega)]
  adj_some v n h := by rw [if_pos h]; exact ⟨_, rfl, rfl⟩
  view_store _ _ _ := rfl
  view_setPort _ _ := rfl
  view_orOlFlags _ _ := rfl

end Pfm
