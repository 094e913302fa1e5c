import Pfm.PacketHeaders

/-!
# The ingress classifier

`packet_classify` of `pfm_classifier.c`.  The fields are read at fixed offsets
from the start of the buffer, without a look at the length of the packet or of
its IP header.
-/

namespace Pfm

open ByteBuffer

/-- `kni_mapping_t` with an `rte_kni` pointer of type `Kni`. -/
structure KniMapping (Kni : Type) where
  kniPtr : Kni
  localIpAddr : PfmIpAddr
  portNo : Int

/-- `ingress_classifier_t`: the first `kni_count` entries of `kni_map`. -/
structure IngressClassifier (Kni : Type) where
  kniMap : List (KniMapping Kni)
  kniCount_le : kniMap.length ≤ maxKniPorts

/-- The packet types `PKT_CLASS_GTP`, `PKT_CLASS_OTHERS`, `PKT_CLASS_BROADCAST`
and `PKT_CLASS_UNKNOWN`. -/
inductive PktClass where
  | gtp
  | others
  | broadcast
  | unknown
  deriving DecidableEq

variable {M : RteMbuf} {Kni : Type}

/-- `pfm_str2ip("255.255.255.255")`. -/
abbrev bcastIpAddr : PfmIpAddr := 0xFFFFFFFF

/-- The first entry with an address. -/
def IngressClassifier.kniOf (ic : IngressClassifier Kni) (ip : PfmIpAddr) :
    Option (KniMapping Kni) :=
  ic.kniMap.find? fun kni => kni.localIpAddr = ip

def packetClassify (ic : IngressClassifier Kni) (mbuf : M.Mbuf) : PktClass × Option Kni :=
  let tmp0 := RteMbuf.byte mbuf etherTypeOff
  let tmp1 := RteMbuf.byte mbuf (etherTypeOff + 1)
  let dstIpAddr := RteMbuf.ntohl mbuf (etherHdrSize + dstAddrOff)
  -- ARP
  if 0x08 = tmp0 ∧ 0x06 = tmp1 then (.broadcast, none)
  -- anything else but IPv4
  else if ¬(0x08 = tmp0 ∧ 0x00 = tmp1) then (.broadcast, none)
  else if dstIpAddr = bcastIpAddr then (.broadcast, none)
  else match ic.kniOf dstIpAddr with
    | none => (.unknown, none)
    | some kni =>
        if 17 ≠ RteMbuf.byte mbuf (etherHdrSize + nextProtoIdOff) then
          (.others, some kni.kniPtr)
        else if (RteMbuf.ntohs mbuf (etherHdrSize + ipv4HdrSize + dstPortOff)).toNat
            = kni.portNo then
          (.gtp, some kni.kniPtr)
        else (.others, some kni.kniPtr)

/-- A packet is GTP when it is IPv4 over UDP to the address of an interface and
the port that interface has for GTP. -/
theorem packetClassify_gtp_iff {ic : IngressClassifier Kni} {mbuf : M.Mbuf} :
    (packetClassify ic mbuf).1 = .gtp ↔
      RteMbuf.byte mbuf etherTypeOff = 0x08 ∧ RteMbuf.byte mbuf (etherTypeOff + 1) = 0x00 ∧
      RteMbuf.ntohl mbuf (etherHdrSize + dstAddrOff) ≠ bcastIpAddr ∧
      RteMbuf.byte mbuf (etherHdrSize + nextProtoIdOff) = 17 ∧
      ∃ kni, ic.kniOf (RteMbuf.ntohl mbuf (etherHdrSize + dstAddrOff)) = some kni ∧
        kni.portNo =
          (RteMbuf.ntohs mbuf (etherHdrSize + ipv4HdrSize + dstPortOff)).toNat := by
  unfold packetClassify
  dsimp only
  split
  · rename_i harp
    apply iff_of_false nofun
    intro h
    have h6 := harp.2
    rw [h.2.1] at h6
    cases h6
  split
  · rename_i htype
    apply iff_of_false nofun
    intro h
    exact htype ⟨h.1.symm, h.2.1.symm⟩
  rename_i htype
  obtain ⟨h8, h0⟩ := not_not.mp htype
  split
  · rename_i hbcast
    apply iff_of_false nofun
    intro h
    exact h.2.2.1 hbcast
  rename_i hbcast
  cases hkni : ic.kniOf (RteMbuf.ntohl mbuf (etherHdrSize + dstAddrOff)) with
  | none =>
      apply iff_of_false nofun
      intro h
      obtain ⟨kni, h, _⟩ := h.2.2.2.2
      cases h
  | some kni =>
      dsimp only
      split
      · rename_i hproto
        apply iff_of_false nofun
        intro h
        exact hproto h.2.2.2.1.symm
      rename_i hproto
      split
      · rename_i hport
        exact iff_of_true rfl
          ⟨h8.symm, h0.symm, hbcast, (not_not.mp hproto).symm, kni, rfl, hport.symm⟩
      · rename_i hport
        apply iff_of_false nofun
        intro h
        obtain ⟨kni', hkni', h⟩ := h.2.2.2.2
        obtain rfl : kni = kni' := Option.some.inj hkni'
        exact hport h.symm

end Pfm
