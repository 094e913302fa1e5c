import Pfm.PacketHeaders

/-!
# Kernel network interfaces

`kni_info_list_g` of `pfm_kni.c` as the packet path reads it: an address is
local when an interface has it, and the first such interface gives the MAC
address.
-/

namespace Pfm

/-- `kni_info_t`, what is read of it for a packet. -/
structure KniInfo where
  ipAddr : PfmIpAddr
  macAddr : MacAddr
  linkId : Int

/-- The first `kni_count_g` entries of `kni_info_list_g`; `kni_open` refuses
more than the array holds. -/
structure KniTable where
  kniInfoList : List KniInfo
  kniCount_le : kniInfoList.length ≤ maxKniPorts

/-- A call of `pfm_kni_tx_arp`. -/
structure KniTxArp where
  linkId : Int
  senderIpAddr : PfmIpAddr
  targetIpAddr : PfmIpAddr
  targetMacAddr : MacAddr

def kniIpv4MacAddrGet (t : KniTable) (ip : PfmIpAddr) : Option MacAddr :=
  (t.kniInfoList.find? fun kni => kni.ipAddr = ip).map KniInfo.macAddr

/-- The calls it makes, in order. -/
def pfmKniBroadcastArp (t : KniTable) (targetIpAddr : PfmIpAddr) (targetMacAddr : MacAddr) :
    List KniTxArp :=
  t.kniInfoList.map fun kni => ⟨kni.linkId, kni.ipAddr, targetIpAddr, targetMacAddr⟩

end Pfm
