import Pfm.BoundedLoop
import Pfm.RteHashList
import Pfm.RteLpm
import Pfm.RteMbuf

/-!
# Common definitions

Sizes, return values and addresses used by every part of the CU-UP
(`pfm.h`, `pfm_comm.h`, `cuup.h`), the index types of its tables, and the
third-party libraries it is built on.

Pointers into a static table are indices of that table.  The program is the
one built without `TRACE`; log messages are not part of the model, but for
those that are passed a number for a string.
-/

namespace Pfm

/-- `pfm_ip_addr_t`, in host order. -/
abbrev PfmIpAddr := UInt32

/-- `pfm_retval_t`. -/
inductive PfmRetval where
  | success
  | failed
  | notFound
  deriving DecidableEq

/-- `pfm_protocol_t`. -/
inductive PfmProtocol where
  | udp
  deriving DecidableEq

/-- The protocol's number in an IP header. -/
def PfmProtocol.number : PfmProtocol → UInt8
  | udp => 17

/-- `ops_state_t`. -/
inductive OpsState where
  | notConfigured
  | enabled
  | disabled
  | faulty
  deriving DecidableEq

abbrev maxUeCount : Nat := 1000
abbrev maxPdusPerUe : Nat := 4
abbrev maxDrbPerPdus : Nat := 4
abbrev maxFlowsPerPdus : Nat := 4
abbrev maxDrbPerUe : Nat := maxDrbPerPdus
abbrev maxTunnelCount : Nat := maxUeCount * maxPdusPerUe * maxDrbPerUe

abbrev macAddrSize : Nat := 6
abbrev maxKniPorts : Nat := 5
abbrev maxLinkCount : Nat := 5
abbrev maxDuCount : Nat := 20
abbrev maxUpfCount : Nat := 20
abbrev maxGtpPath : Nat := maxDuCount + maxUpfCount
abbrev txQueueSize : Nat := 32
abbrev pfmArpTableEntries : Nat := 32
abbrev pfmRouteLpmMaxEntries : Nat := 32

/-- A pointer into `tunnel_table_g`. -/
abbrev TunnelIdx := Fin maxTunnelCount

/-- A pointer into `ue_ctx_table_g`. -/
abbrev UeIdx := Fin maxUeCount

/-- `tunnel_key_t`. -/
structure TunnelKey where
  ipAddr : PfmIpAddr
  teId : UInt32
  deriving DecidableEq

/-- The libraries the repository is linked with. -/
structure Dpdk where
  tunnelHash : RteHash TunnelKey TunnelIdx maxTunnelCount
  ueHash : RteHash UInt32 UeIdx maxUeCount
  arpHash : RteHash PfmIpAddr Unit pfmArpTableEntries
  gtpHash : RteHash PfmIpAddr Unit maxGtpPath
  lpm : RteLpm pfmRouteLpmMaxEntries
  mbuf : RteMbuf

/-- List-backed tables, and an LPM that keeps every rule. -/
def listDpdk : Dpdk where
  tunnelHash := listHash TunnelKey TunnelIdx maxTunnelCount
  ueHash := listHash UInt32 UeIdx maxUeCount
  arpHash := listHash PfmIpAddr Unit pfmArpTableEntries
  gtpHash := listHash PfmIpAddr Unit maxGtpPath
  lpm := ruleLpm pfmRouteLpmMaxEntries
  mbuf := viewMbuf

end Pfm
