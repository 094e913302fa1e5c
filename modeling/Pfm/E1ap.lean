import Pfm.BoundedLoop
import Pfm.Comm

/-!
# E1AP messages

The requests and responses of the bearer-context procedures (`e1ap_comm.h`,
`e1ap_bearer_setup.h`, `e1ap_bearer_modify.h`, `e1ap_bearer_release.h`).  Every
list is an array with a count beside it, and the elements past the count are
whatever the caller left there.
-/

namespace Pfm

open BoundedLoop

/-- The values of `e1ap_fail_cause_t` that the procedures give; `none` is the 0
of a success. -/
inductive E1apFailCause where
  | none
  | rnlUnspecified
  | rnlUnknownCuupId
  | rnlUnknownCuIdPair
  | rnlMultiplePdusId
  | rnlUnknownPdusId
  | rnlMultipleDrbId
  | rnlUnknownDrbId
  | rnlResourceUnavail
  deriving DecidableEq

/-- `drb_setup_req_info_t`. -/
structure DrbSetupReqInfo where
  drbId : UInt8
  drbDlIpAddr : PfmIpAddr
  drbDlTeid : UInt32

/-- `pdus_setup_req_info_t`. -/
structure PdusSetupReqInfo where
  pdusId : UInt8
  drbCount : Nat
  pdusUlIpAddr : PfmIpAddr
  pdusUlTeid : UInt32
  drbList : CArray maxDrbPerPdus DrbSetupReqInfo

/-- `drb_setup_succ_rsp_info_t`. -/
structure DrbSetupSuccRspInfo where
  drbId : UInt8
  drbUlIpAddr : PfmIpAddr
  drbUlTeid : UInt32

/-- `drb_setup_fail_rsp_info_t`. -/
structure DrbSetupFailRspInfo where
  drbId : UInt8
  cause : E1apFailCause

/-- `pdus_setup_succ_rsp_info_t`. -/
structure PdusSetupSuccRspInfo where
  pdusId : UInt8
  drbSetupSuccCount : Nat
  drbSetupFailCount : Nat
  pdusDlIpAddr : PfmIpAddr
  pdusDlTeid : UInt32
  drbSuccList : CArray maxDrbPerPdus DrbSetupSuccRspInfo
  drbFailList : CArray maxDrbPerPdus DrbSetupFailRspInfo

/-- `pdus_setup_fail_rsp_info_t`, which is also `pdus_modify_fail_rsp_info_t`. -/
structure PdusSetupFailRspInfo where
  pdusId : UInt8
  cause : E1apFailCause

/-- `e1ap_bearer_ctx_setup_req_t`. -/
structure E1apBearerCtxSetupReq where
  cucpUeId : UInt32
  pdusCount : Nat
  pdusList : CArray maxPdusPerUe PdusSetupReqInfo

/-- `e1ap_bearer_ctx_setup_rsp_t`. -/
structure E1apBearerCtxSetupRsp where
  cucpUeId : UInt32
  cuupUeId : UInt32
  cause : E1apFailCause
  pdusSetupSuccCount : Nat
  pdusSetupFailCount : Nat
  pdusSuccList : CArray maxPdusPerUe PdusSetupSuccRspInfo
  pdusFailList : CArray maxPdusPerUe PdusSetupFailRspInfo

/-- `drb_modify_req_info_t`. -/
structure DrbModifyReqInfo where
  drbId : UInt8

/-- `drb_remove_req_info_t`. -/
structure DrbRemoveReqInfo where
  drbId : UInt8

/-- `pdus_modify_req_info_t`. -/
structure PdusModifyReqInfo where
  pdusId : UInt8
  drbSetupCount : Nat
  drbModifyCount : Nat
  drbRemoveCount : Nat
  drbSetupList : CArray maxDrbPerPdus DrbSetupReqInfo
  drbModifyList : CArray maxDrbPerPdus DrbModifyReqInfo
  drbRemoveList : CArray maxDrbPerPdus DrbRemoveReqInfo

/-- `pdus_remove_req_info_t` without the cause, which is not read. -/
structure PdusRemoveReqInfo where
  pdusId : UInt8

/-- `pdus_modify_succ_rsp_info_t`. -/
structure PdusModifySuccRspInfo where
  pdusId : UInt8
  drbSetupSuccCount : Nat
  drbSetupFailCount : Nat
  drbModifySuccCount : Nat
  drbModifyFailCount : Nat
  pdusDlIpAddr : PfmIpAddr
  pdusDlTeid : UInt32
  drbSetupSuccList : CArray maxDrbPerPdus DrbSetupSuccRspInfo
  drbSetupFailList : CArray maxDrbPerPdus DrbSetupFailRspInfo
  drbModifySuccList : CArray maxDrbPerPdus DrbSetupSuccRspInfo
  drbModifyFailList : CArray maxDrbPerPdus DrbSetupFailRspInfo

/-- `e1ap_bearer_ctx_modify_req_t`. -/
structure E1apBearerCtxModifyReq where
  cucpUeId : UInt32
  cuupUeId : UInt32
  pdusSetupCount : Nat
  pdusModifyCount : Nat
  pdusRemoveCount : Nat
  pdusSetupList : CArray maxPdusPerUe PdusSetupReqInfo
  pdusModifyList : CArray maxPdusPerUe PdusModifyReqInfo
  pdusRemoveList : CArray maxPdusPerUe PdusRemoveReqInfo

/-- `e1ap_bearer_ctx_modify_rsp_t`. -/
structure E1apBearerCtxModifyRsp where
  cucpUeId : UInt32
  cuupUeId : UInt32
  cause : E1apFailCause
  pdusSetupSuccCount : Nat
  pdusSetupFailCount : Nat
  pdusModifySuccCount : Nat
  pdusModifyFailCount : Nat
  pdusSetupSuccList : CArray maxPdusPerUe PdusSetupSuccRspInfo
  pdusSetupFailList : CArray maxPdusPerUe PdusSetupFailRspInfo
  pdusModifySuccList : CArray maxPdusPerUe PdusModifySuccRspInfo
  pdusModifyFailList : CArray maxPdusPerUe PdusSetupFailRspInfo

/-- `e1ap_bearer_ctx_release_cmd_t`. -/
structure E1apBearerCtxReleaseCmd where
  cuupUeId : UInt32

end Pfm
