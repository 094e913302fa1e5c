import Pfm.StepSystem
import Pfm.CircularScan
import Pfm.CircularQueue
import Pfm.BoundedLoop
import Pfm.CString
import Pfm.ServeInOrder
import Pfm.RoundRobin
import Pfm.RteHash
import Pfm.RteHashList
import Pfm.ByteBuffer
import Pfm.OnesComplement
import Pfm.LongestPrefix
import Pfm.RteLpm
import Pfm.RteMbuf
import Pfm.Comm
import Pfm.NextHop
import Pfm.Route
import Pfm.RouteHistory
import Pfm.Tunnel
import Pfm.TunnelSpec
import Pfm.TunnelSharing
import Pfm.TunnelTransactions
import Pfm.UeCtx
import Pfm.E1ap
import Pfm.Bearer
import Pfm.BearerContext
import Pfm.UeCtxSpec
import Pfm.LookupAgreement
import Pfm.LazyInit
import Pfm.BearerSpec
import Pfm.SetupWork
import Pfm.BearerContextSpec
import Pfm.SetupAdvertised
import Pfm.SessionRefusal
import Pfm.UeCtxInvariant
import Pfm.TableInvariant
import Pfm.UeRows
import Pfm.UeIdentity
import Pfm.SetupTrace
import Pfm.Ownership
import Pfm.ModifySessions
import Pfm.ReleaseComplete
import Pfm.PacketHeaders
import Pfm.Kni
import Pfm.Arp
import Pfm.ArpHistory
import Pfm.Classifier
import Pfm.ClassifierAdd
import Pfm.Ingress
import Pfm.IngressDelivery
import Pfm.WorkerLoop
import Pfm.FrameAgreement
import Pfm.HeaderChecksum
import Pfm.LearnedLink
import Pfm.TxPipeline
import Pfm.TxConservation
import Pfm.Gtp
import Pfm.GtpHeader
import Pfm.GtpPath
import Pfm.GtpPathCount
import Pfm.GtpSupervision
import Pfm.EchoExchange
import Pfm.PdusTrace
import Pfm.AllocatorCompleteness
import Pfm.ListCompaction
import Pfm.ListPacking
import Pfm.DrbRemoval
import Pfm.DrbIdentity
import Pfm.DrbAccounting
import Pfm.SessionAccounting
import Pfm.RelatedRuns
import Pfm.RowResidue
import Pfm.BearerResidue
import Pfm.ContextResidue
import Pfm.ProcedureResidue
import Pfm.FlowResidue
import Pfm.NoResidue
import Pfm.Modification
import Pfm.ModificationUndone
import Pfm.ModificationLeak
import Pfm.ModificationRollback
import Pfm.Sdap
import Pfm.SdapBounds
import Pfm.PacketDisposal
import Pfm.FrameClass
import Pfm.RouteDepth
import Pfm.Link
import Pfm.LinkOpen
import Pfm.LinkRead
import Pfm.KniConfig
import Pfm.KniRead
import Pfm.Cli
import Pfm.CliBounds
import Pfm.TxGrouping
import Pfm.TxQueue
import Pfm.FieldLayout
import Pfm.ArpFrame
import Pfm.LossyNetwork
import Pfm.ArpProtocol
import Pfm.LinkState
import Pfm.LinkDevices
import Pfm.GtpPaths
import Pfm.DataPlane
import Pfm.DataPlaneNet
import Pfm.LoopOrder
import Pfm.TxOrder
import Pfm.CliMeaning
import Pfm.CuupMain
