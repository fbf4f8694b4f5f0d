import Fluxon.CacheController.QueueDepth
import Fluxon.FsAgent.RequestIdentity
import Fluxon.LeaseManager.ExactVersion
import Fluxon.LeaseManager.Expiry
import Fluxon.LeaseManager.Survival
import Fluxon.Mq.EndToEnd
import Fluxon.OwnerKey.Guards
import Fluxon.OwnerSegment.CommittedManifest
import Fluxon.OwnerSegment.ErrorFrame
import Fluxon.OwnerSegment.LeaseSession
import Fluxon.OwnerSegment.SourceLease
import Fluxon.PinAwareMoka.Capacity
import Fluxon.Router.ActivityLock
import Fluxon.Router.RouteMaintenance
import Fluxon.S3Gateway.ObjectRange
import Fluxon.S3Gateway.SignedQuery
import Fluxon.Transfer.AckWindow
import Fluxon.TransferJob.Chunks
import Fluxon.TransferJob.LeasePromise
import Fluxon.TransferJob.SkipEntries
import Fluxon.TransferScan.Conservation
import Fluxon.TransferStore.Keys
import Fluxon.UserApi.Contiguity
import Fluxon.UserApi.RoundTrip
import Fluxon.Util.AutoCleanMap
import Fluxon.Util.IdAllocator
import Fluxon.Util.MergeRecent
