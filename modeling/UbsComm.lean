import UbsComm.FlowControl.Ledger
import UbsComm.FlowControl.Sequence
import UbsComm.Ub.PostRxUndo
import UbsComm.Ub.PollBounds
import UbsComm.Ub.BindInfoRoundTrip
import UbsComm.Qbuf.PoolPlaces
import UbsComm.Shm.DataChannel
import UbsComm.Service.RateLimiter
import UbsComm.Service.RailShares
import UbsComm.Shm.QueueSound
import UbsComm.Service.Timer
import UbsComm.Service.AsyncRails
import UbsComm.Service.AsyncSend
import UbsComm.Service.SyncSplit
import UbsComm.Service.Splice
import UbsComm.Service.CtxStoreSound
import UbsComm.Sock.Stream
import UbsComm.Sock.OpContext
import UbsComm.Sock.OneSideRight
import UbsComm.Qbuf.DataToHeadRight
import UbsComm.Memory.PageTableRight
import UbsComm.Service.AssemblyRight
import UbsComm.Urma.BlockCacheRight
import UbsComm.FlowControl.CreditPool
import UbsComm.FlowControl.Init
import UbsComm.FlowControl.Immediate
import UbsComm.FlowControl.PendingService
import UbsComm.FlowControl.RetryListsRight
import UbsComm.Urma.PendingClose
import UbsComm.Urma.Readable
import UbsComm.Urma.Writable
import UbsComm.Qbuf.ThreadCaps
import UbsComm.Ub.JettyLoad
import UbsComm.Ub.QueueRef
import UbsComm.Ub.PollRoundRobin
import UbsComm.Qbuf.Alloc
import UbsComm.Urma.LargeRead
import UbsComm.Service.DelayErase
import UbsComm.Service.EndpointChoice
import UbsComm.Shm.PostedList
import UbsComm.Urma.RemoteSegs
import UbsComm.Urma.RingBuf
import UbsComm.Urma.LocalSegs
