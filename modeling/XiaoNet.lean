import XiaoNet.Lib.Runs
import XiaoNet.Lib.Int64
import XiaoNet.Lib.Block
import XiaoNet.Lib.Radix
import XiaoNet.Lib.Ledger
import XiaoNet.Lib.GappedChain
import XiaoNet.Lib.History
import XiaoNet.Lib.PriorityQueue
import XiaoNet.Lib.Ends
import XiaoNet.Lib.Mutex
import XiaoNet.Lib.Census
import XiaoNet.Lib.Deal
import XiaoNet.Utils.SizeT
import XiaoNet.Utils.MsgBuffer
import XiaoNet.Utils.MsgBufferSpec
import XiaoNet.Utils.MsgBufferChunk
import XiaoNet.Utils.MsgBufferRuns
import XiaoNet.Utils.MsgBufferCapacity
import XiaoNet.Utils.MsgBufferMemory
import XiaoNet.Utils.MsgBufferRoom
import XiaoNet.Utils.MsgBufferCopy
import XiaoNet.Utils.MsgBufferInts
import XiaoNet.Utils.Utf8
import XiaoNet.Utils.Utf8Malformed
import XiaoNet.Utils.VerifySslName
import XiaoNet.Utils.VerifySslNameSound
import XiaoNet.Utils.TimingWheel
import XiaoNet.Utils.TimingWheelSize
import XiaoNet.Utils.TimingWheelCount
import XiaoNet.Utils.TimingWheelSpec
import XiaoNet.Utils.TimingWheelRuns
import XiaoNet.Utils.ConcurrentTaskQueue
import XiaoNet.Utils.ConcurrentTaskQueueStop
import XiaoNet.Utils.ConcurrentTaskQueueTasks
import XiaoNet.Utils.LockFreeQueue
import XiaoNet.Utils.LockFreeQueueFifo
import XiaoNet.Utils.LockFreeQueueMemory
import XiaoNet.Net.InetAddress
import XiaoNet.Net.InetAddressFamily
import XiaoNet.Net.Channel
import XiaoNet.Net.EpollPoller
import XiaoNet.Net.EpollPollerMirror
import XiaoNet.Net.EpollPollerRemove
import XiaoNet.Net.EpollPollerPoll
import XiaoNet.Net.EventLoop
import XiaoNet.Net.EventLoopWakeup
import XiaoNet.Net.EventLoopFuncs
import XiaoNet.Net.LoopRegistry
import XiaoNet.Utils.SerialTaskQueue
import XiaoNet.Utils.SerialTaskQueueSync
import XiaoNet.Net.EventLoopThread
import XiaoNet.Net.EventLoopThreadShutdown
import XiaoNet.Net.EventLoopThreadPool
import XiaoNet.Net.TimerQueue
import XiaoNet.Net.TimerSafety
import XiaoNet.Net.TimerPunctual
import XiaoNet.Net.TimerAlarm
import XiaoNet.Net.TimerThrow
import XiaoNet.Net.EventLoopTimers
import XiaoNet.Net.TimerCancel
import XiaoNet.Net.ActiveChannels
import XiaoNet.Net.ActiveChannelsLife
import XiaoNet.Net.BufferNode
import XiaoNet.Net.Kickoff
import XiaoNet.Net.TcpConnectionImpl
import XiaoNet.Net.TcpConnectionSpec
import XiaoNet.Net.WriteLoop
import XiaoNet.Net.ConnectionFrame
import XiaoNet.Net.WriteErrors
import XiaoNet.Net.WriteInterest
import XiaoNet.Net.ByteStream
import XiaoNet.Net.KickoffSuspend
import XiaoNet.Net.Shutdown
import XiaoNet.Net.Quiet
import XiaoNet.Net.SendsAlone
import XiaoNet.Net.QueuedSends
import XiaoNet.Net.SendPaths
import XiaoNet.Net.SendFile
import XiaoNet.Net.SocketOutput
import XiaoNet.Net.Peers
import XiaoNet.Net.SendNode
import XiaoNet.Net.StreamBufferNode
import XiaoNet.Net.FileBufferNode
import XiaoNet.Net.FilePaths
import XiaoNet.Net.Connector
import XiaoNet.Net.ConnectorIsolation
import XiaoNet.Net.ConnectorCalls
import XiaoNet.Net.ConnectorBackoff
import XiaoNet.Net.ConnectorSockets
import XiaoNet.Net.ConnectorStopped
import XiaoNet.Net.TcpClient
import XiaoNet.Net.TcpClientReconnect
import XiaoNet.Net.ConnectionLife
import XiaoNet.Net.Acceptor
import XiaoNet.Net.AcceptorFds
import XiaoNet.Net.TcpServer
import XiaoNet.Net.TcpServerLoops
import XiaoNet.Net.TcpServerClose
import XiaoNet.Net.TcpServerStop
import XiaoNet.Net.TcpServerStopPromise
import XiaoNet.Net.TcpServerStopLoops
import XiaoNet.Net.IdleTimeout
import XiaoNet.Net.IdleRefresh
import XiaoNet.Net.IdleKick
