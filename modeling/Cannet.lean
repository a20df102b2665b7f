import Cannet.Foundations.Act
import Cannet.Foundations.Loop
import Cannet.Foundations.Run
import Cannet.Foundations.Threads
import Cannet.Foundations.Ranges
import Cannet.Foundations.Batch
import Cannet.Foundations.Handoff
import Cannet.Foundations.Lives
import Cannet.Foundations.Pool
import Cannet.Foundations.Store
import Cannet.Foundations.Linked
import Cannet.Foundations.Registration
import Cannet.Foundations.Ledger
import Cannet.Foundations.Exchange
import Cannet.Foundations.Monitor
import Cannet.Foundations.Simulation
import Cannet.Foundations.Bytes
import Cannet.Foundations.Split
import Cannet.Foundations.Numeral
import Cannet.Foundations.Filling
import Cannet.Net.Buffer
import Cannet.Net.Buffer.Checked
import Cannet.Net.Buffer.Queue
import Cannet.Net.Buffer.Shrink
import Cannet.Net.Buffer.Codec
import Cannet.Net.Buffer.Lines
import Cannet.Net.Channel
import Cannet.Net.TcpConnection
import Cannet.Net.Connection.Calls
import Cannet.Net.Connection.Lifecycle
import Cannet.Net.Connection.Runs
import Cannet.Net.Connection.Frame
import Cannet.Net.Connection.Delivery
import Cannet.Net.Connection.Stream
import Cannet.Net.Connection.Transfer
import Cannet.Net.Connection.Pending
import Cannet.Net.Connection.Header
import Cannet.Net.Connection.SendBuffer
import Cannet.Net.Connection.Interleave
import Cannet.Net.Connection.Interest
import Cannet.Net.TimerManager
import Cannet.Net.Timer.Calls
import Cannet.Net.Timer.Batch
import Cannet.Net.Timer.Runs
import Cannet.Net.Timer.Arming
import Cannet.Net.Timer.Handles
import Cannet.Net.EventLoop
import Cannet.Net.Loop.Lives
import Cannet.Net.Loop.Notifications
import Cannet.Net.Loop.Requests
import Cannet.Net.Loop.Ownership
import Cannet.Net.Loop.Reuse
import Cannet.Net.Loop.Closed
import Cannet.Net.Loop.Queued
import Cannet.Net.Loop.Inert
import Cannet.Net.Loop.Standing
import Cannet.Net.Loop.Dispatch
import Cannet.Net.Loop.Deregistration
import Cannet.Net.Loop.Places
import Cannet.Net.Loop.Destruction
import Cannet.Net.Loop.Interest
import Cannet.Net.Loop.Cycle
import Cannet.Net.Loop.Events
import Cannet.Net.Loop.Safety
import Cannet.Net.Loop.Addressed
import Cannet.Net.Loop.Streams
import Cannet.Net.Loop.Incoming
import Cannet.Net.Loop.Descriptors
import Cannet.Net.TcpServer
import Cannet.Net.EventLoopThreadPool
import Cannet.Net.Server
import Cannet.Net.Server.Descriptors
import Cannet.Net.Server.Order
import Cannet.Net.Server.Peak
import Cannet.Net.Wakeup
import Cannet.Net.Wakeup.Steps
import Cannet.Net.Wakeup.Queue
import Cannet.Net.Wakeup.Start
import Cannet.Net.EventLoopThread
import Cannet.Net.EventLoopThread.Steps
import Cannet.Net.EventLoopThread.Start
import Cannet.Net.EventLoopThread.Progress
import Cannet.Base.LogStream
import Cannet.Base.LogStream.Convert
import Cannet.Base.LogStream.Insert
import Cannet.Base.Logger
import Cannet.Base.File
import Cannet.Base.AsyncLogger
import Cannet.Base.AsyncLogger.Steps
import Cannet.Base.AsyncLogger.Roles
import Cannet.Base.AsyncLogger.Assertions
import Cannet.Base.AsyncLogger.Order
import Cannet.Base.AsyncLogger.Stop
import Cannet.Base.ThreadSafeQueue
import Cannet.Base.ThreadSafeQueue.Steps
import Cannet.Base.ThreadSafeQueue.Fifo
import Cannet.Base.ThreadSafeQueue.Notify
import Cannet.Base.ThreadSafeQueue.Turns
import Cannet.Base.ThreadPool
import Cannet.Base.ThreadPool.Steps
import Cannet.Base.ThreadPool.Stop
import Cannet.Base.ThreadPool.Tasks
import Cannet.Base.ThreadPool.Rest
import Cannet.Base.Latch
