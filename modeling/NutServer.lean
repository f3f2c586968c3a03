import NutServer.Library.Machine
import NutServer.Library.Loop
import NutServer.Library.Cells
import NutServer.Library.Search
import NutServer.Library.Lines
import NutServer.Library.Trim
import NutServer.Library.SortedSet
import NutServer.Library.Peak
import NutServer.Library.Dense
import NutServer.Library.Monitor
import NutServer.Library.Simulation
import NutServer.Library.Progress
import NutServer.Base.Outcome
import NutServer.Base.Timestamp
import NutServer.Base.Numeral
import NutServer.Base.FixedBuffer
import NutServer.Base.AsyncLogging
import NutServer.Base.AsyncLoggingProperties
import NutServer.Base.AsyncLoggingStop
import NutServer.Base.LogStream
import NutServer.Base.LogStreamProperties
import NutServer.Base.LogStreamLimits
import NutServer.Base.PrintedText
import NutServer.Base.Logging
import NutServer.Base.Fileutil
import NutServer.Base.LogFile
import NutServer.Base.AsyncLoggingFile
import NutServer.Base.CountDownLatch
import NutServer.Base.Thread
import NutServer.Base.LoggingStart
import NutServer.Base.LoggingStartProperties
import NutServer.Net.Buffer
import NutServer.Net.BufferProperties
import NutServer.Net.ByteQueue
import NutServer.Net.BufferSize
import NutServer.Net.Channel
import NutServer.Net.Epoller
import NutServer.Net.EpollerProperties
import NutServer.Net.EpollerPoll
import NutServer.Net.Poller
import NutServer.Net.PollerProperties
import NutServer.Net.PollerRemoval
import NutServer.Net.PollerRemovalProperties
import NutServer.Net.PollerActiveChannels
import NutServer.Net.HttpData
import NutServer.Net.HttpRequestLineProperties
import NutServer.Net.HttpRequestHeadersProperties
import NutServer.Net.HttpRequestHeadersSafety
import NutServer.Net.HttpRequestProperties
import NutServer.Net.HttpRequestBounds
import NutServer.Net.RequestText
import NutServer.Net.HttpRequestCuts
import NutServer.Net.HttpRequestHeadersText
import NutServer.Net.HttpRequestLineText
import NutServer.Net.TcpConnection
import NutServer.Net.TcpConnectionProperties
import NutServer.Net.TcpConnectionOutput
import NutServer.Net.TcpConnectionShutdown
import NutServer.Net.TcpConnectionCalls
import NutServer.Net.TcpConnectionOperations
import NutServer.Net.HttpServer
import NutServer.Net.HttpServerProperties
import NutServer.Net.HttpServerHalfClose
import NutServer.Net.HttpServerPipeline
import NutServer.Net.HttpResponseText
import NutServer.Net.HttpServerWire
import NutServer.Net.HttpServerPieces
import NutServer.Net.HttpServerAnnouncement
import NutServer.Net.EventLoop
import NutServer.Net.EventLoopProperties
import NutServer.Net.EventLoopWaiting
import NutServer.Net.TcpServer
import NutServer.Net.TcpServerProperties
import NutServer.Net.TcpServerEffects
import NutServer.Net.TcpServerForgotten
import NutServer.Net.TcpServerConnections
import NutServer.Net.TcpServerFaults
import NutServer.Net.TcpServerAccounts
import NutServer.Net.TcpServerClosing
import NutServer.Net.TcpServerAccounting
import NutServer.Net.ConnectionNames
import NutServer.Net.Registration
import NutServer.Net.Backends
import NutServer.Net.HttpProgram
import NutServer.Net.HttpProgramProperties
import NutServer.Net.HttpProgramRuns
import NutServer.Net.EventLoopThread
import NutServer.Net.EventLoopThreadProperties
import NutServer.Net.EventLoopThreadPool
import NutServer.Net.TcpServerThreads
import NutServer.Net.TimerQueue
import NutServer.Net.TimerQueueProperties
import NutServer.Net.TimerQueueConservation
import NutServer.Net.TimerQueueRate
import NutServer.Net.TimerQueueArming
import NutServer.Net.EventLoopTimers
import NutServer.Net.EventLoopTimersProperties
