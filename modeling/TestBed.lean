import TestBed.Lib.Transition
import TestBed.Lib.CInt
import TestBed.Lib.Slice
import TestBed.Basic
import TestBed.Session
import TestBed.Monitor
import TestBed.ClientThread
import TestBed.MClient
import TestBed.MClientRun
import TestBed.MClientSend
import TestBed.MClientStatus
import TestBed.MClientReport
import TestBed.UdpSend
import TestBed.Lib.Demux
import TestBed.UdpEvent
import TestBed.UdpAgree
import TestBed.MServer
import TestBed.MServerCount
import TestBed.Lib.Link
import TestBed.UdpTransfer
import TestBed.UdpTransferSafe
import TestBed.TestFile
import TestBed.StreamClient
import TestBed.MonitorLoop
import TestBed.CountLock
import TestBed.EventDrain
import TestBed.StatReaders
import TestBed.Lib.Chain
import TestBed.StatsChain
import TestBed.Lib.Analysis
import TestBed.Code.World
import TestBed.Code.Listener
import TestBed.Code.Endpoint
import TestBed.Code.Facts
import TestBed.LockDiscipline
import TestBed.AbortPaths
import TestBed.Interrupt
import TestBed.ServerSockets
import TestBed.ClientSockets
import TestBed.CloseOnce
import TestBed.LiveQuery
import TestBed.Aggregation
import TestBed.UdpSessions
import TestBed.ClientSend
import TestBed.Epoll
import TestBed.Receivers
import TestBed.UtpLoop
import TestBed.UtpOrder
import TestBed.UtpReports
import TestBed.Setup
import TestBed.TransferTimes
import TestBed.SessionList
import TestBed.UdpPacing
import TestBed.CommandLine
import TestBed.Lib.Decimal
import TestBed.RandomFile
import TestBed.SockOpt
import TestBed.FileSize
import TestBed.UtpCounts
import TestBed.Lib.Pipe
import TestBed.StreamTransfer
import TestBed.StreamTransferEnds
import TestBed.Lib.Family
import TestBed.MultiTransfer
import TestBed.MultiTransferTotals
import TestBed.Lib.Mailbox
import TestBed.UdpMServer
import TestBed.UdpMultiTransfer
import TestBed.UdpMultiTransferSafe
