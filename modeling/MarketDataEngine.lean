import MarketDataEngine.TransitionSystem
import MarketDataEngine.SteppedObject
import MarketDataEngine.RingBuffer
import MarketDataEngine.RingLinearization
import MarketDataEngine.RingProducerConsumer
import MarketDataEngine.ByteWord
import MarketDataEngine.WireCodec
import MarketDataEngine.SequenceTracker
import MarketDataEngine.MessageStage
import MarketDataEngine.FramePool
import MarketDataEngine.EngineV1Model
import MarketDataEngine.EngineV1Ownership
import MarketDataEngine.EngineV1Delivery
import MarketDataEngine.UdpReceiver
import MarketDataEngine.EngineV2Model
import MarketDataEngine.EngineV2Ownership
import MarketDataEngine.EngineV2Interleaving
import MarketDataEngine.EngineV2Accounting
import MarketDataEngine.EngineShutdown
import MarketDataEngine.EngineV3Frames
import MarketDataEngine.ConsumerReplay
import MarketDataEngine.GeneratorV2
import MarketDataEngine.FeedAccounting
import MarketDataEngine.GeneratorGaps
import MarketDataEngine.GeneratorV1
import MarketDataEngine.EngineV3Bounds
import MarketDataEngine.EngineAgreement
import MarketDataEngine.LockedMonitor
import MarketDataEngine.MonitorWakeUps
import MarketDataEngine.BlockedBoundedQueue
import MarketDataEngine.BlockedQueueWakeUps
import MarketDataEngine.BlockingTransport
import MarketDataEngine.FrameReassembly
import MarketDataEngine.EpollServer
import MarketDataEngine.EpollConnections
import MarketDataEngine.GeneratorSkips
import MarketDataEngine.AnswerStream
import MarketDataEngine.UdpSender
import MarketDataEngine.UdpSenderBranches
import MarketDataEngine.GeneratorSending
import MarketDataEngine.GeneratorClient
import MarketDataEngine.SequenceAccounting
import MarketDataEngine.MetricsSnapshot
import MarketDataEngine.MetricsReporter
import MarketDataEngine.MetricsConsistency
import MarketDataEngine.EngineV2Stamps
import MarketDataEngine.EngineV2Latencies
import MarketDataEngine.LatencyHistogram
import MarketDataEngine.LatencyRecording
import MarketDataEngine.LatencySides
import MarketDataEngine.LatencySnapshots
import MarketDataEngine.EpollHangUps
import MarketDataEngine.TcpFeeds
import MarketDataEngine.GeneratorMain
import MarketDataEngine.GeneratorProgram
import MarketDataEngine.ProgramFeeds
import MarketDataEngine.EpollDrains
import MarketDataEngine.DescriptorLedger
import MarketDataEngine.EpollDescriptors
import MarketDataEngine.EngineV2Lifecycle
import MarketDataEngine.ServerHandles
import MarketDataEngine.ServerSessions
import MarketDataEngine.BlockingServer
import MarketDataEngine.EngineV1Lifecycle
import MarketDataEngine.EngineV1RunCalls
import MarketDataEngine.EngineRestart
import MarketDataEngine.EngineV2Restart
import MarketDataEngine.EpollSockets
import MarketDataEngine.DpdkSource
import MarketDataEngine.EngineV3Loop
import MarketDataEngine.EngineV3Stop
import MarketDataEngine.ReporterJoin
import MarketDataEngine.EngineV2Stopping
import MarketDataEngine.EngineV1Stopping
import MarketDataEngine.EngineV1Socket
import MarketDataEngine.DescriptorOwners
import MarketDataEngine.ReceiverObjects
import MarketDataEngine.ReceiveBatches
