import MegaNet.CircularBuffer
import MegaNet.SerialNumber
import MegaNet.Core.Xmem
import MegaNet.Core.Net
import MegaNet.Core.TcpSocket
import MegaNet.Core.TcpInput
import MegaNet.Core.TcpPoll
import MegaNet.Core.TcpSet
import MegaNet.Transition
import MegaNet.Words
import MegaNet.TcpEmission
import MegaNet.TcpSocketInvariant
import MegaNet.TcpOutcomes
import MegaNet.TcpPreservation
import MegaNet.XmemRings
import MegaNet.TcpConnection
import MegaNet.TcpSendStream
import MegaNet.TcpSendLimits
import MegaNet.TcpSetRuns
import MegaNet.TcpRepresentation
import MegaNet.TcpTurns
import MegaNet.TcpAnswers
import MegaNet.TcpRetransmission
import MegaNet.TcpProgress
import MegaNet.TcpHalfOpen
import MegaNet.TcpFourTuple
import MegaNet.TcpLifetime
import MegaNet.TcpLoneSocket
import MegaNet.TcpEndToEnd
import MegaNet.TcpResets
import MegaNet.TcpAdvertisedWindow
import MegaNet.TcpWindowUpdates
import MegaNet.TcpFailedEmission
import MegaNet.TcpAckAcceptance
import MegaNet.TcpStateAgreement
import MegaNet.TcpTimeWait
import MegaNet.TcpDeadPeer
import MegaNet.TcpLiveFields
import MegaNet.TcpReuse
import MegaNet.TcpIsolation
import MegaNet.UdpOutcomes
import MegaNet.UdpSockets
import MegaNet.DnsParse
import MegaNet.LabelCodec
import MegaNet.DnsQuery
import MegaNet.LookupEnds
import MegaNet.DhcpRenewal
import MegaNet.DhcpMessages
import MegaNet.DhcpClock
import MegaNet.DhcpSilence
import MegaNet.UdpBorrowing
import MegaNet.LookupSources
import MegaNet.WireFormats
import MegaNet.Transmissions
import MegaNet.EchoReplies
import MegaNet.ClientCalls
import MegaNet.Mailbox
import MegaNet.FrameSizes
import MegaNet.UdpMailboxes
import MegaNet.UdpDelivery
import MegaNet.Fragments
import MegaNet.TcpUnicast
import MegaNet.TcpEndOfStream
import MegaNet.Core.Reads
import MegaNet.ReadBounds
import MegaNet.ChecksumReference
import MegaNet.FifoMap
import MegaNet.ArpCache
import MegaNet.Periods
import MegaNet.Gregorian
import MegaNet.Core.Civil
import MegaNet.CivilTime
import MegaNet.WhileLoop
import MegaNet.TcpSendLoop
import MegaNet.AddressSpace
import MegaNet.Core.SharedMemory
import MegaNet.DmaPaths
import MegaNet.Core.Api
import MegaNet.PoolContents
import MegaNet.PoolLayout
import MegaNet.ApiMoves
import MegaNet.ApiRuns
import MegaNet.FrameClock
import MegaNet.ApiBlocks
import MegaNet.ClockSetting
import MegaNet.Core.Eth45e100
import MegaNet.LinkDriver
import MegaNet.SocketOwnership
import MegaNet.SegmentCodec
import MegaNet.StackEvents
import MegaNet.ProgramsEndToEnd
import MegaNet.FrameBudget
import MegaNet.DatagramsEndToEnd
import MegaNet.Core.Client
import MegaNet.ClientsEndToEnd
import MegaNet.Neighbours
