import MavlinkDim.Runs
import MavlinkDim.Ledger
import MavlinkDim.History
import MavlinkDim.ByteMemory
import MavlinkDim.SlotTiling
import MavlinkDim.Codes
import MavlinkDim.Cpy
import MavlinkDim.Transceive
import MavlinkDim.ReceivePhase
import MavlinkDim.Framing
import MavlinkDim.Driver
import MavlinkDim.Tls
import MavlinkDim.TlsRun
import MavlinkDim.TlsReplies
import MavlinkDim.TlsStream
import MavlinkDim.Command
import MavlinkDim.Kcmvp
import MavlinkDim.CommandFrame
import MavlinkDim.Dim
import MavlinkDim.DimConnection
import MavlinkDim.DimRecv
import MavlinkDim.DimLock
import MavlinkDim.Power
import MavlinkDim.PowerRuns
import MavlinkDim.PendingRegion
import MavlinkDim.DimEvents
import MavlinkDim.DimLife
import MavlinkDim.Mavlink
import MavlinkDim.LifeRuns
import MavlinkDim.SerialReader
import MavlinkDim.Server
import MavlinkDim.ServerSessions
import MavlinkDim.Client
import MavlinkDim.ConnectionIsolation
import MavlinkDim.Relay
import MavlinkDim.Transducer
import MavlinkDim.ClientStreams
import MavlinkDim.BigEndian
import MavlinkDim.BlockModes
import MavlinkDim.DeviceCommands
import MavlinkDim.InfoFile
import MavlinkDim.CipherChunks
import MavlinkDim.RecordRelocation
import MavlinkDim.RejectedRecord
import MavlinkDim.NewConnection
import MavlinkDim.Fragments
import MavlinkDim.InactivityTimeout
import MavlinkDim.WholeRecords
import MavlinkDim.CarryOver
import MavlinkDim.HashSteps
import MavlinkDim.ChunkFailures
import MavlinkDim.GcmRoundTrip
import MavlinkDim.KeyRequests
import MavlinkDim.KeySizes
import MavlinkDim.FailedReads
import MavlinkDim.RequestLayout
import MavlinkDim.RequestBounds
import MavlinkDim.RequestCalls
import MavlinkDim.ReceiveEnds
import MavlinkDim.EndlessRuns
import MavlinkDim.HandshakeEnds
import MavlinkDim.RecordBoundaries
import MavlinkDim.RecordCuts
import MavlinkDim.CheckedCpy
import MavlinkDim.QueueWalks
import MavlinkDim.BlockingRuns
import MavlinkDim.CipherInverse
import MavlinkDim.SerialPort
import MavlinkDim.SerialLine
import MavlinkDim.UdpProxy
import MavlinkDim.DimLink
import MavlinkDim.CallSequences
import MavlinkDim.KeyTable
import MavlinkDim.Certificates
import MavlinkDim.SignVerify
