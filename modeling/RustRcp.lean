import RustRcp.Lib.Bytes
import RustRcp.Lib.Reader
import RustRcp.Lib.Cursor
import RustRcp.Lib.Stateful
import RustRcp.Lib.Lease
import RustRcp.Lib.Tickets
import RustRcp.Lib.Exchange
import RustRcp.Lib.Crc
import RustRcp.Lib.Threads
import RustRcp.Lib.Stages
import RustRcp.Lib.Guarded
import RustRcp.Lib.RwLock
import RustRcp.Lib.Selection
import RustRcp.Lib.Serial
import RustRcp.Lib.Numeral
import RustRcp.Lib.Average
import RustRcp.Lib.Codec
import RustRcp.Lib.Since
import RustRcp.Lib.Objects
import RustRcp.Lib.Agenda
import RustRcp.Lib.Condvar
import RustRcp.Error
import RustRcp.Acf
import RustRcp.AcfInfo
import RustRcp.AcfCodec
import RustRcp.Avtp
import RustRcp.E2e
import RustRcp.E2eTrailer
import RustRcp.Coverage
import RustRcp.CrcReference
import RustRcp.CrcBurst
import RustRcp.CrcDistance
import RustRcp.Noise
import RustRcp.Fragment
import RustRcp.FragmentLatch
import RustRcp.FragmentInvariant
import RustRcp.Regmap
import RustRcp.Tables
import RustRcp.Sequencer
import RustRcp.Lifecycle
import RustRcp.Pending
import RustRcp.Rollover
import RustRcp.Safety
import RustRcp.Schedule
import RustRcp.Power
import RustRcp.Access
import RustRcp.Mock
import RustRcp.Authz
import RustRcp.Redundancy
import RustRcp.Record
import RustRcp.FaultInject
import RustRcp.Sim
import RustRcp.Loan
import RustRcp.LoanRuns
import RustRcp.Waiting
import RustRcp.Proxy
import RustRcp.Observe
import RustRcp.Stack
import RustRcp.Adc
import RustRcp.Server
import RustRcp.RootClient
import RustRcp.Batch
import RustRcp.ServerBatch
import RustRcp.ServerFrame
import RustRcp.Discovery
import RustRcp.Federation
import RustRcp.Udp
import RustRcp.AvtpCodec
import RustRcp.Serve
import RustRcp.Response
import RustRcp.Paths
import RustRcp.ClaimRuns
import RustRcp.Endpoints
import RustRcp.Integrity
import RustRcp.Concurrent
import RustRcp.ConcurrentIds
import RustRcp.Transport
import RustRcp.Matching
import RustRcp.Remote
import RustRcp.Adapt
import RustRcp.AdaptWire
import RustRcp.EndpointId
import RustRcp.BusFrames
import RustRcp.Iseled
import RustRcp.IseledCrc
import RustRcp.Cli
