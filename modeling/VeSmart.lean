import VeSmart.Storage.Config
import VeSmart.Storage.KeyValue
import VeSmart.Storage.Spool
import VeSmart.Storage.Acquisition
import VeSmart.Storage.Operations
import VeSmart.Storage.Ledger
import VeSmart.Storage.Budget
import VeSmart.Storage.CommitRuns
import VeSmart.Storage.Ownership
import VeSmart.Domain.Sample
import VeSmart.Service.Energy
import VeSmart.Service.State
import VeSmart.Service.Health
import VeSmart.Service.Ports
import VeSmart.Service.Config
import VeSmart.Service.Context
import VeSmart.Service.Delivery
import VeSmart.Service.Cycle
import VeSmart.Service.CycleSteps
import VeSmart.Service.CycleRun
import VeSmart.Service.Runner
import VeSmart.Service.Durable
import VeSmart.Collector.SqliteStorage
import VeSmart.Lib.Anchor
import VeSmart.Metrics.Encode
import VeSmart.Service.Commits
import VeSmart.Collector.Renderer
import VeSmart.Service.Integration
import VeSmart.Collector.Cycles
import VeSmart.Collector.Invariant
import VeSmart.Bluez.Open
import VeSmart.Lib.Framing
import VeSmart.Protocol.Control
import VeSmart.Protocol.Frame
import VeSmart.Client.Flow
import VeSmart.Client.Session
import VeSmart.Client.Rules
import VeSmart.Client.Frames
import VeSmart.Client.Calls
import VeSmart.Client.Correlation
import VeSmart.Client.Freshness
import VeSmart.Client.Watch
import VeSmart.Client.Credit
import VeSmart.Client.CreditWindow
import VeSmart.Client.Diagnostic
import VeSmart.Service.Backoff
import VeSmart.Protocol.Overflow
import VeSmart.Metrics.Metric
import VeSmart.Collector.DeviceName
import VeSmart.Lib.CreditLedger
import VeSmart.Lib.Trapezoid
import VeSmart.Storage.Energy
import VeSmart.Storage.EnergyHistory
import VeSmart.Collector.Integrators
import VeSmart.Service.Yield
import VeSmart.Bluez.Config
import VeSmart.Collector.Config
import VeSmart.Collector.Memory
import VeSmart.Collector.Deliveries
import VeSmart.Collector.Pace
import VeSmart.Collector.Watchdog
import VeSmart.Collector.Backlog
import VeSmart.Protocol.Chunks
import VeSmart.Protocol.Opcode
import VeSmart.Protocol.Records
import VeSmart.Lib.Reader
import VeSmart.Lib.Cbor
import VeSmart.Protocol.Cbor
import VeSmart.Protocol.Items
import VeSmart.Protocol.Decode
import VeSmart.Protocol.Minicbor
import VeSmart.Protocol.Stream
import VeSmart.Protocol.Request
import VeSmart.Lib.Binary64
import VeSmart.Protocol.Vreg
import VeSmart.Protocol.Rounding
import VeSmart.Domain.Builder
import VeSmart.Collector.Protocol
import VeSmart.Collector.Readings
import VeSmart.Service.Collecting
import VeSmart.Collector.EmptyResponse
import VeSmart.Lib.Grammar
import VeSmart.Lib.Keyed
import VeSmart.Lib.Exposition
import VeSmart.Lib.Http
import VeSmart.Metrics.HttpUrl
import VeSmart.Lib.Buffered
import VeSmart.Lib.Utf8Lossy
import VeSmart.Metrics.Response
import VeSmart.Metrics.ResponseText
import VeSmart.Metrics.Import
import VeSmart.Lib.Widths
import VeSmart.Protocol.ControlStream
import VeSmart.Cli.Endpoint
import VeSmart.Cli.AnalyzeHistory
import VeSmart.Cli.ReadHistory
import VeSmart.Cli.ExtractQmlcache
import VeSmart.Service.EnergyHistory
import VeSmart.Storage.EnergyDirection
import VeSmart.Lib.Ladder
import VeSmart.Storage.Migration
import VeSmart.Collector.RunOnce
import VeSmart.Collector.Counters
import VeSmart.Lib.Attempts
import VeSmart.Service.ClaimLog
import VeSmart.Storage.Attempts
import VeSmart.Collector.Drain
import VeSmart.Storage.Oldest
import VeSmart.Service.FreshDelivery
import VeSmart.Storage.Fate
import VeSmart.Lib.Ranking
import VeSmart.Storage.ClaimOrder
import VeSmart.Storage.Pruning
import VeSmart.Storage.TimeRange
import VeSmart.Collector.FreshDelivery
import VeSmart.Service.Projection
import VeSmart.Collector.Rendered
import VeSmart.Collector.Prometheus
import VeSmart.Metrics.TextFormat
import VeSmart.Metrics.SampleView
import VeSmart.Metrics.SampleBatch
import VeSmart.Bluez.Spec
import VeSmart.Bluez.Discovery
import VeSmart.Bluez.Gatt
import VeSmart.Bluez.OpenCalls
import VeSmart.Client.Wire
import VeSmart.Client.Link
import VeSmart.Client.CutOff
import VeSmart.Service.SessionStages
import VeSmart.Collector.SessionPort
import VeSmart.Collector.DeviceView
import VeSmart.Metrics.Failures
import VeSmart.Collector.HttpDelivery
import VeSmart.Service.Calls
import VeSmart.Collector.Provenance
import VeSmart.Collector.Site
import VeSmart.Client.ReadOnly
import VeSmart.Cli.Diagnostics
import VeSmart.Cli.HistoryReport
import VeSmart.Collector.Runnable
