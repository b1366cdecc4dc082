import Volta.Run
import Volta.Calls
import Volta.Circular
import Volta.Segments
import Volta.Grouping
import Volta.Numeral
import Volta.Measure
import Volta.GeneralFormat
import Volta.Binary32
import Volta.Scanf
import Volta.PercentEncoding
import Volta.WebUrl
import Volta.Mailbox
import Volta.GoSlice
import Volta.Metric
import Volta.MetricType
import Volta.Toml
import Volta.SeriesBuffer
import Volta.MetricsBuffer
import Volta.SeriesContents
import Volta.SeriesSource
import Volta.Resize
import Volta.Config
import Volta.CoreAffinity
import Volta.RequestedMetrics
import Volta.RaplCollector
import Volta.MsrFiles
import Volta.MsrDescriptors
import Volta.ProcStatCollector
import Volta.NvmlCollector
import Volta.NvmlLibrary
import Volta.RamCollector
import Volta.CollectorRegistry
import Volta.MetricFormat
import Volta.StoredUnits
import Volta.Writer
import Volta.ControlMessage
import Volta.ConnectReactor
import Volta.MetricsStream
import Volta.BatchHeader
import Volta.StreamInvariant
import Volta.StreamDelivery
import Volta.StreamProgress
import Volta.MessageQueue
import Volta.ExportCommand
import Volta.CommandQueue
import Volta.Exporter
import Volta.DumpRow
import Volta.Scheduler
import Volta.Registry
import Volta.Server
import Volta.EventBus
import Volta.Hub
import Volta.ClientPump
import Volta.Client
import Volta.AgentIdFile
import Volta.ClientConnect
import Volta.Identity
import Volta.Session
import Volta.Responder
import Volta.ConnectStream
import Volta.Subscription
import Volta.HttpServer
import Volta.StreamEndpoint
import Volta.MetricMeta
import Volta.DashboardStores
import Volta.ApiClient
import Volta.MetricsStore
import Volta.MetricStreamHook
import Volta.DashboardPage
import Volta.UplotReact
import Volta.StreamIsolation
import Volta.Dashboard
import Volta.Pipeline
import Volta.EndToEnd
