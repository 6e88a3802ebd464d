import FleetTracking.Lib.Transition
import FleetTracking.Lib.Async
import FleetTracking.Lib.Interleaving
import FleetTracking.Lib.JsMap
import FleetTracking.Lib.Typestate
import FleetTracking.Lib.JsDate
import FleetTracking.Lib.JsRecord
import FleetTracking.Protocol.Reader
import FleetTracking.Protocol.Codec8
import FleetTracking.Protocol.Codec12
import FleetTracking.Protocol.Udp
import FleetTracking.Ingestion.AvlMap
import FleetTracking.Ingestion.Dedupe
import FleetTracking.Ingestion.DeduperHistory
import FleetTracking.Lib.Decimal
import FleetTracking.Ingestion.DedupeKeys
import FleetTracking.Ingestion.Recovery
import FleetTracking.Ingestion.Delivery
import FleetTracking.Ingestion.DeliveryTypestate
import FleetTracking.Ingestion.DurableAck
import FleetTracking.Ingestion.Session
import FleetTracking.Ingestion.FailReasons
import FleetTracking.Ingestion.TcpServer
import FleetTracking.Ingestion.Registry
import FleetTracking.Ingestion.Downlink
import FleetTracking.ControlPlane.Entities
import FleetTracking.ControlPlane.ImmobilizerCommand
import FleetTracking.Lib.JsNumber
import FleetTracking.ControlPlane.AlertEngine
import FleetTracking.ControlPlane.TripDetector
import FleetTracking.ControlPlane.Backend
import FleetTracking.ControlPlane.Immobilizer
import FleetTracking.ControlPlane.Telemetry
import FleetTracking.ControlPlane.CallTypestate
import FleetTracking.ControlPlane.Conformance
import FleetTracking.Lib.Execution
import FleetTracking.ControlPlane.OneDevice
import FleetTracking.ControlPlane.Release
import FleetTracking.ControlPlane.Flag
import FleetTracking.ControlPlane.HotState
import FleetTracking.ControlPlane.ScopedReads
import FleetTracking.ControlPlane.SpeedGuard
import FleetTracking.ControlPlane.DeviceLookups
import FleetTracking.Ingestion.SessionRun
import FleetTracking.Ingestion.SessionLogin
import FleetTracking.Ingestion.SessionClosed
import FleetTracking.Ingestion.Chunking
import FleetTracking.ControlPlane.Devices
import FleetTracking.ControlPlane.Lifecycle
import FleetTracking.ControlPlane.Services
import FleetTracking.ControlPlane.TenantStores
import FleetTracking.ControlPlane.TenantIsolation
import FleetTracking.ControlPlane.OwnView
import FleetTracking.ControlPlane.WriteFrame
import FleetTracking.ControlPlane.StoreRules
import FleetTracking.ControlPlane.DepartmentDelete
import FleetTracking.ControlPlane.Reads
import FleetTracking.Auth.SecondFactor
import FleetTracking.Lib.Forest
import FleetTracking.ControlPlane.DepartmentForest
import FleetTracking.ControlPlane.DepartmentMoves
import FleetTracking.ControlPlane.Administration
import FleetTracking.Auth.SingleSpend
import FleetTracking.ControlPlane.Quotas
import FleetTracking.ControlPlane.AllowListRaces
import FleetTracking.ControlPlane.TestMark
import FleetTracking.ControlPlane.AuditTrail
import FleetTracking.ControlPlane.AlertHistory
import FleetTracking.ControlPlane.FenceMemory
import FleetTracking.Lib.Segments
import FleetTracking.ControlPlane.TripSegmentation
import FleetTracking.ControlPlane.TripOrder
import FleetTracking.ControlPlane.OfflineSweep
import FleetTracking.Lib.Crc
import FleetTracking.Protocol.Envelope
import FleetTracking.Protocol.Corruption
import FleetTracking.Protocol.Framing
import FleetTracking.Protocol.Acceptance
import FleetTracking.Protocol.Grammar
import FleetTracking.Protocol.AvlLayout
import FleetTracking.Lib.Timestamp
import FleetTracking.Protocol.ReaderRules
import FleetTracking.ControlPlane.PositionColumns
import FleetTracking.Lib.Json
import FleetTracking.ControlPlane.MessageText
import FleetTracking.ControlPlane.Repositories
import FleetTracking.Lib.TimestampOrder
import FleetTracking.ControlPlane.RepositoryRefinement
import FleetTracking.ControlPlane.PositionOrder
import FleetTracking.ControlPlane.RepositoryRuns
import FleetTracking.Lib.ConsumerGroup
import FleetTracking.ControlPlane.StreamBus
import FleetTracking.Lib.Ending
import FleetTracking.Ingestion.AllowListCache
import FleetTracking.Ingestion.Sinks
import FleetTracking.ControlPlane.DeviceScope
import FleetTracking.Lib.Pairing
import FleetTracking.ControlPlane.VehicleLinks
import FleetTracking.Lib.Fallible
import FleetTracking.Lib.Regex
import FleetTracking.ControlPlane.Migrations
import FleetTracking.Lib.JsInteger
import FleetTracking.Protocol.TeltonikaParams
import FleetTracking.ControlPlane.DeviceCommander
import FleetTracking.ControlPlane.DeviceConfig
import FleetTracking.Lib.ReadModifyWrite
import FleetTracking.ControlPlane.ConfigUpdates
import FleetTracking.Auth.Registration
import FleetTracking.Lib.Selection
import FleetTracking.ControlPlane.ReportRange
import FleetTracking.ControlPlane.OrgHierarchy
import FleetTracking.Lib.ClosedPath
import FleetTracking.ControlPlane.PointInRing
import FleetTracking.Lib.BitString
import FleetTracking.Auth.Base32
import FleetTracking.Lib.Hex
import FleetTracking.Auth.Password
import FleetTracking.Lib.LastWrite
import FleetTracking.Web.LivePositions
import FleetTracking.Lib.Branching
import FleetTracking.Lib.Grouping
import FleetTracking.Web.DeviceTree
import FleetTracking.Web.CycleChecks
import FleetTracking.Web.Session
import FleetTracking.Web.Requests
import FleetTracking.Lib.Csv
import FleetTracking.ControlPlane.Reports
import FleetTracking.ControlPlane.CsvExport
import FleetTracking.Lib.Double
import FleetTracking.Lib.JsonText
import FleetTracking.Lib.Lines
import FleetTracking.ControlPlane.TelemetryWire
import FleetTracking.ControlPlane.CommandRelay
