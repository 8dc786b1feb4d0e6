import TelemetryAgent.Bench.JournalRig
import TelemetryAgent.Bench.Rig
import TelemetryAgent.Bench.TimerRig
import TelemetryAgent.Config.Binary
import TelemetryAgent.Config.Json
import TelemetryAgent.Proofs.Device.Stopping
import TelemetryAgent.Proofs.Schedule.Publishing
import TelemetryAgent.Proofs.Schedule.Rebuild
import TelemetryAgent.Proofs.Schedule.Interrupted
import TelemetryAgent.Proofs.Schedule.Mirror
import TelemetryAgent.Proofs.Schedule.History
import TelemetryAgent.Proofs.Schedule.Sections
import TelemetryAgent.Proofs.Schedule.Ordering
import TelemetryAgent.Proofs.Device.Record
import TelemetryAgent.Proofs.Device.Lifecycle
import TelemetryAgent.Proofs.Device.Protocol
import TelemetryAgent.Proofs.Host.Bare
import TelemetryAgent.Proofs.Schedule.Bare
import TelemetryAgent.Proofs.Device.Routing
import TelemetryAgent.Proofs.Device.Transparency
import TelemetryAgent.Proofs.Schedule.View
import TelemetryAgent.Proofs.Schedule.Storeless
import TelemetryAgent.Proofs.Settings.ByteOrder
import TelemetryAgent.Proofs.Settings.Histories
import TelemetryAgent.Proofs.Schedule.Construction
import TelemetryAgent.Proofs.Schedule.Isolation
import TelemetryAgent.Proofs.Schedule.Outcomes
import TelemetryAgent.Proofs.Device.Failures
import TelemetryAgent.Proofs.Device.Construction
import TelemetryAgent.Proofs.Schedule.Paths
import TelemetryAgent.Proofs.Settings.Decoding
import TelemetryAgent.Proofs.Config.Binary
import TelemetryAgent.Proofs.Config.Json
import TelemetryAgent.Proofs.Host.Burst
import TelemetryAgent.Proofs.Timer.Lifecycle
import TelemetryAgent.Proofs.Session.Journal
