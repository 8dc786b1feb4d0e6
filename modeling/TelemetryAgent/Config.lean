import TelemetryAgent.Kind
import TelemetryAgent.Fault

/-!
# Configuration

What an agent is built from: the baseline schedule, the parameters of its worker, and how long
a disconnect may take. `Config.validate` names the first thing that is wrong.
-/
namespace TelemetryAgent

/-- One line of the baseline schedule: publish `kind` every `period` seconds. -/
structure BaselineItem where
  kind : Kind
  period : Int64
deriving DecidableEq, Repr

/-- How often an idle worker looks at its queue, its stack in bytes, and its priority. -/
structure WorkerConfig where
  pollMillis : UInt32 := 100
  stackBytes : UInt64 := 4096
  priority : UInt8 := 5
deriving DecidableEq, Repr

structure Config where
  telemetry : List BaselineItem := []
  worker : WorkerConfig := {}
  disconnectMillis : UInt32 := 0
deriving DecidableEq, Repr

namespace Config

/-- The least stack that a worker is given. -/
def minStackBytes : UInt64 := 2048

/-- Goes through the items in order, with the kinds of the earlier ones in `seen`. -/
def checkBaseline : (seen : List Kind) → List BaselineItem → Outcome
  | _, [] => .ok ()
  | seen, item :: rest =>
    if item.kind = .invalid then
      .error (.invalidConfiguration "telemetry kind must not be Invalid")
    else if item.kind ∈ seen then
      .error (.invalidConfiguration "duplicate telemetry kind in baseline")
    else checkBaseline (item.kind :: seen) rest

def validate (c : Config) : Outcome :=
  match checkBaseline [] c.telemetry with
  | .error f => .error f
  | .ok () =>
    if c.worker.pollMillis = 0 then
      .error (.invalidConfiguration "queue_poll_interval_ms must be > 0")
    else if c.worker.stackBytes < minStackBytes then
      .error (.invalidConfiguration "worker stack must be >= 2048 bytes")
    else .ok ()

end Config
end TelemetryAgent
