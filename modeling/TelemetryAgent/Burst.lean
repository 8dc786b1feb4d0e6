import TelemetryAgent.Kind

/-!
# The initial burst

What an agent publishes once, right after its first connection: every telemetry kind, and the
device information that nothing reschedules.
-/
namespace TelemetryAgent

inductive BurstStep
  | telemetry (k : Kind)
  | osInfo | systemInfo | baseImage | runtimeInfo
deriving DecidableEq, Repr

namespace BurstStep

def text : BurstStep → String
  | telemetry k => "Telemetry(" ++ k.name ++ ")"
  | osInfo => "OsInfo"
  | systemInfo => "SystemInfo"
  | baseImage => "BaseImage"
  | runtimeInfo => "RuntimeInfo"

/-- The steps of a burst, in order. -/
def order : List BurstStep :=
  [.telemetry .hardwareInfo, .osInfo, .systemInfo, .baseImage, .runtimeInfo,
    .telemetry .systemStatus, .telemetry .storageUsage, .telemetry .wifiScan]

end BurstStep
end TelemetryAgent
