/-!
# Interface names

The interfaces an agent publishes on or is asked through, apart from those of the telemetry
kinds.
-/
namespace TelemetryAgent.Interface

def commands : String := "io.edgehog.devicemanager.Commands"
def ledBehavior : String := "io.edgehog.devicemanager.LedBehavior"
def otaRequest : String := "io.edgehog.devicemanager.OTARequest"
def telemetryConfig : String := "io.edgehog.devicemanager.config.Telemetry"
def osInfo : String := "io.edgehog.devicemanager.OSInfo"
def systemInfo : String := "io.edgehog.devicemanager.SystemInfo"
def baseImage : String := "io.edgehog.devicemanager.BaseImage"
def runtimeInfo : String := "io.edgehog.devicemanager.RuntimeInfo"
def batteryStatus : String := "io.edgehog.devicemanager.BatteryStatus"

end TelemetryAgent.Interface
