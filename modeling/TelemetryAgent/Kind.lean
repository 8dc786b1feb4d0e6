/-!
# Telemetry kinds

What an agent publishes on a schedule. A kind has an ordinal, under which its settings are
kept, an interface, under which it is published and configured, and the name of its timer.
`Kind.invalid` has the reserved ordinal zero: configuration data can name it, and nothing can
be scheduled under it.
-/
namespace TelemetryAgent

inductive Kind
  | invalid | hardwareInfo | wifiScan | systemStatus | storageUsage
deriving DecidableEq, Repr

namespace Kind

/-- Every kind that can be scheduled, in the order of the table of entries. -/
def schedulable : List Kind := [hardwareInfo, wifiScan, systemStatus, storageUsage]

/-- Every kind, in the order of the ordinals. -/
def all : List Kind := invalid :: schedulable

def ordinal : Kind → Nat
  | invalid => 0
  | hardwareInfo => 1
  | wifiScan => 2
  | systemStatus => 3
  | storageUsage => 4

/-- Ordinal zero names no kind that can be scheduled. -/
def ofOrdinal? : Nat → Option Kind
  | 1 => some hardwareInfo
  | 2 => some wifiScan
  | 3 => some systemStatus
  | 4 => some storageUsage
  | _ => none

/-- Position in the table of entries. -/
def slot? : Kind → Option Nat
  | invalid => none
  | k => some (k.ordinal - 1)

def name : Kind → String
  | invalid => "Invalid"
  | hardwareInfo => "HardwareInfo"
  | wifiScan => "WifiScan"
  | systemStatus => "SystemStatus"
  | storageUsage => "StorageUsage"

def ofName? (s : String) : Option Kind := all.find? (·.name == s)

/-- The interface a kind is published on, which is also the segment that names it in a
configuration path. -/
def interface? : Kind → Option String
  | invalid => none
  | hardwareInfo => some "io.edgehog.devicemanager.HardwareInfo"
  | wifiScan => some "io.edgehog.devicemanager.WiFiScanResults"
  | systemStatus => some "io.edgehog.devicemanager.SystemStatus"
  | storageUsage => some "io.edgehog.devicemanager.StorageUsage"

def ofInterface? (s : String) : Option Kind := schedulable.find? (·.interface? == some s)

/-- Timer names end with a NUL. -/
def timerName : Kind → String
  | invalid => "tm-invalid\x00"
  | hardwareInfo => "tm-hwinfo\x00"
  | wifiScan => "tm-wifiscan\x00"
  | systemStatus => "tm-sysstatus\x00"
  | storageUsage => "tm-storage\x00"

end Kind
end TelemetryAgent
