import TelemetryAgent.Double
import TelemetryAgent.Fault
import TelemetryAgent.Text.Blank
import TelemetryAgent.Text.Split

/-!
# Platform facts

What an agent can find out about the device it runs on. A fact that is not known is absent;
mandatory texts may be empty.
-/
namespace TelemetryAgent

structure CpuInfo where
  architecture : String := ""
  model : Option String := none
  modelName : Option String := none
  vendor : Option String := none
  totalMemoryBytes : Option Int64 := none
deriving DecidableEq, Repr

structure OsInfo where
  name : String := ""
  version : String := ""
deriving DecidableEq, Repr

structure SystemInfo where
  serialNumber : Option String := none
  partNumber : Option String := none
deriving DecidableEq, Repr

structure BaseImage where
  name : Option String := none
  version : Option String := none
  buildId : Option String := none
  fingerprint : Option String := none
deriving DecidableEq, Repr

structure SystemStatus where
  availMemoryBytes : Int64 := 0
  taskCount : Int32 := 0
  uptimeMillis : Int64 := 0
deriving DecidableEq, Repr

/-- One partition; its free space may be unknown. -/
structure StorageUsage where
  label : String
  totalBytes : Int64
  freeBytes : Option Int64
deriving DecidableEq, Repr

structure Facts where
  cpu : CpuInfo := {}
  os : OsInfo := {}
  system : SystemInfo := {}
  image : BaseImage := {}
  status : SystemStatus := {}
  storage : List StorageUsage := []
deriving DecidableEq, Repr

/-- A device that knows neither its maker's identity nor its image. -/
def Facts.bare (f : Facts) : Facts := { f with system := {}, image := {} }

/-! ## Runtime -/

namespace Runtime

def name : String := "edgehog-device"
def version : String := "0.3.0"

/-- No place is known where the runtime is published. -/
def url : String := ""

end Runtime

/-! ## A development machine -/

/-- What a development machine finds on itself. The release of its system is a text that may be
missing. -/
structure Workstation.Site where
  architecture : String
  system : String
  release : Option String
deriving DecidableEq, Repr

/-- What a development machine has been given to tell beside that: partitions and an identity. -/
structure Workstation where
  identity : SystemInfo := {}
  storage : List StorageUsage := []
deriving DecidableEq, Repr

namespace Workstation

/-- The last identity given is the one reported. -/
def withIdentity (w : Workstation) (serial part : String) : Workstation :=
  { w with identity := ⟨some serial, some part⟩ }

def withStorage (w : Workstation) (usage : StorageUsage) : Workstation :=
  { w with storage := w.storage ++ [usage] }

def cpu (site : Site) : CpuInfo :=
  { architecture := site.architecture, modelName := some (site.system ++ " host") }

def os (site : Site) : OsInfo :=
  ⟨site.system, String.ofList (Text.trim Text.isBlank (site.release.getD "").toList)⟩

def image : BaseImage := { name := some Runtime.name, version := some Runtime.version }

/-- The free memory is not known and one task is counted. A time that is too long to be told is the
longest that can be. -/
def status (uptimeMillis : Nat) : SystemStatus :=
  ⟨0, 1, if uptimeMillis < Nat.pow 2 63 then .ofNat uptimeMillis else .maxValue⟩

def facts (site : Site) (uptimeMillis : Nat) (w : Workstation) : Facts :=
  { cpu := cpu site, os := os site, system := w.identity, image, status := status uptimeMillis,
    storage := w.storage }

/-- A scan is only played, and never fails. -/
def scan : Outcome := .ok ()

end Workstation

/-! ## Batteries -/

inductive BatteryState
  | idle | charging | discharging | idleOrCharging | failure | removed | unknown
deriving DecidableEq, Repr

/-- The wire code carried in the status field. -/
def BatteryState.code : BatteryState → String
  | idle => "Idle"
  | charging => "Charging"
  | discharging => "Discharging"
  | idleOrCharging => "EitherIdleOrCharging"
  | failure => "Failure"
  | removed => "Removed"
  | unknown => "Unknown"

structure BatteryStatus where
  slot : String
  level : Double
  levelError : Double
  state : BatteryState
deriving DecidableEq, Repr

end TelemetryAgent
