import TelemetryAgent.Host.Sessions
import TelemetryAgent.Text.Blank

/-!
# Publishing

What each routine has to say about the facts of a platform is a list of transmissions. A
routine makes them in order and stops at the first that fails; a burst runs every routine,
whatever became of the earlier ones.
-/
namespace TelemetryAgent

inductive Transmission
  | property (target : Endpoint) (value : Value)
  | object (target : Endpoint) (fields : Fields)
  | scan
deriving DecidableEq, Repr

namespace Transmission

/-- A property with a text that is known and not empty. -/
def text (interface path : String) : Option String → List Transmission
  | some s => if s = "" then [] else [.property ⟨interface, path⟩ (.text s)]
  | none => []

/-- A property with a value that is known, empty or not. -/
def known (interface path : String) (value : Option Value) : List Transmission :=
  match value with
  | some v => [.property ⟨interface, path⟩ v]
  | none => []

end Transmission

namespace Facts

open Transmission

/-! ## Device information -/

def osInfo (f : Facts) : List Transmission :=
  text Interface.osInfo "/osName" (some f.os.name) ++
  text Interface.osInfo "/osVersion" (some f.os.version)

def systemInfo (f : Facts) : List Transmission :=
  text Interface.systemInfo "/serialNumber" f.system.serialNumber ++
  text Interface.systemInfo "/partNumber" f.system.partNumber

def baseImage (f : Facts) : List Transmission :=
  text Interface.baseImage "/fingerprint" f.image.fingerprint ++
  text Interface.baseImage "/name" f.image.name ++
  text Interface.baseImage "/version" f.image.version ++
  text Interface.baseImage "/buildId" f.image.buildId

/-- Name and version of the system in one text. -/
def environment (f : Facts) : String :=
  String.ofList (Text.trimEnd Text.isBlank (f.os.name ++ " " ++ f.os.version).toList)

def runtimeInfo (f : Facts) : List Transmission :=
  text Interface.runtimeInfo "/name" (some Runtime.name) ++
  text Interface.runtimeInfo "/url" (some Runtime.url) ++
  text Interface.runtimeInfo "/version" (some Runtime.version) ++
  text Interface.runtimeInfo "/environment" (some f.environment)

/-! ## Telemetry -/

def hardwareInfo (interface : String) (f : Facts) : List Transmission :=
  known interface "/cpu/architecture" (some (.text f.cpu.architecture)) ++
  known interface "/cpu/model" (f.cpu.model.map .text) ++
  known interface "/cpu/modelName" (f.cpu.modelName.map .text) ++
  known interface "/cpu/vendor" (f.cpu.vendor.map .text) ++
  known interface "/mem/totalBytes" (f.cpu.totalMemoryBytes.map .longInteger)

def systemStatus (interface bootId : String) (f : Facts) : List Transmission :=
  [.object ⟨interface, "/systemStatus"⟩
    [("availMemoryBytes", .longInteger f.status.availMemoryBytes),
      ("bootId", .text bootId),
      ("taskCount", .integer f.status.taskCount),
      ("uptimeMillis", .longInteger f.status.uptimeMillis)]]

/-- One object for each partition whose free space is known. -/
def storageUsage (interface : String) (f : Facts) : List Transmission :=
  f.storage.filterMap fun usage => usage.freeBytes.map fun free =>
    .object ⟨interface, "/" ++ usage.label⟩
      [("totalBytes", .longInteger usage.totalBytes), ("freeBytes", .longInteger free)]

/-- What there is to say about a kind; nothing can be said about the invalid one. -/
def telemetry? (bootId : String) (k : Kind) (f : Facts) : Option (List Transmission) :=
  k.interface?.bind fun interface =>
    match k with
    | .invalid => none
    | .hardwareInfo => some (f.hardwareInfo interface)
    | .wifiScan => some [.scan]
    | .systemStatus => some (f.systemStatus interface bootId)
    | .storageUsage => some (f.storageUsage interface)

end Facts

/-! ## Transmitting -/

namespace Host

def asOutcome : Except SessionFault Unit → Outcome
  | .ok () => .ok ()
  | .error f => .error (.transport f)

def transmit (session : Nat) (context : Context) (t : Transmission) (h : Host) : Outcome × Host :=
  match t with
  | .property target value =>
    let (r, h) := h.setProperty session context target value
    (asOutcome r, h)
  | .object target fields =>
    let (r, h) := h.streamObject session context target fields
    (asOutcome r, h)
  | .scan => h.startScan context

/-- Transmits in order up to the first failure, which is the outcome. -/
def transmitAll (session : Nat) (context : Context) : List Transmission → Host → Outcome × Host
  | [], h => (.ok (), h)
  | t :: rest, h =>
    match h.transmit session context t with
    | (.error f, h) => (.error f, h)
    | (.ok (), h) => transmitAll session context rest h

/-- Publishes a telemetry kind on a session. -/
def publish (session : Nat) (context : Context) (k : Kind) (h : Host) : Outcome × Host :=
  match h.platform.facts.telemetry? h.platform.bootId k with
  | none => (.error .invalidKind, h)
  | some transmissions => h.transmitAll session context transmissions

def burstStep (session : Nat) (step : BurstStep) (h : Host) : Outcome × Host :=
  let facts := h.platform.facts
  match step with
  | .telemetry k => h.publish session .main k
  | .osInfo => h.transmitAll session .main facts.osInfo
  | .systemInfo => h.transmitAll session .main facts.systemInfo
  | .baseImage => h.transmitAll session .main facts.baseImage
  | .runtimeInfo => h.transmitAll session .main facts.runtimeInfo

/-- Runs every step, and notes those that fail. -/
def burst (session : Nat) (h : Host) : Host :=
  BurstStep.order.foldl
    (fun h step =>
      let (r, h) := h.burstStep session step
      h.noteFailure r (.burstStepFailed step))
    h

/-- Publishes a battery reading under the name of its slot. -/
def publishBattery (session : Nat) (b : BatteryStatus) (h : Host) : Outcome × Host :=
  if b.slot = "" ∨ '/' ∈ b.slot.toList then (.error .invalidKind, h.note (.slotInvalid b.slot))
  else
    h.transmit session .main
      (.object ⟨Interface.batteryStatus, "/" ++ b.slot⟩
        [("levelPercentage", .double b.level), ("levelAbsoluteError", .double b.levelError),
          ("status", .text b.state.code)])

end Host
end TelemetryAgent
