import TelemetryAgent.Burst
import TelemetryAgent.Fault
import TelemetryAgent.Interval
import TelemetryAgent.Route

/-!
# Notices

What an agent tells its log. A notice is a cause with its details; `line` gives the level and
the wording.
-/
namespace TelemetryAgent

inductive Notice
  | settingSkipped (key : String) (cause : Fault)
  | loadFailed (cause : SettingsFault)
  | persistFailed (k : Kind) (cause : SettingsFault)
  | disarmFailed (k : Kind) (cause : Fault)
  | periodNotPositive (k : Kind) (seconds : Int64)
  | armFailed (k : Kind) (cause : Fault)
  | unsetWithoutEntry (k : Kind)
  | alreadyRunning
  | taskRefused (cause : SpawnRefusal)
  | spawnFailed
  | notScheduled (k : Kind) (cause : Fault)
  | workerPanicked
  | workerStillBusy (waited : Interval)
  | burstStepFailed (step : BurstStep) (cause : Fault)
  | slotInvalid (slot : String)
  | openFailed (cause : SessionFault)
  | connectFailed (cause : SessionFault)
  | disconnectFailed (cause : SessionFault)
  | destroyFailed (cause : Fault)
  | dropFailed (cause : Fault)
  | requestFailed (route : Route) (target : Endpoint) (cause : Fault)
  | periodOutOfRange (timer : String) (period : Interval)
  | timerPanicked (timer : String)
  | sessionConnecting
  | sessionDisconnected
  | sessionProperty (target : Endpoint) (value : Value)
  | sessionIndividual (target : Endpoint) (value : Value)
  | sessionObject (target : Endpoint) (fields : Fields)
deriving DecidableEq, Repr

namespace Notice

def sessionLine (form : String) (target : Endpoint) (payload : Json) : String :=
  "INFO Session: " ++ form ++ " " ++ target.interface ++ target.path ++ " " ++ payload.write

def line : Notice → String
  | settingSkipped key cause =>
    "WARN Telemetry: skipping setting '" ++ key ++ "': " ++ cause.message
  | loadFailed cause => "WARN Telemetry: settings load failed: " ++ cause.message
  | persistFailed k cause =>
    "WARN Telemetry: failed to persist " ++ k.name ++ ": " ++ cause.message
  | disarmFailed k cause =>
    "WARN Telemetry: failed to disarm " ++ k.name ++ ": " ++ cause.message
  | periodNotPositive k seconds =>
    "WARN Telemetry: " ++ k.name ++ " has non-positive period " ++ Text.decimal seconds.toInt ++
      "s, not armed"
  | armFailed k cause => "ERROR Telemetry: failed to arm " ++ k.name ++ ": " ++ cause.message
  | unsetWithoutEntry k => "WARN Telemetry: unset for " ++ k.name ++ " without an entry"
  | alreadyRunning => "WARN Telemetry: start requested while already running"
  | taskRefused cause => "ERROR Task: 'telemetry' creation failed: " ++ cause.message
  | spawnFailed => "ERROR Telemetry: worker spawn failed: " ++ Fault.startFailed.message
  | notScheduled k cause =>
    "WARN Telemetry: could not schedule " ++ k.name ++ ": " ++ cause.message
  | workerPanicked => "ERROR Telemetry: worker panicked"
  | workerStillBusy waited => "WARN Telemetry: worker did not exit within " ++ waited.text
  | burstStepFailed step cause =>
    "WARN Publish: initial " ++ step.text ++ " failed: " ++ cause.message
  | slotInvalid slot => "WARN Publish: invalid battery slot '" ++ slot ++ "'"
  | openFailed cause => "ERROR Device: session open failed: " ++ cause.message
  | connectFailed cause => "ERROR Device: connect failed: " ++ cause.message
  | disconnectFailed cause => "ERROR Device: disconnect failed: " ++ cause.message
  | destroyFailed cause => "WARN Device: stop during destroy failed: " ++ cause.message
  | dropFailed cause => "WARN Device: stop on drop failed: " ++ cause.message
  | requestFailed route target cause =>
    "WARN Device: " ++ route.name ++ " request on " ++ target.interface ++ target.path ++
      " failed: " ++ cause.message
  | periodOutOfRange timer period =>
    "ERROR Timer: '" ++ timer ++ "' period " ++ period.text ++ " out of range"
  | timerPanicked timer => "ERROR Timer: '" ++ timer ++ "' thread panicked"
  | sessionConnecting => "INFO Session: connecting"
  | sessionDisconnected => "INFO Session: disconnected"
  | sessionProperty target value => sessionLine "property" target value.toJson
  | sessionIndividual target value => sessionLine "individual" target value.toJson
  | sessionObject target fields => sessionLine "object" target fields.toJson

end Notice
end TelemetryAgent
