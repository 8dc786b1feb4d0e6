import TelemetryAgent.Text.Numeral

/-!
# Faults

Why an operation failed. A fault is a cause; `message` gives its wording.
-/
namespace TelemetryAgent

/-- What a settings store reports. -/
inductive SettingsFault
  | notFound | corrupted | full | io
deriving DecidableEq, Repr

def SettingsFault.message : SettingsFault → String
  | notFound => "key not found"
  | corrupted => "value corrupted"
  | full => "storage full"
  | io => "I/O error"

/-- What a session reports: a code of its own. -/
structure SessionFault where
  code : Int32
deriving DecidableEq, Repr

def SessionFault.message (f : SessionFault) : String :=
  "session error code " ++ Text.decimal f.code.toInt

/-- Why a host does not spawn a task: it has no room for the stack, or the size of the stack is not
a valid one. -/
inductive SpawnRefusal
  | unavailable | invalidSize
deriving DecidableEq, Repr

def SpawnRefusal.message : SpawnRefusal → String
  | unavailable => "Resource temporarily unavailable (os error 11)"
  | invalidSize => "Invalid argument (os error 22)"

inductive Fault
  | invalidConfiguration (reason : String)
  | transport (cause : SessionFault)
  | settings (cause : SettingsFault)
  | alreadyRunning
  | startFailed
  | stopFailed
  | stopTimeout
  | invalidKind
  | invalidPeriod (seconds : Int64)
  | unsupportedRequest
  | invalidState (reason : String)
deriving DecidableEq, Repr

def Fault.message : Fault → String
  | invalidConfiguration reason => "invalid configuration: " ++ reason
  | transport cause => "transport: " ++ cause.message
  | settings cause => "settings: " ++ cause.message
  | alreadyRunning => "telemetry already running"
  | startFailed => "telemetry start failed"
  | stopFailed => "telemetry stop failed"
  | stopTimeout => "telemetry stop timed out"
  | invalidKind => "invalid telemetry kind"
  | invalidPeriod seconds => "invalid telemetry period " ++ Text.decimal seconds.toInt ++ "s"
  | unsupportedRequest => "unsupported request"
  | invalidState reason => "invalid state: " ++ reason

instance decidableEqExcept {ε α : Type} [DecidableEq ε] [DecidableEq α] : DecidableEq (Except ε α)
  | .ok a, .ok b => decidable_of_iff (a = b) (by simp)
  | .error a, .error b => decidable_of_iff (a = b) (by simp)
  | .ok _, .error _ => isFalse (by simp)
  | .error _, .ok _ => isFalse (by simp)

/-- How an operation without a value ended. -/
abbrev Outcome := Except Fault Unit

namespace Outcome

/-- The outcome of an operation that fails with `f`, or succeeds if there is none. -/
def ofFault? : Option Fault → Outcome
  | none => .ok ()
  | some f => .error f

def fault? : Outcome → Option Fault
  | .ok () => none
  | .error f => some f

end Outcome
end TelemetryAgent
