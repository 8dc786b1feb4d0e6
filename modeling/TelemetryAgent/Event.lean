import TelemetryAgent.Value

/-!
# Inbound events

What a session delivers to its callbacks.
-/
namespace TelemetryAgent

/-- Where on the wire a value belongs. -/
structure Endpoint where
  interface : String
  path : String
deriving DecidableEq, Repr

inductive Event
  | connected (sessionPresent : Bool)
  | disconnected
  | individual (target : Endpoint) (value : Value)
  | object (target : Endpoint) (fields : Fields)
  | propertySet (target : Endpoint) (value : Value)
  | propertyUnset (target : Endpoint)
deriving DecidableEq, Repr

end TelemetryAgent
