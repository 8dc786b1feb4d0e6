import TelemetryAgent.Fault
import TelemetryAgent.Kind
import TelemetryAgent.Route
import TelemetryAgent.Wire.Varint

/-!
# Calls

What an agent asks of the host it runs on, one constructor for each kind of request. A call is
recorded when it is made, also if it then fails.
-/
namespace TelemetryAgent

/-- An agent publishes from its caller's context and from its worker's. -/
inductive Context
  | main | worker
deriving DecidableEq, Repr

inductive Call
  | load (subtree : String)
  | save (subtree key : String) (value : Bytes)
  /-- There is no timer if the creation failed. -/
  | timerCreate (timer : Option Nat) (k : Kind)
  | timerStart (timer seconds : Nat)
  | timerStop (timer : Nat)
  | timerRelease (timer : Nat)
  | sessionOpen (session : Nat)
  | sessionConnect (session : Nat)
  | sessionPoll (session : Nat)
  | sessionDisconnect (session timeoutMillis : Nat)
  | property (session : Nat) (target : Endpoint) (value : Value) (context : Context)
  | object (session : Nat) (target : Endpoint) (fields : Fields) (context : Context)
  | wifiScan (context : Context)
  /-- A kind handed to a publisher that does nothing but take note of it. -/
  | handed (publisher : Nat) (k : Kind)
  | callback (event : Event)
  | command (c : Command)
  | led (behavior : String)
  | ota (fields : Fields) (operation : Option Value)
deriving DecidableEq, Repr

end TelemetryAgent
