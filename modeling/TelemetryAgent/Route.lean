import TelemetryAgent.Event
import TelemetryAgent.Interface

/-!
# Routes

The events that an agent serves itself. Which route an event takes depends on its callback and
its endpoint: the same endpoint can be served on one callback and be the caller's on another.
-/
namespace TelemetryAgent

inductive Route
  | command | ledBehavior | otaRequest | telemetryConfig
deriving DecidableEq, Repr

namespace Route

def name : Route → String
  | command => "Command"
  | ledBehavior => "LedBehavior"
  | otaRequest => "OtaRequest"
  | telemetryConfig => "TelemetryConfig"

def ofIndividual? (e : Endpoint) : Option Route :=
  if e.interface = Interface.commands ∧ e.path = "/request" then some command
  else if e.interface = Interface.ledBehavior ∧ e.path = "/indicator/behavior" then
    some ledBehavior
  else none

def ofObject? (e : Endpoint) : Option Route :=
  if e.interface = Interface.otaRequest ∧ e.path = "/request" then some otaRequest else none

/-- Any path of the configuration interface is served. -/
def ofProperty? (e : Endpoint) : Option Route :=
  if e.interface = Interface.telemetryConfig then some telemetryConfig else none

/-- The route of an event, if it is not the caller's. -/
def ofEvent? : Event → Option Route
  | .connected _ => none
  | .disconnected => none
  | .individual target _ => ofIndividual? target
  | .object target _ => ofObject? target
  | .propertySet target _ => ofProperty? target
  | .propertyUnset target => ofProperty? target

end Route

/-- Commands that an agent can be given. -/
inductive Command
  | reboot
deriving DecidableEq, Repr

namespace Command

def name : Command → String
  | reboot => "Reboot"

def ofName? (s : String) : Option Command :=
  if s = "Reboot" then some reboot else none

end Command
end TelemetryAgent
