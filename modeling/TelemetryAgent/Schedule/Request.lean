import TelemetryAgent.Kind
import TelemetryAgent.Fault
import TelemetryAgent.Text.Split

/-!
# Request paths

A configuration request names a kind and a field of its entry by the path
`/request/<interface>/<field>`. Fields other than the two known ones are legal and have no
effect.
-/
namespace TelemetryAgent

inductive ConfigField
  | enable | periodSeconds | other
deriving DecidableEq, Repr

def ConfigField.ofName (name : List Char) : ConfigField :=
  if name = "enable".toList then enable
  else if name = "periodSeconds".toList then periodSeconds
  else other

namespace Request

/-- What every request path begins with. -/
def root : List Char := "/request/".toList

def read? (path : List Char) : Option (Kind × ConfigField) := do
  let rest ← Text.after? root path
  let (interface, field) ← Text.splitFirst '/' rest
  if interface = [] ∨ field = [] ∨ '/' ∈ field then none
  else
    let kind ← Kind.ofInterface? (String.ofList interface)
    return (kind, ConfigField.ofName field)

def parse (path : String) : Except Fault (Kind × ConfigField) :=
  match read? path.toList with
  | some request => .ok request
  | none => .error .unsupportedRequest

end Request
end TelemetryAgent
