import TelemetryAgent.Json.Tree

/-!
# Values

What properties and datastreams carry.
-/
namespace TelemetryAgent

inductive Value
  | boolean (b : Bool)
  | integer (i : Int32)
  | longInteger (i : Int64)
  | double (d : Double)
  | text (s : String)
deriving DecidableEq, Repr

namespace Value

/-- Either integer shape, widened. -/
def integer? : Value → Option Int64
  | .integer i => some i.toInt64
  | .longInteger i => some i
  | _ => none

def boolean? : Value → Option Bool
  | .boolean b => some b
  | _ => none

def text? : Value → Option String
  | .text s => some s
  | _ => none

def toJson : Value → Json
  | .boolean b => .bool b
  | .integer i => .integer i.toInt
  | .longInteger i => .integer i.toInt
  | .double d => .double d
  | .text s => .text s

end Value

/-- The fields of an aggregated object, in order; a name may occur more than once. -/
abbrev Fields := List (String × Value)

namespace Fields

/-- The value of the first field with a name. -/
def find? (fields : Fields) (name : String) : Option Value :=
  (List.find? (fun field => field.1 == name) fields).map Prod.snd

/-- Puts a field at its place among fields with increasing names, over one of the same name. -/
def put (name : String) (value : Value) : Fields → Fields
  | [] => [(name, value)]
  | (other, held) :: rest =>
    if name = other then (name, value) :: rest
    else if name < other then (name, value) :: (other, held) :: rest
    else (other, held) :: put name value rest

/-- The fields by increasing names, with the last value for each name. -/
def sorted (fields : Fields) : Fields :=
  fields.foldl (fun acc field => put field.1 field.2 acc) []

def toJson (fields : Fields) : Json :=
  .record (fields.sorted.map fun (name, value) => (name, value.toJson))

end Fields
end TelemetryAgent
