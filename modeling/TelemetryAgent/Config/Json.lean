import TelemetryAgent.Config
import TelemetryAgent.Json.Reader

/-!
# Configuration as JSON

A configuration is written as an object with its fields in order. It is read from an object
whose names may come in any order, each once, with unknown names passed over; or from an array
of the fields in order. A kind is its name, or an object with the name as its only member and
`null` as the value.
-/
namespace TelemetryAgent

/-! ## Writing -/

def Kind.toJson (k : Kind) : Json := .text k.name

def BaselineItem.toJson (item : BaselineItem) : Json :=
  .record [("kind", item.kind.toJson), ("period_seconds", .integer item.period.toInt)]

def WorkerConfig.toJson (w : WorkerConfig) : Json :=
  .record [("queue_poll_interval_ms", .integer w.pollMillis.toNat),
    ("stack_size_bytes", .integer w.stackBytes.toNat),
    ("priority", .integer w.priority.toNat)]

def Config.toJson (c : Config) : Json :=
  .record [("telemetry", .array (c.telemetry.map BaselineItem.toJson)),
    ("worker", c.worker.toJson),
    ("disconnect_timeout_ms", .integer c.disconnectMillis.toNat)]

/-! ## Reading -/

namespace Json

/-- The whole number of a literal without fraction and exponent; `-0` is none. -/
def integer? : Json → Option Int
  | .number ('-' :: digits) =>
    match Text.natural? digits with
    | some (n + 1) => some (.negSucc n)
    | _ => none
  | .number digits => (Text.natural? digits).map .ofNat
  | _ => none

/-- A natural number below `bound`. -/
def below? (bound : Nat) (j : Json) : Option Nat :=
  match j.integer? with
  | some (.ofNat n) => if n < bound then some n else none
  | _ => none

def long? (j : Json) : Option Int64 :=
  match j.integer? with
  | some i => if Int64.minValue.toInt ≤ i ∧ i ≤ Int64.maxValue.toInt then some (Int64.ofInt i) else none
  | none => none

/-- The members of an object by the names they spell. -/
def named? : List (List Piece × Json) → Option (List (String × Json))
  | [] => some []
  | (name, value) :: rest => do
    let name ← spelled? name
    let rest ← named? rest
    return ((String.ofList name, value) :: rest)

/-- The only value under a name. -/
def single? (members : List (String × Json)) (name : String) : Option Json :=
  match members.filter (·.1 == name) with
  | [(_, value)] => some value
  | _ => none

/-- The values of the fields with the given names, in that order. -/
def fields? (names : List String) : Json → Option (List Json)
  | .array items => if items.length = names.length then some items else none
  | .object members => do
    let members ← named? members
    names.mapM (single? members)
  | _ => none

end Json

def Kind.ofPieces? (s : List Json.Piece) : Option Kind :=
  (Json.spelled? s).bind fun name => Kind.ofName? (String.ofList name)

def Kind.ofJson? : Json → Option Kind
  | .string s => Kind.ofPieces? s
  | .object [(name, .null)] => Kind.ofPieces? name
  | _ => none

def BaselineItem.ofJson? (j : Json) : Option BaselineItem :=
  match j.fields? ["kind", "period_seconds"] with
  | some [kind, period] => do
    let kind ← Kind.ofJson? kind
    let period ← period.long?
    return ⟨kind, period⟩
  | _ => none

def WorkerConfig.ofJson? (j : Json) : Option WorkerConfig :=
  match j.fields? ["queue_poll_interval_ms", "stack_size_bytes", "priority"] with
  | some [poll, stack, priority] => do
    let poll ← poll.below? UInt32.size
    let stack ← stack.below? UInt64.size
    let priority ← priority.below? UInt8.size
    return ⟨UInt32.ofNat poll, UInt64.ofNat stack, UInt8.ofNat priority⟩
  | _ => none

def Config.ofJson? (j : Json) : Option Config :=
  match j.fields? ["telemetry", "worker", "disconnect_timeout_ms"] with
  | some [.array telemetry, worker, timeout] => do
    let telemetry ← telemetry.mapM BaselineItem.ofJson?
    let worker ← WorkerConfig.ofJson? worker
    let timeout ← timeout.below? UInt32.size
    return ⟨telemetry, worker, UInt32.ofNat timeout⟩
  | _ => none

/-- Reads a whole text. -/
def Config.parse? (s : String) : Option Config := (Json.parse? s.toList).bind Config.ofJson?

end TelemetryAgent
