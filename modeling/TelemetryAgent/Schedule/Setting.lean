import TelemetryAgent.Kind
import TelemetryAgent.Fault
import TelemetryAgent.Text.Numeral
import TelemetryAgent.Text.Split
import TelemetryAgent.Wire.Varint

/-!
# Stored settings

An entry is kept as two leaves, its period under `<ordinal>/periods` and its flag under
`<ordinal>/enable`. An ordinal may be spelled with a plus sign and leading zeros, and bytes
after a value are not looked at.
-/
namespace TelemetryAgent

/-- What one leaf says. -/
inductive Setting
  | period (seconds : Int64)
  | enable (flag : Bool)
deriving DecidableEq, Repr

namespace Setting

/-- The part of the store that holds the settings of all kinds. -/
def subtree : String := "telemetry"

def key (k : Kind) : Setting → String
  | .period _ => String.ofList (Text.natural k.ordinal ++ "/periods".toList)
  | .enable _ => String.ofList (Text.natural k.ordinal ++ "/enable".toList)

def encode : Setting → Bytes
  | .period seconds => Wire.writeLong seconds
  | .enable flag => Wire.writeBool flag

/-- Digits with an optional plus sign, of a value that fits one byte. -/
def readOrdinal? (s : List Char) : Option Nat :=
  let digits := match s with
    | '+' :: rest => rest
    | s => s
  match Text.natural? digits with
  | some n => if n < 256 then some n else none
  | none => none

def decode (key : String) (value : Bytes) : Except Fault (Kind × Setting) :=
  match Text.splitFirst '/' key.toList with
  | none => .error .invalidKind
  | some (ordinal, leaf) =>
    match (readOrdinal? ordinal).bind Kind.ofOrdinal? with
    | none => .error .invalidKind
    | some kind =>
      if leaf = "periods".toList then
        match Wire.readLong? value with
        | some (seconds, _) => .ok (kind, .period seconds)
        | none => .error (.settings .corrupted)
      else if leaf = "enable".toList then
        match Wire.readBool? value with
        | some (flag, _) => .ok (kind, .enable flag)
        | none => .error (.settings .corrupted)
      else .error .invalidKind

end Setting
end TelemetryAgent
