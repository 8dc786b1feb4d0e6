import TelemetryAgent.Text.Numeral
import TelemetryAgent.Text.Split

/-!
# Spans of time

Whole seconds and nanoseconds below one second. A span is written in its largest unit that
is not zero, with as many decimal places as it needs.
-/
namespace TelemetryAgent

structure Interval where
  seconds : Nat
  nanos : Nat := 0
deriving DecidableEq, Repr

namespace Interval

/-- Nanoseconds beyond one second are carried into the seconds. -/
def ofParts (seconds nanos : Nat) : Interval :=
  ⟨seconds + nanos / 1000000000, nanos % 1000000000⟩

def ofMillis (ms : Nat) : Interval := ⟨ms / 1000, ms % 1000 * 1000000⟩

def toNanos (i : Interval) : Nat := i.seconds * 1000000000 + i.nanos

def isZero (i : Interval) : Bool := i.seconds == 0 && i.nanos == 0

/-- A whole number and a fraction of `places` digits, without trailing zeros. -/
def mixed (whole fraction places : Nat) : List Char :=
  let digits := Text.natural fraction
  let padded := List.replicate (places - digits.length) '0' ++ digits
  match Text.trimEnd (· == '0') padded with
  | [] => Text.natural whole
  | kept => Text.natural whole ++ '.' :: kept

def text (i : Interval) : String :=
  let n := i.nanos
  if 0 < i.seconds then String.ofList (mixed i.seconds n 9) ++ "s"
  else if 1000000 ≤ n then String.ofList (mixed (n / 1000000) (n % 1000000) 6) ++ "ms"
  else if 1000 ≤ n then String.ofList (mixed (n / 1000) (n % 1000) 3) ++ "µs"
  else String.ofList (Text.natural n) ++ "ns"

end Interval
end TelemetryAgent
