import TelemetryAgent.Double
import TelemetryAgent.Text.Numeral

/-!
# Shortest decimals

The decimal with the fewest digits that reads back as a given binary number; of two such, the
nearer one, and of two equally near, the one with an even last digit. All tests are exact: a
decimal reads back as `v` if it lies in the interval of the reals that round to `v`, whose ends
belong to it when the significand is even.
-/
namespace TelemetryAgent.Decimal

/-- The decimal `digits * 10 ^ exponent`. -/
structure Scaled where
  digits : Nat
  exponent : Int
deriving DecidableEq, Repr

/-- A positive number as `value / unit`, with the ends `low / unit` and `high / unit` of the
interval of the reals that round to it. -/
structure Target where
  low : Nat
  value : Nat
  high : Nat
  unit : Nat
  closed : Bool
deriving DecidableEq, Repr

namespace Target

/-- All three are written in quarters of the last place of the significand. -/
def ofMagnitude (m : Double.Magnitude) : Target :=
  let up := Nat.pow 2 (m.exponent - 2).toNat
  let down := Nat.pow 2 (2 - m.exponent).toNat
  { low := (4 * m.significand - if m.narrow then 1 else 2) * up
    value := 4 * m.significand * up
    high := (4 * m.significand + 2) * up
    unit := down
    closed := m.significand % 2 == 0 }

/-- The exponent of the first decimal digit of the value. -/
def leading (t : Target) : Int :=
  if t.unit ≤ t.value then (Text.natural (t.value / t.unit)).length - 1
  else -((Text.natural ((t.unit + t.value - 1) / t.value - 1)).length : Int)

/-- Whether `digits * 10 ^ exponent` reads back as the value. -/
def admits (t : Target) (digits : Nat) (exponent : Int) : Bool :=
  let point := digits * Nat.pow 10 exponent.toNat * t.unit
  let scale := Nat.pow 10 (-exponent).toNat
  if t.closed then decide (t.low * scale ≤ point) && decide (point ≤ t.high * scale)
  else decide (t.low * scale < point) && decide (point < t.high * scale)

/-- The greatest multiple of `10 ^ exponent` that is no greater than the value. -/
def floor (t : Target) (exponent : Int) : Nat :=
  t.value * Nat.pow 10 (-exponent).toNat / (Nat.pow 10 exponent.toNat * t.unit)

/-- The decimal on the grid of `10 ^ exponent` that reads back and is nearest. -/
def onGrid? (t : Target) (exponent : Int) : Option Scaled :=
  let below := t.floor exponent
  match t.admits below exponent, t.admits (below + 1) exponent with
  | false, false => none
  | true, false => some ⟨below, exponent⟩
  | false, true => some ⟨below + 1, exponent⟩
  | true, true =>
    let twice := 2 * t.value * Nat.pow 10 (-exponent).toNat
    let middle := (2 * below + 1) * Nat.pow 10 exponent.toNat * t.unit
    if twice < middle ∨ (twice = middle ∧ below % 2 = 0) then some ⟨below, exponent⟩
    else some ⟨below + 1, exponent⟩

/-- Tries grids of `count` more digits, beginning with that of `10 ^ exponent`. Seventeen digits
always suffice. -/
def search (t : Target) : (count : Nat) → (exponent : Int) → Scaled
  | 0, exponent => ⟨t.floor exponent, exponent⟩
  | count + 1, exponent =>
    match t.onGrid? exponent with
    | some s => s
    | none => search t count (exponent - 1)

end Target

/-- Moves the zeros at the end of the digits into the exponent, `count` at most. -/
def Scaled.strip : (count : Nat) → Scaled → Scaled
  | 0, s => s
  | count + 1, s =>
    if s.digits % 10 = 0 then strip count ⟨s.digits / 10, s.exponent + 1⟩ else s

/-- The shortest decimal for a magnitude other than zero. -/
def shortest (m : Double.Magnitude) : Scaled :=
  let t := Target.ofMagnitude m
  (t.search 17 t.leading).strip 20

end TelemetryAgent.Decimal
