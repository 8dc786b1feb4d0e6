/-!
# Double precision numbers

An agent carries binary64 numbers and writes them, and never computes with them, so a number
is kept as its bits. `Double.magnitude?` reads the bits of a finite number as a whole
significand and a power of two.
-/
namespace TelemetryAgent

structure Double where
  bits : UInt64
deriving DecidableEq, Repr

namespace Double

def negative (d : Double) : Bool := decide (Nat.pow 2 63 ≤ d.bits.toNat)

/-- The eleven bits of the biased exponent. -/
def biased (d : Double) : Nat := d.bits.toNat / Nat.pow 2 52 % Nat.pow 2 11

/-- The fifty-two bits of the stored fraction. -/
def fraction (d : Double) : Nat := d.bits.toNat % Nat.pow 2 52

/-- The magnitude of a finite number is `significand * 2 ^ exponent`. Next to it below lies a
gap half as wide as the one above exactly if `narrow`. -/
structure Magnitude where
  significand : Nat
  exponent : Int
  narrow : Bool
deriving DecidableEq, Repr

/-- Infinities and not-a-numbers have no magnitude. -/
def magnitude? (d : Double) : Option Magnitude :=
  if d.biased = 2047 then none
  else if d.biased = 0 then some ⟨d.fraction, -1074, false⟩
  else some ⟨Nat.pow 2 52 + d.fraction, d.biased - 1075, d.fraction == 0 && 1 < d.biased⟩

end Double
end TelemetryAgent
