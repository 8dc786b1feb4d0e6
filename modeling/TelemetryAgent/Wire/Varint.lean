/-!
# Variable-length numbers

A number is written in groups of seven bits, least first, one byte each; every byte but the
last has its high bit set. A reader accepts padded forms and refuses what does not fit its
width. Signed numbers are interleaved with the naturals first, so that those near zero stay
short.
-/
namespace TelemetryAgent

abbrev Bytes := List UInt8

namespace Wire

/-- The most bytes a number may take, and the greatest value of the byte in the last of these
places. -/
structure Width where
  groups : Nat
  top : Nat
deriving DecidableEq, Repr

def Width.word32 : Width := ⟨5, 15⟩
def Width.word64 : Width := ⟨10, 1⟩

/-- Writes a number below `128 ^ groups`. -/
def encode : (groups : Nat) → Nat → Bytes
  | 0, _ => []
  | groups + 1, n =>
    if n < 128 then [UInt8.ofNat n] else UInt8.ofNat (n % 128 + 128) :: encode groups (n / 128)

/-- Reads a number of at most `groups` bytes, of which the last possible one is at most `top`. -/
def decode? (top : Nat) : (groups : Nat) → Bytes → Option (Nat × Bytes)
  | 0, _ => none
  | _ + 1, [] => none
  | groups + 1, b :: rest =>
    if groups = 0 ∧ top < b.toNat then none
    else if b.toNat < 128 then some (b.toNat, rest)
    else (decode? top groups rest).map fun (n, rest) => (b.toNat - 128 + 128 * n, rest)

def write (w : Width) (n : Nat) : Bytes := encode w.groups n

def read? (w : Width) (bytes : Bytes) : Option (Nat × Bytes) := decode? w.top w.groups bytes

/-! ## Signed numbers -/

/-- `0, -1, 1, -2, …` are numbered `0, 1, 2, 3, …`. -/
def zigzag : Int → Nat
  | .ofNat n => 2 * n
  | .negSucc n => 2 * n + 1

def unzigzag (n : Nat) : Int :=
  if n % 2 = 0 then .ofNat (n / 2) else .negSucc (n / 2)

theorem unzigzag_zigzag (i : Int) : unzigzag (zigzag i) = i := by
  cases i with
  | ofNat n => simp [zigzag, unzigzag]
  | negSucc n =>
    have h : (2 * n + 1) / 2 = n := by omega
    simp [zigzag, unzigzag, h]

def writeLong (i : Int64) : Bytes := write .word64 (zigzag i.toInt)

def readLong? (bytes : Bytes) : Option (Int64 × Bytes) :=
  (read? .word64 bytes).map fun (n, rest) => (Int64.ofInt (unzigzag n), rest)

/-! ## Booleans and single bytes -/

def writeBool (b : Bool) : Bytes := [if b then 1 else 0]

def readBool? : Bytes → Option (Bool × Bytes)
  | b :: rest => if b = 0 then some (false, rest) else if b = 1 then some (true, rest) else none
  | [] => none

def readByte? : Bytes → Option (UInt8 × Bytes)
  | b :: rest => some (b, rest)
  | [] => none

end Wire
end TelemetryAgent
