import TelemetryAgent.Text.Numeral
import TelemetryAgent.Double
import TelemetryAgent.Decimal.Shortest

/-!
# JSON values

A JSON text as a tree that keeps numbers and strings as they are spelled: a number is its
literal, a string a list of pieces, where an escape of the form `\uXXXX` is a piece of its own.
What a spelling means is decided where a value is used, so a surrogate without its partner is
part of a well-formed tree and has no text. `Json.render` writes a tree compactly.
-/
namespace TelemetryAgent

/-- One element of a spelled string: a character, or a code unit in hexadecimal. -/
inductive Json.Piece
  | char (c : Char)
  | unit (code : Nat)
deriving DecidableEq, Repr

inductive Json
  | null
  | bool (b : Bool)
  | number (literal : List Char)
  | string (pieces : List Json.Piece)
  | array (items : List Json)
  | object (members : List (List Json.Piece × Json))
deriving Repr

namespace Json

/-- The pieces of a text in which every character stands for itself. -/
def pieces (s : String) : List Piece := s.toList.map .char

def text (s : String) : Json := string (pieces s)

def integer (i : Int) : Json := number (Text.integer i)

/-- An object with the given names and values, in that order. -/
def record (members : List (String × Json)) : Json :=
  object (members.map fun (name, value) => (pieces name, value))

/-! ## Numbers -/

/-- Digits with a point after the first of them and an exponent. -/
def scientific (digits : List Char) (exponent : Int) : List Char :=
  let tail :=
    'e' :: (if 0 ≤ exponent then '+' :: Text.integer exponent else Text.integer exponent)
  match digits with
  | [] => tail
  | [d] => d :: tail
  | d :: rest => d :: '.' :: rest ++ tail

/-- Digits with a point where `exponent` puts it and at least one digit on each side. -/
def positional (digits : List Char) (exponent : Int) : List Char :=
  let whole := exponent + 1
  if whole ≤ 0 then '0' :: '.' :: List.replicate (-whole).toNat '0' ++ digits
  else if (digits.length : Int) ≤ whole then
    digits ++ List.replicate (whole.toNat - digits.length) '0' ++ ['.', '0']
  else digits.take whole.toNat ++ '.' :: digits.drop whole.toNat

/-- Decimals from `10 ^ -5` to below `10 ^ 16` are written positionally. -/
def decimal (s : Decimal.Scaled) : List Char :=
  let digits := Text.natural s.digits
  let leading := s.exponent + digits.length - 1
  if -5 ≤ leading ∧ leading ≤ 15 then positional digits leading else scientific digits leading

/-- Numbers that are not finite have no literal and are written as `null`. -/
def double (d : Double) : Json :=
  match d.magnitude? with
  | none => null
  | some m =>
    let body := if m.significand = 0 then ['0', '.', '0'] else decimal (Decimal.shortest m)
    number (if d.negative then '-' :: body else body)

/-! ## Writing -/

/-- Quotes, backslashes and control characters are escaped; all else stands for itself. -/
def escape (c : Char) : List Char :=
  if c = '"' then ['\\', '"']
  else if c = '\\' then ['\\', '\\']
  else if c.val = 0x08 then ['\\', 'b']
  else if c.val = 0x0C then ['\\', 'f']
  else if c = '\n' then ['\\', 'n']
  else if c = '\r' then ['\\', 'r']
  else if c = '\t' then ['\\', 't']
  else if c.val < 0x20 then '\\' :: 'u' :: Text.hex4 c.toNat
  else [c]

def renderPiece : Piece → List Char
  | .char c => escape c
  | .unit code => '\\' :: 'u' :: Text.hex4 code

def renderString (s : List Piece) : List Char := '"' :: s.flatMap renderPiece ++ ['"']

mutual

def render : Json → List Char
  | null => "null".toList
  | bool true => "true".toList
  | bool false => "false".toList
  | number literal => literal
  | string s => renderString s
  | array items => '[' :: renderItems items ++ [']']
  | object members => '\x7b' :: renderMembers members ++ ['\x7d']

def renderItems : List Json → List Char
  | [] => []
  | [item] => render item
  | item :: rest => render item ++ ',' :: renderItems rest

def renderMembers : List (List Piece × Json) → List Char
  | [] => []
  | [(name, value)] => renderString name ++ ':' :: render value
  | (name, value) :: rest => renderString name ++ ':' :: render value ++ ',' :: renderMembers rest

end

def write (j : Json) : String := String.ofList j.render

end Json
end TelemetryAgent
