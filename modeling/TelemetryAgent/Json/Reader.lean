import TelemetryAgent.Json.Tree

/-!
# Reading JSON

`Json.parse?` accepts the texts of the JSON grammar: one value between optional white space.
Every reading function takes the text that is left and returns what it read with the rest.
Nesting is bounded by a budget that `parse?` sets to more than the length of the text.
-/
namespace TelemetryAgent.Json

def isSpace (c : Char) : Bool := c = ' ' || c = '\n' || c = '\t' || c = '\r'

def skipSpace (s : List Char) : List Char := s.dropWhile isSpace

/-! ## Numbers -/

/-- A non-empty run of digits. -/
def readDigits? (s : List Char) : Option (List Char × List Char) :=
  match s.span Char.isDigit with
  | ([], _) => none
  | found => some found

/-- A whole number, which begins with a zero only if it is zero. -/
def readWhole? : List Char → Option (List Char × List Char)
  | '0' :: rest =>
    match rest with
    | c :: _ => if c.isDigit then none else some (['0'], rest)
    | [] => some (['0'], [])
  | s => readDigits? s

/-- A point and at least one digit, if there is a point. -/
def readFraction? : List Char → Option (List Char × List Char)
  | '.' :: rest => (readDigits? rest).map fun (digits, rest) => ('.' :: digits, rest)
  | s => some ([], s)

/-- A mark, an optional sign and at least one digit, if there is a mark. -/
def readExponent? : List Char → Option (List Char × List Char)
  | c :: rest =>
    if c = 'e' ∨ c = 'E' then
      match rest with
      | '+' :: rest => (readDigits? rest).map fun (digits, rest) => (c :: '+' :: digits, rest)
      | '-' :: rest => (readDigits? rest).map fun (digits, rest) => (c :: '-' :: digits, rest)
      | rest => (readDigits? rest).map fun (digits, rest) => (c :: digits, rest)
    else some ([], c :: rest)
  | [] => some ([], [])

def readUnsigned? (s : List Char) : Option (List Char × List Char) := do
  let (whole, s) ← readWhole? s
  let (fraction, s) ← readFraction? s
  let (exponent, s) ← readExponent? s
  return (whole ++ fraction ++ exponent, s)

/-- The literal of a number. -/
def readNumber? : List Char → Option (List Char × List Char)
  | '-' :: rest => (readUnsigned? rest).map fun (literal, rest) => ('-' :: literal, rest)
  | s => readUnsigned? s

/-! ## Strings -/

/-- The character that a one-letter escape stands for. -/
def unescape? : Char → Option Char
  | '"' => some '"'
  | '\\' => some '\\'
  | '/' => some '/'
  | 'b' => some (Char.ofNat 0x08)
  | 'f' => some (Char.ofNat 0x0C)
  | 'n' => some '\n'
  | 'r' => some '\r'
  | 't' => some '\t'
  | _ => none

/-- The rest of a string after its opening quote. Control characters must be escaped. -/
def readPieces? : List Char → Option (List Piece × List Char)
  | [] => none
  | '"' :: rest => some ([], rest)
  | '\\' :: 'u' :: a :: b :: c :: d :: rest => do
    let a ← Text.hexDigit? a
    let b ← Text.hexDigit? b
    let c ← Text.hexDigit? c
    let d ← Text.hexDigit? d
    let (found, rest) ← readPieces? rest
    return (.unit (4096 * a + 256 * b + 16 * c + d) :: found, rest)
  | '\\' :: c :: rest => do
    let c ← unescape? c
    let (found, rest) ← readPieces? rest
    return (.char c :: found, rest)
  | c :: rest =>
    if c = '\\' ∨ c.val < 0x20 then none
    else (readPieces? rest).map fun (found, rest) => (.char c :: found, rest)

/-- The text that pieces spell. A high surrogate must be followed by a low one, and the two stand
for one character; a surrogate that stands alone spells nothing. -/
def spelled? : List Piece → Option (List Char)
  | [] => some []
  | .char c :: rest => (spelled? rest).map (c :: ·)
  | .unit high :: rest =>
    if 0xD800 ≤ high ∧ high < 0xDC00 then
      match rest with
      | .unit low :: rest =>
        if 0xDC00 ≤ low ∧ low < 0xE000 then
          (spelled? rest).map
            (Char.ofNat (0x10000 + 0x400 * (high - 0xD800) + (low - 0xDC00)) :: ·)
        else none
      | _ => none
    else if 0xDC00 ≤ high ∧ high < 0xE000 then none
    else (spelled? rest).map (Char.ofNat high :: ·)

/-! ## Values -/

mutual

/-- A value that begins with the first character. -/
def readValue? : (budget : Nat) → List Char → Option (Json × List Char)
  | 0, _ => none
  | budget + 1, s =>
    match s with
    | 'n' :: 'u' :: 'l' :: 'l' :: rest => some (null, rest)
    | 't' :: 'r' :: 'u' :: 'e' :: rest => some (bool true, rest)
    | 'f' :: 'a' :: 'l' :: 's' :: 'e' :: rest => some (bool false, rest)
    | '"' :: rest => (readPieces? rest).map fun (found, rest) => (string found, rest)
    | '[' :: rest =>
      match skipSpace rest with
      | ']' :: rest => some (array [], rest)
      | rest => (readItems? budget rest).map fun (items, rest) => (array items, rest)
    | '\x7b' :: rest =>
      match skipSpace rest with
      | '\x7d' :: rest => some (object [], rest)
      | rest => (readMembers? budget rest).map fun (members, rest) => (object members, rest)
    | s => (readNumber? s).map fun (literal, rest) => (number literal, rest)

/-- One item or more, and the bracket that closes them. -/
def readItems? : (budget : Nat) → List Char → Option (List Json × List Char)
  | 0, _ => none
  | budget + 1, s => do
    let (item, s) ← readValue? budget s
    match skipSpace s with
    | ']' :: rest => some ([item], rest)
    | ',' :: rest => do
      let (items, rest) ← readItems? budget (skipSpace rest)
      return (item :: items, rest)
    | _ => none

/-- One member or more, and the brace that closes them. -/
def readMembers? : (budget : Nat) → List Char → Option (List (List Piece × Json) × List Char)
  | 0, _ => none
  | budget + 1, s =>
    match s with
    | '"' :: rest => do
      let (name, s) ← readPieces? rest
      match skipSpace s with
      | ':' :: s => do
        let (value, s) ← readValue? budget (skipSpace s)
        match skipSpace s with
        | '\x7d' :: rest => some ([(name, value)], rest)
        | ',' :: rest => do
          let (members, rest) ← readMembers? budget (skipSpace rest)
          return ((name, value) :: members, rest)
        | _ => none
      | _ => none
    | _ => none

end

/-- The value of a whole text. -/
def parse? (s : List Char) : Option Json := do
  let (value, rest) ← readValue? (2 * s.length + 2) (skipSpace s)
  if skipSpace rest = [] then some value else none

end TelemetryAgent.Json
