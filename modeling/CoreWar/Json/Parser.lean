import CoreWar.Json.Value
import CoreWar.Text.Decimal

/-!
Contract: reading JSON text, strictly by RFC 8259.

Owns:
- blanks, literals, numbers, strings, arrays and objects;
- the value of a whole text, with nothing but blanks around it.

Does not own: which values a reader accepts, see `CoreWar.Json.Record`.

Each reader answers what it read and the text behind it. The readers of values take the number of
steps they may use; twice the length of a text is enough for it.
-/

namespace CoreWar.Json

/-- Blanks between tokens. -/
def isBlank (character : Char) : Bool :=
  character == ' ' || character == '\t' || character == '\n' || character == '\r'

def skipBlanks (text : List Char) : List Char :=
  text.dropWhile isBlank

/-! ## Strings -/

/-- The value of a hexadecimal digit in either case. -/
def hexDigit? (digit : Char) : Option Nat :=
  if '0' ≤ digit ∧ digit ≤ '9' then some (digit.toNat - '0'.toNat)
  else if 'a' ≤ digit ∧ digit ≤ 'f' then some (digit.toNat - 'a'.toNat + 10)
  else if 'A' ≤ digit ∧ digit ≤ 'F' then some (digit.toNat - 'A'.toNat + 10)
  else none

/-- The code unit of four hexadecimal digits. -/
def hexUnit? (first second third fourth : Char) : Option Nat := do
  let first ← hexDigit? first
  let second ← hexDigit? second
  let third ← hexDigit? third
  let fourth ← hexDigit? fourth
  return first * 4096 + second * 256 + third * 16 + fourth

/-- The character that stands behind a backslash for another one. -/
def escaped? : Char → Option Char
  | '"' => some '"'
  | '\\' => some '\\'
  | '/' => some '/'
  | 'b' => some '\x08'
  | 'f' => some '\x0c'
  | 'n' => some '\n'
  | 'r' => some '\r'
  | 't' => some '\t'
  | _ => none

/-- The code points of a string up to its closing quotation mark. An escaped surrogate counts as a
code point of its own. -/
def stringCodes : List Char → Option (List Nat × List Char)
  | [] => none
  | '"' :: rest => some ([], rest)
  | '\\' :: 'u' :: first :: second :: third :: fourth :: rest => do
    let code ← hexUnit? first second third fourth
    let (codes, rest) ← stringCodes rest
    return (code :: codes, rest)
  | '\\' :: character :: rest => do
    let character ← escaped? character
    let (codes, rest) ← stringCodes rest
    return (character.toNat :: codes, rest)
  | character :: rest =>
    if character == '\\' || character.toNat < 0x20 then
      none
    else do
      let (codes, rest) ← stringCodes rest
      return (character.toNat :: codes, rest)

def isHighSurrogate (code : Nat) : Bool :=
  0xD800 ≤ code && code ≤ 0xDBFF

def isLowSurrogate (code : Nat) : Bool :=
  0xDC00 ≤ code && code ≤ 0xDFFF

/-- The code point of a surrogate pair. -/
def surrogatePair (high low : Nat) : Nat :=
  0x10000 + (high - 0xD800) * 0x400 + (low - 0xDC00)

/-- The characters that code points spell, surrogates in pairs; none if one is unpaired. -/
def unicode? : List Nat → Option (List Char)
  | [] => some []
  | high :: low :: rest =>
    if isHighSurrogate high && isLowSurrogate low then
      (unicode? rest).map (Char.ofNat (surrogatePair high low) :: ·)
    else if isHighSurrogate high || isLowSurrogate high then
      none
    else
      (unicode? (low :: rest)).map (Char.ofNat high :: ·)
  | [code] =>
    if isHighSurrogate code || isLowSurrogate code then none else some [Char.ofNat code]

/-- Reads a string behind its opening quotation mark. -/
def readText (text : List Char) : Option (Content × List Char) := do
  let (codes, rest) ← stringCodes text
  return ((unicode? codes).map String.ofList, rest)

/-! ## Numbers -/

/-- Reads digits, at least one. -/
def readDigits (text : List Char) : Option (List Char × List Char) :=
  match text.span Char.isDigit with
  | ([], _) => none
  | (digits, rest) => some (digits, rest)

/-- Reads the digits before the point: a zero stands alone. -/
def readWhole (text : List Char) : Option (List Char × List Char) := do
  match ← readDigits text with
  | ('0' :: _ :: _, _) => none
  | (digits, rest) => some (digits, rest)

/-- Reads the digits behind a point, if there is a point. -/
def readFraction : List Char → Option (Option (List Char) × List Char)
  | '.' :: text => do
    let (digits, rest) ← readDigits text
    return (some digits, rest)
  | text => some (none, text)

/-- Reads a sign, which need not be there. -/
def readSign : List Char → Bool × List Char
  | '-' :: text => (true, text)
  | '+' :: text => (false, text)
  | text => (false, text)

/-- Reads an exponent, if there is one. -/
def readExponent : List Char → Option (Option Int × List Char)
  | [] => some (none, [])
  | character :: text =>
    if character == 'e' || character == 'E' then do
      let (negative, text) := readSign text
      let (digits, rest) ← readDigits text
      let magnitude : Int := Nat.ofDigitChars 10 digits 0
      return (some (if negative then -magnitude else magnitude), rest)
    else
      some (none, character :: text)

/-- The number with these parts. -/
def Number.ofParts
    (negative : Bool)
    (whole : List Char)
    (fraction : Option (List Char))
    (exponent : Option Int) :
    Number :=
  match fraction, exponent with
  | none, none => .integer negative (Nat.ofDigitChars 10 whole 0)
  | _, _ =>
    .decimal negative (Nat.ofDigitChars 10 whole 0) (digitsOf (fraction.getD [])) (exponent.getD 0)

/-- Reads a number behind its sign. -/
def readMagnitude (negative : Bool) (text : List Char) : Option (Number × List Char) := do
  let (whole, text) ← readWhole text
  let (fraction, text) ← readFraction text
  let (exponent, text) ← readExponent text
  return (.ofParts negative whole fraction exponent, text)

def readNumber : List Char → Option (Number × List Char)
  | '-' :: text => readMagnitude true text
  | text => readMagnitude false text

/-! ## Values -/

mutual

/-- Reads a value; blanks may stand in front of it. -/
def readValue : Nat → List Char → Option (Value × List Char)
  | 0, _ => none
  | fuel + 1, text =>
    match skipBlanks text with
    | 'n' :: 'u' :: 'l' :: 'l' :: rest => some (.null, rest)
    | 't' :: 'r' :: 'u' :: 'e' :: rest => some (.bool true, rest)
    | 'f' :: 'a' :: 'l' :: 's' :: 'e' :: rest => some (.bool false, rest)
    | '"' :: rest => (readText rest).map fun (content, rest) => (.text content, rest)
    | '[' :: rest =>
      match skipBlanks rest with
      | ']' :: rest => some (.array [], rest)
      | _ => (readItems fuel rest).map fun (items, rest) => (.array items, rest)
    | '\x7b' :: rest =>
      match skipBlanks rest with
      | '\x7d' :: rest => some (.object [], rest)
      | _ => (readMembers fuel rest).map fun (members, rest) => (.object members, rest)
    | rest => (readNumber rest).map fun (literal, rest) => (.number literal, rest)

/-- Reads the items of an array, at least one, and the bracket that closes it. -/
def readItems : Nat → List Char → Option (List Value × List Char)
  | 0, _ => none
  | fuel + 1, text => do
    let (item, rest) ← readValue fuel text
    match skipBlanks rest with
    | ',' :: rest =>
      let (items, rest) ← readItems fuel rest
      return (item :: items, rest)
    | ']' :: rest => return ([item], rest)
    | _ => none

/-- Reads the members of an object, at least one, and the brace that closes it. -/
def readMembers : Nat → List Char → Option (List (Content × Value) × List Char)
  | 0, _ => none
  | fuel + 1, text =>
    match skipBlanks text with
    | '"' :: rest => do
      let (key, rest) ← readText rest
      match skipBlanks rest with
      | ':' :: rest =>
        let (value, rest) ← readValue fuel rest
        match skipBlanks rest with
        | ',' :: rest =>
          let (members, rest) ← readMembers fuel rest
          return ((key, value) :: members, rest)
        | '\x7d' :: rest => return ([(key, value)], rest)
        | _ => none
      | _ => none
    | _ => none

end

/-- The value of a text. -/
def parse? (text : List Char) : Option Value := do
  let (value, rest) ← readValue (2 * text.length + 2) text
  if (skipBlanks rest).isEmpty then some value else none

end CoreWar.Json
