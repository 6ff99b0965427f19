import CoreWar.Json.Value
import CoreWar.Text.Decimal

/-!
Contract: writing JSON text, without blanks.

Owns:
- the escapes of strings;
- the text of a value, members in their order.

Does not own: which members a record has, see the modules of `CoreWar.Codec`.
-/

namespace CoreWar.Json

/-! ## Strings -/

/-- A character below the space, by its number. -/
def controlEscape (character : Char) : List Char :=
  ['\\', 'u', '0', '0', Nat.digitChar (character.toNat / 16), Nat.digitChar (character.toNat % 16)]

/-- One character inside a string. -/
def escapeChar (character : Char) : List Char :=
  match character with
  | '"' => ['\\', '"']
  | '\\' => ['\\', '\\']
  | '\x08' => ['\\', 'b']
  | '\x0c' => ['\\', 'f']
  | '\n' => ['\\', 'n']
  | '\r' => ['\\', 'r']
  | '\t' => ['\\', 't']
  | _ => if character.toNat < 0x20 then controlEscape character else [character]

/-- The string between quotation marks. A string that is no Unicode text is written as one unpaired
surrogate. -/
def renderText : Content → List Char
  | some content => '"' :: content.toList.flatMap escapeChar ++ ['"']
  | none => "\"\\ud800\"".toList

/-! ## Numbers -/

def renderSign (negative : Bool) : List Char :=
  if negative then ['-'] else []

/-- The digits behind a point; without digits there is no point. -/
def renderFraction : List (Fin 10) → List Char
  | [] => []
  | digits => '.' :: digits.map fun digit => Nat.digitChar digit.val

def renderNumber : Number → List Char
  | .integer negative magnitude => renderSign negative ++ Text.decimal magnitude
  | .decimal negative whole fraction exponent =>
    renderSign negative ++ Text.decimal whole ++ renderFraction fraction ++ ['e'] ++
      renderSign (exponent < 0) ++ Text.decimal exponent.natAbs

/-! ## Values -/

mutual

/-- The text of a value. -/
def render : Value → List Char
  | .null => "null".toList
  | .bool true => "true".toList
  | .bool false => "false".toList
  | .number literal => renderNumber literal
  | .text content => renderText content
  | .array items => '[' :: renderItems items ++ [']']
  | .object members => '\x7b' :: renderMembers members ++ ['\x7d']

/-- The items of an array, with commas between them. -/
def renderItems : List Value → List Char
  | [] => []
  | [item] => render item
  | item :: rest => render item ++ ',' :: renderItems rest

/-- The members of an object, with commas between them. -/
def renderMembers : List (Content × Value) → List Char
  | [] => []
  | [(key, value)] => renderText key ++ ':' :: render value
  | (key, value) :: rest => renderText key ++ ':' :: render value ++ ',' :: renderMembers rest

end

/-- The text of a value as a string. -/
def toText (value : Value) : String :=
  String.ofList (render value)

end CoreWar.Json
