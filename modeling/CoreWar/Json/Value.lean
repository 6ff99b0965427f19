import CoreWar.Word

/-!
Contract: JSON values.

Owns:
- values as they are written: numbers keep their literal form, members their order and repetitions;
- strings whose escapes hold an unpaired surrogate, which are valid JSON and no Unicode text.

Does not own: the text of a value, see `CoreWar.Json.Parser` and `CoreWar.Json.Printer`.
-/

namespace CoreWar.Json

/-- A number literal. -/
inductive Number where
  /-- A literal without fraction and exponent; the sign of zero is kept. -/
  | integer (negative : Bool) (magnitude : Nat)
  /-- Any other literal: the number before the point, the digits behind it, the power of ten. -/
  | decimal (negative : Bool) (whole : Nat) (fraction : List (Fin 10)) (exponent : Int)
deriving DecidableEq, Repr

/-- The values of decimal digits. -/
def digitsOf (digits : List Char) : List (Fin 10) :=
  digits.map fun digit => Fin.ofNat 10 (digit.toNat - '0'.toNat)

namespace Number

def ofUnsigned (word : UInt64) : Number :=
  integer false word.toNat

def ofSigned (word : Int64) : Number :=
  integer (word.toInt < 0) word.toInt.natAbs

/-- The unsigned word that an integer literal stands for; a minus sign is refused. -/
def unsigned? : Number → Option UInt64
  | integer false magnitude => Word.unsigned? magnitude
  | _ => none

/-- The signed word that an integer literal stands for; minus zero is none. -/
def signed? : Number → Option Int64
  | integer false magnitude => Word.signed? magnitude
  | integer true (magnitude + 1) => Word.signed? (-(magnitude + 1 : Nat))
  | _ => none

end Number

/-- A string; none stands for one that is no Unicode text. -/
abbrev Content := Option String

inductive Value where
  | null
  | bool (value : Bool)
  | number (literal : Number)
  | text (content : Content)
  | array (items : List Value)
  /-- The members in the order of the text, repeated keys included. -/
  | object (members : List (Content × Value))
deriving Repr, Inhabited

namespace Value

def ofUnsigned (word : UInt64) : Value :=
  number (.ofUnsigned word)

def ofSigned (word : Int64) : Value :=
  number (.ofSigned word)

def ofString (content : String) : Value :=
  text (some content)

/-- An object with these members. -/
def ofMembers (members : List (String × Value)) : Value :=
  object (members.map fun (key, value) => (some key, value))

def unsigned? : Value → Option UInt64
  | number literal => literal.unsigned?
  | _ => none

def signed? : Value → Option Int64
  | number literal => literal.signed?
  | _ => none

def string? : Value → Option String
  | text content => content
  | _ => none

def items? : Value → Option (List Value)
  | array items => some items
  | _ => none

end Value

end CoreWar.Json
