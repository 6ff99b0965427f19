import CoreWar.Word

/-!
Contract: decimal numerals of natural numbers and of 64-bit words.

Owns:
- writing a number with the fewest digits, or padded with zeros to a width;
- reading a numeral that must fit a signed or an unsigned word.

Does not own: the numerals of the JSON format, which allow neither a plus sign nor leading zeros.
-/

namespace CoreWar.Text

/-- The decimal digits of a number, most significant first. -/
def decimal (number : Nat) : List Char :=
  Nat.toDigits 10 number

/-- The digits of a number, with zeros in front up to the width. -/
def paddedDecimal (width number : Nat) : List Char :=
  List.leftpad width '0' (decimal number)

/-- A signed word in decimal, with a minus sign below zero. -/
def signedDecimal (word : Int64) : List Char :=
  if word.toInt < 0 then '-' :: decimal word.toInt.natAbs else decimal word.toInt.natAbs

/-- The value of a non-empty run of decimal digits. -/
def ofDigits? (digits : List Char) : Option Nat :=
  if digits.isEmpty || !digits.all Char.isDigit then
    none
  else
    some (Nat.ofDigitChars 10 digits 0)

/-- The digits of a number read back as the number. -/
theorem ofDigits?_decimal (number : Nat) : ofDigits? (decimal number) = some number := by
  have digits : (Nat.toDigits 10 number).all Char.isDigit = true := by
    rw [List.all_eq_true]
    intro digit member
    exact Nat.isDigit_of_mem_toDigits (by decide) (by decide) member
  simp [ofDigits?, decimal, digits, Nat.toDigits_ne_nil, Nat.ofDigitChars_toDigits]

/-- Reads a signed word: an optional sign, then digits, leading zeros allowed. -/
def readSigned? : List Char → Option Int64
  | '-' :: digits => (ofDigits? digits).bind fun value => Word.signed? (-value)
  | '+' :: digits => (ofDigits? digits).bind fun value => Word.signed? value
  | digits => (ofDigits? digits).bind fun value => Word.signed? value

/-- Reads an unsigned word: an optional plus sign, then digits, leading zeros allowed. -/
def readUnsigned? : List Char → Option UInt64
  | '+' :: digits => (ofDigits? digits).bind Word.unsigned?
  | digits => (ofDigits? digits).bind Word.unsigned?

end CoreWar.Text
