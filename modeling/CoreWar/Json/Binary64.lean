import CoreWar.Json.Value
import CoreWar.Text.Decimal

/-!
Contract: which number literals have a value in the range of binary64.

The value of a literal is found in three steps. As many leading digits as form a 64-bit word are
its significand, the digits left out only count for the power of ten. The significand and the power
of ten are each rounded to binary64. Their product is rounded once more, and must be finite.

Owns:
- rounding a natural number to 53 significant bits;
- the significand and the power of ten of a literal;
- the range.

Does not own: the literals, see `CoreWar.Json.Value`.
-/

namespace CoreWar.Json

namespace Binary64

/-- The number with 53 significant bits nearest to this one; a tie goes to the even one. -/
def round (number : Nat) : Nat :=
  let unit := Nat.pow 2 (number.log2 + 1 - 53)
  let quotient := number / unit
  let double := 2 * (number % unit)
  if unit < double ∨ (double = unit ∧ quotient % 2 = 1) then
    (quotient + 1) * unit
  else
    quotient * unit

/-- The least magnitude that rounds to no finite number: half a unit past the greatest. -/
def overflow : Nat :=
  Nat.pow 2 1024 - Nat.pow 2 970

/-- The greatest power of ten that is finite. -/
def maxExponent : Nat := 308

/-- Whether the product of a significand and a power of ten, each rounded, is finite. A negative
power makes a word only smaller. -/
def isFinite (significand : Nat) (exponent : Int) : Bool :=
  if significand = 0 ∨ exponent < 0 then
    true
  else if (maxExponent : Int) < exponent then
    false
  else
    round significand * round (Nat.pow 10 exponent.toNat) < overflow

end Binary64

/-- Takes digits into a significand for as long as it stays a word. Answers the significand and how
many digits were left out. -/
def takeDigits (significand : Nat) : List (Fin 10) → Nat × Nat
  | [] => (significand, 0)
  | digit :: rest =>
    let longer := significand * 10 + digit.val
    if longer < UInt64.size then
      takeDigits longer rest
    else
      (significand, rest.length + 1)

/-- The significand and the power of ten of digits before and behind a point. -/
def scientific (whole : Nat) (fraction : List (Fin 10)) (exponent : Int) : Nat × Int :=
  let (significand, wholeLeftOut) := takeDigits 0 (digitsOf (Text.decimal whole))
  let (significand, fractionLeftOut) := takeDigits significand fraction
  let fractionTaken := fraction.length - fractionLeftOut
  (significand, exponent + wholeLeftOut - fractionTaken)

/-- Whether a literal has a value in the range of binary64. -/
def Number.isFinite : Number → Bool
  | .integer _ magnitude =>
    let (significand, exponent) := scientific magnitude [] 0
    Binary64.isFinite significand exponent
  | .decimal _ whole fraction exponent =>
    let (significand, exponent) := scientific whole fraction exponent
    Binary64.isFinite significand exponent

end CoreWar.Json
