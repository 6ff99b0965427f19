/-!
Contract: integers that fit a 64-bit word.

Owns:
- taking an integer into a signed or an unsigned word, or refusing it;
- signed arithmetic that refuses a result outside the word.

Does not own: the wrapping arithmetic of the core, which is that of the words themselves.
-/

namespace CoreWar.Word

/-- An integer as a signed word, if it fits. -/
def signed? (value : Int) : Option Int64 :=
  if Int64.minValue.toInt ≤ value ∧ value ≤ Int64.maxValue.toInt then
    some (Int64.ofInt value)
  else
    none

/-- A natural number as an unsigned word, if it fits. -/
def unsigned? (value : Nat) : Option UInt64 :=
  if value < UInt64.size then some (UInt64.ofNat value) else none

def add? (left right : Int64) : Option Int64 :=
  signed? (left.toInt + right.toInt)

def sub? (left right : Int64) : Option Int64 :=
  signed? (left.toInt - right.toInt)

def mul? (left right : Int64) : Option Int64 :=
  signed? (left.toInt * right.toInt)

def neg? (value : Int64) : Option Int64 :=
  signed? (-value.toInt)

/-- The remainder with the sign of the dividend. It is refused where the quotient is: by zero, and
for the least word by minus one. -/
def rem? (left right : Int64) : Option Int64 :=
  if right = 0 ∨ (left = Int64.minValue ∧ right = -1) then
    none
  else
    signed? (left.toInt.tmod right.toInt)

end CoreWar.Word
