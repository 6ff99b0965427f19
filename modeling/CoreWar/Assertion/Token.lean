import CoreWar.Limits
import CoreWar.Text.Blank

/-!
Contract: the tokens of an assertion.

Owns:
- the vocabulary: numbers, the four names of limits, and the operators;
- cutting a text into tokens, with the leftmost failure deciding the error.

Does not own: the grammar, see `CoreWar.Assertion.Expression`.
-/

namespace CoreWar.Assertion

/-- A token; the name of a limit is a token with that limit's value. -/
inductive Token where
  | number (value : Int64)
  | plus
  | minus
  | times
  | percent
  | equals
deriving DecidableEq, Repr

/-- Why an assertion has no truth value. -/
inductive Failure where
  /-- It holds something outside the vocabulary. -/
  | invalidToken
  /-- Its tokens form no expression, or its value cannot be computed. -/
  | malformed
deriving DecidableEq, Repr

/-- Words are made of ASCII letters, digits and underscores. -/
def isWordChar (character : Char) : Bool :=
  character.isAlphanum || character == '_'

/-- The limit that a word names. A limit of 2^63 or more reads as the signed word with its bits. -/
def limitNamed? (limits : Limits) (word : List Char) : Option Int64 :=
  if word = "CORESIZE".toList then some limits.coreSize.toInt64
  else if word = "MAXCYCLES".toList then some limits.maxCycles.toInt64
  else if word = "MAXLENGTH".toList then some limits.maxLength.toInt64
  else if word = "MAXTASKS".toList then some limits.maxTasks.toInt64
  else none

/-- The token that a whole word stands for. -/
def Token.ofWord (limits : Limits) (word : List Char) : Except Failure Token :=
  match limitNamed? limits word with
  | some value => .ok (.number value)
  | none =>
    if word.all Char.isDigit then
      match Text.readSigned? word with
      | some value => .ok (.number value)
      | none => .error .malformed
    else
      .error .invalidToken

/-- The operator that is written as this single character. -/
def Token.ofSymbol? : Char → Option Token
  | '+' => some plus
  | '-' => some minus
  | '*' => some times
  | '%' => some percent
  | _ => none

/-- What is left after a word is no longer than what followed its first character. -/
theorem length_afterWord (text : List Char) : (text.dropWhile isWordChar).length ≤ text.length :=
  (List.dropWhile_suffix isWordChar).length_le

/-- The tokens of a text. Blanks divide words and are otherwise skipped. -/
def Token.scan (limits : Limits) : List Char → Except Failure (List Token)
  | [] => .ok []
  | '=' :: '=' :: rest => do
    let tokens ← scan limits rest
    return .equals :: tokens
  | character :: rest =>
    if Text.isBlank character then
      scan limits rest
    else if isWordChar character then do
      let token ← ofWord limits (character :: rest.takeWhile isWordChar)
      let tokens ← scan limits (rest.dropWhile isWordChar)
      return token :: tokens
    else
      match ofSymbol? character with
      | some token => do
        let tokens ← scan limits rest
        return token :: tokens
      | none => .error .invalidToken
termination_by text => text.length
decreasing_by
  all_goals simp only [List.length_cons]
  all_goals have := length_afterWord rest
  all_goals omega

end CoreWar.Assertion
