import CoreWar.Text.Alphanumeric
import CoreWar.Text.Blank

/-!
Contract: the header of a source, which stands in its comment lines.

Owns:
- the three directives and how a comment line spells one;
- the header, in which a later directive replaces an earlier one of its kind.

Does not own: what the header must hold, see `CoreWar.Assembly.Warrior`.
-/

namespace CoreWar.Assembly

/-- What a comment line may declare. -/
inductive Directive where
  /-- The text is a source of this language. -/
  | marker
  /-- The warrior's name; none if the line gives no parameter. -/
  | name (value : Option String)
  /-- The assertion about the limits; none if the line gives no parameter. -/
  | assertion (value : Option String)
deriving DecidableEq, Repr

namespace Directive

/-- Directive words are made of alphanumeric characters and underscores. -/
def isWordChar (character : Char) : Bool :=
  Text.isAlphanumeric character || character == '_'

/-- The parameter behind a directive word: it is set off by a blank, trimmed, and not empty. -/
def parameter? (rest : List Char) : Option String :=
  match rest with
  | [] => none
  | character :: _ =>
    let trimmed := Text.trim rest
    if Text.isBlank character && !trimmed.isEmpty then some (String.ofList trimmed) else none

/-- The directive with this word, in any case, and what follows the word. No letter beyond ASCII has
a small form that occurs in these words. -/
def ofWord? (word rest : List Char) : Option Directive :=
  let word := word.map Char.toLower
  if word = "redcode".toList then some marker
  else if word = "name".toList then some (name (parameter? rest))
  else if word = "assert".toList then some (assertion (parameter? rest))
  else none

/-- The directive of a line: the line is a comment from its first character that is not blank, and
the comment starts with a directive word. -/
def ofLine? (line : List Char) : Option Directive :=
  match Text.trimStart line with
  | ';' :: comment =>
    let (word, rest) := (Text.trimStart comment).span isWordChar
    ofWord? word rest
  | _ => none

end Directive

/-- What the directives of a source declare. -/
structure Header where
  marked : Bool := false
  name : Option String := none
  assertion : Option String := none
deriving DecidableEq, Repr

namespace Header

/-- The header after one more directive. -/
def declare (header : Header) : Directive → Header
  | .marker => { header with marked := true }
  | .name value => { header with name := value }
  | .assertion value => { header with assertion := value }

/-- The header after more lines. -/
def scanFrom (header : Header) (lines : List (List Char)) : Header :=
  (lines.filterMap Directive.ofLine?).foldl declare header

/-- The header of a source. -/
def scan (lines : List (List Char)) : Header :=
  scanFrom {} lines

end Header

end CoreWar.Assembly
