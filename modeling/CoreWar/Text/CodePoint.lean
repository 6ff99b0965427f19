/-!
Contract: membership of a character in a table of closed code-point ranges.

Owns:
- the lookup shared by the character classes of this folder.

Does not own: the tables themselves.
-/

namespace CoreWar.Text

/-- A closed range of code points, first and last. -/
abbrev CodeRange := Nat × Nat

/-- Whether the character's code point lies in one of the ranges. -/
def withinRanges (ranges : List CodeRange) (character : Char) : Bool :=
  ranges.any fun range => range.1 ≤ character.toNat && character.toNat ≤ range.2

end CoreWar.Text
