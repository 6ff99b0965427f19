import CoreWar.Text.CodePoint

/-!
Contract: blank characters and what they divide.

Owns:
- the blank characters, which are the `White_Space` property of Unicode;
- trimming, splitting off the first word, and cutting a text into lines or at a separator.

Does not own: the words themselves, which their readers judge.
-/

namespace CoreWar.Text

/-- The code points with the `White_Space` property. -/
def blankRanges : List CodeRange :=
  [(0x0009, 0x000D), (0x0020, 0x0020), (0x0085, 0x0085), (0x00A0, 0x00A0), (0x1680, 0x1680),
    (0x2000, 0x200A), (0x2028, 0x2029), (0x202F, 0x202F), (0x205F, 0x205F), (0x3000, 0x3000)]

def isBlank (character : Char) : Bool :=
  withinRanges blankRanges character

/-- The text without its leading blanks. -/
def trimStart (text : List Char) : List Char :=
  text.dropWhile isBlank

/-- The text without its trailing blanks. -/
def trimEnd (text : List Char) : List Char :=
  (text.reverse.dropWhile isBlank).reverse

/-- The text without the blanks at either end. -/
def trim (text : List Char) : List Char :=
  trimEnd (trimStart text)

/-- The first word of the text and everything from the blank that ends it. Leading blanks are
skipped, so the word is empty only in a blank text. -/
def splitWord (text : List Char) : List Char × List Char :=
  (trimStart text).span fun character => !isBlank character

/-- Puts a character in front of the first line. -/
def consLine (character : Char) : List (List Char) → List (List Char)
  | [] => [[character]]
  | line :: rest => (character :: line) :: rest

/-- The lines of a text. A line feed ends a line, with one carriage return before it dropped; any
other carriage return belongs to its line, and an ended last line is followed by no empty one. -/
def lines : List Char → List (List Char)
  | [] => []
  | '\r' :: '\n' :: rest => [] :: lines rest
  | '\n' :: rest => [] :: lines rest
  | character :: rest => consLine character (lines rest)

/-- The parts of a text between the separators; a text without one is a single part. -/
def splitAtChar (separator : Char) : List Char → List (List Char)
  | [] => [[]]
  | character :: rest =>
    if character = separator then
      [] :: splitAtChar separator rest
    else
      consLine character (splitAtChar separator rest)

end CoreWar.Text
