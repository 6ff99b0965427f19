import CoreWar.Json.Parser

/-!
Contract: the grammar of JSON texts, each with the value that it stands for.

Owns:
- strings, their escapes and the characters that their code units spell;
- numbers by their digits, their fraction and their exponent;
- values, items and members, with blanks around every token.

Does not own: that the texts are read, see `CoreWar.Proofs.Json.Completeness`, and the texts that
are written for values, see `CoreWar.Proofs.Json.RoundTrip`.

The grammar is that of RFC 8259. It fixes the value of a text as well: repeated members are kept,
and a string with an unpaired surrogate has no content.
-/

namespace CoreWar.Json

/-! ## Grammar -/

/-- Blanks, of which any number may stand between tokens. -/
def Blanks (text : List Char) : Prop :=
  ∀ character ∈ text, character ∈ [' ', '\t', '\n', '\r']

instance (text : List Char) : Decidable (Blanks text) :=
  List.decidableBAll (fun character => character ∈ [' ', '\t', '\n', '\r']) text

/-- A hexadecimal digit in either case, with its value. -/
inductive HexDigit : Char → Nat → Prop where
  | lower (value : Nat) (below : value < 16) : HexDigit (Nat.digitChar value) value
  | upper (value : Nat) (below : value < 16) : HexDigit (Nat.digitChar value).toUpper value

/-- The letters behind a backslash, each with the character that it stands for. -/
def escapes : List (Char × Char) :=
  [('"', '"'), ('\\', '\\'), ('/', '/'), ('b', '\x08'), ('f', '\x0c'), ('n', '\n'), ('r', '\r'),
    ('t', '\t')]

/-- What stands between quotation marks, with its code points. An escaped code unit counts as a code
point, also if it is one half of a surrogate pair. -/
inductive Quoted : List Char → List Nat → Prop where
  | nil : Quoted [] []
  | plain
      {character : Char}
      {text : List Char}
      {codes : List Nat}
      (notQuote : character ≠ '"')
      (notBackslash : character ≠ '\\')
      (printable : 0x20 ≤ character.toNat)
      (rest : Quoted text codes) :
      Quoted (character :: text) (character.toNat :: codes)
  | escape
      {letter character : Char}
      {text : List Char}
      {codes : List Nat}
      (member : (letter, character) ∈ escapes)
      (rest : Quoted text codes) :
      Quoted ('\\' :: letter :: text) (character.toNat :: codes)
  | unit
      {first second third fourth : Char}
      {a b c d : Nat}
      {text : List Char}
      {codes : List Nat}
      (isFirst : HexDigit first a)
      (isSecond : HexDigit second b)
      (isThird : HexDigit third c)
      (isFourth : HexDigit fourth d)
      (rest : Quoted text codes) :
      Quoted ('\\' :: 'u' :: first :: second :: third :: fourth :: text)
        ((a * 0x1000 + b * 0x100 + c * 0x10 + d) :: codes)

/-- Code points spell these characters: each one its character, a surrogate pair a single one. -/
inductive Spells : List Nat → List Char → Prop where
  | nil : Spells [] []
  | single
      (character : Char)
      {codes : List Nat}
      {characters : List Char}
      (rest : Spells codes characters) :
      Spells (character.toNat :: codes) (character :: characters)
  | pair
      {high low : Nat}
      {character : Char}
      {codes : List Nat}
      {characters : List Char}
      (isHigh : 0xD800 ≤ high ∧ high ≤ 0xDBFF)
      (isLow : 0xDC00 ≤ low ∧ low ≤ 0xDFFF)
      (value : character.toNat = 0x10000 + (high - 0xD800) * 0x400 + (low - 0xDC00))
      (rest : Spells codes characters) :
      Spells (high :: low :: codes) (character :: characters)

/-- What stands between quotation marks has this content: the characters that it spells, or none if
a surrogate is unpaired. -/
def StringText (body : List Char) (content : Content) : Prop :=
  ∃ codes, Quoted body codes ∧
    ∀ characters, Spells codes characters ↔ content = some (String.ofList characters)

/-- Digits, at least one. -/
structure Digits (text : List Char) : Prop where
  notEmpty : text ≠ []
  allDigits : ∀ character ∈ text, character.isDigit = true

/-- The digits behind a point, if there is one. -/
inductive FractionText : List Char → Option (List Char) → Prop where
  | absent : FractionText [] none
  | present {digits : List Char} (isDigits : Digits digits) :
      FractionText ('.' :: digits) (some digits)

/-- The power of ten behind a letter, if there is one. -/
inductive ExponentText : List Char → Option Int → Prop where
  | absent : ExponentText [] none
  | unsigned
      {mark : Char}
      {digits : List Char}
      (isMark : mark = 'e' ∨ mark = 'E')
      (isDigits : Digits digits) :
      ExponentText (mark :: digits) (some (Nat.ofDigitChars 10 digits 0))
  | positive
      {mark : Char}
      {digits : List Char}
      (isMark : mark = 'e' ∨ mark = 'E')
      (isDigits : Digits digits) :
      ExponentText (mark :: '+' :: digits) (some (Nat.ofDigitChars 10 digits 0))
  | negative
      {mark : Char}
      {digits : List Char}
      (isMark : mark = 'e' ∨ mark = 'E')
      (isDigits : Digits digits) :
      ExponentText (mark :: '-' :: digits) (some (-(Nat.ofDigitChars 10 digits 0 : Int)))

/-- A number behind its sign. Only zero starts with a zero. -/
inductive MagnitudeText (negative : Bool) : List Char → Number → Prop where
  | parts
      {whole behindPoint behindLetter : List Char}
      {fraction : Option (List Char)}
      {exponent : Option Int}
      (isWhole : Digits whole)
      (noZero : whole.head? = some '0' → whole = ['0'])
      (isFraction : FractionText behindPoint fraction)
      (isExponent : ExponentText behindLetter exponent) :
      MagnitudeText negative (whole ++ (behindPoint ++ behindLetter))
        (.ofParts negative whole fraction exponent)

inductive NumberText : List Char → Number → Prop where
  | positive {text : List Char} {literal : Number} (magnitude : MagnitudeText false text literal) :
      NumberText text literal
  | negative {text : List Char} {literal : Number} (magnitude : MagnitudeText true text literal) :
      NumberText ('-' :: text) literal

mutual

/-- The text of a value, without blanks around it. -/
inductive ValueText : List Char → Value → Prop where
  | isNull : ValueText ['n', 'u', 'l', 'l'] .null
  | isTrue : ValueText ['t', 'r', 'u', 'e'] (.bool true)
  | isFalse : ValueText ['f', 'a', 'l', 's', 'e'] (.bool false)
  | number {text : List Char} {literal : Number} (isNumber : NumberText text literal) :
      ValueText text (.number literal)
  | text {body : List Char} {content : Content} (isString : StringText body content) :
      ValueText ('"' :: (body ++ ['"'])) (.text content)
  | emptyArray {gap : List Char} (blanks : Blanks gap) :
      ValueText ('[' :: (gap ++ [']'])) (.array [])
  | array {text : List Char} {items : List Value} (areItems : ItemsText text items) :
      ValueText ('[' :: (text ++ [']'])) (.array items)
  | emptyObject {gap : List Char} (blanks : Blanks gap) :
      ValueText ('\x7b' :: (gap ++ ['\x7d'])) (.object [])
  | object
      {text : List Char}
      {members : List (Content × Value)}
      (areMembers : MembersText text members) :
      ValueText ('\x7b' :: (text ++ ['\x7d'])) (.object members)

/-- The text of a value with blanks around it. -/
inductive ElementText : List Char → Value → Prop where
  | surrounded
      {front text back : List Char}
      {value : Value}
      (frontBlanks : Blanks front)
      (isValue : ValueText text value)
      (backBlanks : Blanks back) :
      ElementText (front ++ (text ++ back)) value

/-- Items with commas between them, at least one. -/
inductive ItemsText : List Char → List Value → Prop where
  | one {text : List Char} {item : Value} (isItem : ElementText text item) : ItemsText text [item]
  | more
      {text rest : List Char}
      {item : Value}
      {items : List Value}
      (isItem : ElementText text item)
      (areItems : ItemsText rest items) :
      ItemsText (text ++ ',' :: rest) (item :: items)

/-- A key and its value. -/
inductive MemberText : List Char → Content × Value → Prop where
  | colon
      {front body back text : List Char}
      {key : Content}
      {value : Value}
      (frontBlanks : Blanks front)
      (isKey : StringText body key)
      (backBlanks : Blanks back)
      (isValue : ElementText text value) :
      MemberText (front ++ '"' :: (body ++ '"' :: (back ++ ':' :: text))) (key, value)

/-- Members with commas between them, at least one. -/
inductive MembersText : List Char → List (Content × Value) → Prop where
  | one {text : List Char} {member : Content × Value} (isMember : MemberText text member) :
      MembersText text [member]
  | more
      {text rest : List Char}
      {member : Content × Value}
      {members : List (Content × Value)}
      (isMember : MemberText text member)
      (areMembers : MembersText rest members) :
      MembersText (text ++ ',' :: rest) (member :: members)

end

end CoreWar.Json
