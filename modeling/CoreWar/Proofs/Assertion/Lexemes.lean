import CoreWar.Assertion.Token
import CoreWar.Proofs.Assembly.Reading

/-!
Contract: the scanner of assertions recovers what was written.

Owns:
- lexemes, and the texts in which they are written with blanks around and between them;
- what a scanner stumbles over, and the text in front of it;
- that a text is scanned into the tokens of its lexemes, or fails where it first stumbles.

Does not own: what the tokens amount to, see `CoreWar.Proofs.Assertion.Grammar`.

Everything about scanning follows from one equation: a text that starts with written lexemes is
scanned into their tokens and whatever the rest is scanned into. It asks that no word is cut where
the rest begins.
-/

namespace CoreWar.Assertion

/-! ## Lexemes -/

/-- The limits that an assertion can name. -/
inductive LimitName where
  | coreSize
  | maxCycles
  | maxLength
  | maxTasks
deriving DecidableEq, Repr

namespace LimitName

def text : LimitName → List Char
  | coreSize => "CORESIZE".toList
  | maxCycles => "MAXCYCLES".toList
  | maxLength => "MAXLENGTH".toList
  | maxTasks => "MAXTASKS".toList

/-- The limit with this name. -/
def limit (limits : Limits) : LimitName → UInt64
  | coreSize => limits.coreSize
  | maxCycles => limits.maxCycles
  | maxLength => limits.maxLength
  | maxTasks => limits.maxTasks

end LimitName

/-- Decimal digits, with any number of zeros in front, of a number below 2^63. -/
structure Numeral where
  digits : List Char
  notEmpty : digits ≠ []
  areDigits : ∀ character ∈ digits, character.isDigit = true
  small : Nat.ofDigitChars 10 digits 0 < 0x8000000000000000
deriving DecidableEq, Repr

def Numeral.value (numeral : Numeral) : Nat :=
  Nat.ofDigitChars 10 numeral.digits 0

/-- What an assertion is written with. -/
inductive Lexeme where
  | plus
  | minus
  | times
  | percent
  | equals
  | limit (name : LimitName)
  | numeral (written : Numeral)
deriving DecidableEq, Repr

namespace Lexeme

def text : Lexeme → List Char
  | plus => ['+']
  | minus => ['-']
  | times => ['*']
  | percent => ['%']
  | equals => ['=', '=']
  | limit name => name.text
  | numeral written => written.digits

/-- Words must be kept apart. -/
def isWord : Lexeme → Bool
  | limit _ => true
  | numeral _ => true
  | _ => false

/-- The token of a lexeme. A limit of 2^63 or more becomes the signed word with its bits. -/
def token (limits : Limits) : Lexeme → Token
  | plus => .plus
  | minus => .minus
  | times => .times
  | percent => .percent
  | equals => .equals
  | limit name => .number (name.limit limits).toInt64
  | numeral written => .number (Int64.ofNat written.value)

end Lexeme

/-- The texts in which lexemes are written: blanks may stand before, between and behind them, and
must stand between two words. -/
inductive Written : List Lexeme → List Char → Prop where
  | nothing
      {gap : List Char}
      (blank : Text.Blank gap) :
      Written [] gap
  | lexeme
      {gap text : List Char}
      {lexeme : Lexeme}
      {rest : List Lexeme}
      (blank : Text.Blank gap)
      (others : Written rest text)
      (apart : lexeme.isWord → ∀ next ∈ rest.head?, next.isWord →
        ∀ character ∈ text.head?, Text.isBlank character) :
      Written (lexeme :: rest) (gap ++ (lexeme.text ++ text))

/-- What the scanner cannot pass, and the failure that it is. Words are as long as they can be. -/
inductive Stumbles : List Char → Failure → Prop where
  /-- Digits whose value exceeds the word. -/
  | overflow
      {word rest : List Char}
      (notEmpty : word ≠ [])
      (digits : ∀ character ∈ word, character.isDigit = true)
      (large : 0x8000000000000000 ≤ Nat.ofDigitChars 10 word 0)
      (ended : ∀ character ∈ rest.head?, isWordChar character = false) :
      Stumbles (word ++ rest) .malformed
  /-- Another word that names no limit. -/
  | unknown
      {word rest : List Char}
      (inside : ∀ character ∈ word, isWordChar character = true)
      (notDigits : ∃ character ∈ word, character.isDigit = false)
      (notLimit : ∀ name : LimitName, name.text ≠ word)
      (ended : ∀ character ∈ rest.head?, isWordChar character = false) :
      Stumbles (word ++ rest) .invalidToken
  | loneEquals
      {rest : List Char}
      (alone : rest.head? ≠ some '=') :
      Stumbles ('=' :: rest) .invalidToken
  /-- A character outside the vocabulary. -/
  | foreign
      {character : Char}
      {rest : List Char}
      (notBlank : Text.isBlank character = false)
      (notInside : isWordChar character = false)
      (notSymbol : character ∉ ['+', '-', '*', '%', '=']) :
      Stumbles (character :: rest) .invalidToken

/-- No word reaches from the front into the back. -/
def Divided (front back : List Char) : Prop :=
  ∀ last ∈ front.getLast?, ∀ first ∈ back.head?,
    ¬(isWordChar last = true ∧ isWordChar first = true)

/-- The text stumbles for the first time behind written lexemes. -/
def Fails (text : List Char) (failure : Failure) : Prop :=
  ∃ lexemes front back, text = front ++ back ∧ Written lexemes front ∧ Divided front back ∧
    Stumbles back failure

/-! ## Words -/

/-- Word characters are those of identifiers. -/
theorem isBlank_of_isWordChar {character : Char} (inside : isWordChar character = true) :
    Text.isBlank character = false :=
  Assembly.isBlank_of_isFieldStart (Assembly.isFieldStart_of_isIdentifierChar inside)

theorem isWordChar_of_isBlank {character : Char} (blank : Text.isBlank character = true) :
    isWordChar character = false := by
  rw [Bool.eq_false_iff]
  intro inside
  rw [isBlank_of_isWordChar inside] at blank
  contradiction

theorem isWordChar_of_isDigit {character : Char} (digit : character.isDigit = true) :
    isWordChar character = true := by
  simp [isWordChar, Char.isAlphanum, digit]

theorem limitNamed?_text (limits : Limits) (name : LimitName) :
    limitNamed? limits name.text = some (name.limit limits).toInt64 := by
  cases name <;> rfl

theorem limitNamed?_eq_none_iff {limits : Limits} {word : List Char} :
    limitNamed? limits word = none ↔ ∀ name : LimitName, name.text ≠ word := by
  constructor
  · rintro unknown name rfl
    rw [limitNamed?_text] at unknown
    contradiction
  · intro unknown
    have coreSize : word ≠ "CORESIZE".toList := (unknown .coreSize).symm
    have maxCycles : word ≠ "MAXCYCLES".toList := (unknown .maxCycles).symm
    have maxLength : word ≠ "MAXLENGTH".toList := (unknown .maxLength).symm
    have maxTasks : word ≠ "MAXTASKS".toList := (unknown .maxTasks).symm
    simp only [limitNamed?, coreSize, maxCycles, maxLength, maxTasks, ↓reduceIte]

/-- A run of digits reads as its value, if that is below 2^63. -/
theorem readSigned?_of_digits
    {digits : List Char}
    (notEmpty : digits ≠ [])
    (areDigits : ∀ character ∈ digits, character.isDigit = true) :
    Text.readSigned? digits = Word.signed? (Nat.ofDigitChars 10 digits 0) := by
  have unsigned : ∀ character ∈ digits.head?, character ≠ '-' ∧ character ≠ '+' := by
    intro character member
    have digit := areDigits character (List.mem_of_head? member)
    constructor
    · rintro rfl
      exact absurd digit (by decide)
    · rintro rfl
      exact absurd digit (by decide)
  have all : digits.all Char.isDigit = true := List.all_eq_true.mpr areDigits
  rw [Text.readSigned?_of_unsigned unsigned, Text.ofDigits?]
  simp [notEmpty, all]

/-- A word of digits is no limit's name. -/
theorem limitNamed?_of_digits
    (limits : Limits)
    {word : List Char}
    (digits : ∀ character ∈ word, character.isDigit = true) :
    limitNamed? limits word = none := by
  rw [limitNamed?_eq_none_iff]
  rintro name rfl
  have all : name.text.all Char.isDigit = true := List.all_eq_true.mpr digits
  cases name <;> exact absurd all (by decide)

theorem ofWord_of_digits
    (limits : Limits)
    {word : List Char}
    (notEmpty : word ≠ [])
    (digits : ∀ character ∈ word, character.isDigit = true) :
    Token.ofWord limits word =
      if Nat.ofDigitChars 10 word 0 < 0x8000000000000000 then
        .ok (.number (Int64.ofNat (Nat.ofDigitChars 10 word 0)))
      else
        .error .malformed := by
  have all : word.all Char.isDigit = true := List.all_eq_true.mpr digits
  have least : Int64.minValue.toInt = -0x8000000000000000 := by decide
  have greatest : Int64.maxValue.toInt = 0x8000000000000000 - 1 := by decide
  rw [Token.ofWord, limitNamed?_of_digits limits digits]
  simp only [all, ↓reduceIte, readSigned?_of_digits notEmpty digits, Word.signed?]
  by_cases small : Nat.ofDigitChars 10 word 0 < 0x8000000000000000
  · rw [if_pos small, if_pos ⟨by omega, by omega⟩]
    rfl
  · rw [if_neg small, if_neg (by omega)]

theorem ofWord_of_unknown
    {limits : Limits}
    {word : List Char}
    (notDigits : ∃ character ∈ word, character.isDigit = false)
    (notLimit : ∀ name : LimitName, name.text ≠ word) :
    Token.ofWord limits word = .error .invalidToken := by
  have notAll : ¬word.all Char.isDigit = true := by
    obtain ⟨character, member, notDigit⟩ := notDigits
    intro all
    rw [List.all_eq_true.mp all character member] at notDigit
    contradiction
  rw [Token.ofWord, limitNamed?_eq_none_iff.mpr notLimit]
  exact if_neg notAll

namespace Lexeme

theorem text_ne_nil (lexeme : Lexeme) : lexeme.text ≠ [] := by
  cases lexeme with
  | limit name => cases name <;> decide
  | numeral written => exact written.notEmpty
  | _ => decide

theorem inside_of_isWord {lexeme : Lexeme} (isWord : lexeme.isWord) :
    ∀ character ∈ lexeme.text, isWordChar character = true := by
  cases lexeme with
  | limit name => cases name <;> exact List.all_eq_true.mp (by decide)
  | numeral written =>
      exact fun character member => isWordChar_of_isDigit (written.areDigits character member)
  | _ => contradiction

theorem outside_of_symbol {lexeme : Lexeme} (symbol : lexeme.isWord = false) :
    ∀ character ∈ lexeme.text, isWordChar character = false := by
  cases lexeme with
  | limit name => contradiction
  | numeral written => contradiction
  | _ => simp [text, isWordChar]

theorem ofWord_text {lexeme : Lexeme} (isWord : lexeme.isWord) (limits : Limits) :
    Token.ofWord limits lexeme.text = .ok (lexeme.token limits) := by
  cases lexeme with
  | limit name =>
      rw [text, Token.ofWord, limitNamed?_text]
      rfl
  | numeral written =>
      rw [text, ofWord_of_digits limits written.notEmpty written.areDigits, if_pos written.small]
      rfl
  | _ => contradiction

/-- A lexeme starts with a word character exactly if it is a word. -/
theorem isWordChar_head (lexeme : Lexeme) :
    ∃ first others, lexeme.text = first :: others ∧ isWordChar first = lexeme.isWord := by
  obtain ⟨first, others, split⟩ := List.exists_cons_of_ne_nil lexeme.text_ne_nil
  have member : first ∈ lexeme.text := split ▸ List.mem_cons_self
  refine ⟨first, others, split, ?_⟩
  cases kind : lexeme.isWord with
  | false => exact outside_of_symbol kind first member
  | true => exact inside_of_isWord kind first member

end Lexeme

/-- A word is a lexeme, or digits that are too large, or unknown. -/
theorem lexeme_or_overflow_or_unknown
    {word : List Char}
    (notEmpty : word ≠ []) :
    (∃ lexeme : Lexeme, lexeme.isWord ∧ lexeme.text = word) ∨
    ((∀ character ∈ word, character.isDigit = true) ∧
      0x8000000000000000 ≤ Nat.ofDigitChars 10 word 0) ∨
    ((∃ character ∈ word, character.isDigit = false) ∧
      ∀ name : LimitName, name.text ≠ word) := by
  by_cases digits : ∀ character ∈ word, character.isDigit = true
  · by_cases small : Nat.ofDigitChars 10 word 0 < 0x8000000000000000
    · exact Or.inl ⟨.numeral ⟨word, notEmpty, digits, small⟩, rfl, rfl⟩
    · exact Or.inr (Or.inl ⟨digits, Nat.not_lt.mp small⟩)
  · by_cases named : ∃ name : LimitName, name.text = word
    · obtain ⟨name, isText⟩ := named
      exact Or.inl ⟨.limit name, rfl, isText⟩
    · refine Or.inr (Or.inr ⟨?_, not_exists.mp named⟩)
      simpa using digits

/-! ## Scanning -/

section Scanning

variable (limits : Limits)

/-- A character that does not start an equality sign is a blank, the start of a word, an operator or
a failure. -/
theorem scan_cons
    {character : Char}
    {rest : List Char}
    (single : character = '=' → rest.head? ≠ some '=') :
    Token.scan limits (character :: rest) =
      if Text.isBlank character then
        Token.scan limits rest
      else if isWordChar character then do
        let token ← Token.ofWord limits (character :: rest.takeWhile isWordChar)
        let tokens ← Token.scan limits (rest.dropWhile isWordChar)
        return token :: tokens
      else
        match Token.ofSymbol? character with
        | some token => do
          let tokens ← Token.scan limits rest
          return token :: tokens
        | none => .error .invalidToken := by
  have notDouble : ∀ others, character = '=' → rest = '=' :: others → False := by
    rintro others isEquals rfl
    exact single isEquals rfl
  exact Token.scan.eq_3 limits character rest notDouble

theorem scan_gap {gap : List Char} (blank : Text.Blank gap) (text : List Char) :
    Token.scan limits (gap ++ text) = Token.scan limits text := by
  induction gap with
  | nil => rfl
  | cons character rest inductionHypothesis =>
      have isBlank : Text.isBlank character = true := blank character List.mem_cons_self
      have restBlank : Text.Blank rest := fun other member =>
        blank other (List.mem_cons_of_mem character member)
      have single : character = '=' → (rest ++ text).head? ≠ some '=' := by
        rintro rfl
        contradiction
      rw [List.cons_append, scan_cons limits single, if_pos isBlank, inductionHypothesis restBlank]

theorem scan_word
    {word rest : List Char}
    (notEmpty : word ≠ [])
    (inside : ∀ character ∈ word, isWordChar character = true)
    (ended : ∀ character ∈ rest.head?, isWordChar character = false) :
    Token.scan limits (word ++ rest) = do
      let token ← Token.ofWord limits word
      let tokens ← Token.scan limits rest
      return token :: tokens := by
  obtain ⟨first, others, rfl⟩ := List.exists_cons_of_ne_nil notEmpty
  have firstInside := inside first List.mem_cons_self
  have othersInside : ∀ character ∈ others, isWordChar character = true := fun other member =>
    inside other (List.mem_cons_of_mem first member)
  have single : first = '=' → (others ++ rest).head? ≠ some '=' := by
    rintro rfl
    contradiction
  have split := Text.span_append othersInside ended
  rw [List.span_eq_takeWhile_dropWhile, Prod.mk.injEq] at split
  rw [List.cons_append, scan_cons limits single,
    if_neg (by simp [isBlank_of_isWordChar firstInside]), if_pos firstInside, split.1, split.2]

/-- A lexeme is scanned into its token, if no word goes on behind it. -/
theorem scan_lexeme
    (lexeme : Lexeme)
    {rest : List Char}
    (ended : lexeme.isWord → ∀ character ∈ rest.head?, isWordChar character = false) :
    Token.scan limits (lexeme.text ++ rest) = do
      let tokens ← Token.scan limits rest
      return lexeme.token limits :: tokens := by
  cases isWord : lexeme.isWord with
  | true =>
      rw [scan_word limits lexeme.text_ne_nil (Lexeme.inside_of_isWord isWord) (ended isWord),
        Lexeme.ofWord_text isWord]
      rfl
  | false =>
      cases lexeme with
      | limit name => contradiction
      | numeral written => contradiction
      | equals =>
          rw [Lexeme.text, List.cons_append, List.cons_append, Token.scan]
          rfl
      | plus => exact scan_cons limits (fun isEquals => absurd isEquals (by decide))
      | minus => exact scan_cons limits (fun isEquals => absurd isEquals (by decide))
      | times => exact scan_cons limits (fun isEquals => absurd isEquals (by decide))
      | percent => exact scan_cons limits (fun isEquals => absurd isEquals (by decide))

theorem ofSymbol?_of_foreign
    {character : Char}
    (notSymbol : character ∉ ['+', '-', '*', '%', '=']) :
    Token.ofSymbol? character = none := by
  unfold Token.ofSymbol?
  split
  · exact absurd (by decide) notSymbol
  · exact absurd (by decide) notSymbol
  · exact absurd (by decide) notSymbol
  · exact absurd (by decide) notSymbol
  · rfl

theorem scan_of_stumbles {text : List Char} {failure : Failure} (stumbles : Stumbles text failure) :
    Token.scan limits text = .error failure := by
  cases stumbles with
  | overflow notEmpty digits large ended =>
      have inside := fun character member => isWordChar_of_isDigit (digits character member)
      rw [scan_word limits notEmpty inside ended, ofWord_of_digits limits notEmpty digits,
        if_neg (Nat.not_lt.mpr large)]
      rfl
  | unknown inside notDigits notLimit ended =>
      obtain ⟨character, member, _⟩ := id notDigits
      rw [scan_word limits (List.ne_nil_of_mem member) inside ended,
        ofWord_of_unknown notDigits notLimit]
      rfl
  | loneEquals alone => exact scan_cons limits fun _ => alone
  | @foreign character rest notBlank notInside notSymbol =>
      have single : character = '=' → rest.head? ≠ some '=' := by
        rintro rfl
        exact absurd (by decide) notSymbol
      rw [scan_cons limits single, notBlank, notInside, ofSymbol?_of_foreign notSymbol]
      rfl

/-! ## Written texts -/

theorem written_gap
    {gap : List Char}
    (blank : Text.Blank gap)
    {lexemes : List Lexeme}
    {text : List Char}
    (written : Written lexemes text) :
    Written lexemes (gap ++ text) := by
  have joined {inner : List Char} (innerBlank : Text.Blank inner) : Text.Blank (gap ++ inner) :=
    List.forall_mem_append.mpr ⟨blank, innerBlank⟩
  cases written with
  | nothing innerBlank => exact .nothing (joined innerBlank)
  | lexeme innerBlank others apart =>
      rw [← List.append_assoc]
      exact .lexeme (joined innerBlank) others apart

/-- The text of lexemes starts with a word character only if it starts with a word. -/
theorem isBlank_or_isWordChar_head
    {lexeme : Lexeme}
    {rest : List Lexeme}
    {text : List Char}
    (written : Written (lexeme :: rest) text) :
    ∃ first others, text = first :: others ∧
      (Text.isBlank first = true ∨ isWordChar first = lexeme.isWord) := by
  cases written with
  | @lexeme gap _ _ _ blank others apart =>
      cases gap with
      | nil =>
          obtain ⟨first, following, split, kind⟩ := lexeme.isWordChar_head
          rw [split]
          exact ⟨first, _, rfl, Or.inr kind⟩
      | cons first following =>
          exact ⟨first, _, rfl, Or.inl (blank first List.mem_cons_self)⟩

/-- Two words in a row are kept apart by a blank if and only if no word character stands where the
second one could start. -/
theorem apart_iff
    {lexemes : List Lexeme}
    {text : List Char}
    (written : Written lexemes text) :
    (∀ next ∈ lexemes.head?, next.isWord → ∀ character ∈ text.head?, Text.isBlank character) ↔
      ∀ character ∈ text.head?, isWordChar character = false := by
  cases lexemes with
  | nil =>
      cases written with
      | nothing blank =>
          refine iff_of_true (by simp) fun character member => ?_
          exact isWordChar_of_isBlank (blank character (List.mem_of_head? member))
  | cons lexeme rest =>
      obtain ⟨first, others, rfl, kind⟩ := isBlank_or_isWordChar_head written
      simp only [List.head?_cons, Option.mem_some, forall_eq']
      constructor
      · intro apart
        rcases kind with blank | kind
        · exact isWordChar_of_isBlank blank
        · cases isWord : lexeme.isWord with
          | true => exact isWordChar_of_isBlank (apart isWord)
          | false => rw [kind, isWord]
      · intro outside isWord
        rcases kind with blank | kind
        · exact blank
        · rw [kind, isWord] at outside
          contradiction

theorem written_cons
    (lexeme : Lexeme)
    {lexemes : List Lexeme}
    {text : List Char}
    (written : Written lexemes text)
    (ended : lexeme.isWord → ∀ character ∈ text.head?, isWordChar character = false) :
    Written (lexeme :: lexemes) (lexeme.text ++ text) := by
  have noGap : Text.Blank [] := List.forall_mem_nil _
  exact .lexeme noGap written fun isWord => (apart_iff written).mpr (ended isWord)

theorem written_symbol
    {lexeme : Lexeme}
    (symbol : lexeme.isWord = false)
    {lexemes : List Lexeme}
    {text : List Char}
    (written : Written lexemes text) :
    Written (lexeme :: lexemes) (lexeme.text ++ text) := by
  apply written_cons lexeme written
  intro isWord
  rw [symbol] at isWord
  contradiction

theorem written_word
    (lexeme : Lexeme)
    {lexemes : List Lexeme}
    {first : Char}
    {others : List Char}
    (written : Written lexemes (first :: others))
    (ended : isWordChar first = false) :
    Written (lexeme :: lexemes) (lexeme.text ++ first :: others) := by
  apply written_cons lexeme written
  rintro _ character ⟨⟩
  exact ended

theorem written_lexeme (lexeme : Lexeme) : Written [lexeme] lexeme.text := by
  have nothing : Written [] [] := .nothing (List.forall_mem_nil _)
  have written := written_cons lexeme nothing fun _ => by simp
  rw [List.append_nil] at written
  exact written

theorem Divided.of_append
    {front text back : List Char}
    (divided : Divided (front ++ text) back) :
    Divided text back := by
  intro last member
  apply divided last
  rw [List.getLast?_append, Option.mem_def.mp member]
  rfl

/-- Written lexemes in front of a text are scanned into their tokens. -/
theorem scan_append
    {lexemes : List Lexeme}
    {front back : List Char}
    (written : Written lexemes front)
    (divided : Divided front back) :
    Token.scan limits (front ++ back) = do
      let tokens ← Token.scan limits back
      return lexemes.map (Lexeme.token limits) ++ tokens := by
  induction written with
  | nothing blank =>
      rw [scan_gap limits blank]
      simp
  | @lexeme gap text lexeme rest blank others apart inductionHypothesis =>
      have ended : lexeme.isWord →
          ∀ character ∈ (text ++ back).head?, isWordChar character = false := by
        intro isWord character member
        cases text with
        | nil =>
            -- The word stands last in front, so it must not go on in the back.
            rw [List.append_nil] at divided
            have isLast := List.getLast?_eq_some_getLast lexeme.text_ne_nil
            have lastInside := Lexeme.inside_of_isWord isWord _ (List.mem_of_getLast? isLast)
            have notBoth := divided.of_append _ isLast character member
            simpa [lastInside] using notBoth
        | cons first following => exact (apart_iff others).mp (apart isWord) character member
      have dividedRest : Divided text back := divided.of_append.of_append
      rw [List.append_assoc, List.append_assoc, scan_gap limits blank,
        scan_lexeme limits lexeme ended, inductionHypothesis dividedRest]
      simp

theorem scan_of_written
    {lexemes : List Lexeme}
    {text : List Char}
    (written : Written lexemes text) :
    Token.scan limits text = .ok (lexemes.map (Lexeme.token limits)) := by
  have divided : Divided text [] := by
    intro _ _ first member
    contradiction
  have scanned := scan_append limits written divided
  rw [List.append_nil, Token.scan] at scanned
  rw [scanned]
  exact congrArg Except.ok (List.append_nil _)

theorem scan_of_fails {text : List Char} {failure : Failure} (fails : Fails text failure) :
    Token.scan limits text = .error failure := by
  obtain ⟨lexemes, front, back, rfl, written, divided, stumbles⟩ := fails
  rw [scan_append limits written divided, scan_of_stumbles limits stumbles]
  rfl

end Scanning

/-! ## Every text -/

theorem Divided.append
    {front text back : List Char}
    (divided : Divided text back)
    (joint : text = [] → Divided front back) :
    Divided (front ++ text) back := by
  cases text with
  | nil =>
      rw [List.append_nil]
      exact joint rfl
  | cons first rest =>
      intro last member
      rw [List.getLast?_append_of_ne_nil front (List.cons_ne_nil first rest)] at member
      exact divided last member

theorem divided_of_outside
    {front : List Char}
    (outside : ∀ character ∈ front, isWordChar character = false)
    (back : List Char) :
    Divided front back := by
  rintro last member first _ ⟨inside, _⟩
  rw [outside last (List.mem_of_getLast? member)] at inside
  contradiction

theorem divided_of_ended
    (front : List Char)
    {back : List Char}
    (ended : ∀ character ∈ back.head?, isWordChar character = false) :
    Divided front back := by
  rintro last _ first member ⟨_, inside⟩
  rw [ended first member] at inside
  contradiction

theorem fails_gap
    {gap : List Char}
    (blank : Text.Blank gap)
    {text : List Char}
    {failure : Failure}
    (fails : Fails text failure) :
    Fails (gap ++ text) failure := by
  obtain ⟨lexemes, front, back, rfl, written, divided, stumbles⟩ := fails
  refine ⟨lexemes, gap ++ front, back, (List.append_assoc ..).symm, written_gap blank written, ?_,
    stumbles⟩
  apply divided.append
  intro _
  exact divided_of_outside
    (fun character member => isWordChar_of_isBlank (blank character member)) back

theorem fails_cons
    (lexeme : Lexeme)
    {text : List Char}
    {failure : Failure}
    (fails : Fails text failure)
    (ended : lexeme.isWord → ∀ character ∈ text.head?, isWordChar character = false) :
    Fails (lexeme.text ++ text) failure := by
  obtain ⟨lexemes, front, back, rfl, written, divided, stumbles⟩ := fails
  have frontEnded : lexeme.isWord → ∀ character ∈ front.head?, isWordChar character = false := by
    intro isWord character member
    apply ended isWord
    rw [List.head?_append, Option.mem_def.mp member]
    rfl
  refine ⟨lexeme :: lexemes, lexeme.text ++ front, back, (List.append_assoc ..).symm,
    written_cons lexeme written frontEnded, ?_, stumbles⟩
  apply divided.append
  rintro rfl
  cases isWord : lexeme.isWord with
  | true => exact divided_of_ended _ (ended isWord)
  | false => exact divided_of_outside (Lexeme.outside_of_symbol isWord) back

/-- What a text starts with. -/
theorem blank_or_lexeme_or_stumbles (character : Char) (rest : List Char) :
    Text.isBlank character = true ∨
    (∃ (lexeme : Lexeme) (back : List Char), character :: rest = lexeme.text ++ back ∧
      (lexeme.isWord → ∀ next ∈ back.head?, isWordChar next = false)) ∨
    ∃ failure, Stumbles (character :: rest) failure := by
  by_cases blank : Text.isBlank character = true
  · exact Or.inl blank
  refine Or.inr ?_
  by_cases inside : isWordChar character = true
  · -- The longest word decides.
    have split : character :: rest =
        (character :: rest.takeWhile isWordChar) ++ rest.dropWhile isWordChar := by
      rw [List.cons_append, List.takeWhile_append_dropWhile]
    have wordInside : ∀ other ∈ character :: rest.takeWhile isWordChar,
        isWordChar other = true := by
      intro other member
      rcases List.mem_cons.mp member with rfl | later
      · exact inside
      · exact List.mem_takeWhile_imp later
    have ended : ∀ next ∈ (rest.dropWhile isWordChar).head?, isWordChar next = false := by
      intro next member
      have stopped := List.head?_dropWhile_not isWordChar rest
      rw [Option.mem_def.mp member] at stopped
      exact stopped
    rcases lexeme_or_overflow_or_unknown (List.cons_ne_nil character _) with
      ⟨lexeme, _, isText⟩ | ⟨digits, large⟩ | ⟨notDigits, notLimit⟩
    · refine Or.inl ⟨lexeme, rest.dropWhile isWordChar, ?_, fun _ => ended⟩
      rw [isText]
      exact split
    · rw [split]
      exact Or.inr ⟨_, .overflow (List.cons_ne_nil _ _) digits large ended⟩
    · rw [split]
      exact Or.inr ⟨_, .unknown wordInside notDigits notLimit ended⟩
  · have symbol (lexeme : Lexeme) (isSymbol : lexeme.isWord = false) (back : List Char)
        (isText : character :: rest = lexeme.text ++ back) :
        ∃ (lexeme : Lexeme) (back : List Char), character :: rest = lexeme.text ++ back ∧
          (lexeme.isWord → ∀ next ∈ back.head?, isWordChar next = false) := by
      refine ⟨lexeme, back, isText, fun isWord => ?_⟩
      rw [isSymbol] at isWord
      contradiction
    by_cases known : character ∈ ['+', '-', '*', '%', '=']
    · simp only [List.mem_cons, List.not_mem_nil, or_false] at known
      rcases known with rfl | rfl | rfl | rfl | rfl
      · exact Or.inl (symbol .plus rfl rest rfl)
      · exact Or.inl (symbol .minus rfl rest rfl)
      · exact Or.inl (symbol .times rfl rest rfl)
      · exact Or.inl (symbol .percent rfl rest rfl)
      · by_cases second : rest.head? = some '='
        · obtain ⟨others, rfl⟩ := List.head?_eq_some_iff.mp second
          exact Or.inl (symbol .equals rfl others rfl)
        · exact Or.inr ⟨_, .loneEquals second⟩
    · exact Or.inr ⟨_, .foreign (by simpa using blank) (by simpa using inside) known⟩

/-- A text is that of some lexemes, or it stumbles somewhere. -/
theorem written_or_fails (text : List Char) :
    (∃ lexemes, Written lexemes text) ∨ ∃ failure, Fails text failure := by
  induction length : text.length using Nat.strongRecOn generalizing text with
  | _ _ inductionHypothesis =>
      subst length
      cases text with
      | nil => exact Or.inl ⟨[], .nothing (List.forall_mem_nil _)⟩
      | cons character rest =>
          rcases blank_or_lexeme_or_stumbles character rest with
            blank | ⟨lexeme, back, isText, ended⟩ | ⟨failure, stumbles⟩
          · have gap : Text.Blank [character] := by simpa [Text.Blank] using blank
            rcases inductionHypothesis rest.length (by simp) rest rfl with
              ⟨lexemes, written⟩ | ⟨failure, fails⟩
            · exact Or.inl ⟨lexemes, written_gap gap written⟩
            · exact Or.inr ⟨failure, fails_gap gap fails⟩
          · have shorter : back.length < (character :: rest).length := by
              rw [isText, List.length_append]
              exact Nat.lt_add_of_pos_left (List.length_pos_iff.mpr lexeme.text_ne_nil)
            rw [isText]
            rcases inductionHypothesis back.length shorter back rfl with
              ⟨lexemes, written⟩ | ⟨failure, fails⟩
            · exact Or.inl ⟨lexeme :: lexemes, written_cons lexeme written ended⟩
            · exact Or.inr ⟨failure, fails_cons lexeme fails ended⟩
          · refine Or.inr ⟨failure, [], [], character :: rest, rfl, ?_, ?_, stumbles⟩
            · exact .nothing (List.forall_mem_nil _)
            · exact divided_of_outside (List.forall_mem_nil _) _

/-- The scanner recovers what was written. A text in which lexemes are written is scanned into their
tokens; every other text fails, with the failure over which it first stumbles. -/
theorem scan_recovers_written (limits : Limits) (text : List Char) :
    (∀ lexemes, Written lexemes text →
      Token.scan limits text = .ok (lexemes.map (Lexeme.token limits))) ∧
    ((∃ failure, Token.scan limits text = .error failure) ↔ ¬∃ lexemes, Written lexemes text) ∧
    ∀ failure, Token.scan limits text = .error failure ↔ Fails text failure := by
  refine ⟨fun lexemes written => scan_of_written limits written, ?_, ?_⟩
  · constructor
    · rintro ⟨failure, refused⟩ ⟨lexemes, written⟩
      rw [scan_of_written limits written] at refused
      contradiction
    · intro notWritten
      obtain ⟨failure, fails⟩ := (written_or_fails text).resolve_left notWritten
      exact ⟨failure, scan_of_fails limits fails⟩
  · intro failure
    constructor
    · intro refused
      rcases written_or_fails text with ⟨lexemes, written⟩ | ⟨other, fails⟩
      · rw [scan_of_written limits written] at refused
        contradiction
      · rw [scan_of_fails limits fails, Except.error.injEq] at refused
        rw [← refused]
        exact fails
    · exact scan_of_fails limits

/-- Zeros in front, a wide blank, and no blank where none is needed; then three equality characters,
of which the third one fails before the number behind it could; and that number alone. -/
theorem scan_recovers_written_leftmost :
    let seven : Numeral :=
      ⟨"007".toList, by decide, List.all_eq_true.mp (by decide), by decide⟩
    let lexemes : List Lexeme := [.numeral seven, .equals, .minus, .limit .coreSize]
    let text := "\u3000007==-CORESIZE\t".toList
    let tripled := "CORESIZE===9223372036854775808".toList
    let large := "9223372036854775808 = 1".toList
    Written lexemes text ∧
    Token.scan {} text = .ok [.number 7, .equals, .minus, .number 8192] ∧
    Fails tripled .invalidToken ∧
    Token.scan {} tripled = .error .invalidToken ∧
    Fails large .malformed ∧
    Token.scan {} large = .error .malformed ∧
    ¬∃ lexemes, Written lexemes large := by
  intro seven lexemes text tripled large
  have wide : Text.Blank ['\u3000'] := List.all_eq_true.mp (by decide)
  have tab : Text.Blank ['\t'] := List.all_eq_true.mp (by decide)
  have nothing : Written [] [] := .nothing (List.forall_mem_nil _)
  have named : Written [.limit .coreSize] "CORESIZE\t".toList :=
    written_word _ (.nothing tab) (by decide)
  have negated : Written [.minus, .limit .coreSize] "-CORESIZE\t".toList :=
    written_symbol rfl named
  have compared : Written [.equals, .minus, .limit .coreSize] "==-CORESIZE\t".toList :=
    written_symbol rfl negated
  have written : Written lexemes text :=
    written_gap wide (written_word (.numeral seven) compared (by decide))
  have front : Written [.limit .coreSize, .equals] "CORESIZE==".toList :=
    written_word _ (written_lexeme .equals) (by decide)
  have ended : ∀ character ∈ "=9223372036854775808".toList.head?,
      isWordChar character = false := by
    rintro character ⟨⟩
    decide
  have tripledFails : Fails tripled .invalidToken :=
    ⟨_, _, "=9223372036854775808".toList, by decide, front, divided_of_ended _ ended,
      .loneEquals (by decide)⟩
  have overflow : Stumbles ("9223372036854775808".toList ++ " = 1".toList) .malformed :=
    .overflow (by decide) (List.all_eq_true.mp (by decide)) (by decide)
      (by rintro character ⟨⟩; decide)
  have largeFails : Fails large .malformed :=
    ⟨[], [], large, rfl, nothing, divided_of_outside (by simp) _, overflow⟩
  obtain ⟨recovered, _, _⟩ := scan_recovers_written {} text
  obtain ⟨_, _, tripledFailure⟩ := scan_recovers_written {} tripled
  obtain ⟨_, notWritten, largeFailure⟩ := scan_recovers_written {} large
  have refused := (largeFailure .malformed).mpr largeFails
  exact ⟨written, recovered lexemes written, tripledFails,
    (tripledFailure .invalidToken).mpr tripledFails, largeFails, refused,
    notWritten.mp ⟨_, refused⟩⟩

end CoreWar.Assertion
