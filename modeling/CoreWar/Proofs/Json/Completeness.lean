import CoreWar.Json.Record
import CoreWar.Proofs.Json.Grammar
import CoreWar.Proofs.Text.Words

/-!
Contract: every JSON text is read as the value that it stands for.

Owns:
- reading strings and numbers in front of any text that does not go on with them;
- reading values, items and members with blanks around every token;
- the value of a whole text.

Does not own: the grammar, see `CoreWar.Proofs.Json.Grammar`.

A reader is started with a number of steps. A text is never shorter than the steps it takes to read
it, so its length is the measure throughout.
-/

namespace CoreWar.Json

/-! ## Blanks -/

theorem isBlank_of_blanks {gap : List Char} (blanks : Blanks gap) :
    ∀ character ∈ gap, isBlank character = true := by
  intro character member
  have blank := blanks character member
  simpa [isBlank, or_assoc] using blank

theorem skipBlanks_append {gap : List Char} (blanks : Blanks gap) (rest : List Char) :
    skipBlanks (gap ++ rest) = skipBlanks rest :=
  List.dropWhile_append_of_pos (isBlank_of_blanks blanks)

theorem skipBlanks_cons {first : Char} (solid : isBlank first = false) (rest : List Char) :
    skipBlanks (first :: rest) = first :: rest :=
  List.dropWhile_cons_of_neg (by simp [solid])

/-! ## Strings -/

theorem isHighSurrogate_iff (code : Nat) :
    isHighSurrogate code = true ↔ 0xD800 ≤ code ∧ code ≤ 0xDBFF := by
  simp [isHighSurrogate]

theorem isLowSurrogate_iff (code : Nat) :
    isLowSurrogate code = true ↔ 0xDC00 ≤ code ∧ code ≤ 0xDFFF := by
  simp [isLowSurrogate]

theorem toNat_lt (character : Char) : character.toNat < 0x110000 := by
  have valid : character.toNat < 0xD800 ∨
      (0xDFFF < character.toNat ∧ character.toNat < 0x110000) := character.valid
  omega

theorem isHighSurrogate_toNat (character : Char) : isHighSurrogate character.toNat = false := by
  have valid : character.toNat < 0xD800 ∨
      (0xDFFF < character.toNat ∧ character.toNat < 0x110000) := character.valid
  simp only [isHighSurrogate, Bool.and_eq_false_iff, decide_eq_false_iff_not]
  omega

theorem isLowSurrogate_toNat (character : Char) : isLowSurrogate character.toNat = false := by
  have valid : character.toNat < 0xD800 ∨
      (0xDFFF < character.toNat ∧ character.toNat < 0x110000) := character.valid
  simp only [isLowSurrogate, Bool.and_eq_false_iff, decide_eq_false_iff_not]
  omega

/-- A code point of a character is no half of a pair, so what follows is spelled by itself. -/
theorem unicode?_toNat_cons (character : Char) (codes : List Nat) :
    unicode? (character.toNat :: codes) = (unicode? codes).map (character :: ·) := by
  have high := isHighSurrogate_toNat character
  have low := isLowSurrogate_toNat character
  cases codes with
  | nil => simp [unicode?, high, low, Char.ofNat_toNat]
  | cons next rest => simp [unicode?, high, low, Char.ofNat_toNat]

theorem unicode?_of_spells {codes : List Nat} {characters : List Char}
    (spells : Spells codes characters) :
    unicode? codes = some characters := by
  induction spells with
  | nil => rfl
  | single character _ inductionHypothesis =>
      rw [unicode?_toNat_cons, inductionHypothesis]
      rfl
  | @pair high low character codes characters isHigh isLow value _ inductionHypothesis =>
      have paired : (isHighSurrogate high && isLowSurrogate low) = true := by
        rw [(isHighSurrogate_iff high).mpr isHigh, (isLowSurrogate_iff low).mpr isLow]
        rfl
      have code : surrogatePair high low = character.toNat := by
        rw [value]
        rfl
      have isCharacter : Char.ofNat (surrogatePair high low) = character := by
        rw [code, Char.ofNat_toNat]
      rw [unicode?, if_pos paired, inductionHypothesis, isCharacter]
      rfl

/-- A code point that is no surrogate is that of a character. -/
theorem toNat_ofNat_of_not_surrogate
    {code : Nat}
    (bounded : code < 0x110000)
    (notSurrogate : (isHighSurrogate code || isLowSurrogate code) = false) :
    (Char.ofNat code).toNat = code := by
  have split := Bool.or_eq_false_iff.mp notSurrogate
  have high : ¬(0xD800 ≤ code ∧ code ≤ 0xDBFF) := by
    rw [← isHighSurrogate_iff, split.1]
    exact Bool.false_ne_true
  have low : ¬(0xDC00 ≤ code ∧ code ≤ 0xDFFF) := by
    rw [← isLowSurrogate_iff, split.2]
    exact Bool.false_ne_true
  apply Text.toNat_ofNat_of_valid
  unfold Nat.isValidChar
  omega

/-- A surrogate pair is a character beyond those of a single code unit. -/
theorem toNat_ofNat_surrogatePair
    {high low : Nat}
    (isHigh : 0xD800 ≤ high ∧ high ≤ 0xDBFF)
    (isLow : 0xDC00 ≤ low ∧ low ≤ 0xDFFF) :
    (Char.ofNat (surrogatePair high low)).toNat = surrogatePair high low := by
  apply Text.toNat_ofNat_of_valid
  unfold Nat.isValidChar surrogatePair
  omega

theorem spells_of_unicode?
    {codes : List Nat}
    (bounded : ∀ code ∈ codes, code < 0x110000)
    {characters : List Char}
    (spelled : unicode? codes = some characters) :
    Spells codes characters := by
  -- The cases are those of the reader: a pair, one half of a pair, or a character by itself, each in
  -- front of others or at the end.
  fun_induction unicode? codes generalizing characters with
  | case1 =>
      cases spelled
      exact .nil
  | case2 high low rest paired inductionHypothesis =>
      rw [Bool.and_eq_true, isHighSurrogate_iff, isLowSurrogate_iff] at paired
      obtain ⟨others, spellsOthers, rfl⟩ := Option.map_eq_some_iff.mp spelled
      have restBounded : ∀ code ∈ rest, code < 0x110000 := by
        intro code member
        exact bounded code (List.mem_cons_of_mem _ (List.mem_cons_of_mem _ member))
      exact .pair paired.1 paired.2 (toNat_ofNat_surrogatePair paired.1 paired.2)
        (inductionHypothesis restBounded spellsOthers)
  | case3 high low rest _ surrogate => contradiction
  | case4 high low rest _ notSurrogate inductionHypothesis =>
      obtain ⟨others, spellsOthers, rfl⟩ := Option.map_eq_some_iff.mp spelled
      have isCharacter := toNat_ofNat_of_not_surrogate (bounded high List.mem_cons_self)
        (Bool.eq_false_iff.mpr notSurrogate)
      have restBounded : ∀ code ∈ low :: rest, code < 0x110000 := by
        intro code member
        exact bounded code (List.mem_cons_of_mem _ member)
      have single := Spells.single (Char.ofNat high) (inductionHypothesis restBounded spellsOthers)
      rwa [isCharacter] at single
  | case5 code surrogate => contradiction
  | case6 code notSurrogate =>
      have isCharacter := toNat_ofNat_of_not_surrogate (bounded code List.mem_cons_self)
        (Bool.eq_false_iff.mpr notSurrogate)
      have single := Spells.single (Char.ofNat code) Spells.nil
      rw [isCharacter] at single
      cases spelled
      exact single

theorem spells_iff
    {codes : List Nat}
    (bounded : ∀ code ∈ codes, code < 0x110000)
    (characters : List Char) :
    Spells codes characters ↔ unicode? codes = some characters :=
  ⟨unicode?_of_spells, spells_of_unicode? bounded⟩

theorem hexDigit?_of_hexDigit {digit : Char} {value : Nat} (isDigit : HexDigit digit value) :
    hexDigit? digit = some value ∧ value < 16 := by
  have lower : ∀ value < 16, hexDigit? (Nat.digitChar value) = some value := by decide
  have upper : ∀ value < 16, hexDigit? (Nat.digitChar value).toUpper = some value := by decide
  cases isDigit with
  | lower value below => exact ⟨lower value below, below⟩
  | upper value below => exact ⟨upper value below, below⟩

theorem hexUnit?_of_hexDigit
    {first second third fourth : Char}
    {a b c d : Nat}
    (isFirst : HexDigit first a)
    (isSecond : HexDigit second b)
    (isThird : HexDigit third c)
    (isFourth : HexDigit fourth d) :
    hexUnit? first second third fourth = some (a * 0x1000 + b * 0x100 + c * 0x10 + d) := by
  simp only [hexUnit?, (hexDigit?_of_hexDigit isFirst).1, (hexDigit?_of_hexDigit isSecond).1,
    (hexDigit?_of_hexDigit isThird).1, (hexDigit?_of_hexDigit isFourth).1, Option.bind_eq_bind,
    Option.bind_some, Option.pure_def]

/-- No code point of a string is beyond those of characters. -/
theorem Quoted.bounded {body : List Char} {codes : List Nat} (quoted : Quoted body codes) :
    ∀ code ∈ codes, code < 0x110000 := by
  induction quoted with
  | nil => simp
  | plain _ _ _ _ inductionHypothesis =>
      exact List.forall_mem_cons.mpr ⟨toNat_lt _, inductionHypothesis⟩
  | escape _ _ inductionHypothesis =>
      exact List.forall_mem_cons.mpr ⟨toNat_lt _, inductionHypothesis⟩
  | unit isFirst isSecond isThird isFourth _ inductionHypothesis =>
      refine List.forall_mem_cons.mpr ⟨?_, inductionHypothesis⟩
      have first := (hexDigit?_of_hexDigit isFirst).2
      have second := (hexDigit?_of_hexDigit isSecond).2
      have third := (hexDigit?_of_hexDigit isThird).2
      have fourth := (hexDigit?_of_hexDigit isFourth).2
      omega

/-- A letter behind a backslash is read as the character that it stands for. -/
theorem stringCodes_escaped
    {letter character : Char}
    (escape : escaped? letter = some character)
    (rest : List Char) :
    stringCodes ('\\' :: letter :: rest) =
      (stringCodes rest).map fun read => (character.toNat :: read.1, read.2) := by
  have notUnit : letter ≠ 'u' := by
    intro same
    rw [same] at escape
    contradiction
  rw [stringCodes]
  · rw [escape]
    cases stringCodes rest with
    | none => rfl
    | some read => rfl
  · intro first second third fourth others same
    exact absurd same notUnit

/-- A character that needs no escape is read as itself. -/
theorem stringCodes_plain
    {character : Char}
    (notQuote : character ≠ '"')
    (notBackslash : character ≠ '\\')
    (printable : 0x20 ≤ character.toNat)
    (rest : List Char) :
    stringCodes (character :: rest) =
      (stringCodes rest).map fun read => (character.toNat :: read.1, read.2) := by
  have noEscape : (character == '\\' || decide (character.toNat < 0x20)) = false := by
    simp [notBackslash, printable]
  rw [stringCodes]
  · rw [noEscape]
    cases stringCodes rest with
    | none => rfl
    | some read => rfl
  · exact notQuote
  · intro first second third fourth others same
    exact absurd same notBackslash
  · intro next others same
    exact absurd same notBackslash

theorem escaped?_of_mem {letter character : Char} (member : (letter, character) ∈ escapes) :
    escaped? letter = some character := by
  have all : ∀ pair ∈ escapes, escaped? pair.1 = some pair.2 := by decide
  exact all _ member

theorem stringCodes_of_quoted
    {body : List Char}
    {codes : List Nat}
    (quoted : Quoted body codes)
    (rest : List Char) :
    stringCodes (body ++ '"' :: rest) = some (codes, rest) := by
  induction quoted with
  | nil => rfl
  | plain notQuote notBackslash printable _ inductionHypothesis =>
      rw [List.cons_append, stringCodes_plain notQuote notBackslash printable, inductionHypothesis]
      rfl
  | escape member _ inductionHypothesis =>
      rw [List.cons_append, List.cons_append, stringCodes_escaped (escaped?_of_mem member),
        inductionHypothesis]
      rfl
  | unit isFirst isSecond isThird isFourth _ inductionHypothesis =>
      simp only [List.cons_append]
      rw [stringCodes, hexUnit?_of_hexDigit isFirst isSecond isThird isFourth, inductionHypothesis]
      rfl

/-- A string is read behind its opening quotation mark, with the closing one. -/
theorem readText_of_stringText
    {body : List Char}
    {content : Content}
    (isString : StringText body content)
    (rest : List Char) :
    readText (body ++ '"' :: rest) = some (content, rest) := by
  obtain ⟨codes, quoted, spells⟩ := isString
  have sameContent : (unicode? codes).map String.ofList = content := by
    cases spelled : unicode? codes with
    | some characters =>
        exact ((spells characters).mp (spells_of_unicode? quoted.bounded spelled)).symm
    | none =>
        cases content with
        | none => rfl
        | some content =>
            have spelt := unicode?_of_spells ((spells content.toList).mpr (by simp))
            rw [spelled] at spelt
            contradiction
  rw [readText, stringCodes_of_quoted quoted]
  show some ((unicode? codes).map String.ofList, rest) = _
  rw [sameContent]

/-! ## Numbers -/

/-- Whether a number could go on with this character. -/
def continuesNumber (character : Char) : Bool :=
  character.isDigit || character == '.' || character == 'e' || character == 'E'

/-- A number is not continued by this text. -/
def NumberEnds (rest : List Char) : Prop :=
  ∀ character ∈ rest.head?, continuesNumber character = false

/-- Digits are not continued by this text. -/
def DigitsEnd (rest : List Char) : Prop :=
  ∀ character ∈ rest.head?, character.isDigit = false

theorem NumberEnds.digitsEnd {rest : List Char} (ends : NumberEnds rest) : DigitsEnd rest := by
  intro character member
  have ended := ends character member
  simp only [continuesNumber, Bool.or_eq_false_iff] at ended
  exact ended.1.1.1

theorem readDigits_append
    {digits rest : List Char}
    (isDigits : Digits digits)
    (ended : DigitsEnd rest) :
    readDigits (digits ++ rest) = some (digits, rest) := by
  rw [readDigits, Text.span_append isDigits.allDigits ended]
  cases digits with
  | nil => exact absurd rfl isDigits.notEmpty
  | cons digit others => rfl

theorem readWhole_append
    {whole rest : List Char}
    (isWhole : Digits whole)
    (noZero : whole.head? = some '0' → whole = ['0'])
    (ended : DigitsEnd rest) :
    readWhole (whole ++ rest) = some (whole, rest) := by
  simp only [readWhole, readDigits_append isWhole ended, Option.bind_eq_bind, Option.bind_some]
  split
  · rename_i zeroInFront
    rw [Prod.mk.injEq] at zeroInFront
    have alone := noZero (by rw [zeroInFront.1]; rfl)
    simp [zeroInFront.1] at alone
  · rename_i same
    rw [same]

/-- A fraction starts with its point; what follows one is told from it. -/
theorem readFraction_append
    {behindPoint rest : List Char}
    {fraction : Option (List Char)}
    (isFraction : FractionText behindPoint fraction)
    (ended : DigitsEnd rest)
    (noPoint : rest.head? ≠ some '.') :
    readFraction (behindPoint ++ rest) = some (fraction, rest) := by
  cases isFraction with
  | absent =>
      rw [List.nil_append, readFraction]
      intro others same
      exact noPoint (by rw [same]; rfl)
  | present isDigits =>
      rw [List.cons_append, readFraction, readDigits_append isDigits ended]
      rfl

/-- Digits start with no sign. -/
theorem readSign_of_digits {digits : List Char} (isDigits : Digits digits) (rest : List Char) :
    readSign (digits ++ rest) = (false, digits ++ rest) := by
  cases digits with
  | nil => exact absurd rfl isDigits.notEmpty
  | cons digit others =>
      have isDigit := isDigits.allDigits digit List.mem_cons_self
      rw [List.cons_append, readSign]
      · rintro _ ⟨⟩
        exact absurd isDigit (by decide)
      · rintro _ ⟨⟩
        exact absurd isDigit (by decide)

theorem readExponent_of_mark {mark : Char} (isMark : mark = 'e' ∨ mark = 'E') (text : List Char) :
    readExponent (mark :: text) =
      (readDigits (readSign text).2).map fun read =>
        (some (if (readSign text).1 then -(Nat.ofDigitChars 10 read.1 0 : Int)
          else Nat.ofDigitChars 10 read.1 0), read.2) := by
  have marked : (mark == 'e' || mark == 'E') = true := by simpa using isMark
  simp only [readExponent, marked, if_true]
  cases readDigits (readSign text).2 with
  | none => rfl
  | some read => rfl

theorem readExponent_append
    {behindLetter rest : List Char}
    {exponent : Option Int}
    (isExponent : ExponentText behindLetter exponent)
    (ends : NumberEnds rest) :
    readExponent (behindLetter ++ rest) = some (exponent, rest) := by
  cases isExponent with
  | absent =>
      cases rest with
      | nil => rfl
      | cons character others =>
          have ended := ends character rfl
          simp only [continuesNumber, Bool.or_eq_false_iff] at ended
          simp [readExponent, ended.1.2, ended.2]
  | unsigned isMark isDigits =>
      rw [List.cons_append, readExponent_of_mark isMark, readSign_of_digits isDigits,
        readDigits_append isDigits ends.digitsEnd]
      rfl
  | positive isMark isDigits =>
      rw [List.cons_append, List.cons_append, readExponent_of_mark isMark, readSign,
        readDigits_append isDigits ends.digitsEnd]
      rfl
  | negative isMark isDigits =>
      rw [List.cons_append, List.cons_append, readExponent_of_mark isMark, readSign,
        readDigits_append isDigits ends.digitsEnd]
      rfl

/-- An exponent starts with its letter, so neither digits nor a point go on. -/
theorem digitsEnd_exponent_append
    {behindLetter rest : List Char}
    {exponent : Option Int}
    (isExponent : ExponentText behindLetter exponent)
    (ends : NumberEnds rest) :
    DigitsEnd (behindLetter ++ rest) ∧ (behindLetter ++ rest).head? ≠ some '.' := by
  have letter (mark : Char) (tail : List Char) (isMark : mark = 'e' ∨ mark = 'E') :
      DigitsEnd (mark :: tail) ∧ (mark :: tail).head? ≠ some '.' := by
    rcases isMark with rfl | rfl
    · exact ⟨by rintro _ ⟨⟩; rfl, by simp⟩
    · exact ⟨by rintro _ ⟨⟩; rfl, by simp⟩
  cases isExponent with
  | absent =>
      refine ⟨ends.digitsEnd, ?_⟩
      intro point
      exact absurd (ends '.' point) (by decide)
  | unsigned isMark => exact letter _ _ isMark
  | positive isMark => exact letter _ _ isMark
  | negative isMark => exact letter _ _ isMark

theorem readMagnitude_append
    {negative : Bool}
    {text rest : List Char}
    {literal : Number}
    (magnitude : MagnitudeText negative text literal)
    (ends : NumberEnds rest) :
    readMagnitude negative (text ++ rest) = some (literal, rest) := by
  cases magnitude with
  | @parts whole behindPoint behindLetter fraction exponent isWhole noZero isFraction isExponent =>
      obtain ⟨ended, noPoint⟩ := digitsEnd_exponent_append isExponent ends
      have wholeEnded : DigitsEnd (behindPoint ++ (behindLetter ++ rest)) := by
        cases isFraction with
        | absent => exact ended
        | present => rintro _ ⟨⟩; rfl
      simp only [List.append_assoc, readMagnitude, readWhole_append isWhole noZero wholeEnded,
        readFraction_append isFraction ended noPoint, readExponent_append isExponent ends,
        Option.bind_eq_bind, Option.bind_some, Option.pure_def]

/-- A number starts with a digit behind its sign. -/
theorem MagnitudeText.exists_eq_cons
    {negative : Bool}
    {text : List Char}
    {literal : Number}
    (magnitude : MagnitudeText negative text literal) :
    ∃ digit others, text = digit :: others ∧ digit.isDigit = true := by
  cases magnitude with
  | parts isWhole =>
      obtain ⟨digit, others, rfl⟩ := List.exists_cons_of_ne_nil isWhole.notEmpty
      exact ⟨digit, _, rfl, isWhole.allDigits digit List.mem_cons_self⟩

theorem NumberText.exists_eq_cons
    {text : List Char}
    {literal : Number}
    (isNumber : NumberText text literal) :
    ∃ first others, text = first :: others ∧ (first.isDigit = true ∨ first = '-') := by
  cases isNumber with
  | positive magnitude =>
      obtain ⟨digit, others, rfl, isDigit⟩ := magnitude.exists_eq_cons
      exact ⟨digit, others, rfl, Or.inl isDigit⟩
  | negative _ => exact ⟨'-', _, rfl, Or.inr rfl⟩

theorem readNumber_append
    {text rest : List Char}
    {literal : Number}
    (isNumber : NumberText text literal)
    (ends : NumberEnds rest) :
    readNumber (text ++ rest) = some (literal, rest) := by
  cases isNumber with
  | positive magnitude =>
      obtain ⟨digit, others, rfl, isDigit⟩ := magnitude.exists_eq_cons
      rw [← readMagnitude_append magnitude ends, List.cons_append, readNumber]
      rintro _ ⟨⟩
      exact absurd isDigit (by decide)
  | negative magnitude => exact readMagnitude_append magnitude ends

/-! ## Values -/

theorem isBlank_of_number_start {first : Char} (starts : first.isDigit = true ∨ first = '-') :
    isBlank first = false := by
  cases blank : isBlank first with
  | false => rfl
  | true =>
      simp only [isBlank, Bool.or_eq_true, beq_iff_eq] at blank
      rcases blank with ((rfl | rfl) | rfl) | rfl
      all_goals exact absurd starts (by decide)

/-- What starts like a number is read as one. -/
theorem readValue_of_number
    {first : Char}
    (starts : first.isDigit = true ∨ first = '-')
    (fuel : Nat)
    (rest : List Char) :
    readValue (fuel + 1) (first :: rest) =
      (readNumber (first :: rest)).map fun read => (.number read.1, read.2) := by
  have other (character : Char) (unlike : !(character.isDigit || character == '-')) :
      first ≠ character := by
    rintro rfl
    rcases starts with isDigit | rfl
    · simp [isDigit] at unlike
    · simp at unlike
  rw [readValue, skipBlanks_cons (isBlank_of_number_start starts)]
  split
  · rename_i same
    exact absurd (List.cons.inj same).1 (other _ rfl)
  · rename_i same
    exact absurd (List.cons.inj same).1 (other _ rfl)
  · rename_i same
    exact absurd (List.cons.inj same).1 (other _ rfl)
  · rename_i same
    exact absurd (List.cons.inj same).1 (other _ rfl)
  · rename_i same
    exact absurd (List.cons.inj same).1 (other _ rfl)
  · rename_i same
    exact absurd (List.cons.inj same).1 (other _ rfl)
  · rfl

/-- Blanks in front of a value are skipped. -/
theorem readValue_blanks_append
    {gap : List Char}
    (blanks : Blanks gap)
    (fuel : Nat)
    (text : List Char) :
    readValue (fuel + 1) (gap ++ text) = readValue (fuel + 1) text := by
  rw [readValue, readValue, skipBlanks_append blanks]

/-- A value starts with neither a blank nor the bracket that closes an array. -/
theorem ValueText.exists_eq_cons
    {text : List Char}
    {value : Value}
    (isValue : ValueText text value) :
    ∃ first others, text = first :: others ∧ isBlank first = false ∧ first ≠ ']' := by
  cases isValue with
  | isNull => exact ⟨'n', _, rfl, by decide, by decide⟩
  | isTrue => exact ⟨'t', _, rfl, by decide, by decide⟩
  | isFalse => exact ⟨'f', _, rfl, by decide, by decide⟩
  | number isNumber =>
      obtain ⟨first, others, rfl, starts⟩ := isNumber.exists_eq_cons
      exact ⟨first, others, rfl, isBlank_of_number_start starts, by
        rintro rfl
        exact absurd starts (by decide)⟩
  | text => exact ⟨'"', _, rfl, by decide, by decide⟩
  | emptyArray => exact ⟨'[', _, rfl, by decide, by decide⟩
  | array => exact ⟨'[', _, rfl, by decide, by decide⟩
  | emptyObject => exact ⟨'\x7b', _, rfl, by decide, by decide⟩
  | object => exact ⟨'\x7b', _, rfl, by decide, by decide⟩

/-- Behind blanks, items start with neither a blank nor the closing bracket. -/
theorem ItemsText.skipBlanks_append_eq_cons
    {text : List Char}
    {items : List Value}
    (areItems : ItemsText text items)
    (rest : List Char) :
    ∃ first others, skipBlanks (text ++ rest) = first :: others ∧ first ≠ ']' := by
  have element {text : List Char} {value : Value} (isItem : ElementText text value)
      (rest : List Char) :
      ∃ first others, skipBlanks (text ++ rest) = first :: others ∧ first ≠ ']' := by
    cases isItem with
    | surrounded frontBlanks isValue =>
        obtain ⟨first, others, rfl, solid, notClosing⟩ := isValue.exists_eq_cons
        rw [List.append_assoc, skipBlanks_append frontBlanks]
        exact ⟨first, _, skipBlanks_cons solid _, notClosing⟩
  cases areItems with
  | one isItem => exact element isItem rest
  | more isItem =>
      rw [List.append_assoc]
      exact element isItem _

/-- Behind blanks, members start with a key. -/
theorem MembersText.skipBlanks_append_eq_cons
    {text : List Char}
    {members : List (Content × Value)}
    (areMembers : MembersText text members)
    (rest : List Char) :
    ∃ others, skipBlanks (text ++ rest) = '"' :: others := by
  have entry {text : List Char} {member : Content × Value} (isMember : MemberText text member)
      (rest : List Char) :
      ∃ others, skipBlanks (text ++ rest) = '"' :: others := by
    cases isMember with
    | colon frontBlanks =>
        rw [List.append_assoc, skipBlanks_append frontBlanks]
        exact ⟨_, skipBlanks_cons (by decide) _⟩
  cases areMembers with
  | one isMember => exact entry isMember rest
  | more isMember =>
      rw [List.append_assoc]
      exact entry isMember _

/-- With so many steps, values are read. -/
def ReadsValues (fuel : Nat) : Prop :=
  ∀ text value rest, ValueText text value → NumberEnds rest → text.length ≤ fuel →
    readValue fuel (text ++ rest) = some (value, rest)

/-- With so many steps, the items of an array are read. -/
def ReadsItems (fuel : Nat) : Prop :=
  ∀ text items rest, ItemsText text items → text.length < fuel →
    readItems fuel (text ++ ']' :: rest) = some (items, rest)

/-- With so many steps, the members of an object are read. -/
def ReadsMembers (fuel : Nat) : Prop :=
  ∀ text members rest, MembersText text members → text.length < fuel →
    readMembers fuel (text ++ '\x7d' :: rest) = some (members, rest)

/-- What stands behind a value ends it if it is a number: a blank, a comma or a bracket. -/
theorem numberEnds_blanks_append
    {gap rest : List Char}
    (blanks : Blanks gap)
    (ends : NumberEnds rest) :
    NumberEnds (gap ++ rest) := by
  cases gap with
  | nil => exact ends
  | cons blank others =>
      rintro character ⟨⟩
      have isBlank := blanks blank List.mem_cons_self
      simp only [List.mem_cons, List.not_mem_nil, or_false] at isBlank
      rcases isBlank with rfl | rfl | rfl | rfl
      all_goals rfl

theorem numberEnds_cons
    {first : Char}
    (ends : continuesNumber first = false)
    (rest : List Char) :
    NumberEnds (first :: rest) := by
  rintro character ⟨⟩
  exact ends

/-- A value is read with the blanks in front of it; the blanks behind it are left. -/
theorem readValue_of_elementText
    {fuel : Nat}
    (values : ReadsValues fuel)
    {text rest : List Char}
    {value : Value}
    (isElement : ElementText text value)
    (ends : NumberEnds rest)
    (enough : text.length ≤ fuel) :
    ∃ back, Blanks back ∧ readValue fuel (text ++ rest) = some (value, back ++ rest) := by
  cases isElement with
  | @surrounded front text back _ frontBlanks isValue backBlanks =>
      refine ⟨back, backBlanks, ?_⟩
      simp only [List.length_append] at enough
      have read := values text value (back ++ rest) isValue
        (numberEnds_blanks_append backBlanks ends) (by omega)
      obtain ⟨first, others, rfl, _⟩ := isValue.exists_eq_cons
      cases fuel with
      | zero => simp at enough
      | succ fuel =>
          rw [List.append_assoc, readValue_blanks_append frontBlanks, List.append_assoc]
          exact read

theorem readsItems_succ
    {fuel : Nat}
    (values : ReadsValues fuel)
    (items : ReadsItems fuel) :
    ReadsItems (fuel + 1) := by
  intro text all rest areItems enough
  cases areItems with
  | one isItem =>
      have ends := numberEnds_cons (show continuesNumber ']' = false by decide) rest
      obtain ⟨back, backBlanks, read⟩ :=
        readValue_of_elementText values isItem ends (by omega)
      rw [readItems, read]
      simp only [Option.bind_eq_bind, Option.bind_some]
      rw [skipBlanks_append backBlanks, skipBlanks_cons (by decide)]
      rfl
  | @more text others item items' isItem areItems =>
      simp only [List.length_append, List.length_cons] at enough
      have ends := numberEnds_cons (show continuesNumber ',' = false by decide)
        (others ++ ']' :: rest)
      obtain ⟨back, backBlanks, read⟩ :=
        readValue_of_elementText values isItem ends (by omega)
      have later := items others items' rest areItems (by omega)
      rw [List.append_assoc, List.cons_append, readItems, read]
      simp only [Option.bind_eq_bind, Option.bind_some]
      rw [skipBlanks_append backBlanks, skipBlanks_cons (by decide)]
      simp only [later]
      rfl

/-- A member is read with the comma or the brace behind it. -/
theorem readMembers_of_memberText
    {fuel : Nat}
    (values : ReadsValues fuel)
    {text : List Char}
    {member : Content × Value}
    (isMember : MemberText text member)
    (enough : text.length ≤ fuel)
    {next : Char}
    (isNext : next = ',' ∨ next = '\x7d')
    (later : List Char) :
    readMembers (fuel + 1) (text ++ next :: later) =
      if next = ',' then (readMembers fuel later).map fun read => (member :: read.1, read.2)
      else some ([member], later) := by
  have ends : NumberEnds (next :: later) := by
    rcases isNext with rfl | rfl
    · exact numberEnds_cons (by decide) later
    · exact numberEnds_cons (by decide) later
  cases isMember with
  | @colon front body back text key value frontBlanks isKey backBlanks isValue =>
      simp only [List.length_append, List.length_cons] at enough
      obtain ⟨behind, behindBlanks, read⟩ :=
        readValue_of_elementText values isValue ends (by omega)
      simp only [List.append_assoc, List.cons_append]
      rw [readMembers, skipBlanks_append frontBlanks, skipBlanks_cons (by decide)]
      simp only [readText_of_stringText isKey, Option.bind_eq_bind, Option.bind_some]
      rw [skipBlanks_append backBlanks, skipBlanks_cons (by decide)]
      simp only [read, Option.bind_some]
      rw [skipBlanks_append behindBlanks]
      rcases isNext with rfl | rfl
      · rw [skipBlanks_cons (by decide), if_pos rfl]
        show (readMembers fuel later).bind _ = _
        cases readMembers fuel later with
        | none => rfl
        | some read => rfl
      · rw [skipBlanks_cons (by decide), if_neg (by decide)]
        rfl

theorem readsMembers_succ
    {fuel : Nat}
    (values : ReadsValues fuel)
    (members : ReadsMembers fuel) :
    ReadsMembers (fuel + 1) := by
  intro text all rest areMembers enough
  cases areMembers with
  | one isMember =>
      rw [readMembers_of_memberText values isMember (by omega) (Or.inr rfl),
        if_neg (by decide)]
  | @more text others member members' isMember areMembers =>
      simp only [List.length_append, List.length_cons] at enough
      rw [List.append_assoc, List.cons_append,
        readMembers_of_memberText values isMember (by omega) (Or.inl rfl), if_pos rfl,
        members others members' rest areMembers (by omega)]
      rfl

theorem readsValues_succ
    {fuel : Nat}
    (items : ReadsItems fuel)
    (members : ReadsMembers fuel) :
    ReadsValues (fuel + 1) := by
  intro text value rest isValue ends enough
  cases isValue with
  | isNull => rfl
  | isTrue => rfl
  | isFalse => rfl
  | number isNumber =>
      obtain ⟨first, others, rfl, starts⟩ := isNumber.exists_eq_cons
      rw [List.cons_append, readValue_of_number starts, ← List.cons_append,
        readNumber_append isNumber ends]
      rfl
  | @text body content isString =>
      simp only [List.cons_append, List.append_assoc, List.nil_append]
      rw [readValue, skipBlanks_cons (by decide)]
      simp only [readText_of_stringText isString, Option.map_some]
  | @emptyArray gap blanks =>
      simp only [List.cons_append, List.append_assoc, List.nil_append]
      rw [readValue, skipBlanks_cons (by decide)]
      simp only [skipBlanks_append blanks]
      rw [skipBlanks_cons (by decide)]
      rfl
  | @array text all areItems =>
      simp only [List.length_append, List.length_cons, List.length_nil] at enough
      have read := items text all rest areItems (by omega)
      obtain ⟨first, others, skipped, notClosing⟩ :=
        areItems.skipBlanks_append_eq_cons (']' :: rest)
      simp only [List.cons_append, List.append_assoc, List.nil_append]
      rw [readValue, skipBlanks_cons (by decide)]
      simp only [skipped]
      split
      · rename_i same
        exact absurd (List.cons.inj same).1 notClosing
      · rw [read]
        rfl
  | @emptyObject gap blanks =>
      simp only [List.cons_append, List.append_assoc, List.nil_append]
      rw [readValue, skipBlanks_cons (by decide)]
      simp only [skipBlanks_append blanks]
      rw [skipBlanks_cons (by decide)]
      rfl
  | @object text all areMembers =>
      simp only [List.length_append, List.length_cons, List.length_nil] at enough
      have read := members text all rest areMembers (by omega)
      obtain ⟨others, skipped⟩ := areMembers.skipBlanks_append_eq_cons ('\x7d' :: rest)
      simp only [List.cons_append, List.append_assoc, List.nil_append]
      rw [readValue, skipBlanks_cons (by decide)]
      simp only [skipped, read]
      rfl

/-- Every text of the grammar is read, by induction on the steps: each reader spends one and hands
the rest on, which is still as many as what it hands on has characters. -/
theorem reads_texts (fuel : Nat) : ReadsValues fuel ∧ ReadsItems fuel ∧ ReadsMembers fuel := by
  induction fuel with
  | zero =>
      refine ⟨?_, ?_, ?_⟩
      · intro text value rest isValue _ enough
        obtain ⟨first, others, rfl, _⟩ := isValue.exists_eq_cons
        simp at enough
      · intro text items rest _ enough
        exact absurd enough (Nat.not_lt_zero _)
      · intro text members rest _ enough
        exact absurd enough (Nat.not_lt_zero _)
  | succ fuel inductionHypothesis =>
      obtain ⟨values, items, members⟩ := inductionHypothesis
      exact ⟨readsValues_succ items members, readsItems_succ values items,
        readsMembers_succ values members⟩

/-- A text of the grammar has the value that it stands for. -/
theorem parse?_of_elementText
    {text : List Char}
    {value : Value}
    (isElement : ElementText text value) :
    parse? text = some value := by
  have values := (reads_texts (2 * text.length + 2)).1
  have ends : NumberEnds [] := by simp [NumberEnds]
  obtain ⟨back, backBlanks, read⟩ :=
    readValue_of_elementText values isElement ends (by omega)
  rw [List.append_nil] at read
  have nothingLeft : skipBlanks (back ++ []) = [] := by
    rw [skipBlanks_append backBlanks]
    rfl
  rw [parse?, read]
  simp only [Option.bind_eq_bind, Option.bind_some, nothingLeft, List.isEmpty_nil, if_true]

end CoreWar.Json
