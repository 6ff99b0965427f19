import CoreWar.Proofs.Assembly.Source

/-!
Contract: a line that holds an item reads as the statement of that item.

Owns:
- the characters that words, numerals and arguments are made of;
- the statement of an item, and the parts of its line;
- the header of a declared source.

Does not own: what the statements amount to, see `CoreWar.Proofs.Assembly.Reference`.
-/

namespace CoreWar.Assembly

/-! ## Characters -/

/-- Characters of names and numerals only. -/
def Plain (text : List Char) : Prop :=
  ∀ character ∈ text, isFieldStart character = true

theorem toNat_of_isAlpha {character : Char} (letter : character.isAlpha = true) :
    (65 ≤ character.toNat ∧ character.toNat ≤ 90) ∨
      (97 ≤ character.toNat ∧ character.toNat ≤ 122) := by
  rcases (Bool.or_eq_true _ _).mp letter with capital | small
  · exact Or.inl (of_decide_eq_true capital)
  · obtain ⟨atLeast, atMost⟩ := (Bool.and_eq_true _ _).mp small
    exact Or.inr ⟨of_decide_eq_true atLeast, of_decide_eq_true atMost⟩

/-- The code points of such characters. -/
theorem toNat_of_isFieldStart {character : Char} (plain : isFieldStart character = true) :
    43 ≤ character.toNat ∧ character.toNat ≤ 122 := by
  simp only [isFieldStart, Char.isAlphanum, Bool.or_eq_true, beq_iff_eq] at plain
  rcases plain with (((letter | digit) | rfl) | rfl) | rfl
  · have bounds := toNat_of_isAlpha letter
    omega
  · have bounds := Char.isDigit_iff_toNat.mp digit
    simp only [Char.reduceToNat] at bounds
    omega
  · decide
  · decide
  · decide

theorem isBlank_of_isFieldStart {character : Char} (plain : isFieldStart character = true) :
    Text.isBlank character = false := by
  obtain ⟨atLeast, atMost⟩ := toNat_of_isFieldStart plain
  simp only [Text.isBlank, Text.withinRanges, Text.blankRanges, List.any_cons, List.any_nil,
    Bool.or_eq_false_iff, Bool.and_eq_false_iff, decide_eq_false_iff_not, and_true]
  omega

theorem solid_of_plain {text : List Char} (plain : Plain text) : Text.Solid text :=
  fun character member => isBlank_of_isFieldStart (plain character member)

theorem blank_of_gap {gap : List Char} (isGap : Gap gap) : Text.Blank gap := by
  intro character member
  rcases isGap character member with rfl | rfl
  · decide
  · decide

theorem isFieldStart_of_isIdentifierStart {character : Char}
    (start : isIdentifierStart character = true) :
    isFieldStart character = true := by
  simp only [isIdentifierStart, isFieldStart, Char.isAlphanum, Bool.or_eq_true] at start ⊢
  rcases start with letter | underscore
  · exact Or.inl (Or.inl (Or.inl (Or.inl letter)))
  · exact Or.inl (Or.inl (Or.inr underscore))

theorem isDigit_of_isIdentifierStart {character : Char}
    (start : isIdentifierStart character = true) :
    character.isDigit = false := by
  rw [Bool.eq_false_iff]
  intro digit
  have bounds := Char.isDigit_iff_toNat.mp digit
  simp only [Char.reduceToNat] at bounds
  simp only [isIdentifierStart, Bool.or_eq_true, beq_iff_eq] at start
  rcases start with letter | rfl
  · have range := toNat_of_isAlpha letter
    omega
  · exact absurd digit (by decide)

theorem isFieldStart_of_isIdentifierChar {character : Char}
    (inside : isIdentifierChar character = true) :
    isFieldStart character = true := by
  simp only [isIdentifierChar, isFieldStart, Bool.or_eq_true] at inside ⊢
  exact Or.inl (Or.inl inside)

/-- An identifier is its first character and what follows. -/
theorem Identifier.exists_cons (identifier : Identifier) :
    ∃ first rest, identifier.text = first :: rest ∧ isIdentifierStart first = true ∧
      ∀ character ∈ rest, isIdentifierChar character = true := by
  have valid := identifier.valid
  cases text : identifier.text with
  | nil =>
      rw [text] at valid
      contradiction
  | cons first rest =>
      rw [text, isIdentifier, Bool.and_eq_true, List.all_eq_true] at valid
      exact ⟨first, rest, rfl, valid.1, valid.2⟩

theorem plain_identifier (identifier : Identifier) : Plain identifier.text := by
  obtain ⟨first, rest, text, start, inside⟩ := identifier.exists_cons
  rw [text]
  intro character member
  rcases List.mem_cons.mp member with rfl | later
  · exact isFieldStart_of_isIdentifierStart start
  · exact isFieldStart_of_isIdentifierChar (inside character later)

theorem plain_signedDecimal (word : Int64) : Plain (Text.signedDecimal word) := by
  have digits : Plain (Text.decimal word.toInt.natAbs) := by
    intro character member
    have digit := Text.isDigit_of_mem_decimal member
    simp [isFieldStart, Char.isAlphanum, digit]
  unfold Text.signedDecimal
  split
  · intro character member
    rcases List.mem_cons.mp member with rfl | later
    · decide
    · exact digits character later
  · exact digits

theorem plain_term (term : Term) : Plain term.text := by
  cases term with
  | literal value => exact plain_signedDecimal value
  | name identifier => exact plain_identifier identifier

theorem Term.text_ne_nil (term : Term) : term.text ≠ [] := by
  cases term with
  | literal value =>
      rw [Term.text, Text.signedDecimal]
      split
      · simp
      · exact Nat.toDigits_ne_nil
  | name identifier =>
      obtain ⟨first, rest, text, _⟩ := identifier.exists_cons
      rw [Term.text, text]
      simp

/-! ## Arguments -/

/-- The term as a field. -/
def Term.field : Term → Field
  | literal value => .number value
  | name identifier => .label identifier.name

/-- An argument as an operand; a missing one is an operand that is left out. -/
def writtenOperand : Option Argument → WrittenOperand
  | none => {}
  | some argument => ⟨argument.mode, some argument.term.field⟩

theorem read?_term (term : Term) : Field.read? term.text = some term.field := by
  cases term with
  | literal value => simp only [Term.text, Field.read?, Text.readSigned?_signedDecimal, Term.field]
  | name identifier =>
      obtain ⟨first, rest, text, start, _⟩ := identifier.exists_cons
      have noNumber : Text.readSigned? identifier.text = none := by
        have notDigit : first.isDigit = false := isDigit_of_isIdentifierStart start
        rw [Text.readSigned?_of_unsigned]
        · rw [text]
          simp [Text.ofDigits?, notDigit]
        · rw [text]
          intro character member
          cases member
          constructor
          · intro same
            subst same
            exact absurd start (by decide)
          · intro same
            subst same
            exact absurd start (by decide)
      simp only [Term.text, Field.read?, noNumber, identifier.valid, if_true]
      rfl

/-- An argument is made of plain characters and the sigils. -/
theorem mem_argument_text {argument : Argument} {character : Char}
    (member : character ∈ argument.text) :
    isFieldStart character = true ∨ character = '#' ∨ character = '@' := by
  rcases List.mem_append.mp member with sigil | inTerm
  · cases mode : argument.mode with
    | immediate => simp_all [Mode.sigil?]
    | direct => simp_all [Mode.sigil?]
    | indirect => simp_all [Mode.sigil?]
  · exact Or.inl (plain_term argument.term character inTerm)

theorem solid_argument (argument : Argument) : Text.Solid argument.text := by
  intro character member
  rcases mem_argument_text member with plain | rfl | rfl
  · exact isBlank_of_isFieldStart plain
  · decide
  · decide

theorem comma_notMem_argument (argument : Argument) : ',' ∉ argument.text := by
  intro member
  rcases mem_argument_text member with plain | same | same
  · exact absurd plain (by decide)
  · exact absurd same (by decide)
  · exact absurd same (by decide)

theorem Argument.text_ne_nil (argument : Argument) : argument.text ≠ [] := by
  intro empty
  exact argument.term.text_ne_nil (List.append_eq_nil_iff.mp empty).2

theorem readTrimmedOperand_argument (argument : Argument) :
    readTrimmedOperand argument.text = .ok (writtenOperand (some argument)) := by
  obtain ⟨first, rest, text⟩ := List.exists_cons_of_ne_nil argument.term.text_ne_nil
  have plain : isFieldStart first = true :=
    plain_term argument.term first (by rw [text]; exact List.mem_cons_self)
  have trimmed : Text.trimStart (first :: rest) = first :: rest := by
    apply Text.trimStart_of_first
    intro character member
    cases member
    exact isBlank_of_isFieldStart plain
  have read := read?_term argument.term
  rw [text] at read
  unfold readTrimmedOperand Argument.text
  rw [text]
  cases mode : argument.mode with
  | immediate =>
      have split : splitSigil ('#' :: first :: rest) = (some '#', first :: rest) := by
        simp [splitSigil, isFieldStart, trimmed]
      simp [Mode.sigil?, split, Mode.ofSigil?, read, writtenOperand, mode]
  | direct =>
      have split : splitSigil (first :: rest) = (none, first :: rest) := by
        simp [splitSigil, plain]
      simp [Mode.sigil?, split, Mode.ofSigil?, read, writtenOperand, mode]
  | indirect =>
      have split : splitSigil ('@' :: first :: rest) = (some '@', first :: rest) := by
        simp [splitSigil, isFieldStart, trimmed]
      simp [Mode.sigil?, split, Mode.ofSigil?, read, writtenOperand, mode]

theorem readOperand_argument
    (argument : Argument)
    {before after : List Char}
    (beforeGap : Gap before)
    (afterGap : Gap after) :
    readOperand (before ++ argument.text ++ after) = .ok (writtenOperand (some argument)) := by
  rw [readOperand, Text.trim_surrounded (blank_of_gap beforeGap)
    (Text.edged_of_solid (solid_argument argument)) (blank_of_gap afterGap)]
  exact readTrimmedOperand_argument argument

theorem gap_nil : Gap [] := by
  simp [Gap]

theorem comma_notMem_gap {gap : List Char} (isGap : Gap gap) : ',' ∉ gap := by
  intro member
  rcases isGap ',' member with same | same
  · exact absurd same (by decide)
  · exact absurd same (by decide)

/-- A text with arguments at both ends has no blank there. -/
theorem edged_arguments (a b : Argument) (middle : List Char) :
    Text.Edged (a.text ++ (middle ++ b.text)) where
  first character member := by
    obtain ⟨first, rest, text⟩ := List.exists_cons_of_ne_nil a.text_ne_nil
    rw [text] at member
    obtain rfl : first = character := Option.some.inj member
    exact solid_argument a first (by rw [text]; exact List.mem_cons_self)
  last character member := by
    rw [List.getLast?_append_of_ne_nil _ (by simp [b.text_ne_nil]),
      List.getLast?_append_of_ne_nil _ b.text_ne_nil] at member
    exact solid_argument b character (List.mem_of_getLast? member)

theorem readOperands_of_text {arguments : Arguments} {rest : List Char}
    (written : ArgumentsText arguments rest) :
    readOperands rest = .ok (writtenOperand arguments.a?, writtenOperand arguments.b?) := by
  cases written with
  | none => rfl
  | @one a gap isGap notEmpty =>
      have trimmed : Text.trim (gap ++ a.text) = a.text := by
        have surrounded := Text.trim_surrounded (blank_of_gap isGap)
          (Text.edged_of_solid (solid_argument a)) (blank_of_gap gap_nil)
        rwa [List.append_nil] at surrounded
      have read : readOperand a.text = .ok (writtenOperand (some a)) := by
        simpa using readOperand_argument a gap_nil gap_nil
      simp only [readOperands, trimmed, List.isEmpty_iff, a.text_ne_nil, if_false,
        Text.splitAtChar_of_notMem (comma_notMem_argument a), read]
      rfl
  | @two a b gap before after isGap notEmpty beforeGap afterGap =>
      have inner : a.text ++ before ++ ',' :: (after ++ b.text) =
          a.text ++ ((before ++ ',' :: after) ++ b.text) := by
        simp
      have trimmed : Text.trim (gap ++ (a.text ++ before ++ ',' :: (after ++ b.text))) =
          a.text ++ before ++ ',' :: (after ++ b.text) := by
        have surrounded := Text.trim_surrounded (blank_of_gap isGap)
          (edged_arguments a b (before ++ ',' :: after)) (blank_of_gap gap_nil)
        rwa [List.append_nil, ← inner] at surrounded
      have leftComma : ',' ∉ a.text ++ before := by
        simp [comma_notMem_argument a, comma_notMem_gap beforeGap]
      have rightComma : ',' ∉ after ++ b.text := by
        simp [comma_notMem_argument b, comma_notMem_gap afterGap]
      have parts : Text.splitAtChar ',' (a.text ++ before ++ ',' :: (after ++ b.text)) =
          [a.text ++ before, after ++ b.text] := by
        rw [Text.splitAtChar_append_cons leftComma, Text.splitAtChar_of_notMem rightComma]
      have readA : readOperand (a.text ++ before) = .ok (writtenOperand (some a)) := by
        simpa using readOperand_argument a gap_nil beforeGap
      have readB : readOperand (after ++ b.text) = .ok (writtenOperand (some b)) := by
        simpa using readOperand_argument b afterGap gap_nil
      have notBlank : (a.text ++ before ++ ',' :: (after ++ b.text)).isEmpty = false := by
        simp
      simp only [readOperands, trimmed, notBlank, parts, readA, readB]
      rfl

/-! ## Labels and mnemonics -/

/-- All mnemonics, in capitals. -/
def mnemonics : List (List Char) :=
  ["ORG".toList, "EQU".toList, "END".toList] ++ Operation.all.map Operation.mnemonic

theorem isMnemonic_iff (word : List Char) :
    isMnemonic word = true ↔ Text.upper word ∈ mnemonics := by
  have isOperation : (Operation.ofMnemonic? (Text.upper word)).isSome = true ↔
      Text.upper word ∈ Operation.all.map Operation.mnemonic := by
    rw [Operation.ofMnemonic?, List.find?_isSome]
    simp only [List.mem_map, beq_iff_eq]
  simp only [isMnemonic, isPseudoMnemonic, mnemonics, Bool.or_eq_true, decide_eq_true_eq,
    isOperation, List.mem_append, List.mem_cons, List.not_mem_nil, or_false, or_assoc]

theorem capitals_of_mem_mnemonics {mnemonic : List Char} (member : mnemonic ∈ mnemonics) :
    mnemonic ≠ [] ∧ ∀ character ∈ mnemonic, character.isUpper = true := by
  have all : (mnemonics.all fun other => !other.isEmpty && other.all Char.isUpper) = true := by
    decide
  have both := List.all_eq_true.mp all mnemonic member
  rw [Bool.and_eq_true, List.all_eq_true] at both
  exact ⟨by simpa using both.1, both.2⟩

theorem mnemonic_ne (operation : Operation) :
    operation.mnemonic ≠ "ORG".toList ∧ operation.mnemonic ≠ "EQU".toList ∧
      operation.mnemonic ≠ "END".toList := by
  have all : ∀ other ∈ Operation.all, other.mnemonic ≠ "ORG".toList ∧
      other.mnemonic ≠ "EQU".toList ∧ other.mnemonic ≠ "END".toList := by
    decide
  exact all operation operation.mem_all

theorem mnemonic_mem (item : Item) : item.mnemonic ∈ mnemonics := by
  cases item with
  | instruction label operation arguments =>
      exact List.mem_append_right _ (List.mem_map_of_mem operation.mem_all)
  | constant label value => exact List.mem_append_left _ (by simp [Item.mnemonic])
  | origin label argument => exact List.mem_append_left _ (by simp [Item.mnemonic])

theorem isAlpha_of_isUpper_toUpper {character : Char} (capital : character.toUpper.isUpper = true) :
    character.isAlpha = true := by
  have letters : character.isAlpha = (character.isUpper || character.isLower) := rfl
  rw [letters, Bool.or_eq_true]
  by_cases small : character.isLower = true
  · exact Or.inr small
  · have same : character.toUpper = character := by
      apply dif_neg
      intro range
      exact small ((Bool.and_eq_true _ _).mpr ⟨decide_eq_true range.1, decide_eq_true range.2⟩)
    rw [same] at capital
    exact Or.inl capital

section Spelling

variable {word : List Char} (spelled : word.map Char.toUpper ∈ mnemonics)
include spelled

theorem isAlpha_of_spelled : ∀ character ∈ word, character.isAlpha = true := by
  intro character member
  have capitals := (capitals_of_mem_mnemonics spelled).2
  exact isAlpha_of_isUpper_toUpper (capitals _ (List.mem_map_of_mem member))

theorem plain_of_spelled : Plain word := by
  intro character member
  simp [isFieldStart, Char.isAlphanum, isAlpha_of_spelled spelled character member]

theorem ne_nil_of_spelled : word ≠ [] := by
  intro same
  subst same
  exact (capitals_of_mem_mnemonics spelled).1 rfl

theorem upper_of_spelled : Text.upper word = word.map Char.toUpper := by
  apply Text.upper_of_ascii
  intro character member
  have plain := toNat_of_isFieldStart (plain_of_spelled spelled character member)
  omega

end Spelling

theorem mem_mnemonics_of_spelled {item : Item} {word : List Char}
    (spelled : word.map Char.toUpper = item.mnemonic) :
    word.map Char.toUpper ∈ mnemonics :=
  spelled ▸ mnemonic_mem item

theorem isMnemonic_label (label : Identifier) : isMnemonic (label.text ++ [':']) = false := by
  have ascii : ∀ character ∈ label.text ++ [':'], character.toNat < 0x80 := by
    intro character member
    rcases List.mem_append.mp member with inLabel | colon
    · have plain := toNat_of_isFieldStart (plain_identifier label character inLabel)
      omega
    · rw [List.mem_singleton.mp colon]
      decide
  rw [Bool.eq_false_iff]
  intro isMnemonic
  rw [isMnemonic_iff, Text.upper_of_ascii ascii] at isMnemonic
  have capital := (capitals_of_mem_mnemonics isMnemonic).2 (Char.toUpper ':')
    (List.mem_map_of_mem (List.mem_append_right _ List.mem_cons_self))
  exact absurd capital (by decide)

theorem readLabel_label (label : Identifier) :
    readLabel (label.text ++ [':']) = .ok label.name := by
  have bare : withoutColon (label.text ++ [':']) = label.text := by
    simp [withoutColon]
  simp only [readLabel, bare, label.valid, if_true]
  rfl

theorem solid_label (label : Identifier) : Text.Solid (label.text ++ [':']) := by
  intro character member
  rcases List.mem_append.mp member with inLabel | colon
  · exact isBlank_of_isFieldStart (plain_identifier label character inLabel)
  · rw [List.mem_singleton.mp colon]
    decide

theorem head_of_blank
    {gap : List Char}
    (blank : Text.Blank gap)
    (notEmpty : gap ≠ [])
    (rest : List Char) :
    ∀ character ∈ (gap ++ rest).head?, Text.isBlank character = true := by
  obtain ⟨first, others, rfl⟩ := List.exists_cons_of_ne_nil notEmpty
  intro character member
  cases member
  exact blank first List.mem_cons_self

/-- The arguments of a line are set off from what stands before them. -/
theorem head_of_argumentsText {arguments : Arguments} {rest : List Char}
    (written : ArgumentsText arguments rest) :
    ∀ character ∈ rest.head?, Text.isBlank character = true := by
  cases written with
  | none => simp
  | one a isGap notEmpty => exact head_of_blank (blank_of_gap isGap) notEmpty _
  | two a b isGap notEmpty => exact head_of_blank (blank_of_gap isGap) notEmpty _

/-- The first word is the mnemonic if it is one. -/
theorem ofCode_unlabelled
    {word rest : List Char}
    (spelled : word.map Char.toUpper ∈ mnemonics)
    (ended : ∀ character ∈ rest.head?, Text.isBlank character = true) :
    LineParts.ofCode (word ++ rest) = ⟨none, word, rest⟩ := by
  have split := Text.splitWord_append (blank_of_gap gap_nil)
    (solid_of_plain (plain_of_spelled spelled)) (ne_nil_of_spelled spelled) ended
  have isMnemonic : isMnemonic word = true := by
    rw [isMnemonic_iff, upper_of_spelled spelled]
    exact spelled
  rw [List.nil_append] at split
  simp only [LineParts.ofCode, split, isMnemonic, if_true]

/-- What stands first on a line is kept up to the blanks or the comment behind it. -/
theorem codeOf_append
    {before text : List Char}
    (beforeBlank : Text.Blank before)
    (edged : Text.Edged text)
    (notEmpty : text ≠ [])
    (noComment : ';' ∉ text)
    (rest : List Char) :
    codeOf (before ++ (text ++ rest)) = text ++ Text.trimEnd (rest.takeWhile (· != ';')) := by
  have skipped : ∀ character ∈ before, (character != ';') = true := by
    intro character member
    rw [bne_iff_ne]
    rintro rfl
    exact absurd (beforeBlank _ member) (by decide)
  have kept : ∀ character ∈ text, (character != ';') = true := by
    intro character member
    rw [bne_iff_ne]
    rintro rfl
    exact noComment member
  rw [codeOf, List.takeWhile_append_of_pos skipped, List.takeWhile_append_of_pos kept,
    Text.trim_append_of_edged beforeBlank edged notEmpty]

/-- A line is its code between blanks, and a comment if it has one. -/
theorem exists_surrounded_codeOf (line : List Char) :
    ∃ indent trailing comment, Text.Blank indent ∧ Text.Blank trailing ∧
      (∀ character ∈ comment.head?, character = ';') ∧ ';' ∉ codeOf line ∧
      line = indent ++ (codeOf line ++ (trailing ++ comment)) := by
  obtain ⟨indent, trailing, indentBlank, trailingBlank, whole⟩ :=
    Text.exists_surrounded_trim (line.takeWhile (· != ';'))
  refine ⟨indent, trailing, line.dropWhile (· != ';'), indentBlank, trailingBlank, ?_, ?_, ?_⟩
  · intro character member
    have first := List.head?_dropWhile_not (· != ';') line
    rw [Option.mem_def.mp member] at first
    simpa using first
  · intro inside
    have kept : ';' ∈ line.takeWhile (· != ';') := by
      rw [whole]
      exact List.mem_append_left _ (List.mem_append_right _ inside)
    simpa using List.mem_takeWhile_imp kept
  · have split := List.takeWhile_append_dropWhile (p := (· != ';')) (l := line)
    rw [whole, List.append_assoc, List.append_assoc] at split
    exact split.symm

/-- A first word that is no mnemonic is a label if the second is made of letters. -/
theorem ofCode_labelled
    {label gap word rest : List Char}
    (solid : Text.Solid label)
    (labelNotEmpty : label ≠ [])
    (noMnemonic : isMnemonic label = false)
    (gapBlank : Text.Blank gap)
    (gapNotEmpty : gap ≠ [])
    (letters : ∀ character ∈ word, character.isAlpha = true)
    (wordNotEmpty : word ≠ [])
    (ended : ∀ character ∈ rest.head?, Text.isBlank character = true) :
    LineParts.ofCode (label ++ (gap ++ (word ++ rest))) = ⟨some label, word, rest⟩ := by
  have plain : Plain word := fun character member => by
    simp [isFieldStart, Char.isAlphanum, letters character member]
  have first := Text.splitWord_append (blank_of_gap gap_nil) solid labelNotEmpty
    (head_of_blank gapBlank gapNotEmpty (word ++ rest))
  have second := Text.splitWord_append gapBlank (solid_of_plain plain) wordNotEmpty ended
  have isWord : (!word.isEmpty && word.all Char.isAlpha) = true := by
    rw [Bool.and_eq_true, List.all_eq_true]
    exact ⟨by simp [wordNotEmpty], letters⟩
  rw [List.nil_append] at first
  simp only [LineParts.ofCode, first, noMnemonic, second, isWord, Bool.false_eq_true, if_false,
    if_true]

/-- The parts of a line are its label, its mnemonic and its arguments. -/
theorem ofCode_of_written
    {item : Item}
    {front word rest : List Char}
    (label : LabelText item.label? front)
    (spelled : word.map Char.toUpper = item.mnemonic)
    (written : ArgumentsText item.arguments rest) :
    LineParts.ofCode (front ++ (word ++ rest)) =
      ⟨item.label?.map fun label => label.text ++ [':'], word, rest⟩ := by
  have known := mem_mnemonics_of_spelled spelled
  have ended := head_of_argumentsText written
  generalize item.label? = labelled at label
  cases label with
  | absent => exact ofCode_unlabelled known ended
  | @present label gap isGap gapNotEmpty =>
      have assoc : label.text ++ ':' :: gap ++ (word ++ rest) =
          label.text ++ [':'] ++ (gap ++ (word ++ rest)) := by
        simp
      rw [assoc]
      exact ofCode_labelled (solid_label label) (by simp) (isMnemonic_label label)
        (blank_of_gap isGap) gapNotEmpty (isAlpha_of_spelled known) (ne_nil_of_spelled known) ended

/-! ## Lines -/

/-- The statement of an item. -/
def Item.statement : Item → Statement
  | instruction label operation arguments =>
    .instruction (label.map Identifier.name) operation (writtenOperand arguments.a?)
      (writtenOperand arguments.b?)
  | constant label value => .constant label.name value
  | origin label argument => .origin (label.map Identifier.name) (writtenOperand argument).field

/-- The characters of a line: plain ones, blanks and punctuation. -/
def LineChar (character : Char) : Prop :=
  isFieldStart character = true ∨ character ∈ [' ', '\t', '#', '@', ':', ',']

instance (character : Char) : Decidable (LineChar character) := by
  unfold LineChar
  infer_instance

theorem ne_of_lineChar {character other : Char}
    (lineChar : LineChar character)
    (special : ¬LineChar other) :
    character ≠ other := by
  intro same
  subst same
  exact special lineChar

theorem lineChar_of_gap {gap : List Char} (isGap : Gap gap) :
    ∀ character ∈ gap, LineChar character := by
  intro character member
  rcases isGap character member with rfl | rfl
  · exact Or.inr (by decide)
  · exact Or.inr (by decide)

theorem lineChar_of_argument (argument : Argument) :
    ∀ character ∈ argument.text, LineChar character := by
  intro character member
  rcases mem_argument_text member with plain | rfl | rfl
  · exact Or.inl plain
  · exact Or.inr (by decide)
  · exact Or.inr (by decide)

theorem lineChar_of_label {label : Option Identifier} {front : List Char}
    (written : LabelText label front) :
    ∀ character ∈ front, LineChar character := by
  intro character member
  cases written with
  | absent => contradiction
  | present label isGap _ =>
      rcases List.mem_append.mp member with inLabel | member
      · exact Or.inl (plain_identifier label character inLabel)
      · rcases List.mem_cons.mp member with rfl | inGap
        · exact Or.inr (by decide)
        · exact lineChar_of_gap isGap character inGap

theorem lineChar_of_arguments {arguments : Arguments} {rest : List Char}
    (written : ArgumentsText arguments rest) :
    ∀ character ∈ rest, LineChar character := by
  intro character member
  cases written with
  | none => contradiction
  | one a isGap _ =>
      rcases List.mem_append.mp member with inGap | inA
      · exact lineChar_of_gap isGap character inGap
      · exact lineChar_of_argument a character inA
  | two a b isGap _ beforeGap afterGap =>
      simp only [List.mem_append, List.mem_cons] at member
      rcases member with inGap | (inA | inBefore) | rfl | inAfter | inB
      · exact lineChar_of_gap isGap character inGap
      · exact lineChar_of_argument a character inA
      · exact lineChar_of_gap beforeGap character inBefore
      · exact Or.inr (by decide)
      · exact lineChar_of_gap afterGap character inAfter
      · exact lineChar_of_argument b character inB

theorem lineChar_of_written {item : Item} {line : List Char} (written : item.Written line) :
    ∀ character ∈ line, LineChar character := by
  intro character member
  cases written with
  | line indentGap label spelled arguments trailingGap =>
      simp only [List.mem_append] at member
      rcases member with (inIndent | inFront | inWord | inRest) | inTrailing
      · exact lineChar_of_gap indentGap character inIndent
      · exact lineChar_of_label label character inFront
      · exact Or.inl (plain_of_spelled (mem_mnemonics_of_spelled spelled) character inWord)
      · exact lineChar_of_arguments arguments character inRest
      · exact lineChar_of_gap trailingGap character inTrailing

theorem last_of_argumentsText {arguments : Arguments} {rest : List Char}
    (written : ArgumentsText arguments rest) :
    ∀ character ∈ rest.getLast?, Text.isBlank character = false := by
  intro character member
  cases written with
  | none => contradiction
  | one a _ _ =>
      rw [List.getLast?_append_of_ne_nil _ a.text_ne_nil] at member
      exact solid_argument a character (List.mem_of_getLast? member)
  | @two a b gap before after _ _ _ _ =>
      have assoc : gap ++ (a.text ++ before ++ ',' :: (after ++ b.text)) =
          (gap ++ (a.text ++ before ++ ',' :: after)) ++ b.text := by
        simp
      rw [assoc, List.getLast?_append_of_ne_nil _ b.text_ne_nil] at member
      exact solid_argument b character (List.mem_of_getLast? member)

/-- What is left of a line between the blanks around it. -/
theorem edged_code
    {item : Item}
    {front word rest : List Char}
    (label : LabelText item.label? front)
    (spelled : word.map Char.toUpper = item.mnemonic)
    (written : ArgumentsText item.arguments rest) :
    Text.Edged (front ++ (word ++ rest)) where
  first character member := by
    have known := mem_mnemonics_of_spelled spelled
    obtain ⟨first, others, rfl⟩ := List.exists_cons_of_ne_nil (ne_nil_of_spelled known)
    generalize item.label? = labelled at label
    cases label with
    | absent =>
        obtain rfl : first = character := Option.some.inj member
        exact isBlank_of_isFieldStart (plain_of_spelled known first List.mem_cons_self)
    | present label =>
        obtain ⟨start, _, text, isStart, _⟩ := label.exists_cons
        rw [text] at member
        obtain rfl : start = character := Option.some.inj member
        exact isBlank_of_isFieldStart (isFieldStart_of_isIdentifierStart isStart)
  last character member := by
    have known := mem_mnemonics_of_spelled spelled
    rw [List.getLast?_append_of_ne_nil _ (by simp [ne_nil_of_spelled known]),
      List.getLast?_append, Option.mem_def, Option.or_eq_some_iff] at member
    rcases member with inRest | ⟨_, inWord⟩
    · exact last_of_argumentsText written character inRest
    · exact isBlank_of_isFieldStart
        (plain_of_spelled known character (List.mem_of_getLast? inWord))

theorem codeOf_of_written
    {item : Item}
    {indent front word rest trailing : List Char}
    (indentGap : Gap indent)
    (label : LabelText item.label? front)
    (spelled : word.map Char.toUpper = item.mnemonic)
    (arguments : ArgumentsText item.arguments rest)
    (trailingGap : Gap trailing) :
    codeOf (indent ++ (front ++ (word ++ rest)) ++ trailing) = front ++ (word ++ rest) := by
  have noComment : (indent ++ (front ++ (word ++ rest)) ++ trailing).takeWhile (· != ';') =
      indent ++ (front ++ (word ++ rest)) ++ trailing := by
    rw [List.takeWhile_eq_self_iff]
    intro character member
    have written := Item.Written.line indentGap label spelled arguments trailingGap
    exact bne_iff_ne.mpr
      (ne_of_lineChar (lineChar_of_written written character member) (by decide))
  rw [codeOf, noComment]
  exact Text.trim_surrounded (blank_of_gap indentGap) (edged_code label spelled arguments)
    (blank_of_gap trailingGap)

theorem ofOperands_of_written (item : Item) (word rest : List Char) :
    Statement.ofOperands ⟨item.label?.map fun label => label.text ++ [':'], word, rest⟩
      item.mnemonic (writtenOperand item.arguments.a?) (writtenOperand item.arguments.b?) =
        .ok item.statement := by
  have labels (label : Option Identifier) :
      (label.map fun label => label.text ++ [':']).mapM readLabel =
        .ok (label.map Identifier.name) := by
    cases label with
    | none => rfl
    | some label =>
        simp only [Option.map_some, Option.mapM_some, readLabel_label]
        rfl
  cases item with
  | instruction label operation arguments =>
      obtain ⟨notOrigin, notConstant, _⟩ := mnemonic_ne operation
      simp only [Item.mnemonic, Item.label?, Item.arguments, Statement.ofOperands,
        if_neg notConstant, if_neg notOrigin, Operation.ofMnemonic?_mnemonic, labels]
      rfl
  | constant label value =>
      simp only [Item.mnemonic, Item.label?, Item.arguments, Arguments.a?, Arguments.b?,
        Statement.ofOperands, if_true, Statement.ofConstant, writtenOperand, Option.map_some,
        Term.field, readLabel_label]
      rfl
  | origin label argument =>
      have notConstant : "ORG".toList ≠ "EQU".toList := by decide
      cases argument with
      | none =>
          simp only [Item.mnemonic, Item.label?, Item.arguments, Statement.ofOperands,
            if_neg notConstant, if_true, labels]
          rfl
      | some argument =>
          simp only [Item.mnemonic, Item.label?, Item.arguments, Statement.ofOperands,
            if_neg notConstant, if_true, labels]
          rfl

/-- A line that holds an item reads as the statement of that item. -/
theorem ofLine_of_written {item : Item} {line : List Char} (written : item.Written line) :
    Statement.ofLine line = .ok item.statement := by
  cases written with
  | @line indent front word rest trailing indentGap label spelled arguments trailingGap =>
      have known := mem_mnemonics_of_spelled spelled
      have notEmpty : (front ++ (word ++ rest)).isEmpty = false := by
        simp [ne_nil_of_spelled known]
      have notEnd : item.mnemonic ≠ "END".toList := by
        cases item with
        | instruction label operation arguments => exact (mnemonic_ne operation).2.2
        | constant label value => simp [Item.mnemonic]
        | origin label argument => simp [Item.mnemonic]
      simp only [Statement.ofLine, codeOf_of_written indentGap label spelled arguments trailingGap,
        notEmpty, ofCode_of_written label spelled arguments, upper_of_spelled known, spelled,
        if_neg notEnd, readOperands_of_text arguments]
      exact ofOperands_of_written item word rest

/-! ## Declared sources -/

theorem ofLine?_of_noComment {line : List Char} (absent : ';' ∉ line) :
    Directive.ofLine? line = none := by
  unfold Directive.ofLine?
  split
  · rename_i comment trimmed
    have inside : ';' ∈ Text.trimStart line := by
      rw [trimmed]
      exact List.mem_cons_self
    exact absurd ((List.dropWhile_sublist Text.isBlank).mem inside) absent
  · rfl

theorem ofLine?_name (name : List Char) (notBlank : Text.trim name ≠ []) :
    Directive.ofLine? ("; name ".toList ++ name) =
      some (.name (some (String.ofList (Text.trim name)))) := by
  have blank : Text.Blank [' '] := by
    intro character member
    rw [List.mem_singleton.mp member]
    decide
  have comment : Text.trimStart (" name ".toList ++ name) = "name".toList ++ ' ' :: name :=
    (Text.trimStart_append_of_blank blank _).trans
      (Text.trimStart_of_first (by rintro character ⟨⟩; decide))
  have split : ("name".toList ++ ' ' :: name).span Directive.isWordChar =
      ("name".toList, ' ' :: name) := by
    apply Text.span_append
    · exact List.all_eq_true.mp (by decide)
    · intro character member
      cases member
      decide
  have trimmed : Text.trim (' ' :: name) = Text.trim name := by
    rw [Text.trim, ← List.singleton_append, Text.trimStart_append_of_blank blank]
    rfl
  have parameter : Directive.parameter? (' ' :: name) =
      some (String.ofList (Text.trim name)) := by
    have isBlank : Text.isBlank ' ' = true := by decide
    simp [Directive.parameter?, trimmed, notBlank, isBlank]
  have line : Text.trimStart ("; name ".toList ++ name) = ';' :: (" name ".toList ++ name) :=
    Text.trimStart_of_first (by rintro character ⟨⟩; decide)
  simp only [Directive.ofLine?, line, comment, split]
  have lower : "name".toList.map Char.toLower = "name".toList := by decide
  simp only [Directive.ofWord?, lower, parameter]
  rfl

/-- The header of a declared source is complete. -/
theorem scan_declaration
    (name : List Char)
    (notBlank : Text.trim name ≠ [])
    {lines : List (List Char)}
    (noComments : ∀ line ∈ lines, ';' ∉ line) :
    Header.scan (declaration name ++ lines) =
      ⟨true, some (String.ofList (Text.trim name)), some "1"⟩ := by
  have marker : Directive.ofLine? "; redcode".toList = some .marker := by decide +kernel
  have assertion : Directive.ofLine? "; assert 1".toList = some (.assertion (some "1")) := by
    decide +kernel
  have others : lines.filterMap Directive.ofLine? = [] := by
    rw [List.filterMap_eq_nil_iff]
    intro line member
    exact ofLine?_of_noComment (noComments line member)
  simp only [Header.scan, Header.scanFrom, declaration, List.filterMap_append,
    List.filterMap_cons_some marker, List.filterMap_cons_some (ofLine?_name name notBlank),
    List.filterMap_cons_some assertion, List.filterMap_nil, others]
  rfl

/-- A comment is no statement. -/
theorem ofLine_comment (text : List Char) : Statement.ofLine (';' :: text) = .ok .blank := by
  simp [Statement.ofLine, codeOf, Text.trim, Text.trimStart, Text.trimEnd]

theorem read_declaration (name : List Char) (lines : List (List Char)) :
    Draft.read (declaration name ++ lines) = Draft.readFrom {} 4 lines := by
  have blanks (text : List Char) (number : Nat) (rest : List (List Char)) :
      Draft.readFrom {} number ((';' :: text) :: rest) = Draft.readFrom {} (number + 1) rest := by
    simp only [Draft.readFrom, ofLine_comment]
    rfl
  exact (blanks _ 1 _).trans ((blanks _ 2 _).trans (blanks _ 3 _))

theorem lineChar_of_mem
    {items : List Item}
    {lines : List (List Char)}
    (written : List.Forall₂ Item.Written items lines)
    {line : List Char}
    (member : line ∈ lines) :
    ∀ character ∈ line, LineChar character := by
  induction written with
  | nil => contradiction
  | cons first _ inductionHypothesis =>
      rcases List.mem_cons.mp member with rfl | later
      · exact lineChar_of_written first
      · exact inductionHypothesis later

theorem lineFeed_notMem_declared
    {name : List Char}
    (inside : '\n' ∉ name)
    {items : List Item}
    {lines : List (List Char)}
    (written : List.Forall₂ Item.Written items lines) :
    ∀ line ∈ declaration name ++ lines, '\n' ∉ line := by
  simp only [declaration, List.cons_append, List.nil_append, List.forall_mem_cons]
  refine ⟨by decide, ?_, by decide, ?_⟩
  · rw [List.mem_append, not_or]
    exact ⟨by decide, inside⟩
  · intro line member isInside
    exact absurd (lineChar_of_mem written member '\n' isInside) (by decide)

/-- The lines of a declared source, apart from a carriage return behind its name. -/
theorem lines_declared
    (name : List Char)
    (notBlank : Text.trim name ≠ [])
    (inside : '\n' ∉ name)
    {items : List Item}
    {lines : List (List Char)}
    (written : List.Forall₂ Item.Written items lines) :
    Text.lines (Text.unlines (declaration name ++ lines)) =
      declaration (Text.withoutReturn name) ++ lines := by
  have named : name ≠ [] := by
    intro same
    subst same
    exact notBlank rfl
  have unchanged : lines.map Text.withoutReturn = lines := by
    refine (List.map_congr_left ?_).trans (List.map_id lines)
    intro line member
    apply if_neg
    intro isReturn
    exact absurd (lineChar_of_mem written member '\r' (List.mem_of_getLast? isReturn)) (by decide)
  rw [Text.lines_unlines _ (lineFeed_notMem_declared inside written), List.map_append, unchanged]
  simp only [declaration, List.map_cons, List.map_nil, Text.withoutReturn_append _ named]
  rfl

end CoreWar.Assembly
