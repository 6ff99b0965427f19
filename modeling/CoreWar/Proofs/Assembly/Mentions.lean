import CoreWar.Proofs.Assembly.Items

/-!
Contract: the names in a statement stand in the line that it was read from.

Owns:
- where a name stands in a text as a word of its own;
- that such a place in a part of a source is one in the source;
- the names that a statement mentions, as its label or in a field.

Does not own: what names stand for, see `CoreWar.Proofs.Assembly.Reference`.
-/

namespace CoreWar.Assembly

/-! ## Places of a name -/

/-- The name stands in the text as a word of its own: the characters around it belong to no
identifier. -/
def Occurs (name : Identifier) (text : List Char) : Prop :=
  ∃ before after, text = before ++ (name.text ++ after) ∧
    (∀ character ∈ before.getLast?, isIdentifierChar character = false) ∧
    ∀ character ∈ after.head?, isIdentifierChar character = false

/-- The place of the name is found by trying all places. -/
theorem occurs_iff_exists_index (name : Identifier) (text : List Char) :
    Occurs name text ↔ ∃ index ∈ List.range (text.length + 1),
      (text.drop index).take name.text.length = name.text ∧
      (text.take index).getLast?.all (fun character => !isIdentifierChar character) = true ∧
      (text.drop (index + name.text.length)).head?.all
        (fun character => !isIdentifierChar character) = true := by
  simp only [Option.all_eq_true, Bool.not_eq_true']
  constructor
  · rintro ⟨before, after, rfl, noneBefore, noneAfter⟩
    have inside : before.length ∈ List.range ((before ++ (name.text ++ after)).length + 1) := by
      rw [List.mem_range, List.length_append]
      omega
    refine ⟨before.length, inside, ?_, ?_, ?_⟩
    · rw [List.drop_left, List.take_left]
    · rw [List.take_left]
      exact noneBefore
    · rw [← List.drop_drop, List.drop_left, List.drop_left]
      exact noneAfter
  · rintro ⟨index, _, here, noneBefore, noneAfter⟩
    refine ⟨text.take index, text.drop (index + name.text.length), ?_, noneBefore, noneAfter⟩
    have rest := List.take_append_drop name.text.length (text.drop index)
    rw [here, List.drop_drop] at rest
    rw [rest, List.take_append_drop]

instance (name : Identifier) (text : List Char) : Decidable (Occurs name text) :=
  decidable_of_iff' _ (occurs_iff_exists_index name text)

/-- No identifier reaches from one text into the other. -/
def Apart (front back : List Char) : Prop :=
  ∀ last ∈ front.getLast?, ∀ first ∈ back.head?,
    isIdentifierChar last = true → isIdentifierChar first = false

section Places

variable {name : Identifier} {front back text : List Char}

theorem isIdentifierChar_of_mem {character : Char} (member : character ∈ name.text) :
    isIdentifierChar character = true := by
  obtain ⟨first, rest, text, start, inside⟩ := name.exists_cons
  rw [text] at member
  rcases List.mem_cons.mp member with rfl | later
  · simp only [isIdentifierStart, isIdentifierChar, Char.isAlphanum, Bool.or_eq_true] at start ⊢
    exact start.imp_left Or.inl
  · exact inside character later

theorem Identifier.text_ne_nil (name : Identifier) : name.text ≠ [] := by
  obtain ⟨first, rest, text, _⟩ := name.exists_cons
  rw [text]
  exact List.cons_ne_nil first rest

theorem occurs_self (name : Identifier) : Occurs name name.text :=
  ⟨[], [], by simp, by simp, by simp⟩

theorem apart_of_last (divides : ∀ character ∈ front.getLast?, isIdentifierChar character = false) :
    Apart front back := by
  intro last member first _ inside
  rw [divides last member] at inside
  contradiction

theorem apart_of_head (divides : ∀ character ∈ back.head?, isIdentifierChar character = false) :
    Apart front back :=
  fun _ _ first member _ => divides first member

theorem isIdentifierChar_of_isBlank {character : Char} (blank : Text.isBlank character = true) :
    isIdentifierChar character = false := by
  rw [Bool.eq_false_iff]
  intro inside
  rw [isBlank_of_isFieldStart (isFieldStart_of_isIdentifierChar inside)] at blank
  contradiction

theorem apart_of_blank_left (blank : Text.Blank front) : Apart front back :=
  apart_of_last fun character member =>
    isIdentifierChar_of_isBlank (blank character (List.mem_of_getLast? member))

theorem apart_of_blank_right (blank : Text.Blank back) : Apart front back :=
  apart_of_head fun character member =>
    isIdentifierChar_of_isBlank (blank character (List.mem_of_head? member))

theorem occurs_append_right (apart : Apart front back) (occurs : Occurs name back) :
    Occurs name (front ++ back) := by
  obtain ⟨before, after, rfl, noneBefore, noneAfter⟩ := occurs
  refine ⟨front ++ before, after, by simp, ?_, noneAfter⟩
  intro character member
  by_cases nothing : before = []
  · obtain ⟨first, rest, text, _⟩ := name.exists_cons
    have inside : isIdentifierChar first = true :=
      isIdentifierChar_of_mem (text ▸ List.mem_cons_self : first ∈ name.text)
    rw [nothing, List.append_nil] at member
    have divides := apart character member first (by rw [nothing, text]; rfl)
    rw [Bool.eq_false_iff]
    intro reaches
    rw [divides reaches] at inside
    contradiction
  · rw [List.getLast?_append_of_ne_nil front nothing] at member
    exact noneBefore character member

theorem occurs_append_left (apart : Apart front back) (occurs : Occurs name front) :
    Occurs name (front ++ back) := by
  obtain ⟨before, after, rfl, noneBefore, noneAfter⟩ := occurs
  refine ⟨before, after ++ back, by simp, noneBefore, ?_⟩
  intro character member
  cases after with
  | nil =>
      have last : name.text.getLast name.text_ne_nil ∈ (before ++ (name.text ++ [])).getLast? := by
        rw [List.append_nil, List.getLast?_append_of_ne_nil before name.text_ne_nil]
        exact List.getLast?_eq_some_getLast name.text_ne_nil
      exact apart _ last character member
        (isIdentifierChar_of_mem (List.getLast_mem name.text_ne_nil))
  | cons first others => exact noneAfter character member

end Places

/-! ## Parts of a source -/

section Parts

variable {name : Identifier} {text : List Char}

theorem occurs_of_trimStart (occurs : Occurs name (Text.trimStart text)) : Occurs name text := by
  rw [← List.takeWhile_append_dropWhile (p := Text.isBlank) (l := text)]
  exact occurs_append_right (apart_of_blank_left (Text.blank_takeWhile text)) occurs

theorem occurs_of_trim (occurs : Occurs name (Text.trim text)) : Occurs name text := by
  obtain ⟨before, after, beforeBlank, afterBlank, whole⟩ := Text.exists_surrounded_trim text
  rw [whole, List.append_assoc]
  exact occurs_append_right (apart_of_blank_left beforeBlank)
    (occurs_append_left (apart_of_blank_right afterBlank) occurs)

theorem occurs_of_codeOf (occurs : Occurs name (codeOf text)) : Occurs name text := by
  obtain ⟨indent, trailing, comment, indentBlank, trailingBlank, isComment, _, whole⟩ :=
    exists_surrounded_codeOf text
  generalize codeOf text = code at occurs whole
  have apart : Apart (code ++ trailing) comment := by
    apply apart_of_head
    intro character member
    rw [isComment character member]
    decide
  rw [whole, ← List.append_assoc code]
  exact occurs_append_right (apart_of_blank_left indentBlank) (occurs_append_left apart
    (occurs_append_left (apart_of_blank_right trailingBlank) occurs))

/-- The words of a text do not reach into what follows them. -/
theorem occurs_of_splitWord
    (occurs : Occurs name (Text.splitWord text).1 ∨ Occurs name (Text.splitWord text).2) :
    Occurs name text := by
  apply occurs_of_trimStart
  rw [Text.splitWord, List.span_eq_takeWhile_dropWhile] at occurs
  rw [← List.takeWhile_append_dropWhile (p := fun character => !Text.isBlank character)
    (l := Text.trimStart text)]
  have apart : Apart ((Text.trimStart text).takeWhile fun character => !Text.isBlank character)
      ((Text.trimStart text).dropWhile fun character => !Text.isBlank character) := by
    apply apart_of_head
    intro character member
    have blank := List.head?_dropWhile_not (fun character => !Text.isBlank character)
      (Text.trimStart text)
    rw [Option.mem_def.mp member] at blank
    exact isIdentifierChar_of_isBlank (by simpa using blank)
  rcases occurs with inWord | inRest
  · exact occurs_append_left apart inWord
  · exact occurs_append_right apart inRest

/-- A last character that belongs to no identifier may be dropped. -/
theorem occurs_of_dropLast
    {last : Char}
    (ends : text.getLast? = some last)
    (divides : isIdentifierChar last = false)
    (occurs : Occurs name text.dropLast) :
    Occurs name text := by
  obtain ⟨front, rfl⟩ := List.getLast?_eq_some_iff.mp ends
  rw [List.dropLast_concat] at occurs
  exact occurs_append_left (apart_of_head (by rintro character ⟨⟩; exact divides)) occurs

theorem occurs_of_withoutColon (occurs : Occurs name (withoutColon text)) : Occurs name text := by
  unfold withoutColon at occurs
  split at occurs
  · rename_i colon
    exact occurs_of_dropLast colon (by decide) occurs
  · exact occurs

theorem occurs_of_withoutReturn (occurs : Occurs name (Text.withoutReturn text)) :
    Occurs name text := by
  unfold Text.withoutReturn at occurs
  split at occurs
  · rename_i isReturn
    exact occurs_of_dropLast isReturn (by decide) occurs
  · exact occurs

/-- What is left of an operand behind its sigil. -/
theorem occurs_of_splitSigil (occurs : Occurs name (splitSigil text).2) : Occurs name text := by
  cases text with
  | nil => exact occurs
  | cons first rest =>
      rw [splitSigil] at occurs
      split at occurs
      · exact occurs
      · rename_i notStart
        have apart : Apart [first] rest := by
          apply apart_of_last
          intro character member
          cases member
          rw [Bool.eq_false_iff]
          exact fun inside => notStart (isFieldStart_of_isIdentifierChar inside)
        exact occurs_append_right apart (occurs_of_trimStart occurs)

theorem occurs_of_mem_splitAtChar
    {separator : Char}
    (divides : isIdentifierChar separator = false)
    {part : List Char}
    (member : part ∈ Text.splitAtChar separator text)
    (occurs : Occurs name part) :
    Occurs name text := by
  have before (front rest : List Char) : Apart front (separator :: rest) :=
    apart_of_head (by rintro character ⟨⟩; exact divides)
  have behind (rest : List Char) : Apart [separator] rest :=
    apart_of_last (by rintro character ⟨⟩; exact divides)
  induction text using Text.separated_induction separator with
  | last text absent =>
      rw [Text.splitAtChar_of_notMem absent, List.mem_singleton] at member
      exact member ▸ occurs
  | more front rest absent inductionHypothesis =>
      rw [Text.splitAtChar_append_cons absent] at member
      rcases List.mem_cons.mp member with rfl | later
      · exact occurs_append_left (before _ rest) occurs
      · exact occurs_append_right (before front rest)
          (occurs_append_right (behind rest) (inductionHypothesis later))

theorem occurs_of_mem_lines
    {line : List Char}
    (member : line ∈ Text.lines text)
    (occurs : Occurs name line) :
    Occurs name text := by
  have before (front rest : List Char) : Apart front ('\n' :: rest) :=
    apart_of_head (by rintro character ⟨⟩; decide)
  have behind (rest : List Char) : Apart ['\n'] rest :=
    apart_of_last (by rintro character ⟨⟩; decide)
  induction text using Text.separated_induction '\n' with
  | last text absent =>
      by_cases nothing : text = []
      · subst nothing
        contradiction
      · rw [Text.lines_of_notMem absent nothing, List.mem_singleton] at member
        exact member ▸ occurs
  | more front rest absent inductionHypothesis =>
      rw [Text.lines_append_cons absent] at member
      rcases List.mem_cons.mp member with rfl | later
      · exact occurs_append_left (before front rest) (occurs_of_withoutReturn occurs)
      · exact occurs_append_right (before front rest)
          (occurs_append_right (behind rest) (inductionHypothesis later))

end Parts

/-! ## The names in a statement -/

/-- The label that a field stands for, if it does. -/
def fieldNames : Option Field → List String
  | some (.label name) => [name]
  | _ => []

/-- The labels that a statement defines or uses. -/
def Statement.names : Statement → List String
  | .blank => []
  | .finish => []
  | .constant label _ => [label]
  | .origin label field => label.toList ++ fieldNames field
  | .instruction label _ a b => label.toList ++ (fieldNames a.field ++ fieldNames b.field)

section Names

variable {name : Identifier} {text : List Char}

theorem mem_fieldNames {label : String} {field : Option Field} :
    label ∈ fieldNames field ↔ field = some (.label label) := by
  rcases field with _ | value | other
  · simp [fieldNames]
  · simp [fieldNames]
  · simp [fieldNames, eq_comm]

theorem eq_text_of_ofList (same : String.ofList text = name.name) : text = name.text :=
  String.ofList_injective same

theorem occurs_of_readLabel (read : readLabel text = .ok name.name) : Occurs name text := by
  unfold readLabel at read
  simp only at read
  split at read
  · apply occurs_of_withoutColon
    rw [eq_text_of_ofList (Except.ok.inj read)]
    exact occurs_self name
  · contradiction

theorem occurs_of_mapM_readLabel
    {word : Option (List Char)}
    {label : Option String}
    (read : word.mapM readLabel = .ok label)
    (mentioned : name.name ∈ label.toList) :
    ∃ text, word = some text ∧ Occurs name text := by
  cases word with
  | none =>
      rw [Option.mapM_none] at read
      cases read
      contradiction
  | some text =>
      rw [Option.mapM_some, map_eq_pure_bind, bind_eq_ok_iff] at read
      obtain ⟨found, readText, made⟩ := read
      cases made
      rw [Option.toList_some, List.mem_singleton] at mentioned
      exact ⟨text, rfl, occurs_of_readLabel (mentioned ▸ readText)⟩

theorem occurs_of_read? (read : Field.read? text = some (.label name.name)) :
    Occurs name text := by
  unfold Field.read? at read
  split at read
  · cases read
  · split at read
    · rw [eq_text_of_ofList (Field.label.inj (Option.some.inj read))]
      exact occurs_self name
    · contradiction

theorem occurs_of_readOperand
    {operand : WrittenOperand}
    (read : readOperand text = .ok operand)
    (mentioned : name.name ∈ fieldNames operand.field) :
    Occurs name text := by
  unfold readOperand readTrimmedOperand at read
  simp only at read
  split at read
  · contradiction
  · split at read
    · contradiction
    · split at read
      · rename_i field readField
        cases read
        obtain rfl := Option.some.inj (mem_fieldNames.mp mentioned)
        exact occurs_of_trim (occurs_of_splitSigil (occurs_of_read? readField))
      · contradiction

theorem occurs_of_readOperands
    {a b : WrittenOperand}
    (read : readOperands text = .ok (a, b))
    (mentioned : name.name ∈ fieldNames a.field ++ fieldNames b.field) :
    Occurs name text := by
  have divides : isIdentifierChar ',' = false := by decide
  unfold readOperands at read
  simp only at read
  apply occurs_of_trim
  split at read
  · cases read
    contradiction
  · split at read
    · rename_i first parts
      rw [bind_eq_ok_iff] at read
      obtain ⟨operand, readFirst, made⟩ := read
      cases made
      have inFirst := (List.mem_append.mp mentioned).resolve_right List.not_mem_nil
      exact occurs_of_mem_splitAtChar divides (by simp [parts])
        (occurs_of_readOperand readFirst inFirst)
    · rename_i first second parts
      simp only [bind_eq_ok_iff] at read
      obtain ⟨_, readFirst, _, readSecond, made⟩ := read
      cases made
      rcases List.mem_append.mp mentioned with inFirst | inSecond
      · exact occurs_of_mem_splitAtChar divides (by simp [parts])
          (occurs_of_readOperand readFirst inFirst)
      · exact occurs_of_mem_splitAtChar divides (by simp [parts])
          (occurs_of_readOperand readSecond inSecond)
    · contradiction

/-- The parts of a line: its label and its operands stand in it. -/
theorem occurs_of_ofCode
    (occurs : (∃ label, (LineParts.ofCode text).label = some label ∧ Occurs name label) ∨
      Occurs name (LineParts.ofCode text).operands) :
    Occurs name text := by
  unfold LineParts.ofCode at occurs
  simp only at occurs
  split at occurs
  · rcases occurs with ⟨_, noLabel, _⟩ | inRest
    · contradiction
    · exact occurs_of_splitWord (Or.inr inRest)
  · split at occurs
    · rcases occurs with ⟨label, isFirst, inLabel⟩ | inTail
      · cases isFirst
        exact occurs_of_splitWord (Or.inl inLabel)
      · exact occurs_of_splitWord (Or.inr (occurs_of_splitWord (Or.inr inTail)))
    · rcases occurs with ⟨_, noLabel, _⟩ | inRest
      · contradiction
      · exact occurs_of_splitWord (Or.inr inRest)

theorem mentioned_of_conveys
    {parts : LineParts}
    {mnemonic : List Char}
    {a b : WrittenOperand}
    {statement : Statement}
    (conveys : Conveys parts mnemonic a b statement)
    (mentioned : name.name ∈ statement.names) :
    (∃ label, parts.label = some label ∧ Occurs name label) ∨
      name.name ∈ fieldNames a.field ++ fieldNames b.field := by
  cases conveys with
  | constant labelled readLabel =>
      obtain rfl := List.mem_singleton.mp mentioned
      exact Or.inl ⟨_, labelled, occurs_of_readLabel readLabel⟩
  | origin readLabels =>
      rcases List.mem_append.mp mentioned with inLabel | inField
      · exact Or.inl (occurs_of_mapM_readLabel readLabels inLabel)
      · exact Or.inr (List.mem_append_left _ inField)
  | instruction _ readLabels =>
      rcases List.mem_append.mp mentioned with inLabel | inFields
      · exact Or.inl (occurs_of_mapM_readLabel readLabels inLabel)
      · exact Or.inr inFields

/-- A name that a statement mentions stands in the line that it was read from. -/
theorem occurs_of_ofLine
    {line : List Char}
    {statement : Statement}
    (read : Statement.ofLine line = .ok statement)
    (mentioned : name.name ∈ statement.names) :
    Occurs name line := by
  rcases blank_or_finish_or_conveys_of_ofLine read with rfl | rfl | ⟨a, b, readBoth, conveys⟩
  · contradiction
  · contradiction
  · apply occurs_of_codeOf
    apply occurs_of_ofCode
    exact (mentioned_of_conveys conveys mentioned).imp_right (occurs_of_readOperands readBoth)

end Names

end CoreWar.Assembly
