import CoreWar.Proofs.Assembly.Reference

/-!
Contract: the items of any source, however its lines are written.

Owns:
- everything that a line can say, with the readers that it passes;
- the items of the lines of a source, up to the line that ends it;
- that a source that assembles has items, and that it assembles to what they amount to;
- that they amount to one entry only.

Does not own: the lines that are known to hold a given item, see `CoreWar.Proofs.Assembly.Source`.
-/

namespace CoreWar.Assembly

/-- The lines read as these items. Blank lines and comments say nothing, and nothing is read behind
the line that ends the source. -/
inductive Reads : List (List Char) → List Item → Prop where
  | nothing : Reads [] []
  | finish
      {line : List Char}
      (said : Statement.ofLine line = .ok .finish)
      (rest : List (List Char)) :
      Reads (line :: rest) []
  | blank
      {line : List Char}
      {rest : List (List Char)}
      {items : List Item}
      (said : Statement.ofLine line = .ok .blank)
      (later : Reads rest items) :
      Reads (line :: rest) items
  | item
      {line : List Char}
      {rest : List (List Char)}
      {item : Item}
      {items : List Item}
      (said : Statement.ofLine line = .ok item.statement)
      (later : Reads rest items) :
      Reads (line :: rest) (item :: items)

/-! ## One line -/

theorem exists_identifier_of_readLabel
    {word : List Char}
    {label : String}
    (read : readLabel word = .ok label) :
    ∃ identifier : Identifier, label = identifier.name := by
  unfold readLabel at read
  by_cases valid : isIdentifier (withoutColon word) = true
  · rw [if_pos valid, Except.ok.injEq] at read
    exact ⟨⟨withoutColon word, valid⟩, read.symm⟩
  · rw [if_neg valid] at read
    contradiction

theorem exists_identifier_of_mapM_readLabel
    {word : Option (List Char)}
    {label : Option String}
    (read : word.mapM readLabel = .ok label) :
    ∃ identifier : Option Identifier, label = identifier.map Identifier.name := by
  cases word with
  | none =>
      rw [Option.mapM_none] at read
      cases read
      exact ⟨none, rfl⟩
  | some word =>
      rw [Option.mapM_some, map_eq_pure_bind, bind_eq_ok_iff] at read
      obtain ⟨text, readText, made⟩ := read
      cases made
      obtain ⟨identifier, rfl⟩ := exists_identifier_of_readLabel readText
      exact ⟨some identifier, rfl⟩

theorem exists_term_of_read?
    {text : List Char}
    {field : Field}
    (read : Field.read? text = some field) :
    ∃ term : Term, field = term.field := by
  unfold Field.read? at read
  split at read
  · rename_i value _
    exact ⟨.literal value, (Option.some.inj read).symm⟩
  · split at read
    · rename_i valid
      exact ⟨.name ⟨text, valid⟩, (Option.some.inj read).symm⟩
    · contradiction

theorem exists_argument_of_readOperand
    {text : List Char}
    {operand : WrittenOperand}
    (read : readOperand text = .ok operand) :
    ∃ argument : Argument, operand = writtenOperand (some argument) := by
  unfold readOperand readTrimmedOperand at read
  simp only at read
  split at read
  · contradiction
  · rename_i mode _
    split at read
    · contradiction
    · split at read
      · rename_i field readField
        obtain ⟨term, rfl⟩ := exists_term_of_read? readField
        exact ⟨⟨mode, term⟩, (Except.ok.inj read).symm⟩
      · contradiction

theorem exists_arguments_of_readOperands
    {text : List Char}
    {a b : WrittenOperand}
    (read : readOperands text = .ok (a, b)) :
    ∃ arguments : Arguments,
      a = writtenOperand arguments.a? ∧ b = writtenOperand arguments.b? := by
  unfold readOperands at read
  simp only at read
  split at read
  · cases read
    exact ⟨.none, rfl, rfl⟩
  · split at read
    · rw [bind_eq_ok_iff] at read
      obtain ⟨first, readFirst, made⟩ := read
      cases made
      obtain ⟨argument, rfl⟩ := exists_argument_of_readOperand readFirst
      exact ⟨.one argument, rfl, rfl⟩
    · simp only [bind_eq_ok_iff] at read
      obtain ⟨first, readFirst, second, readSecond, made⟩ := read
      cases made
      obtain ⟨firstArgument, rfl⟩ := exists_argument_of_readOperand readFirst
      obtain ⟨secondArgument, rfl⟩ := exists_argument_of_readOperand readSecond
      exact ⟨.two firstArgument secondArgument, rfl, rfl⟩
    · contradiction

/-- What a line with these words says, when its operands have been read. -/
inductive Conveys
    (parts : LineParts)
    (mnemonic : List Char)
    (a b : WrittenOperand) :
    Statement → Prop where
  | constant
      {word : List Char}
      {label : String}
      {value : Int64}
      (labelled : parts.label = some word)
      (readLabel : readLabel word = .ok label) :
      Conveys parts mnemonic a b (.constant label value)
  | origin
      {label : Option String}
      (readLabels : parts.label.mapM readLabel = .ok label) :
      Conveys parts mnemonic a b (.origin label a.field)
  | instruction
      {label : Option String}
      {operation : Operation}
      (found : Operation.ofMnemonic? mnemonic = some operation)
      (readLabels : parts.label.mapM readLabel = .ok label) :
      Conveys parts mnemonic a b (.instruction label operation a b)

theorem conveys_of_ofOperands
    {parts : LineParts}
    {mnemonic : List Char}
    {a b : WrittenOperand}
    {statement : Statement}
    (read : Statement.ofOperands parts mnemonic a b = .ok statement) :
    Conveys parts mnemonic a b statement := by
  unfold Statement.ofOperands at read
  split at read
  · unfold Statement.ofConstant at read
    split at read
    · contradiction
    · rename_i word labelled
      split at read
      · obtain ⟨label, readLabel, made⟩ := bind_eq_ok_iff.mp read
        cases made
        exact .constant labelled readLabel
      · contradiction
  · split at read
    · obtain ⟨label, readLabels, made⟩ := bind_eq_ok_iff.mp read
      cases made
      exact .origin readLabels
    · split at read
      · contradiction
      · rename_i operation found
        obtain ⟨label, readLabels, made⟩ := bind_eq_ok_iff.mp read
        cases made
        exact .instruction found readLabels

/-- A line that can be read is blank, ends the source, or says something about its operands. -/
theorem blank_or_finish_or_conveys_of_ofLine
    {line : List Char}
    {statement : Statement}
    (read : Statement.ofLine line = .ok statement) :
    statement = .blank ∨ statement = .finish ∨
      ∃ a b, readOperands (LineParts.ofCode (codeOf line)).operands = .ok (a, b) ∧
        Conveys (LineParts.ofCode (codeOf line))
          (Text.upper (LineParts.ofCode (codeOf line)).mnemonic) a b statement := by
  unfold Statement.ofLine at read
  simp only at read
  split at read
  · exact Or.inl (Except.ok.inj read).symm
  · split at read
    · exact Or.inr (Or.inl (Except.ok.inj read).symm)
    · obtain ⟨⟨a, b⟩, readBoth, made⟩ := bind_eq_ok_iff.mp read
      exact Or.inr (Or.inr ⟨a, b, readBoth, conveys_of_ofOperands made⟩)

/-- A line that can be read is blank, ends the source, or says an item. -/
theorem blank_or_finish_or_item_of_ofLine
    {line : List Char}
    {statement : Statement}
    (read : Statement.ofLine line = .ok statement) :
    statement = .blank ∨ statement = .finish ∨ ∃ item : Item, statement = item.statement := by
  rcases blank_or_finish_or_conveys_of_ofLine read with blank | finish | ⟨a, b, readBoth, conveys⟩
  · exact Or.inl blank
  · exact Or.inr (Or.inl finish)
  · obtain ⟨arguments, rfl, rfl⟩ := exists_arguments_of_readOperands readBoth
    refine Or.inr (Or.inr ?_)
    cases conveys with
    | constant _ readLabel =>
        obtain ⟨identifier, rfl⟩ := exists_identifier_of_readLabel readLabel
        exact ⟨.constant identifier _, rfl⟩
    | origin readLabels =>
        obtain ⟨identifier, rfl⟩ := exists_identifier_of_mapM_readLabel readLabels
        exact ⟨.origin identifier arguments.a?, rfl⟩
    | instruction _ readLabels =>
        obtain ⟨identifier, rfl⟩ := exists_identifier_of_mapM_readLabel readLabels
        exact ⟨.instruction identifier _ arguments, rfl⟩

/-! ## All lines -/

theorem readFrom_of_blank
    {line : List Char}
    (said : Statement.ofLine line = .ok .blank)
    (draft : Draft)
    (number : Nat)
    (rest : List (List Char)) :
    draft.readFrom number (line :: rest) = draft.readFrom (number + 1) rest := by
  rw [readFrom_of_said said (by simp)]
  rfl

/-- Lines that were read are those of some items. -/
theorem exists_reads_of_readFrom
    {lines : List (List Char)}
    {draft last : Draft}
    {number : Nat}
    (read : draft.readFrom number lines = .ok last) :
    ∃ items, Reads lines items := by
  induction lines generalizing draft number with
  | nil => exact ⟨[], .nothing⟩
  | cons line rest inductionHypothesis =>
      cases said : Statement.ofLine line with
      | error fault =>
          rw [Draft.readFrom, said] at read
          contradiction
      | ok statement =>
          rcases blank_or_finish_or_item_of_ofLine said with rfl | rfl | ⟨item, rfl⟩
          · rw [readFrom_of_blank said] at read
            obtain ⟨items, later⟩ := inductionHypothesis read
            exact ⟨items, .blank said later⟩
          · exact ⟨[], .finish said rest⟩
          · rw [readFrom_cons said, bind_eq_ok_iff] at read
            obtain ⟨next, _, readRest⟩ := read
            obtain ⟨items, later⟩ := inductionHypothesis readRest
            exact ⟨item :: items, .item said later⟩

/-- The draft that was read holds the items of the lines. -/
theorem gathered_of_reads
    {lines : List (List Char)}
    {items : List Item}
    (reads : Reads lines items)
    {front : List Item}
    {draft last : Draft}
    (gathered : Gathered front draft)
    {number : Nat}
    (read : draft.readFrom number lines = .ok last) :
    Gathered (front ++ items) last := by
  induction reads generalizing front draft number with
  | nothing =>
      cases read
      rw [List.append_nil]
      exact gathered
  | finish said rest =>
      rw [Draft.readFrom, said] at read
      cases read
      rw [List.append_nil]
      exact gathered
  | blank said _ inductionHypothesis =>
      rw [readFrom_of_blank said] at read
      exact inductionHypothesis gathered read
  | @item line rest item items said _ inductionHypothesis =>
      rw [readFrom_cons said, bind_eq_ok_iff] at read
      obtain ⟨next, added, readRest⟩ := read
      -- That the statement could be added says that its label is new.
      have fresh := fresh_of_add gathered added
      rw [add_of_fresh gathered fresh, Except.ok.injEq] at added
      subst added
      have regrouped : front ++ item :: items = front ++ [item] ++ items := by simp
      rw [regrouped]
      exact inductionHypothesis (gathered_after gathered fresh number) readRest

/-! ## Whole sources -/

theorem exists_reads_of_assemble
    {limits : Limits}
    {source : String}
    {warrior : Warrior}
    (assembled : assemble limits source = .ok warrior) :
    ∃ items, Reads (Text.lines source.toList) items := by
  obtain ⟨_, _, _, _, _, _, _, read, _⟩ := (assemble_eq_ok_iff limits source warrior).mp assembled
  exact exists_reads_of_readFrom read

/-- The items of a source, as an account of what it assembles to: every name has one meaning, and
the warrior has the program of the items and a single thread at their entry, folded into the core.
-/
structure Accounts (limits : Limits) (items : List Item) (warrior : Warrior) : Prop where
  functional : ∀ name first second,
    Stands items name first → Stands items name second → first = second
  program : ProgramValue items warrior.program
  thread : ∃ entry, EntryValue items entry ∧
    warrior.tasks.waiting = [fold entry limits.coreSize]

theorem accounts_of_reads
    {limits : Limits}
    {source : String}
    {warrior : Warrior}
    (assembled : assemble limits source = .ok warrior)
    {items : List Item}
    (reads : Reads (Text.lines source.toList) items) :
    Accounts limits items warrior := by
  obtain ⟨_, name, draft, program, entry, start, _, read, linked, entered, place, rfl⟩ :=
    (assemble_eq_ok_iff limits source warrior).mp assembled
  have gathered : Gathered items draft := gathered_of_reads reads gathered_nil read
  refine ⟨?_, programValue_of_program gathered linked, entry,
    entryValue_of_entry gathered entered, ?_⟩
  · intro name first second standsFirst standsSecond
    rw [← gathered.symbols] at standsFirst standsSecond
    exact Option.some.inj (standsFirst.symm.trans standsSecond)
  · rw [eq_fold_of_fold? place]
    rfl

/-- Some origin is the last one, unless there is none at all. -/
theorem exists_lastOrigin_or_absent (items : List Item) :
    (∃ argument, LastOrigin items argument) ∨ ∀ item ∈ items, item.isOrigin = false := by
  induction items with
  | nil => exact Or.inr (by simp)
  | cons item rest inductionHypothesis =>
      rcases inductionHypothesis with ⟨argument, above, label, below, rfl, noneBelow⟩ | absent
      · exact Or.inl ⟨argument, item :: above, label, below, rfl, noneBelow⟩
      · cases item with
        | instruction label operation arguments =>
            exact Or.inr (List.forall_mem_cons.mpr ⟨rfl, absent⟩)
        | constant label value => exact Or.inr (List.forall_mem_cons.mpr ⟨rfl, absent⟩)
        | origin label argument => exact Or.inl ⟨argument, [], label, rest, rfl, absent⟩

namespace Accounts

variable
  {limits : Limits}
  {items : List Item}
  {warrior : Warrior}
  (accounts : Accounts limits items warrior)
include accounts

theorem termValue_unique
    {index : Nat}
    {term : Option Term}
    {first second : Int64}
    (firstValue : TermValue items index term first)
    (secondValue : TermValue items index term second) :
    first = second := by
  match term with
  | none => exact firstValue.trans secondValue.symm
  | some (.literal number) => exact firstValue.trans secondValue.symm
  | some (.name name) =>
      obtain ⟨firstSymbol, firstStands, rfl⟩ := firstValue
      obtain ⟨secondSymbol, secondStands, rfl⟩ := secondValue
      rw [accounts.functional name firstSymbol secondSymbol firstStands secondStands]

/-- The items have one entry only. -/
theorem entryValue_unique
    {first second : Int64}
    (firstEntry : EntryValue items first)
    (secondEntry : EntryValue items second) :
    first = second := by
  rcases exists_lastOrigin_or_absent items with ⟨argument, last⟩ | absent
  · exact accounts.termValue_unique (firstEntry.last argument last) (secondEntry.last argument last)
  · exact (firstEntry.absent absent).trans (secondEntry.absent absent).symm

end Accounts

end CoreWar.Assembly
