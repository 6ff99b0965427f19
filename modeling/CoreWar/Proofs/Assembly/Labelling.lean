import CoreWar.Proofs.Assembly.Judgement
import CoreWar.Proofs.Assembly.Layout
import CoreWar.Proofs.Assembly.Mentions
import CoreWar.Proofs.Assembly.Stopping

/-!
Contract: a label that nothing mentions does not change what a source is assembled into.

Owns:
- drafts that differ in the meaning of one name only;
- lines that a label is put in front of, and how they are read;
- the mnemonics for which a label in front of them is harmless, and those for which it is not.

Does not own: the names that a statement mentions, see `CoreWar.Proofs.Assembly.Mentions`.

A mnemonic that stands first on its line is told by its capitals, and one that stands second must be
made of ASCII letters too. The two rules differ on letters beyond ASCII with a capital in ASCII.
-/

namespace CoreWar.Assembly

/-- Stages that agree on the items of a list agree on the list. -/
theorem mapM_congr_left
    {α β ε : Type}
    {first second : α → Except ε β}
    {items : List α}
    (agree : ∀ item ∈ items, first item = second item) :
    items.mapM first = items.mapM second := by
  induction items with
  | nil => rfl
  | cons item rest inductionHypothesis =>
      obtain ⟨here, later⟩ := List.forall_mem_cons.mp agree
      rw [List.mapM_cons, List.mapM_cons, here, inductionHypothesis later]

/-! ## Drafts apart from one name -/

namespace Draft

/-- The second draft is the first, except that it may define the name. The first neither defines nor
uses it. -/
structure SameBut (name : String) (draft labelled : Draft) : Prop where
  undefined : draft.symbols.lookup name = none
  unused : ∀ instruction ∈ draft.instructions.toList,
    name ∉ fieldNames instruction.a.field ++ fieldNames instruction.b.field
  originUnused : ∀ place ∈ draft.origin, name ∉ fieldNames place.2
  symbols : ∀ label, label ≠ name → labelled.symbols.lookup label = draft.symbols.lookup label
  instructions : labelled.instructions = draft.instructions
  origin : labelled.origin = draft.origin

theorem sameBut_empty (name : String) : SameBut name {} {} :=
  ⟨rfl, by simp, by simp, fun _ _ => rfl, rfl, rfl⟩

theorem define_eq_ok_iff
    {draft next : Draft}
    {number : Nat}
    {label : String}
    {symbol : Symbol} :
    draft.define number label symbol = .ok next ↔
      draft.symbols.lookup label = none ∧
        next = { draft with symbols := (label, symbol) :: draft.symbols } := by
  unfold define
  cases draft.symbols.lookup label with
  | none => simp [eq_comm]
  | some other => simp

theorem lookup_cons_of_ne
    {label other : String}
    (different : other ≠ label)
    (symbol : Symbol)
    (symbols : List (String × Symbol)) :
    ((label, symbol) :: symbols).lookup other = symbols.lookup other := by
  rw [List.lookup_cons, beq_false_of_ne different]

section Reading

variable {name : String} {draft labelled next : Draft} {number : Nat}

/-- Defining another label keeps the drafts the same. -/
theorem exists_define_of_sameBut
    {label : String}
    {symbol : Symbol}
    (same : SameBut name draft labelled)
    (other : label ≠ name)
    (defined : draft.define number label symbol = .ok next) :
    ∃ nextLabelled, labelled.define number label symbol = .ok nextLabelled ∧
      SameBut name next nextLabelled := by
  obtain ⟨undefined, rfl⟩ := define_eq_ok_iff.mp defined
  refine ⟨_, define_eq_ok_iff.mpr ⟨(same.symbols label other).trans undefined, rfl⟩, ?_⟩
  refine { same with
    undefined := (lookup_cons_of_ne other.symm symbol _).trans same.undefined
    symbols := ?_ }
  intro another different
  by_cases isLabel : another = label
  · subst isLabel
    simp
  · rw [lookup_cons_of_ne isLabel, lookup_cons_of_ne isLabel]
    exact same.symbols another different

theorem exists_defineHere_of_sameBut
    {label : Option String}
    (same : SameBut name draft labelled)
    (other : name ∉ label.toList)
    (defined : draft.defineHere number label = .ok next) :
    ∃ nextLabelled, labelled.defineHere number label = .ok nextLabelled ∧
      SameBut name next nextLabelled := by
  cases label with
  | none =>
      cases defined
      exact ⟨labelled, rfl, same⟩
  | some label =>
      have different : label ≠ name := fun isName => other (by simp [isName])
      rw [defineHere, same.instructions]
      exact exists_define_of_sameBut same different defined

/-- One more instruction that does not use the name. -/
theorem SameBut.push
    (same : SameBut name draft labelled)
    {instruction : DraftInstruction}
    (unused : name ∉ fieldNames instruction.a.field ++ fieldNames instruction.b.field) :
    SameBut name
      { draft with instructions := draft.instructions.push instruction }
      { labelled with instructions := labelled.instructions.push instruction } := by
  refine { same with unused := ?_, instructions := ?_ }
  · intro other member
    rw [Array.toList_push, List.mem_append, List.mem_singleton] at member
    rcases member with earlier | rfl
    · exact same.unused other earlier
    · exact unused
  · rw [same.instructions]

/-- A statement that does not mention the name is added to both drafts alike. -/
theorem exists_add_of_sameBut
    {statement : Statement}
    (same : SameBut name draft labelled)
    (unmentioned : name ∉ statement.names)
    (added : draft.add number statement = .ok next) :
    ∃ nextLabelled, labelled.add number statement = .ok nextLabelled ∧
      SameBut name next nextLabelled := by
  cases statement with
  | blank =>
      cases added
      exact ⟨labelled, rfl, same⟩
  | finish =>
      cases added
      exact ⟨labelled, rfl, same⟩
  | constant label value =>
      have different : label ≠ name := fun isName => unmentioned (by simp [Statement.names, isName])
      exact exists_define_of_sameBut same different added
  | origin label field =>
      rw [Statement.names, List.mem_append, not_or] at unmentioned
      obtain ⟨defined, isDefined, made⟩ := bind_eq_ok_iff.mp added
      cases made
      obtain ⟨definedLabelled, isDefinedLabelled, sameDefined⟩ :=
        exists_defineHere_of_sameBut same unmentioned.1 isDefined
      refine ⟨_, bind_eq_ok_iff.mpr ⟨definedLabelled, isDefinedLabelled, rfl⟩, ?_⟩
      exact { sameDefined with
        originUnused := by rintro place ⟨⟩; exact unmentioned.2
        origin := rfl }
  | instruction label operation a b =>
      rw [Statement.names, List.mem_append, not_or] at unmentioned
      obtain ⟨defined, isDefined, made⟩ := bind_eq_ok_iff.mp added
      cases made
      obtain ⟨definedLabelled, isDefinedLabelled, sameDefined⟩ :=
        exists_defineHere_of_sameBut same unmentioned.1 isDefined
      exact ⟨_, bind_eq_ok_iff.mpr ⟨definedLabelled, isDefinedLabelled, rfl⟩,
        sameDefined.push unmentioned.2⟩

/-- No line that is read mentions the name. -/
def Unmentioned (name : String) (lines : List (List Char)) : Prop :=
  ∀ line ∈ lines, ∀ statement, Statement.ofLine line = .ok statement → name ∉ statement.names

theorem exists_readFrom_of_sameBut
    {lines : List (List Char)}
    (same : SameBut name draft labelled)
    (unmentioned : Unmentioned name lines)
    {last : Draft}
    (read : draft.readFrom number lines = .ok last) :
    ∃ lastLabelled, labelled.readFrom number lines = .ok lastLabelled ∧
      SameBut name last lastLabelled := by
  induction lines generalizing draft labelled number with
  | nil =>
      cases read
      exact ⟨labelled, rfl, same⟩
  | cons line rest inductionHypothesis =>
      obtain ⟨first, later⟩ := List.forall_mem_cons.mp unmentioned
      cases said : Statement.ofLine line with
      | error fault =>
          rw [readFrom, said] at read
          contradiction
      | ok statement =>
          by_cases finish : statement = .finish
          · subst finish
            rw [readFrom, said] at read ⊢
            cases read
            exact ⟨labelled, rfl, same⟩
          · rw [readFrom_of_said said finish] at read
            obtain ⟨next, added, readRest⟩ := bind_eq_ok_iff.mp read
            obtain ⟨nextLabelled, addedLabelled, sameNext⟩ :=
              exists_add_of_sameBut same (first statement said) added
            obtain ⟨last, readLabelled, sameLast⟩ := inductionHypothesis sameNext later readRest
            refine ⟨last, ?_, sameLast⟩
            rw [readFrom_of_said said finish, addedLabelled]
            exact readLabelled

/-- An instruction with the name for its label. -/
theorem exists_add_labelled
    {operation : Operation}
    {a b : WrittenOperand}
    (same : SameBut name draft draft)
    (unmentioned : name ∉ (Statement.instruction none operation a b).names)
    (added : draft.add number (.instruction none operation a b) = .ok next) :
    ∃ nextLabelled, draft.add number (.instruction (some name) operation a b) = .ok nextLabelled ∧
      SameBut name next nextLabelled := by
  cases added
  let symbol := Symbol.position draft.instructions.size
  have defined : draft.define number name symbol =
      .ok { draft with symbols := (name, symbol) :: draft.symbols } :=
    define_eq_ok_iff.mpr ⟨same.undefined, rfl⟩
  have known : SameBut name draft { draft with symbols := (name, symbol) :: draft.symbols } :=
    { same with symbols := fun label other => lookup_cons_of_ne other symbol _ }
  exact ⟨_, bind_eq_ok_iff.mpr ⟨_, defined, rfl⟩, known.push unmentioned⟩

end Reading

section Resolving

variable {name : String} {draft labelled : Draft} (same : SameBut name draft labelled)
include same

theorem resolve_of_sameBut
    {field : Option Field}
    (unused : name ∉ fieldNames field)
    (line index : Nat) :
    labelled.resolve line index field = draft.resolve line index field := by
  rcases field with _ | value | label
  · rfl
  · rfl
  · have different : label ≠ name := fun isName => unused (mem_fieldNames.mpr (by rw [isName]))
    rw [resolve, resolve, same.symbols label different]

theorem link_of_sameBut
    {instruction : DraftInstruction}
    (member : instruction ∈ draft.instructions.toList)
    (index : Nat) :
    labelled.link instruction index = draft.link instruction index := by
  obtain ⟨unusedA, unusedB⟩ := not_or.mp (List.mem_append.not.mp (same.unused instruction member))
  rw [link, link, resolve_of_sameBut same unusedA, resolve_of_sameBut same unusedB]

theorem program_of_sameBut : labelled.program = draft.program := by
  unfold program
  rw [same.instructions]
  apply mapM_congr_left
  rintro ⟨instruction, index⟩ member
  exact link_of_sameBut same (List.fst_mem_of_mem_zipIdx member) index

theorem entry_of_sameBut : labelled.entry = draft.entry := by
  rw [entry, entry, same.origin]
  cases origin : draft.origin with
  | none => rfl
  | some place => exact resolve_of_sameBut same (same.originUnused place origin) place.1 0

end Resolving

end Draft

/-! ## A label in front of a line -/

/-- The word that stands for the operation of a line. -/
def mnemonicOf (line : List Char) : List Char :=
  (LineParts.ofCode (codeOf line)).mnemonic

/-- The line with a label in front of it. -/
def labelledLine (name : Identifier) (line : List Char) : List Char :=
  name.text ++ ": ".toList ++ line

section Lines

variable {line : List Char} {operation : Operation} {a b : WrittenOperand}

theorem ofCode_of_no_label {code : List Char} (noLabel : (LineParts.ofCode code).label = none) :
    LineParts.ofCode code = ⟨none, (Text.splitWord code).1, (Text.splitWord code).2⟩ := by
  unfold LineParts.ofCode at noLabel ⊢
  simp only at noLabel ⊢
  split at noLabel
  · rename_i isMnemonic
    rw [if_pos isMnemonic]
  · rename_i noMnemonic
    rw [if_neg noMnemonic]
    split at noLabel
    · contradiction
    · rename_i otherWord
      rw [if_neg otherWord]

/-- A line fails if the word in the place of its mnemonic is none. -/
theorem ofLine_fails_of_no_mnemonic
    (notBlank : codeOf line ≠ [])
    (noMnemonic : isMnemonic (mnemonicOf line) = false) :
    ∃ fault, Statement.ofLine line = .error fault := by
  obtain ⟨noPseudo, noOperation⟩ := (Bool.or_eq_false_iff.mp noMnemonic :
    isPseudoMnemonic (Text.upper (mnemonicOf line)) = false ∧
      (Operation.ofMnemonic? (Text.upper (mnemonicOf line))).isSome = false)
  simp only [isPseudoMnemonic, Bool.or_eq_false_iff, decide_eq_false_iff_not] at noPseudo
  obtain ⟨⟨notOrigin, notConstant⟩, notEnd⟩ := noPseudo
  have unknown : Operation.ofMnemonic? (Text.upper (mnemonicOf line)) = none := by
    simpa using noOperation
  have code : (codeOf line).isEmpty = false := by simpa using notBlank
  unfold mnemonicOf at notOrigin notConstant notEnd unknown
  simp only [Statement.ofLine, code, Statement.ofOperands, notOrigin, notConstant, notEnd, unknown]
  cases readOperands (LineParts.ofCode (codeOf line)).operands with
  | error fault => exact ⟨fault, rfl⟩
  | ok both => exact ⟨_, rfl⟩

theorem eq_mnemonic_of_ofMnemonic?
    {text : List Char}
    (found : Operation.ofMnemonic? text = some operation) :
    text = operation.mnemonic := by
  rw [Operation.ofMnemonic?] at found
  have same := List.find?_some found
  exact (beq_iff_eq.mp same).symm

theorem eq_none_of_mapM_readLabel
    {word : Option (List Char)}
    (read : word.mapM readLabel = .ok none) :
    word = none := by
  cases word with
  | none => rfl
  | some text =>
      rw [Option.mapM_some, map_eq_pure_bind] at read
      obtain ⟨_, _, made⟩ := bind_eq_ok_iff.mp read
      cases made

/-- The words of a line that holds an instruction without a label. -/
structure Bare
    (line word rest : List Char)
    (operation : Operation)
    (a b : WrittenOperand) :
    Prop where
  code : codeOf line = word ++ rest
  parts : LineParts.ofCode (codeOf line) = ⟨none, word, rest⟩
  solid : Text.Solid word
  notEmpty : word ≠ []
  ended : ∀ character ∈ rest.head?, Text.isBlank character = true
  mnemonic : Operation.ofMnemonic? (Text.upper word) = some operation
  operands : readOperands rest = .ok (a, b)

/-- The first word of the line is its mnemonic. -/
theorem exists_bare_of_ofLine
    (said : Statement.ofLine line = .ok (.instruction none operation a b)) :
    ∃ word rest, Bare line word rest operation a b := by
  rcases blank_or_finish_or_conveys_of_ofLine said with
    isBlank | isFinish | ⟨_, _, operands, conveys⟩
  · cases isBlank
  · cases isFinish
  · cases conveys with
    | instruction mnemonic readLabels =>
        have parts := ofCode_of_no_label (eq_none_of_mapM_readLabel readLabels)
        rw [parts] at mnemonic operands
        have edged : Text.Edged (codeOf line) := Text.edged_trim _
        obtain ⟨code, solid, ended⟩ := Text.splitWord_of_first edged.first
        refine ⟨_, _, code, parts, solid, ?_, ended, mnemonic, operands⟩
        intro nothing
        rw [nothing] at mnemonic
        have unknown : Operation.ofMnemonic? (Text.upper []) = none := by decide
        cases unknown.symm.trans mnemonic

section Labelled

variable {word rest : List Char} (bare : Bare line word rest operation a b)
include bare

theorem Bare.mnemonicOf_eq : mnemonicOf line = word := by
  rw [mnemonicOf, bare.parts]

theorem Bare.isMnemonic : isMnemonic word = true := by
  rw [Assembly.isMnemonic, bare.mnemonic, Option.isSome_some, Bool.or_true]

/-- The label is set off from the code of the line by blanks. -/
theorem Bare.exists_codeOf_labelled (name : Identifier) :
    ∃ gap, Text.Blank gap ∧ gap ≠ [] ∧
      codeOf (labelledLine name line) = name.text ++ [':'] ++ (gap ++ (word ++ rest)) := by
  have code : Text.trim (line.takeWhile (· != ';')) = word ++ rest := bare.code
  have notBlank : Text.trim (line.takeWhile (· != ';')) ≠ [] := by
    rw [code]
    simp [bare.notEmpty]
  have noComment : ';' ∉ name.text ++ [':'] := by
    rw [List.mem_append, not_or]
    exact ⟨fun inside => absurd (isIdentifierChar_of_mem inside) (by decide), by decide⟩
  have labelled := codeOf_append (blank_of_gap gap_nil) (Text.edged_of_solid (solid_label name))
    (by simp) noComment (' ' :: line)
  have spaced : (' ' :: line).takeWhile (· != ';') = [' '] ++ line.takeWhile (· != ';') := rfl
  have regrouped : labelledLine name line = [] ++ (name.text ++ [':'] ++ ' ' :: line) := by
    simp [labelledLine]
  obtain ⟨before, beforeBlank, trimmed⟩ := Text.exists_trimEnd_append notBlank [' ']
  refine ⟨' ' :: before, ?_, by simp, ?_⟩
  · exact List.forall_mem_cons.mpr ⟨by decide, beforeBlank⟩
  · rw [regrouped, labelled, spaced, trimmed, code]
    rfl

/-- Behind a label the mnemonic is found if it is made of ASCII letters. -/
theorem Bare.ofLine_labelled
    (ascii : ∀ character ∈ word, character.toNat < 0x80)
    (name : Identifier) :
    Statement.ofLine (labelledLine name line) =
      .ok (.instruction (some name.name) operation a b) := by
  have known : Text.upper word ∈ mnemonics := (isMnemonic_iff word).mp bare.isMnemonic
  have spelled : word.map Char.toUpper ∈ mnemonics := Text.upper_of_ascii ascii ▸ known
  obtain ⟨gap, gapBlank, gapNotEmpty, code⟩ := bare.exists_codeOf_labelled name
  have parts := ofCode_labelled (solid_label name) (by simp) (isMnemonic_label name) gapBlank
    gapNotEmpty (isAlpha_of_spelled spelled) bare.notEmpty bare.ended
  have notBlank : (name.text ++ [':'] ++ (gap ++ (word ++ rest))).isEmpty = false := by simp
  have isOperation := eq_mnemonic_of_ofMnemonic? bare.mnemonic
  obtain ⟨notOrigin, notConstant, notEnd⟩ := mnemonic_ne operation
  simp only [Statement.ofLine, code, notBlank, parts, isOperation, if_neg notEnd, bare.operands,
    Bool.false_eq_true, if_false]
  show Statement.ofOperands _ _ a b = _
  simp only [Statement.ofOperands, if_neg notConstant, if_neg notOrigin,
    Operation.ofMnemonic?_mnemonic, Option.mapM_some, readLabel_label]
  rfl

/-- Behind a label a mnemonic that is not made of ASCII letters is not found. -/
theorem Bare.ofLine_labelled_fails
    {character : Char}
    (member : character ∈ word)
    (beyond : 0x80 ≤ character.toNat)
    (name : Identifier) :
    ∃ fault, Statement.ofLine (labelledLine name line) = .error fault := by
  obtain ⟨gap, gapBlank, gapNotEmpty, code⟩ := bare.exists_codeOf_labelled name
  have first := Text.splitWord_append (blank_of_gap gap_nil) (solid_label name) (by simp)
    (head_of_blank gapBlank gapNotEmpty (word ++ rest))
  have second := Text.splitWord_append gapBlank bare.solid bare.notEmpty bare.ended
  have otherWord : word.all Char.isAlpha = false := by
    rw [List.all_eq_false]
    refine ⟨character, member, fun letter => ?_⟩
    have bounds := toNat_of_isAlpha letter
    omega
  apply ofLine_fails_of_no_mnemonic
  · rw [code]
    simp
  · rw [mnemonicOf, code]
    rw [List.nil_append] at first
    simp only [LineParts.ofCode, first, isMnemonic_label, second, otherWord, Bool.and_false,
      Bool.false_eq_true, if_false]

end Labelled

end Lines

/-! ## A label in front of a line of a source -/

section Sources

variable {source : String} {above below : List (List Char)} {line : List Char}

theorem unmentioned_of_fresh
    {name : Identifier}
    (fresh : ¬Occurs name source.toList)
    {lines : List (List Char)}
    (inside : ∀ line ∈ lines, line ∈ Text.lines source.toList) :
    Draft.Unmentioned name.name lines := by
  intro line member statement said mentioned
  exact fresh (occurs_of_mem_lines (inside line member) (occurs_of_ofLine said mentioned))

/-- A source that is read is read line by line up to any line that no end stands above. -/
theorem exists_passes_of_read
    {last : Draft}
    (read : Draft.read (above ++ line :: below) = .ok last)
    (reached : ∀ earlier ∈ above, Statement.ofLine earlier ≠ .ok .finish) :
    ∃ draft, Draft.Passes {} 1 above draft := by
  rcases Draft.passes_or_stops {} 1 above with
    passes | ⟨front, other, back, draft, rfl, passes, stops⟩
  · exact passes
  · rcases Draft.finish_or_fails_of_stop stops with finish | ⟨fault, _, fails⟩
    · exact absurd finish (reached other (by simp))
    · rw [List.append_assoc, List.cons_append, Draft.read,
        Draft.readFrom_append_of_passes passes, fails] at read
      contradiction

/-- Lines that hold code declare nothing, so the header stays as it is. -/
theorem scan_of_code
    {other : List Char}
    (code : HasCode line)
    (otherCode : HasCode other) :
    Header.scan (above ++ other :: below) = Header.scan (above ++ line :: below) := by
  simp only [Header.scan, Header.scanFrom, List.filterMap_append,
    List.filterMap_cons_none (ofLine?_of_hasCode code),
    List.filterMap_cons_none (ofLine?_of_hasCode otherCode)]

theorem hasCode_of_codeOf (notBlank : codeOf line ≠ []) : HasCode line :=
  ⟨fun blank => notBlank (codeOf_of_blank blank),
    fun _ isComment => notBlank (codeOf_of_comment isComment)⟩

/-- Reading a source in which an instruction has got a label that nothing mentions. -/
theorem exists_read_labelled
    {name : Identifier}
    {other : List Char}
    {operation : Operation}
    {a b : WrittenOperand}
    {last : Draft}
    (read : Draft.read (above ++ line :: below) = .ok last)
    (reached : ∀ earlier ∈ above, Statement.ofLine earlier ≠ .ok .finish)
    (unmentioned : Draft.Unmentioned name.name (above ++ line :: below))
    (said : Statement.ofLine line = .ok (.instruction none operation a b))
    (saidOther : Statement.ofLine other = .ok (.instruction (some name.name) operation a b)) :
    ∃ lastLabelled, Draft.read (above ++ other :: below) = .ok lastLabelled ∧
      Draft.SameBut name.name last lastLabelled := by
  obtain ⟨unmentionedAbove, unmentionedRest⟩ := List.forall_mem_append.mp unmentioned
  obtain ⟨unmentionedHere, unmentionedBelow⟩ := List.forall_mem_cons.mp unmentionedRest
  obtain ⟨draft, passes⟩ := exists_passes_of_read read reached
  have readAbove := Draft.readFrom_of_passes passes
  obtain ⟨same, readSame, sameAbove⟩ :=
    Draft.exists_readFrom_of_sameBut (Draft.sameBut_empty name.name) unmentionedAbove readAbove
  obtain rfl : draft = same := Except.ok.inj (readAbove.symm.trans readSame)
  rw [Draft.read, Draft.readFrom_append_of_passes passes,
    readFrom_of_said said (by simp)] at read
  obtain ⟨next, added, readBelow⟩ := bind_eq_ok_iff.mp read
  obtain ⟨nextLabelled, addedLabelled, sameNext⟩ :=
    Draft.exists_add_labelled sameAbove (unmentionedHere _ said) added
  obtain ⟨lastLabelled, readLabelled, sameLast⟩ :=
    Draft.exists_readFrom_of_sameBut sameNext unmentionedBelow readBelow
  refine ⟨lastLabelled, ?_, sameLast⟩
  rw [Draft.read, Draft.readFrom_append_of_passes passes,
    readFrom_of_said saidOther (by simp), addedLabelled]
  exact readLabelled

/-- Reading a source in which a line has become faulty. -/
theorem read_error_of_passes
    {draft : Draft}
    (passes : Draft.Passes {} 1 above draft)
    {fault : LineFault}
    (said : Statement.ofLine line = .error fault)
    (below : List (List Char)) :
    Draft.read (above ++ line :: below) = .error (.atLine (above.length + 1) fault) := by
  rw [Draft.read, Draft.readFrom_append_of_passes passes, Draft.readFrom, said, Nat.add_comm]

end Sources

/-- A label that nothing mentions may be put in front of an instruction without one. The warrior
stays as it is if the mnemonic is written in ASCII letters. Otherwise the line is at fault, since
only the first word of a line is a mnemonic for its capitals alone. -/
theorem fresh_label_harmless_for_ascii
    (limits : Limits)
    {source labelled : String}
    {warrior : Warrior}
    (assembled : assemble limits source = .ok warrior)
    {above below : List (List Char)}
    {line : List Char}
    (split : Text.lines source.toList = above ++ line :: below)
    (reached : ∀ earlier ∈ above, Statement.ofLine earlier ≠ .ok .finish)
    {operation : Operation}
    {a b : WrittenOperand}
    (emits : Statement.ofLine line = .ok (.instruction none operation a b))
    {name : Identifier}
    (fresh : ¬Occurs name source.toList)
    (labelledSplit : Text.lines labelled.toList = above ++ labelledLine name line :: below) :
    ((∀ character ∈ mnemonicOf line, character.toNat < 0x80) →
      assemble limits labelled = .ok warrior) ∧
    ((∃ character ∈ mnemonicOf line, 0x80 ≤ character.toNat) →
      ∃ fault, assemble limits labelled = .error (.atLine (above.length + 1) fault)) := by
  obtain ⟨playable, title, draft, program, entry, start, approved, read, linked, entered, place,
    isWarrior⟩ := (assemble_eq_ok_iff limits source warrior).mp assembled
  obtain ⟨word, rest, bare⟩ := exists_bare_of_ofLine emits
  have code : HasCode line := by
    apply hasCode_of_codeOf
    rw [bare.code]
    simp [bare.notEmpty]
  have labelledCode : HasCode (labelledLine name line) := by
    obtain ⟨_, _, _, labelledCode⟩ := bare.exists_codeOf_labelled name
    apply hasCode_of_codeOf
    rw [labelledCode]
    simp
  have approvedLabelled :
      (Header.scan (Text.lines labelled.toList)).approve limits = .ok title := by
    rw [labelledSplit, scan_of_code code labelledCode, ← split]
    exact approved
  have unmentioned := unmentioned_of_fresh fresh fun _ => id
  rw [split] at read unmentioned
  rw [bare.mnemonicOf_eq]
  constructor
  · intro ascii
    obtain ⟨last, readLabelled, same⟩ :=
      exists_read_labelled read reached unmentioned emits (bare.ofLine_labelled ascii name)
    rw [← labelledSplit] at readLabelled
    rw [← Draft.program_of_sameBut same] at linked
    rw [← Draft.entry_of_sameBut same] at entered
    exact (assemble_eq_ok_iff limits labelled warrior).mpr ⟨playable, title, last, program, entry,
      start, approvedLabelled, readLabelled, linked, entered, place, isWarrior⟩
  · rintro ⟨character, member, beyond⟩
    obtain ⟨fault, fails⟩ := bare.ofLine_labelled_fails member beyond name
    obtain ⟨reads, passes⟩ := exists_passes_of_read read reached
    have failed := read_error_of_passes passes fails below
    refine ⟨fault, ?_⟩
    rw [assemble, assembleLines_of_approved playable approvedLabelled, labelledSplit, assembleBody,
      failed]
    rfl

/-- The label is part of a longer name, which does not count. It stands in front of a mnemonic in
small letters, behind which a comment starts. -/
theorem fresh_label_harmless_for_ascii_longer_name :
    let header := "; redcode\n; name A\n; assert 1\n"
    let source := header ++ "x1 EQU 1\n\tadd #x1,@-1;one\nEND\n"
    let labelled := header ++ "x1 EQU 1\nx: \tadd #x1,@-1;one\nEND\n"
    let name : Identifier := ⟨"x".toList, by decide⟩
    ¬Occurs name source.toList ∧
    assemble {} source = .ok (.single "A" 0 [⟨.add, ⟨.immediate, 1⟩, ⟨.indirect, -1⟩⟩]) ∧
    assemble {} labelled = .ok (.single "A" 0 [⟨.add, ⟨.immediate, 1⟩, ⟨.indirect, -1⟩⟩]) := by
  intro header source labelled name
  have fresh : ¬Occurs name source.toList := by decide +kernel
  have assembled : assemble {} source =
      .ok (.single "A" 0 [⟨.add, ⟨.immediate, 1⟩, ⟨.indirect, -1⟩⟩]) := by
    decide +kernel
  let line := "\tadd #x1,@-1;one".toList
  have split : Text.lines source.toList =
      Text.lines (header ++ "x1 EQU 1\n").toList ++ line :: ["END".toList] := by
    decide +kernel
  have labelledSplit : Text.lines labelled.toList =
      Text.lines (header ++ "x1 EQU 1\n").toList ++ labelledLine name line :: ["END".toList] := by
    decide +kernel
  have emits : Statement.ofLine line = .ok (.instruction none .add
      ⟨.immediate, some (.label "x1")⟩ ⟨.indirect, some (.number (-1))⟩) := by
    decide +kernel
  have harmless := fresh_label_harmless_for_ascii {} assembled split (by decide +kernel) emits
    fresh labelledSplit
  have ascii : (mnemonicOf line).all (fun character => decide (character.toNat < 0x80)) = true := by
    decide +kernel
  exact ⟨fresh, assembled, harmless.1 fun character member =>
    of_decide_eq_true (List.all_eq_true.mp ascii character member)⟩

/-- The long s has the capital of the short one, so it spells a mnemonic where that stands first on
its line. Behind a label the same word is taken for an operand. -/
theorem fresh_label_not_harmless :
    let header := "; redcode\n; name A\n; assert 1\n"
    let source := header ++ "ſub 0, 1\n"
    let labelled := header ++ "x: ſub 0, 1\n"
    let name : Identifier := ⟨"x".toList, by decide⟩
    let line := "ſub 0, 1".toList
    assemble {} source = .ok (.single "A" 0 [⟨.sub, ⟨.direct, 0⟩, ⟨.direct, 1⟩⟩]) ∧
    Text.lines source.toList = Text.lines header.toList ++ [line] ∧
    Statement.ofLine line = .ok (.instruction none .sub ⟨.direct, some (.number 0)⟩
      ⟨.direct, some (.number 1)⟩) ∧
    ¬Occurs name source.toList ∧
    Text.lines labelled.toList = Text.lines header.toList ++ [labelledLine name line] ∧
    assemble {} labelled = .error (.atLine 4 (.unsupportedMode "ſub 0")) := by
  intro header source labelled name line
  refine ⟨?_, ?_, ?_, ?_, ?_, ?_⟩
  · decide +kernel
  · decide +kernel
  · decide +kernel
  · decide +kernel
  · decide +kernel
  · decide +kernel

end CoreWar.Assembly
