import CoreWar.Proofs.Assembly.Items

/-!
Contract: the layout of a source does not matter to what it is assembled into.

Owns:
- the lines that say and declare nothing, and the lines that hold code;
- changes of layout: idle lines inserted anywhere, comments added behind code;
- that the changed source is assembled into the same warrior, or fails with the same error, whose
  line moves down by the lines inserted above it.

Does not own: what the lines are read as, see `CoreWar.Proofs.Assembly.Items`.

Line numbers are kept in drafts until all labels are known, so the proof renumbers whole drafts.
Each stage of assembling commutes with renumbering, and reading a changed source is reading the
source with other numbers.
-/

namespace CoreWar.Assembly

/-! ## Changes of layout -/

/-- The word with which a comment starts, in small letters. It may be empty. -/
def commentWord (comment : List Char) : List Char :=
  ((Text.trimStart comment).takeWhile Directive.isWordChar).map Char.toLower

/-- The line is blank, or a comment that does not start with the word of a directive. -/
def Idle (line : List Char) : Prop :=
  Text.Blank line ∨
  ∃ comment, Text.trimStart line = ';' :: comment ∧
    commentWord comment ∉ ["redcode".toList, "name".toList, "assert".toList]

/-- The line is neither blank nor a comment. -/
def HasCode (line : List Char) : Prop :=
  ¬Text.Blank line ∧ ∀ comment, Text.trimStart line ≠ ';' :: comment

/-- What becomes of one line. -/
inductive Change where
  | keep (line : List Char)
  | insert (line : List Char)
  | annotate (line comment : List Char)
deriving DecidableEq, Repr

namespace Change

/-- The line before the change, unless it is a new one. -/
def before? : Change → Option (List Char)
  | keep line => some line
  | insert _ => none
  | annotate line _ => some line

def after : Change → List Char
  | keep line => line
  | insert line => line
  | annotate line comment => line ++ ';' :: comment

def Allowed : Change → Prop
  | keep _ => True
  | insert line => Idle line
  | annotate line _ => HasCode line

end Change

def linesBefore (changes : List Change) : List (List Char) :=
  changes.filterMap Change.before?

def linesAfter (changes : List Change) : List (List Char) :=
  changes.map Change.after

/-- The lines that are inserted above a line, which had this many lines above it before. -/
def insertedAbove : List Change → Nat → Nat
  | [], _ => 0
  | .insert _ :: rest, index => insertedAbove rest index + 1
  | _ :: _, 0 => 0
  | _ :: rest, index + 1 => insertedAbove rest index

/-- The number after the change of the line that had this number before it. -/
def renumber (changes : List Change) (number : Nat) : Nat :=
  number + insertedAbove changes (number - 1)

/-- The error with the number of its line, if it has one, replaced. -/
def Error.moved (move : Nat → Nat) : Error → Error
  | .atLine number fault => .atLine (move number) fault
  | error => error

/-! ## Lines -/

/-- The code of a line ends where a comment starts. -/
theorem codeOf_append_comment (line comment : List Char) :
    codeOf (line ++ ';' :: comment) = codeOf line := by
  unfold codeOf
  rw [List.takeWhile_append]
  split
  · rename_i whole
    have same : line.takeWhile (fun character => character != ';') = line :=
      (List.takeWhile_prefix _).eq_of_length whole
    rw [same]
    simp
  · rfl

theorem codeOf_of_blank {line : List Char} (blank : Text.Blank line) : codeOf line = [] := by
  apply Text.trim_of_blank
  intro character member
  exact blank character ((List.takeWhile_sublist _).mem member)

theorem codeOf_of_comment
    {line comment : List Char}
    (isComment : Text.trimStart line = ';' :: comment) :
    codeOf line = [] := by
  have split : line = line.takeWhile Text.isBlank ++ ';' :: comment := by
    rw [← isComment]
    exact List.takeWhile_append_dropWhile.symm
  rw [split, codeOf_append_comment]
  exact codeOf_of_blank fun character => List.mem_takeWhile_imp

theorem ofLine_of_idle {line : List Char} (idle : Idle line) :
    Statement.ofLine line = .ok .blank := by
  have code : codeOf line = [] := by
    rcases idle with blank | ⟨comment, isComment, _⟩
    · exact codeOf_of_blank blank
    · exact codeOf_of_comment isComment
  simp [Statement.ofLine, code]

theorem ofLine_annotated (line comment : List Char) :
    Statement.ofLine (line ++ ';' :: comment) = Statement.ofLine line := by
  unfold Statement.ofLine
  rw [codeOf_append_comment]

theorem ofWord?_of_other
    {word : List Char}
    (other : word.map Char.toLower ∉ ["redcode".toList, "name".toList, "assert".toList])
    (rest : List Char) :
    Directive.ofWord? word rest = none := by
  simp only [List.mem_cons, List.not_mem_nil, or_false, not_or] at other
  unfold Directive.ofWord?
  rw [if_neg other.1, if_neg other.2.1, if_neg other.2.2]

theorem ofLine?_of_idle {line : List Char} (idle : Idle line) :
    Directive.ofLine? line = none := by
  unfold Directive.ofLine?
  rcases idle with blank | ⟨comment, isComment, other⟩
  · have started : Text.trimStart line = [] := List.dropWhile_eq_nil_iff.mpr blank
    rw [started]
  · rw [isComment]
    show Directive.ofWord? ((Text.trimStart comment).span Directive.isWordChar).1 _ = none
    rw [List.span_eq_takeWhile_dropWhile]
    exact ofWord?_of_other other _

theorem ofLine?_of_hasCode {line : List Char} (code : HasCode line) :
    Directive.ofLine? line = none := by
  unfold Directive.ofLine?
  split
  · rename_i comment isComment
    exact absurd isComment (code.2 comment)
  · rfl

/-- Code starts with a character that is neither a blank nor a semicolon. -/
theorem hasCode_iff {line : List Char} :
    HasCode line ↔ ∃ first others, Text.trimStart line = first :: others ∧ first ≠ ';' := by
  have blank_iff : Text.Blank line ↔ Text.trimStart line = [] := List.dropWhile_eq_nil_iff.symm
  unfold HasCode
  rw [blank_iff]
  cases Text.trimStart line with
  | nil => simp
  | cons first others => simp

/-- Code stays code, whatever is put behind it. -/
theorem hasCode_append {line : List Char} (code : HasCode line) (text : List Char) :
    HasCode (line ++ text) := by
  obtain ⟨first, others, started, notComment⟩ := hasCode_iff.mp code
  refine hasCode_iff.mpr ⟨first, others ++ text, ?_, notComment⟩
  unfold Text.trimStart at started ⊢
  rw [List.dropWhile_append, started]
  rfl

/-! ## Renumbering -/

/-- An outcome with its lines renumbered, in an error and in a result. -/
def moveOutcome
    {α β : Type}
    (move : Nat → Nat)
    (relocate : α → β) :
    Except Error α → Except Error β
  | .error error => .error (error.moved move)
  | .ok value => .ok (relocate value)

theorem moveOutcome_id {α : Type} (move : Nat → Nat) (outcome : Except Error α) :
    moveOutcome move id outcome = outcome.mapError (Error.moved move) := by
  cases outcome <;> rfl

/-- Two stages are renumbered one after the other. -/
theorem bind_moveOutcome
    {α β γ δ : Type}
    {move : Nat → Nat}
    {relocate : α → β}
    {relocateNext : γ → δ}
    {next : α → Except Error γ}
    {nextMoved : β → Except Error δ}
    (outcome : Except Error α)
    (agrees : ∀ value, nextMoved (relocate value) = moveOutcome move relocateNext (next value)) :
    (moveOutcome move relocate outcome >>= nextMoved) =
      moveOutcome move relocateNext (outcome >>= next) := by
  cases outcome with
  | error error => rfl
  | ok value => exact agrees value

theorem mapM_moveOutcome
    {α β : Type}
    {move : Nat → Nat}
    {stage stageMoved : α → Except Error β}
    (agrees : ∀ item, stageMoved item = moveOutcome move id (stage item))
    (items : List α) :
    items.mapM stageMoved = moveOutcome move id (items.mapM stage) := by
  induction items with
  | nil => rfl
  | cons item rest inductionHypothesis =>
      rw [List.mapM_cons, List.mapM_cons, agrees, inductionHypothesis]
      apply bind_moveOutcome
      intro first
      apply bind_moveOutcome
      intro others
      rfl

def DraftInstruction.moved (move : Nat → Nat) (instruction : DraftInstruction) :
    DraftInstruction :=
  { instruction with line := move instruction.line }

namespace Draft

/-- The draft with all its lines renumbered. -/
def moved (move : Nat → Nat) (draft : Draft) : Draft where
  symbols := draft.symbols
  instructions := draft.instructions.map (DraftInstruction.moved move)
  origin := draft.origin.map fun (line, field) => (move line, field)

variable (move : Nat → Nat) (draft : Draft)

theorem moved_empty : moved move {} = {} := by
  simp [moved]

theorem symbols_moved : (draft.moved move).symbols = draft.symbols := rfl

theorem origin_moved :
    (draft.moved move).origin = draft.origin.map fun (line, field) => (move line, field) := rfl

theorem define_moved (line : Nat) (label : String) (symbol : Symbol) :
    (draft.moved move).define (move line) label symbol =
      moveOutcome move (moved move) (draft.define line label symbol) := by
  rw [define, define, symbols_moved]
  cases draft.symbols.lookup label with
  | none => rfl
  | some _ => rfl

theorem defineHere_moved (line : Nat) (label : Option String) :
    (draft.moved move).defineHere (move line) label =
      moveOutcome move (moved move) (draft.defineHere line label) := by
  have size : (draft.moved move).instructions.size = draft.instructions.size := Array.size_map
  cases label with
  | none => rfl
  | some label =>
      rw [defineHere, defineHere, size]
      exact define_moved move draft line label _

theorem add_moved (line : Nat) (statement : Statement) :
    (draft.moved move).add (move line) statement =
      moveOutcome move (moved move) (draft.add line statement) := by
  cases statement with
  | blank => rfl
  | finish => rfl
  | constant label value => exact define_moved move draft line label _
  | origin label field =>
      rw [add, add, defineHere_moved]
      apply bind_moveOutcome
      intro defined
      rfl
  | instruction label operation a b =>
      rw [add, add, defineHere_moved]
      apply bind_moveOutcome
      intro defined
      simp [moved, moveOutcome, DraftInstruction.moved, pure, Except.pure]

theorem resolve_moved (line index : Nat) (field : Option Field) :
    (draft.moved move).resolve (move line) index field =
      moveOutcome move id (draft.resolve line index field) := by
  rcases field with _ | value | label
  · rfl
  · rfl
  · rw [resolve, resolve, symbols_moved]
    cases draft.symbols.lookup label with
    | none => rfl
    | some symbol => cases symbol <;> rfl

theorem link_moved (instruction : DraftInstruction) (index : Nat) :
    (draft.moved move).link (instruction.moved move) index =
      moveOutcome move id (draft.link instruction index) := by
  have resolved (operand : WrittenOperand) :=
    resolve_moved move draft instruction.line index operand.field
  show ((draft.moved move).resolve (move instruction.line) index instruction.a.field >>= _) = _
  rw [resolved]
  apply bind_moveOutcome
  intro a
  show ((draft.moved move).resolve (move instruction.line) index instruction.b.field >>= _) = _
  rw [resolved]
  apply bind_moveOutcome
  intro b
  rfl

theorem program_moved : (draft.moved move).program = moveOutcome move id draft.program := by
  have numbered : (draft.moved move).instructions.toList.zipIdx =
      draft.instructions.toList.zipIdx.map (Prod.map (DraftInstruction.moved move) id) := by
    rw [← List.zipIdx_map, ← Array.toList_map]
    rfl
  unfold program
  rw [numbered, List.mapM_map]
  apply mapM_moveOutcome
  rintro ⟨instruction, index⟩
  exact link_moved move draft instruction index

theorem entry_moved : (draft.moved move).entry = moveOutcome move id draft.entry := by
  rw [entry, entry, origin_moved]
  cases draft.origin with
  | none => rfl
  | some place => exact resolve_moved move draft place.1 0 place.2

end Draft

/-! ## Reading a changed source -/

theorem scan_linesAfter
    {changes : List Change}
    (allowed : ∀ change ∈ changes, change.Allowed) :
    Header.scan (linesAfter changes) = Header.scan (linesBefore changes) := by
  have directives : (linesAfter changes).filterMap Directive.ofLine? =
      (linesBefore changes).filterMap Directive.ofLine? := by
    unfold linesAfter linesBefore
    rw [List.filterMap_map, List.filterMap_filterMap]
    apply List.filterMap_congr
    intro change member
    have isAllowed := allowed change member
    cases change with
    | keep line => rfl
    | insert line => exact ofLine?_of_idle isAllowed
    | annotate line comment =>
        exact (ofLine?_of_hasCode (hasCode_append isAllowed _)).trans
          (ofLine?_of_hasCode isAllowed).symm
  unfold Header.scan Header.scanFrom
  rw [directives]

/-- A line that says the same as before is read under its new number. -/
theorem readFrom_moved_cons
    {move : Nat → Nat}
    {line lineAfter : List Char}
    (same : Statement.ofLine lineAfter = Statement.ofLine line)
    {rest restAfter : List (List Char)}
    {number : Nat}
    (next : ∀ draft : Draft, (draft.moved move).readFrom (move number + 1) restAfter =
      moveOutcome move (Draft.moved move) (draft.readFrom (number + 1) rest))
    (draft : Draft) :
    (draft.moved move).readFrom (move number) (lineAfter :: restAfter) =
      moveOutcome move (Draft.moved move) (draft.readFrom number (line :: rest)) := by
  rw [Draft.readFrom, Draft.readFrom, same]
  cases Statement.ofLine line with
  | error fault => rfl
  | ok statement =>
      have added := Draft.add_moved move draft number statement
      cases statement with
      | finish => rfl
      | _ =>
          dsimp only
          rw [added]
          exact bind_moveOutcome _ next

/-- Reading what is left of a changed source. The numbers of the lines that are left are counted from
where each of the two readings stands. -/
theorem readFrom_linesAfter
    {changes : List Change}
    (allowed : ∀ change ∈ changes, change.Allowed)
    {move : Nat → Nat}
    {number numberAfter : Nat}
    (moves : ∀ index, move (number + index) = numberAfter + index + insertedAbove changes index)
    (draft : Draft) :
    (draft.moved move).readFrom numberAfter (linesAfter changes) =
      moveOutcome move (Draft.moved move) (draft.readFrom number (linesBefore changes)) := by
  induction changes generalizing number numberAfter draft with
  | nil => rfl
  | cons change rest inductionHypothesis =>
      have allowedRest : ∀ later ∈ rest, later.Allowed := fun later member =>
        allowed later (List.mem_cons_of_mem change member)
      have allowedFirst := allowed change List.mem_cons_self
      have kept {line lineAfter : List Char}
          (same : Statement.ofLine lineAfter = Statement.ofLine line)
          (first : insertedAbove (change :: rest) 0 = 0)
          (later : ∀ index, insertedAbove (change :: rest) (index + 1) = insertedAbove rest index) :
          (draft.moved move).readFrom numberAfter (lineAfter :: linesAfter rest) =
            moveOutcome move (Draft.moved move)
              (draft.readFrom number (line :: linesBefore rest)) := by
        have here : move number = numberAfter := by
          have start := moves 0
          rw [first] at start
          exact start
        rw [← here]
        apply readFrom_moved_cons same
        apply inductionHypothesis allowedRest
        intro index
        have behind := moves (index + 1)
        rw [later, ← here] at behind
        rw [Nat.add_right_comm, Nat.add_assoc, behind]
        omega
      cases change with
      | insert line =>
          show (draft.moved move).readFrom numberAfter (line :: linesAfter rest) = _
          rw [readFrom_of_blank (ofLine_of_idle allowedFirst)]
          apply inductionHypothesis allowedRest
          intro index
          rw [moves, insertedAbove]
          omega
      | keep line => exact kept rfl rfl fun _ => rfl
      | annotate line comment => exact kept (ofLine_annotated line comment) rfl fun _ => rfl

theorem read_linesAfter
    {changes : List Change}
    (allowed : ∀ change ∈ changes, change.Allowed) :
    Draft.read (linesAfter changes) =
      moveOutcome (renumber changes) (Draft.moved (renumber changes))
        (Draft.read (linesBefore changes)) := by
  have moves (index : Nat) :
      renumber changes (1 + index) = 1 + index + insertedAbove changes index := by
    rw [renumber, Nat.add_sub_cancel_left]
  have read := readFrom_linesAfter allowed moves {}
  rw [Draft.moved_empty] at read
  exact read

/-! ## Assembling a changed source -/

theorem assembleBody_linesAfter
    (limits : Limits)
    {changes : List Change}
    (allowed : ∀ change ∈ changes, change.Allowed) :
    assembleBody limits (linesAfter changes) =
      moveOutcome (renumber changes) id (assembleBody limits (linesBefore changes)) := by
  unfold assembleBody
  rw [read_linesAfter allowed]
  apply bind_moveOutcome
  intro draft
  rw [Draft.program_moved]
  apply bind_moveOutcome
  intro program
  rw [Draft.entry_moved]
  apply bind_moveOutcome
  intro entry
  rw [id_eq, id_eq]
  cases fold? entry limits.coreSize with
  | none => rfl
  | some start => rfl

/-- No complaint about a header names a line. -/
theorem approve_moved (move : Nat → Nat) (header : Header) (limits : Limits) :
    header.approve limits = moveOutcome move id (header.approve limits) := by
  have judged (text : String) :
      checkAssertion limits text = moveOutcome move id (checkAssertion limits text) := by
    unfold checkAssertion
    split <;> rfl
  unfold Header.approve
  cases header.marked with
  | false => rfl
  | true =>
      cases header.assertion with
      | none => rfl
      | some assertion =>
          refine (congrArg (· >>= _) (judged assertion)).trans ?_
          apply bind_moveOutcome
          intro _
          cases header.name with
          | none => rfl
          | some name => rfl

theorem assembleLines_linesAfter
    (limits : Limits)
    {changes : List Change}
    (allowed : ∀ change ∈ changes, change.Allowed) :
    assembleLines limits (linesAfter changes) =
      moveOutcome (renumber changes) id (assembleLines limits (linesBefore changes)) := by
  unfold assembleLines
  cases limits.check with
  | error error => rfl
  | ok _ =>
      dsimp only
      rw [scan_linesAfter allowed, assembleBody_linesAfter limits allowed]
      refine (congrArg (· >>= _) (approve_moved (renumber changes) _ limits)).trans ?_
      apply bind_moveOutcome
      intro name
      apply bind_moveOutcome
      intro body
      rfl

/-- The layout of a source does not matter. Blank lines, comments that declare nothing and comments
behind code leave the header and the warrior as they are; and an error too, except that its line is
further down by the lines inserted above it. -/
theorem assemble_relaid
    (limits : Limits)
    {changes : List Change}
    (allowed : ∀ change ∈ changes, change.Allowed)
    {source relaid : String}
    (sourceLines : Text.lines source.toList = linesBefore changes)
    (relaidLines : Text.lines relaid.toList = linesAfter changes) :
    assemble limits relaid =
      (assemble limits source).mapError
        (Error.moved fun number => number + insertedAbove changes (number - 1)) ∧
    Header.scan (Text.lines relaid.toList) = Header.scan (Text.lines source.toList) ∧
    ∀ line comment, Change.annotate line comment ∈ changes →
      Directive.ofLine? (line ++ ';' :: comment) = none := by
  refine ⟨?_, ?_, ?_⟩
  · unfold assemble
    rw [relaidLines, sourceLines, assembleLines_linesAfter limits allowed, moveOutcome_id]
    rfl
  · rw [relaidLines, sourceLines, scan_linesAfter allowed]
  · intro line comment member
    exact ofLine?_of_hasCode (hasCode_append (allowed _ member) _)

/-- Two lines are inserted above the undefined label and one below it. The comments behind the code
read like directives, but the header stays as it is. -/
theorem assemble_relaid_undefined_label :
    let changes : List Change :=
      [.keep "; redcode".toList, .insert "  ;author nobody".toList, .keep "; name A".toList,
        .keep "; assert 1".toList, .insert "\t".toList,
        .annotate "MOV 0, 1".toList " assert 0".toList,
        .annotate " JMP nowhere ".toList "name B; redcode".toList, .insert ";".toList]
    let source := "; redcode\n; name A\n; assert 1\nMOV 0, 1\n JMP nowhere \n"
    let relaid := "; redcode\n  ;author nobody\n; name A\n; assert 1\n\t\nMOV 0, 1; assert 0\n" ++
      " JMP nowhere ;name B; redcode\n;"
    (∀ change ∈ changes, change.Allowed) ∧
    Text.lines source.toList = linesBefore changes ∧
    Text.lines relaid.toList = linesAfter changes ∧
    assemble {} source = .error (.atLine 5 (.undefinedLabel "nowhere")) ∧
    assemble {} relaid = .error (.atLine 7 (.undefinedLabel "nowhere")) ∧
    (Header.scan (Text.lines relaid.toList)).name = some "A" := by
  intro changes source relaid
  have allowed : ∀ change ∈ changes, change.Allowed := by
    simp only [changes, List.forall_mem_cons, List.not_mem_nil, false_implies, implies_true,
      and_true]
    refine ⟨trivial, ?_, trivial, trivial, ?_, ?_, ?_, ?_⟩
    · exact Or.inr ⟨"author nobody".toList, by decide, by decide +kernel⟩
    · exact Or.inl (List.all_eq_true.mp (by decide))
    · exact hasCode_iff.mpr ⟨'M', "OV 0, 1".toList, by decide, by decide⟩
    · exact hasCode_iff.mpr ⟨'J', "MP nowhere ".toList, by decide, by decide⟩
    · exact Or.inr ⟨[], by decide, by decide⟩
  have sourceLines : Text.lines source.toList = linesBefore changes := by decide +kernel
  have relaidLines : Text.lines relaid.toList = linesAfter changes := by decide +kernel
  have failed : assemble {} source = .error (.atLine 5 (.undefinedLabel "nowhere")) := by
    decide +kernel
  have declared : (Header.scan (Text.lines source.toList)).name = some "A" := by decide +kernel
  obtain ⟨moved, sameHeader, _⟩ := assemble_relaid {} allowed sourceLines relaidLines
  rw [failed] at moved
  rw [sameHeader]
  exact ⟨allowed, sourceLines, relaidLines, failed, moved, declared⟩

end CoreWar.Assembly
