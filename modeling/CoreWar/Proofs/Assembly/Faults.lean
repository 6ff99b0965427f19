import CoreWar.Assembly.Warrior
import CoreWar.Proofs.Failure

/-!
Contract: which stage of assembling an error comes from.

Owns: the errors of judging a header, of reading lines, and of linking labels.

Does not own: outcomes with errors of one kind, see `CoreWar.Proofs.Failure`; when a stage fails,
the modules beside this one tell that.

The three kinds exclude one another, so an error of the whole tells its stage.
-/

namespace CoreWar.Assembly

/-- The fault is found while lines are read. Only an undefined label is not: what a label stands for
is known when all lines are read. -/
def LineFault.OfReading : LineFault → Prop
  | undefinedLabel _ => False
  | _ => True

namespace Error

/-- The error complains of the limits or of the header. -/
def OfHeader : Error → Prop
  | atLine _ _ => False
  | unfoldableOrigin => False
  | _ => True

def OfReading : Error → Prop
  | atLine _ fault => fault.OfReading
  | _ => False

def OfLinking : Error → Prop
  | atLine _ (.undefinedLabel _) => True
  | _ => False

theorem OfHeader.ne_unfoldableOrigin {error : Error} (header : error.OfHeader) :
    error ≠ .unfoldableOrigin := by
  rintro rfl
  exact header

theorem OfReading.ne_unfoldableOrigin {error : Error} (reading : error.OfReading) :
    error ≠ .unfoldableOrigin := by
  rintro rfl
  exact reading

theorem OfLinking.ne_unfoldableOrigin {error : Error} (linking : error.OfLinking) :
    error ≠ .unfoldableOrigin := by
  rintro rfl
  exact linking

theorem not_ofHeader_of_ofReading {error : Error} (reading : error.OfReading) :
    ¬error.OfHeader := by
  cases error with
  | atLine number fault => exact id
  | _ => exact reading.elim

theorem not_ofHeader_of_ofLinking {error : Error} (linking : error.OfLinking) :
    ¬error.OfHeader := by
  cases error with
  | atLine number fault => exact id
  | _ => exact linking.elim

theorem not_ofReading_of_ofLinking {error : Error} (linking : error.OfLinking) :
    ¬error.OfReading := by
  cases error with
  | atLine number fault =>
      cases fault with
      | undefinedLabel label => exact id
      | _ => exact linking.elim
  | _ => exact linking.elim

end Error

/-! ## Reading a line -/

theorem readLabel_fails (word : List Char) :
    FailsOnlyWith LineFault.OfReading (readLabel word) := by
  unfold readLabel
  simp only
  split
  · exact failsOnlyWith_ok _
  · exact failsOnlyWith_error trivial

theorem readOperand_fails (text : List Char) :
    FailsOnlyWith LineFault.OfReading (readOperand text) := by
  unfold readOperand readTrimmedOperand
  simp only
  split
  · exact failsOnlyWith_error trivial
  · split
    · exact failsOnlyWith_error trivial
    · split
      · exact failsOnlyWith_ok _
      · exact failsOnlyWith_error trivial

theorem readOperands_fails (text : List Char) :
    FailsOnlyWith LineFault.OfReading (readOperands text) := by
  unfold readOperands
  simp only
  split
  · exact failsOnlyWith_ok _
  · split
    · exact (readOperand_fails _).bind fun _ => failsOnlyWith_ok _
    · exact (readOperand_fails _).bind fun _ => (readOperand_fails _).bind fun _ =>
        failsOnlyWith_ok _
    · exact failsOnlyWith_error trivial

namespace Statement

theorem ofConstant_fails (parts : LineParts) (a b : WrittenOperand) :
    FailsOnlyWith LineFault.OfReading (ofConstant parts a b) := by
  unfold ofConstant
  split
  · exact failsOnlyWith_error trivial
  · split
    · exact (readLabel_fails _).bind fun _ => failsOnlyWith_ok _
    · exact failsOnlyWith_error trivial

theorem ofOperands_fails (parts : LineParts) (mnemonic : List Char) (a b : WrittenOperand) :
    FailsOnlyWith LineFault.OfReading (ofOperands parts mnemonic a b) := by
  have labelled := FailsOnlyWith.mapM_option readLabel_fails parts.label
  unfold ofOperands
  split
  · exact ofConstant_fails parts a b
  · split
    · exact labelled.bind fun _ => failsOnlyWith_ok _
    · split
      · exact failsOnlyWith_error trivial
      · exact labelled.bind fun _ => failsOnlyWith_ok _

theorem ofLine_fails (line : List Char) :
    FailsOnlyWith LineFault.OfReading (ofLine line) := by
  unfold ofLine
  simp only
  split
  · exact failsOnlyWith_ok _
  · split
    · exact failsOnlyWith_ok _
    · exact (readOperands_fails _).bind fun _ => ofOperands_fails _ _ _ _

end Statement

/-! ## Reading, linking and judging -/

namespace Draft

/-- The label stands on this line and on one above it. -/
def IsDuplicate (number : Nat) (error : Error) : Prop :=
  ∃ label, error = .atLine number (.duplicateLabel label)

theorem define_fails (draft : Draft) (line : Nat) (label : String) (symbol : Symbol) :
    FailsOnlyWith (IsDuplicate line) (draft.define line label symbol) := by
  unfold define
  split
  · exact failsOnlyWith_error ⟨label, rfl⟩
  · exact failsOnlyWith_ok _

theorem add_fails (draft : Draft) (line : Nat) (statement : Statement) :
    FailsOnlyWith (IsDuplicate line) (draft.add line statement) := by
  have labelled (label : Option String) :
      FailsOnlyWith (IsDuplicate line) (draft.defineHere line label) := by
    cases label with
    | none => exact failsOnlyWith_ok _
    | some label => exact define_fails draft line label _
  cases statement with
  | blank => exact failsOnlyWith_ok _
  | finish => exact failsOnlyWith_ok _
  | constant label value => exact define_fails draft line label _
  | origin label field => exact (labelled label).bind fun _ => failsOnlyWith_ok _
  | instruction label operation a b => exact (labelled label).bind fun _ => failsOnlyWith_ok _

theorem readFrom_fails (draft : Draft) (number : Nat) (lines : List (List Char)) :
    FailsOnlyWith Error.OfReading (draft.readFrom number lines) := by
  induction lines generalizing draft number with
  | nil => exact failsOnlyWith_ok _
  | cons line rest inductionHypothesis =>
      unfold readFrom
      split
      · rename_i fault unread
        exact failsOnlyWith_error (Statement.ofLine_fails line fault unread)
      · exact failsOnlyWith_ok _
      · have reading (error : Error) (duplicate : IsDuplicate number error) : error.OfReading := by
          obtain ⟨label, rfl⟩ := duplicate
          trivial
        exact ((add_fails draft number _).mono reading).bind fun next =>
          inductionHypothesis next (number + 1)

theorem read_fails (lines : List (List Char)) :
    FailsOnlyWith Error.OfReading (read lines) :=
  readFrom_fails {} 1 lines

theorem resolve_fails (draft : Draft) (line index : Nat) (field : Option Field) :
    FailsOnlyWith Error.OfLinking (draft.resolve line index field) := by
  unfold resolve
  split
  · exact failsOnlyWith_ok _
  · exact failsOnlyWith_ok _
  · split
    · exact failsOnlyWith_ok _
    · exact failsOnlyWith_ok _
    · exact failsOnlyWith_error trivial

theorem program_fails (draft : Draft) : FailsOnlyWith Error.OfLinking draft.program :=
  FailsOnlyWith.mapM
    (fun _ => (resolve_fails draft _ _ _).bind fun _ => (resolve_fails draft _ _ _).bind fun _ =>
      failsOnlyWith_ok _) _

theorem entry_fails (draft : Draft) : FailsOnlyWith Error.OfLinking draft.entry := by
  unfold entry
  split
  · exact failsOnlyWith_ok _
  · exact resolve_fails draft _ 0 _

end Draft

theorem approve_fails (header : Header) (limits : Limits) :
    FailsOnlyWith Error.OfHeader (header.approve limits) := by
  have judged (text : String) : FailsOnlyWith Error.OfHeader (checkAssertion limits text) := by
    unfold checkAssertion
    split
    · exact failsOnlyWith_ok _
    · exact failsOnlyWith_error trivial
    · exact failsOnlyWith_error trivial
    · exact failsOnlyWith_error trivial
  unfold Header.approve
  cases header.marked with
  | false => exact failsOnlyWith_error trivial
  | true =>
      cases header.assertion with
      | none => exact failsOnlyWith_error trivial
      | some assertion =>
          refine (judged assertion).bind fun _ => ?_
          cases header.name with
          | none => exact failsOnlyWith_error trivial
          | some name => exact failsOnlyWith_ok _

/-- Once its lines are read, a source fails at a label or for want of a place for its origin. -/
theorem linkBody_fails (limits : Limits) (draft : Draft) :
    FailsOnlyWith (fun error => error.OfLinking ∨ error = .unfoldableOrigin) (do
      let program ← draft.program
      let entry ← draft.entry
      match fold? entry limits.coreSize with
      | some start => return (program, start)
      | none => throw Error.unfoldableOrigin) := by
  refine (draft.program_fails.mono fun _ => Or.inl).bind fun program => ?_
  refine (draft.entry_fails.mono fun _ => Or.inl).bind fun entry => ?_
  cases fold? entry limits.coreSize with
  | none => exact failsOnlyWith_error (Or.inr rfl)
  | some start => exact failsOnlyWith_ok _

/-- Behind its header a source fails at a line, or for want of a place for its origin. -/
theorem assembleBody_fails (limits : Limits) (lines : List (List Char)) :
    FailsOnlyWith (fun error => ¬error.OfHeader) (assembleBody limits lines) := by
  have reading := (Draft.read_fails lines).mono fun _ => Error.not_ofHeader_of_ofReading
  refine reading.bind fun draft => (linkBody_fails limits draft).mono ?_
  rintro error (linking | rfl)
  · exact Error.not_ofHeader_of_ofLinking linking
  · exact id

/-! ## The stage of an error -/

section StageOfError

variable {limits : Limits} {lines : List (List Char)} {error : Error}

/-- An error that is no complaint about limits or header comes from behind the header. -/
theorem assembleBody_error_of_assembleLines
    (failed : assembleLines limits lines = .error error)
    (notHeader : ¬error.OfHeader) :
    assembleBody limits lines = .error error := by
  unfold assembleLines at failed
  cases checked : limits.check with
  | error complaint =>
      rw [checked] at failed
      rw [← Except.error.inj failed] at notHeader
      exact absurd trivial notHeader
  | ok _ =>
      rw [checked] at failed
      obtain ⟨name, _, behind⟩ :=
        (approve_fails (Header.scan lines) limits).exists_ok_of_bind failed notHeader
      have made (body : List Instruction × UInt64) :
          FailsOnlyWith (fun _ : Error => False) (.ok (Warrior.single name body.2 body.1)) :=
        failsOnlyWith_ok _
      exact FailsOnlyWith.error_of_bind made behind id

theorem read_error_of_assembleLines
    (failed : assembleLines limits lines = .error error)
    (reading : error.OfReading) :
    Draft.read lines = .error error := by
  have body := assembleBody_error_of_assembleLines failed (Error.not_ofHeader_of_ofReading reading)
  refine FailsOnlyWith.error_of_bind (linkBody_fails limits) body ?_
  rintro (linking | rfl)
  · exact Error.not_ofReading_of_ofLinking linking reading
  · exact reading

/-- A source with an unknown label has been read without a fault. -/
theorem exists_read_of_assembleLines
    (failed : assembleLines limits lines = .error error)
    (linking : error.OfLinking) :
    ∃ draft, Draft.read lines = .ok draft := by
  have body := assembleBody_error_of_assembleLines failed (Error.not_ofHeader_of_ofLinking linking)
  obtain ⟨draft, read, _⟩ := (Draft.read_fails lines).exists_ok_of_bind body
    (Error.not_ofReading_of_ofLinking linking)
  exact ⟨draft, read⟩

end StageOfError

end CoreWar.Assembly
