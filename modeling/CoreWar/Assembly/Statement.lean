import CoreWar.Assembly.Error
import CoreWar.Machine.Instruction
import CoreWar.Text.Blank
import CoreWar.Text.Uppercase

/-!
Contract: the statements of a source, one on each line.

Owns:
- labels, fields and operands as they are written;
- telling a label from a mnemonic;
- reading a line as a statement, with the first fault of the line.

Does not own: what labels stand for, see `CoreWar.Assembly.Draft`.
-/

namespace CoreWar.Assembly

/-- A field as it is written: a number, or a label that stands for one. -/
inductive Field where
  | number (value : Int64)
  | label (name : String)
deriving DecidableEq, Repr

/-- An operand as it is written; one that is left out has no field. -/
structure WrittenOperand where
  mode : Mode := .direct
  field : Option Field := none
deriving DecidableEq, Repr

/-- What one line says. -/
inductive Statement where
  /-- Nothing: the line is blank or a comment. -/
  | blank
  /-- The source ends here. -/
  | finish
  /-- The label stands for a number. -/
  | constant (label : String) (value : Int64)
  /-- The first thread starts at the field. -/
  | origin (label : Option String) (field : Option Field)
  | instruction (label : Option String) (operation : Operation) (a b : WrittenOperand)
deriving DecidableEq, Repr

/-! ## Identifiers -/

def isIdentifierStart (character : Char) : Bool :=
  character.isAlpha || character == '_'

def isIdentifierChar (character : Char) : Bool :=
  character.isAlphanum || character == '_'

/-- An ASCII letter or underscore, then letters, digits and underscores. -/
def isIdentifier : List Char → Bool
  | [] => false
  | character :: rest => isIdentifierStart character && rest.all isIdentifierChar

/-- The label without the colon that may end it. -/
def withoutColon (word : List Char) : List Char :=
  if word.getLast? = some ':' then word.dropLast else word

/-- Reads the label in front of a statement. -/
def readLabel (word : List Char) : Except LineFault String :=
  let label := withoutColon word
  if isIdentifier label then
    .ok (String.ofList label)
  else
    .error (.invalidLabel (String.ofList label))

/-! ## Operands -/

/-- A numeral that fits a word is a number, an identifier is a label. -/
def Field.read? (text : List Char) : Option Field :=
  match Text.readSigned? text with
  | some value => some (.number value)
  | none => if isIdentifier text then some (.label (String.ofList text)) else none

/-- A field starts with an ASCII letter or digit, an underscore or a sign. -/
def isFieldStart (character : Char) : Bool :=
  character.isAlphanum || character == '_' || character == '-' || character == '+'

/-- Splits the sigil off an operand. Whatever cannot start a field is taken for a sigil. -/
def splitSigil : List Char → Option Char × List Char
  | [] => (none, [])
  | character :: rest =>
    if isFieldStart character then
      (none, character :: rest)
    else
      (some character, Text.trimStart rest)

/-- Reads an operand without blanks around it. -/
def readTrimmedOperand (text : List Char) : Except LineFault WrittenOperand :=
  let (sigil, body) := splitSigil text
  match Mode.ofSigil? sigil with
  | none => .error (.unsupportedMode (String.ofList text))
  | some mode =>
    if body.isEmpty then
      .error .missingField
    else
      match Field.read? body with
      | some field => .ok { mode, field := some field }
      | none => .error (.invalidField (String.ofList body))

def readOperand (text : List Char) : Except LineFault WrittenOperand :=
  readTrimmedOperand (Text.trim text)

/-- Reads the operands of a statement: none, one, or two with a comma between them. -/
def readOperands (text : List Char) : Except LineFault (WrittenOperand × WrittenOperand) :=
  let text := Text.trim text
  if text.isEmpty then
    .ok ({}, {})
  else
    match Text.splitAtChar ',' text with
    | [a] => do
      return (← readOperand a, {})
    | [a, b] => do
      let a ← readOperand a
      let b ← readOperand b
      return (a, b)
    | _ => .error (.tooManyOperands (String.ofList text))

/-! ## Lines -/

/-- The words of a line: a label if there is one, the mnemonic, and the rest. -/
structure LineParts where
  label : Option (List Char)
  mnemonic : List Char
  operands : List Char
deriving DecidableEq, Repr

/-- The mnemonics that are no operations. -/
def isPseudoMnemonic (word : List Char) : Bool :=
  word = "ORG".toList || word = "EQU".toList || word = "END".toList

/-- Whether a word, in any case, is a mnemonic. -/
def isMnemonic (word : List Char) : Bool :=
  let word := Text.upper word
  isPseudoMnemonic word || (Operation.ofMnemonic? word).isSome

/-- Splits a line. The first word is a label if it is no mnemonic and the second is made of ASCII
letters only. -/
def LineParts.ofCode (code : List Char) : LineParts :=
  let (first, rest) := Text.splitWord code
  if isMnemonic first then
    ⟨none, first, rest⟩
  else
    let (second, tail) := Text.splitWord rest
    if !second.isEmpty && second.all Char.isAlpha then
      ⟨some first, second, tail⟩
    else
      ⟨none, first, rest⟩

/-- A line without its comment and the blanks around it. -/
def codeOf (line : List Char) : List Char :=
  Text.trim (line.takeWhile fun character => character != ';')

namespace Statement

/-- The constant that a label stands for: a single number, in whatever mode. -/
def ofConstant (parts : LineParts) (a b : WrittenOperand) : Except LineFault Statement :=
  match parts.label with
  | none => .error .constantWithoutLabel
  | some label =>
    match a.field, b.field with
    | some (.number value), none => do
      return .constant (← readLabel label) value
    | _, _ => .error (.invalidConstant (String.ofList (Text.trim parts.operands)))

/-- The statement with this mnemonic, in capitals, and these operands. -/
def ofOperands
    (parts : LineParts)
    (mnemonic : List Char)
    (a b : WrittenOperand) :
    Except LineFault Statement :=
  if mnemonic = "EQU".toList then
    ofConstant parts a b
  else if mnemonic = "ORG".toList then do
    return .origin (← parts.label.mapM readLabel) a.field
  else
    match Operation.ofMnemonic? mnemonic with
    | none => .error (.unknownOperation (String.ofList mnemonic))
    | some operation => do
      return .instruction (← parts.label.mapM readLabel) operation a b

/-- Reads a line. Nothing after the mnemonic of a last line is looked at. -/
def ofLine (line : List Char) : Except LineFault Statement :=
  let code := codeOf line
  if code.isEmpty then
    .ok .blank
  else
    let parts := LineParts.ofCode code
    let mnemonic := Text.upper parts.mnemonic
    if mnemonic = "END".toList then
      .ok .finish
    else do
      let (a, b) ← readOperands parts.operands
      ofOperands parts mnemonic a b

end Statement

end CoreWar.Assembly
