import CoreWar.Assembly.Warrior
import CoreWar.Proofs.Text.Words

/-!
Contract: the reference semantics of a source, and how a source is written.

Owns:
- the items of a source: instructions, constants and origins, with the labels in front of them;
- the lines that an item may be written as;
- what a name stands for, and what program and what entry the items amount to.

Does not own: that the assembler agrees with it, see `CoreWar.Proofs.Assembly.Reference`.

The meaning of a name is read off the items as a whole. There is no symbol table and no order in
which the items are visited.
-/

namespace CoreWar.Assembly

/-- An ASCII letter or underscore, then letters, digits and underscores. -/
structure Identifier where
  text : List Char
  valid : isIdentifier text = true
deriving DecidableEq

def Identifier.name (identifier : Identifier) : String :=
  String.ofList identifier.text

inductive Term where
  | literal (value : Int64)
  | name (identifier : Identifier)
deriving DecidableEq

structure Argument where
  mode : Mode
  term : Term
deriving DecidableEq

/-- Up to two arguments. -/
inductive Arguments where
  | none
  | one (a : Argument)
  | two (a b : Argument)
deriving DecidableEq

/-- What stands on one line of a source. -/
inductive Item where
  | instruction (label : Option Identifier) (operation : Operation) (arguments : Arguments)
  | constant (label : Identifier) (value : Int64)
  | origin (label : Option Identifier) (argument : Option Argument)
deriving DecidableEq

def Arguments.a? : Arguments → Option Argument
  | .none => Option.none
  | .one a => some a
  | .two a _ => some a

def Arguments.b? : Arguments → Option Argument
  | .two _ b => some b
  | _ => Option.none

namespace Item

def label? : Item → Option Identifier
  | instruction label _ _ => label
  | constant label _ => some label
  | origin label _ => label

def isInstruction : Item → Bool
  | instruction _ _ _ => true
  | _ => false

def isConstant : Item → Bool
  | constant _ _ => true
  | _ => false

def isOrigin : Item → Bool
  | origin _ _ => true
  | _ => false

/-! ## Writing -/

def mnemonic : Item → List Char
  | instruction _ operation _ => operation.mnemonic
  | constant _ _ => "EQU".toList
  | origin _ _ => "ORG".toList

def arguments : Item → Arguments
  | instruction _ _ arguments => arguments
  | constant _ value => .one ⟨.direct, .literal value⟩
  | origin _ (some argument) => .one argument
  | origin _ none => .none

end Item

def Term.text : Term → List Char
  | literal value => Text.signedDecimal value
  | name identifier => identifier.text

def Argument.text (argument : Argument) : List Char :=
  argument.mode.sigil?.toList ++ argument.term.text

/-- Spaces and tabs. -/
def Gap (text : List Char) : Prop :=
  ∀ character ∈ text, character = ' ' ∨ character = '\t'

/-- A label is followed by a colon and set off from the mnemonic. -/
inductive LabelText : Option Identifier → List Char → Prop where
  | absent : LabelText none []
  | present
      (label : Identifier)
      {gap : List Char}
      (isGap : Gap gap)
      (notEmpty : gap ≠ []) :
      LabelText (some label) (label.text ++ ':' :: gap)

/-- Arguments are set off from the mnemonic, two of them with a comma between them. -/
inductive ArgumentsText : Arguments → List Char → Prop where
  | none : ArgumentsText .none []
  | one
      (a : Argument)
      {gap : List Char}
      (isGap : Gap gap)
      (notEmpty : gap ≠ []) :
      ArgumentsText (.one a) (gap ++ a.text)
  | two
      (a b : Argument)
      {gap before after : List Char}
      (isGap : Gap gap)
      (notEmpty : gap ≠ [])
      (beforeGap : Gap before)
      (afterGap : Gap after) :
      ArgumentsText (.two a b) (gap ++ (a.text ++ before ++ ',' :: (after ++ b.text)))

/-- The line holds the item: its label, its mnemonic in any case, and its arguments. -/
inductive Item.Written (item : Item) : List Char → Prop where
  | line
      {indent front word rest trailing : List Char}
      (indentGap : Gap indent)
      (label : LabelText item.label? front)
      (spelled : word.map Char.toUpper = item.mnemonic)
      (arguments : ArgumentsText item.arguments rest)
      (trailingGap : Gap trailing) :
      Item.Written item (indent ++ (front ++ (word ++ rest)) ++ trailing)

/-- The lines that declare a warrior of this name, under an assertion that always holds. -/
def declaration (name : List Char) : List (List Char) :=
  ["; redcode".toList, "; name ".toList ++ name, "; assert 1".toList]

/-! ## Meaning -/

/-- The labels in front of the items, in order. -/
def labels (items : List Item) : List Identifier :=
  items.filterMap Item.label?

def instructionCount (items : List Item) : Nat :=
  items.countP Item.isInstruction

/-- A name stands for the constant it labels, or for the number of instructions above the line it
labels. -/
inductive Stands (items : List Item) (name : Identifier) : Symbol → Prop where
  | constant
      {value : Int64}
      (member : Item.constant name value ∈ items) :
      Stands items name (.constant value)
  | position
      {above below : List Item}
      {item : Item}
      (split : items = above ++ item :: below)
      (labelled : item.label? = some name)
      (notConstant : item.isConstant = false) :
      Stands items name (.position (instructionCount above))

/-- The value of a symbol in the instruction with this index: a constant, or a distance. -/
def Symbol.valueAt (index : Nat) : Symbol → Int64
  | constant value => value
  | position target => Int64.ofInt ((target : Int) - index)

/-- The value of a term in the instruction with this index; a missing one is zero. -/
def TermValue (items : List Item) (index : Nat) : Option Term → Int64 → Prop
  | none, value => value = 0
  | some (.literal number), value => value = number
  | some (.name name), value =>
    ∃ symbol, Stands items name symbol ∧ value = symbol.valueAt index

/-- The last origin has this argument. -/
def LastOrigin (items : List Item) (argument : Option Argument) : Prop :=
  ∃ above label below, items = above ++ .origin label argument :: below ∧
    ∀ item ∈ below, item.isOrigin = false

/-- The name is used in an instruction or in the last origin. -/
inductive Uses (items : List Item) (name : Identifier) : Prop where
  | instruction
      {label : Option Identifier}
      {operation : Operation}
      {arguments : Arguments}
      (member : Item.instruction label operation arguments ∈ items)
      (used : arguments.a?.map Argument.term = some (.name name) ∨
        arguments.b?.map Argument.term = some (.name name))
  | origin
      {argument : Option Argument}
      (last : LastOrigin items argument)
      (used : argument.map Argument.term = some (.name name))

/-- The operand has the mode of the argument, and its field the value of the argument's term. A
missing argument is direct. -/
structure OperandValue
    (items : List Item)
    (index : Nat)
    (argument : Option Argument)
    (operand : Operand) : Prop where
  mode : operand.mode = (argument.map Argument.mode).getD .direct
  field : TermValue items index (argument.map Argument.term) operand.field

/-- The program has an instruction for each one of the items, in order, with the operation, the
modes and the fields that are written. -/
structure ProgramValue (items : List Item) (program : List Instruction) : Prop where
  length : program.length = instructionCount items
  instruction : ∀ above label operation arguments below,
    items = above ++ .instruction label operation arguments :: below →
    ∃ instruction, program[instructionCount above]? = some instruction ∧
      instruction.operation = operation ∧
      OperandValue items (instructionCount above) arguments.a? instruction.a ∧
      OperandValue items (instructionCount above) arguments.b? instruction.b

/-- The entry is the value of the last origin, as in the first instruction, and zero without one. -/
structure EntryValue (items : List Item) (entry : Int64) : Prop where
  last : ∀ argument, LastOrigin items argument →
    TermValue items 0 (argument.map Argument.term) entry
  absent : (∀ item ∈ items, item.isOrigin = false) → entry = 0

end CoreWar.Assembly
