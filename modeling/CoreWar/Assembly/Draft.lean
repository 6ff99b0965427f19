import CoreWar.Assembly.Statement

/-!
Contract: a program whose labels are still to be resolved.

Owns:
- the symbol table, the instructions in order, and the origin, gathered line by line;
- resolving every field once all labels are known.

Does not own: the header of a source, see `CoreWar.Assembly.Header`.

A label stands for the distance from the instruction that uses it to the one it names, unless it
names a constant. All faults of reading come before any undefined label.
-/

namespace CoreWar.Assembly

/-- What a label stands for. -/
inductive Symbol where
  | constant (value : Int64)
  /-- The index of the next instruction. -/
  | position (index : Nat)
deriving DecidableEq, Repr

/-- An instruction whose fields are still to be resolved. -/
structure DraftInstruction where
  line : Nat
  operation : Operation
  a : WrittenOperand
  b : WrittenOperand
deriving DecidableEq, Repr

/-- What the lines read so far amount to. -/
structure Draft where
  symbols : List (String × Symbol) := []
  instructions : Array DraftInstruction := #[]
  /-- The line and the field of the last origin. -/
  origin : Option (Nat × Option Field) := none
deriving DecidableEq, Repr

namespace Draft

/-! ## Gathering -/

/-- Adds a label to the table, which must not hold it yet. -/
def define
    (draft : Draft)
    (line : Nat)
    (label : String)
    (symbol : Symbol) :
    Except Error Draft :=
  match draft.symbols.lookup label with
  | some _ => .error (.atLine line (.duplicateLabel label))
  | none => .ok { draft with symbols := (label, symbol) :: draft.symbols }

/-- Lets a label, if there is one, name the next instruction. -/
def defineHere (draft : Draft) (line : Nat) : Option String → Except Error Draft
  | none => .ok draft
  | some label => draft.define line label (.position draft.instructions.size)

/-- The draft after one more statement. -/
def add (draft : Draft) (line : Nat) : Statement → Except Error Draft
  | .blank => .ok draft
  | .finish => .ok draft
  | .constant label value => draft.define line label (.constant value)
  | .origin label field => do
    let draft ← draft.defineHere line label
    return { draft with origin := some (line, field) }
  | .instruction label operation a b => do
    let draft ← draft.defineHere line label
    return { draft with instructions := draft.instructions.push ⟨line, operation, a, b⟩ }

/-- The draft after more lines, the first of which has this number. -/
def readFrom (draft : Draft) (number : Nat) : List (List Char) → Except Error Draft
  | [] => .ok draft
  | line :: rest =>
    match Statement.ofLine line with
    | .error fault => .error (.atLine number fault)
    | .ok .finish => .ok draft
    | .ok statement => do
      let draft ← draft.add number statement
      draft.readFrom (number + 1) rest

/-- The draft of a source. -/
def read (lines : List (List Char)) : Except Error Draft :=
  readFrom {} 1 lines

/-! ## Resolving -/

/-- The number that a field stands for in the instruction with this index. -/
def resolve
    (draft : Draft)
    (line index : Nat) :
    Option Field → Except Error Int64
  | none => .ok 0
  | some (.number value) => .ok value
  | some (.label label) =>
    match draft.symbols.lookup label with
    | some (.constant value) => .ok value
    | some (.position target) => .ok (Int64.ofNat target - Int64.ofNat index)
    | none => .error (.atLine line (.undefinedLabel label))

/-- The instruction with its fields resolved, the A-field first. -/
def link
    (draft : Draft)
    (instruction : DraftInstruction)
    (index : Nat) :
    Except Error Instruction := do
  let a ← draft.resolve instruction.line index instruction.a.field
  let b ← draft.resolve instruction.line index instruction.b.field
  return ⟨instruction.operation, ⟨instruction.a.mode, a⟩, ⟨instruction.b.mode, b⟩⟩

/-- The program of the draft. -/
def program (draft : Draft) : Except Error (List Instruction) :=
  draft.instructions.toList.zipIdx.mapM fun (instruction, index) => draft.link instruction index

/-- Where the first thread starts, counted from the first instruction. -/
def entry (draft : Draft) : Except Error Int64 :=
  match draft.origin with
  | none => .ok 0
  | some (line, field) => draft.resolve line 0 field

end Draft

end CoreWar.Assembly
