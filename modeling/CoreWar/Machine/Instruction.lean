import CoreWar.Text.Decimal

/-!
Contract: the instruction set of the core.

Owns:
- addressing modes and the sigils that mark them;
- the thirteen operations and their mnemonics;
- instructions, the cleared instruction, and the text of an instruction.

Does not own: what an operation does, see `CoreWar.Machine.Execution`.
-/

namespace CoreWar

/-- How the field of an operand is to be read. -/
inductive Mode where
  /-- The field itself is the value. -/
  | immediate
  /-- The field is a distance from the executing cell. -/
  | direct
  /-- The cell at that distance holds a second distance in its A-field. -/
  | indirect
deriving DecidableEq, Repr, Inhabited

namespace Mode

/-- The character in front of a field in this mode, if there is one. -/
def sigil? : Mode → Option Char
  | immediate => some '#'
  | direct => none
  | indirect => some '@'

/-- The mode that a sigil, or the absence of one, stands for. -/
def ofSigil? : Option Char → Option Mode
  | none => some direct
  | some '#' => some immediate
  | some '@' => some indirect
  | some _ => none

theorem ofSigil?_sigil? (mode : Mode) : ofSigil? mode.sigil? = some mode := by
  cases mode <;> rfl

end Mode

/-- The thirteen operations. -/
inductive Operation where
  /-- End the thread. -/
  | dat
  /-- Store A in the A-field at B. -/
  | mov
  /-- Store B plus A. -/
  | add
  /-- Store B minus A. -/
  | sub
  /-- Store B times A. -/
  | mul
  /-- Store B divided by A, toward zero. -/
  | div
  /-- Store the remainder of B by A, with the sign of B. -/
  | mod
  /-- Continue at A. -/
  | jmp
  /-- Continue at B if A is zero. -/
  | jmz
  /-- Skip a cell if A equals B. -/
  | cmp
  /-- Start a thread at A. -/
  | frk
  /-- Reset the cell at A. -/
  | clr
  /-- Copy the cell at A to B. -/
  | cpy
deriving DecidableEq, Repr, Inhabited

namespace Operation

/-- Every operation, in the order of the instruction set. -/
def all : List Operation :=
  [dat, mov, add, sub, mul, div, mod, jmp, jmz, cmp, frk, clr, cpy]

def mnemonic : Operation → List Char
  | dat => ['D', 'A', 'T']
  | mov => ['M', 'O', 'V']
  | add => ['A', 'D', 'D']
  | sub => ['S', 'U', 'B']
  | mul => ['M', 'U', 'L']
  | div => ['D', 'I', 'V']
  | mod => ['M', 'O', 'D']
  | jmp => ['J', 'M', 'P']
  | jmz => ['J', 'M', 'Z']
  | cmp => ['C', 'M', 'P']
  | frk => ['F', 'R', 'K']
  | clr => ['C', 'L', 'R']
  | cpy => ['C', 'P', 'Y']

/-- The operation with this mnemonic, which is written in capitals. -/
def ofMnemonic? (text : List Char) : Option Operation :=
  all.find? fun operation => operation.mnemonic == text

theorem mem_all (operation : Operation) : operation ∈ all := by
  cases operation <;> decide

theorem ofMnemonic?_mnemonic (operation : Operation) :
    ofMnemonic? operation.mnemonic = some operation := by
  cases operation <;> rfl

/-- The complaint about a text that is no mnemonic. -/
def unknownMessage (text : String) : String :=
  "invalid op-code: " ++ text

end Operation

/-- A mode and the number it applies to. -/
structure Operand where
  mode : Mode := .direct
  field : Int64 := 0
deriving DecidableEq, Repr, Inhabited

/-- The operand as it is written in a program. -/
def Operand.text (operand : Operand) : List Char :=
  operand.mode.sigil?.toList ++ Text.signedDecimal operand.field

/-- The content of one cell. -/
structure Instruction where
  operation : Operation
  a : Operand
  b : Operand
deriving DecidableEq, Repr

namespace Instruction

/-- What an unused or reset cell holds. -/
def cleared : Instruction :=
  ⟨.dat, {}, {}⟩

instance : Inhabited Instruction :=
  ⟨cleared⟩

def isCleared (instruction : Instruction) : Bool :=
  instruction = cleared

/-- The instruction with another A-field. -/
def setField (instruction : Instruction) (field : Int64) : Instruction :=
  { instruction with a := { instruction.a with field := field } }

/-- The instruction as it is written in a program. -/
def text (instruction : Instruction) : List Char :=
  instruction.operation.mnemonic ++ [' '] ++ instruction.a.text ++ [',', ' '] ++ instruction.b.text

instance : ToString Instruction :=
  ⟨fun instruction => String.ofList instruction.text⟩

end Instruction

end CoreWar
