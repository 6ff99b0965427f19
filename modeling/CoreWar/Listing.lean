import CoreWar.Machine.Core
import CoreWar.Machine.Warrior

/-!
Contract: programs and memory on paper.

Owns:
- numbered lines of a program, with or without the mark at its first thread;
- the dump of the occupied cells of a core.

Does not own: the text of one instruction, see `CoreWar.Machine.Instruction`.
-/

namespace CoreWar.Listing

/-- One numbered instruction on a line of its own. -/
def numberedLine (width number : Nat) (instruction : Instruction) : List Char :=
  Text.paddedDecimal width number ++ [':', ' '] ++ instruction.text ++ ['\n']

/-- The numbered lines of a program. -/
def programLines (program : List Instruction) : List Char :=
  program.zipIdx.flatMap fun (instruction, index) => numberedLine 4 index instruction

/-- A program, one numbered instruction on each line. -/
def disassemble (program : List Instruction) : String :=
  String.ofList (programLines program)

/-- The numbered lines of a program, each behind a column that marks the first thread. -/
def markedLines (first : Option UInt64) (program : List Instruction) : List Char :=
  program.zipIdx.flatMap fun (instruction, index) =>
    (if first.map UInt64.toNat = some index then '>' else ' ') :: numberedLine 4 index instruction

/-- A warrior's name, the length of its program and the program itself. -/
def ofWarrior (warrior : Warrior) : String :=
  "; " ++ warrior.name ++ "\n; " ++ String.ofList (Text.decimal warrior.program.length) ++
    " instructions\n\n" ++ String.ofList (markedLines warrior.tasks.peek? warrior.program)

/-- The lines of the occupied cells of a stretch of memory. -/
def dumpLines (core : Core) (start count : UInt64) : List Char :=
  (core.dump start count).flatMap fun (address, instruction) =>
    numberedLine 5 address.toNat instruction

/-- The occupied cells of a stretch of memory, one on each line. -/
def dump (core : Core) (start count : UInt64) : String :=
  String.ofList (dumpLines core start count)

/-- The occupied cells of the whole memory. -/
def dumpAll (core : Core) : String :=
  dump core 0 core.size

end CoreWar.Listing
