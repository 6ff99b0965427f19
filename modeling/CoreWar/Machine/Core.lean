import CoreWar.Machine.Instruction

/-!
Contract: the circular memory in which warriors fight.

Owns:
- folding any address into a memory of a given size;
- reading, writing and loading cells;
- the occupied cells of a stretch of memory.

Does not own: the text of a dump, see `CoreWar.Listing`.

Addresses are signed words on their way in and unsigned words once folded. A size enters the
folding as a signed word, so a size of 2^63 or more acts as a negative modulus; the remainder is
Euclidean and never negative.
-/

namespace CoreWar

/-- The address reduced into a memory of this size: the Euclidean remainder. -/
def fold (address : Int64) (size : UInt64) : UInt64 :=
  UInt64.ofNat (address.toInt % size.toInt64.toInt).toNat

/-- A size below 2^63 enters the folding as itself. -/
theorem toInt_toInt64 (size : UInt64) (small : size.toNat < 0x8000000000000000) :
    size.toInt64.toInt = size.toNat := by
  have bits : size.toInt64.toInt = (size.toNat : Int).bmod 0x10000000000000000 :=
    BitVec.toInt_eq_toNat_bmod size.toBitVec
  rw [bits]
  exact Int.bmod_eq_of_le (by omega) (by omega)

/-- For such a size, a folded address is the remainder over the integers. -/
theorem toNat_fold
    (address : Int64)
    (size : UInt64)
    (positive : 0 < size.toNat)
    (small : size.toNat < 0x8000000000000000) :
    ((fold address size).toNat : Int) = address.toInt % size.toNat := by
  have nonnegative : 0 ≤ address.toInt % size.toNat := Int.emod_nonneg _ (by omega)
  have below : address.toInt % size.toNat < size.toNat := Int.emod_lt_of_pos _ (by omega)
  have word : (address.toInt % size.toNat).toNat < UInt64.size := by
    simp only [UInt64.size]
    omega
  rw [fold, toInt_toInt64 size small, UInt64.toNat_ofNat_of_lt' word]
  omega

/-- Folding where the remainder is defined: not by zero, and not the least word by minus one, whose
quotient is no word. -/
def fold? (address : Int64) (size : UInt64) : Option UInt64 :=
  if size = 0 ∨ (address = Int64.minValue ∧ size.toInt64 = -1) then
    none
  else
    some (fold address size)

/-- A circular memory of instructions. -/
structure Core where
  cells : Array Instruction
deriving DecidableEq, Repr

namespace Core

/-- A memory of cleared cells. -/
def ofSize (size : UInt64) : Core :=
  ⟨Array.replicate size.toNat Instruction.cleared⟩

/-- A memory of cleared cells that can be addressed: there is at least one. -/
def ofSize? (size : UInt64) : Option Core :=
  if size = 0 then none else some (ofSize size)

/-- The number of cells. -/
def size (core : Core) : UInt64 :=
  UInt64.ofNat core.cells.size

/-- The address reduced into this memory. -/
def fold (core : Core) (address : Int64) : UInt64 :=
  CoreWar.fold address core.size

/-- The cell at a folded address. -/
def read (core : Core) (address : Int64) : Instruction :=
  core.cells.getD (core.fold address).toNat Instruction.cleared

/-- Changes the cell at a folded address. -/
def modify (core : Core) (address : Int64) (change : Instruction → Instruction) : Core :=
  let index := (core.fold address).toNat
  ⟨core.cells.modify index change⟩

@[simp]
theorem size_modify (core : Core) (address : Int64) (change : Instruction → Instruction) :
    (core.modify address change).cells.size = core.cells.size := by
  simp [modify]

/-- Replaces the cell at a folded address. -/
def write (core : Core) (address : Int64) (instruction : Instruction) : Core :=
  core.modify address fun _ => instruction

/-- Replaces the A-field of the cell at a folded address. -/
def setField (core : Core) (address : Int64) (field : Int64) : Core :=
  core.modify address fun instruction => instruction.setField field

/-- Resets the cell at a folded address. -/
def clear (core : Core) (address : Int64) : Core :=
  core.write address Instruction.cleared

/-- Copies a program into consecutive cells from an address on, around the end of the memory. -/
def loadFrom (core : Core) (address : Int64) : List Instruction → Core
  | [] => core
  | instruction :: rest => (core.write address instruction).loadFrom (address + 1) rest

@[simp]
theorem size_loadFrom (core : Core) (address : Int64) (program : List Instruction) :
    (core.loadFrom address program).cells.size = core.cells.size := by
  induction program generalizing core address with
  | nil => rfl
  | cons instruction rest inductionHypothesis =>
      rw [loadFrom, inductionHypothesis, write, size_modify]

/-- Copies a program into consecutive cells, the first at `start`. -/
def load (core : Core) (start : UInt64) (program : List Instruction) : Core :=
  core.loadFrom start.toInt64 program

/-- The cell `distance` places after `start`, with its address. -/
def cellAfter (core : Core) (start : UInt64) (distance : Nat) : UInt64 × Instruction :=
  let address := core.fold (start.toInt64 + Int64.ofNat distance)
  (address, core.read address.toInt64)

/-- The cells of a stretch of `count` addresses that are not cleared, with their addresses. -/
def dump (core : Core) (start count : UInt64) : List (UInt64 × Instruction) :=
  ((List.range count.toNat).map (core.cellAfter start)).filter fun cell => !cell.2.isCleared

/-- How many cells are not cleared. -/
def occupied (core : Core) : Nat :=
  core.cells.countP fun instruction => !instruction.isCleared

end Core

end CoreWar
