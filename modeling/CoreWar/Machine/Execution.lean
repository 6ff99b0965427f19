import CoreWar.Machine.Core
import CoreWar.Machine.Warrior

/-!
Contract: what one instruction does.

Owns:
- resolving an operand against the executing cell;
- the effect of each operation on the core, the queue and the thread that runs it;
- the faults that end a thread.

Does not own: whose turn it is, see `CoreWar.Battle.Basic`.

Field arithmetic wraps around the 64-bit word. An operand is resolved before its operation runs, so
both operands see the core as it was.
-/

namespace CoreWar

/-- A resolved operand: the number to read and the cell to write or jump to. -/
structure Target where
  value : Int64
  address : UInt64
deriving DecidableEq, Repr

/-- The address at a distance from another, folded into the core. -/
def Core.displace (core : Core) (base : UInt64) (distance : Int64) : UInt64 :=
  core.fold (base.toInt64 + (core.fold distance).toInt64)

/-- The A-field of a cell, as the target of an operand. -/
def Core.target (core : Core) (address : UInt64) : Target :=
  ⟨(core.read address.toInt64).a.field, address⟩

/-- The target of an operand of the instruction at `pc`. An immediate operand targets its own cell,
at the address as given. -/
def Operand.resolve (operand : Operand) (core : Core) (pc : UInt64) : Target :=
  match operand.mode with
  | .immediate => ⟨operand.field, pc⟩
  | .direct => core.target (core.displace pc operand.field)
  | .indirect =>
    let pointer := core.displace pc operand.field
    core.target (core.displace pointer (core.read pointer.toInt64).a.field)

/-- Why a thread was ended against its will. -/
inductive Fault where
  | divisionByZero
  | moduloByZero
deriving DecidableEq, Repr

def Fault.message : Fault → String
  | divisionByZero => "division by zero"
  | moduloByZero => "modulo by zero"

/-- What an operation leaves behind. -/
structure Execution where
  core : Core
  /-- The queue without the executing thread. -/
  tasks : TaskQueue
  /-- Where the executing thread goes on; none if it has ended. -/
  next : Option UInt64
  fault : Option Fault := none
deriving DecidableEq, Repr

namespace Execution

/-- Stores a number in the A-field of a cell. -/
def store (execution : Execution) (address : UInt64) (value : Int64) : Execution :=
  { execution with core := execution.core.setField address.toInt64 value }

/-- Lets the thread go on elsewhere. -/
def jump (execution : Execution) (address : UInt64) : Execution :=
  { execution with next := some address }

/-- Ends the thread. -/
def stop (execution : Execution) : Execution :=
  { execution with next := none }

/-- Ends the thread with a fault; nothing is written. -/
def abort (execution : Execution) (fault : Fault) : Execution :=
  { execution with next := none, fault := some fault }

/-- Lets a thread that goes on leave out one cell. -/
def skip (execution : Execution) : Execution :=
  let next := execution.next.map fun address => execution.core.fold (address.toInt64 + 1)
  { execution with next }

/-- Starts a thread, if there is room for it and for the executing one. -/
def fork (execution : Execution) (maxTasks : UInt64) (address : UInt64) : Execution :=
  if execution.tasks.length + 2 ≤ maxTasks.toNat then
    { execution with tasks := execution.tasks.enqueue address }
  else
    execution

end Execution

/-- Runs an operation on its two targets. -/
def Operation.execute
    (operation : Operation)
    (a b : Target)
    (maxTasks : UInt64)
    (before : Execution) :
    Execution :=
  match operation with
  | .dat => before.stop
  | .mov => before.store b.address a.value
  | .add => before.store b.address (b.value + a.value)
  | .sub => before.store b.address (b.value - a.value)
  | .mul => before.store b.address (b.value * a.value)
  | .div =>
    if a.value = 0 then before.abort .divisionByZero
    else before.store b.address (b.value / a.value)
  | .mod =>
    if a.value = 0 then before.abort .moduloByZero
    else before.store b.address (b.value % a.value)
  | .jmp => before.jump a.address
  | .jmz => if a.value = 0 then before.jump b.address else before
  | .cmp => if a.value = b.value then before.skip else before
  | .frk => before.fork maxTasks a.address
  | .clr => { before with core := before.core.clear a.address.toInt64 }
  | .cpy =>
    { before with core := before.core.write b.address.toInt64 (before.core.read a.address.toInt64) }

end CoreWar
