import CoreWar.Proofs.Confinement

/-!
Contract: the machine with every address computation checked.

Owns:
- folding by a modulus that must be positive, and cells whose index must be in the core;
- operations, turns, rounds, placements and histories in which a sum of addresses outside the signed
  word, a count of rounds outside the unsigned word, an empty range to draw from or an origin that
  cannot be folded gives no result at all.

Does not own: that the checks never fail, see `CoreWar.Proofs.Safety`.

Field arithmetic is not checked: it wraps by design. Whatever is computed without a check is taken
from the unchecked machine as it is.
-/

namespace CoreWar

namespace Core

/-- Folding by a modulus that must be positive. -/
def fold? (core : Core) (address : Int64) : Option UInt64 :=
  if 0 < core.size.toInt64.toInt then some (core.fold address) else none

/-- The cell at a folded address, which must be in the core. -/
def read? (core : Core) (address : Int64) : Option Instruction := do
  let index ← core.fold? address
  core.cells[index.toNat]?

/-- Changes the cell at a folded address, which must be in the core. -/
def modify? (core : Core) (address : Int64) (change : Instruction → Instruction) : Option Core := do
  let index ← core.fold? address
  if index.toNat < core.cells.size then
    some ⟨core.cells.modify index.toNat change⟩
  else
    none

/-- The folded sum of two addresses, which must fit the word before it is folded. -/
def foldSum? (core : Core) (left right : Int64) : Option UInt64 := do
  let sum ← Word.add? left right
  core.fold? sum

def displace? (core : Core) (base : UInt64) (distance : Int64) : Option UInt64 := do
  let folded ← core.fold? distance
  core.foldSum? base.toInt64 folded.toInt64

def target? (core : Core) (address : UInt64) : Option Target := do
  let cell ← core.read? address.toInt64
  return ⟨cell.a.field, address⟩

/-- Copies a program into the cells from `start + index` on. -/
def loadFrom? (core : Core) (start : UInt64) (index : Nat) : List Instruction → Option Core
  | [] => some core
  | instruction :: rest => do
    let address ← Word.add? start.toInt64 (Int64.ofNat index)
    let changed ← core.modify? address fun _ => instruction
    changed.loadFrom? start (index + 1) rest

end Core

def Operand.resolve? (operand : Operand) (core : Core) (pc : UInt64) : Option Target :=
  match operand.mode with
  | .immediate => some ⟨operand.field, pc⟩
  | .direct => do
    let address ← core.displace? pc operand.field
    core.target? address
  | .indirect => do
    let pointer ← core.displace? pc operand.field
    let cell ← core.read? pointer.toInt64
    let address ← core.displace? pointer cell.a.field
    core.target? address

namespace Execution

/-- Changes a cell of the core. -/
def change?
    (execution : Execution)
    (address : UInt64)
    (change : Instruction → Instruction) :
    Option Execution := do
  let core ← execution.core.modify? address.toInt64 change
  return { execution with core }

def store? (execution : Execution) (address : UInt64) (value : Int64) : Option Execution :=
  execution.change? address fun instruction => instruction.setField value

def skip? (execution : Execution) : Option Execution :=
  match execution.next with
  | none => some execution
  | some address => do
    let next ← execution.core.foldSum? address.toInt64 1
    return { execution with next := some next }

end Execution

def Operation.execute?
    (operation : Operation)
    (a b : Target)
    (maxTasks : UInt64)
    (before : Execution) :
    Option Execution :=
  match operation with
  | .dat => some before.stop
  | .mov => before.store? b.address a.value
  | .add => before.store? b.address (b.value + a.value)
  | .sub => before.store? b.address (b.value - a.value)
  | .mul => before.store? b.address (b.value * a.value)
  | .div =>
    if a.value = 0 then some (before.abort .divisionByZero)
    else before.store? b.address (b.value / a.value)
  | .mod =>
    if a.value = 0 then some (before.abort .moduloByZero)
    else before.store? b.address (b.value % a.value)
  | .jmp => some (before.jump a.address)
  | .jmz => some (if a.value = 0 then before.jump b.address else before)
  | .cmp => if a.value = b.value then before.skip? else some before
  | .frk => some (before.fork maxTasks a.address)
  | .clr => before.change? a.address fun _ => Instruction.cleared
  | .cpy => do
    let cell ← before.core.read? a.address.toInt64
    before.change? b.address fun _ => cell

namespace Battle

def turn? (maxTasks : UInt64) (core : Core) (warrior : Warrior) : Option Turn :=
  match warrior.tasks.dequeue? with
  | none => some ⟨core, warrior, []⟩
  | some (address, waiting) => do
    let instruction ← core.read? address.toInt64
    let a ← instruction.a.resolve? core address
    let b ← instruction.b.resolve? core address
    let next ← core.foldSum? address.toInt64 1
    let execution ← instruction.operation.execute? a b maxTasks ⟨core, waiting, some next, none⟩
    return concludeTurn warrior address instruction execution

def turns? (maxTasks : UInt64) (core : Core) : List Warrior → Option Turns
  | [] => some ⟨core, [], []⟩
  | warrior :: rest => do
    let first ← turn? maxTasks core warrior
    let later ← turns? maxTasks first.core rest
    return ⟨later.core, first.survivor ++ later.survivors,
      first.events ++ (first.obituary ++ later.events)⟩

/-- A round; the count of rounds must fit the unsigned word. -/
def round? (battle : Battle) : Option (Battle × List Event) :=
  match battle.status with
  | .running => do
    let cycles ← Word.unsigned? (battle.cycles.toNat + 1)
    let played ← turns? battle.limits.maxTasks battle.core battle.roster
    let status := verdict battle.limits cycles played.survivors
    return ({ battle with core := played.core, roster := played.survivors, status, cycles },
      played.events ++ status.announcement cycles)
  | _ => some (battle, [])

/-- Up to `count` further rounds, until one ends the match or finds it ended. -/
def extend? (battle : Battle) : Nat → Option (Battle × List Event)
  | 0 => some (battle, [])
  | count + 1 => do
    let (next, events) ← battle.round?
    if next.isRunning then
      let (last, later) ← next.extend? count
      return (last, events ++ later)
    else
      return (next, events)

def launch? (core : Core) (warrior : Warrior) (offset : UInt64) : Option Warrior := do
  let (origin, waiting) := warrior.tasks.dequeue?.getD (0, {})
  let start ← core.foldSum? origin.toInt64 offset.toInt64
  return { warrior with tasks := waiting.enqueue start, start }

def place? (battle : Battle) (warrior : Warrior) (offset : UInt64) : Option Loading :=
  if battle.limits.maxLength.toNat ≤ warrior.program.length then
    some (battle.reject (.tooLong (battle.numbered warrior).name warrior.program.length
      battle.limits.maxLength))
  else do
    let core ← battle.core.loadFrom? offset 0 warrior.program
    let launched ← launch? core (battle.numbered warrior) offset
    let roster := battle.roster ++ [launched]
    let placed := battle.placed + 1
    return ⟨{ battle with core, roster, placed, lastStart := launched.start }, .ok launched, []⟩

/-- Draws a place; there must be one to draw from. -/
def drawOffset? (battle : Battle) : Option (UInt64 × Battle) :=
  if battle.limits.maxLength < battle.limits.coreSize then do
    let (distance, generator) :=
      battle.generator.below (battle.limits.coreSize - battle.limits.maxLength)
    let offset ← battle.core.foldSum? battle.lastStart.toInt64 distance.toInt64
    return (offset, { battle with generator })
  else
    none

def load? (battle : Battle) (source : String) : Option Loading := do
  let (offset, drawn) ← battle.drawOffset?
  match Assembly.assemble drawn.limits source with
  | .ok warrior => drawn.place? warrior offset
  | .error .unfoldableOrigin => none
  | .error error => return drawn.reject (.assembly error)

def obey? (battle : Battle) : Command → Option (Battle × List Event)
  | .load source => do
    let loading ← battle.load? source
    return (loading.battle, loading.events)
  | .place warrior offset => do
    let loading ← battle.place? warrior offset
    return (loading.battle, loading.events)
  | .round => battle.round?
  | .run => battle.extend? (battle.limits.maxCycles.toNat - battle.cycles.toNat + 1)

def follow? (battle : Battle) : List Command → Option (Battle × List Event)
  | [] => some (battle, [])
  | command :: rest => do
    let (next, events) ← battle.obey? command
    let (last, later) ← next.follow? rest
    return (last, events ++ later)

end Battle

end CoreWar
