import CoreWar.Assembly.Warrior
import CoreWar.Battle.Event
import CoreWar.Battle.Generator
import CoreWar.Machine.Execution

/-!
Contract: a match between warriors in one core.

Owns:
- the state of a match and its beginning;
- loading warriors, at a drawn or at a given place;
- turns, rounds and whole matches, with the events they give rise to.

Does not own: the effect of an instruction, see `CoreWar.Machine.Execution`.

In a round every warrior left has one turn, in the order of loading. A match ends when one warrior
is left, when none is, or when the limit of rounds is reached.
-/

namespace CoreWar

/-- Where a match stands. -/
inductive Status where
  | running
  | won (warrior : String)
  | tie
deriving DecidableEq, Repr, Inhabited

/-- A match. -/
structure Battle where
  limits : Limits
  core : Core
  /-- The warriors left, in the order of their turns. -/
  roster : List Warrior := []
  status : Status := .running
  /-- Rounds played. -/
  cycles : UInt64 := 0
  /-- Warriors placed, dead or alive. -/
  placed : Nat := 0
  /-- The start of the warrior placed last. -/
  lastStart : UInt64 := 0
  generator : Generator
deriving DecidableEq, Repr

/-- Why a warrior could not be loaded. -/
inductive LoadError where
  | assembly (error : Assembly.Error)
  | tooLong (name : String) (length : Nat) (maxLength : UInt64)
deriving DecidableEq, Repr

def LoadError.message : LoadError → String
  | assembly error => error.message
  | tooLong name length maxLength =>
    "Warrior '" ++ name ++ "' exceeds (" ++ String.ofList (Text.decimal length) ++
      ") the instruction limit: " ++ String.ofList (Text.decimal maxLength.toNat)

/-- The event that announces a rejected warrior. -/
def LoadError.event (error : LoadError) : Event :=
  .error ("Warrior loading error: " ++ error.message)

namespace Battle

/-- An empty match under limits that can be played. -/
def create (limits : Limits) (generator : Generator) : Except LimitsError Battle := do
  limits.check
  return {
    limits
    core := .ofSize limits.coreSize
    generator }

def isRunning (battle : Battle) : Bool :=
  battle.status = .running

/-! ## Loading -/

/-- What loading leaves behind: the match, the warrior as placed or why it was rejected, and the
events. -/
structure Loading where
  battle : Battle
  outcome : Except LoadError Warrior
  events : List Event

/-- Leaves the match as it is and announces the error. -/
def reject (battle : Battle) (error : LoadError) : Loading :=
  ⟨battle, .error error, [error.event]⟩

/-- The warrior with the number of earlier placements behind its name. -/
def numbered (battle : Battle) (warrior : Warrior) : Warrior :=
  { warrior with name := warrior.name ++ String.ofList (Text.decimal battle.placed) }

/-- Turns the warrior's next thread, at zero if there is none, into one that is `offset` further on
and waits behind the others. -/
def launch (core : Core) (warrior : Warrior) (offset : UInt64) : Warrior :=
  let (origin, waiting) := warrior.tasks.dequeue?.getD (0, {})
  let start := core.fold (origin.toInt64 + offset.toInt64)
  { warrior with tasks := waiting.enqueue start, start }

/-- Puts a warrior into the core, its first instruction at `offset`. -/
def place (battle : Battle) (warrior : Warrior) (offset : UInt64) : Loading :=
  let warrior := battle.numbered warrior
  if battle.limits.maxLength.toNat ≤ warrior.program.length then
    battle.reject (.tooLong warrior.name warrior.program.length battle.limits.maxLength)
  else
    let warrior := launch battle.core warrior offset
    let battle := { battle with
      core := battle.core.load offset warrior.program
      roster := battle.roster ++ [warrior]
      placed := battle.placed + 1
      lastStart := warrior.start }
    ⟨battle, .ok warrior, []⟩

/-- Draws a place at a distance from the start of the warrior placed last. -/
def drawOffset (battle : Battle) : UInt64 × Battle :=
  let (distance, generator) :=
    battle.generator.below (battle.limits.coreSize - battle.limits.maxLength)
  let offset := battle.core.fold (battle.lastStart.toInt64 + distance.toInt64)
  (offset, { battle with generator })

/-- Assembles a source and places the warrior at a drawn place. The draw comes first, so a rejected
source uses one up too. -/
def load (battle : Battle) (source : String) : Loading :=
  let (offset, battle) := battle.drawOffset
  match Assembly.assemble battle.limits source with
  | .ok warrior => battle.place warrior offset
  | .error error => battle.reject (.assembly error)

/-! ## Turns -/

/-- What a turn leaves behind. -/
structure Turn where
  core : Core
  warrior : Warrior
  events : List Event

/-- The events of a turn: the step, and the fault if there was one. -/
def turnEvents
    (name : String)
    (address : UInt64)
    (instruction : Instruction)
    (fault : Option Fault) :
    List Event :=
  .step name address instruction ::
    (fault.map fun fault => .fault name address fault.message).toList

/-- Executes the warrior's next thread, which then waits behind the others unless it has ended. -/
def turn (maxTasks : UInt64) (core : Core) (warrior : Warrior) : Turn :=
  match warrior.tasks.dequeue? with
  | none => ⟨core, warrior, []⟩
  | some (address, waiting) =>
    let instruction := core.read address.toInt64
    let a := instruction.a.resolve core address
    let b := instruction.b.resolve core address
    let next := core.fold (address.toInt64 + 1)
    let ⟨core, tasks, next, fault⟩ :=
      instruction.operation.execute a b maxTasks ⟨core, waiting, some next, none⟩
    let tasks := match next with
      | some next => tasks.enqueue next
      | none => tasks
    ⟨core, { warrior with tasks }, turnEvents warrior.name address instruction fault⟩

/-! ## Rounds -/

/-- What the turns of a round leave behind. -/
structure Turns where
  core : Core
  survivors : List Warrior
  events : List Event

/-- One turn for each warrior; whoever has no thread left after it is gone. -/
def turns (maxTasks : UInt64) (core : Core) : List Warrior → Turns
  | [] => ⟨core, [], []⟩
  | warrior :: rest =>
    let ⟨core, warrior, events⟩ := turn maxTasks core warrior
    let ⟨core, survivors, later⟩ := turns maxTasks core rest
    if warrior.isAlive then
      ⟨core, warrior :: survivors, events ++ later⟩
    else
      ⟨core, survivors, events ++ .died warrior.name :: later⟩

/-- What a round leaves behind, and whether the match goes on. -/
structure Played where
  battle : Battle
  events : List Event
  more : Bool

/-- The round ends the match with a tie. -/
def tied (battle : Battle) (events : List Event) : Played :=
  ⟨{ battle with status := .tie }, events ++ [.tie battle.cycles], false⟩

/-- Plays a round; a match that has ended stays as it is. -/
def play (battle : Battle) : Played :=
  match battle.status with
  | .running =>
    let ⟨limits, core, roster, status, cycles, placed, lastStart, generator⟩ := battle
    let ⟨core, survivors, events⟩ := turns limits.maxTasks core roster
    let battle := ⟨limits, core, survivors, status, cycles + 1, placed, lastStart, generator⟩
    match survivors with
    | [winner] => ⟨{ battle with status := .won winner.name }, events ++ [.won winner.name], false⟩
    | [] => battle.tied events
    | _ =>
      if limits.maxCycles ≤ cycles + 1 then
        battle.tied events
      else
        ⟨battle, events, true⟩
  | _ => ⟨battle, [], false⟩

/-- The match after a round, and the events of the round. -/
def round (battle : Battle) : Battle × List Event :=
  (battle.play.battle, battle.play.events)

/-! ## Matches -/

/-- Rounds in a row: how many were called for, whether the match goes on, and all their events. -/
structure Progress where
  battle : Battle
  calls : Nat := 0
  more : Bool := true
  log : Array Event := #[]

/-- Calls for up to `count` further rounds, until one ends the match or finds it ended. -/
def Progress.extend (progress : Progress) : Nat → Progress
  | 0 => progress
  | count + 1 =>
    let ⟨battle, calls, _, log⟩ := progress
    let ⟨battle, events, more⟩ := battle.play
    let progress := ⟨battle, calls + 1, more, log ++ events⟩
    if more then progress.extend count else progress

/-- Calls for up to `count` rounds. -/
def advance (battle : Battle) (count : Nat) : Progress :=
  Progress.extend { battle } count

/-- Plays until the match has ended, for which the rounds left under the limit suffice. -/
def run (battle : Battle) : Progress :=
  let left := battle.limits.maxCycles.toNat - battle.cycles.toNat
  battle.advance (left + 1)

end Battle

end CoreWar
