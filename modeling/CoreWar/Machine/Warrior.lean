import CoreWar.Machine.Instruction

/-!
Contract: warriors and their threads.

Owns:
- the queue of threads waiting for their turn, first come, first served;
- a warrior: its name, its program, its threads and its first address.

Does not own: where a warrior stands in the core, see `CoreWar.Battle.Basic`.
-/

namespace CoreWar

/-- The addresses of the waiting threads, next one first. -/
structure TaskQueue where
  waiting : List UInt64 := []
deriving DecidableEq, Repr, Inhabited

namespace TaskQueue

/-- Puts a thread at the end of the queue. -/
def enqueue (tasks : TaskQueue) (address : UInt64) : TaskQueue :=
  ⟨tasks.waiting ++ [address]⟩

/-- The next thread and the queue behind it. -/
def dequeue? (tasks : TaskQueue) : Option (UInt64 × TaskQueue) :=
  match tasks.waiting with
  | [] => none
  | address :: rest => some (address, ⟨rest⟩)

/-- The next thread. -/
def peek? (tasks : TaskQueue) : Option UInt64 :=
  tasks.waiting.head?

def length (tasks : TaskQueue) : Nat :=
  tasks.waiting.length

def isEmpty (tasks : TaskQueue) : Bool :=
  tasks.waiting.isEmpty

@[simp]
theorem length_enqueue (tasks : TaskQueue) (address : UInt64) :
    (tasks.enqueue address).length = tasks.length + 1 := by
  simp [enqueue, length]

end TaskQueue

/-- A program that takes part in a match. -/
structure Warrior where
  name : String
  program : List Instruction
  tasks : TaskQueue
  /-- The address of the first thread. -/
  start : UInt64
deriving DecidableEq, Repr, Inhabited

namespace Warrior

/-- A warrior with a single thread. -/
def single (name : String) (start : UInt64) (program : List Instruction) : Warrior :=
  { name, program, tasks := ⟨[start]⟩, start }

/-- A warrior lives while a thread of it waits. -/
def isAlive (warrior : Warrior) : Bool :=
  !warrior.tasks.isEmpty

end Warrior

end CoreWar
