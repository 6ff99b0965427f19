import CoreWar.Proofs.Confinement

/-!
Contract: what a turn does to the core, as a value.

Owns:
- edits: one cell, and what it holds afterwards;
- the edit of each operation, which is all that the operation does to the core;
- that whatever else an operation does, it does in every core of the same size.

Does not own: which cells an edit is computed from, see `CoreWar.Proofs.Independence`.

An edit is computed from the core before the turn. What is true of the cells of the core and of the
new content is so true of the core after the turn, whichever of the thirteen operations it was.
-/

namespace CoreWar

/-- A cell, and what it is to hold. -/
structure Edit where
  address : UInt64
  content : Instruction
deriving DecidableEq, Repr

namespace Core

/-- The core after an edit, if there is one. -/
def edited (core : Core) : Option Edit → Core
  | none => core
  | some edit => core.write edit.address.toInt64 edit.content

/-- The edit that puts a number into the A-field of a cell. -/
def storing (core : Core) (address : UInt64) (value : Int64) : Edit :=
  ⟨address, (core.read address.toInt64).setField value⟩

/-- To change a cell is to replace it by the changed one. -/
theorem modify_eq_write (core : Core) (address : Int64) (change : Instruction → Instruction) :
    core.modify address change = core.write address (change (core.read address)) := by
  simp only [write, modify, mk.injEq]
  apply Array.ext
  · simp
  · intro index leftBelow rightBelow
    rw [Array.getElem_modify, Array.getElem_modify]
    split
    · rename_i here
      rw [Array.size_modify] at leftBelow
      have current : core.read address = core.cells[index] := by
        rw [read, here, Array.getD_eq_getD_getElem?, Array.getElem?_eq_getElem leftBelow]
        rfl
      rw [current]
    · rfl

@[simp]
theorem size_edited (core : Core) (edit : Option Edit) :
    (core.edited edit).cells.size = core.cells.size := by
  cases edit with
  | none => rfl
  | some edit => exact size_modify core _ _

/-- The cells after a replacement are those before, and the new one. -/
theorem mem_cells_write
    {core : Core}
    {address : Int64}
    {instruction cell : Instruction}
    (member : cell ∈ (core.write address instruction).cells) :
    cell ∈ core.cells ∨ cell = instruction := by
  obtain ⟨index, found⟩ := Array.getElem?_of_mem member
  simp only [write, modify, Array.getElem?_modify] at found
  split at found
  · obtain ⟨_, _, replaced⟩ := Option.map_eq_some_iff.mp found
    exact Or.inr replaced.symm
  · exact Or.inl (Array.mem_of_getElem? found)

theorem mem_cells_edited
    {core : Core}
    {edit : Option Edit}
    {cell : Instruction}
    (member : cell ∈ (core.edited edit).cells) :
    cell ∈ core.cells ∨ ∃ made ∈ edit, cell = made.content := by
  cases edit with
  | none => exact Or.inl member
  | some edit =>
      rcases mem_cells_write member with old | new
      · exact Or.inl old
      · exact Or.inr ⟨edit, rfl, new⟩

/-- Addresses are folded by the size alone. -/
theorem fold_of_size
    {core other : Core}
    (size : other.cells.size = core.cells.size)
    (address : Int64) :
    other.fold address = core.fold address := by
  unfold fold Core.size
  rw [size]

theorem displace_of_size
    {core other : Core}
    (size : other.cells.size = core.cells.size)
    (base : UInt64)
    (distance : Int64) :
    other.displace base distance = core.displace base distance := by
  rw [displace, displace, fold_of_size size, fold_of_size size]

end Core

/-! ## Operations -/

/-- The edit that an operation makes on its two targets. -/
def Operation.edit? (operation : Operation) (a b : Target) (core : Core) : Option Edit :=
  match operation with
  | .mov => some (core.storing b.address a.value)
  | .add => some (core.storing b.address (b.value + a.value))
  | .sub => some (core.storing b.address (b.value - a.value))
  | .mul => some (core.storing b.address (b.value * a.value))
  | .div => if a.value = 0 then none else some (core.storing b.address (b.value / a.value))
  | .mod => if a.value = 0 then none else some (core.storing b.address (b.value % a.value))
  | .clr => some ⟨a.address, .cleared⟩
  | .cpy => some ⟨b.address, core.read a.address.toInt64⟩
  | .dat => none
  | .jmp => none
  | .jmz => none
  | .cmp => none
  | .frk => none

/-- What an operation can do to a core: nothing, store a number at its second target, clear the
first one, or copy the first one to the second. The targets decide which, whatever the core holds.
-/
theorem Operation.edit?_cases (operation : Operation) (a b : Target) :
    (∀ core, operation.edit? a b core = none) ∨
    (∃ value, ∀ core, operation.edit? a b core = some (core.storing b.address value)) ∨
    (∀ core, operation.edit? a b core = some ⟨a.address, .cleared⟩) ∨
    ∀ core : Core, operation.edit? a b core = some ⟨b.address, core.read a.address.toInt64⟩ := by
  cases operation with
  | dat => exact Or.inl fun _ => rfl
  | mov => exact Or.inr (Or.inl ⟨_, fun _ => rfl⟩)
  | add => exact Or.inr (Or.inl ⟨_, fun _ => rfl⟩)
  | sub => exact Or.inr (Or.inl ⟨_, fun _ => rfl⟩)
  | mul => exact Or.inr (Or.inl ⟨_, fun _ => rfl⟩)
  | div =>
      by_cases zero : a.value = 0
      · exact Or.inl fun _ => if_pos zero
      · exact Or.inr (Or.inl ⟨_, fun _ => if_neg zero⟩)
  | mod =>
      by_cases zero : a.value = 0
      · exact Or.inl fun _ => if_pos zero
      · exact Or.inr (Or.inl ⟨_, fun _ => if_neg zero⟩)
  | jmp => exact Or.inl fun _ => rfl
  | jmz => exact Or.inl fun _ => rfl
  | cmp => exact Or.inl fun _ => rfl
  | frk => exact Or.inl fun _ => rfl
  | clr => exact Or.inr (Or.inr (Or.inl fun _ => rfl))
  | cpy => exact Or.inr (Or.inr (Or.inr fun _ => rfl))

theorem Execution.store_eq (execution : Execution) (address : UInt64) (value : Int64) :
    execution.store address value =
      { execution with core := execution.core.edited (execution.core.storing address value) } := by
  unfold store Core.setField
  rw [Core.modify_eq_write]
  rfl

/-- An operation makes its edit. All else that it does, it does in every core of the same size. -/
theorem Operation.execute_of_size
    (operation : Operation)
    (a b : Target)
    (maxTasks : UInt64)
    {core other : Core}
    (size : other.cells.size = core.cells.size)
    (waiting : TaskQueue)
    (next : UInt64) :
    operation.execute a b maxTasks ⟨other, waiting, some next, none⟩ =
      { operation.execute a b maxTasks ⟨core, waiting, some next, none⟩ with
        core := other.edited (operation.edit? a b other) } := by
  cases operation with
  | dat => rfl
  | mov => exact Execution.store_eq _ _ _
  | add => exact Execution.store_eq _ _ _
  | sub => exact Execution.store_eq _ _ _
  | mul => exact Execution.store_eq _ _ _
  | div =>
      by_cases zero : a.value = 0
      · simp only [execute, edit?, zero, ↓reduceIte]
        rfl
      · simp only [execute, edit?, zero, ↓reduceIte]
        exact Execution.store_eq _ _ _
  | mod =>
      by_cases zero : a.value = 0
      · simp only [execute, edit?, zero, ↓reduceIte]
        rfl
      · simp only [execute, edit?, zero, ↓reduceIte]
        exact Execution.store_eq _ _ _
  | jmp => rfl
  | jmz =>
      by_cases zero : a.value = 0
      · simp only [execute, zero, ↓reduceIte]
        rfl
      · simp only [execute, zero, ↓reduceIte]
        rfl
  | cmp =>
      by_cases equal : a.value = b.value
      · simp only [execute, equal, ↓reduceIte, Execution.skip, Core.fold_of_size size]
        rfl
      · simp only [execute, equal, ↓reduceIte]
        rfl
  | frk =>
      by_cases room : waiting.length + 2 ≤ maxTasks.toNat
      · simp only [execute, Execution.fork, room, ↓reduceIte]
        rfl
      · simp only [execute, Execution.fork, room, ↓reduceIte]
        rfl
  | clr => rfl
  | cpy => rfl

/-! ## Turns -/

/-- The edit that the thread at an address is about to make. -/
def Core.editAt? (core : Core) (address : UInt64) : Option Edit :=
  let instruction := core.read address.toInt64
  instruction.operation.edit? (instruction.a.resolve core address)
    (instruction.b.resolve core address) core

namespace Battle

/-- Where the same operation is fetched and its targets are the same, an execution differs by its
edit only. -/
theorem executeAt_of_targets
    (maxTasks : UInt64)
    {core other : Core}
    {address : UInt64}
    (size : other.cells.size = core.cells.size)
    (operation : (other.read address.toInt64).operation = (core.read address.toInt64).operation)
    (a : (other.read address.toInt64).a.resolve other address =
      (core.read address.toInt64).a.resolve core address)
    (b : (other.read address.toInt64).b.resolve other address =
      (core.read address.toInt64).b.resolve core address)
    (waiting : TaskQueue) :
    executeAt maxTasks other address waiting =
      { executeAt maxTasks core address waiting with
        core := other.edited (other.editAt? address) } := by
  unfold executeAt Core.editAt?
  simp only [operation, a, b, Core.fold_of_size size]
  exact Operation.execute_of_size _ _ _ maxTasks size waiting _

/-- An execution makes its edit. -/
theorem core_executeAt
    (maxTasks : UInt64)
    (core : Core)
    (address : UInt64)
    (waiting : TaskQueue) :
    (executeAt maxTasks core address waiting).core = core.edited (core.editAt? address) := by
  have size : core.cells.size = core.cells.size := rfl
  rw [executeAt_of_targets maxTasks size rfl rfl rfl]

end Battle

theorem TaskQueue.peek?_eq (tasks : TaskQueue) : tasks.peek? = tasks.dequeue?.map Prod.fst := by
  cases queue : tasks.waiting with
  | nil => simp [peek?, dequeue?, queue]
  | cons address rest => simp [peek?, dequeue?, queue]

/-- The edit that the next turn of a warrior is about to make. -/
def Warrior.editIn? (warrior : Warrior) (core : Core) : Option Edit :=
  warrior.tasks.peek?.bind core.editAt?

theorem Warrior.editIn?_of_idle
    {warrior : Warrior}
    (idle : warrior.tasks.dequeue? = none)
    (core : Core) :
    warrior.editIn? core = none := by
  rw [editIn?, TaskQueue.peek?_eq, idle]
  rfl

theorem Warrior.editIn?_of_dequeue?
    {warrior : Warrior}
    {address : UInt64}
    {waiting : TaskQueue}
    (dequeued : warrior.tasks.dequeue? = some (address, waiting))
    (core : Core) :
    warrior.editIn? core = core.editAt? address := by
  rw [editIn?, TaskQueue.peek?_eq, dequeued]
  rfl

/-- A turn makes its edit. -/
theorem Battle.core_turn (maxTasks : UInt64) (core : Core) (warrior : Warrior) :
    (turn maxTasks core warrior).core = core.edited (warrior.editIn? core) := by
  cases dequeued : warrior.tasks.dequeue? with
  | none =>
      rw [turn_of_idle maxTasks core dequeued, Warrior.editIn?_of_idle dequeued]
      rfl
  | some pair =>
      rw [turn_of_dequeue? maxTasks core dequeued, Warrior.editIn?_of_dequeue? dequeued]
      exact core_executeAt maxTasks core _ _

end CoreWar
