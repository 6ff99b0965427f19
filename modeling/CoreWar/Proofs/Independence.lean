import CoreWar.Proofs.Edit

/-!
Contract: what a turn depends on, and which turns can change places.

Owns:
- the cells that a turn reads, and the one that it changes;
- that a turn follows from the cells it reads, and leaves alone all cells but the one it changes;
- two turns, neither of which changes a cell that the other reads or changes.

Does not own: the order of turns in a round, see `CoreWar.Proofs.Chronicle`.

Which cells a turn reads depends on the core, through the pointers of indirect operands. But the
pointers are among the cells read, so in every core that agrees on these the same cells are read.
-/

namespace CoreWar

/-! ## Agreement -/

/-- The cells through which an operand is resolved: its target, and before it its pointer if it is
indirect. -/
def Operand.trail (operand : Operand) (core : Core) (pc : UInt64) : List UInt64 :=
  match operand.mode with
  | .immediate => []
  | .direct => [core.displace pc operand.field]
  | .indirect =>
    let pointer := core.displace pc operand.field
    [pointer, core.displace pointer (core.read pointer.toInt64).a.field]

namespace Core

/-- The two cores hold the same at these addresses. -/
def AgreeOn (left right : Core) (addresses : List UInt64) : Prop :=
  ∀ address ∈ addresses, left.read address.toInt64 = right.read address.toInt64

/-- The cells that the thread at an address is about to read: its own, and those of its operands. -/
def readsAt (core : Core) (address : UInt64) : List UInt64 :=
  let instruction := core.read address.toInt64
  address :: (instruction.a.trail core address ++ instruction.b.trail core address)

end Core

/-- An operand is resolved alike, and through the same cells, where these hold the same. -/
theorem Operand.resolve_of_agreeOn
    (operand : Operand)
    {core other : Core}
    (size : other.cells.size = core.cells.size)
    {pc : UInt64}
    (agree : other.AgreeOn core (operand.trail core pc)) :
    operand.resolve other pc = operand.resolve core pc ∧
    operand.trail other pc = operand.trail core pc := by
  have displaced := Core.displace_of_size size
  obtain ⟨mode, field⟩ := operand
  cases mode with
  | immediate => exact ⟨rfl, rfl⟩
  | direct =>
      have target := agree _ List.mem_cons_self
      simp only [resolve, trail, Core.target, displaced, target, and_self]
  | indirect =>
      have pointer := agree _ List.mem_cons_self
      have target := agree _ (List.mem_cons_of_mem _ List.mem_cons_self)
      simp only [resolve, trail, Core.target, displaced, pointer, target, and_self]

/-- The address of a target is that of the executing cell or the last one of the trail. -/
theorem Operand.address_mem_trail (operand : Operand) (core : Core) (pc : UInt64) :
    (operand.resolve core pc).address ∈ pc :: operand.trail core pc := by
  obtain ⟨mode, field⟩ := operand
  cases mode with
  | immediate => exact List.mem_cons_self
  | direct => exact List.mem_cons_of_mem _ List.mem_cons_self
  | indirect => exact List.mem_cons_of_mem _ (List.mem_cons_of_mem _ List.mem_cons_self)

theorem Operation.edit?_of_agreeOn
    (operation : Operation)
    (a b : Target)
    {core other : Core}
    (agree : other.AgreeOn core [a.address, b.address]) :
    operation.edit? a b other = operation.edit? a b core := by
  have atA : other.read a.address.toInt64 = core.read a.address.toInt64 := agree _ (by simp)
  have atB : other.read b.address.toInt64 = core.read b.address.toInt64 := agree _ (by simp)
  cases operation <;> simp only [edit?, Core.storing, atA, atB]

namespace Core

variable {core other : Core} (size : other.cells.size = core.cells.size) {address : UInt64}
include size

/-- Where the cells that are read hold the same, the same operation finds the same targets. -/
theorem targets_of_agreeOn (agree : other.AgreeOn core (core.readsAt address)) :
    other.read address.toInt64 = core.read address.toInt64 ∧
    (other.read address.toInt64).a.resolve other address =
      (core.read address.toInt64).a.resolve core address ∧
    (other.read address.toInt64).b.resolve other address =
      (core.read address.toInt64).b.resolve core address ∧
    other.readsAt address = core.readsAt address := by
  have fetched := agree address List.mem_cons_self
  obtain ⟨aTarget, aTrail⟩ := (core.read address.toInt64).a.resolve_of_agreeOn size
    fun cell member => agree cell (List.mem_cons_of_mem _ (List.mem_append_left _ member))
  obtain ⟨bTarget, bTrail⟩ := (core.read address.toInt64).b.resolve_of_agreeOn size
    fun cell member => agree cell (List.mem_cons_of_mem _ (List.mem_append_right _ member))
  simp only [readsAt, fetched, aTarget, bTarget, aTrail, bTrail, and_self]

theorem editAt?_of_agreeOn (agree : other.AgreeOn core (core.readsAt address)) :
    other.editAt? address = core.editAt? address := by
  obtain ⟨fetched, a, b, _⟩ := targets_of_agreeOn size agree
  have targets : other.AgreeOn core [((core.read address.toInt64).a.resolve core address).address,
      ((core.read address.toInt64).b.resolve core address).address] := by
    intro cell member
    apply agree
    rcases List.mem_cons.mp member with rfl | member
    · have onTrail := (core.read address.toInt64).a.address_mem_trail core address
      exact List.cons_subset_cons _ (List.subset_append_left _ _) onTrail
    · rw [List.mem_singleton.mp member]
      have onTrail := (core.read address.toInt64).b.address_mem_trail core address
      exact List.cons_subset_cons _ (List.subset_append_right _ _) onTrail
  simp only [editAt?, a, b]
  rw [fetched]
  exact Operation.edit?_of_agreeOn _ _ _ targets

end Core

/-! ## Cells inside the core -/

theorem Operand.inside_of_mem_trail
    {operand : Operand}
    {core : Core}
    (addressable : core.Addressable)
    {pc cell : UInt64}
    (member : cell ∈ operand.trail core pc) :
    core.Inside cell := by
  have displaced := Core.inside_displace addressable
  obtain ⟨mode, field⟩ := operand
  cases mode with
  | immediate => contradiction
  | direct =>
      rw [List.mem_singleton.mp member]
      exact displaced _ _
  | indirect =>
      rcases List.mem_cons.mp member with rfl | isTarget
      · exact displaced _ _
      · rw [List.mem_singleton.mp isTarget]
        exact displaced _ _

theorem Operation.address_of_edit?
    {operation : Operation}
    {a b : Target}
    {core : Core}
    {edit : Edit}
    (made : operation.edit? a b core = some edit) :
    edit.address = a.address ∨ edit.address = b.address := by
  rcases operation.edit?_cases a b with nothing | ⟨value, stores⟩ | clears | copies
  · rw [nothing] at made
    contradiction
  · rw [stores] at made
    rw [← Option.some.inj made]
    exact Or.inr rfl
  · rw [clears] at made
    rw [← Option.some.inj made]
    exact Or.inl rfl
  · rw [copies] at made
    rw [← Option.some.inj made]
    exact Or.inr rfl

namespace Core

variable {core : Core} (addressable : core.Addressable)
include addressable

theorem inside_of_mem_readsAt
    {address cell : UInt64}
    (inside : core.Inside address)
    (member : cell ∈ core.readsAt address) :
    core.Inside cell := by
  rcases List.mem_cons.mp member with rfl | onTrail
  · exact inside
  · rcases List.mem_append.mp onTrail with onA | onB
    · exact Operand.inside_of_mem_trail addressable onA
    · exact Operand.inside_of_mem_trail addressable onB

theorem inside_of_editAt?
    {address : UInt64}
    (inside : core.Inside address)
    {edit : Edit}
    (made : core.editAt? address = some edit) :
    core.Inside edit.address := by
  rcases Operation.address_of_edit? made with isA | isB
  · rw [isA]
    exact Operand.inside_resolve _ addressable inside
  · rw [isB]
    exact Operand.inside_resolve _ addressable inside

/-- Addresses inside the core name different cells. -/
theorem emod_ne_of_inside
    {left right : UInt64}
    (leftInside : core.Inside left)
    (rightInside : core.Inside right)
    (different : left ≠ right) :
    left.toInt64.toInt % core.cells.size ≠ right.toInt64.toInt % core.cells.size := by
  rw [toInt_of_inside addressable leftInside, toInt_of_inside addressable rightInside]
  unfold Inside at leftInside rightInside
  rw [Int.emod_eq_of_lt (by omega) (by omega), Int.emod_eq_of_lt (by omega) (by omega)]
  intro same
  exact different (UInt64.toNat_inj.mp (by omega))

theorem read_write_same (address : Int64) (instruction : Instruction) :
    (core.write address instruction).read address = instruction := by
  rw [write, read_eq_cellAt ((addressable_modify _ _ _).mpr addressable),
    cellAt_modify addressable, if_pos rfl]

theorem read_write_of_ne
    {left right : UInt64}
    (leftInside : core.Inside left)
    (rightInside : core.Inside right)
    (different : left ≠ right)
    (instruction : Instruction) :
    (core.write left.toInt64 instruction).read right.toInt64 = core.read right.toInt64 := by
  rw [write, read_eq_cellAt ((addressable_modify _ _ _).mpr addressable),
    read_eq_cellAt addressable, cellAt_modify addressable,
    if_neg (emod_ne_of_inside addressable leftInside rightInside different)]

/-- Two different cells are replaced in either order. -/
theorem write_comm
    {left right : UInt64}
    (leftInside : core.Inside left)
    (rightInside : core.Inside right)
    (different : left ≠ right)
    (leftContent rightContent : Instruction) :
    (core.write left.toInt64 leftContent).write right.toInt64 rightContent =
      (core.write right.toInt64 rightContent).write left.toInt64 leftContent := by
  have apart := emod_ne_of_inside addressable leftInside rightInside different
  have changed (address : Int64) (content : Instruction) :
      (core.modify address fun _ => content).Addressable :=
    (addressable_modify _ _ _).mpr addressable
  apply ext_cellAt
  · simp [write]
  · intro address
    simp only [write, cellAt_modify (changed _ _), cellAt_modify addressable, size_modify]
    by_cases atLeft : left.toInt64.toInt % core.cells.size = address % core.cells.size
    · rw [if_pos atLeft, if_pos atLeft, if_neg (atLeft ▸ apart.symm)]
    · rw [if_neg atLeft, if_neg atLeft]

/-- Edits of different cells are made in either order. -/
theorem edited_comm
    {left right : Option Edit}
    (leftInside : ∀ edit, left = some edit → core.Inside edit.address)
    (rightInside : ∀ edit, right = some edit → core.Inside edit.address)
    (different : ∀ edit other, left = some edit → right = some other →
      edit.address ≠ other.address) :
    (core.edited left).edited right = (core.edited right).edited left := by
  cases left with
  | none => rfl
  | some edit =>
      cases right with
      | none => rfl
      | some other =>
          exact write_comm addressable (leftInside edit rfl) (rightInside other rfl)
            (different edit other rfl rfl) _ _

end Core

/-! ## Turns -/

namespace Warrior

/-- The cells that the next turn of the warrior reads. -/
def readsIn (warrior : Warrior) (core : Core) : List UInt64 :=
  match warrior.tasks.peek? with
  | none => []
  | some address => core.readsAt address

/-- The cell that the next turn of the warrior changes, if there is one. -/
def writesIn (warrior : Warrior) (core : Core) : List UInt64 :=
  (warrior.editIn? core).toList.map Edit.address

theorem readsIn_of_idle
    {warrior : Warrior}
    (idle : warrior.tasks.dequeue? = none)
    (core : Core) :
    warrior.readsIn core = [] := by
  rw [readsIn, TaskQueue.peek?_eq, idle]
  rfl

theorem readsIn_of_dequeue?
    {warrior : Warrior}
    {address : UInt64}
    {waiting : TaskQueue}
    (dequeued : warrior.tasks.dequeue? = some (address, waiting))
    (core : Core) :
    warrior.readsIn core = core.readsAt address := by
  rw [readsIn, TaskQueue.peek?_eq, dequeued]
  rfl

theorem mem_writesIn_iff {warrior : Warrior} {core : Core} {cell : UInt64} :
    cell ∈ warrior.writesIn core ↔
      ∃ edit, warrior.editIn? core = some edit ∧ edit.address = cell := by
  simp [writesIn]

end Warrior

namespace Battle

/-- The turn of a warrior in another core, compared with that in this one. -/
structure Repeated (maxTasks : UInt64) (warrior : Warrior) (core other : Core) : Prop where
  reads : warrior.readsIn other = warrior.readsIn core
  writes : warrior.writesIn other = warrior.writesIn core
  /-- The warrior after the turn, and so its queue. -/
  outcome : (turn maxTasks other warrior).warrior = (turn maxTasks core warrior).warrior
  events : (turn maxTasks other warrior).events = (turn maxTasks core warrior).events
  /-- What the cell that is changed holds afterwards. -/
  content : (turn maxTasks other warrior).core.AgreeOn (turn maxTasks core warrior).core
    (warrior.writesIn core)

/-- Neither of two turns, both seen from the core before them, changes a cell that the other one
reads or changes. -/
structure Separate (core : Core) (first second : Warrior) : Prop where
  firstReads : ∀ cell ∈ second.writesIn core, cell ∉ first.readsIn core
  secondReads : ∀ cell ∈ first.writesIn core, cell ∉ second.readsIn core
  writes : ∀ cell ∈ first.writesIn core, cell ∉ second.writesIn core

/-- The turns of two warriors in one order, compared with those in the other order. -/
structure Exchanged (maxTasks : UInt64) (core : Core) (first second : Warrior) : Prop where
  cells : (turn maxTasks (turn maxTasks core first).core second).core =
    (turn maxTasks (turn maxTasks core second).core first).core
  firstOutcome : (turn maxTasks core first).warrior =
    (turn maxTasks (turn maxTasks core second).core first).warrior
  secondOutcome : (turn maxTasks (turn maxTasks core first).core second).warrior =
    (turn maxTasks core second).warrior
  firstEvents : (turn maxTasks core first).events =
    (turn maxTasks (turn maxTasks core second).core first).events
  secondEvents : (turn maxTasks (turn maxTasks core first).core second).events =
    (turn maxTasks core second).events

theorem editIn?_of_agreeOn
    {core other : Core}
    (size : other.cells.size = core.cells.size)
    {warrior : Warrior}
    (agree : other.AgreeOn core (warrior.readsIn core)) :
    warrior.editIn? other = warrior.editIn? core := by
  cases dequeued : warrior.tasks.dequeue? with
  | none => rw [Warrior.editIn?_of_idle dequeued, Warrior.editIn?_of_idle dequeued]
  | some pair =>
      rw [Warrior.readsIn_of_dequeue? dequeued] at agree
      rw [Warrior.editIn?_of_dequeue? dequeued, Warrior.editIn?_of_dequeue? dequeued,
        Core.editAt?_of_agreeOn size agree]

section Locality

variable (maxTasks : UInt64) {core : Core} (addressable : core.Addressable)
include addressable

/-- A turn follows from the cells that it reads. -/
theorem repeated_of_agreeOn
    {other : Core}
    (size : other.cells.size = core.cells.size)
    {warrior : Warrior}
    (agree : other.AgreeOn core (warrior.readsIn core)) :
    Repeated maxTasks warrior core other := by
  have edit := editIn?_of_agreeOn size agree
  have writes : warrior.writesIn other = warrior.writesIn core := by
    rw [Warrior.writesIn, edit, Warrior.writesIn]
  have content : (turn maxTasks other warrior).core.AgreeOn (turn maxTasks core warrior).core
      (warrior.writesIn core) := by
    intro cell member
    obtain ⟨made, isEdit, rfl⟩ := Warrior.mem_writesIn_iff.mp member
    rw [core_turn, core_turn, edit, isEdit]
    exact (Core.read_write_same (addressable.of_size size) _ _).trans
      (Core.read_write_same addressable _ _).symm
  cases dequeued : warrior.tasks.dequeue? with
  | none =>
      refine ⟨?_, writes, ?_, ?_, content⟩
      · rw [Warrior.readsIn_of_idle dequeued, Warrior.readsIn_of_idle dequeued]
      · rw [turn_of_idle _ _ dequeued, turn_of_idle _ _ dequeued]
      · rw [turn_of_idle _ _ dequeued, turn_of_idle _ _ dequeued]
  | some pair =>
      rw [Warrior.readsIn_of_dequeue? dequeued] at agree
      obtain ⟨fetched, a, b, reads⟩ := Core.targets_of_agreeOn size agree
      have executed := executeAt_of_targets maxTasks size (congrArg Instruction.operation fetched)
        a b pair.2
      refine ⟨?_, writes, ?_, ?_, content⟩
      · rw [Warrior.readsIn_of_dequeue? dequeued, Warrior.readsIn_of_dequeue? dequeued, reads]
      · rw [turn_of_dequeue? _ _ dequeued, turn_of_dequeue? _ _ dequeued, executed]
        rfl
      · rw [turn_of_dequeue? _ _ dequeued, turn_of_dequeue? _ _ dequeued, executed, fetched]
        rfl

variable {warrior : Warrior} (below : warrior.tasks.Below core.cells.size)
include below

theorem inside_of_mem_readsIn {cell : UInt64} (member : cell ∈ warrior.readsIn core) :
    core.Inside cell := by
  cases dequeued : warrior.tasks.dequeue? with
  | none =>
      rw [Warrior.readsIn_of_idle dequeued] at member
      contradiction
  | some pair =>
      rw [Warrior.readsIn_of_dequeue? dequeued] at member
      exact Core.inside_of_mem_readsAt addressable
        (TaskQueue.below_of_dequeue? below dequeued).1 member

theorem inside_of_editIn? {edit : Edit} (made : warrior.editIn? core = some edit) :
    core.Inside edit.address := by
  cases dequeued : warrior.tasks.dequeue? with
  | none =>
      rw [Warrior.editIn?_of_idle dequeued] at made
      contradiction
  | some pair =>
      rw [Warrior.editIn?_of_dequeue? dequeued] at made
      exact Core.inside_of_editAt? addressable (TaskQueue.below_of_dequeue? below dequeued).1 made

/-- A turn leaves alone every cell but the one that it changes. -/
theorem read_turn_of_notMem
    {cell : UInt64}
    (inside : core.Inside cell)
    (untouched : cell ∉ warrior.writesIn core) :
    (turn maxTasks core warrior).core.read cell.toInt64 = core.read cell.toInt64 := by
  rw [core_turn]
  cases made : warrior.editIn? core with
  | none => rfl
  | some edit =>
      have different : edit.address ≠ cell := by
        intro same
        exact untouched (Warrior.mem_writesIn_iff.mpr ⟨edit, made, same⟩)
      exact Core.read_write_of_ne addressable (inside_of_editIn? addressable below made) inside
        different _

end Locality

/-! ## Two turns -/

section Exchange

variable (maxTasks : UInt64) {core : Core} (addressable : core.Addressable)
variable {first second : Warrior}
variable (firstBelow : first.tasks.Below core.cells.size)
variable (secondBelow : second.tasks.Below core.cells.size)
include addressable firstBelow secondBelow

/-- A turn before another one leaves the cells alone that the other one reads, unless it changes one
of them. -/
theorem agreeOn_turn (unread : ∀ cell ∈ first.writesIn core, cell ∉ second.readsIn core) :
    (turn maxTasks core first).core.AgreeOn core (second.readsIn core) := by
  intro cell member
  apply read_turn_of_notMem maxTasks addressable firstBelow
  · exact inside_of_mem_readsIn addressable secondBelow member
  · exact fun written => unread cell written member

theorem exchanged_of_separate (separate : Separate core first second) :
    Exchanged maxTasks core first second := by
  have size (warrior : Warrior) :
      (turn maxTasks core warrior).core.cells.size = core.cells.size := by
    rw [core_turn, Core.size_edited]
  have secondAgrees := agreeOn_turn maxTasks addressable firstBelow secondBelow separate.secondReads
  have firstAgrees := agreeOn_turn maxTasks addressable secondBelow firstBelow separate.firstReads
  have secondRepeated := repeated_of_agreeOn maxTasks addressable (size first) secondAgrees
  have firstRepeated := repeated_of_agreeOn maxTasks addressable (size second) firstAgrees
  refine ⟨?_, firstRepeated.outcome.symm, secondRepeated.outcome, firstRepeated.events.symm,
    secondRepeated.events⟩
  -- In either order both turns make the edits that they were about to make at the start.
  rw [core_turn _ _ second, core_turn _ (turn maxTasks core second).core first,
    editIn?_of_agreeOn (size first) secondAgrees, editIn?_of_agreeOn (size second) firstAgrees,
    core_turn, core_turn]
  apply Core.edited_comm addressable
  · exact fun edit made => inside_of_editIn? addressable firstBelow made
  · exact fun edit made => inside_of_editIn? addressable secondBelow made
  · intro edit other made otherMade same
    exact separate.writes edit.address (Warrior.mem_writesIn_iff.mpr ⟨edit, made, rfl⟩)
      (Warrior.mem_writesIn_iff.mpr ⟨other, otherMade, same.symm⟩)

end Exchange

/-- Turns are local, and those apart from each other can change places. A turn changes no cell but
the one that it writes; the queue it leaves, the events and what it writes are the same in every
core of the same size that holds the same in the cells it reads. Two turns, neither of which writes
a cell that the other reads or writes, lead to the same core, the same queues and the same events in
either order. -/
theorem turns_local_and_exchangeable
    (maxTasks : UInt64)
    {core : Core}
    (addressable : core.Addressable) :
    (∀ warrior : Warrior,
      warrior.tasks.Below core.cells.size →
      (∀ cell, core.Inside cell → cell ∉ warrior.writesIn core →
        (turn maxTasks core warrior).core.read cell.toInt64 = core.read cell.toInt64) ∧
      ∀ other : Core,
        other.cells.size = core.cells.size →
        other.AgreeOn core (warrior.readsIn core) →
        Repeated maxTasks warrior core other) ∧
    ∀ first second : Warrior,
      first.tasks.Below core.cells.size →
      second.tasks.Below core.cells.size →
      Separate core first second →
      Exchanged maxTasks core first second := by
  refine ⟨?_, ?_⟩
  · intro warrior below
    refine ⟨?_, ?_⟩
    · exact fun cell inside untouched =>
        read_turn_of_notMem maxTasks addressable below inside untouched
    · exact fun other size agree => repeated_of_agreeOn maxTasks addressable size agree
  · intro first second firstBelow secondBelow separate
    exact exchanged_of_separate maxTasks addressable firstBelow secondBelow separate

/-- A warrior that adds through a pointer and one that copies a cell, in a core of eight cells. -/
theorem turns_local_and_exchangeable_adder :
    let add : Instruction := ⟨.add, ⟨.immediate, 3⟩, ⟨.indirect, 1⟩⟩
    let copy : Instruction := ⟨.cpy, ⟨.direct, 1⟩, ⟨.direct, -6⟩⟩
    let pointer : Instruction := ⟨.dat, ⟨.direct, 1⟩, {}⟩
    let core := ((Core.ofSize 8).load 0 [add, pointer]).load 4 [copy, add]
    let other := core.write 7 copy
    let adder : Warrior := .single "A" 0 []
    let copier : Warrior := .single "C" 4 []
    (adder.readsIn core = [0, 1, 2] ∧ adder.writesIn core = [2]) ∧
    (copier.readsIn core = [4, 5, 6] ∧ copier.writesIn core = [6]) ∧
    core ≠ other ∧
    Repeated 2 adder core other ∧
    Exchanged 2 core adder copier := by
  intro add copy pointer core other adder copier
  have size : core.cells.size = 8 := by decide +kernel
  have addressable : core.Addressable := ⟨by rw [size]; decide, by rw [size]; decide⟩
  obtain ⟨turnsLocal, exchangeable⟩ := turns_local_and_exchangeable 2 addressable
  have adderReads : adder.readsIn core = [0, 1, 2] := by decide +kernel
  have adderWrites : adder.writesIn core = [2] := by decide +kernel
  have copierReads : copier.readsIn core = [4, 5, 6] := by decide +kernel
  have copierWrites : copier.writesIn core = [6] := by decide +kernel
  have below (name : String) {start : UInt64} (inside : start.toNat < 8) :
      (Warrior.single name start []).tasks.Below core.cells.size := by
    intro address member
    rw [List.mem_singleton.mp member, size]
    exact inside
  have agree : other.AgreeOn core (adder.readsIn core) := by
    rw [adderReads]
    simp only [Core.AgreeOn, List.forall_mem_cons]
    exact ⟨by decide +kernel, by decide +kernel, by decide +kernel, List.forall_mem_nil _⟩
  have separate : Separate core adder copier := by
    refine ⟨?_, ?_, ?_⟩
    · rw [adderReads, copierWrites, List.forall_mem_singleton]
      decide
    · rw [copierReads, adderWrites, List.forall_mem_singleton]
      decide
    · rw [adderWrites, copierWrites, List.forall_mem_singleton]
      decide
  refine ⟨⟨adderReads, adderWrites⟩, ⟨copierReads, copierWrites⟩, by decide +kernel, ?_, ?_⟩
  · exact (turnsLocal adder (below "A" (by decide))).2 other (Core.size_modify _ _ _) agree
  · exact exchangeable adder copier (below "A" (by decide)) (below "C" (by decide)) separate

end Battle

end CoreWar
