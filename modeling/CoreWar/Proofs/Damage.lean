import CoreWar.Proofs.Course
import CoreWar.Proofs.Edit
import Mathlib.Data.Finset.Card

/-!
Contract: how much of a core is damaged.

Owns:
- cores that differ in one cell at most, or in one A-field at most;
- what a turn can damage, by the operation that it fetches, and what a fault leaves of its warrior;
- the cells in which two cores differ, of which there are no more than steps between the two.

Does not own: the content that a turn writes, see `CoreWar.Proofs.Edit`.

The bound on a run needs neither a size nor addresses inside the core: wherever an edit goes, it
goes to one cell, and a turn without a step makes no edit.
-/

namespace CoreWar

namespace Core

/-! ## One cell -/

/-- The core after a change that reaches the cell at this address at most. -/
structure SameExcept (before after : Core) (address : UInt64) : Prop where
  size : after.cells.size = before.cells.size
  others : ∀ index ≠ address.toNat, after.cells[index]? = before.cells[index]?

/-- The core after a change that reaches the A-field of the cell at this address at most. -/
structure SameExceptField (before after : Core) (address : UInt64) : Prop extends
    SameExcept before after address where
  field : ∃ value, after.cells[address.toNat]? =
    before.cells[address.toNat]?.map fun cell => cell.setField value

section Inside

variable {core : Core} (addressable : core.Addressable) {address : UInt64}
  (inside : core.Inside address)
include addressable inside

/-- An address inside the core is the number of its cell. -/
theorem toNat_fold_of_inside : (core.fold address.toInt64).toNat = address.toNat := by
  rw [toNat_fold_of_toInt addressable (toInt_of_inside addressable inside)]
  exact Nat.mod_eq_of_lt inside

theorem sameExcept_write (content : Instruction) :
    core.SameExcept (core.write address.toInt64 content) address := by
  refine ⟨size_modify core _ _, ?_⟩
  intro index elsewhere
  have missed : (core.fold address.toInt64).toNat ≠ index := by
    rw [toNat_fold_of_inside addressable inside]
    exact elsewhere.symm
  simp only [write, modify, Array.getElem?_modify, if_neg missed]

theorem sameExceptField_storing (value : Int64) :
    core.SameExceptField (core.edited (core.storing address value)) address := by
  refine ⟨sameExcept_write addressable inside _, value, ?_⟩
  have here := toNat_fold_of_inside addressable inside
  simp only [edited, storing, write, modify, Array.getElem?_modify, here, ↓reduceIte, read]
  unfold Inside at inside
  rw [Array.getElem?_eq_getElem inside, Option.map_some, Option.map_some,
    Array.getD_eq_getD_getElem?, Array.getElem?_eq_getElem inside]
  rfl

end Inside

/-! ## Turns -/

/-- What the turn of the thread at an address can damage. -/
structure Contained (core after : Core) (address : UInt64) : Prop where
  /-- Threads that only end, jump, skip or fork leave the core alone, and so does a fault. -/
  unharmed : (core.read address.toInt64).operation ∈ [.dat, .jmp, .jmz, .cmp, .frk] ∨
    core.FaultsAt address → after = core
  stored : (core.read address.toInt64).operation ∈ [.mov, .add, .sub, .mul, .div, .mod] →
    ¬core.FaultsAt address →
    core.SameExceptField after ((core.read address.toInt64).b.resolve core address).address
  cleared : (core.read address.toInt64).operation = .clr →
    core.SameExcept after ((core.read address.toInt64).a.resolve core address).address
  copied : (core.read address.toInt64).operation = .cpy →
    core.SameExcept after ((core.read address.toInt64).b.resolve core address).address

end Core

theorem Operation.edit?_of_idle
    {operation : Operation}
    (idle : operation ∈ [.dat, .jmp, .jmz, .cmp, .frk])
    (a b : Target)
    (core : Core) :
    operation.edit? a b core = none := by
  simp only [List.mem_cons, List.not_mem_nil, or_false] at idle
  rcases idle with rfl | rfl | rfl | rfl | rfl
  all_goals rfl

theorem Operation.edit?_of_fault
    {operation : Operation}
    (divides : operation = .div ∨ operation = .mod)
    {a : Target}
    (zero : a.value = 0)
    (b : Target)
    (core : Core) :
    operation.edit? a b core = none := by
  rcases divides with rfl | rfl
  · exact if_pos zero
  · exact if_pos zero

theorem Operation.exists_edit?_eq_storing
    {operation : Operation}
    (stores : operation ∈ [.mov, .add, .sub, .mul, .div, .mod])
    {a : Target}
    (divisible : operation = .div ∨ operation = .mod → a.value ≠ 0)
    (b : Target)
    (core : Core) :
    ∃ value, operation.edit? a b core = some (core.storing b.address value) := by
  simp only [List.mem_cons, List.not_mem_nil, or_false] at stores
  rcases stores with rfl | rfl | rfl | rfl | rfl | rfl
  · exact ⟨_, rfl⟩
  · exact ⟨_, rfl⟩
  · exact ⟨_, rfl⟩
  · exact ⟨_, rfl⟩
  · exact ⟨_, if_neg (divisible (Or.inl rfl))⟩
  · exact ⟨_, if_neg (divisible (Or.inr rfl))⟩

/-- The edit of a thread damages what its operation can damage. -/
theorem Core.contained_edited
    {core : Core}
    (addressable : core.Addressable)
    {address : UInt64}
    (inside : core.Inside address) :
    core.Contained (core.edited (core.editAt? address)) address where
  unharmed harmless := by
    have noEdit : core.editAt? address = none := by
      rcases harmless with idle | ⟨divides, zero⟩
      · exact Operation.edit?_of_idle idle _ _ core
      · exact Operation.edit?_of_fault divides zero _ core
    rw [noEdit]
    rfl
  stored stores noFault := by
    obtain ⟨value, made⟩ := Operation.exists_edit?_eq_storing stores
      (fun divides zero => noFault ⟨divides, zero⟩)
      ((core.read address.toInt64).b.resolve core address) core
    rw [show core.editAt? address = _ from made]
    exact sameExceptField_storing addressable (Operand.inside_resolve _ addressable inside) value
  cleared clears := by
    have made : core.editAt? address =
        some ⟨((core.read address.toInt64).a.resolve core address).address, .cleared⟩ := by
      simp only [editAt?, clears, Operation.edit?]
    rw [made]
    exact sameExcept_write addressable (Operand.inside_resolve _ addressable inside) _
  copied copies := by
    have made : core.editAt? address =
        some ⟨((core.read address.toInt64).b.resolve core address).address,
          core.read ((core.read address.toInt64).a.resolve core address).address.toInt64⟩ := by
      simp only [editAt?, copies, Operation.edit?]
    rw [made]
    exact sameExcept_write addressable (Operand.inside_resolve _ addressable inside) _

namespace Battle

/-- The damage of a turn, and its faults. -/
structure Damages (maxTasks : UInt64) (core : Core) (warrior : Warrior) : Prop where
  /-- A turn without a thread does nothing. -/
  idle : warrior.tasks.waiting = [] → turn maxTasks core warrior = ⟨core, warrior, []⟩
  contained : ∀ address rest, warrior.tasks.waiting = address :: rest →
    core.Contained (turn maxTasks core warrior).core address
  /-- A fault is a division by zero, or a remainder by zero, and nothing else. -/
  faults : ∀ address rest, warrior.tasks.waiting = address :: rest →
    ((∃ name address message, .fault name address message ∈ (turn maxTasks core warrior).events) ↔
      core.FaultsAt address)
  /-- A fault takes the thread out of the queue and leaves the others as they were. -/
  left : ∀ address rest, warrior.tasks.waiting = address :: rest → core.FaultsAt address →
    (turn maxTasks core warrior).warrior.tasks.waiting = rest

theorem damages_turn
    {core : Core}
    (addressable : core.Addressable)
    {warrior : Warrior}
    (below : warrior.tasks.Below core.cells.size)
    (maxTasks : UInt64) :
    Damages maxTasks core warrior where
  idle empty := by
    apply turn_of_idle
    simp only [TaskQueue.dequeue?, empty]
  contained address rest waiting := by
    have dequeued : warrior.tasks.dequeue? = some (address, ⟨rest⟩) := by
      simp only [TaskQueue.dequeue?, waiting]
    have inside : core.Inside address := (TaskQueue.below_of_dequeue? below dequeued).1
    rw [core_turn, Warrior.editIn?_of_dequeue? dequeued]
    exact Core.contained_edited addressable inside
  faults address rest waiting := by
    obtain ⟨_, _, _, events⟩ := turn_of_waiting maxTasks core waiting
    rw [events, faultEvents]
    by_cases faults : core.FaultsAt address
    · simp [faults]
    · simp [faults]
  left address rest waiting faults := by
    obtain ⟨added, course, after, _⟩ := turn_of_waiting maxTasks core waiting
    rw [after]
    cases course with
    | ended => exact List.append_nil rest
    | continued _ goesOn => exact absurd (Or.inr faults) goesOn
    | forked _ _ forks => exact absurd (Or.inr faults) (Core.not_endsAt_of_forksAt forks)

end Battle

/-! ## Differences -/

namespace Core

/-- The numbers of the cells in which two cores differ. -/
def differing (before after : Core) : Finset Nat :=
  (Finset.range before.cells.size).filter fun index => after.cells[index]? ≠ before.cells[index]?

theorem mem_differing {before after : Core} {index : Nat} :
    index ∈ before.differing after ↔
      index < before.cells.size ∧ after.cells[index]? ≠ before.cells[index]? := by
  simp [differing]

theorem differing_self (core : Core) : core.differing core = ∅ := by
  simp [differing]

/-- A cell in which the first core differs from the last one differs on the way. -/
theorem differing_subset_union
    {first second third : Core}
    (size : second.cells.size = first.cells.size) :
    first.differing third ⊆ first.differing second ∪ second.differing third := by
  intro index member
  obtain ⟨below, different⟩ := mem_differing.mp member
  by_cases same : second.cells[index]? = first.cells[index]?
  · apply Finset.mem_union_right
    rw [mem_differing, size, same]
    exact ⟨below, different⟩
  · exact Finset.mem_union_left _ (mem_differing.mpr ⟨below, same⟩)

/-- An edit changes one cell at most, wherever it goes. -/
theorem card_differing_edited (core : Core) (edit : Option Edit) :
    (core.differing (core.edited edit)).card ≤ edit.toList.length := by
  cases edit with
  | none =>
      show (core.differing core).card ≤ 0
      rw [differing_self, Finset.card_empty]
  | some edit =>
      have only : core.differing (core.edited (some edit)) ⊆
          {(core.fold edit.address.toInt64).toNat} := by
        intro index member
        obtain ⟨_, different⟩ := mem_differing.mp member
        rw [Finset.mem_singleton]
        by_contra elsewhere
        apply different
        simp only [edited, write, modify, Array.getElem?_modify, if_neg (Ne.symm elsewhere)]
      exact (Finset.card_le_card only).trans_eq (Finset.card_singleton _)

end Core

namespace Battle

/-- A stretch of a match: no more cells have changed than steps were announced. -/
structure Bounded (before : Core) (log : List Event) (after : Core) : Prop where
  size : after.cells.size = before.cells.size
  changed : (before.differing after).card ≤ log.countP Event.isStep

theorem bounded_refl (core : Core) (log : List Event) : Bounded core log core where
  size := rfl
  changed := by
    rw [Core.differing_self, Finset.card_empty]
    exact Nat.zero_le _

theorem Bounded.append
    {before middle after : Core}
    {log later : List Event}
    (bounded : Bounded before log middle)
    (since : Bounded middle later after) :
    Bounded before (log ++ later) after where
  size := since.size.trans bounded.size
  changed := by
    rw [List.countP_append]
    calc (before.differing after).card
        ≤ (before.differing middle ∪ middle.differing after).card :=
          Finset.card_le_card (Core.differing_subset_union bounded.size)
      _ ≤ (before.differing middle).card + (middle.differing after).card :=
          Finset.card_union_le _ _
      _ ≤ log.countP Event.isStep + later.countP Event.isStep :=
          Nat.add_le_add bounded.changed since.changed

/-- A turn that makes an edit announces a step. -/
theorem bounded_turn (maxTasks : UInt64) (core : Core) (warrior : Warrior) :
    Bounded core (turn maxTasks core warrior).events (turn maxTasks core warrior).core := by
  rw [core_turn]
  refine ⟨core.size_edited _, (core.card_differing_edited _).trans ?_⟩
  cases waiting : warrior.tasks.waiting with
  | nil =>
      have idle : warrior.tasks.dequeue? = none := by
        simp only [TaskQueue.dequeue?, waiting]
      rw [Warrior.editIn?_of_idle idle]
      exact Nat.zero_le _
  | cons address rest =>
      obtain ⟨_, _, _, events⟩ := turn_of_waiting maxTasks core waiting
      rw [events, List.countP_cons_of_pos rfl]
      calc (warrior.editIn? core).toList.length
          ≤ 1 := by
            rw [Option.length_toList]
            split <;> decide
        _ ≤ _ := Nat.le_add_left 1 _

theorem bounded_turns (maxTasks : UInt64) (core : Core) (roster : List Warrior) :
    Bounded core (turns maxTasks core roster).events (turns maxTasks core roster).core := by
  induction roster generalizing core with
  | nil => exact bounded_refl core _
  | cons warrior rest inductionHypothesis =>
      rw [turns_cons]
      exact (bounded_turn maxTasks core warrior).append
        ((bounded_refl _ _).append (inductionHypothesis _))

theorem bounded_round (battle : Battle) :
    Bounded battle.core battle.round.2 battle.round.1.core := by
  by_cases running : battle.status = .running
  · rw [round_of_running battle running]
    exact (bounded_turns _ _ _).append (bounded_refl _ _)
  · rw [round_of_ended battle running]
    exact bounded_refl _ _

theorem bounded_rounds (battle : Battle) (count : Nat) :
    Bounded battle.core (battle.rounds count).2 (battle.rounds count).1.core := by
  induction count generalizing battle with
  | zero => exact bounded_refl _ _
  | succ count inductionHypothesis =>
      rw [rounds_succ]
      exact (bounded_round battle).append (inductionHypothesis battle.round.1)

end Battle

/-- The command plays, and loads nothing. -/
def Command.isPlay : Command → Bool
  | .round => true
  | .run => true
  | .load _ => false
  | .place _ _ => false

namespace Battle

theorem bounded_obey (battle : Battle) {command : Command} (plays : command.isPlay) :
    Bounded battle.core (battle.obey command).2 (battle.obey command).1.core := by
  cases command with
  | load source => contradiction
  | place warrior offset => contradiction
  | round => exact bounded_round battle
  | run =>
      rw [obey, run_eq_rounds]
      exact bounded_rounds battle _

theorem bounded_follow
    (battle : Battle)
    (commands : List Command)
    (play : ∀ command ∈ commands, command.isPlay) :
    Bounded battle.core (battle.follow commands).2 (battle.follow commands).1.core := by
  induction commands generalizing battle with
  | nil => exact bounded_refl _ _
  | cons command rest inductionHypothesis =>
      rw [List.forall_mem_cons] at play
      exact (bounded_obey battle play.1).append (inductionHypothesis _ play.2)

/-- A turn damages one cell at most, and which one follows from the operation and its targets: no
cell, the A-field at the second target, the first target or the second. It faults on a zero to
divide by only, and a fault costs the thread and nothing else. So a run without loads changes no
more cells than it takes steps. -/
theorem damage_contained :
    (∀ (maxTasks : UInt64) (core : Core) (warrior : Warrior),
      core.Addressable → warrior.tasks.Below core.cells.size → Damages maxTasks core warrior) ∧
    ∀ (battle : Battle) (commands : List Command), (∀ command ∈ commands, command.isPlay) →
      (battle.core.differing (battle.follow commands).1.core).card ≤
        (battle.follow commands).2.countP Event.isStep :=
  ⟨fun maxTasks _ _ addressable below => damages_turn addressable below maxTasks,
    fun battle commands play => (bounded_follow battle commands play).changed⟩

/-- The least word modulo minus one is zero and no fault; the remainder by zero that follows is one,
and the thread behind it stays. Six steps change one cell. -/
theorem damage_contained_least_word :
    let core : Core := ⟨#[⟨.mod, ⟨.immediate, -1⟩, ⟨.direct, 2⟩⟩,
      ⟨.mod, ⟨.immediate, 0⟩, ⟨.direct, 1⟩⟩, ⟨.dat, ⟨.direct, Int64.minValue⟩, {}⟩]⟩
    let warrior : Warrior := { name := "W", program := [], tasks := ⟨[0, 1]⟩, start := 0 }
    let played := turn 2 core warrior
    let battle : Battle := {
      limits := ⟨3, 9, 1, 2⟩
      core
      roster := [warrior, { warrior with name := "V", tasks := ⟨[2, 2, 2]⟩ }]
      generator := ⟨1, 2, 3, 4⟩ }
    core.Addressable ∧
    warrior.tasks.Below core.cells.size ∧
    ¬core.FaultsAt 0 ∧
    core.SameExceptField played.core 2 ∧
    played.core.cells[2]? = some Instruction.cleared ∧
    played.core.FaultsAt 1 ∧
    played.warrior.tasks.waiting = [1, 1] ∧
    (turn 2 played.core played.warrior).core = played.core ∧
    (turn 2 played.core played.warrior).warrior.tasks.waiting = [1] ∧
    (battle.follow [.run]).2.countP Event.isStep = 6 ∧
    battle.core.differing (battle.follow [.run]).1.core = {2} ∧
    (battle.core.differing (battle.follow [.run]).1.core).card ≤ 6 := by
  intro core warrior played battle
  have addressable : core.Addressable := ⟨by decide, by decide⟩
  have below : warrior.tasks.Below core.cells.size := by
    show ∀ address ∈ ([0, 1] : List UInt64), address.toNat < 3
    simp
  have size : played.core.cells.size = 3 := by decide +kernel
  have waiting : played.warrior.tasks.waiting = [1, 1] := by decide +kernel
  have playedAddressable : played.core.Addressable := ⟨by omega, by omega⟩
  have playedBelow : played.warrior.tasks.Below played.core.cells.size := by
    rw [TaskQueue.Below, waiting, size]
    simp
  have noFault : ¬core.FaultsAt 0 := by decide +kernel
  have faults : played.core.FaultsAt 1 := by decide +kernel
  have steps : (battle.follow [.run]).2.countP Event.isStep = 6 := by decide +kernel
  obtain ⟨turns, runs⟩ := damage_contained
  have first := turns 2 core warrior addressable below
  have second := turns 2 played.core played.warrior playedAddressable playedBelow
  refine ⟨addressable, below, noFault, ?_, by decide +kernel, faults, waiting, ?_, ?_, steps,
    by decide +kernel, ?_⟩
  · exact (first.contained 0 [1] rfl).stored (by decide +kernel) noFault
  · exact (second.contained 1 [1] waiting).unharmed (Or.inr faults)
  · exact second.left 1 [1] waiting faults
  · rw [← steps]
    exact runs battle [.run] (by decide)

end Battle

end CoreWar
