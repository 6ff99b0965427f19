import CoreWar.Proofs.Edit
import Mathlib.Data.List.Forall2

/-!
Contract: the B-field of a cell matters modulo the size of the core, unless it is immediate.

Owns:
- congruent cells: alike but for a multiple of the size in the B-field;
- congruent cores, matches and events, cell by cell, warrior by warrior, event by event;
- that turns, rounds and runs lead from congruent matches to congruent ones.

Does not own: the arithmetic of addresses, see `CoreWar.Proofs.Addressing`.

An operation reads numbers in two places only, an immediate field and the A-field of a target, and
writes none but A-fields. So a B-field that is not immediate is never looked at except as a
distance, and the distance is folded first.
-/

namespace CoreWar

/-! ## Congruent states -/

/-- The operands lead to the same target: a distance counts modulo the size. -/
structure Operand.Congruent (size : Nat) (left right : Operand) : Prop where
  mode : left.mode = right.mode
  field : left.field = right.field ∨
    left.mode ≠ .immediate ∧ (size : Int) ∣ left.field.toInt - right.field.toInt

/-- The instructions are the same, but the second operand only up to congruence. -/
structure Instruction.Congruent (size : Nat) (left right : Instruction) : Prop where
  operation : left.operation = right.operation
  a : left.a = right.a
  b : left.b.Congruent size right.b

/-- Two cores of this size with congruent cells. -/
structure Core.Congruent (size : Nat) (left right : Core) : Prop where
  leftSize : left.cells.size = size
  rightSize : right.cells.size = size
  cells : ∀ address : Int, (left.cellAt address).Congruent size (right.cellAt address)

/-- The warriors have the same name and the same threads, which are below the size. -/
structure Warrior.Congruent (size : Nat) (left right : Warrior) : Prop where
  name : left.name = right.name
  tasks : left.tasks = right.tasks
  below : left.tasks.Below size

/-- The same happened, except that the executed cells are congruent only. -/
inductive Event.Congruent (size : Nat) : Event → Event → Prop
  | step
      (warrior : String)
      (address : UInt64)
      {left right : Instruction}
      (congruent : left.Congruent size right) :
      Congruent size (.step warrior address left) (.step warrior address right)
  | same (event : Event) : Congruent size event event

/-- Two matches that differ in their cells up to congruence; neither what their warriors were made
of nor what is to be loaded is compared. -/
structure Battle.Congruent (size : Nat) (left right : Battle) : Prop where
  core : left.core.Congruent size right.core
  roster : List.Forall₂ (Warrior.Congruent size) left.roster right.roster
  limits : left.limits = right.limits
  status : left.status = right.status
  cycles : left.cycles = right.cycles

/-- The same number of rounds was called for, from congruent matches. -/
structure Battle.Progress.Congruent (size : Nat) (left right : Progress) : Prop where
  battle : left.battle.Congruent size right.battle
  calls : left.calls = right.calls
  more : left.more = right.more
  log : List.Forall₂ (Event.Congruent size) left.log.toList right.log.toList

variable {size : Nat}

theorem Operand.congruent_refl (operand : Operand) : operand.Congruent size operand :=
  ⟨rfl, Or.inl rfl⟩

theorem Instruction.congruent_refl (instruction : Instruction) :
    instruction.Congruent size instruction :=
  ⟨rfl, rfl, instruction.b.congruent_refl⟩

theorem Instruction.congruent_setField
    {left right : Instruction}
    (congruent : left.Congruent size right)
    (field : Int64) :
    (left.setField field).Congruent size (right.setField field) := by
  refine ⟨congruent.operation, ?_, congruent.b⟩
  simp only [setField, congruent.a]

theorem Event.forall₂_same (events : List Event) :
    List.Forall₂ (Event.Congruent size) events events :=
  List.forall₂_same.mpr fun event _ => .same event

/-! ## Targets and edits -/

/-- Distances that differ by a multiple of the size lead to the same cell. -/
theorem Core.displace_of_dvd
    {core : Core}
    (addressable : core.Addressable)
    {left right : Int64}
    (congruent : (core.cells.size : Int) ∣ left.toInt - right.toInt)
    (base : UInt64) :
    core.displace base left = core.displace base right := by
  have remainder : left.toInt % core.cells.size = right.toInt % core.cells.size :=
    Int.emod_eq_emod_iff_emod_sub_eq_zero.mpr (Int.emod_eq_zero_of_dvd congruent)
  have leftFolded := toNat_fold addressable left
  have rightFolded := toNat_fold addressable right
  have folded : core.fold left = core.fold right := UInt64.toNat_inj.mp (by omega)
  rw [displace, displace, folded]

/-- Two edits of one cell, with congruent content. -/
structure Edit.Congruent (size : Nat) (left right : Edit) : Prop where
  address : left.address = right.address
  content : left.content.Congruent size right.content

section Cores

variable (positive : 0 < size) (small : size ≤ 0x4000000000000000) {left right : Core}
variable (congruent : left.Congruent size right)

include congruent in
theorem Core.Congruent.size_eq : right.cells.size = left.cells.size :=
  congruent.rightSize.trans congruent.leftSize.symm

include positive small congruent

theorem Core.Congruent.addressable : left.Addressable ∧ right.Addressable := by
  obtain ⟨leftSize, rightSize, _⟩ := congruent
  exact ⟨⟨leftSize ▸ positive, leftSize ▸ small⟩, ⟨rightSize ▸ positive, rightSize ▸ small⟩⟩

theorem Core.congruent_read (address : Int64) :
    (left.read address).Congruent size (right.read address) := by
  obtain ⟨leftAddressable, rightAddressable⟩ := congruent.addressable positive small
  rw [read_eq_cellAt leftAddressable, read_eq_cellAt rightAddressable]
  exact congruent.cells address.toInt

/-- Congruent operands have the same target in congruent cores: the number there is an A-field. -/
theorem Operand.resolve_of_congruent
    {operand other : Operand}
    (operands : operand.Congruent size other)
    (pc : UInt64) :
    other.resolve right pc = operand.resolve left pc := by
  have displaced := Core.displace_of_size congruent.size_eq
  have field (address : Int64) : (right.read address).a.field = (left.read address).a.field := by
    rw [(Core.congruent_read positive small congruent address).a]
  obtain ⟨leftAddressable, _⟩ := congruent.addressable positive small
  obtain ⟨mode, distance⟩ := operand
  obtain ⟨otherMode, otherDistance⟩ := other
  obtain ⟨sameMode, fields⟩ := operands
  obtain rfl : mode = otherMode := sameMode
  -- Equal fields do in every mode; a multiple of the size is lost on the way to the first cell.
  rcases fields with same | ⟨away, multiple⟩
  · obtain rfl : distance = otherDistance := same
    cases mode <;> simp only [resolve, Core.target, displaced, field]
  · rw [← congruent.leftSize] at multiple
    have moved := Core.displace_of_dvd leftAddressable multiple
    cases mode with
    | immediate => contradiction
    | direct => simp only [resolve, Core.target, displaced, field, moved]
    | indirect => simp only [resolve, Core.target, displaced, field, moved]

/-- An operation makes congruent edits on the same targets. -/
theorem Operation.congruent_edit? (operation : Operation) (a b : Target) :
    Option.Rel (Edit.Congruent size) (operation.edit? a b left) (operation.edit? a b right) := by
  have read := Core.congruent_read positive small congruent
  rcases operation.edit?_cases a b with nothing | ⟨value, stores⟩ | clears | copies
  · rw [nothing, nothing]
    exact .none
  · rw [stores, stores]
    exact .some ⟨rfl, Instruction.congruent_setField (read _) value⟩
  · rw [clears, clears]
    exact .some ⟨rfl, Instruction.congruent_refl _⟩
  · rw [copies, copies]
    exact .some ⟨rfl, read _⟩

theorem Core.congruent_write
    (address : Int64)
    {instruction other : Instruction}
    (contents : instruction.Congruent size other) :
    (left.write address instruction).Congruent size (right.write address other) := by
  obtain ⟨leftAddressable, rightAddressable⟩ := congruent.addressable positive small
  obtain ⟨leftSize, rightSize, cells⟩ := congruent
  refine ⟨(size_modify _ _ _).trans leftSize, (size_modify _ _ _).trans rightSize, ?_⟩
  intro place
  rw [write, write, cellAt_modify leftAddressable, cellAt_modify rightAddressable, leftSize,
    rightSize]
  split
  · exact contents
  · exact cells place

theorem Core.congruent_edited
    {edit other : Option Edit}
    (edits : Option.Rel (Edit.Congruent size) edit other) :
    (left.edited edit).Congruent size (right.edited other) := by
  cases edits with
  | none => exact congruent
  | some edits =>
      simp only [edited, edits.address]
      exact congruent_write positive small congruent _ edits.content

/-- Where congruent cells are executed, the same operation finds the same targets. -/
theorem Core.targets_of_congruent (address : UInt64) :
    (right.read address.toInt64).operation = (left.read address.toInt64).operation ∧
    (right.read address.toInt64).a.resolve right address =
      (left.read address.toInt64).a.resolve left address ∧
    (right.read address.toInt64).b.resolve right address =
      (left.read address.toInt64).b.resolve left address := by
  have fetched := congruent_read positive small congruent address.toInt64
  have resolved {operand other : Operand} (operands : operand.Congruent size other) :=
    Operand.resolve_of_congruent positive small congruent operands address
  refine ⟨fetched.operation.symm, ?_, resolved fetched.b⟩
  rw [← fetched.a]
  exact resolved (Operand.congruent_refl _)

theorem Core.congruent_editAt? (address : UInt64) :
    Option.Rel (Edit.Congruent size) (left.editAt? address) (right.editAt? address) := by
  obtain ⟨operation, a, b⟩ := targets_of_congruent positive small congruent address
  simp only [editAt?, operation, a, b]
  exact Operation.congruent_edit? positive small congruent _ _ _

/-! ## Turns and rounds -/

namespace Battle

/-- Congruent warriors do the same in congruent cores. -/
theorem congruent_turn
    (maxTasks : UInt64)
    {warrior other : Warrior}
    (warriors : warrior.Congruent size other) :
    (turn maxTasks left warrior).core.Congruent size (turn maxTasks right other).core ∧
    (turn maxTasks left warrior).warrior.Congruent size (turn maxTasks right other).warrior ∧
    List.Forall₂ (Event.Congruent size) (turn maxTasks left warrior).events
      (turn maxTasks right other).events := by
  obtain ⟨name, tasks, below⟩ := warriors
  cases dequeued : warrior.tasks.dequeue? with
  | none =>
      rw [turn_of_idle maxTasks left dequeued, turn_of_idle maxTasks right (tasks ▸ dequeued)]
      exact ⟨congruent, ⟨name, tasks, below⟩, .nil⟩
  | some pair =>
      obtain ⟨address, waiting⟩ := pair
      obtain ⟨operation, a, b⟩ := Core.targets_of_congruent positive small congruent address
      have executed : executeAt maxTasks right address waiting = _ :=
        executeAt_of_targets maxTasks congruent.size_eq operation a b waiting
      rw [turn_of_dequeue? maxTasks left dequeued,
        turn_of_dequeue? maxTasks right (tasks ▸ dequeued), executed]
      refine ⟨?_, ⟨name, rfl, ?_⟩, ?_⟩
      · show (executeAt maxTasks left address waiting).core.Congruent size _
        rw [core_executeAt]
        exact Core.congruent_edited positive small congruent
          (Core.congruent_editAt? positive small congruent address)
      · obtain ⟨leftAddressable, _⟩ := congruent.addressable positive small
        rw [← congruent.leftSize] at below ⊢
        obtain ⟨addressBelow, waitingBelow⟩ := TaskQueue.below_of_dequeue? below dequeued
        exact below_requeue (below_executeAt leftAddressable maxTasks addressBelow waitingBelow)
      · rw [concludeTurn, concludeTurn, ← name]
        exact .cons (.step _ _ (Core.congruent_read positive small congruent _))
          (Event.forall₂_same _)

end Battle

end Cores

namespace Battle

theorem congruent_afterTurn
    {played other : Turn}
    (warriors : played.warrior.Congruent size other.warrior) :
    List.Forall₂ (Warrior.Congruent size) played.survivor other.survivor ∧
      played.obituary = other.obituary := by
  have alive : played.warrior.isAlive = other.warrior.isAlive := by
    rw [Warrior.isAlive, Warrior.isAlive, warriors.tasks]
  unfold Turn.survivor Turn.obituary
  rw [alive, warriors.name]
  split
  · exact ⟨.cons warriors .nil, rfl⟩
  · exact ⟨.nil, rfl⟩

/-- The verdict looks at the names and the number of the warriors left. -/
theorem verdict_of_congruent
    {survivors others : List Warrior}
    (warriors : List.Forall₂ (Warrior.Congruent size) survivors others)
    (limits : Limits)
    (cycles : UInt64) :
    verdict limits cycles survivors = verdict limits cycles others := by
  cases warriors with
  | nil => rfl
  | cons first rest =>
      cases rest with
      | nil =>
          simp only [verdict, first.name]
      | cons second rest => rfl

section Rounds

variable (positive : 0 < size) (small : size ≤ 0x4000000000000000)
include positive small

theorem congruent_turns
    (maxTasks : UInt64)
    {left right : Core}
    (congruent : left.Congruent size right)
    {roster others : List Warrior}
    (warriors : List.Forall₂ (Warrior.Congruent size) roster others) :
    (turns maxTasks left roster).core.Congruent size (turns maxTasks right others).core ∧
    List.Forall₂ (Warrior.Congruent size) (turns maxTasks left roster).survivors
      (turns maxTasks right others).survivors ∧
    List.Forall₂ (Event.Congruent size) (turns maxTasks left roster).events
      (turns maxTasks right others).events := by
  -- Along both rosters at once: the first turns leave congruent cores for the others.
  induction warriors generalizing left right with
  | nil => exact ⟨congruent, .nil, .nil⟩
  | cons first rest inductionHypothesis =>
      obtain ⟨firstCore, firstWarrior, firstEvents⟩ :=
        congruent_turn positive small congruent maxTasks first
      obtain ⟨survivor, obituary⟩ := congruent_afterTurn firstWarrior
      obtain ⟨lastCore, survivors, laterEvents⟩ := inductionHypothesis firstCore
      rw [turns_cons, turns_cons, obituary]
      exact ⟨lastCore, List.rel_append survivor survivors,
        List.rel_append firstEvents (List.rel_append (Event.forall₂_same _) laterEvents)⟩

theorem congruent_round {left right : Battle} (congruent : left.Congruent size right) :
    left.round.1.Congruent size right.round.1 ∧
      List.Forall₂ (Event.Congruent size) left.round.2 right.round.2 := by
  have status := congruent.status
  by_cases running : left.status = .running
  · obtain ⟨core, roster, limits, _, cycles⟩ := congruent
    obtain ⟨played, survivors, events⟩ :=
      congruent_turns positive small left.limits.maxTasks core roster
    have verdicts := verdict_of_congruent survivors left.limits (left.cycles + 1)
    rw [round_of_running left running, round_of_running right (status ▸ running), ← limits,
      ← cycles]
    refine ⟨⟨played, survivors, rfl, verdicts, rfl⟩, ?_⟩
    simp only [verdicts]
    exact List.rel_append events (Event.forall₂_same _)
  · rw [round_of_ended left running, round_of_ended right (status ▸ running)]
    exact ⟨congruent, .nil⟩

theorem congruent_rounds
    {left right : Battle}
    (congruent : left.Congruent size right)
    (count : Nat) :
    (left.rounds count).1.Congruent size (right.rounds count).1 ∧
      List.Forall₂ (Event.Congruent size) (left.rounds count).2 (right.rounds count).2 := by
  induction count generalizing left right with
  | zero => exact ⟨congruent, .nil⟩
  | succ count inductionHypothesis =>
      obtain ⟨next, now⟩ := congruent_round positive small congruent
      obtain ⟨last, later⟩ := inductionHypothesis next
      rw [rounds_succ, rounds_succ]
      exact ⟨last, List.rel_append now later⟩

/-- Calls for further rounds end in the same place. -/
theorem congruent_extend
    {left right : Progress}
    (congruent : left.Congruent size right)
    (count : Nat) :
    (left.extend count).Congruent size (right.extend count) := by
  induction count generalizing left right with
  | zero => exact congruent
  | succ count inductionHypothesis =>
      obtain ⟨next, now⟩ := congruent_round positive small congruent.battle
      have goesOn : left.battle.round.1.isRunning = right.battle.round.1.isRunning := by
        rw [isRunning, isRunning, next.status]
      have log : List.Forall₂ (Event.Congruent size) (left.log ++ left.battle.round.2).toList
          (right.log ++ right.battle.round.2).toList := by
        rw [Array.toList_appendList, Array.toList_appendList]
        exact List.rel_append congruent.log now
      simp only [extend_succ, goesOn, congruent.calls]
      split
      · exact inductionHypothesis ⟨next, rfl, rfl, log⟩
      · exact ⟨next, rfl, rfl, log⟩

theorem congruent_advance
    {left right : Battle}
    (congruent : left.Congruent size right)
    (count : Nat) :
    (left.advance count).Congruent size (right.advance count) := by
  have start : Progress.Congruent size { battle := left } { battle := right } :=
    ⟨congruent, rfl, rfl, .nil⟩
  exact congruent_extend positive small start count

end Rounds

/-- B-fields that are not immediate matter modulo the size of the core only. From congruent matches
a round leads to congruent matches, with the same answer and the same events up to congruent cells;
so do any number of rounds, and so does playing to the end: both matches end in the same way, after
the same number of rounds. -/
theorem rounds_respect_congruence
    (positive : 0 < size)
    (small : size ≤ 0x4000000000000000)
    {left right : Battle}
    (congruent : left.Congruent size right) :
    (left.round.1.Congruent size right.round.1 ∧
      (left.advance 1).more = (right.advance 1).more ∧
      List.Forall₂ (Event.Congruent size) left.round.2 right.round.2) ∧
    (∀ count,
      (left.rounds count).1.Congruent size (right.rounds count).1 ∧
      List.Forall₂ (Event.Congruent size) (left.rounds count).2 (right.rounds count).2) ∧
    left.run.Congruent size right.run ∧
    left.run.battle.status = right.run.battle.status ∧
    left.run.battle.cycles = right.run.battle.cycles := by
  obtain ⟨next, events⟩ := congruent_round positive small congruent
  have ended : left.run.Congruent size right.run := by
    unfold run
    rw [congruent.limits, congruent.cycles]
    exact congruent_advance positive small congruent _
  refine ⟨⟨next, ?_, events⟩, ?_, ended, ended.battle.status, ended.battle.cycles⟩
  · exact (congruent_advance positive small congruent 1).more
  · exact fun count => congruent_rounds positive small congruent count

/-- A warrior that copies its first cell, adds to the copy through a pointer and runs into it,
beside one that jumps, in two cores of eight cells. Two of its distances differ by the size, and so
do the copies, which are executed; the matches end alike. -/
theorem rounds_respect_congruence_copier :
    let copy (field distance : Int64) : Instruction := ⟨.cpy, ⟨.direct, field⟩, ⟨.direct, distance⟩⟩
    let add (distance : Int64) : Instruction := ⟨.add, ⟨.immediate, 5⟩, ⟨.indirect, distance⟩⟩
    let jump (distance : Int64) : Instruction := ⟨.jmp, ⟨.direct, distance⟩, {}⟩
    let start := ((Core.ofSize 8).write 2 (jump 1)).write 5 (jump 0)
    let battle (first second : Int64) : Battle :=
      { limits := ⟨8, 9, 4, 2⟩
        core := (start.write 0 (copy 0 first)).write 1 (add second)
        roster := [.single "C" 0 [], .single "J" 5 []]
        generator := ⟨1, 2, 3, 4⟩ }
    let left := battle 3 2
    let right := battle (-5) 10
    .step "C" 3 (copy 5 3) ∈ (left.rounds 4).2 ∧
    .step "C" 3 (copy 5 (-5)) ∈ (right.rounds 4).2 ∧
    List.Forall₂ (Event.Congruent 8) (left.rounds 4).2 (right.rounds 4).2 ∧
    left.run.battle.status = .won "J" ∧
    right.run.battle.status = .won "J" ∧
    right.run.battle.cycles = 5 := by
  intro copy add jump start battle left right
  have multiple {mode : Mode} {first second : Int64}
      (away : mode ≠ .immediate) (apart : (8 : Int) ∣ first.toInt - second.toInt) :
      Operand.Congruent 8 ⟨mode, first⟩ ⟨mode, second⟩ :=
    ⟨rfl, Or.inr ⟨away, apart⟩⟩
  have begun : start.Congruent 8 start :=
    ⟨by decide +kernel, by decide +kernel, fun _ => Instruction.congruent_refl _⟩
  have copies : (copy 0 3).Congruent 8 (copy 0 (-5)) :=
    ⟨rfl, rfl, multiple (by decide) (by decide)⟩
  have adds : (add 2).Congruent 8 (add 10) :=
    ⟨rfl, rfl, multiple (by decide) (by decide)⟩
  have same (name : String) {address : UInt64} (inside : address.toNat < 8) :
      (Warrior.single name address []).Congruent 8 (.single name address []) := by
    refine ⟨rfl, rfl, ?_⟩
    intro other member
    rw [List.mem_singleton.mp member]
    exact inside
  have warriors : List.Forall₂ (Warrior.Congruent 8) left.roster right.roster :=
    .cons (same "C" (by decide)) (.cons (same "J" (by decide)) .nil)
  have cores : left.core.Congruent 8 right.core :=
    Core.congruent_write (by decide) (by decide)
      (Core.congruent_write (by decide) (by decide) begun 0 copies) 1 adds
  have congruent : left.Congruent 8 right := ⟨cores, warriors, rfl, rfl, rfl⟩
  obtain ⟨_, rounds, _, status, cycles⟩ :=
    rounds_respect_congruence (by decide) (by decide) congruent
  have won : left.run.battle.status = .won "J" := by decide +kernel
  have played : left.run.battle.cycles = 5 := by decide +kernel
  exact ⟨by decide +kernel, by decide +kernel, (rounds 4).2, won, status ▸ won, cycles ▸ played⟩

end Battle

end CoreWar
