import CoreWar.Proofs.Checked

/-!
Contract: no check of an address computation ever fails.

Owns:
- the checked form of each step of a match gives the result of the unchecked one, as long as the
  match is confined to a core of at most 2^62 cells;
- the drawn distance is below its bound;
- every history of admissible commands is carried out by the checked machine.

Does not own: the invariant itself, see `CoreWar.Proofs.Confinement`.
-/

namespace CoreWar

theorem Word.add?_of_fits
    (left right : Int64)
    (atLeast : -0x8000000000000000 ≤ left.toInt + right.toInt)
    (below : left.toInt + right.toInt < 0x8000000000000000) :
    Word.add? left right = some (left + right) := by
  have least : Int64.minValue.toInt = -0x8000000000000000 := by decide
  have greatest : Int64.maxValue.toInt = 0x8000000000000000 - 1 := by decide
  unfold add? signed?
  rw [if_pos ⟨by omega, by omega⟩, Int64.ofInt_add, Int64.ofInt_toInt, Int64.ofInt_toInt]

/-! ## Cells and targets -/

namespace Core

variable {core : Core} (addressable : core.Addressable)

include addressable

theorem fold?_eq (address : Int64) : core.fold? address = some (core.fold address) := by
  have positive := addressable.positive
  have small := addressable.small
  have size := toNat_size addressable
  unfold fold?
  rw [if_pos]
  rw [toInt_toInt64 core.size (by omega)]
  omega

theorem read?_eq (address : Int64) : core.read? address = some (core.read address) := by
  have inside := inside_fold addressable address
  unfold Inside at inside
  simp only [read?, fold?_eq addressable, Option.bind_eq_bind, Option.bind_some, read,
    Array.getD_eq_getD_getElem?, Array.getElem?_eq_getElem inside, Option.getD_some]

theorem modify?_eq (address : Int64) (change : Instruction → Instruction) :
    core.modify? address change = some (core.modify address change) := by
  have inside := inside_fold addressable address
  unfold Inside at inside
  simp only [modify?, fold?_eq addressable, Option.bind_eq_bind, Option.bind_some, if_pos inside]
  rfl

theorem foldSum?_of_fits
    (left right : Int64)
    (atLeast : -0x8000000000000000 ≤ left.toInt + right.toInt)
    (below : left.toInt + right.toInt < 0x8000000000000000) :
    core.foldSum? left right = some (core.fold (left + right)) := by
  simp only [foldSum?, Word.add?_of_fits left right atLeast below, Option.bind_eq_bind,
    Option.bind_some, fold?_eq addressable]

/-- Two unsigned addresses up to 2^62 can be added and folded. -/
theorem foldSum?_toInt64
    (left right : UInt64)
    (leftSmall : left.toNat < 0x4000000000000000)
    (rightSmall : right.toNat < 0x4000000000000000) :
    core.foldSum? left.toInt64 right.toInt64 =
      some (core.fold (left.toInt64 + right.toInt64)) := by
  have leftInt := toInt_toInt64 left (by omega)
  have rightInt := toInt_toInt64 right (by omega)
  exact foldSum?_of_fits addressable _ _ (by omega) (by omega)

theorem foldSum?_one {address : UInt64} (inside : core.Inside address) :
    core.foldSum? address.toInt64 1 = some (core.fold (address.toInt64 + 1)) := by
  have small := addressable.small
  have asInt := toInt_of_inside addressable inside
  have one := Int64.toInt_one
  unfold Inside at inside
  exact foldSum?_of_fits addressable _ _ (by omega) (by omega)

theorem displace?_eq {base : UInt64} (inside : core.Inside base) (distance : Int64) :
    core.displace? base distance = some (core.displace base distance) := by
  have small := addressable.small
  have folded := inside_fold addressable distance
  unfold Inside at inside folded
  simp only [displace?, fold?_eq addressable, Option.bind_eq_bind, Option.bind_some]
  exact foldSum?_toInt64 addressable base _ (by omega) (by omega)

theorem target?_eq (address : UInt64) : core.target? address = some (core.target address) := by
  simp only [target?, read?_eq addressable, Option.bind_eq_bind, Option.bind_some]
  rfl

end Core

theorem Operand.resolve?_eq
    (operand : Operand)
    {core : Core}
    (addressable : core.Addressable)
    {pc : UInt64}
    (inside : core.Inside pc) :
    operand.resolve? core pc = some (operand.resolve core pc) := by
  have pointerInside := Core.inside_displace addressable pc operand.field
  cases mode : operand.mode with
  | immediate => simp only [resolve?, resolve, mode]
  | direct =>
      simp only [resolve?, resolve, mode, Core.displace?_eq addressable inside,
        Core.target?_eq addressable, Option.bind_eq_bind, Option.bind_some]
  | indirect =>
      simp only [resolve?, resolve, mode, Core.displace?_eq addressable inside,
        Core.read?_eq addressable, Core.displace?_eq addressable pointerInside,
        Core.target?_eq addressable, Option.bind_eq_bind, Option.bind_some]

/-- A program of at most 2^62 instructions can be copied to any place below 2^62. -/
theorem Core.loadFrom?_eq
    {core : Core}
    (addressable : core.Addressable)
    {start : UInt64}
    (startSmall : start.toNat < 0x4000000000000000)
    (index : Nat)
    (program : List Instruction)
    (short : index + program.length ≤ 0x4000000000000000) :
    core.loadFrom? start index program =
      some (core.loadFrom (start.toInt64 + Int64.ofNat index) program) := by
  induction program generalizing core index with
  | nil => rfl
  | cons instruction rest inductionHypothesis =>
      rw [List.length_cons] at short
      have startInt := toInt_toInt64 start (by omega)
      have indexInt : (Int64.ofNat index).toInt = index :=
        Int64.toInt_ofNat_of_lt (by omega)
      have summed : Word.add? start.toInt64 (Int64.ofNat index) =
          some (start.toInt64 + Int64.ofNat index) :=
        Word.add?_of_fits _ _ (by omega) (by omega)
      have next : start.toInt64 + Int64.ofNat (index + 1) =
          start.toInt64 + Int64.ofNat index + 1 := by
        rw [Int64.ofNat_add, Int64.add_assoc]
        rfl
      have changedAddressable := (addressable_modify core (start.toInt64 + Int64.ofNat index)
        fun _ => instruction).mpr addressable
      simp only [loadFrom?, summed, modify?_eq addressable, Option.bind_eq_bind, Option.bind_some]
      rw [inductionHypothesis changedAddressable (index + 1) (by omega), next]
      rfl

/-- From its first instruction on, all of the program is copied. -/
theorem Core.loadFrom?_zero
    {core : Core}
    (addressable : core.Addressable)
    {start : UInt64}
    (startSmall : start.toNat < 0x4000000000000000)
    (program : List Instruction)
    (short : program.length ≤ 0x4000000000000000) :
    core.loadFrom? start 0 program = some (core.load start program) := by
  have first : start.toInt64 + Int64.ofNat 0 = start.toInt64 := Int64.add_zero _
  rw [loadFrom?_eq addressable startSmall 0 program (by omega), first, load]

/-! ## Operations -/

namespace Execution

variable {execution : Execution} (addressable : execution.core.Addressable)

include addressable

theorem change?_eq (address : UInt64) (change : Instruction → Instruction) :
    execution.change? address change =
      some { execution with core := execution.core.modify address.toInt64 change } := by
  simp only [change?, Core.modify?_eq addressable, Option.bind_eq_bind, Option.bind_some]
  rfl

theorem store?_eq (address : UInt64) (value : Int64) :
    execution.store? address value = some (execution.store address value) :=
  change?_eq addressable address _

theorem skip?_eq (inside : ∀ address ∈ execution.next, execution.core.Inside address) :
    execution.skip? = some execution.skip := by
  cases next : execution.next with
  | none =>
      simp only [skip?, skip, next, Option.map_none]
      rw [← next]
  | some address =>
      simp only [skip?, skip, next, Option.map_some,
        Core.foldSum?_one addressable (inside address next), Option.bind_eq_bind, Option.bind_some]
      rfl

end Execution

theorem Operation.execute?_eq
    (operation : Operation)
    (a b : Target)
    (maxTasks : UInt64)
    (before : Execution)
    (addressable : before.core.Addressable)
    (nextInside : ∀ address ∈ before.next, before.core.Inside address) :
    operation.execute? a b maxTasks before = some (operation.execute a b maxTasks before) := by
  have stored := Execution.store?_eq addressable b.address
  cases operation with
  | dat => rfl
  | mov => exact stored _
  | add => exact stored _
  | sub => exact stored _
  | mul => exact stored _
  | div =>
      simp only [execute?, execute, stored]
      split
      · rfl
      · rfl
  | mod =>
      simp only [execute?, execute, stored]
      split
      · rfl
      · rfl
  | jmp => rfl
  | jmz => rfl
  | cmp =>
      simp only [execute?, execute, Execution.skip?_eq addressable nextInside]
      split
      · rfl
      · rfl
  | frk => rfl
  | clr => exact Execution.change?_eq addressable a.address _
  | cpy =>
      simp only [execute?, Core.read?_eq addressable, Execution.change?_eq addressable,
        Option.bind_eq_bind, Option.bind_some]
      rfl

/-! ## Drawing -/

theorem Generator.toNat_belowWithin_lt
    {bound : UInt64}
    (positive : 0 < bound.toNat)
    (attempts : Nat)
    (generator : Generator) :
    (belowWithin bound attempts generator).1.toNat < bound.toNat := by
  induction attempts generalizing generator with
  | zero => exact positive
  | succ attempts inductionHypothesis =>
      -- The answer is the high half of the product of a word with the bound.
      have high : generator.next.1.toNat * bound.toNat / UInt64.size < bound.toNat := by
        rw [Nat.div_lt_iff_lt_mul (by decide), Nat.mul_comm]
        exact Nat.mul_lt_mul_of_pos_left generator.next.1.toNat_lt positive
      unfold belowWithin
      simp only
      split
      · rw [UInt64.toNat_ofNat_of_lt' (Nat.lt_trans high bound.toNat_lt)]
        exact high
      · exact inductionHypothesis generator.next.2

/-- A drawn number is below a positive bound. -/
theorem Generator.toNat_below_lt
    (generator : Generator)
    {bound : UInt64}
    (positive : 0 < bound.toNat) :
    (generator.below bound).1.toNat < bound.toNat :=
  toNat_belowWithin_lt positive 65536 generator

/-! ## Turns and rounds -/

namespace Battle

theorem turn?_eq
    (maxTasks : UInt64)
    {core : Core}
    (addressable : core.Addressable)
    {warrior : Warrior}
    (below : warrior.Below core.cells.size) :
    turn? maxTasks core warrior = some (turn maxTasks core warrior) := by
  cases dequeued : warrior.tasks.dequeue? with
  | none =>
      rw [turn_of_idle maxTasks core dequeued]
      simp only [turn?, dequeued]
  | some pair =>
      obtain ⟨address, waiting⟩ := pair
      have inside : core.Inside address := (TaskQueue.below_of_dequeue? below.tasks dequeued).1
      have executed (operation : Operation) (a b : Target) :=
        operation.execute?_eq a b maxTasks
          ⟨core, waiting, some (core.fold (address.toInt64 + 1)), none⟩ addressable
          (by
            intro next member
            rw [← Option.mem_some.mp member]
            exact Core.inside_fold addressable _)
      rw [turn_of_dequeue? maxTasks core dequeued]
      simp only [turn?, dequeued, Core.read?_eq addressable,
        Operand.resolve?_eq _ addressable inside, Core.foldSum?_one addressable inside, executed,
        Option.bind_eq_bind, Option.bind_some]
      rfl

theorem turns?_eq
    (maxTasks : UInt64)
    {core : Core}
    (addressable : core.Addressable)
    {roster : List Warrior}
    (below : ∀ warrior ∈ roster, warrior.Below core.cells.size) :
    turns? maxTasks core roster = some (turns maxTasks core roster) := by
  induction roster generalizing core with
  | nil => rfl
  | cons warrior rest inductionHypothesis =>
      have firstBelow : warrior.Below core.cells.size := below warrior List.mem_cons_self
      have cells := (below_turn maxTasks addressable firstBelow).1
      have restBelow : ∀ other ∈ rest,
          other.Below (turn maxTasks core warrior).core.cells.size := by
        intro other member
        rw [cells]
        exact below other (List.mem_cons_of_mem warrior member)
      rw [turns_cons]
      simp only [turns?, turn?_eq maxTasks addressable firstBelow, Option.bind_eq_bind,
        Option.bind_some, inductionHypothesis (addressable.of_size cells) restBelow]
      rfl

variable {limits : Limits} {battle : Battle}

theorem round?_eq
    (positive : 0 < limits.coreSize.toNat)
    (small : limits.coreSize.toNat ≤ 0x4000000000000000)
    (kept : Kept limits battle) :
    battle.round? = some battle.round := by
  by_cases running : battle.status = .running
  · have addressable := kept.confined.addressable positive small
    have below : ∀ warrior ∈ battle.roster, warrior.Below battle.core.cells.size := by
      rw [kept.confined.cells]
      exact kept.confined.roster
    have counted : Word.unsigned? (battle.cycles.toNat + 1) = some (battle.cycles + 1) := by
      have succ := toNat_cycles_succ (kept.paced.below running)
      rw [← succ, Word.unsigned?, if_pos (battle.cycles + 1).toNat_lt, UInt64.ofNat_toNat]
    rw [round_of_running battle running]
    simp only [round?, running, counted, turns?_eq _ addressable below, Option.bind_eq_bind,
      Option.bind_some]
    rfl
  · rw [round_of_ended battle running]
    unfold round?
    split
    · contradiction
    · rfl

/-- Rounds in a row, checked, are the calls for them, unchecked. -/
theorem extend?_eq
    (positive : 0 < limits.coreSize.toNat)
    (small : limits.coreSize.toNat ≤ 0x4000000000000000)
    (kept : Kept limits battle)
    (calls : Nat)
    (more : Bool)
    (log : Array Event)
    (count : Nat) :
    ∃ events, battle.extend? count =
        some ((Progress.extend ⟨battle, calls, more, log⟩ count).battle, events) ∧
      (Progress.extend ⟨battle, calls, more, log⟩ count).log.toList = log.toList ++ events := by
  induction count generalizing battle calls more log with
  | zero => exact ⟨[], rfl, by simp [Progress.extend]⟩
  | succ count inductionHypothesis =>
      simp only [extend?, round?_eq positive small kept, Option.bind_eq_bind, Option.bind_some,
        extend_succ]
      by_cases running : battle.round.1.isRunning
      · obtain ⟨events, checked, logged⟩ :=
          inductionHypothesis (kept_round positive small kept).1 (calls + 1) true
            (log ++ battle.round.2)
        simp only [running, if_true, checked, Option.bind_some, logged]
        exact ⟨battle.round.2 ++ events, rfl, by simp⟩
      · simp only [running]
        exact ⟨battle.round.2, rfl, by simp⟩

theorem run?_eq
    (positive : 0 < limits.coreSize.toNat)
    (small : limits.coreSize.toNat ≤ 0x4000000000000000)
    (kept : Kept limits battle) :
    battle.obey? .run = some (battle.obey .run) := by
  obtain ⟨events, checked, logged⟩ :=
    extend?_eq positive small kept 0 true #[]
      (battle.limits.maxCycles.toNat - battle.cycles.toNat + 1)
  have sameEvents : battle.run.log.toList = events := logged
  simp only [obey?, checked, obey, sameEvents]
  rfl

/-! ## Loading -/

/-- Folding depends on the size of the core only, so a program that was copied does not matter. -/
theorem launch_loadFrom
    (core : Core)
    (address : Int64)
    (program : List Instruction)
    (warrior : Warrior)
    (offset : UInt64) :
    launch (core.loadFrom address program) warrior offset = launch core warrior offset := by
  simp only [launch, Core.fold, Core.size, Core.size_loadFrom]

theorem launch?_eq
    {core : Core}
    (addressable : core.Addressable)
    {warrior : Warrior}
    (below : warrior.tasks.Below core.cells.size)
    {offset : UInt64}
    (offsetSmall : offset.toNat < 0x4000000000000000) :
    launch? core warrior offset = some (launch core warrior offset) := by
  have small := addressable.small
  cases dequeued : warrior.tasks.dequeue? with
  | none =>
      have summed := Core.foldSum?_toInt64 addressable 0 offset (by decide) offsetSmall
      simp only [launch?, launch, dequeued, Option.getD_none, summed, Option.bind_eq_bind,
        Option.bind_some]
      rfl
  | some pair =>
      obtain ⟨origin, waiting⟩ := pair
      have originBelow := (TaskQueue.below_of_dequeue? below dequeued).1
      have summed := Core.foldSum?_toInt64 addressable origin offset (by omega) offsetSmall
      simp only [launch?, launch, dequeued, Option.getD_some, summed, Option.bind_eq_bind,
        Option.bind_some]
      rfl

theorem place?_eq
    (playable : limits.Playable)
    (small : limits.coreSize.toNat ≤ 0x4000000000000000)
    (kept : Kept limits battle)
    {warrior : Warrior}
    (below : warrior.tasks.Below limits.coreSize.toNat)
    {offset : UInt64}
    (offsetSmall : offset.toNat < 0x4000000000000000) :
    battle.place? warrior offset = some (battle.place warrior offset) := by
  have addressable := kept.confined.addressable playable.toNat_coreSize_pos small
  have shorter := playable.toNat_maxLength_lt
  rw [← kept.paced.limits_eq] at shorter small
  rw [← kept.confined.cells] at below
  by_cases short : warrior.program.length < battle.limits.maxLength.toNat
  · have copied := Core.loadFrom?_zero addressable offsetSmall warrior.program (by omega)
    rw [Core.load] at copied
    have sameSize : (battle.core.loadFrom offset.toInt64 warrior.program).cells.size =
        battle.core.cells.size := Core.size_loadFrom _ _ _
    have launched : launch? (battle.core.loadFrom offset.toInt64 warrior.program)
        (battle.numbered warrior) offset =
          some (launch battle.core (battle.numbered warrior) offset) := by
      rw [launch?_eq (addressable.of_size sameSize) (sameSize ▸ below) offsetSmall,
        launch_loadFrom]
    rw [place_of_short battle warrior offset short]
    simp only [place?, if_neg (Nat.not_le.mpr short), copied, launched, Option.bind_eq_bind,
      Option.bind_some]
    rfl
  · rw [place_of_long battle warrior offset (Nat.not_lt.mp short)]
    simp only [place?, if_pos (Nat.not_lt.mp short)]

/-- There is a place to draw from, since a program is shorter than the core. -/
theorem drawOffset?_eq
    (playable : limits.Playable)
    (small : limits.coreSize.toNat ≤ 0x4000000000000000)
    (kept : Kept limits battle) :
    battle.drawOffset? = some battle.drawOffset := by
  have addressable := kept.confined.addressable playable.toNat_coreSize_pos small
  have shorter : battle.limits.maxLength < battle.limits.coreSize := by
    rw [kept.paced.limits_eq]
    exact playable.2.2.2
  have spread : (battle.limits.coreSize - battle.limits.maxLength).toNat =
      limits.coreSize.toNat - limits.maxLength.toNat := by
    rw [UInt64.toNat_sub_of_le _ _ (UInt64.le_of_lt shorter), kept.paced.limits_eq]
  have shorterNat := playable.toNat_maxLength_lt
  have drawn : (battle.generator.below (battle.limits.coreSize - battle.limits.maxLength)).1.toNat <
      (battle.limits.coreSize - battle.limits.maxLength).toNat :=
    battle.generator.toNat_below_lt (by omega)
  have lastBelow := kept.confined.lastStart
  have summed := Core.foldSum?_toInt64 addressable battle.lastStart
    (battle.generator.below (battle.limits.coreSize - battle.limits.maxLength)).1 (by omega)
    (by omega)
  simp only [drawOffset?, if_pos shorter, summed, Option.bind_eq_bind, Option.bind_some]
  rfl

theorem kept_drawOffset (kept : Kept limits battle) : Kept limits battle.drawOffset.2 :=
  ⟨⟨kept.paced.limits_eq, kept.paced.within, kept.paced.below, kept.paced.contested⟩,
    ⟨kept.confined.cells, kept.confined.roster, kept.confined.lastStart⟩⟩

theorem load?_eq
    (playable : limits.Playable)
    (small : limits.coreSize.toNat ≤ 0x4000000000000000)
    (kept : Kept limits battle)
    (source : String) :
    battle.load? source = some (battle.load source) := by
  have positive := playable.toNat_coreSize_pos
  have addressable := kept.confined.addressable positive small
  have drawn := kept_drawOffset kept
  rw [load_eq, kept.paced.limits_eq]
  simp only [load?, drawOffset?_eq playable small kept, Option.bind_eq_bind, Option.bind_some,
    drawn.paced.limits_eq]
  cases assembled : Assembly.assemble limits source with
  | ok warrior =>
      have offsetInside : battle.core.Inside battle.drawOffset.1 := by
        simp only [drawOffset]
        exact Core.inside_fold addressable _
      have cellsSmall := addressable.small
      unfold Core.Inside at offsetInside
      exact place?_eq playable small drawn (below_of_assemble positive small assembled) (by omega)
  | error error =>
      have placeable : error ≠ .unfoldableOrigin := by
        intro same
        subst same
        exact Assembly.assemble_ne_unfoldableOrigin (by omega) source assembled
      cases error with
      | unfoldableOrigin => exact absurd rfl placeable
      | _ => rfl

/-! ## Histories -/

/-- The checked machine carries out every admissible command. -/
theorem obey?_eq
    (playable : limits.Playable)
    (small : limits.coreSize.toNat ≤ 0x4000000000000000)
    (kept : Kept limits battle)
    {command : Command}
    (admissible : command.Admissible limits.coreSize.toNat) :
    battle.obey? command = some (battle.obey command) := by
  cases command with
  | load source =>
      simp only [obey?, load?_eq playable small kept, Option.bind_eq_bind, Option.bind_some]
      rfl
  | place warrior offset =>
      simp only [obey?, place?_eq playable small kept admissible.1 admissible.2,
        Option.bind_eq_bind, Option.bind_some]
      rfl
  | round => exact round?_eq playable.toNat_coreSize_pos small kept
  | run => exact run?_eq playable.toNat_coreSize_pos small kept

theorem follow?_eq
    (playable : limits.Playable)
    (small : limits.coreSize.toNat ≤ 0x4000000000000000)
    (kept : Kept limits battle)
    {commands : List Command}
    (admissible : ∀ command ∈ commands, command.Admissible limits.coreSize.toNat) :
    battle.follow? commands = some (battle.follow commands) := by
  induction commands generalizing battle with
  | nil => rfl
  | cons command rest inductionHypothesis =>
      have first := admissible command List.mem_cons_self
      have next := (kept_obey playable.toNat_coreSize_pos small kept first).1
      have restAdmissible : ∀ other ∈ rest, other.Admissible limits.coreSize.toNat :=
        fun other member => admissible other (List.mem_cons_of_mem command member)
      simp only [follow?, obey?_eq playable small kept first, Option.bind_eq_bind,
        Option.bind_some, inductionHypothesis next restAdmissible]
      rfl

/-- In a core of at most 2^62 cells, no history of admissible commands meets an address computation
that has no result: every sum of addresses fits the word, every fold has a positive modulus, every
cell is in the core, and there is always a place to draw. The match stays confined to its core, and
so do the addresses of its events. -/
theorem follow?_eq_some_follow_and_confined
    {limits : Limits}
    {generator : Generator}
    {fresh : Battle}
    (created : create limits generator = .ok fresh)
    (small : limits.coreSize.toNat ≤ 0x4000000000000000)
    (commands : List Command)
    (admissible : ∀ command ∈ commands, command.Admissible limits.coreSize.toNat) :
    fresh.follow? commands = some (fresh.follow commands) ∧
      (fresh.follow commands).1.Confined limits.coreSize.toNat ∧
      ∀ event ∈ (fresh.follow commands).2, event.Below limits.coreSize.toNat := by
  have playable := ((create_eq_ok_iff limits generator fresh).mp created).1
  have kept := kept_create created
  obtain ⟨keptLast, events⟩ :=
    follow_keeps (Kept limits) (Command.Admissible limits.coreSize.toNat)
      (Event.Below limits.coreSize.toNat)
      (fun _ _ allowed before => kept_obey playable.toNat_coreSize_pos small before allowed)
      fresh commands admissible kept
  exact ⟨follow?_eq playable small kept admissible, keptLast.confined, events⟩

/-- In a core of five cells: a source, a bomber placed across the end of the core whose pointer is
the least word, a round, and the rest of the match. -/
theorem follow?_eq_some_follow_and_confined_bomber :
    let limits : Limits := ⟨5, 3, 4, 2⟩
    let bomber : Warrior := .single "B" 1
      [⟨.dat, ⟨.direct, Int64.minValue⟩, {}⟩, ⟨.mov, ⟨.immediate, 7⟩, ⟨.indirect, -1⟩⟩]
    let fresh : Battle := { limits, core := .ofSize 5, generator := ⟨1, 2, 3, 4⟩ }
    let commands : List Command :=
      [.load "; redcode\n; name imp\n; assert 1\nCPY 0, 1\n", .place bomber 4, .round, .run]
    create limits ⟨1, 2, 3, 4⟩ = .ok fresh ∧
    (∀ command ∈ commands, command.Admissible 5) ∧
    fresh.follow? commands = some (fresh.follow commands) ∧
    (fresh.follow commands).1.Confined 5 ∧
    ∀ event ∈ (fresh.follow commands).2, event.Below 5 := by
  intro limits bomber fresh commands
  have created : create limits ⟨1, 2, 3, 4⟩ = .ok fresh :=
    (create_eq_ok_iff _ _ _).mpr ⟨by decide, rfl⟩
  have admissible : ∀ command ∈ commands, command.Admissible 5 := by
    simp [commands, Command.Admissible, TaskQueue.Below, bomber, Warrior.single]
  exact ⟨created, admissible,
    follow?_eq_some_follow_and_confined created (by decide) commands admissible⟩

end Battle

end CoreWar
