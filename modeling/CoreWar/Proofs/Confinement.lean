import CoreWar.Proofs.Addressing
import CoreWar.Proofs.Assembly.Stages
import CoreWar.Proofs.Outcome

/-!
Contract: addresses never leave the core.

Owns:
- the confined matches: a core of the given size, and every thread, every start and the last start
  below that size;
- what an operation, a turn, a round and a placement keep of it;
- the addresses that events carry.

Does not own: the arithmetic on the way to an address, see `CoreWar.Proofs.Safety`.

Of an operation it matters only where it lets threads go: to the next cell, past it, or to one of
its two targets. All of these are folded, so the size of the core is the only bound that is kept.
-/

namespace CoreWar

/-- Every address of the queue is below the size. -/
def TaskQueue.Below (size : Nat) (tasks : TaskQueue) : Prop :=
  ∀ address ∈ tasks.waiting, address.toNat < size

/-- The start and every thread of the warrior are below the size. -/
structure Warrior.Below (size : Nat) (warrior : Warrior) : Prop where
  start : warrior.start.toNat < size
  tasks : warrior.tasks.Below size

/-- The address of a step or a fault is below the size. -/
def Event.Below (size : Nat) : Event → Prop
  | .step _ address _ => address.toNat < size
  | .fault _ address _ => address.toNat < size
  | _ => True

/-- What a match of this core size keeps at all times. -/
structure Battle.Confined (size : Nat) (battle : Battle) : Prop where
  cells : battle.core.cells.size = size
  roster : ∀ warrior ∈ battle.roster, warrior.Below size
  lastStart : battle.lastStart.toNat < size

/-! ## Operations -/

theorem TaskQueue.below_enqueue
    {size : Nat}
    {tasks : TaskQueue}
    {address : UInt64}
    (below : tasks.Below size)
    (addressBelow : address.toNat < size) :
    (tasks.enqueue address).Below size := by
  intro other member
  rcases List.mem_append.mp member with old | new
  · exact below other old
  · rw [List.mem_singleton.mp new]
    exact addressBelow

theorem TaskQueue.below_of_dequeue?
    {size : Nat}
    {tasks waiting : TaskQueue}
    {address : UInt64}
    (below : tasks.Below size)
    (dequeued : tasks.dequeue? = some (address, waiting)) :
    address.toNat < size ∧ waiting.Below size := by
  cases queue : tasks.waiting with
  | nil => simp [dequeue?, queue] at dequeued
  | cons first rest =>
      simp only [dequeue?, queue, Option.some.injEq, Prod.mk.injEq] at dequeued
      obtain ⟨rfl, rfl⟩ := dequeued
      unfold Below at below
      rw [queue] at below
      exact ⟨below first List.mem_cons_self,
        fun other member => below other (List.mem_cons_of_mem first member)⟩

/-- An operand is resolved to a cell of the core. -/
theorem Operand.inside_resolve
    (operand : Operand)
    {core : Core}
    {pc : UInt64}
    (addressable : core.Addressable)
    (inside : core.Inside pc) :
    core.Inside (operand.resolve core pc).address := by
  unfold resolve
  split
  · exact inside
  · exact Core.inside_displace addressable _ _
  · exact Core.inside_displace addressable _ _

namespace Execution

/-- What an execution leaves behind is below the size. -/
structure Below (size : Nat) (execution : Execution) : Prop where
  cells : execution.core.cells.size = size
  tasks : execution.tasks.Below size
  next : ∀ address ∈ execution.next, address.toNat < size

variable {size : Nat} {execution : Execution}

theorem below_store (below : execution.Below size) (address : UInt64) (value : Int64) :
    (execution.store address value).Below size :=
  ⟨(Core.size_modify _ _ _).trans below.cells, below.tasks, below.next⟩

theorem below_jump
    (below : execution.Below size)
    {address : UInt64}
    (addressBelow : address.toNat < size) :
    (execution.jump address).Below size := by
  refine ⟨below.cells, below.tasks, ?_⟩
  intro other member
  rw [← Option.mem_some.mp member]
  exact addressBelow

theorem below_stop (below : execution.Below size) : execution.stop.Below size :=
  ⟨below.cells, below.tasks, by simp [stop]⟩

theorem below_abort (below : execution.Below size) (fault : Fault) :
    (execution.abort fault).Below size :=
  ⟨below.cells, below.tasks, by simp [abort]⟩

theorem below_skip
    (addressable : execution.core.Addressable)
    (below : execution.Below size) :
    execution.skip.Below size := by
  refine ⟨below.cells, below.tasks, ?_⟩
  intro address member
  obtain ⟨_, _, rfl⟩ := Option.map_eq_some_iff.mp member
  rw [← below.cells]
  exact Core.inside_fold addressable _

theorem below_fork
    (below : execution.Below size)
    (maxTasks : UInt64)
    {address : UInt64}
    (addressBelow : address.toNat < size) :
    (execution.fork maxTasks address).Below size := by
  unfold fork
  split
  · exact ⟨below.cells, TaskQueue.below_enqueue below.tasks addressBelow, below.next⟩
  · exact below

end Execution

/-- An operation keeps the size of the core, and lets threads go to its targets or near the old
place only. -/
theorem Operation.below_execute
    (operation : Operation)
    {size : Nat}
    {a b : Target}
    (maxTasks : UInt64)
    {before : Execution}
    (addressable : before.core.Addressable)
    (aBelow : a.address.toNat < size)
    (bBelow : b.address.toNat < size)
    (below : before.Below size) :
    (operation.execute a b maxTasks before).Below size := by
  cases operation with
  | dat => exact Execution.below_stop below
  | mov => exact Execution.below_store below _ _
  | add => exact Execution.below_store below _ _
  | sub => exact Execution.below_store below _ _
  | mul => exact Execution.below_store below _ _
  | div =>
      simp only [execute]
      split
      · exact Execution.below_abort below _
      · exact Execution.below_store below _ _
  | mod =>
      simp only [execute]
      split
      · exact Execution.below_abort below _
      · exact Execution.below_store below _ _
  | jmp => exact Execution.below_jump below aBelow
  | jmz =>
      simp only [execute]
      split
      · exact Execution.below_jump below bBelow
      · exact below
  | cmp =>
      simp only [execute]
      split
      · exact Execution.below_skip addressable below
      · exact below
  | frk => exact Execution.below_fork below maxTasks aBelow
  | clr => exact ⟨(Core.size_modify _ _ _).trans below.cells, below.tasks, below.next⟩
  | cpy => exact ⟨(Core.size_modify _ _ _).trans below.cells, below.tasks, below.next⟩

/-! ## Turns and rounds -/

namespace Battle

/-- Each event of a turn carries the address of the executed cell. -/
theorem below_turnEvents
    {size : Nat}
    {address : UInt64}
    (below : address.toNat < size)
    (name : String)
    (instruction : Instruction)
    (fault : Option Fault) :
    ∀ event ∈ turnEvents name address instruction fault, event.Below size := by
  intro event member
  cases fault with
  | none =>
      rw [List.mem_singleton.mp member]
      exact below
  | some fault =>
      rcases List.mem_cons.mp member with rfl | isFault
      · exact below
      · rw [List.mem_singleton.mp isFault]
        exact below

/-- The execution of the instruction at an address, with the rest of the queue. -/
def executeAt (maxTasks : UInt64) (core : Core) (address : UInt64) (waiting : TaskQueue) :
    Execution :=
  let instruction := core.read address.toInt64
  instruction.operation.execute (instruction.a.resolve core address)
    (instruction.b.resolve core address) maxTasks
    ⟨core, waiting, some (core.fold (address.toInt64 + 1)), none⟩

/-- The queue after an execution: a thread that goes on waits behind the others. -/
def requeue (execution : Execution) : TaskQueue :=
  match execution.next with
  | some next => execution.tasks.enqueue next
  | none => execution.tasks

/-- What a turn makes of the execution of its instruction. -/
def concludeTurn
    (warrior : Warrior)
    (address : UInt64)
    (instruction : Instruction)
    (execution : Execution) :
    Turn :=
  ⟨execution.core, { warrior with tasks := requeue execution },
    turnEvents warrior.name address instruction execution.fault⟩

theorem turn_of_idle
    (maxTasks : UInt64)
    (core : Core)
    {warrior : Warrior}
    (idle : warrior.tasks.dequeue? = none) :
    turn maxTasks core warrior = ⟨core, warrior, []⟩ := by
  simp only [turn, idle]

/-- A turn in terms of the execution of its instruction. -/
theorem turn_of_dequeue?
    (maxTasks : UInt64)
    (core : Core)
    {warrior : Warrior}
    {address : UInt64}
    {waiting : TaskQueue}
    (dequeued : warrior.tasks.dequeue? = some (address, waiting)) :
    turn maxTasks core warrior =
      concludeTurn warrior address (core.read address.toInt64)
        (executeAt maxTasks core address waiting) := by
  simp only [turn, dequeued]
  rfl

/-- The events of a turn: the executed cell as it was fetched, and a fault in it. -/
theorem step_or_fault_of_mem_turn
    {maxTasks : UInt64}
    {core : Core}
    {warrior : Warrior}
    {event : Event}
    (member : event ∈ (turn maxTasks core warrior).events) :
    ∃ address,
      event = .step warrior.name address (core.read address.toInt64) ∨
      ∃ message, event = .fault warrior.name address message := by
  cases dequeued : warrior.tasks.dequeue? with
  | none =>
      rw [turn_of_idle maxTasks core dequeued] at member
      contradiction
  | some pair =>
      rw [turn_of_dequeue? maxTasks core dequeued] at member
      rcases List.mem_cons.mp member with isStep | isFault
      · exact ⟨_, Or.inl isStep⟩
      · obtain ⟨fault, _, rfl⟩ := Option.map_eq_some_iff.mp (Option.mem_toList.mp isFault)
        exact ⟨_, Or.inr ⟨_, rfl⟩⟩

theorem below_executeAt
    {core : Core}
    (addressable : core.Addressable)
    (maxTasks : UInt64)
    {address : UInt64}
    {waiting : TaskQueue}
    (addressBelow : address.toNat < core.cells.size)
    (waitingBelow : waiting.Below core.cells.size) :
    (executeAt maxTasks core address waiting).Below core.cells.size := by
  apply Operation.below_execute
  · exact addressable
  · exact Operand.inside_resolve _ addressable addressBelow
  · exact Operand.inside_resolve _ addressable addressBelow
  · refine ⟨rfl, waitingBelow, ?_⟩
    intro next member
    rw [← Option.mem_some.mp member]
    exact Core.inside_fold addressable _

theorem below_requeue {size : Nat} {execution : Execution} (below : execution.Below size) :
    (requeue execution).Below size := by
  unfold requeue
  split
  · rename_i next goesOn
    exact TaskQueue.below_enqueue below.tasks (below.next next goesOn)
  · exact below.tasks

/-- A turn keeps the size of the core and the bounds of its warrior, and shows no address beyond. -/
theorem below_turn
    (maxTasks : UInt64)
    {core : Core}
    {warrior : Warrior}
    (addressable : core.Addressable)
    (below : warrior.Below core.cells.size) :
    (turn maxTasks core warrior).core.cells.size = core.cells.size ∧
    (turn maxTasks core warrior).warrior.Below core.cells.size ∧
    ∀ event ∈ (turn maxTasks core warrior).events, event.Below core.cells.size := by
  cases dequeued : warrior.tasks.dequeue? with
  | none =>
      rw [turn_of_idle maxTasks core dequeued]
      exact ⟨rfl, below, by simp⟩
  | some pair =>
      obtain ⟨address, waiting⟩ := pair
      obtain ⟨addressBelow, waitingBelow⟩ := TaskQueue.below_of_dequeue? below.tasks dequeued
      have executed := below_executeAt addressable maxTasks addressBelow waitingBelow
      rw [turn_of_dequeue? maxTasks core dequeued]
      exact ⟨executed.cells, ⟨below.start, below_requeue executed⟩,
        below_turnEvents addressBelow _ _ _⟩

/-- The warrior of a turn, if it still lives. -/
def Turn.survivor (played : Turn) : List Warrior :=
  if played.warrior.isAlive then [played.warrior] else []

/-- The event that announces a death, if there was one. -/
def Turn.obituary (played : Turn) : List Event :=
  if played.warrior.isAlive then [] else [.died played.warrior.name]

/-- The turns of a round, in terms of the first and the others. -/
theorem turns_cons (maxTasks : UInt64) (core : Core) (warrior : Warrior) (rest : List Warrior) :
    turns maxTasks core (warrior :: rest) =
      ⟨(turns maxTasks (turn maxTasks core warrior).core rest).core,
        (turn maxTasks core warrior).survivor ++
          (turns maxTasks (turn maxTasks core warrior).core rest).survivors,
        (turn maxTasks core warrior).events ++ ((turn maxTasks core warrior).obituary ++
          (turns maxTasks (turn maxTasks core warrior).core rest).events)⟩ := by
  by_cases alive : (turn maxTasks core warrior).warrior.isAlive
  · simp [turns, Turn.survivor, Turn.obituary, alive]
  · simp [turns, Turn.survivor, Turn.obituary, alive]

theorem Turn.eq_of_mem_survivor {played : Turn} {warrior : Warrior}
    (member : warrior ∈ played.survivor) :
    warrior = played.warrior := by
  unfold survivor at member
  split at member
  · exact List.mem_singleton.mp member
  · contradiction

theorem Turn.eq_died_of_mem_obituary
    {played : Turn}
    {event : Event}
    (member : event ∈ played.obituary) :
    event = .died played.warrior.name := by
  unfold obituary at member
  split at member
  · contradiction
  · exact List.mem_singleton.mp member

theorem Turn.below_obituary (size : Nat) (played : Turn) :
    ∀ event ∈ played.obituary, event.Below size := by
  intro event member
  rw [eq_died_of_mem_obituary member]
  trivial

/-- The turns of a round keep the size of the core and the bounds of the warriors. -/
theorem below_turns
    (maxTasks : UInt64)
    {size : Nat}
    {core : Core}
    {roster : List Warrior}
    (addressable : core.Addressable)
    (cells : core.cells.size = size)
    (below : ∀ warrior ∈ roster, warrior.Below size) :
    (turns maxTasks core roster).core.cells.size = size ∧
    (∀ warrior ∈ (turns maxTasks core roster).survivors, warrior.Below size) ∧
    ∀ event ∈ (turns maxTasks core roster).events, event.Below size := by
  induction roster generalizing core with
  | nil => exact ⟨cells, by simp [turns], by simp [turns]⟩
  | cons warrior rest inductionHypothesis =>
      subst cells
      obtain ⟨firstCells, firstBelow, firstEvents⟩ :=
        below_turn maxTasks addressable (below warrior List.mem_cons_self)
      obtain ⟨laterCells, laterBelow, laterEvents⟩ :=
        inductionHypothesis (addressable.of_size firstCells) firstCells
          fun other member => below other (List.mem_cons_of_mem warrior member)
      rw [turns_cons]
      refine ⟨laterCells, ?_, ?_⟩
      · intro other member
        rcases List.mem_append.mp member with first | later
        · rw [Turn.eq_of_mem_survivor first]
          exact firstBelow
        · exact laterBelow other later
      · intro event member
        rcases List.mem_append.mp member with now | member
        · exact firstEvents event now
        · rcases List.mem_append.mp member with died | later
          · exact Turn.below_obituary _ _ event died
          · exact laterEvents event later

theorem below_announcement (size : Nat) (status : Status) (cycles : UInt64) :
    ∀ event ∈ status.announcement cycles, event.Below size := by
  intro event member
  cases status with
  | running => simp [Status.announcement] at member
  | won name =>
      rw [List.mem_singleton.mp member]
      trivial
  | tie =>
      rw [List.mem_singleton.mp member]
      trivial

variable {size : Nat} {battle : Battle}

theorem Confined.addressable
    (confined : battle.Confined size)
    (positive : 0 < size)
    (small : size ≤ 0x4000000000000000) :
    battle.core.Addressable :=
  ⟨confined.cells ▸ positive, confined.cells ▸ small⟩

theorem confined_round
    (positive : 0 < size)
    (small : size ≤ 0x4000000000000000)
    (confined : battle.Confined size) :
    battle.round.1.Confined size ∧ ∀ event ∈ battle.round.2, event.Below size := by
  by_cases running : battle.status = .running
  · obtain ⟨cells, survivors, events⟩ :=
      below_turns battle.limits.maxTasks (confined.addressable positive small) confined.cells
        confined.roster
    rw [round_of_running battle running]
    refine ⟨⟨cells, survivors, confined.lastStart⟩, ?_⟩
    intro event member
    rcases List.mem_append.mp member with played | announced
    · exact events event played
    · exact below_announcement size _ _ event announced
  · rw [round_of_ended battle running]
    exact ⟨confined, by simp⟩

/-! ## Loading -/

theorem below_launch
    (addressable : battle.core.Addressable)
    (cells : battle.core.cells.size = size)
    (warrior : Warrior)
    (below : warrior.tasks.Below size)
    (offset : UInt64) :
    (launch battle.core warrior offset).Below size := by
  have startBelow : ∀ address, (battle.core.fold address).toNat < size := by
    intro address
    rw [← cells]
    exact Core.inside_fold addressable address
  refine ⟨startBelow _, ?_⟩
  cases dequeued : warrior.tasks.dequeue? with
  | none =>
      simp only [launch, dequeued]
      exact TaskQueue.below_enqueue (by simp [TaskQueue.Below]) (startBelow _)
  | some pair =>
      obtain ⟨origin, waiting⟩ := pair
      simp only [launch, dequeued]
      exact TaskQueue.below_enqueue (TaskQueue.below_of_dequeue? below dequeued).2 (startBelow _)

theorem confined_place
    (positive : 0 < size)
    (small : size ≤ 0x4000000000000000)
    (confined : battle.Confined size)
    {warrior : Warrior}
    (below : warrior.tasks.Below size)
    (offset : UInt64) :
    (battle.place warrior offset).battle.Confined size ∧
      ∀ event ∈ (battle.place warrior offset).events, event.Below size := by
  by_cases short : warrior.program.length < battle.limits.maxLength.toNat
  · rw [place_of_short battle warrior offset short]
    have addressable := confined.addressable positive small
    have launched : (launch battle.core (battle.numbered warrior) offset).Below size :=
      below_launch addressable confined.cells (battle.numbered warrior) below offset
    refine ⟨⟨?_, ?_, launched.start⟩, by simp⟩
    · exact (Core.size_loadFrom _ _ _).trans confined.cells
    · intro other member
      rcases List.mem_append.mp member with old | new
      · exact confined.roster other old
      · rw [List.mem_singleton.mp new]
        exact launched
  · rw [place_of_long battle warrior offset (Nat.not_lt.mp short)]
    refine ⟨confined, ?_⟩
    intro event member
    rw [List.mem_singleton.mp member]
    trivial

/-- The thread of an assembled warrior is below the size of the core. -/
theorem below_of_assemble
    {limits : Limits}
    {source : String}
    {warrior : Warrior}
    (positive : 0 < limits.coreSize.toNat)
    (small : limits.coreSize.toNat ≤ 0x4000000000000000)
    (assembled : Assembly.assemble limits source = .ok warrior) :
    warrior.tasks.Below limits.coreSize.toNat := by
  obtain ⟨name, entry, program, rfl⟩ := Assembly.exists_single_of_assemble assembled
  have folded := toNat_fold entry limits.coreSize positive (by omega)
  have below : entry.toInt % limits.coreSize.toNat < limits.coreSize.toNat :=
    Int.emod_lt_of_pos _ (by omega)
  intro address member
  rw [List.mem_singleton.mp member]
  omega

theorem confined_load
    (positive : 0 < size)
    (small : size ≤ 0x4000000000000000)
    (coreSize : battle.limits.coreSize.toNat = size)
    (confined : battle.Confined size)
    (source : String) :
    (battle.load source).battle.Confined size ∧
      ∀ event ∈ (battle.load source).events, event.Below size := by
  have drawn : battle.drawOffset.2.Confined size :=
    ⟨confined.cells, confined.roster, confined.lastStart⟩
  rw [load_eq]
  cases assembled : Assembly.assemble battle.limits source with
  | ok warrior =>
      have below : warrior.tasks.Below size := by
        rw [← coreSize]
        exact below_of_assemble (by omega) (by omega) assembled
      exact confined_place positive small drawn below _
  | error error =>
      refine ⟨drawn, ?_⟩
      intro event member
      rw [List.mem_singleton.mp member]
      trivial

/-! ## Histories -/

end Battle

/-- A warrior to be placed has its threads below the size, and its place is below 2^62. -/
def Command.Admissible (size : Nat) : Command → Prop
  | .place warrior offset => warrior.tasks.Below size ∧ offset.toNat < 0x4000000000000000
  | _ => True

namespace Battle

variable {limits : Limits} {battle : Battle}

/-- A match under these limits that keeps its pace and stays inside its core. -/
structure Kept (limits : Limits) (battle : Battle) : Prop where
  paced : Paced limits battle
  confined : battle.Confined limits.coreSize.toNat

theorem kept_create
    {generator : Generator}
    {fresh : Battle}
    (created : create limits generator = .ok fresh) :
    Kept limits fresh := by
  refine ⟨paced_create created, ?_⟩
  obtain ⟨playable, rfl⟩ := (create_eq_ok_iff limits generator fresh).mp created
  exact ⟨by simp [Core.ofSize], by simp, playable.toNat_coreSize_pos⟩

theorem kept_round
    (positive : 0 < limits.coreSize.toNat)
    (small : limits.coreSize.toNat ≤ 0x4000000000000000)
    (kept : Kept limits battle) :
    Kept limits battle.round.1 ∧
      ∀ event ∈ battle.round.2, event.Below limits.coreSize.toNat := by
  obtain ⟨confined, events⟩ := confined_round positive small kept.confined
  exact ⟨⟨paced_round kept.paced, confined⟩, events⟩

/-- Every admissible command keeps the match confined and shows no address beyond the core. -/
theorem kept_obey
    (positive : 0 < limits.coreSize.toNat)
    (small : limits.coreSize.toNat ≤ 0x4000000000000000)
    (kept : Kept limits battle)
    {command : Command}
    (admissible : command.Admissible limits.coreSize.toNat) :
    Kept limits (battle.obey command).1 ∧
      ∀ event ∈ (battle.obey command).2, event.Below limits.coreSize.toNat := by
  have paced : Paced limits (battle.obey command).1 := paced_obey kept.paced command
  cases command with
  | load source =>
      have coreSize : battle.limits.coreSize.toNat = limits.coreSize.toNat := by
        rw [kept.paced.limits_eq]
      obtain ⟨confined, events⟩ := confined_load positive small coreSize kept.confined source
      exact ⟨⟨paced, confined⟩, events⟩
  | place warrior offset =>
      obtain ⟨confined, events⟩ :=
        confined_place positive small kept.confined admissible.1 offset
      exact ⟨⟨paced, confined⟩, events⟩
  | round => exact kept_round positive small kept
  | run =>
      obtain ⟨count, _, last, log, _⟩ := endsWithin_of_paced kept.paced
      simp only [obey]
      rw [last, log]
      exact rounds_keeps (Kept limits) (Event.Below limits.coreSize.toNat)
        (fun _ before => kept_round positive small before) battle count kept

end Battle

end CoreWar
