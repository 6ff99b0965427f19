import CoreWar.Proofs.Confinement

/-!
Contract: a match does not depend on where its core is cut open.

Owns:
- rotating a core, and with it the addresses of threads, starts, targets and events;
- the rotated match: each operation, turn, round and placement commutes with rotation;
- two matches whose warriors stand the same distance apart.

Does not own: the draw of a place, which starts from cell zero in a fresh match.

Two signed addresses correspond under a rotation when they differ by the shift modulo the size. All
that a turn does goes through such pairs: folding, reading and changing a cell are shown to respect
them, and the rest follows by walking through the definitions.
-/

namespace CoreWar

/-- The address `shift` cells further on, around the end of a core of this size. -/
def rotateAddress (size : Nat) (shift : Int) (address : UInt64) : UInt64 :=
  UInt64.ofNat ((address.toNat + shift) % size).toNat

/-- The core with every cell moved `shift` cells further on. -/
def Core.rotate (core : Core) (shift : Int) : Core :=
  ⟨Array.ofFn fun index : Fin core.cells.size => core.cellAt (index.val - shift)⟩

def TaskQueue.rotate (size : Nat) (shift : Int) (tasks : TaskQueue) : TaskQueue :=
  ⟨tasks.waiting.map (rotateAddress size shift)⟩

def Warrior.rotate (size : Nat) (shift : Int) (warrior : Warrior) : Warrior :=
  { warrior with
    tasks := warrior.tasks.rotate size shift
    start := rotateAddress size shift warrior.start }

/-- The event with the address of a step or a fault moved. -/
def Event.rotate (size : Nat) (shift : Int) : Event → Event
  | .step warrior address instruction =>
    .step warrior (rotateAddress size shift address) instruction
  | .fault warrior address message => .fault warrior (rotateAddress size shift address) message
  | event => event

/-- The match with its core, its threads and its starts moved; all else is kept. -/
def Battle.rotate (battle : Battle) (shift : Int) : Battle :=
  { battle with
    core := battle.core.rotate shift
    roster := battle.roster.map (Warrior.rotate battle.core.cells.size shift)
    lastStart := rotateAddress battle.core.cells.size shift battle.lastStart }

/-! ## Corresponding addresses -/

/-- The second address is `shift` cells after the first, modulo the size. -/
def Shifted (size : Nat) (shift : Int) (left right : Int64) : Prop :=
  right.toInt % size = (left.toInt + shift) % size

theorem toNat_rotateAddress
    {size : Nat}
    (positive : 0 < size)
    (small : size ≤ 0x4000000000000000)
    (shift : Int)
    (address : UInt64) :
    ((rotateAddress size shift address).toNat : Int) = (address.toNat + shift) % size := by
  have nonnegative : 0 ≤ (address.toNat + shift) % size := Int.emod_nonneg _ (by omega)
  have below : (address.toNat + shift) % size < size := Int.emod_lt_of_pos _ (by omega)
  have word : ((address.toNat + shift) % size).toNat < UInt64.size := by
    simp only [UInt64.size]
    omega
  rw [rotateAddress, UInt64.toNat_ofNat_of_lt' word]
  omega

/-- Adding the same number to corresponding addresses, as long as both sums fit the word. -/
theorem Shifted.add
    {size : Nat}
    {shift : Int}
    {left right distance : Int64}
    (shifted : Shifted size shift left right)
    (leftFits : (left + distance).toInt = left.toInt + distance.toInt)
    (rightFits : (right + distance).toInt = right.toInt + distance.toInt) :
    Shifted size shift (left + distance) (right + distance) := by
  unfold Shifted at *
  rw [leftFits, rightFits, ← Int.emod_add_emod, shifted, Int.emod_add_emod]
  congr 1
  omega

namespace Core

@[simp]
theorem size_rotate (core : Core) (shift : Int) :
    (core.rotate shift).cells.size = core.cells.size := by
  simp [rotate]

variable {core : Core} (addressable : core.Addressable) (shift : Int)

include addressable

theorem addressable_rotate : (core.rotate shift).Addressable := by
  refine ⟨?_, ?_⟩
  · rw [size_rotate]
    exact addressable.positive
  · rw [size_rotate]
    exact addressable.small

/-- The cell at an address of the rotated core stood `shift` cells before. -/
theorem cellAt_rotate (address : Int) :
    (core.rotate shift).cellAt address = core.cellAt (address - shift) := by
  have positive := addressable.positive
  have nonnegative : 0 ≤ address % core.cells.size := Int.emod_nonneg _ (by omega)
  have below : address % core.cells.size < core.cells.size := Int.emod_lt_of_pos _ (by omega)
  have index : (address % core.cells.size).toNat < (core.rotate shift).cells.size := by
    rw [size_rotate]
    omega
  rw [cellAt, size_rotate, Array.getD_eq_getD_getElem?, Array.getElem?_eq_getElem index]
  simp only [rotate, Array.getElem_ofFn, Option.getD_some]
  apply cellAt_congr
  rw [Int.toNat_of_nonneg nonnegative, Int.emod_sub_emod]

theorem inside_rotateAddress (address : UInt64) :
    core.Inside (rotateAddress core.cells.size shift address) := by
  have positive := addressable.positive
  have moved := toNat_rotateAddress addressable.positive addressable.small shift address
  have below : (address.toNat + shift) % core.cells.size < core.cells.size :=
    Int.emod_lt_of_pos _ (by omega)
  unfold Inside
  omega

/-- An address inside the core corresponds to its rotation. -/
theorem shifted_of_inside {address : UInt64} (inside : core.Inside address) :
    Shifted core.cells.size shift address.toInt64
      (rotateAddress core.cells.size shift address).toInt64 := by
  unfold Shifted
  rw [toInt_of_inside addressable (inside_rotateAddress addressable shift address),
    toNat_rotateAddress addressable.positive addressable.small shift address,
    toInt_of_inside addressable inside, Int.emod_emod]

/-- Corresponding addresses fold to corresponding ones. -/
theorem fold_rotate
    {left right : Int64}
    (shifted : Shifted core.cells.size shift left right) :
    (core.rotate shift).fold right = rotateAddress core.cells.size shift (core.fold left) := by
  have folded := toNat_fold (addressable_rotate addressable shift) right
  have moved :=
    toNat_rotateAddress addressable.positive addressable.small shift (core.fold left)
  rw [size_rotate, shifted] at folded
  rw [toNat_fold addressable left, Int.emod_add_emod] at moved
  apply UInt64.toNat_inj.mp
  omega

/-- Corresponding addresses read the same cell. -/
theorem read_rotate
    {left right : Int64}
    (shifted : Shifted core.cells.size shift left right) :
    (core.rotate shift).read right = core.read left := by
  rw [read_eq_cellAt (addressable_rotate addressable shift), read_eq_cellAt addressable,
    cellAt_rotate addressable]
  apply cellAt_congr
  rw [← Int.emod_sub_emod, shifted, Int.emod_sub_emod]
  congr 1
  omega

/-- Changing a cell commutes with rotation. -/
theorem modify_rotate
    {left right : Int64}
    (shifted : Shifted core.cells.size shift left right)
    (change : Instruction → Instruction) :
    (core.rotate shift).modify right change = (core.modify left change).rotate shift := by
  have changed : (core.modify left change).Addressable :=
    (addressable_modify core left change).mpr addressable
  apply ext_cellAt
  · simp
  · intro address
    rw [cellAt_modify (addressable_rotate addressable shift), cellAt_rotate changed,
      cellAt_modify addressable, cellAt_rotate addressable, size_rotate, shifted]
    have same : (left.toInt + shift) % core.cells.size = address % core.cells.size ↔
        left.toInt % core.cells.size = (address - shift) % core.cells.size := by
      rw [Int.emod_eq_emod_iff_emod_sub_eq_zero, Int.emod_eq_emod_iff_emod_sub_eq_zero]
      have difference : left.toInt + shift - address = left.toInt - (address - shift) := by omega
      rw [difference]
    simp only [same]

theorem fold_succ_rotate {address : UInt64} (inside : core.Inside address) :
    (core.rotate shift).fold ((rotateAddress core.cells.size shift address).toInt64 + 1) =
      rotateAddress core.cells.size shift (core.fold (address.toInt64 + 1)) := by
  apply fold_rotate addressable
  apply (shifted_of_inside addressable shift inside).add
  · exact toInt_add_one_of_inside addressable inside
  · exact toInt_add_one_of_inside addressable (inside_rotateAddress addressable shift address)

/-- Displacement from corresponding bases leads to corresponding addresses. -/
theorem displace_rotate {base : UInt64} (inside : core.Inside base) (distance : Int64) :
    (core.rotate shift).displace (rotateAddress core.cells.size shift base) distance =
      rotateAddress core.cells.size shift (core.displace base distance) := by
  have movedInside : (core.rotate shift).Inside (rotateAddress core.cells.size shift base) := by
    rw [Inside, size_rotate]
    exact inside_rotateAddress addressable shift base
  have left := toNat_displace (addressable_rotate addressable shift) movedInside distance
  have right := toNat_rotateAddress addressable.positive addressable.small shift
    (core.displace base distance)
  rw [size_rotate, toNat_rotateAddress addressable.positive addressable.small,
    Int.emod_add_emod] at left
  rw [toNat_displace addressable inside, Int.emod_add_emod] at right
  have commuted : (base.toNat : Int) + shift + distance.toInt =
      base.toNat + distance.toInt + shift := by
    omega
  rw [commuted, ← right] at left
  apply UInt64.toNat_inj.mp
  omega

end Core

/-! ## Operations -/

def Target.rotate (size : Nat) (shift : Int) (target : Target) : Target :=
  { target with address := rotateAddress size shift target.address }

theorem Core.target_rotate
    {core : Core}
    (addressable : core.Addressable)
    (shift : Int)
    {address : UInt64}
    (inside : core.Inside address) :
    (core.rotate shift).target (rotateAddress core.cells.size shift address) =
      (core.target address).rotate core.cells.size shift := by
  unfold target
  rw [read_rotate addressable shift (shifted_of_inside addressable shift inside)]
  rfl

/-- Operands are resolved to corresponding targets. -/
theorem Operand.resolve_rotate
    (operand : Operand)
    {core : Core}
    (addressable : core.Addressable)
    (shift : Int)
    {pc : UInt64}
    (inside : core.Inside pc) :
    operand.resolve (core.rotate shift) (rotateAddress core.cells.size shift pc) =
      (operand.resolve core pc).rotate core.cells.size shift := by
  have pointerInside := Core.inside_displace addressable pc operand.field
  unfold resolve
  split
  · rfl
  · rw [Core.displace_rotate addressable shift inside]
    exact Core.target_rotate addressable shift pointerInside
  · simp only [Core.displace_rotate addressable shift inside,
      Core.read_rotate addressable shift (Core.shifted_of_inside addressable shift pointerInside),
      Core.displace_rotate addressable shift pointerInside]
    exact Core.target_rotate addressable shift (Core.inside_displace addressable _ _)

namespace Execution

def rotate (execution : Execution) (shift : Int) : Execution :=
  { execution with
    core := execution.core.rotate shift
    tasks := execution.tasks.rotate execution.core.cells.size shift
    next := execution.next.map (rotateAddress execution.core.cells.size shift) }

theorem store_rotate
    {execution : Execution}
    (addressable : execution.core.Addressable)
    (shift : Int)
    {address : UInt64}
    (inside : execution.core.Inside address)
    (value : Int64) :
    (execution.rotate shift).store (rotateAddress execution.core.cells.size shift address) value =
      (execution.store address value).rotate shift := by
  have shifted := Core.shifted_of_inside addressable shift inside
  simp only [store, rotate, Core.setField, Core.modify_rotate addressable shift shifted,
    Core.size_modify]

theorem skip_rotate
    {execution : Execution}
    (addressable : execution.core.Addressable)
    (shift : Int)
    (inside : ∀ address ∈ execution.next, execution.core.Inside address) :
    (execution.rotate shift).skip = execution.skip.rotate shift := by
  cases next : execution.next with
  | none => simp [skip, rotate, next]
  | some address =>
      have moved := Core.fold_succ_rotate addressable shift (inside address next)
      simp [skip, rotate, next, moved]

theorem fork_rotate (execution : Execution) (shift : Int) (maxTasks address : UInt64) :
    (execution.rotate shift).fork maxTasks (rotateAddress execution.core.cells.size shift address) =
      (execution.fork maxTasks address).rotate shift := by
  have length : (execution.rotate shift).tasks.length = execution.tasks.length := by
    simp [rotate, TaskQueue.rotate, TaskQueue.length]
  unfold fork
  rw [length]
  split
  · simp [rotate, TaskQueue.rotate, TaskQueue.enqueue]
  · rfl

end Execution

/-- An operation on corresponding targets does the corresponding thing. -/
theorem Operation.execute_rotate
    (operation : Operation)
    {a b : Target}
    (maxTasks : UInt64)
    (before : Execution)
    (addressable : before.core.Addressable)
    (shift : Int)
    (aInside : before.core.Inside a.address)
    (bInside : before.core.Inside b.address)
    (nextInside : ∀ address ∈ before.next, before.core.Inside address) :
    operation.execute (a.rotate before.core.cells.size shift)
        (b.rotate before.core.cells.size shift) maxTasks (before.rotate shift) =
      (operation.execute a b maxTasks before).rotate shift := by
  have stored := Execution.store_rotate addressable shift bInside
  have aShifted := Core.shifted_of_inside addressable shift aInside
  have bShifted := Core.shifted_of_inside addressable shift bInside
  cases operation with
  | dat => rfl
  | mov => exact stored _
  | add => exact stored _
  | sub => exact stored _
  | mul => exact stored _
  | div =>
      by_cases zero : a.value = 0
      · simp only [execute, Target.rotate, zero, ↓reduceIte]
        rfl
      · simp only [execute, Target.rotate, zero, ↓reduceIte]
        exact stored _
  | mod =>
      by_cases zero : a.value = 0
      · simp only [execute, Target.rotate, zero, ↓reduceIte]
        rfl
      · simp only [execute, Target.rotate, zero, ↓reduceIte]
        exact stored _
  | jmp => rfl
  | jmz =>
      by_cases zero : a.value = 0
      · simp only [execute, Target.rotate, zero, ↓reduceIte]
        rfl
      · simp only [execute, Target.rotate, zero, ↓reduceIte]
  | cmp =>
      by_cases equal : a.value = b.value
      · simp only [execute, Target.rotate, equal, ↓reduceIte]
        exact Execution.skip_rotate addressable shift nextInside
      · simp only [execute, Target.rotate, equal, ↓reduceIte]
  | frk => exact Execution.fork_rotate before shift maxTasks a.address
  | clr =>
      simp only [execute, Execution.rotate, Target.rotate, Core.clear, Core.write,
        Core.modify_rotate addressable shift aShifted, Core.size_modify]
  | cpy =>
      simp only [execute, Execution.rotate, Target.rotate, Core.write,
        Core.read_rotate addressable shift aShifted,
        Core.modify_rotate addressable shift bShifted, Core.size_modify]

/-! ## Turns and rounds -/

theorem TaskQueue.dequeue?_rotate (size : Nat) (shift : Int) (tasks : TaskQueue) :
    (tasks.rotate size shift).dequeue? =
      tasks.dequeue?.map fun pair =>
        (rotateAddress size shift pair.1, pair.2.rotate size shift) := by
  cases queue : tasks.waiting with
  | nil => simp [dequeue?, rotate, queue]
  | cons first rest => simp [dequeue?, rotate, queue]

@[simp]
theorem Warrior.isAlive_rotate (size : Nat) (shift : Int) (warrior : Warrior) :
    (warrior.rotate size shift).isAlive = warrior.isAlive := by
  simp [rotate, isAlive, TaskQueue.rotate, TaskQueue.isEmpty]

namespace Battle

def Turn.rotate (played : Turn) (shift : Int) : Turn :=
  ⟨played.core.rotate shift, played.warrior.rotate played.core.cells.size shift,
    played.events.map (Event.rotate played.core.cells.size shift)⟩

def Turns.rotate (played : Turns) (shift : Int) : Turns :=
  ⟨played.core.rotate shift, played.survivors.map (Warrior.rotate played.core.cells.size shift),
    played.events.map (Event.rotate played.core.cells.size shift)⟩

theorem executeAt_rotate
    {core : Core}
    (addressable : core.Addressable)
    (shift : Int)
    (maxTasks : UInt64)
    {address : UInt64}
    (inside : core.Inside address)
    (waiting : TaskQueue) :
    executeAt maxTasks (core.rotate shift) (rotateAddress core.cells.size shift address)
        (waiting.rotate core.cells.size shift) =
      (executeAt maxTasks core address waiting).rotate shift := by
  unfold executeAt
  rw [Core.read_rotate addressable shift (Core.shifted_of_inside addressable shift inside)]
  simp only [Operand.resolve_rotate _ addressable shift inside,
    Core.fold_succ_rotate addressable shift inside]
  have nextInside : ∀ next ∈ some (core.fold (address.toInt64 + 1)), core.Inside next := by
    intro next member
    rw [← Option.mem_some.mp member]
    exact Core.inside_fold addressable _
  exact Operation.execute_rotate _ maxTasks
    ⟨core, waiting, some (core.fold (address.toInt64 + 1)), none⟩ addressable shift
    (Operand.inside_resolve _ addressable inside) (Operand.inside_resolve _ addressable inside)
    nextInside

theorem requeue_rotate (shift : Int) (execution : Execution) :
    requeue (execution.rotate shift) =
      (requeue execution).rotate execution.core.cells.size shift := by
  cases next : execution.next with
  | none => simp [requeue, Execution.rotate, next]
  | some address =>
      simp [requeue, Execution.rotate, TaskQueue.rotate, TaskQueue.enqueue, next]

theorem turnEvents_rotate
    (size : Nat)
    (shift : Int)
    (name : String)
    (address : UInt64)
    (instruction : Instruction)
    (fault : Option Fault) :
    turnEvents name (rotateAddress size shift address) instruction fault =
      (turnEvents name address instruction fault).map (Event.rotate size shift) := by
  cases fault with
  | none => rfl
  | some fault => rfl

theorem concludeTurn_rotate
    (shift : Int)
    (warrior : Warrior)
    (address : UInt64)
    (instruction : Instruction)
    (execution : Execution) :
    concludeTurn (warrior.rotate execution.core.cells.size shift)
        (rotateAddress execution.core.cells.size shift address) instruction
        (execution.rotate shift) =
      (concludeTurn warrior address instruction execution).rotate shift := by
  unfold concludeTurn
  rw [requeue_rotate, turnEvents_rotate]
  rfl

/-- A turn commutes with rotation. -/
theorem turn_rotate
    {core : Core}
    (addressable : core.Addressable)
    (shift : Int)
    (maxTasks : UInt64)
    {warrior : Warrior}
    (below : warrior.Below core.cells.size) :
    turn maxTasks (core.rotate shift) (warrior.rotate core.cells.size shift) =
      (turn maxTasks core warrior).rotate shift := by
  have moved : (warrior.rotate core.cells.size shift).tasks.dequeue? = _ :=
    TaskQueue.dequeue?_rotate core.cells.size shift warrior.tasks
  cases dequeued : warrior.tasks.dequeue? with
  | none =>
      rw [dequeued] at moved
      rw [turn_of_idle maxTasks core dequeued, turn_of_idle maxTasks _ moved]
      rfl
  | some pair =>
      obtain ⟨address, waiting⟩ := pair
      obtain ⟨inside, waitingBelow⟩ := TaskQueue.below_of_dequeue? below.tasks dequeued
      have cells := (below_executeAt addressable maxTasks inside waitingBelow).cells
      have same := Core.read_rotate addressable shift
        (Core.shifted_of_inside addressable shift inside)
      rw [dequeued] at moved
      rw [turn_of_dequeue? maxTasks core dequeued, turn_of_dequeue? maxTasks _ moved, same,
        executeAt_rotate addressable shift maxTasks inside, ← concludeTurn_rotate, cells]

theorem Turn.survivor_rotate (shift : Int) (played : Turn) :
    (played.rotate shift).survivor =
      played.survivor.map (Warrior.rotate played.core.cells.size shift) := by
  simp only [survivor, rotate, Warrior.isAlive_rotate]
  split
  · rfl
  · rfl

theorem Turn.obituary_rotate (shift : Int) (played : Turn) :
    (played.rotate shift).obituary =
      played.obituary.map (Event.rotate played.core.cells.size shift) := by
  simp only [obituary, rotate, Warrior.isAlive_rotate]
  split
  · rfl
  · rfl

/-- The turns of a round commute with rotation. -/
theorem turns_rotate
    {core : Core}
    (addressable : core.Addressable)
    (shift : Int)
    (maxTasks : UInt64)
    {roster : List Warrior}
    (below : ∀ warrior ∈ roster, warrior.Below core.cells.size) :
    turns maxTasks (core.rotate shift) (roster.map (Warrior.rotate core.cells.size shift)) =
      (turns maxTasks core roster).rotate shift := by
  induction roster generalizing core with
  | nil => rfl
  | cons warrior rest inductionHypothesis =>
      have firstBelow := below warrior List.mem_cons_self
      have restBelow : ∀ other ∈ rest, other.Below core.cells.size := fun other member =>
        below other (List.mem_cons_of_mem warrior member)
      obtain ⟨firstCells, _, _⟩ := below_turn maxTasks addressable firstBelow
      have firstAddressable : (turn maxTasks core warrior).core.Addressable :=
        addressable.of_size firstCells
      have laterCells := (below_turns maxTasks firstAddressable firstCells restBelow).1
      have later := inductionHypothesis firstAddressable (firstCells.symm ▸ restBelow)
      rw [firstCells] at later
      rw [List.map_cons, turns_cons, turns_cons, turn_rotate addressable shift maxTasks firstBelow,
        Turn.survivor_rotate, Turn.obituary_rotate]
      simp only [Turn.rotate, later, firstCells]
      simp only [Turns.rotate, laterCells, List.map_append]

/-- The verdict looks at names only, which a rotation keeps. -/
theorem verdict_rotate
    (shift : Int)
    (limits : Limits)
    (cycles : UInt64)
    (size : Nat)
    (survivors : List Warrior) :
    verdict limits cycles (survivors.map (Warrior.rotate size shift)) =
      verdict limits cycles survivors := by
  match survivors with
  | [] => rfl
  | [_] => rfl
  | _ :: _ :: _ => rfl

theorem announcement_rotate (size : Nat) (shift : Int) (status : Status) (cycles : UInt64) :
    (status.announcement cycles).map (Event.rotate size shift) = status.announcement cycles := by
  cases status with
  | running => rfl
  | won warrior => rfl
  | tie => rfl

/-- A round commutes with rotation, and shows the rotated events. -/
theorem round_rotate
    {battle : Battle}
    (addressable : battle.core.Addressable)
    (shift : Int)
    (below : ∀ warrior ∈ battle.roster, warrior.Below battle.core.cells.size) :
    (battle.rotate shift).round =
      (battle.round.1.rotate shift,
        battle.round.2.map (Event.rotate battle.core.cells.size shift)) := by
  by_cases running : battle.status = .running
  · have rotatedRunning : (battle.rotate shift).status = .running := running
    have cells := (below_turns battle.limits.maxTasks addressable rfl below).1
    have played : turns (battle.rotate shift).limits.maxTasks (battle.rotate shift).core
        (battle.rotate shift).roster = _ :=
      turns_rotate addressable shift battle.limits.maxTasks below
    rw [round_of_running _ rotatedRunning, round_of_running battle running, played]
    simp only [Turns.rotate, rotate, cells, verdict_rotate, List.map_append, announcement_rotate]
  · have rotatedEnded : (battle.rotate shift).status ≠ .running := running
    rw [round_of_ended _ rotatedEnded, round_of_ended battle running]
    rfl

end Battle

/-! ## Placing -/

/-- Loading a program at corresponding places commutes with rotation, as long as both stretches of
addresses fit the word. -/
theorem Core.loadFrom_rotate
    {core : Core}
    (addressable : core.Addressable)
    (shift : Int)
    (program : List Instruction)
    {left right : Int64}
    (shifted : Shifted core.cells.size shift left right)
    (leftFits : left.toInt + program.length < 0x8000000000000000)
    (rightFits : right.toInt + program.length < 0x8000000000000000) :
    (core.rotate shift).loadFrom right program = (core.loadFrom left program).rotate shift := by
  induction program generalizing core left right with
  | nil => rfl
  | cons instruction rest inductionHypothesis =>
      have succeeds : ∀ address : Int64, address.toInt + (rest.length + 1) < 0x8000000000000000 →
          (address + 1).toInt = address.toInt + (1 : Int64).toInt := by
        intro address fits
        have atLeast := address.le_toInt
        apply toInt_add_of_fits
        · rw [Int64.toInt_one]
          omega
        · rw [Int64.toInt_one]
          omega
      rw [List.length_cons] at leftFits rightFits
      have leftSucceeds := succeeds left (by omega)
      have rightSucceeds := succeeds right (by omega)
      rw [loadFrom, loadFrom, write, write, modify_rotate addressable shift shifted]
      apply inductionHypothesis
      · exact (addressable_modify _ _ _).mpr addressable
      · rw [size_modify]
        exact shifted.add leftSucceeds rightSucceeds
      · rw [leftSucceeds, Int64.toInt_one]
        omega
      · rw [rightSucceeds, Int64.toInt_one]
        omega

namespace Battle

def Loading.rotate (loading : Loading) (shift : Int) : Loading :=
  ⟨loading.battle.rotate shift,
    loading.outcome.map (Warrior.rotate loading.battle.core.cells.size shift),
    loading.events.map (Event.rotate loading.battle.core.cells.size shift)⟩

/-- A single thread starts at the corresponding address. -/
theorem launch_rotate
    {battle : Battle}
    (addressable : battle.core.Addressable)
    (shift : Int)
    (warrior : Warrior)
    {origin offset : UInt64}
    (single : warrior.tasks = ⟨[origin]⟩)
    (originInside : battle.core.Inside origin)
    (offsetInside : battle.core.Inside offset) :
    launch (battle.core.rotate shift) warrior
        (rotateAddress battle.core.cells.size shift offset) =
      (launch battle.core warrior offset).rotate battle.core.cells.size shift := by
  have movedInside := Core.inside_rotateAddress addressable shift offset
  have shifted : Shifted battle.core.cells.size shift (origin.toInt64 + offset.toInt64)
      (origin.toInt64 + (rotateAddress battle.core.cells.size shift offset).toInt64) := by
    rw [Int64.add_comm origin.toInt64, Int64.add_comm origin.toInt64]
    apply (Core.shifted_of_inside addressable shift offsetInside).add
    · rw [Core.toInt_add_of_inside addressable offsetInside originInside,
        Core.toInt_of_inside addressable offsetInside,
        Core.toInt_of_inside addressable originInside]
    · rw [Core.toInt_add_of_inside addressable movedInside originInside,
        Core.toInt_of_inside addressable movedInside, Core.toInt_of_inside addressable originInside]
  have start := Core.fold_rotate addressable shift shifted
  simp only [launch, single, TaskQueue.dequeue?, Option.getD_some, start]
  rfl

/-- Placing a warrior with a single thread commutes with rotation. -/
theorem place_rotate
    {battle : Battle}
    (addressable : battle.core.Addressable)
    (shift : Int)
    (warrior : Warrior)
    {origin offset : UInt64}
    (bounded : battle.limits.maxLength.toNat ≤ battle.core.cells.size)
    (single : warrior.tasks = ⟨[origin]⟩)
    (originInside : battle.core.Inside origin)
    (offsetInside : battle.core.Inside offset) :
    (battle.rotate shift).place warrior (rotateAddress battle.core.cells.size shift offset) =
      (battle.place warrior offset).rotate shift := by
  have small := addressable.small
  have movedInside := Core.inside_rotateAddress addressable shift offset
  by_cases short : warrior.program.length < battle.limits.maxLength.toNat
  · have rotatedShort :
        warrior.program.length < (battle.rotate shift).limits.maxLength.toNat := short
    have offsetInt := Core.toInt_of_inside addressable offsetInside
    have movedInt := Core.toInt_of_inside addressable movedInside
    have loaded : (battle.core.rotate shift).load
        (rotateAddress battle.core.cells.size shift offset) warrior.program =
          (battle.core.load offset warrior.program).rotate shift := by
      unfold Core.Inside at offsetInside movedInside
      apply Core.loadFrom_rotate addressable
      · exact Core.shifted_of_inside addressable shift offsetInside
      · rw [offsetInt]
        omega
      · rw [movedInt]
        omega
    have cells : (battle.core.load offset warrior.program).cells.size = battle.core.cells.size :=
      Core.size_loadFrom _ _ _
    have launched := launch_rotate addressable shift (battle.numbered warrior) single
      originInside offsetInside
    have numbered : (battle.rotate shift).numbered warrior = battle.numbered warrior := rfl
    rw [place_of_short _ _ _ rotatedShort, place_of_short _ _ _ short, numbered]
    simp only [Loading.rotate, enlist, numbered, cells]
    simp only [rotate, loaded, launched, cells, List.map_append, Except.map]
    rfl
  · have rotatedLong :
        (battle.rotate shift).limits.maxLength.toNat ≤ warrior.program.length :=
      Nat.not_lt.mp short
    rw [place_of_long _ _ _ rotatedLong, place_of_long _ _ _ (Nat.not_lt.mp short)]
    rfl

end Battle

/-! ## Histories -/

/-- The command with the place of a warrior moved. -/
def Command.rotate (size : Nat) (shift : Int) : Command → Command
  | .place warrior offset => .place warrior (rotateAddress size shift offset)
  | command => command

/-- Commands that leave nothing to the draw: rounds, and placing assembled warriors in the core. -/
def Command.Relocatable (limits : Limits) : Command → Prop
  | .place warrior offset =>
    (∃ source, Assembly.assemble limits source = .ok warrior) ∧
      offset.toNat < limits.coreSize.toNat
  | .round => True
  | _ => False

theorem Command.admissible_of_relocatable
    {limits : Limits}
    (positive : 0 < limits.coreSize.toNat)
    (small : limits.coreSize.toNat ≤ 0x4000000000000000)
    {command : Command}
    (relocatable : command.Relocatable limits) :
    command.Admissible limits.coreSize.toNat := by
  cases command with
  | place warrior offset =>
      obtain ⟨⟨source, assembled⟩, offsetBelow⟩ := relocatable
      exact ⟨Battle.below_of_assemble positive small assembled, by omega⟩
  | load source => trivial
  | round => trivial
  | run => trivial

namespace Core

theorem cellAt_ofSize (size : UInt64) (address : Int) :
    (ofSize size).cellAt address = Instruction.cleared := by
  simp only [cellAt, ofSize, Array.getD_eq_getD_getElem?, Array.getElem?_replicate]
  split
  · rfl
  · rfl

/-- A cleared core looks the same from everywhere. -/
theorem rotate_ofSize (size : UInt64) (addressable : (ofSize size).Addressable) (shift : Int) :
    (ofSize size).rotate shift = ofSize size := by
  apply ext_cellAt
  · simp
  · intro address
    rw [cellAt_rotate addressable, cellAt_ofSize, cellAt_ofSize]

end Core

namespace Battle

/-- The matches differ at most in what the draw of the next place depends on. -/
def Alike (left right : Battle) : Prop :=
  ∃ lastStart generator, right = { left with lastStart, generator }

theorem alike_round {left right : Battle} (alike : Alike left right) :
    Alike left.round.1 right.round.1 := by
  obtain ⟨lastStart, generator, same⟩ := alike
  have status : right.status = left.status := by rw [same]
  by_cases running : left.status = .running
  · rw [round_of_running left running, round_of_running right (status.trans running), same]
    exact ⟨lastStart, generator, rfl⟩
  · rw [round_of_ended left running, round_of_ended right (status ▸ running)]
    exact ⟨lastStart, generator, same⟩

theorem alike_place
    {left right : Battle}
    (alike : Alike left right)
    (warrior : Warrior)
    (offset : UInt64) :
    Alike (left.place warrior offset).battle (right.place warrior offset).battle := by
  obtain ⟨lastStart, generator, same⟩ := alike
  have limits : right.limits = left.limits := by rw [same]
  by_cases short : warrior.program.length < left.limits.maxLength.toNat
  · rw [place_of_short left warrior offset short,
      place_of_short right warrior offset (limits ▸ short), same]
    exact ⟨_, generator, rfl⟩
  · have long := Nat.not_lt.mp short
    rw [place_of_long left warrior offset long, place_of_long right warrior offset (limits ▸ long)]
    exact ⟨lastStart, generator, same⟩

variable {limits : Limits} {left right : Battle} (shift : Int)

/-- One command keeps a match and its rotation alike. -/
theorem alike_obey
    (playable : limits.Playable)
    (small : limits.coreSize.toNat ≤ 0x4000000000000000)
    (kept : Kept limits left)
    (alike : Alike (left.rotate shift) right)
    {command : Command}
    (relocatable : command.Relocatable limits) :
    Alike ((left.obey command).1.rotate shift)
      (right.obey (command.rotate limits.coreSize.toNat shift)).1 := by
  have shorter := playable.toNat_maxLength_lt
  have cells := kept.confined.cells
  have addressable := kept.confined.addressable (by omega) small
  cases command with
  | load source => exact absurd relocatable id
  | run => exact absurd relocatable id
  | round =>
      have rotated := round_rotate addressable shift (cells.symm ▸ kept.confined.roster)
      have next := alike_round alike
      rw [rotated] at next
      exact next
  | place warrior offset =>
      obtain ⟨⟨source, assembled⟩, offsetBelow⟩ := relocatable
      have below := below_of_assemble (by omega) small assembled
      obtain ⟨name, entry, program, rfl⟩ := Assembly.exists_single_of_assemble assembled
      rw [← cells] at below offsetBelow
      have bounded : left.limits.maxLength.toNat ≤ left.core.cells.size := by
        rw [kept.paced.limits_eq, cells]
        omega
      have rotated := place_rotate addressable shift
        (.single name (fold entry limits.coreSize) program) bounded rfl
        (below _ List.mem_cons_self) offsetBelow
      have next := alike_place alike (.single name (fold entry limits.coreSize) program)
        (rotateAddress left.core.cells.size shift offset)
      rw [rotated, cells] at next
      exact next

/-- A history and its rotation keep two matches alike. -/
theorem alike_follow
    (playable : limits.Playable)
    (small : limits.coreSize.toNat ≤ 0x4000000000000000)
    (commands : List Command)
    (relocatable : ∀ command ∈ commands, command.Relocatable limits)
    (kept : Kept limits left)
    (alike : Alike (left.rotate shift) right) :
    Alike ((left.follow commands).1.rotate shift)
      (right.follow (commands.map (Command.rotate limits.coreSize.toNat shift))).1 := by
  induction commands generalizing left right with
  | nil => exact alike
  | cons command rest inductionHypothesis =>
      have shorter := playable.toNat_maxLength_lt
      have now := relocatable command List.mem_cons_self
      apply inductionHypothesis
      · intro other member
        exact relocatable other (List.mem_cons_of_mem command member)
      · exact (kept_obey (by omega) small kept
          (Command.admissible_of_relocatable (by omega) small now)).1
      · exact alike_obey shift playable small kept alike now

/-- Two fresh matches are alike however the core of one is turned. -/
theorem alike_create
    (small : limits.coreSize.toNat ≤ 0x4000000000000000)
    {leftGenerator rightGenerator : Generator}
    (leftCreated : create limits leftGenerator = .ok left)
    (rightCreated : create limits rightGenerator = .ok right) :
    Alike (left.rotate shift) right := by
  have kept := kept_create leftCreated
  obtain ⟨playable, rfl⟩ := (create_eq_ok_iff _ _ _).mp leftCreated
  obtain ⟨_, rfl⟩ := (create_eq_ok_iff _ _ _).mp rightCreated
  have shorter := playable.toNat_maxLength_lt
  have cleared : (Core.ofSize limits.coreSize).rotate shift = Core.ofSize limits.coreSize :=
    Core.rotate_ofSize limits.coreSize (kept.confined.addressable (by omega) small) shift
  refine ⟨0, rightGenerator, ?_⟩
  simp only [rotate, cleared, List.map_nil]

/-- A match commutes with the rotation of its core: a round of the rotated match is the rotated
round, with the same answer and the rotated events; placing a warrior with a single thread at the
moved place is the rotated placement; so two fresh matches in which the same assembled warriors are
placed a fixed distance apart show, however many rounds are played, the same course. The length of a
warrior is bounded by the core in every match that can be created. -/
theorem commutes_with_rotation (shift : Int) :
    (∀ battle : Battle,
      battle.core.Addressable →
      (∀ warrior ∈ battle.roster, warrior.Below battle.core.cells.size) →
      (battle.rotate shift).round =
          (battle.round.1.rotate shift,
            battle.round.2.map (Event.rotate battle.core.cells.size shift)) ∧
        ((battle.rotate shift).advance 1).more = (battle.advance 1).more) ∧
    (∀ (battle : Battle) (warrior : Warrior) (origin offset : UInt64),
      battle.core.Addressable →
      battle.limits.maxLength.toNat ≤ battle.core.cells.size →
      warrior.tasks = ⟨[origin]⟩ →
      origin.toNat < battle.core.cells.size →
      offset.toNat < battle.core.cells.size →
      (battle.rotate shift).place warrior (rotateAddress battle.core.cells.size shift offset) =
        (battle.place warrior offset).rotate shift) ∧
    (∀ (limits : Limits) (leftGenerator rightGenerator : Generator) (left right : Battle)
        (commands : List Command),
      limits.coreSize.toNat ≤ 0x4000000000000000 →
      create limits leftGenerator = .ok left →
      create limits rightGenerator = .ok right →
      (∀ command ∈ commands, command.Relocatable limits) →
      let first := (left.follow commands).1
      let second := (right.follow
        (commands.map (Command.rotate limits.coreSize.toNat shift))).1
      second.status = first.status ∧
        second.cycles = first.cycles ∧
        second.roster.map Warrior.name = first.roster.map Warrior.name ∧
        second.roster.map (fun warrior => warrior.tasks.length) =
          first.roster.map (fun warrior => warrior.tasks.length) ∧
        second.core = first.core.rotate shift) := by
  refine ⟨?_, ?_, ?_⟩
  · intro battle addressable below
    have rotated := round_rotate addressable shift below
    refine ⟨rotated, ?_⟩
    rw [Bool.eq_iff_iff, more_advance_one, more_advance_one, rotated]
    rfl
  · intro battle warrior origin offset addressable bounded single originBelow offsetBelow
    exact place_rotate addressable shift warrior bounded single originBelow offsetBelow
  · intro limits leftGenerator rightGenerator left right commands small leftCreated rightCreated
      relocatable first second
    have playable := ((create_eq_ok_iff _ _ _).mp leftCreated).1
    obtain ⟨lastStart, generator, same⟩ : Alike (first.rotate shift) second :=
      alike_follow shift playable small commands relocatable (kept_create leftCreated)
        (alike_create shift small leftCreated rightCreated)
    rw [same]
    refine ⟨rfl, rfl, ?_, ?_, rfl⟩
    · simp only [rotate, List.map_map]
      rfl
    · simp only [rotate, List.map_map, Function.comp_def, Warrior.rotate, TaskQueue.rotate,
        TaskQueue.length, List.length_map]

/-- A warrior that copies itself to the next cell, in a core of eight cells turned by six: a round
at the end of the core, a placement across it, and two matches. -/
theorem commutes_with_rotation_copier :
    let limits : Limits := ⟨8, 9, 4, 2⟩
    let copier : Warrior := .single "imp" 0 [⟨.cpy, ⟨.direct, 0⟩, ⟨.direct, 1⟩⟩]
    let fresh : Battle := { limits, core := .ofSize 8, generator := ⟨1, 2, 3, 4⟩ }
    let battle := { fresh with roster := [.single "imp" 7 copier.program] }
    let commands : List Command := [.place copier 7, .place copier 3, .round, .round]
    let moved : List Command := [.place copier 5, .place copier 1, .round, .round]
    ((battle.rotate 6).round =
        (battle.round.1.rotate 6, battle.round.2.map (Event.rotate 8 6)) ∧
      ((battle.rotate 6).advance 1).more = (battle.advance 1).more) ∧
    (battle.rotate 6).place copier 5 = (battle.place copier 7).rotate 6 ∧
    Assembly.assemble limits "; redcode\n; name imp\n; assert 1\nCPY 0, 1\n" = .ok copier ∧
    (fresh.follow moved).1.status = (fresh.follow commands).1.status ∧
    (fresh.follow moved).1.core = (fresh.follow commands).1.core.rotate 6 := by
  intro limits copier fresh battle commands moved
  obtain ⟨rounds, placements, histories⟩ := commutes_with_rotation 6
  have created : create limits ⟨1, 2, 3, 4⟩ = .ok fresh :=
    (create_eq_ok_iff _ _ _).mpr ⟨by decide, rfl⟩
  have addressable : battle.core.Addressable := ⟨by decide, by decide⟩
  have below : ∀ warrior ∈ battle.roster, warrior.Below battle.core.cells.size := by
    intro warrior member
    rw [List.mem_singleton.mp member]
    refine ⟨by decide, ?_⟩
    intro address queued
    rw [List.mem_singleton.mp queued]
    decide
  have assembled :
      Assembly.assemble limits "; redcode\n; name imp\n; assert 1\nCPY 0, 1\n" = .ok copier := by
    refine (Assembly.assemble_eq_ok_iff _ _ _).mpr
      ⟨by decide, "imp", ⟨[], #[⟨4, .cpy, ⟨.direct, some (.number 0)⟩,
        ⟨.direct, some (.number 1)⟩⟩], none⟩, copier.program, 0, 0, ?_, ?_, rfl, rfl, rfl, rfl⟩
    · exact Assembly.approve_of_holds_one limits "imp"
    · rfl
  have relocatable : ∀ command ∈ commands, command.Relocatable limits := by
    simp only [commands, List.forall_mem_cons]
    exact ⟨⟨⟨_, assembled⟩, by decide⟩, ⟨⟨_, assembled⟩, by decide⟩, trivial, trivial, by simp⟩
  have turned : commands.map (Command.rotate limits.coreSize.toNat 6) = moved := by decide +kernel
  have course := histories limits ⟨1, 2, 3, 4⟩ ⟨1, 2, 3, 4⟩ fresh fresh commands (by decide)
    created created relocatable
  rw [turned] at course
  have place : rotateAddress battle.core.cells.size 6 7 = 5 := by decide +kernel
  have placed := placements battle copier 0 7 addressable (by decide) rfl (by decide) (by decide)
  rw [place] at placed
  exact ⟨rounds battle addressable below, placed, assembled, course.1, course.2.2.2.2⟩

end Battle

end CoreWar
