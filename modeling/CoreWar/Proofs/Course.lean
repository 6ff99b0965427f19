import CoreWar.Proofs.Confinement

/-!
Contract: the course of a turn.

Owns:
- which threads end, fault or fork, by the instruction that they fetch;
- what a turn makes of the queue of its warrior: the next thread leaves it, and none, one or two
  come in behind the others;
- the events of a turn.

Does not own: whose turn it is, see `CoreWar.Proofs.Register`.
-/

namespace CoreWar

/-! ## Operations -/

/-- The fault of an operation that is given a zero to divide by. -/
def Operation.zeroFault : Operation → Fault
  | .div => .divisionByZero
  | _ => .moduloByZero

/-- What an operation makes of the thread that runs it and of the others, which are waiting. -/
inductive Operation.Effect
    (operation : Operation)
    (a : Target)
    (maxTasks : UInt64)
    (waiting : TaskQueue) :
    Execution → Prop where
  | stopped (core : Core)
      (isData : operation = .dat) :
      Effect operation a maxTasks waiting ⟨core, waiting, none, none⟩
  | aborted (core : Core)
      (divides : operation = .div ∨ operation = .mod)
      (zero : a.value = 0) :
      Effect operation a maxTasks waiting ⟨core, waiting, none, some operation.zeroFault⟩
  | forked (core : Core) (child next : UInt64)
      (isFork : operation = .frk)
      (room : waiting.length + 2 ≤ maxTasks.toNat) :
      Effect operation a maxTasks waiting ⟨core, waiting.enqueue child, some next, none⟩
  | continued (core : Core) (next : UInt64)
      (notData : operation ≠ .dat)
      (noFault : operation = .div ∨ operation = .mod → a.value ≠ 0)
      (noFork : operation = .frk → maxTasks.toNat < waiting.length + 2) :
      Effect operation a maxTasks waiting ⟨core, waiting, some next, none⟩

/-- An operation that can neither end its thread nor start another one. -/
theorem Operation.Effect.plain
    {operation : Operation}
    {a : Target}
    {maxTasks : UInt64}
    {waiting : TaskQueue}
    (core : Core)
    (next : UInt64)
    (isPlain : operation ∉ [Operation.dat, .div, .mod, .frk]) :
    operation.Effect a maxTasks waiting ⟨core, waiting, some next, none⟩ := by
  simp only [List.mem_cons, List.not_mem_nil, or_false, not_or] at isPlain
  obtain ⟨notData, notDiv, notMod, notFork⟩ := isPlain
  refine .continued core next notData ?_ fun isFork => absurd isFork notFork
  exact fun divides => absurd divides (not_or.mpr ⟨notDiv, notMod⟩)

theorem Operation.effect_execute
    (operation : Operation)
    (a b : Target)
    (maxTasks : UInt64)
    (core : Core)
    (waiting : TaskQueue)
    (next : UInt64) :
    operation.Effect a maxTasks waiting
      (operation.execute a b maxTasks ⟨core, waiting, some next, none⟩) := by
  cases operation with
  | dat => exact .stopped _ rfl
  | mov => exact .plain _ _ (by decide)
  | add => exact .plain _ _ (by decide)
  | sub => exact .plain _ _ (by decide)
  | mul => exact .plain _ _ (by decide)
  | div =>
      simp only [execute]
      split
      · rename_i zero
        exact .aborted _ (Or.inl rfl) zero
      · rename_i notZero
        exact .continued _ _ (by decide) (fun _ => notZero)
          fun isFork => absurd isFork (by decide)
  | mod =>
      simp only [execute]
      split
      · rename_i zero
        exact .aborted _ (Or.inr rfl) zero
      · rename_i notZero
        exact .continued _ _ (by decide) (fun _ => notZero)
          fun isFork => absurd isFork (by decide)
  | jmp => exact .plain _ _ (by decide)
  | jmz =>
      simp only [execute]
      split
      · exact .plain _ _ (by decide)
      · exact .plain _ _ (by decide)
  | cmp =>
      simp only [execute]
      split
      · exact .plain _ _ (by decide)
      · exact .plain _ _ (by decide)
  | frk =>
      simp only [execute, Execution.fork]
      split
      · rename_i room
        exact .forked _ _ _ rfl room
      · rename_i noRoom
        exact .continued _ _ (by decide) (fun divides => absurd divides (by decide))
          fun _ => Nat.not_le.mp noRoom
  | clr => exact .plain _ _ (by decide)
  | cpy => exact .plain _ _ (by decide)

/-! ## Threads -/

namespace Core

/-- The thread at an address is about to divide, or to take a remainder, by zero. -/
def FaultsAt (core : Core) (address : UInt64) : Prop :=
  ((core.read address.toInt64).operation = .div ∨ (core.read address.toInt64).operation = .mod) ∧
    ((core.read address.toInt64).a.resolve core address).value = 0

instance (core : Core) (address : UInt64) : Decidable (core.FaultsAt address) := by
  unfold FaultsAt
  infer_instance

/-- The thread at an address ends in its next turn. -/
def EndsAt (core : Core) (address : UInt64) : Prop :=
  (core.read address.toInt64).operation = .dat ∨ core.FaultsAt address

instance (core : Core) (address : UInt64) : Decidable (core.EndsAt address) := by
  unfold EndsAt
  infer_instance

/-- The thread at an address is about to start another one. -/
def ForksAt (core : Core) (address : UInt64) : Prop :=
  (core.read address.toInt64).operation = .frk

instance (core : Core) (address : UInt64) : Decidable (core.ForksAt address) := by
  unfold ForksAt
  infer_instance

theorem not_endsAt_of_forksAt {core : Core} {address : UInt64} (forks : core.ForksAt address) :
    ¬core.EndsAt address := by
  unfold ForksAt at forks
  simp [EndsAt, FaultsAt, forks]

end Core

namespace Battle

/-- How the turn of the thread at an address goes, by the threads that it adds to the queue, while
a number of others wait. -/
inductive Course (maxTasks : UInt64) (core : Core) (address : UInt64) (others : Nat) :
    List UInt64 → Prop where
  | ended
      (ends : core.EndsAt address) :
      Course maxTasks core address others []
  | continued (next : UInt64)
      (goesOn : ¬core.EndsAt address)
      (noFork : core.ForksAt address → maxTasks.toNat < others + 2) :
      Course maxTasks core address others [next]
  | forked (child next : UInt64)
      (forks : core.ForksAt address)
      (room : others + 2 ≤ maxTasks.toNat) :
      Course maxTasks core address others [child, next]

/-- The fault event of a turn, if the thread faults. -/
def faultEvents (name : String) (core : Core) (address : UInt64) : List Event :=
  if core.FaultsAt address then
    [.fault name address (core.read address.toInt64).operation.zeroFault.message]
  else
    []

/-- A turn of a warrior with a thread: the thread leaves the queue, those that its course adds wait
behind the others, and the step is announced, and the fault behind it. -/
theorem turn_of_waiting
    (maxTasks : UInt64)
    (core : Core)
    {warrior : Warrior}
    {address : UInt64}
    {rest : List UInt64}
    (waiting : warrior.tasks.waiting = address :: rest) :
    ∃ added, Course maxTasks core address rest.length added ∧
      (turn maxTasks core warrior).warrior = { warrior with tasks := ⟨rest ++ added⟩ } ∧
      (turn maxTasks core warrior).events =
        .step warrior.name address (core.read address.toInt64) ::
          faultEvents warrior.name core address := by
  have dequeued : warrior.tasks.dequeue? = some (address, ⟨rest⟩) := by
    simp only [TaskQueue.dequeue?, waiting]
  rw [turn_of_dequeue? maxTasks core dequeued]
  have effect := (core.read address.toInt64).operation.effect_execute
    ((core.read address.toInt64).a.resolve core address)
    ((core.read address.toInt64).b.resolve core address) maxTasks core ⟨rest⟩
    (core.fold (address.toInt64 + 1))
  unfold executeAt
  generalize (core.read address.toInt64).operation.execute _ _ maxTasks _ = execution at effect ⊢
  cases effect with
  | stopped _ isData =>
      have noFault : ¬core.FaultsAt address := by simp [Core.FaultsAt, isData]
      refine ⟨[], .ended (Or.inl isData), ?_, ?_⟩
      · simp [concludeTurn, requeue]
      · simp [concludeTurn, turnEvents, faultEvents, noFault]
  | aborted _ divides zero =>
      have faults : core.FaultsAt address := ⟨divides, zero⟩
      refine ⟨[], .ended (Or.inr faults), ?_, ?_⟩
      · simp [concludeTurn, requeue]
      · simp [concludeTurn, turnEvents, faultEvents, faults]
  | forked _ child next isFork room =>
      have noFault : ¬core.FaultsAt address := by simp [Core.FaultsAt, isFork]
      refine ⟨[child, next], .forked child next isFork room, ?_, ?_⟩
      · simp [concludeTurn, requeue, TaskQueue.enqueue]
      · simp [concludeTurn, turnEvents, faultEvents, noFault]
  | continued _ next notData zero noFork =>
      have noFault : ¬core.FaultsAt address := fun faults => zero faults.1 faults.2
      have goesOn : ¬core.EndsAt address := fun ends => ends.elim notData noFault
      refine ⟨[next], .continued next goesOn noFork, ?_, ?_⟩
      · simp [concludeTurn, requeue, TaskQueue.enqueue]
      · simp [concludeTurn, turnEvents, faultEvents, noFault]

end Battle

end CoreWar
