import CoreWar.Proofs.Loading

/-!
Contract: where a placed warrior starts, in a core that keeps its size.

Owns:
- the start of a warrior with a single thread;
- the size of the core, which no command changes.

Does not own: the cells that a program is copied to, see `CoreWar.Proofs.Loading`, and where labels
of the program point to, see `CoreWar.Proofs.Linking`.
-/

namespace CoreWar

/-! ## Launching -/

/-- The thread of a warrior that has only one is moved by the offset, and so is its start. -/
theorem Battle.launch_of_single
    {core : Core}
    (addressable : core.Addressable)
    {warrior : Warrior}
    {origin : UInt64}
    (single : warrior.tasks.waiting = [origin])
    {offset : UInt64}
    (originSmall : origin.toNat ≤ 0x4000000000000000)
    (offsetSmall : offset.toNat < 0x4000000000000000) :
    (launch core warrior offset).tasks.waiting = [(launch core warrior offset).start] ∧
    (launch core warrior offset).start.toNat = (origin.toNat + offset.toNat) % core.cells.size := by
  have start : (launch core warrior offset).start =
      core.fold (origin.toInt64 + offset.toInt64) := by
    simp [launch, TaskQueue.dequeue?, single]
  have tasks : (launch core warrior offset).tasks.waiting =
      [core.fold (origin.toInt64 + offset.toInt64)] := by
    simp [launch, TaskQueue.dequeue?, TaskQueue.enqueue, single]
  rw [tasks, start]
  refine ⟨rfl, ?_⟩
  exact Core.toNat_fold_of_toInt addressable
    (toInt_add_toInt64 origin offset originSmall offsetSmall)

/-! ## The size of the core -/

theorem Operation.cells_execute
    (operation : Operation)
    (a b : Target)
    (maxTasks : UInt64)
    (before : Execution) :
    (operation.execute a b maxTasks before).core.cells.size = before.core.cells.size := by
  have stored (value : Int64) :
      (before.store b.address value).core.cells.size = before.core.cells.size :=
    Core.size_modify _ _ _
  cases operation with
  | dat => rfl
  | mov => exact stored _
  | add => exact stored _
  | sub => exact stored _
  | mul => exact stored _
  | div =>
      rw [execute]
      split
      · rfl
      · exact stored _
  | mod =>
      rw [execute]
      split
      · rfl
      · exact stored _
  | jmp => rfl
  | jmz =>
      rw [execute]
      split
      · rfl
      · rfl
  | cmp =>
      rw [execute]
      split
      · rfl
      · rfl
  | frk =>
      rw [execute, Execution.fork]
      split
      · rfl
      · rfl
  | clr => exact Core.size_modify _ _ _
  | cpy => exact Core.size_modify _ _ _

namespace Battle

theorem cells_turn (maxTasks : UInt64) (core : Core) (warrior : Warrior) :
    (turn maxTasks core warrior).core.cells.size = core.cells.size := by
  cases dequeued : warrior.tasks.dequeue? with
  | none => rw [turn_of_idle maxTasks core dequeued]
  | some pair =>
      rw [turn_of_dequeue? maxTasks core dequeued]
      exact Operation.cells_execute _ _ _ _ _

theorem cells_turns (maxTasks : UInt64) (core : Core) (roster : List Warrior) :
    (turns maxTasks core roster).core.cells.size = core.cells.size := by
  induction roster generalizing core with
  | nil => rfl
  | cons warrior rest inductionHypothesis =>
      rw [turns_cons]
      show (turns maxTasks (turn maxTasks core warrior).core rest).core.cells.size = _
      rw [inductionHypothesis, cells_turn]

theorem cells_round (battle : Battle) :
    battle.round.1.core.cells.size = battle.core.cells.size := by
  by_cases running : battle.status = .running
  · rw [round_of_running battle running]
    exact cells_turns _ _ _
  · rw [round_of_ended battle running]

theorem cells_place (battle : Battle) (warrior : Warrior) (offset : UInt64) :
    (battle.place warrior offset).battle.core.cells.size = battle.core.cells.size := by
  by_cases short : warrior.program.length < battle.limits.maxLength.toNat
  · rw [place_of_short battle warrior offset short]
    exact Core.size_loadFrom _ _ _
  · rw [place_of_long battle warrior offset (Nat.not_lt.mp short)]
    rfl

theorem cells_load (battle : Battle) (source : String) :
    (battle.load source).battle.core.cells.size = battle.core.cells.size := by
  rw [load_eq]
  cases Assembly.assemble battle.limits source with
  | ok warrior => exact cells_place battle.drawOffset.2 warrior battle.drawOffset.1
  | error error => rfl

/-- A match under these limits that keeps its pace, in a core of the size they give. -/
structure Sized (limits : Limits) (battle : Battle) : Prop where
  paced : Paced limits battle
  cells : battle.core.cells.size = limits.coreSize.toNat

theorem sized_round {limits : Limits} {battle : Battle} (sized : Sized limits battle) :
    Sized limits battle.round.1 :=
  ⟨paced_round sized.paced, (cells_round battle).trans sized.cells⟩

theorem sized_obey
    {limits : Limits}
    {battle : Battle}
    (sized : Sized limits battle)
    (command : Command) :
    Sized limits (battle.obey command).1 := by
  refine ⟨paced_obey sized.paced command, ?_⟩
  cases command with
  | load source => exact (cells_load battle source).trans sized.cells
  | place warrior offset => exact (cells_place battle warrior offset).trans sized.cells
  | round => exact (cells_round battle).trans sized.cells
  | run =>
      have played := (run_keeps (Sized limits) (fun _ => True)
        (fun _ before => ⟨sized_round before, fun _ _ => trivial⟩) battle sized).1
      exact played.cells

/-- Every history keeps the limits and the size of the core, whatever the commands are. -/
theorem sized_follow
    {limits : Limits}
    {generator : Generator}
    {fresh : Battle}
    (created : create limits generator = .ok fresh)
    (commands : List Command) :
    Sized limits (fresh.follow commands).1 := by
  have initially : Sized limits fresh :=
    ⟨paced_create created, (kept_create created).confined.cells⟩
  exact (follow_keeps (Sized limits) (fun _ => True) (fun _ => True)
    (fun _ command _ before => ⟨sized_obey before command, fun _ _ => trivial⟩) fresh commands
    (fun _ _ => trivial) initially).1

end Battle

end CoreWar
