import CoreWar.Proofs.Register

/-!
Contract: what a round announces, and in which order.

Owns:
- the account of a turn: the step with the instruction that stood in the cell when the turn began,
  the fault behind it, and the death;
- the events of a round, which are the accounts of its turns in the order of loading and behind them
  the winner, the tie or nothing;
- who is left after a round: those whose account tells of no death.

Does not own: how a match ends, see `CoreWar.Proofs.Ending`.
-/

namespace CoreWar.Battle

/-- What is told of a turn. The instruction is read from the core with which the turn begins. -/
def Move.account (move : Move) : List Event :=
  match move.entrant.warrior.tasks.peek? with
  | none => []
  | some address =>
    .step move.entrant.warrior.name address (move.core.read address.toInt64) ::
      (faultEvents move.entrant.warrior.name move.core address ++
        if move.played.warrior.tasks.length = 0 then [.died move.entrant.warrior.name] else [])

theorem exists_waiting_of_isAlive {warrior : Warrior} (alive : warrior.isAlive) :
    ∃ address rest, warrior.tasks.waiting = address :: rest := by
  cases waiting : warrior.tasks.waiting with
  | nil => simp [Warrior.isAlive, TaskQueue.isEmpty, waiting] at alive
  | cons address rest => exact ⟨address, rest, rfl⟩

theorem isAlive_iff_length_ne_zero (warrior : Warrior) :
    warrior.isAlive ↔ warrior.tasks.length ≠ 0 := by
  simp [Warrior.isAlive, TaskQueue.isEmpty, TaskQueue.length]

/-- The account of a turn in which there is a thread to run. -/
theorem account_of_waiting
    {move : Move}
    {address : UInt64}
    {rest : List UInt64}
    (waiting : move.entrant.warrior.tasks.waiting = address :: rest) :
    move.account =
      .step move.entrant.warrior.name address (move.core.read address.toInt64) ::
        (faultEvents move.entrant.warrior.name move.core address ++
          if move.played.warrior.tasks.length = 0 then
            [.died move.entrant.warrior.name]
          else
            []) := by
  have next : move.entrant.warrior.tasks.peek? = some address := by
    simp [TaskQueue.peek?, waiting]
  unfold Move.account
  rw [next]

/-- The account of a turn is what the turn announces. -/
theorem events_eq_account {move : Move} (alive : move.entrant.warrior.isAlive) :
    move.events = move.account := by
  obtain ⟨address, rest, waiting⟩ := exists_waiting_of_isAlive alive
  obtain ⟨added, _, _, events⟩ := turn_of_waiting move.maxTasks move.core waiting
  have obituary : move.played.obituary =
      if move.played.warrior.tasks.length = 0 then [.died move.entrant.warrior.name] else [] := by
    unfold Turn.obituary
    rw [show move.played.warrior.name = move.entrant.warrior.name from name_turn _ _ _]
    by_cases dead : move.played.warrior.tasks.length = 0
    · have gone := mt (isAlive_iff_length_ne_zero _).mp (not_not_intro dead)
      rw [if_neg gone, if_pos dead]
    · rw [if_pos ((isAlive_iff_length_ne_zero _).mpr dead), if_neg dead]
  unfold Move.events
  rw [obituary, account_of_waiting waiting]
  show (turn move.maxTasks move.core move.entrant.warrior).events ++ _ = _
  rw [events]
  rfl

/-- A death is told exactly of those who do not survive their turn. -/
theorem died_mem_account_iff {move : Move} (alive : move.entrant.warrior.isAlive) :
    .died move.entrant.warrior.name ∈ move.account ↔ move.survives = false := by
  obtain ⟨address, rest, waiting⟩ := exists_waiting_of_isAlive alive
  have noFault : .died move.entrant.warrior.name ∉
      faultEvents move.entrant.warrior.name move.core address := by
    unfold faultEvents
    split <;> simp
  have survives := isAlive_iff_length_ne_zero move.played.warrior
  unfold Move.survives
  rw [account_of_waiting waiting]
  by_cases dead : move.played.warrior.tasks.length = 0
  · simp [dead, Bool.eq_false_iff, survives]
  · simp [dead, noFault, survives.mpr dead]

/-- A turn changes nothing of its warrior but the threads. -/
theorem carried_identity (limits : Limits) :
    Register.Carried limits fun earlier later => ∃ tasks, later = { earlier with tasks } where
  refl warrior := ⟨warrior.tasks, rfl⟩
  trans := by
    rintro _ _ _ ⟨tasks, rfl⟩ ⟨later, rfl⟩
    exact ⟨later, rfl⟩
  turn := by
    intro core warrior alive
    obtain ⟨address, rest, waiting⟩ := exists_waiting_of_isAlive alive
    obtain ⟨added, _, same, _⟩ := turn_of_waiting limits.maxTasks core waiting
    exact ⟨⟨rest ++ added⟩, same⟩

/-- The accounts of all turns of a round, in order. -/
def accounts (battle : Battle) (entrants : List Entrant) : List Event :=
  (moves battle.limits.maxTasks battle.core entrants).flatMap Move.account

/-- The next round of a running match with these entrants. -/
structure Told (battle : Battle) (entrants : List Entrant) : Prop where
  threads : ∀ warrior ∈ battle.roster, warrior.tasks.waiting ≠ []
  running : battle.round.1.status = .running → battle.round.2 = battle.accounts entrants
  won : ∀ name, battle.round.1.status = .won name →
    battle.round.2 = battle.accounts entrants ++ [.won name]
  /-- A tie is announced with the rounds played, this one included. -/
  tie : battle.round.1.status = .tie →
    battle.round.2 = battle.accounts entrants ++ [.tie battle.round.1.cycles]
  cycles : battle.round.1.cycles.toNat = battle.cycles.toNat + 1
  /-- Whoever's account tells of no death is left, as the turn has made it. -/
  roster : battle.round.1.roster =
    ((moves battle.limits.maxTasks battle.core entrants).filter fun move =>
      .died move.entrant.warrior.name ∉ move.account).map fun move => move.played.warrior

theorem told_of_running
    {limits : Limits}
    (register : Register)
    (paced : Paced limits register.battle)
    (running : register.battle.status = .running) :
    Told register.battle register.entrants := by
  have alive : ∀ move ∈ register.moves, move.entrant.warrior.isAlive := fun move member =>
    register.lively move.entrant (entrant_mem_of_mem_moves member)
  obtain ⟨events, survivors⟩ := turns_eq_moves register.battle.limits.maxTasks register.battle.core
    register.entrants
  rw [register.roster] at events survivors
  have told : register.battle.round.2 = register.battle.accounts register.entrants ++
      register.battle.round.1.status.announcement register.battle.round.1.cycles := by
    have accounts : register.moves.flatMap Move.events = register.moves.flatMap Move.account :=
      List.flatMap_congr fun move member => events_eq_account (alive move member)
    rw [round_of_running register.battle running]
    show _ ++ _ = _
    rw [events]
    exact congrArg (· ++ _) accounts
  refine ⟨?_, ?_, ?_, ?_, (decided_of_running paced running).cycles, ?_⟩
  · intro warrior member
    rw [← register.roster] at member
    obtain ⟨entrant, there, rfl⟩ := List.mem_map.mp member
    obtain ⟨address, rest, waiting⟩ := exists_waiting_of_isAlive (register.lively entrant there)
    simp [waiting]
  · intro goesOn
    rw [told, goesOn]
    exact List.append_nil _
  · intro name isWon
    rw [told, isWon]
    rfl
  · intro isTie
    rw [told, isTie]
    rfl
  · have living : register.moves.filter Move.survives = register.moves.filter fun move =>
        .died move.entrant.warrior.name ∉ move.account := by
      apply List.filter_congr
      intro move member
      have died := died_mem_account_iff (alive move member)
      cases survives : move.survives <;> simp [died, survives]
    rw [round_of_running register.battle running]
    show (turns _ _ _).survivors = _
    rw [survivors]
    show (List.map _ (List.filter _ register.moves)).map _ = _
    rw [living, List.map_map]
    rfl

/-- A round of a running match, after any history. The roster is in the order of loading: its
warriors are those that were placed under ever higher numbers, with perhaps other threads, and each
of them has one. The events are the accounts of their turns in this order and behind them, if the
round ends the match, the winner or the tie. Those who are left are those of whose death there is no
account. -/
theorem round_told
    {limits : Limits}
    {generator : Generator}
    {fresh : Battle}
    (created : create limits generator = .ok fresh)
    (commands : List Command)
    (running : (fresh.follow commands).1.status = .running) :
    ∃ entrants : List Entrant,
      entrants.map Entrant.warrior = (fresh.follow commands).1.roster ∧
      entrants.Pairwise (fun earlier later => earlier.number < later.number) ∧
      (∀ entrant ∈ entrants, ∃ placement,
        (fresh.placements commands)[entrant.number]? = some placement ∧
          ∃ tasks, entrant.warrior = { placement.placed with tasks }) ∧
      Told (fresh.follow commands).1 entrants := by
  have paced := paced_follow created commands
  rw [← Register.battle_of_create created commands] at running paced ⊢
  refine ⟨((Register.vacant limits generator).follow commands).1.entrants, Register.roster _,
    Register.ordered _, ?_, told_of_running _ paced running⟩
  exact Register.placement_of_entrant (carried_identity limits) created commands

/-- A round in which the first warrior puts a division by zero under the thread of the second, and
the round behind it, in which the first runs into its own and the third is left to win. -/
theorem round_told_overwritten :
    let limits : Limits := ⟨8, 3, 4, 2⟩
    let fresh : Battle := { limits, core := .ofSize 8, generator := ⟨1, 2, 3, 4⟩ }
    let division : Instruction := ⟨.div, ⟨.immediate, 0⟩, ⟨.immediate, 0⟩⟩
    let copy : Instruction := ⟨.cpy, ⟨.direct, 1⟩, ⟨.direct, 4⟩⟩
    let jump : Instruction := ⟨.jmp, {}, {}⟩
    let commands : List Command :=
      [.place (.single "A" 0 [copy, division]) 0, .place (.single "B" 0 [jump]) 4,
        .place (.single "C" 0 [jump]) 6]
    let more := commands ++ [.round]
    create limits ⟨1, 2, 3, 4⟩ = .ok fresh ∧
    (fresh.follow commands).1.status = .running ∧
    (fresh.follow commands).1.round.2 =
      [.step "A0" 0 copy, .step "B1" 4 division, .fault "B1" 4 "division by zero", .died "B1",
        .step "C2" 6 jump] ∧
    (∃ entrants : List Entrant,
      entrants.map Entrant.warrior = (fresh.follow commands).1.roster ∧
      entrants.Pairwise (fun earlier later => earlier.number < later.number) ∧
      (∀ entrant ∈ entrants, ∃ placement,
        (fresh.placements commands)[entrant.number]? = some placement ∧
          ∃ tasks, entrant.warrior = { placement.placed with tasks }) ∧
      Told (fresh.follow commands).1 entrants) ∧
    (fresh.follow more).1.status = .running ∧
    (fresh.follow more).1.round.2 =
      [.step "A0" 1 division, .fault "A0" 1 "division by zero", .died "A0", .step "C2" 6 jump,
        .won "C2"] ∧
    ∃ entrants : List Entrant,
      entrants.map Entrant.warrior = (fresh.follow more).1.roster ∧
      Told (fresh.follow more).1 entrants ∧
      (fresh.follow more).1.round.2 = (fresh.follow more).1.accounts entrants ++ [.won "C2"] := by
  intro limits fresh division copy jump commands more
  have created : create limits ⟨1, 2, 3, 4⟩ = .ok fresh :=
    (create_eq_ok_iff _ _ _).mpr ⟨by decide, rfl⟩
  have running : (fresh.follow commands).1.status = .running := by decide +kernel
  have runningOn : (fresh.follow more).1.status = .running := by decide +kernel
  have isWon : (fresh.follow more).1.round.1.status = .won "C2" := by decide +kernel
  obtain ⟨entrants, roster, _, _, told⟩ := round_told created more runningOn
  exact ⟨created, running, by decide +kernel, round_told created commands running, runningOn,
    by decide +kernel, entrants, roster, told, told.won "C2" isWon⟩

end CoreWar.Battle
