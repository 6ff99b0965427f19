import CoreWar.Proofs.Chronicle

/-!
Contract: how many threads a warrior has.

Owns:
- the number of threads after a turn, by what the thread whose turn it was has fetched;
- the bound on threads over any history: the limit, or the number at the placement if that is more;
- which turns are the last of their warrior.

Does not own: the order in which threads run, see `CoreWar.Proofs.Schedule`.

The limit is tested while the executing thread is out of the queue and has not come back yet, so the
test leaves room for two: the new thread and this one.
-/

namespace CoreWar.Battle

/-! ## Turns -/

/-- The number of threads before and after a turn of the thread at an address. -/
structure Counted
    (maxTasks : UInt64)
    (core : Core)
    (address : UInt64)
    (before after : Nat) :
    Prop where
  fewer : after + 1 = before ↔ core.EndsAt address
  more : after = before + 1 ↔ core.ForksAt address ∧ before + 1 ≤ maxTasks.toNat
  same : after = before ↔
    ¬core.EndsAt address ∧ ¬(core.ForksAt address ∧ before + 1 ≤ maxTasks.toNat)

theorem counted_of_course
    {maxTasks : UInt64}
    {core : Core}
    {address : UInt64}
    {rest added : List UInt64}
    (course : Course maxTasks core address rest.length added) :
    Counted maxTasks core address (rest.length + 1) (rest ++ added).length := by
  have total : (rest ++ added).length = rest.length + added.length := List.length_append
  rw [total]
  cases course with
  | ended ends =>
      have noFork : ¬core.ForksAt address := fun forks => Core.not_endsAt_of_forksAt forks ends
      refine ⟨iff_of_true rfl ends, iff_of_false ?_ fun fork => noFork fork.1,
        iff_of_false ?_ fun neither => neither.1 ends⟩
      · simp only [List.length_nil]
        omega
      · simp
  | continued next goesOn noFork =>
      have noRoom : ¬(core.ForksAt address ∧ rest.length + 1 + 1 ≤ maxTasks.toNat) := by
        rintro ⟨forks, room⟩
        exact absurd (noFork forks) (Nat.not_lt.mpr room)
      exact ⟨iff_of_false (by simp) goesOn, iff_of_false (by simp) noRoom,
        iff_of_true rfl ⟨goesOn, noRoom⟩⟩
  | forked child next forks room =>
      have goesOn := Core.not_endsAt_of_forksAt forks
      exact ⟨iff_of_false (by simp) goesOn, iff_of_true rfl ⟨forks, room⟩,
        iff_of_false (by simp) fun neither => neither.2 ⟨forks, room⟩⟩

theorem counted_turn
    (maxTasks : UInt64)
    (core : Core)
    {warrior : Warrior}
    {address : UInt64}
    {rest : List UInt64}
    (waiting : warrior.tasks.waiting = address :: rest) :
    Counted maxTasks core address warrior.tasks.length
      (turn maxTasks core warrior).warrior.tasks.length := by
  obtain ⟨added, course, after, _⟩ := turn_of_waiting maxTasks core waiting
  have before : warrior.tasks.length = rest.length + 1 := by
    rw [TaskQueue.length, waiting, List.length_cons]
  rw [before, after]
  exact counted_of_course course

/-- A warrior has its last turn if its only thread ends in it. -/
theorem survives_eq_false_iff
    {move : Move}
    {address : UInt64}
    {rest : List UInt64}
    (waiting : move.entrant.warrior.tasks.waiting = address :: rest) :
    move.survives = false ↔ rest = [] ∧ move.core.EndsAt address := by
  obtain ⟨added, course, after, _⟩ := turn_of_waiting move.maxTasks move.core waiting
  have survives : move.survives = false ↔ rest = [] ∧ added = [] := by
    show (turn move.maxTasks move.core move.entrant.warrior).warrior.isAlive = false ↔ _
    rw [after]
    simp [Warrior.isAlive, TaskQueue.isEmpty]
  rw [survives]
  apply and_congr_right
  intro _
  cases course with
  | ended ends => simp [ends]
  | continued next goesOn noFork => simp [goesOn]
  | forked child next forks room => simp [Core.not_endsAt_of_forksAt forks]

/-! ## Histories -/

/-- No turn takes a warrior beyond the limit, unless it was beyond it before. -/
theorem carried_bound (limits : Limits) :
    Register.Carried limits fun earlier later =>
      later.tasks.length ≤ max limits.maxTasks.toNat earlier.tasks.length where
  refl warrior := Nat.le_max_right _ _
  trans := by
    intro first second third atFirst atSecond
    omega
  turn := by
    intro core warrior alive
    obtain ⟨address, rest, waiting⟩ := exists_waiting_of_isAlive alive
    obtain ⟨added, course, after, _⟩ := turn_of_waiting limits.maxTasks core waiting
    rw [after, TaskQueue.length, TaskQueue.length, waiting, List.length_append, List.length_cons]
    cases course with
    | ended => exact Nat.le_trans (Nat.le_succ _) (Nat.le_max_right _ _)
    | continued => exact Nat.le_max_right _ _
    | forked _ _ _ room => exact Nat.le_trans room (Nat.le_max_left _ _)

theorem Register.Carried.and
    {limits : Limits}
    {First Second : Warrior → Warrior → Prop}
    (first : Carried limits First)
    (second : Carried limits Second) :
    Carried limits fun earlier later => First earlier later ∧ Second earlier later where
  refl warrior := ⟨first.refl warrior, second.refl warrior⟩
  trans _ _ _ before after :=
    ⟨first.trans _ _ _ before.1 after.1, second.trans _ _ _ before.2 after.2⟩
  turn core _ alive := ⟨first.turn core alive, second.turn core alive⟩

/-- A warrior has as many threads when placed as it was given, and at least one. -/
theorem Placement.Launched.length {placement : Placement} (launched : placement.Launched) :
    placement.placed.tasks.length = max 1 placement.given.tasks.length := by
  obtain ⟨core, name, offset, placed⟩ := launched
  rw [placed]
  cases waiting : placement.given.tasks.waiting with
  | nil => simp [launch, TaskQueue.dequeue?, waiting, TaskQueue.length, TaskQueue.enqueue]
  | cons address rest =>
      simp [launch, TaskQueue.dequeue?, waiting, TaskQueue.length, TaskQueue.enqueue]

theorem launched_of_mem_placements
    {battle : Battle}
    {commands : List Command}
    {placement : Placement}
    (member : placement ∈ battle.placements commands) :
    placement.Launched := by
  induction commands generalizing battle with
  | nil => contradiction
  | cons command rest inductionHypothesis =>
      rcases List.mem_append.mp member with now | later
      · exact launched_of_placement? (Option.mem_toList.mp now)
      · exact inductionHypothesis later

/-- An assembled warrior is placed with one thread. -/
theorem Placement.Launched.length_of_assemble
    {placement : Placement}
    (launched : placement.Launched)
    {limits : Limits}
    {source : String}
    (assembled : Assembly.assemble limits source = .ok placement.given) :
    placement.placed.tasks.length = 1 := by
  obtain ⟨name, entry, program, given⟩ := Assembly.exists_single_of_assemble assembled
  rw [launched.length, given]
  rfl

/-- The next round in numbers of threads. -/
structure Tallied (limits : Limits) (register : Register) : Prop where
  /-- When its turn begins, everyone has the threads that it had before the round. -/
  before : register.moves.map Move.entrant = register.entrants
  /-- After the round, everyone left has the threads that its own turn has left it. -/
  after : register.round.1.entrants = (register.moves.filter Move.survives).map Move.outcome
  /-- What a turn does to the number of threads, and whose last turn it is. -/
  turns : ∀ move ∈ register.moves, ∃ address rest,
    move.entrant.warrior.tasks.waiting = address :: rest ∧
    Counted limits.maxTasks move.core address move.entrant.warrior.tasks.length
      move.outcome.warrior.tasks.length ∧
    (move.entrant.number ∉ register.round.1.entrants.map Entrant.number ↔
      move.entrant.warrior.tasks.length = 1 ∧ move.core.EndsAt address)

/-- Who has gone after the round is who does not survive its turn. -/
theorem number_notMem_iff
    {register : Register}
    (running : register.battle.status = .running)
    {move : Move}
    (member : move ∈ register.moves) :
    move.entrant.number ∉ register.round.1.entrants.map Entrant.number ↔ move.survives = false := by
  obtain ⟨front, back, split, others⟩ := Register.exists_split_moves member
  rw [register.entrants_round running, List.map_map, ← Bool.not_eq_true, not_iff_not, List.mem_map]
  constructor
  · rintro ⟨other, survivor, same⟩
    obtain ⟨played, survives⟩ := List.mem_filter.mp survivor
    rw [split] at played
    rcases List.mem_append.mp played with early | late
    · exact absurd same (others other (List.mem_append_left back early))
    · rcases List.mem_cons.mp late with rfl | later
      · exact survives
      · exact absurd same (others other (List.mem_append_right front later))
  · intro survives
    exact ⟨move, List.mem_filter.mpr ⟨member, survives⟩, rfl⟩

theorem tallied_of_running
    {limits : Limits}
    {register : Register}
    (paced : Paced limits register.battle)
    (running : register.battle.status = .running) :
    Tallied limits register := by
  refine ⟨map_entrant_moves _ _ _, register.entrants_round running, ?_⟩
  intro move member
  obtain ⟨address, rest, waiting⟩ :=
    exists_waiting_of_isAlive (register.lively move.entrant (entrant_mem_of_mem_moves member))
  have limit : limits.maxTasks = move.maxTasks := by
    rw [maxTasks_of_mem_moves member, paced.limits_eq]
  have single : move.entrant.warrior.tasks.length = 1 ↔ rest = [] := by
    simp [TaskQueue.length, waiting]
  refine ⟨address, rest, waiting, ?_, ?_⟩
  · rw [limit]
    exact counted_turn move.maxTasks move.core waiting
  · rw [number_notMem_iff running member, survives_eq_false_iff waiting, single]

/-- The threads of a match, over any history of it. In a round of a running match every warrior has
one turn, and only its own turn changes its threads: there is one less if the thread has ended, one
more if it has forked below the limit, and otherwise as many; who had one thread, and lost it, is
gone. So no warrior ever has more threads than the limit, or than it was placed with if that is
more, and an assembled one never has more than the limit. -/
theorem threads_tallied
    {limits : Limits}
    {generator : Generator}
    {fresh : Battle}
    (created : create limits generator = .ok fresh)
    (commands : List Command) :
    let register := ((Register.vacant limits generator).follow commands).1
    register.battle = (fresh.follow commands).1 ∧
    (register.battle.status = .running → Tallied limits register) ∧
    ∀ entrant ∈ register.entrants, ∃ placement,
      (fresh.placements commands)[entrant.number]? = some placement ∧
      (∃ tasks, entrant.warrior = { placement.placed with tasks }) ∧
      entrant.warrior.tasks.length ≤
        max limits.maxTasks.toNat placement.placed.tasks.length ∧
      ∀ source, Assembly.assemble limits source = .ok placement.given →
        entrant.warrior.tasks.length ≤ limits.maxTasks.toNat := by
  intro register
  have erased : register.battle = (fresh.follow commands).1 :=
    Register.battle_of_create created commands
  have paced : Paced limits register.battle := by
    rw [erased]
    exact paced_follow created commands
  refine ⟨erased, tallied_of_running paced, ?_⟩
  intro entrant member
  obtain ⟨placement, found, same, bound⟩ := Register.placement_of_entrant
    ((carried_identity limits).and (carried_bound limits)) created commands entrant member
  refine ⟨placement, found, same, bound, ?_⟩
  intro source assembled
  have launched := launched_of_mem_placements (List.mem_of_getElem? found)
  rw [launched.length_of_assemble assembled] at bound
  have playable := ((create_eq_ok_iff limits generator fresh).mp created).1
  have positive : 0 < limits.maxTasks.toNat :=
    UInt64.lt_iff_toNat_lt.mp (UInt64.pos_iff_ne_zero.mpr playable.2.2.1)
  omega

/-- An assembled warrior that forks as often as it can, with a limit of two threads. After two rounds
it has two, and the fork of the second round was dropped. -/
theorem threads_tallied_forker :
    let limits : Limits := ⟨8, 9, 4, 2⟩
    let fresh : Battle := { limits, core := .ofSize 8, generator := ⟨1, 2, 3, 4⟩ }
    let source := "; redcode\n; name F\n; assert 1\n FRK 0\nEND\n"
    let forker : Warrior := .single "F" 0 [⟨.frk, {}, {}⟩]
    let commands : List Command :=
      [.place forker 0, .place (.single "J" 0 [⟨.jmp, {}, {}⟩]) 4, .round, .round]
    let register := ((Register.vacant limits ⟨1, 2, 3, 4⟩).follow commands).1
    create limits ⟨1, 2, 3, 4⟩ = .ok fresh ∧
    Assembly.assemble limits source = .ok forker ∧
    register.battle.status = .running ∧
    register.entrants.map (fun entrant => (entrant.number, entrant.warrior.tasks.waiting)) =
      [(0, [1, 1]), (1, [4])] ∧
    register.battle = (fresh.follow commands).1 ∧
    Tallied limits register ∧
    ∀ entrant ∈ register.entrants, ∃ placement,
      (fresh.placements commands)[entrant.number]? = some placement ∧
      entrant.warrior.tasks.length ≤
        max limits.maxTasks.toNat placement.placed.tasks.length ∧
      (placement.given = forker → entrant.warrior.tasks.length ≤ limits.maxTasks.toNat) := by
  intro limits fresh source forker commands
  have created : create limits ⟨1, 2, 3, 4⟩ = .ok fresh :=
    (create_eq_ok_iff _ _ _).mpr ⟨by decide, rfl⟩
  have assembled : Assembly.assemble limits source = .ok forker := by decide +kernel
  have running : ((Register.vacant limits ⟨1, 2, 3, 4⟩).follow commands).1.battle.status =
      .running := by
    decide +kernel
  obtain ⟨same, tallied, bounded⟩ := threads_tallied created commands
  refine ⟨created, assembled, running, by decide +kernel, same, tallied running, ?_⟩
  intro entrant member
  obtain ⟨placement, found, _, bound, ofAssembled⟩ := bounded entrant member
  refine ⟨placement, found, bound, ?_⟩
  exact fun isForker => ofAssembled source (isForker ▸ assembled)

end CoreWar.Battle
