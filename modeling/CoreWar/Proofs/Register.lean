import CoreWar.Proofs.Course
import CoreWar.Proofs.Naming

/-!
Contract: who is who in a match.

Owns:
- the entrants of a match: the warriors left, each with the number of placements before its own;
- the moves of a round: the turns of the entrants, each with the core that it begins with;
- the register of a match, which follows commands as the match does and keeps the numbers, and the
  entries of its log, which say in whose turn an event happened;
- that the register without the numbers is the match itself.

Does not own: what becomes of the threads of an entrant, see `CoreWar.Proofs.Threads`.

Names do not tell the warriors of a match apart, and places in the roster change when others die.
The number of a warrior is its own and stays the same.
-/

namespace CoreWar.Battle

/-- A warrior of a match and the number of placements before its own. -/
structure Entrant where
  number : Nat
  warrior : Warrior
deriving DecidableEq, Repr

/-! ## Moves -/

/-- A turn that is about to be played: the limit on threads, the core as it is then, and whose turn
it is. -/
structure Move where
  maxTasks : UInt64
  core : Core
  entrant : Entrant
deriving DecidableEq, Repr

namespace Move

def played (move : Move) : Turn :=
  turn move.maxTasks move.core move.entrant.warrior

/-- The entrant after its turn. -/
def outcome (move : Move) : Entrant :=
  ⟨move.entrant.number, move.played.warrior⟩

def survives (move : Move) : Bool :=
  move.played.warrior.isAlive

/-- The events of the turn, and the death behind them if there was one. -/
def events (move : Move) : List Event :=
  move.played.events ++ move.played.obituary

end Move

/-- The turns of a round, each with the core that the one before it left. -/
def moves (maxTasks : UInt64) (core : Core) : List Entrant → List Move
  | [] => []
  | entrant :: rest =>
    let move : Move := ⟨maxTasks, core, entrant⟩
    move :: moves maxTasks move.played.core rest

/-- Each entrant has one turn, in order. -/
theorem map_entrant_moves (maxTasks : UInt64) (core : Core) (entrants : List Entrant) :
    (moves maxTasks core entrants).map Move.entrant = entrants := by
  induction entrants generalizing core with
  | nil => rfl
  | cons entrant rest inductionHypothesis =>
      simp only [moves, List.map_cons]
      rw [inductionHypothesis]

theorem maxTasks_of_mem_moves
    {maxTasks : UInt64}
    {core : Core}
    {entrants : List Entrant}
    {move : Move}
    (member : move ∈ moves maxTasks core entrants) :
    move.maxTasks = maxTasks := by
  induction entrants generalizing core with
  | nil => contradiction
  | cons entrant rest inductionHypothesis =>
      rcases List.mem_cons.mp member with rfl | later
      · rfl
      · exact inductionHypothesis later

theorem entrant_mem_of_mem_moves
    {maxTasks : UInt64}
    {core : Core}
    {entrants : List Entrant}
    {move : Move}
    (member : move ∈ moves maxTasks core entrants) :
    move.entrant ∈ entrants := by
  rw [← map_entrant_moves maxTasks core entrants]
  exact List.mem_map_of_mem member

/-- The turns of a round are its moves: what they announce, and who survives them. -/
theorem turns_eq_moves (maxTasks : UInt64) (core : Core) (entrants : List Entrant) :
    (turns maxTasks core (entrants.map Entrant.warrior)).events =
      (moves maxTasks core entrants).flatMap Move.events ∧
    (turns maxTasks core (entrants.map Entrant.warrior)).survivors =
      (((moves maxTasks core entrants).filter Move.survives).map Move.outcome).map
        Entrant.warrior := by
  induction entrants generalizing core with
  | nil => exact ⟨rfl, rfl⟩
  | cons entrant rest inductionHypothesis =>
      obtain ⟨events, survivors⟩ :=
        inductionHypothesis (turn maxTasks core entrant.warrior).core
      rw [List.map_cons, turns_cons, events, survivors]
      constructor
      · simp [moves, Move.events, Move.played]
      · by_cases alive : (turn maxTasks core entrant.warrior).warrior.isAlive
        · simp [moves, Move.survives, Move.played, Turn.survivor, Move.outcome, alive]
        · simp [moves, Move.survives, Move.played, Turn.survivor, alive]

/-! ## The register -/

/-- An event, and the number of the warrior in whose turn it happened if it was in a turn. -/
structure Entry where
  author : Option Nat
  event : Event
deriving DecidableEq, Repr

/-- The events that belong to no turn. -/
def unsigned (events : List Event) : List Entry :=
  events.map (Entry.mk none)

def Move.entries (move : Move) : List Entry :=
  move.events.map (Entry.mk (some move.entrant.number))

/-- The entrant that a command brings in, if it brings one. -/
def newcomers (battle : Battle) (command : Command) : List Entrant :=
  (battle.placement? command).toList.map fun placement => ⟨battle.placed, placement.placed⟩

/-- A match whose warriors have numbers. The numbers go up along the roster, which is so in the
order of loading, and everyone in it has a thread. -/
structure Register where
  battle : Battle
  entrants : List Entrant
  roster : entrants.map Entrant.warrior = battle.roster
  ordered : entrants.Pairwise fun earlier later => earlier.number < later.number
  counted : ∀ entrant ∈ entrants, entrant.number < battle.placed
  lively : ∀ entrant ∈ entrants, entrant.warrior.isAlive

/-- The placed warrior is the given one, launched under another name. -/
def Placement.Launched (placement : Placement) : Prop :=
  ∃ core name offset, placement.placed = launch core { placement.given with name } offset

theorem launched_of_place
    {battle : Battle}
    {warrior : Warrior}
    {offset : UInt64}
    {placement : Placement}
    (made : (battle.place warrior offset).placement? warrior = some placement) :
    placement.Launched := by
  by_cases short : warrior.program.length < battle.limits.maxLength.toNat
  · rw [place_of_short battle warrior offset short] at made
    rw [← Option.some.inj made]
    exact ⟨battle.core, (battle.numbered warrior).name, offset, rfl⟩
  · rw [place_of_long battle warrior offset (Nat.not_lt.mp short)] at made
    contradiction

theorem launched_of_placement?
    {battle : Battle}
    {command : Command}
    {placement : Placement}
    (made : battle.placement? command = some placement) :
    placement.Launched := by
  cases command with
  | load source =>
      cases assembled : Assembly.assemble battle.limits source with
      | ok warrior =>
          simp only [placement?, load_eq, assembled] at made
          exact launched_of_place made
      | error error =>
          simp only [placement?, assembled] at made
          contradiction
  | place warrior offset => exact launched_of_place made
  | round => contradiction
  | run => contradiction

theorem Placement.Launched.isAlive {placement : Placement} (launched : placement.Launched) :
    placement.placed.isAlive := by
  obtain ⟨core, name, offset, placed⟩ := launched
  simp [placed, launch, Warrior.isAlive, TaskQueue.isEmpty, TaskQueue.enqueue]

namespace Register

/-- The register of a match that has just been created. -/
def vacant (limits : Limits) (generator : Generator) : Register where
  battle := { limits, core := .ofSize limits.coreSize, generator }
  entrants := []
  roster := rfl
  ordered := List.Pairwise.nil
  counted _ member := absurd member List.not_mem_nil
  lively _ member := absurd member List.not_mem_nil

/-- The register after a command that loads a warrior, or fails to. -/
def enrol
    (register : Register)
    (command : Command)
    (joins : Joins register.battle (register.battle.placement? command)
      (register.battle.obey command).1) :
    Register where
  battle := (register.battle.obey command).1
  entrants := register.entrants ++ register.battle.newcomers command
  roster := by
    rw [List.map_append, register.roster, newcomers]
    generalize register.battle.placement? command = placement at joins ⊢
    cases joins with
    | rejected _ roster _ => simp [roster]
    | placed _ roster _ _ => simp [roster]
  ordered := by
    rw [List.pairwise_append]
    refine ⟨register.ordered, ?_, ?_⟩
    · unfold newcomers
      cases register.battle.placement? command <;> simp
    · intro earlier early later late
      obtain ⟨_, _, rfl⟩ := List.mem_map.mp late
      exact register.counted earlier early
  counted := by
    have counts := counts_of_joins joins
    intro entrant member
    rw [counts.placed]
    rcases List.mem_append.mp member with old | new
    · exact Nat.lt_add_right _ (register.counted entrant old)
    · obtain ⟨_, made, rfl⟩ := List.mem_map.mp new
      exact Nat.lt_add_of_pos_right (List.length_pos_of_mem made)
  lively := by
    intro entrant member
    rcases List.mem_append.mp member with old | new
    · exact register.lively entrant old
    · obtain ⟨_, made, rfl⟩ := List.mem_map.mp new
      exact (launched_of_placement? (Option.mem_toList.mp made)).isAlive

/-- The turns of the next round. -/
def moves (register : Register) : List Move :=
  Battle.moves register.battle.limits.maxTasks register.battle.core register.entrants

/-- A number belongs to one entrant. -/
theorem eq_of_number
    {register : Register}
    {first second : Entrant}
    (isFirst : first ∈ register.entrants)
    (isSecond : second ∈ register.entrants)
    (same : first.number = second.number) :
    first = second := by
  obtain ⟨front, back, split⟩ := List.append_of_mem isFirst
  have ordered := register.ordered
  rw [split, List.pairwise_append, List.pairwise_cons] at ordered
  obtain ⟨_, ⟨below, _⟩, above⟩ := ordered
  rw [split, List.mem_append, List.mem_cons] at isSecond
  rcases isSecond with early | here | late
  · exact absurd same.symm (Nat.ne_of_lt (above second early first List.mem_cons_self))
  · exact here.symm
  · exact absurd same (Nat.ne_of_lt (below second late))

theorem ordered_moves (register : Register) :
    register.moves.Pairwise fun earlier later => earlier.entrant.number < later.entrant.number := by
  have ordered := register.ordered
  rwa [← map_entrant_moves register.battle.limits.maxTasks register.battle.core register.entrants,
    List.pairwise_map] at ordered

theorem exists_move
    {register : Register}
    {entrant : Entrant}
    (there : entrant ∈ register.entrants) :
    ∃ move ∈ register.moves, move.entrant = entrant := by
  rw [← map_entrant_moves register.battle.limits.maxTasks register.battle.core register.entrants]
    at there
  exact List.mem_map.mp there

/-- The number of a move is that of no other move of the round. -/
theorem exists_split_moves {register : Register} {move : Move} (member : move ∈ register.moves) :
    ∃ front back, register.moves = front ++ move :: back ∧
      ∀ other ∈ front ++ back, other.entrant.number ≠ move.entrant.number := by
  obtain ⟨front, back, split⟩ := List.append_of_mem member
  have ordered := register.ordered_moves
  rw [split, List.pairwise_append, List.pairwise_cons] at ordered
  obtain ⟨_, ⟨below, _⟩, above⟩ := ordered
  refine ⟨front, back, split, ?_⟩
  intro other elsewhere
  rcases List.mem_append.mp elsewhere with early | late
  · exact Nat.ne_of_lt (above other early move List.mem_cons_self)
  · exact Nat.ne_of_gt (below other late)

/-- The register after a round of a running match. -/
def playRound (register : Register) (running : register.battle.status = .running) : Register where
  battle := register.battle.round.1
  entrants := (register.moves.filter Move.survives).map Move.outcome
  roster := by
    rw [round_of_running register.battle running, ← register.roster]
    exact (turns_eq_moves _ _ _).2.symm
  ordered := by
    rw [List.pairwise_map]
    exact List.Pairwise.filter _ register.ordered_moves
  counted := by
    intro entrant member
    obtain ⟨move, survives, rfl⟩ := List.mem_map.mp member
    rw [placed_round]
    exact register.counted move.entrant
      (entrant_mem_of_mem_moves (List.mem_of_mem_filter survives))
  lively := by
    intro entrant member
    obtain ⟨move, survives, rfl⟩ := List.mem_map.mp member
    exact (List.mem_filter.mp survives).2

/-- The register after a round, and the entries of the round. -/
def round (register : Register) : Register × List Entry :=
  if running : register.battle.status = .running then
    let next := register.playRound running
    (next, register.moves.flatMap Move.entries ++
      unsigned (next.battle.status.announcement next.battle.cycles))
  else
    (register, [])

/-- Goes on where something else has ended, and joins the entries. -/
def andThen
    (first : Register × List Entry)
    (next : Register → Register × List Entry) :
    Register × List Entry :=
  ((next first.1).1, first.2 ++ (next first.1).2)

def rounds (register : Register) : Nat → Register × List Entry
  | 0 => (register, [])
  | count + 1 => andThen register.round fun next => next.rounds count

def obey (register : Register) : Command → Register × List Entry
  | .load source =>
    (register.enrol (.load source) (joins_load register.battle source),
      unsigned (register.battle.load source).events)
  | .place warrior offset =>
    (register.enrol (.place warrior offset) (joins_place register.battle warrior offset),
      unsigned (register.battle.place warrior offset).events)
  | .round => register.round
  | .run => register.rounds register.battle.run.calls

/-- The register after a sequence of commands, and all entries on the way. -/
def follow (register : Register) : List Command → Register × List Entry
  | [] => (register, [])
  | command :: rest => andThen (register.obey command) fun next => next.follow rest

theorem round_of_running (register : Register) (running : register.battle.status = .running) :
    register.round =
      (register.playRound running, register.moves.flatMap Move.entries ++
        unsigned (register.battle.round.1.status.announcement register.battle.round.1.cycles)) :=
  dif_pos running

theorem round_of_ended (register : Register) (ended : register.battle.status ≠ .running) :
    register.round = (register, []) :=
  dif_neg ended

theorem entrants_round (register : Register) (running : register.battle.status = .running) :
    register.round.1.entrants = (register.moves.filter Move.survives).map Move.outcome := by
  rw [register.round_of_running running]
  rfl

/-! ## The register without the numbers -/

/-- The match and its log, as they are without the register. -/
def erase (kept : Register × List Entry) : Battle × List Event :=
  (kept.1.battle, kept.2.map Entry.event)

theorem event_unsigned (events : List Event) : (unsigned events).map Entry.event = events := by
  simp [unsigned, Function.comp_def]

theorem event_entries (move : Move) : move.entries.map Entry.event = move.events := by
  simp [Move.entries, Function.comp_def]

theorem erase_andThen
    (first : Register × List Entry)
    (next : Register → Register × List Entry) :
    erase (andThen first next) =
      ((erase (next first.1)).1, (erase first).2 ++ (erase (next first.1)).2) := by
  simp [erase, andThen]

theorem erase_round (register : Register) : erase register.round = register.battle.round := by
  by_cases running : register.battle.status = .running
  · rw [register.round_of_running running, Battle.round_of_running register.battle running]
    have events := (turns_eq_moves register.battle.limits.maxTasks register.battle.core
      register.entrants).1
    rw [register.roster] at events
    simp [erase, playRound, List.map_flatMap, event_entries, event_unsigned,
      Battle.round_of_running register.battle running, events, moves]
  · rw [register.round_of_ended running, Battle.round_of_ended register.battle running]
    rfl

theorem battle_round (register : Register) : register.round.1.battle = register.battle.round.1 :=
  congrArg Prod.fst (erase_round register)

theorem paced_round
    {limits : Limits}
    {register : Register}
    (paced : Paced limits register.battle) :
    Paced limits register.round.1.battle := by
  rw [battle_round]
  exact Battle.paced_round paced

theorem placed_round (register : Register) :
    register.round.1.battle.placed = register.battle.placed := by
  rw [battle_round, Battle.placed_round]

theorem erase_rounds (register : Register) (count : Nat) :
    erase (register.rounds count) = register.battle.rounds count := by
  induction count generalizing register with
  | zero => rfl
  | succ count inductionHypothesis =>
      rw [rounds, erase_andThen, inductionHypothesis, rounds_succ, ← erase_round]
      rfl

theorem erase_obey (register : Register) (command : Command) :
    erase (register.obey command) = register.battle.obey command := by
  cases command with
  | load source => exact congrArg (Prod.mk _) (event_unsigned _)
  | place warrior offset => exact congrArg (Prod.mk _) (event_unsigned _)
  | round => exact erase_round register
  | run => exact (erase_rounds register _).trans (run_eq_rounds register.battle).symm

theorem battle_obey (register : Register) (command : Command) :
    (register.obey command).1.battle = (register.battle.obey command).1 :=
  congrArg Prod.fst (erase_obey register command)

theorem paced_obey
    {limits : Limits}
    {register : Register}
    (paced : Paced limits register.battle)
    (command : Command) :
    Paced limits (register.obey command).1.battle := by
  rw [battle_obey]
  exact Battle.paced_obey paced command

theorem placed_obey (register : Register) (command : Command) :
    (register.obey command).1.battle.placed =
      register.battle.placed + (register.battle.placement? command).toList.length := by
  rw [battle_obey, (counts_obey register.battle command).placed]

/-- The register without the numbers is the match, and its entries are the events. -/
theorem erase_follow (register : Register) (commands : List Command) :
    erase (register.follow commands) = register.battle.follow commands := by
  induction commands generalizing register with
  | nil => rfl
  | cons command rest inductionHypothesis =>
      rw [follow, erase_andThen, inductionHypothesis, Battle.follow, ← erase_obey]
      rfl

/-- The register of a created match, through any history. -/
theorem battle_of_create
    {limits : Limits}
    {generator : Generator}
    {fresh : Battle}
    (created : create limits generator = .ok fresh)
    (commands : List Command) :
    ((vacant limits generator).follow commands).1.battle = (fresh.follow commands).1 := by
  obtain ⟨_, rfl⟩ := (create_eq_ok_iff limits generator fresh).mp created
  exact congrArg Prod.fst (erase_follow (vacant limits generator) commands)

/-! ## From the placement on -/

/-- What a turn under these limits keeps of its warrior, and so do turns in a row. -/
structure Carried (limits : Limits) (Same : Warrior → Warrior → Prop) : Prop where
  refl : ∀ warrior, Same warrior warrior
  trans : ∀ first second third, Same first second → Same second third → Same first third
  turn : ∀ core {warrior : Warrior}, warrior.isAlive →
    Same warrior (turn limits.maxTasks core warrior).warrior

/-- The entrant was there before, or has been placed since, as the next in the count. -/
def Traced
    (Same : Warrior → Warrior → Prop)
    (before : Register)
    (placements : List Placement)
    (entrant : Entrant) :
    Prop :=
  (∃ earlier ∈ before.entrants,
    earlier.number = entrant.number ∧ Same earlier.warrior entrant.warrior) ∨
  ∃ index placement, placements[index]? = some placement ∧
    entrant.number = before.battle.placed + index ∧ Same placement.placed entrant.warrior

/-- What has been traced in two stretches is traced through both. -/
theorem traced_append
    {Same : Warrior → Warrior → Prop}
    (trans : ∀ first second third, Same first second → Same second third → Same first third)
    {before middle : Register}
    {placements later : List Placement}
    (counted : middle.battle.placed = before.battle.placed + placements.length)
    (traced : ∀ entrant ∈ middle.entrants, Traced Same before placements entrant)
    {entrant : Entrant}
    (since : Traced Same middle later entrant) :
    Traced Same before (placements ++ later) entrant := by
  rcases since with ⟨between, member, number, kept⟩ | ⟨index, placement, found, number, kept⟩
  · rcases traced between member with
      ⟨earlier, there, same, same'⟩ | ⟨index, placement, found, same, same'⟩
    · exact Or.inl ⟨earlier, there, same.trans number, trans _ _ _ same' kept⟩
    · have below := (List.getElem?_eq_some_iff.mp found).1
      refine Or.inr ⟨index, placement, ?_, number.symm.trans same, trans _ _ _ same' kept⟩
      rw [List.getElem?_append_left below, found]
  · refine Or.inr ⟨placements.length + index, placement, ?_, ?_, kept⟩
    · rw [List.getElem?_append_right (Nat.le_add_right _ _), Nat.add_sub_cancel_left, found]
    · rw [number, counted, Nat.add_assoc]

section Traced

variable {limits : Limits} {Same : Warrior → Warrior → Prop} (carried : Carried limits Same)
include carried

theorem traced_round {register : Register} (paced : Paced limits register.battle) :
    ∀ entrant ∈ register.round.1.entrants, Traced Same register [] entrant := by
  intro entrant member
  by_cases running : register.battle.status = .running
  · rw [register.entrants_round running] at member
    obtain ⟨move, survives, rfl⟩ := List.mem_map.mp member
    have played := List.mem_of_mem_filter survives
    have there := entrant_mem_of_mem_moves played
    have kept := carried.turn move.core (register.lively move.entrant there)
    rw [← paced.limits_eq, ← maxTasks_of_mem_moves played] at kept
    exact Or.inl ⟨move.entrant, there, rfl, kept⟩
  · rw [register.round_of_ended running] at member
    exact Or.inl ⟨entrant, member, rfl, carried.refl _⟩

theorem traced_rounds {register : Register} (paced : Paced limits register.battle) (count : Nat) :
    ∀ entrant ∈ (register.rounds count).1.entrants, Traced Same register [] entrant := by
  induction count generalizing register with
  | zero => exact fun entrant member => Or.inl ⟨entrant, member, rfl, carried.refl _⟩
  | succ count inductionHypothesis =>
      intro entrant member
      exact traced_append carried.trans (placed_round register) (traced_round carried paced)
        (inductionHypothesis (paced_round paced) entrant member)

theorem traced_enrol
    (register : Register)
    (command : Command)
    (joins : Joins register.battle (register.battle.placement? command)
      (register.battle.obey command).1) :
    ∀ entrant ∈ (register.enrol command joins).entrants,
      Traced Same register (register.battle.placement? command).toList entrant := by
  intro entrant member
  rcases List.mem_append.mp member with old | new
  · exact Or.inl ⟨entrant, old, rfl, carried.refl _⟩
  · obtain ⟨placement, made, rfl⟩ := List.mem_map.mp new
    rw [Option.mem_toList.mp made]
    exact Or.inr ⟨0, placement, rfl, rfl, carried.refl _⟩

theorem traced_obey
    {register : Register}
    (paced : Paced limits register.battle)
    (command : Command) :
    ∀ entrant ∈ (register.obey command).1.entrants,
      Traced Same register (register.battle.placement? command).toList entrant := by
  cases command with
  | load source => exact traced_enrol carried register (.load source) (joins_load _ _)
  | place warrior offset =>
      exact traced_enrol carried register (.place warrior offset) (joins_place _ _ _)
  | round => exact traced_round carried paced
  | run => exact traced_rounds carried paced _

theorem traced_follow
    {register : Register}
    (paced : Paced limits register.battle)
    (commands : List Command) :
    ∀ entrant ∈ (register.follow commands).1.entrants,
      Traced Same register (register.battle.placements commands) entrant := by
  induction commands generalizing register with
  | nil => exact fun entrant member => Or.inl ⟨entrant, member, rfl, carried.refl _⟩
  | cons command rest inductionHypothesis =>
      intro entrant member
      have since := inductionHypothesis (paced_obey paced command) entrant member
      rw [battle_obey] at since
      exact traced_append carried.trans (placed_obey register command)
        (traced_obey carried paced command) since

/-- Of every entrant of a history, what turns keep is as it was when the entrant was placed. -/
theorem placement_of_entrant
    {generator : Generator}
    {fresh : Battle}
    (created : create limits generator = .ok fresh)
    (commands : List Command) :
    ∀ entrant ∈ ((vacant limits generator).follow commands).1.entrants,
      ∃ placement, (fresh.placements commands)[entrant.number]? = some placement ∧
        Same placement.placed entrant.warrior := by
  intro entrant member
  have paced := paced_create created
  obtain ⟨_, rfl⟩ := (create_eq_ok_iff limits generator fresh).mp created
  rcases traced_follow carried paced commands entrant member with
    ⟨earlier, there, _⟩ | ⟨index, placement, found, number, kept⟩
  · contradiction
  · have same : entrant.number = index := number.trans (Nat.zero_add index)
    exact ⟨placement, same ▸ found, kept⟩

end Traced

end Register

end CoreWar.Battle
