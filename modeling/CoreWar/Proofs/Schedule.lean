import CoreWar.Proofs.Chronicle

/-!
Contract: the threads of a warrior run in the order of its queue.

Owns:
- the steps of a warrior, by the addresses in the entries that its turns have left in the log;
- what rounds in a row make of the threads that wait at their beginning: one after the other leaves
  the queue and is executed, and the warrior is there as long as one of them waits;
- when the steps of a warrior can be told by its name.

Does not own: how many threads wait, see `CoreWar.Proofs.Threads`.

In a round the queue of a warrior loses its first thread, and whatever comes in comes in at its end.
The threads that wait now are so served before all that come later, and how many rounds were played
is how many of them have been served.
-/

namespace CoreWar

/-- The address of the executed cell, of a step. -/
def Event.stepAddress? : Event → Option UInt64
  | step _ address _ => some address
  | _ => none

namespace Battle

/-- The addresses of the steps in the turns of the warrior with this number. -/
def stepAddresses (number : Nat) (entries : List Entry) : List UInt64 :=
  entries.filterMap fun entry =>
    if entry.author = some number then entry.event.stepAddress? else none

theorem stepAddresses_append (number : Nat) (entries later : List Entry) :
    stepAddresses number (entries ++ later) =
      stepAddresses number entries ++ stepAddresses number later :=
  List.filterMap_append

theorem stepAddresses_of_others
    {number : Nat}
    {entries : List Entry}
    (others : ∀ entry ∈ entries, entry.author ≠ some number) :
    stepAddresses number entries = [] := by
  apply List.filterMap_eq_nil_iff.mpr
  intro entry member
  exact if_neg (others entry member)

theorem author_of_mem_unsigned
    {events : List Event}
    {entry : Entry}
    (member : entry ∈ unsigned events) :
    entry.author = none := by
  obtain ⟨event, _, rfl⟩ := List.mem_map.mp member
  rfl

theorem author_of_mem_entries {move : Move} {entry : Entry} (member : entry ∈ move.entries) :
    entry.author = some move.entrant.number := by
  obtain ⟨event, _, rfl⟩ := List.mem_map.mp member
  rfl

theorem stepAddresses_of_idle
    {entries : List Entry}
    (idle : ∀ entry ∈ entries, entry.author = none)
    (number : Nat) :
    stepAddresses number entries = [] := by
  apply stepAddresses_of_others
  intro entry member
  rw [idle entry member]
  exact (Option.some_ne_none number).symm

/-- A turn executes the thread at the head of the queue. -/
theorem stepAddresses_entries
    {move : Move}
    {address : UInt64}
    {rest : List UInt64}
    (waiting : move.entrant.warrior.tasks.waiting = address :: rest) :
    stepAddresses move.entrant.number move.entries = [address] := by
  have alive : move.entrant.warrior.isAlive := by
    simp [Warrior.isAlive, TaskQueue.isEmpty, waiting]
  have steps : move.account.filterMap Event.stepAddress? = [address] := by
    rw [account_of_waiting waiting]
    unfold faultEvents
    split <;> split <;> simp [Event.stepAddress?]
  unfold stepAddresses Move.entries
  rw [List.filterMap_map, events_eq_account alive, ← steps]
  apply List.filterMap_congr
  intro event _
  simp

/-- In a round the warrior with a number executes the thread at the head of its queue. -/
theorem stepAddresses_moves
    {register : Register}
    {move : Move}
    (member : move ∈ register.moves)
    {address : UInt64}
    {rest : List UInt64}
    (waiting : move.entrant.warrior.tasks.waiting = address :: rest) :
    stepAddresses move.entrant.number (register.moves.flatMap Move.entries) = [address] := by
  obtain ⟨front, back, split, others⟩ := Register.exists_split_moves member
  have elsewhere {part : List Move} (inPart : ∀ other ∈ part, other ∈ front ++ back) :
      stepAddresses move.entrant.number (part.flatMap Move.entries) = [] := by
    apply stepAddresses_of_others
    intro entry written
    obtain ⟨other, there, inOther⟩ := List.mem_flatMap.mp written
    rw [author_of_mem_entries inOther]
    exact fun same => others other (inPart other there) (Option.some.inj same)
  rw [split, List.flatMap_append, List.flatMap_cons, stepAddresses_append, stepAddresses_append,
    elsewhere fun _ => List.mem_append_left back, elsewhere fun _ => List.mem_append_right front,
    stepAddresses_entries waiting]
  rfl

/-! ## Rounds -/

/-- What becomes of the first threads of a queue in a stretch of a match in which a number of rounds
was played: as many of them as rounds were played have been executed, in order, and as long as there
are others, their warrior is there and they wait at the head of its queue. -/
structure Executes
    (played number : Nat)
    (threads : List UInt64)
    (entries : List Entry)
    (after : Register) :
    Prop where
  steps : played ≤ threads.length → stepAddresses number entries = threads.take played
  all : threads.length ≤ played → threads <+: stepAddresses number entries
  left : played < threads.length → ∃ later ∈ after.entrants,
    later.number = number ∧ threads.drop played <+: later.warrior.tasks.waiting

/-- A stretch of a match in which a number of rounds was played. -/
structure Served
    (played : Nat)
    (before : Register)
    (entries : List Entry)
    (after : Register) :
    Prop where
  cycles : after.battle.cycles.toNat = before.battle.cycles.toNat + played
  idle : played = 0 → ∀ entry ∈ entries, entry.author = none
  queues : ∀ entrant ∈ before.entrants, ∀ threads, threads <+: entrant.warrior.tasks.waiting →
    Executes played entrant.number threads entries after

/-- Without a round and without a turn, everyone waits who waited before. -/
theorem executes_idle
    {number : Nat}
    {threads : List UInt64}
    {entries : List Entry}
    {after : Register}
    (idle : ∀ entry ∈ entries, entry.author = none)
    (left : ∃ later ∈ after.entrants,
      later.number = number ∧ threads <+: later.warrior.tasks.waiting) :
    Executes 0 number threads entries after where
  steps _ := stepAddresses_of_idle idle number
  all none := by
    rw [List.length_eq_zero_iff.mp (Nat.le_zero.mp none)]
    exact List.nil_prefix
  left _ := left

theorem served_refl (register : Register) : Served 0 register [] register where
  cycles := rfl
  idle _ _ written := absurd written List.not_mem_nil
  queues entrant member _ waits :=
    executes_idle (fun _ written => absurd written List.not_mem_nil) ⟨entrant, member, rfl, waits⟩

/-- Two stretches, one after the other. -/
theorem Served.append
    {first second : Nat}
    {before middle after : Register}
    {entries later : List Entry}
    (served : Served first before entries middle)
    (since : Served second middle later after) :
    Served (first + second) before (entries ++ later) after := by
  refine ⟨by rw [since.cycles, served.cycles, Nat.add_assoc], ?_, ?_⟩
  · intro none entry member
    rcases List.mem_append.mp member with early | late
    · exact served.idle (by omega) entry early
    · exact since.idle (by omega) entry late
  intro entrant member threads waits
  have early := served.queues entrant member threads waits
  by_cases more : first < threads.length
  · -- The second stretch begins with those that the first has not come to.
    obtain ⟨between, there, number, still⟩ := early.left more
    have late := since.queues between there (threads.drop first) still
    rw [number] at late
    have length : (threads.drop first).length = threads.length - first := List.length_drop
    refine ⟨?_, ?_, ?_⟩
    · intro enough
      rw [stepAddresses_append, early.steps (by omega), late.steps (by omega), List.take_add]
    · intro enough
      rw [stepAddresses_append, early.steps (by omega)]
      calc threads = threads.take first ++ threads.drop first :=
            (List.take_append_drop first threads).symm
        _ <+: threads.take first ++ stepAddresses entrant.number later :=
            (List.prefix_append_right_inj _).mpr (late.all (by omega))
    · intro enough
      obtain ⟨last, here, number', still'⟩ := late.left (by omega)
      rw [List.drop_drop] at still'
      exact ⟨last, here, number', still'⟩
  · -- All of them have been executed in the first stretch.
    refine ⟨?_, ?_, fun enough => absurd enough (by omega)⟩
    · intro enough
      have noneLater : second = 0 := by omega
      have idle : stepAddresses entrant.number later = [] :=
        stepAddresses_of_idle (since.idle noneLater) entrant.number
      rw [stepAddresses_append, early.steps (by omega), idle, noneLater, List.append_nil,
        Nat.add_zero]
    · intro _
      rw [stepAddresses_append]
      exact (early.all (by omega)).trans (List.prefix_append _ _)

/-- A turn executes the first of the threads, and the others stay at the head of the queue. -/
theorem executes_round
    {register : Register}
    (running : register.battle.status = .running)
    {move : Move}
    (member : move ∈ register.moves)
    {threads : List UInt64}
    (waits : threads <+: move.entrant.warrior.tasks.waiting) :
    Executes 1 move.entrant.number threads register.round.2 register.round.1 := by
  cases threads with
  | nil => exact ⟨fun enough => absurd enough (by simp), fun _ => List.nil_prefix, nofun⟩
  | cons first others =>
      obtain ⟨rest, behind⟩ := waits
      have waiting : move.entrant.warrior.tasks.waiting = first :: (others ++ rest) := behind.symm
      have steps : stepAddresses move.entrant.number register.round.2 = [first] := by
        rw [register.round_of_running running, stepAddresses_append,
          stepAddresses_moves member waiting,
          stepAddresses_of_idle fun _ written => author_of_mem_unsigned written]
        rfl
      obtain ⟨added, _, after, _⟩ := turn_of_waiting move.maxTasks move.core waiting
      have queue : move.outcome.warrior.tasks.waiting = others ++ rest ++ added := by
        show (turn move.maxTasks move.core move.entrant.warrior).warrior.tasks.waiting = _
        rw [after]
      refine ⟨fun _ => steps, ?_, ?_⟩
      · intro atMost
        have alone : others = [] := List.length_eq_zero_iff.mp (by simpa using atMost)
        exact ⟨[], by rw [steps, alone, List.append_nil]⟩
      · intro more
        have someLeft : others ≠ [] := by
          rintro rfl
          contradiction
        have survives : move.survives := by
          show move.outcome.warrior.isAlive
          simp [Warrior.isAlive, TaskQueue.isEmpty, queue, someLeft]
        refine ⟨move.outcome, ?_, rfl, ?_⟩
        · rw [register.entrants_round running]
          exact List.mem_map_of_mem (List.mem_filter.mpr ⟨member, survives⟩)
        · rw [queue, List.append_assoc]
          exact List.prefix_append others _

theorem served_round
    {limits : Limits}
    {register : Register}
    (paced : Paced limits register.battle) :
    ∃ played, Served played register register.round.2 register.round.1 := by
  by_cases running : register.battle.status = .running
  · refine ⟨1, ?_, nofun, ?_⟩
    · rw [Register.battle_round]
      exact (decided_of_running paced running).cycles
    · intro entrant there threads waits
      obtain ⟨move, member, rfl⟩ := Register.exists_move there
      exact executes_round running member waits
  · rw [register.round_of_ended running]
    exact ⟨0, served_refl register⟩

theorem served_rounds
    {limits : Limits}
    {register : Register}
    (paced : Paced limits register.battle)
    (count : Nat) :
    ∃ played, Served played register (register.rounds count).2 (register.rounds count).1 := by
  induction count generalizing register with
  | zero => exact ⟨0, served_refl register⟩
  | succ count inductionHypothesis =>
      obtain ⟨first, served⟩ := served_round paced
      obtain ⟨second, since⟩ := inductionHypothesis (Register.paced_round paced)
      exact ⟨first + second, served.append since⟩

/-! ## Histories -/

theorem served_enrol
    (register : Register)
    (command : Command)
    (joins : Joins register.battle (register.battle.placement? command)
      (register.battle.obey command).1)
    (joined : Joined register.battle (register.battle.obey command).1)
    (events : List Event) :
    Served 0 register (unsigned events) (register.enrol command joins) where
  cycles := by
    rw [Nat.add_zero, ← joined.cycles]
    rfl
  idle _ _ member := author_of_mem_unsigned member
  queues entrant member _ waits := executes_idle (fun _ written => author_of_mem_unsigned written)
    ⟨entrant, List.mem_append_left _ member, rfl, waits⟩

theorem served_obey
    {limits : Limits}
    {register : Register}
    (paced : Paced limits register.battle)
    (command : Command) :
    ∃ played, Served played register (register.obey command).2 (register.obey command).1 := by
  cases command with
  | load source =>
      exact ⟨0, served_enrol register (.load source) (joins_load _ _) (joined_load _ _) _⟩
  | place warrior offset =>
      exact ⟨0, served_enrol register (.place warrior offset) (joins_place _ _ _)
        (joined_place _ _ _) _⟩
  | round => exact served_round paced
  | run => exact served_rounds paced _

theorem served_follow
    {limits : Limits}
    {register : Register}
    (paced : Paced limits register.battle)
    (commands : List Command) :
    ∃ played, Served played register (register.follow commands).2 (register.follow commands).1 := by
  induction commands generalizing register with
  | nil => exact ⟨0, served_refl register⟩
  | cons command rest inductionHypothesis =>
      obtain ⟨first, served⟩ := served_obey paced command
      obtain ⟨second, since⟩ := inductionHypothesis (Register.paced_obey paced command)
      exact ⟨first + second, served.append since⟩

/-! ## Names -/

/-- An entry of a turn names a warrior that had its number before or was placed since under it, and
an entry of no turn is no step. -/
inductive Entry.Genuine (before : Register) (placements : List Placement) : Entry → Prop where
  | apart {event : Event}
      (noStep : event.stepAddress? = none) :
      Genuine before placements ⟨none, event⟩
  | turn {number : Nat} {event : Event} {warrior : Warrior}
      (about : event.warrior? = some warrior.name)
      (traced : Register.Traced (fun earlier later => later.name = earlier.name) before placements
        ⟨number, warrior⟩) :
      Genuine before placements ⟨some number, event⟩

theorem carried_name (limits : Limits) :
    Register.Carried limits fun earlier later => later.name = earlier.name where
  refl _ := rfl
  trans _ _ _ same same' := same'.trans same
  turn core warrior _ := name_turn limits.maxTasks core warrior

theorem stepAddress?_of_warrior? {event : Event} (about : event.warrior? = none) :
    event.stepAddress? = none := by
  cases event with
  | step => contradiction
  | fault => contradiction
  | died => rfl
  | won => rfl
  | tie => rfl
  | error => rfl

theorem genuine_round (register : Register) :
    ∀ entry ∈ register.round.2, entry.Genuine register [] := by
  intro entry member
  by_cases running : register.battle.status = .running
  · rw [register.round_of_running running] at member
    rcases List.mem_append.mp member with played | announced
    · obtain ⟨move, inRound, written⟩ := List.mem_flatMap.mp played
      obtain ⟨event, told, rfl⟩ := List.mem_map.mp written
      have about : event.warrior? = some move.entrant.warrior.name := by
        rcases List.mem_append.mp told with inTurn | died
        · exact warrior?_of_mem_turn inTurn
        · exact (warrior?_of_mem_obituary died).trans (congrArg some (name_turn _ _ _))
      exact .turn about (Or.inl ⟨move.entrant, entrant_mem_of_mem_moves inRound, rfl, rfl⟩)
    · obtain ⟨event, told, rfl⟩ := List.mem_map.mp announced
      refine .apart ?_
      cases status : register.battle.round.1.status with
      | running => simp [status, Status.announcement] at told
      | won name =>
          rw [status] at told
          rw [List.mem_singleton.mp told]
          rfl
      | tie =>
          rw [status] at told
          rw [List.mem_singleton.mp told]
          rfl
  · rw [register.round_of_ended running] at member
    contradiction

theorem Entry.Genuine.mono
    {before : Register}
    {placements : List Placement}
    {entry : Entry}
    (genuine : entry.Genuine before placements)
    (later : List Placement) :
    entry.Genuine before (placements ++ later) := by
  cases genuine with
  | apart noStep => exact .apart noStep
  | turn about traced =>
      refine .turn about ?_
      rcases traced with there | ⟨index, placement, found, number, same⟩
      · exact Or.inl there
      · refine Or.inr ⟨index, placement, ?_, number, same⟩
        rw [List.getElem?_append_left (List.getElem?_eq_some_iff.mp found).1, found]

/-- An entry that is genuine from the middle on is so from the beginning. -/
theorem Entry.Genuine.trans
    {before middle : Register}
    {placements later : List Placement}
    (counted : middle.battle.placed = before.battle.placed + placements.length)
    (traced : ∀ entrant ∈ middle.entrants,
      Register.Traced (fun earlier later => later.name = earlier.name) before placements entrant)
    {entry : Entry}
    (genuine : entry.Genuine middle later) :
    entry.Genuine before (placements ++ later) := by
  cases genuine with
  | apart noStep => exact .apart noStep
  | turn about since =>
      refine .turn about (Register.traced_append ?_ counted traced since)
      exact fun _ _ _ same same' => same'.trans same

section Genuine

variable {limits : Limits}

theorem genuine_rounds
    {register : Register}
    (paced : Paced limits register.battle)
    (count : Nat) :
    ∀ entry ∈ (register.rounds count).2, entry.Genuine register [] := by
  induction count generalizing register with
  | zero => exact fun _ written => absurd written List.not_mem_nil
  | succ count inductionHypothesis =>
      intro entry member
      rcases List.mem_append.mp member with early | late
      · exact genuine_round register entry early
      · exact Entry.Genuine.trans register.placed_round
          (Register.traced_round (carried_name limits) paced)
          (inductionHypothesis (Register.paced_round paced) entry late)

/-- Loading leaves no step in the log. -/
theorem genuine_unsigned
    {events : List Event}
    (about : ∀ event ∈ events, event.About [])
    (register : Register)
    (placements : List Placement) :
    ∀ entry ∈ unsigned events, entry.Genuine register placements := by
  intro entry member
  obtain ⟨event, told, rfl⟩ := List.mem_map.mp member
  refine .apart (stepAddress?_of_warrior? ?_)
  cases isName : event.warrior? with
  | none => rfl
  | some name => exact absurd (about event told name isName) List.not_mem_nil

theorem genuine_obey
    {register : Register}
    (paced : Paced limits register.battle)
    (command : Command) :
    ∀ entry ∈ (register.obey command).2,
      entry.Genuine register (register.battle.placement? command).toList := by
  cases command with
  | load source => exact genuine_unsigned (fun _ told => about_of_mem_load told []) register _
  | place warrior offset =>
      exact genuine_unsigned (fun _ told => about_of_mem_place told []) register _
  | round => exact genuine_round register
  | run => exact genuine_rounds paced _

theorem genuine_follow
    {register : Register}
    (paced : Paced limits register.battle)
    (commands : List Command) :
    ∀ entry ∈ (register.follow commands).2,
      entry.Genuine register (register.battle.placements commands) := by
  induction commands generalizing register with
  | nil => exact fun _ written => absurd written List.not_mem_nil
  | cons command rest inductionHypothesis =>
      intro entry member
      rcases List.mem_append.mp member with early | late
      · exact (genuine_obey paced command entry early).mono _
      · have since := inductionHypothesis (Register.paced_obey paced command) entry late
        rw [Register.battle_obey] at since
        exact Entry.Genuine.trans (register.placed_obey command)
          (Register.traced_obey (carried_name limits) paced command) since

end Genuine

/-- The addresses of the steps under a name. -/
def namedSteps (name : String) (events : List Event) : List UInt64 :=
  events.filterMap fun event =>
    if event.warrior? = some name then event.stepAddress? else none

/-- Nobody else in the register, and nobody placed since, has the name of the entrant. -/
structure Unmistakable
    (register : Register)
    (placements : List Placement)
    (entrant : Entrant) :
    Prop where
  there : ∀ other ∈ register.entrants,
    other.warrior.name = entrant.warrior.name → other = entrant
  since : ∀ placement ∈ placements, placement.placed.name ≠ entrant.warrior.name

/-- A genuine entry is of the turn of an unmistakable entrant exactly if it names it. -/
theorem author_iff_of_genuine
    {register : Register}
    {placements : List Placement}
    {entrant : Entrant}
    (member : entrant ∈ register.entrants)
    (unmistakable : Unmistakable register placements entrant)
    {number : Nat}
    {warrior : Warrior}
    (traced : Register.Traced (fun earlier later => later.name = earlier.name) register placements
      ⟨number, warrior⟩) :
    number = entrant.number ↔ warrior.name = entrant.warrior.name := by
  rcases traced with ⟨earlier, there, same, name⟩ | ⟨index, placement, found, counted, name⟩
  · constructor
    · intro isNumber
      rw [name, Register.eq_of_number there member (same.trans isNumber)]
    · intro isName
      rw [← unmistakable.there earlier there (name.symm.trans isName)]
      exact same.symm
  · constructor
    · intro isNumber
      have below := register.counted entrant member
      have above : number = register.battle.placed + index := counted
      omega
    · intro isName
      have other := unmistakable.since placement (List.mem_of_getElem? found)
      exact absurd (name.symm.trans isName) other

/-- An unmistakable entrant has the steps under its name. -/
theorem namedSteps_of_genuine
    {register : Register}
    {placements : List Placement}
    {entrant : Entrant}
    (member : entrant ∈ register.entrants)
    (unmistakable : Unmistakable register placements entrant)
    {entries : List Entry}
    (genuine : ∀ entry ∈ entries, entry.Genuine register placements) :
    namedSteps entrant.warrior.name (entries.map Entry.event) =
      stepAddresses entrant.number entries := by
  unfold namedSteps stepAddresses
  rw [List.filterMap_map]
  apply List.filterMap_congr
  intro entry written
  cases genuine entry written with
  | apart noStep => simp [noStep]
  | turn about traced =>
      have same := author_iff_of_genuine member unmistakable traced
      simp [about, same]

/-- The threads of a match run in the order of their queues, over any history and from then on over
any further one, however many rounds, loads and runs to the end it consists of. As many of the
threads that wait at its beginning as rounds are played are executed, in order, and as long as there
are others their warrior is there. The steps of a warrior are those in its own turns; they are the
steps under its name if nobody else in the match has that name. -/
theorem queues_executed_in_order
    {limits : Limits}
    {generator : Generator}
    {fresh : Battle}
    (created : create limits generator = .ok fresh)
    (commands more : List Command) :
    let register := ((Register.vacant limits generator).follow commands).1
    let further := register.follow more
    register.battle = (fresh.follow commands).1 ∧
    Register.erase further = register.battle.follow more ∧
    ∃ played, further.1.battle.cycles.toNat = register.battle.cycles.toNat + played ∧
      ∀ entrant ∈ register.entrants,
        Executes played entrant.number entrant.warrior.tasks.waiting further.2 further.1 ∧
        (Unmistakable register (register.battle.placements more) entrant →
          namedSteps entrant.warrior.name (register.battle.follow more).2 =
            stepAddresses entrant.number further.2) := by
  intro register further
  have same : register.battle = (fresh.follow commands).1 :=
    Register.battle_of_create created commands
  have paced : Paced limits register.battle := by
    rw [same]
    exact paced_follow created commands
  have erased : Register.erase further = register.battle.follow more :=
    Register.erase_follow register more
  obtain ⟨played, served⟩ := served_follow paced more
  refine ⟨same, erased, played, served.cycles, ?_⟩
  intro entrant member
  refine ⟨served.queues entrant member _ List.prefix_rfl, ?_⟩
  intro unmistakable
  rw [← erased]
  exact namedSteps_of_genuine member unmistakable (genuine_follow paced more)

/-- A warrior that forks, with two threads after the first round. In the next two rounds, between
which a third warrior is placed, it executes these two, though the first of them forks again. All
names are different, so the steps can be told by them. -/
theorem queues_executed_in_order_forker :
    let limits : Limits := ⟨8, 9, 4, 4⟩
    let fresh : Battle := { limits, core := .ofSize 8, generator := ⟨1, 2, 3, 4⟩ }
    let jumper : Warrior := .single "J" 0 [⟨.jmp, {}, {}⟩]
    let commands : List Command :=
      [.place (.single "F" 0 [⟨.frk, {}, {}⟩]) 0, .place jumper 4, .round]
    let more : List Command := [.round, .place jumper 6, .round]
    let register := ((Register.vacant limits ⟨1, 2, 3, 4⟩).follow commands).1
    create limits ⟨1, 2, 3, 4⟩ = .ok fresh ∧
    register.entrants.map (fun entrant => (entrant.number, entrant.warrior.tasks.waiting)) =
      [(0, [0, 1]), (1, [4])] ∧
    (register.follow more).1.entrants.map
        (fun entrant => (entrant.number, entrant.warrior.tasks.waiting)) =
      [(0, [0, 1]), (1, [4]), (2, [6])] ∧
    stepAddresses 0 (register.follow more).2 = [0, 1] ∧
    ∃ played, (register.follow more).1.battle.cycles.toNat =
        register.battle.cycles.toNat + played ∧
      ∀ entrant ∈ register.entrants,
        Executes played entrant.number entrant.warrior.tasks.waiting (register.follow more).2
          (register.follow more).1 ∧
        namedSteps entrant.warrior.name (register.battle.follow more).2 =
          stepAddresses entrant.number (register.follow more).2 := by
  intro limits fresh jumper commands more
  have created : create limits ⟨1, 2, 3, 4⟩ = .ok fresh :=
    (create_eq_ok_iff _ _ _).mpr ⟨by decide, rfl⟩
  have there : ∀ entrant ∈ ((Register.vacant limits ⟨1, 2, 3, 4⟩).follow commands).1.entrants,
      ∀ other ∈ ((Register.vacant limits ⟨1, 2, 3, 4⟩).follow commands).1.entrants,
        other.warrior.name = entrant.warrior.name → other = entrant := by
    decide +kernel
  have since : ∀ entrant ∈ ((Register.vacant limits ⟨1, 2, 3, 4⟩).follow commands).1.entrants,
      ∀ placement ∈
          ((Register.vacant limits ⟨1, 2, 3, 4⟩).follow commands).1.battle.placements more,
        placement.placed.name ≠ entrant.warrior.name := by
    decide +kernel
  refine ⟨created, by decide +kernel, by decide +kernel, by decide +kernel, ?_⟩
  obtain ⟨_, _, played, cycles, executed⟩ := queues_executed_in_order created commands more
  refine ⟨played, cycles, ?_⟩
  intro entrant member
  obtain ⟨executes, byName⟩ := executed entrant member
  exact ⟨executes, byName ⟨there entrant member, since entrant member⟩⟩

end Battle

end CoreWar
