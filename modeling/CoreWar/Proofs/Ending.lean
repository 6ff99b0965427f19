import CoreWar.Proofs.Confinement

/-!
Contract: the end of a match is announced once and is final.

Owns:
- the events that announce an end, and those that announce a rejected warrior;
- the log of a history: events that announce no end, the announcement if the match has ended, and
  behind it rejections only;
- what commands do to a match that has ended.

Does not own: how a match ends, see `CoreWar.Proofs.Outcome`.

Only a round can end a match, and it announces the end in the same breath. Everything else that a
caller can do leaves the outcome alone and announces nothing but rejected warriors.
-/

namespace CoreWar

namespace Event

/-- The event announces the end of a match. -/
def isVerdict : Event → Bool
  | won _ => true
  | tie _ => true
  | _ => false

/-- The event announces a rejected warrior. -/
def isError : Event → Bool
  | error _ => true
  | _ => false

theorem isVerdict_of_isError {event : Event} (isError : event.isError) :
    event.isVerdict = false := by
  cases event with
  | error => rfl
  | step => contradiction
  | fault => contradiction
  | died => contradiction
  | won => contradiction
  | tie => contradiction

end Event

namespace Battle

/-! ## Announcements -/

theorem isVerdict_of_mem_announcement
    {status : Status}
    {cycles : UInt64}
    {event : Event}
    (member : event ∈ status.announcement cycles) :
    event.isVerdict := by
  cases status with
  | running => contradiction
  | won name => rw [List.mem_singleton.mp member]; rfl
  | tie => rw [List.mem_singleton.mp member]; rfl

theorem length_announcement (status : Status) (cycles : UInt64) :
    (status.announcement cycles).length = if status = .running then 0 else 1 := by
  cases status with
  | running => rfl
  | won name => rfl
  | tie => rfl

/-- The turns of a round announce no end. -/
theorem isVerdict_of_mem_turns
    {maxTasks : UInt64}
    {core : Core}
    {roster : List Warrior}
    {event : Event}
    (member : event ∈ (turns maxTasks core roster).events) :
    event.isVerdict = false := by
  induction roster generalizing core with
  | nil => contradiction
  | cons warrior rest inductionHypothesis =>
      rw [turns_cons] at member
      rcases List.mem_append.mp member with played | following
      · obtain ⟨_, rfl | ⟨_, rfl⟩⟩ := step_or_fault_of_mem_turn played
        · rfl
        · rfl
      · rcases List.mem_append.mp following with died | later
        · rw [Turn.eq_died_of_mem_obituary died]
          rfl
        · exact inductionHypothesis later

/-! ## Stretches of a match -/

/-- The log of a match that stands as given: what announces no end, then the announcement of the end
if there is one, then rejected warriors. -/
def Announced (battle : Battle) (log : List Event) : Prop :=
  ∃ front back, log = front ++ (battle.status.announcement battle.cycles ++ back) ∧
    (∀ event ∈ front, event.isVerdict = false) ∧
    ∀ event ∈ back, event.isError

/-- A stretch of a match: the end is announced if it comes, and is final if it has come before. -/
structure Concluded (before : Battle) (log : List Event) (after : Battle) : Prop where
  announced : before.status = .running → Announced after log
  errors : before.status ≠ .running → ∀ event ∈ log, event.isError
  status : before.status ≠ .running → after.status = before.status
  cycles : before.status ≠ .running → after.cycles = before.cycles

/-- A stretch that leaves the outcome alone and announces rejected warriors only. -/
theorem concluded_of_errors
    {before after : Battle}
    {log : List Event}
    (errors : ∀ event ∈ log, event.isError)
    (status : after.status = before.status)
    (cycles : after.cycles = before.cycles) :
    Concluded before log after where
  announced running := by
    refine ⟨[], log, ?_, by simp, errors⟩
    rw [status, running]
    rfl
  errors _ := errors
  status _ := status
  cycles _ := cycles

theorem Concluded.append
    {before middle after : Battle}
    {log later : List Event}
    (concluded : Concluded before log middle)
    (since : Concluded middle later after) :
    Concluded before (log ++ later) after := by
  refine ⟨?_, ?_, ?_, ?_⟩
  · intro running
    obtain ⟨front, back, split, noEnd, errors⟩ := concluded.announced running
    by_cases stillRunning : middle.status = .running
    · obtain ⟨front', back', split', noEnd', errors'⟩ := since.announced stillRunning
      rw [stillRunning] at split
      refine ⟨front ++ back ++ front', back', ?_, ?_, errors'⟩
      · rw [split, split']
        simp [Status.announcement]
      · intro event member
        rcases List.mem_append.mp member with early | late
        · rcases List.mem_append.mp early with inFront | inBack
          · exact noEnd event inFront
          · exact Event.isVerdict_of_isError (errors event inBack)
        · exact noEnd' event late
    · refine ⟨front, back ++ later, ?_, noEnd, ?_⟩
      · rw [since.status stillRunning, since.cycles stillRunning, split]
        simp
      · intro event member
        rcases List.mem_append.mp member with early | late
        · exact errors event early
        · exact since.errors stillRunning event late
  · intro ended event member
    have stillEnded : middle.status ≠ .running := by rwa [concluded.status ended]
    rcases List.mem_append.mp member with early | late
    · exact concluded.errors ended event early
    · exact since.errors stillEnded event late
  · intro ended
    have stillEnded : middle.status ≠ .running := by rwa [concluded.status ended]
    rw [since.status stillEnded, concluded.status ended]
  · intro ended
    have stillEnded : middle.status ≠ .running := by rwa [concluded.status ended]
    rw [since.cycles stillEnded, concluded.cycles ended]

theorem concluded_refl (battle : Battle) : Concluded battle [] battle :=
  concluded_of_errors (by simp) rfl rfl

theorem concluded_round (battle : Battle) : Concluded battle battle.round.2 battle.round.1 := by
  by_cases running : battle.status = .running
  · refine ⟨fun _ => ?_, fun ended => absurd running ended, fun ended => absurd running ended,
      fun ended => absurd running ended⟩
    rw [round_of_running battle running]
    refine ⟨_, [], by rw [List.append_nil], ?_, by simp⟩
    exact fun event member => isVerdict_of_mem_turns member
  · rw [round_of_ended battle running]
    exact concluded_refl battle

theorem concluded_rounds (battle : Battle) (count : Nat) :
    Concluded battle (battle.rounds count).2 (battle.rounds count).1 := by
  induction count generalizing battle with
  | zero => exact concluded_refl battle
  | succ count inductionHypothesis =>
      rw [rounds_succ]
      exact (concluded_round battle).append (inductionHypothesis battle.round.1)

/-! ## Histories -/

theorem isError_of_mem_place
    {battle : Battle}
    {warrior : Warrior}
    {offset : UInt64}
    {event : Event}
    (member : event ∈ (battle.place warrior offset).events) :
    event.isError := by
  by_cases short : warrior.program.length < battle.limits.maxLength.toNat
  · rw [place_of_short battle warrior offset short] at member
    contradiction
  · rw [place_of_long battle warrior offset (Nat.not_lt.mp short)] at member
    rw [List.mem_singleton.mp member]
    rfl

theorem isError_of_mem_load
    {battle : Battle}
    {source : String}
    {event : Event}
    (member : event ∈ (battle.load source).events) :
    event.isError := by
  rw [load_eq] at member
  cases assembled : Assembly.assemble battle.limits source with
  | ok warrior =>
      rw [assembled] at member
      exact isError_of_mem_place member
  | error error =>
      rw [assembled] at member
      rw [List.mem_singleton.mp member]
      rfl

theorem concluded_obey (battle : Battle) (command : Command) :
    Concluded battle (battle.obey command).2 (battle.obey command).1 := by
  cases command with
  | load source =>
      have joined := joined_load battle source
      exact concluded_of_errors (fun _ => isError_of_mem_load) joined.status joined.cycles
  | place warrior offset =>
      have joined := joined_place battle warrior offset
      exact concluded_of_errors (fun _ => isError_of_mem_place) joined.status joined.cycles
  | round => exact concluded_round battle
  | run =>
      have played := concluded_rounds battle battle.run.calls
      rwa [← run_eq_rounds] at played

theorem concluded_follow (battle : Battle) (commands : List Command) :
    Concluded battle (battle.follow commands).2 (battle.follow commands).1 := by
  induction commands generalizing battle with
  | nil => exact concluded_refl battle
  | cons command rest inductionHypothesis =>
      exact (concluded_obey battle command).append (inductionHypothesis (battle.obey command).1)

/-- What is announced, by the log of a match. -/
theorem filter_of_announced
    {battle : Battle}
    {log : List Event}
    (announced : Announced battle log) :
    log.filter Event.isVerdict = battle.status.announcement battle.cycles := by
  obtain ⟨front, back, rfl, noEnd, errors⟩ := announced
  have inFront : front.filter Event.isVerdict = [] :=
    List.filter_eq_nil_iff.mpr fun event member => by simp [noEnd event member]
  have inBack : back.filter Event.isVerdict = [] :=
    List.filter_eq_nil_iff.mpr fun event member => by
      simp [Event.isVerdict_of_isError (errors event member)]
  have atEnd : (battle.status.announcement battle.cycles).filter Event.isVerdict =
      battle.status.announcement battle.cycles :=
    List.filter_eq_self.mpr fun event member => isVerdict_of_mem_announcement member
  rw [List.filter_append, List.filter_append, inFront, inBack, atEnd, List.append_nil,
    List.nil_append]

/-- An end is in the log exactly if it is the one that is announced. -/
theorem mem_log_iff
    {battle : Battle}
    {log : List Event}
    (announced : Announced battle log)
    {event : Event}
    (isVerdict : event.isVerdict) :
    event ∈ log ↔ event ∈ battle.status.announcement battle.cycles := by
  rw [← filter_of_announced announced, List.mem_filter]
  simp [isVerdict]

/-- Behind an end there are rejected warriors only. -/
theorem isError_of_mem_back
    {battle : Battle}
    {log : List Event}
    (announced : Announced battle log)
    {front back : List Event}
    {event : Event}
    (split : log = front ++ event :: back)
    (isVerdict : event.isVerdict) :
    ∀ later ∈ back, later.isError := by
  obtain ⟨front', back', split', noEnd, errors⟩ := announced
  -- The end does not stand in the front part, so it stands in the announcement or behind it.
  have inside :
      ∃ gap, battle.status.announcement battle.cycles ++ back' = gap ++ event :: back := by
    rcases List.append_eq_append_iff.mp (split.symm.trans split') with
      ⟨gap, early, late⟩ | ⟨gap, _, late⟩
    · cases gap with
      | nil => exact ⟨[], late.symm⟩
      | cons first others =>
          rw [List.cons_append, List.cons.injEq] at late
          have inFront : event ∈ front' := by
            rw [early, late.1]
            simp
          rw [noEnd event inFront] at isVerdict
          contradiction
    · exact ⟨gap, late⟩
  obtain ⟨gap, late⟩ := inside
  have shorter : back.length ≤ back'.length := by
    have lengths := congrArg List.length late
    have single := length_announcement battle.status battle.cycles
    simp only [List.length_append, List.length_cons] at lengths
    split at single <;> omega
  have atEnd : back <:+ battle.status.announcement battle.cycles ++ back' := by
    rw [late]
    exact (List.suffix_cons event back).trans (List.suffix_append gap _)
  have behind : back <:+ back' :=
    List.suffix_of_suffix_length_le atEnd (List.suffix_append _ back') shorter
  exact fun later member => errors later (behind.subset member)

theorem exists_message_of_isError {event : Event} (isError : event.isError) :
    ∃ message, event = .error message := by
  cases event with
  | error message => exact ⟨message, rfl⟩
  | step => contradiction
  | fault => contradiction
  | died => contradiction
  | won => contradiction
  | tie => contradiction

/-- What further commands do to a match that has ended. -/
structure Final (battle : Battle) (more : List Command) : Prop where
  status : (battle.follow more).1.status = battle.status
  cycles : (battle.follow more).1.cycles = battle.cycles
  errors : ∀ event ∈ (battle.follow more).2, ∃ message, event = .error message
  /-- A round is not played: nothing happens, and the call for it answers that the match is over. -/
  round : (battle.follow more).1.advance 1 = ⟨(battle.follow more).1, 1, false, #[]⟩

theorem final_of_ended {battle : Battle} (ended : battle.status ≠ .running) (more : List Command) :
    Final battle more := by
  have concluded := concluded_follow battle more
  have status := concluded.status ended
  have stillEnded : (battle.follow more).1.status ≠ .running := by rwa [status]
  refine ⟨status, concluded.cycles ended, ?_, ?_⟩
  · exact fun event member => exists_message_of_isError (concluded.errors ended event member)
  · have notRunning : (battle.follow more).1.isRunning = false := by simp [isRunning, stillEnded]
    simp [advance, extend_succ, round_of_ended _ stillEnded, notRunning]

/-- The end of a match, over any history of it. The log holds an end exactly if the match has ended,
and then one: that of the warrior who has won, or a tie with the rounds played. Behind it there are
rejected warriors only, and no further command changes the outcome or the count of rounds. -/
theorem end_announced_once_and_final
    {limits : Limits}
    {generator : Generator}
    {fresh : Battle}
    (created : create limits generator = .ok fresh)
    (commands : List Command) :
    let battle := (fresh.follow commands).1
    let log := (fresh.follow commands).2
    ((∃ event ∈ log, event.isVerdict) ↔ battle.status ≠ .running) ∧
    (battle.status ≠ .running → log.countP Event.isVerdict = 1) ∧
    (∀ name, .won name ∈ log ↔ battle.status = .won name) ∧
    (∀ cycles, .tie cycles ∈ log ↔ battle.status = .tie ∧ cycles = battle.cycles) ∧
    (∀ front event back, log = front ++ event :: back → event.isVerdict →
      ∀ later ∈ back, ∃ message, later = .error message) ∧
    (battle.status ≠ .running → ∀ more, Final battle more) := by
  intro battle log
  have isFresh := ((create_eq_ok_iff limits generator fresh).mp created).2
  have running : fresh.status = .running := by rw [isFresh]
  have announced : Announced battle log := (concluded_follow fresh commands).announced running
  have count : log.countP Event.isVerdict = if battle.status = .running then 0 else 1 := by
    rw [List.countP_eq_length_filter, filter_of_announced announced, length_announcement]
  refine ⟨?_, ?_, ?_, ?_, ?_, final_of_ended⟩
  · rw [← List.countP_pos_iff, count]
    split <;> simp_all
  · intro ended
    rw [count, if_neg ended]
  · intro name
    rw [mem_log_iff announced rfl]
    cases battle.status <;> simp [Status.announcement, eq_comm]
  · intro cycles
    rw [mem_log_iff announced rfl]
    cases battle.status <;> simp [Status.announcement]
  · intro front event back split isVerdict later member
    exact exists_message_of_isError (isError_of_mem_back announced split isVerdict later member)

/-- A match that is won in its first round, and then a rejected warrior, a placed one and a call to
play to the end. -/
theorem end_announced_once_and_final_won :
    let limits : Limits := ⟨8, 5, 2, 2⟩
    let fresh : Battle := { limits, core := .ofSize 8, generator := ⟨1, 2, 3, 4⟩ }
    let jump : Instruction := ⟨.jmp, {}, {}⟩
    let commands : List Command :=
      [.place (.single "J" 0 [jump]) 0, .place (.single "D" 0 [.cleared]) 4, .round,
        .place (.single "L" 0 [jump, jump]) 2, .place (.single "J" 0 [jump]) 6, .run]
    let battle := (fresh.follow commands).1
    let log := (fresh.follow commands).2
    create limits ⟨1, 2, 3, 4⟩ = .ok fresh ∧
    battle.status = .won "J0" ∧
    log = [.step "J0" 0 jump, .step "D1" 4 .cleared, .died "D1", .won "J0",
      .error "Warrior loading error: Warrior 'L2' exceeds (2) the instruction limit: 2"] ∧
    log.countP Event.isVerdict = 1 ∧
    Final battle [.round, .run] := by
  intro limits fresh jump commands
  have created : create limits ⟨1, 2, 3, 4⟩ = .ok fresh :=
    (create_eq_ok_iff _ _ _).mpr ⟨by decide, rfl⟩
  have won : (fresh.follow commands).1.status = .won "J0" := by decide +kernel
  have ended : (fresh.follow commands).1.status ≠ .running := by simp [won]
  obtain ⟨_, once, _, _, _, final⟩ := end_announced_once_and_final created commands
  exact ⟨created, won, by decide +kernel, once ended, final ended _⟩

end Battle

end CoreWar
