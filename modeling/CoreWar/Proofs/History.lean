import CoreWar.Battle.Basic

/-!
Contract: the histories of a match.

Owns:
- the four commands of a caller: load a source, place a warrior, play a round, play to the end;
- carrying out a sequence of commands, with the events on the way;
- rounds in a row, and the account of `advance` and `run` in terms of them;
- what loading leaves alone, and the rule that an invariant of each command is one of every history.

Does not own: any particular invariant, see the modules beside this one.
-/

namespace CoreWar

/-- What a caller asks of a match. -/
inductive Command where
  /-- Assemble a source and place the warrior at a drawn place. -/
  | load (source : String)
  /-- Place a warrior at a given place. -/
  | place (warrior : Warrior) (offset : UInt64)
  | round
  /-- Play until the match has ended. -/
  | run
deriving DecidableEq, Repr

/-- The event that announces the end of a match. -/
def Status.announcement (cycles : UInt64) : Status → List Event
  | running => []
  | won warrior => [.won warrior]
  | tie => [.tie cycles]

namespace Battle

/-- The match after a command, and the events on the way. -/
def obey (battle : Battle) : Command → Battle × List Event
  | .load source => ((battle.load source).battle, (battle.load source).events)
  | .place warrior offset =>
    ((battle.place warrior offset).battle, (battle.place warrior offset).events)
  | .round => battle.round
  | .run => (battle.run.battle, battle.run.log.toList)

/-- The match after a sequence of commands, and all events on the way. -/
def follow (battle : Battle) : List Command → Battle × List Event
  | [] => (battle, [])
  | command :: rest =>
    let (next, events) := battle.obey command
    let (last, later) := next.follow rest
    (last, events ++ later)

/-- The match after a number of rounds, and all events on the way. -/
def rounds (battle : Battle) (count : Nat) : Battle × List Event :=
  battle.follow (List.replicate count .round)

theorem follow_append (battle : Battle) (front back : List Command) :
    battle.follow (front ++ back) =
      (((battle.follow front).1.follow back).1,
        (battle.follow front).2 ++ ((battle.follow front).1.follow back).2) := by
  induction front generalizing battle with
  | nil => rfl
  | cons command rest inductionHypothesis =>
      simp only [List.cons_append, follow, inductionHypothesis, List.append_assoc]

/-! ## Invariants of histories -/

/-- What every allowed command keeps, and shows in its events, is kept and shown by every sequence
of such commands. -/
theorem follow_keeps
    (Holds : Battle → Prop)
    (Allowed : Command → Prop)
    (Shown : Event → Prop)
    (keeps : ∀ battle command, Allowed command → Holds battle →
      Holds (battle.obey command).1 ∧ ∀ event ∈ (battle.obey command).2, Shown event)
    (battle : Battle)
    (commands : List Command)
    (allowed : ∀ command ∈ commands, Allowed command)
    (holds : Holds battle) :
    Holds (battle.follow commands).1 ∧ ∀ event ∈ (battle.follow commands).2, Shown event := by
  induction commands generalizing battle with
  | nil => exact ⟨holds, by simp [follow]⟩
  | cons command rest inductionHypothesis =>
      obtain ⟨nextHolds, nowShown⟩ :=
        keeps battle command (allowed command List.mem_cons_self) holds
      have restAllowed : ∀ other ∈ rest, Allowed other := fun other member =>
        allowed other (List.mem_cons_of_mem command member)
      obtain ⟨lastHolds, laterShown⟩ :=
        inductionHypothesis (battle.obey command).1 restAllowed nextHolds
      refine ⟨lastHolds, ?_⟩
      intro event member
      rcases List.mem_append.mp member with now | later
      · exact nowShown event now
      · exact laterShown event later

/-- The same for rounds alone. -/
theorem rounds_keeps
    (Holds : Battle → Prop)
    (Shown : Event → Prop)
    (keeps : ∀ battle, Holds battle → Holds battle.round.1 ∧ ∀ event ∈ battle.round.2, Shown event)
    (battle : Battle)
    (count : Nat)
    (holds : Holds battle) :
    Holds (battle.rounds count).1 ∧ ∀ event ∈ (battle.rounds count).2, Shown event := by
  refine follow_keeps Holds (· = .round) Shown ?_ battle _ ?_ holds
  · rintro other command rfl otherHolds
    exact keeps other otherHolds
  · intro command member
    exact List.eq_of_mem_replicate member

/-! ## Loading -/

/-- A program that is too long is rejected. -/
theorem place_of_long
    (battle : Battle)
    (warrior : Warrior)
    (offset : UInt64)
    (long : battle.limits.maxLength.toNat ≤ warrior.program.length) :
    battle.place warrior offset =
      battle.reject (.tooLong (battle.numbered warrior).name warrior.program.length
        battle.limits.maxLength) := by
  unfold place
  exact if_pos long

/-- The match with one more warrior in it. -/
def enlist (battle : Battle) (warrior : Warrior) (offset : UInt64) : Battle :=
  let launched := launch battle.core (battle.numbered warrior) offset
  { battle with
    core := battle.core.load offset warrior.program
    roster := battle.roster ++ [launched]
    placed := battle.placed + 1
    lastStart := launched.start }

/-- Any other program is placed. -/
theorem place_of_short
    (battle : Battle)
    (warrior : Warrior)
    (offset : UInt64)
    (short : warrior.program.length < battle.limits.maxLength.toNat) :
    battle.place warrior offset =
      ⟨battle.enlist warrior offset,
        .ok (launch battle.core (battle.numbered warrior) offset), []⟩ := by
  unfold place
  exact if_neg (Nat.not_le.mpr short)

/-- Loading draws a place, then places what the source assembles to. -/
theorem load_eq (battle : Battle) (source : String) :
    battle.load source =
      match Assembly.assemble battle.limits source with
      | .ok warrior => battle.drawOffset.2.place warrior battle.drawOffset.1
      | .error error => battle.drawOffset.2.reject (.assembly error) := rfl

/-- What loading leaves alone: the limits, the outcome, the rounds played and the warriors there. -/
structure Joined (before after : Battle) : Prop where
  limits : after.limits = before.limits
  status : after.status = before.status
  cycles : after.cycles = before.cycles
  roster : before.roster <+: after.roster

theorem joined_place (battle : Battle) (warrior : Warrior) (offset : UInt64) :
    Joined battle (battle.place warrior offset).battle := by
  by_cases short : warrior.program.length < battle.limits.maxLength.toNat
  · rw [place_of_short battle warrior offset short]
    exact ⟨rfl, rfl, rfl, List.prefix_append _ _⟩
  · rw [place_of_long battle warrior offset (Nat.not_lt.mp short)]
    exact ⟨rfl, rfl, rfl, List.prefix_rfl⟩

theorem joined_load (battle : Battle) (source : String) :
    Joined battle (battle.load source).battle := by
  rw [load_eq]
  cases Assembly.assemble battle.limits source with
  | ok warrior =>
      obtain ⟨limits, status, cycles, roster⟩ :=
        joined_place battle.drawOffset.2 warrior battle.drawOffset.1
      exact ⟨limits, status, cycles, roster⟩
  | error error => exact ⟨rfl, rfl, rfl, List.prefix_rfl⟩

/-! ## One round -/

theorem isRunning_eq_true (battle : Battle) :
    battle.isRunning = true ↔ battle.status = .running := by
  simp [isRunning]

theorem play_of_ended (battle : Battle) (ended : battle.status ≠ .running) :
    battle.play = ⟨battle, [], false⟩ := by
  unfold play
  split
  · contradiction
  · rfl

/-- A match that has ended is not changed by a round, and nothing happens in it. -/
theorem round_of_ended (battle : Battle) (ended : battle.status ≠ .running) :
    battle.round = (battle, []) := by
  rw [round, play_of_ended battle ended]

/-- Where a match stands after a round, by the warriors left and the rounds played. -/
def verdict (limits : Limits) (cycles : UInt64) : List Warrior → Status
  | [warrior] => .won warrior.name
  | [] => .tie
  | _ => if limits.maxCycles ≤ cycles then .tie else .running

/-- A round of a running match: its turns, then the verdict. Each way to end the round gives the
status of its own, with the answer that belongs to it. -/
theorem play_of_running (battle : Battle) (running : battle.status = .running) :
    battle.play =
      let played := turns battle.limits.maxTasks battle.core battle.roster
      let status := verdict battle.limits (battle.cycles + 1) played.survivors
      ⟨{ battle with
          core := played.core
          roster := played.survivors
          status
          cycles := battle.cycles + 1 },
        played.events ++ status.announcement (battle.cycles + 1),
        status = .running⟩ := by
  unfold play
  rw [running]
  cases battle with
  | mk limits core roster status cycles placed lastStart generator =>
  simp only
  generalize turns limits.maxTasks core roster = played
  cases played with
  | mk core survivors events =>
  match survivors with
  | [] => rfl
  | [winner] => rfl
  | first :: second :: others =>
      by_cases reached : limits.maxCycles ≤ cycles + 1
      · simp [verdict, reached, tied, Status.announcement]
      · have still : status = .running := running
        simp [verdict, reached, Status.announcement, still]

theorem round_of_running (battle : Battle) (running : battle.status = .running) :
    battle.round =
      let played := turns battle.limits.maxTasks battle.core battle.roster
      let status := verdict battle.limits (battle.cycles + 1) played.survivors
      ({ battle with
          core := played.core
          roster := played.survivors
          status
          cycles := battle.cycles + 1 },
        played.events ++ status.announcement (battle.cycles + 1)) := by
  rw [round, play_of_running battle running]

/-- A round answers whether the match is still running. -/
theorem more_play (battle : Battle) : battle.play.more = battle.round.1.isRunning := by
  by_cases running : battle.status = .running
  · rw [round_of_running battle running, play_of_running battle running]
    rfl
  · rw [round_of_ended battle running, play_of_ended battle running, isRunning]
    simp [running]

/-! ## Rounds in a row -/

@[simp]
theorem rounds_zero (battle : Battle) : battle.rounds 0 = (battle, []) := rfl

theorem rounds_succ (battle : Battle) (count : Nat) :
    battle.rounds (count + 1) =
      ((battle.round.1.rounds count).1, battle.round.2 ++ (battle.round.1.rounds count).2) := rfl

theorem rounds_add (battle : Battle) (count more : Nat) :
    battle.rounds (count + more) =
      (((battle.rounds count).1.rounds more).1,
        (battle.rounds count).2 ++ ((battle.rounds count).1.rounds more).2) := by
  rw [rounds, ← List.replicate_append_replicate, follow_append]
  rfl

theorem rounds_succ_last (battle : Battle) (count : Nat) :
    battle.rounds (count + 1) =
      ((battle.rounds count).1.round.1,
        (battle.rounds count).2 ++ (battle.rounds count).1.round.2) := by
  rw [rounds_add, rounds_succ, rounds_zero, List.append_nil]

/-- A call for a round goes on to the next one if the match does. -/
theorem extend_succ (progress : Progress) (count : Nat) :
    progress.extend (count + 1) =
      if progress.battle.round.1.isRunning then
        Progress.extend ⟨progress.battle.round.1, progress.calls + 1, true,
          progress.log ++ progress.battle.round.2⟩ count
      else
        ⟨progress.battle.round.1, progress.calls + 1, false,
          progress.log ++ progress.battle.round.2⟩ := by
  rw [← more_play]
  cases goesOn : progress.battle.play.more with
  | true => simp [Progress.extend, goesOn, round]
  | false => simp [Progress.extend, goesOn, round]

/-- Calls for rounds play some number of rounds in a row. All but the last of them left the match
running, and if there were fewer than called for, the last one did not. -/
theorem extend_eq
    (battle : Battle)
    (calls : Nat)
    (more : Bool)
    (log : Array Event)
    (count : Nat) :
    ∃ added ≤ count,
      Progress.extend ⟨battle, calls, more, log⟩ count =
        ⟨(battle.rounds added).1, calls + added,
          if added = 0 then more else (battle.rounds added).1.isRunning,
          log ++ (battle.rounds added).2⟩ ∧
      (∀ earlier, 0 < earlier → earlier < added →
        (battle.rounds earlier).1.status = .running) ∧
      (added < count → 0 < added ∧ (battle.rounds added).1.status ≠ .running) := by
  induction count generalizing battle calls more log with
  | zero => exact ⟨0, Nat.le_refl 0, by simp [Progress.extend]⟩
  | succ count inductionHypothesis =>
      by_cases running : battle.round.1.status = .running
      · -- The first call left the match running, so the rest of the calls follow it.
        obtain ⟨added, bounded, played, earlierRunning, stopped⟩ :=
          inductionHypothesis battle.round.1 (calls + 1) true (log ++ battle.round.2)
        refine ⟨added + 1, Nat.succ_le_succ bounded, ?_, ?_, ?_⟩
        · have calledOn : Progress.extend ⟨battle, calls, more, log⟩ (count + 1) =
              Progress.extend ⟨battle.round.1, calls + 1, true, log ++ battle.round.2⟩ count := by
            simp [extend_succ, isRunning, running]
          rw [calledOn, played, rounds_succ]
          have joined : log ++ battle.round.2 ++ (battle.round.1.rounds added).2 =
              log ++ (battle.round.2 ++ (battle.round.1.rounds added).2) := by
            apply Array.toList_inj.mp
            simp
          rw [joined]
          by_cases noneAdded : added = 0
          · subst noneAdded
            simp [isRunning, running]
          · simp [noneAdded, Nat.add_assoc, Nat.add_comm 1]
        · intro earlier positive below
          obtain ⟨index, rfl⟩ := Nat.exists_eq_add_of_lt positive
          rw [Nat.zero_add, rounds_succ]
          by_cases first : index = 0
          · subst first
            exact running
          · exact earlierRunning index (by omega) (by omega)
        · intro fewer
          exact ⟨Nat.succ_pos added, (stopped (by omega)).2⟩
      · refine ⟨1, by omega, ?_, by omega, ?_⟩
        · simp [extend_succ, isRunning, running, rounds_succ]
        · exact fun _ => ⟨Nat.one_pos, running⟩

/-- Playing to the end plays as many rounds as are called for. -/
theorem run_eq_rounds (battle : Battle) :
    (battle.run.battle, battle.run.log.toList) = battle.rounds battle.run.calls := by
  obtain ⟨added, _, played, _⟩ :=
    extend_eq battle 0 true #[] (battle.limits.maxCycles.toNat - battle.cycles.toNat + 1)
  have calls : battle.run.calls = added := by
    rw [← Nat.zero_add added]
    exact congrArg Progress.calls played
  have last : battle.run.battle = (battle.rounds added).1 := congrArg Progress.battle played
  have log : battle.run.log = #[] ++ (battle.rounds added).2 := congrArg Progress.log played
  rw [calls, last, log]
  simp

/-- What every round keeps, and shows in its events, playing to the end keeps and shows. -/
theorem run_keeps
    (Holds : Battle → Prop)
    (Shown : Event → Prop)
    (keeps : ∀ battle, Holds battle → Holds battle.round.1 ∧ ∀ event ∈ battle.round.2, Shown event)
    (battle : Battle)
    (holds : Holds battle) :
    Holds battle.run.battle ∧ ∀ event ∈ battle.run.log.toList, Shown event := by
  have kept := rounds_keeps Holds Shown keeps battle battle.run.calls holds
  rwa [← run_eq_rounds] at kept

end Battle

end CoreWar
