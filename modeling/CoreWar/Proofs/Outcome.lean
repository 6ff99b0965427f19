import CoreWar.Proofs.History

/-!
Contract: how and when a match ends.

Owns:
- the verdict of a round, by the warriors left and the rounds played;
- the pace of a match: the rounds played stay within the limit, below it while the match runs, and a
  match that runs on after a round has at least two warriors;
- playing to the end: it ends within the rounds left.

Does not own: what the turns of a round do, see `CoreWar.Battle.Basic`.
-/

namespace CoreWar.Battle

/-! ## The verdict of a round -/

theorem verdict_eq_won_iff
    (limits : Limits)
    (cycles : UInt64)
    (survivors : List Warrior)
    (name : String) :
    verdict limits cycles survivors = .won name ↔
      ∃ warrior, survivors = [warrior] ∧ warrior.name = name := by
  unfold verdict
  split
  · simp
  · simp
  · rename_i notOne _
    constructor
    · intro won
      split at won <;> contradiction
    · intro single
      obtain ⟨warrior, one, _⟩ := single
      exact absurd one (notOne warrior)

theorem two_le_length {survivors : List Warrior}
    (notOne : ∀ warrior, survivors ≠ [warrior])
    (notNone : survivors ≠ []) :
    2 ≤ survivors.length := by
  match survivors with
  | [] => contradiction
  | [warrior] => exact absurd rfl (notOne warrior)
  | _ :: _ :: _ => simp

theorem verdict_eq_tie_iff (limits : Limits) (cycles : UInt64) (survivors : List Warrior) :
    verdict limits cycles survivors = .tie ↔
      survivors = [] ∨ (2 ≤ survivors.length ∧ limits.maxCycles ≤ cycles) := by
  unfold verdict
  split
  · simp
  · simp
  · rename_i notOne notNone
    have several : 2 ≤ survivors.length := two_le_length notOne notNone
    by_cases reached : limits.maxCycles ≤ cycles
    · simp [reached, several]
    · simpa [reached] using notNone

theorem verdict_eq_running_iff (limits : Limits) (cycles : UInt64) (survivors : List Warrior) :
    verdict limits cycles survivors = .running ↔
      2 ≤ survivors.length ∧ cycles < limits.maxCycles := by
  unfold verdict
  split
  · simp
  · simp
  · rename_i notOne notNone
    have several : 2 ≤ survivors.length := two_le_length notOne notNone
    by_cases reached : limits.maxCycles ≤ cycles
    · simp [reached, UInt64.not_lt.mpr reached]
    · simp [reached, several, UInt64.not_le.mp reached]

/-! ## The pace of a match -/

/-- The rounds played are within the limit, and below it while the match runs; a match that runs on
after a round has at least two warriors. -/
structure Paced (limits : Limits) (battle : Battle) : Prop where
  limits_eq : battle.limits = limits
  within : battle.cycles ≤ limits.maxCycles
  below : battle.status = .running → battle.cycles < limits.maxCycles
  contested : battle.status = .running → 0 < battle.cycles → 2 ≤ battle.roster.length

/-- A fresh match: limits that can be played, a cleared core, and nothing else yet. -/
theorem create_eq_ok_iff (limits : Limits) (generator : Generator) (fresh : Battle) :
    create limits generator = .ok fresh ↔
      limits.Playable ∧ fresh = { limits, core := .ofSize limits.coreSize, generator } := by
  rw [← Limits.check_eq_ok_iff]
  unfold create
  cases limits.check with
  | error error => simp [bind, Except.bind]
  | ok _ => simp [bind, Except.bind, pure, Except.pure, eq_comm]

theorem paced_create
    {limits : Limits}
    {generator : Generator}
    {fresh : Battle}
    (created : create limits generator = .ok fresh) :
    Paced limits fresh := by
  obtain ⟨playable, rfl⟩ := (create_eq_ok_iff limits generator fresh).mp created
  have positive : 0 < limits.maxCycles := UInt64.pos_iff_ne_zero.mpr playable.2.1
  exact ⟨rfl, UInt64.le_of_lt positive, fun _ => positive, fun _ later => absurd later (by simp)⟩

theorem paced_of_joined
    {limits : Limits}
    {before after : Battle}
    (joined : Joined before after)
    (paced : Paced limits before) :
    Paced limits after where
  limits_eq := joined.limits.trans paced.limits_eq
  within := joined.cycles ▸ paced.within
  below := by
    rw [joined.status, joined.cycles]
    exact paced.below
  contested := by
    rw [joined.status, joined.cycles]
    intro running later
    exact Nat.le_trans (paced.contested running later) joined.roster.length_le

/-- Below the limit the count of rounds has room for one more. -/
theorem toNat_cycles_succ {cycles limit : UInt64} (below : cycles < limit) :
    (cycles + 1).toNat = cycles.toNat + 1 := by
  have bound : limit.toNat < 0x10000000000000000 := limit.toNat_lt
  rw [UInt64.lt_iff_toNat_lt] at below
  rw [UInt64.toNat_add, UInt64.toNat_one]
  omega

theorem paced_round {limits : Limits} {battle : Battle} (paced : Paced limits battle) :
    Paced limits battle.round.1 := by
  by_cases running : battle.status = .running
  · rw [round_of_running battle running]
    have below : battle.cycles < limits.maxCycles := paced.below running
    have counted : (battle.cycles + 1).toNat = battle.cycles.toNat + 1 := toNat_cycles_succ below
    refine ⟨paced.limits_eq, ?_, ?_, ?_⟩
    · rw [UInt64.le_iff_toNat_le, counted]
      exact UInt64.lt_iff_toNat_lt.mp below
    · intro stillRunning
      rw [← paced.limits_eq]
      exact ((verdict_eq_running_iff _ _ _).mp stillRunning).2
    · intro stillRunning _
      exact ((verdict_eq_running_iff _ _ _).mp stillRunning).1
  · rw [round_of_ended battle running]
    exact paced

theorem paced_rounds
    {limits : Limits}
    {battle : Battle}
    (paced : Paced limits battle)
    (count : Nat) :
    Paced limits (battle.rounds count).1 :=
  (rounds_keeps (Paced limits) (fun _ => True)
    (fun _ holds => ⟨paced_round holds, fun _ _ => trivial⟩) battle count paced).1

/-! ## Playing to the end -/

theorem rounds_of_ended (battle : Battle) (ended : battle.status ≠ .running) (count : Nat) :
    battle.rounds count = (battle, []) := by
  induction count with
  | zero => rfl
  | succ count inductionHypothesis =>
      rw [rounds_succ, round_of_ended battle ended, inductionHypothesis]
      rfl

/-- Every round of a running match is counted. -/
theorem cycles_rounds
    {limits : Limits}
    {battle : Battle}
    (paced : Paced limits battle)
    (count : Nat)
    (running : ∀ earlier < count, (battle.rounds earlier).1.status = .running) :
    (battle.rounds count).1.cycles.toNat = battle.cycles.toNat + count := by
  induction count generalizing battle with
  | zero => rfl
  | succ count inductionHypothesis =>
      have nowRunning : battle.status = .running := running 0 (Nat.succ_pos count)
      have laterRunning : ∀ earlier < count,
          (battle.round.1.rounds earlier).1.status = .running := by
        intro earlier below
        exact running (earlier + 1) (Nat.succ_lt_succ below)
      have counted : battle.round.1.cycles.toNat = battle.cycles.toNat + 1 := by
        rw [round_of_running battle nowRunning]
        exact toNat_cycles_succ (paced.below nowRunning)
      rw [rounds_succ, inductionHypothesis (paced_round paced) laterRunning, counted]
      omega

/-- Playing to the end plays rounds, each of a running match, until one of them ends it, and no more
of them than are left under the limit. -/
def EndsWithin (limits : Limits) (battle : Battle) : Prop :=
  ∃ count, battle.cycles.toNat + count ≤ limits.maxCycles.toNat ∧
    battle.run.battle = (battle.rounds count).1 ∧
    battle.run.log.toList = (battle.rounds count).2 ∧
    (∀ earlier < count, (battle.rounds earlier).1.status = .running) ∧
    battle.run.battle.status ≠ .running

theorem endsWithin_of_paced {limits : Limits} {battle : Battle} (paced : Paced limits battle) :
    EndsWithin limits battle := by
  obtain ⟨added, bounded, played, earlierRunning, stopped⟩ :=
    extend_eq battle 0 true #[] (battle.limits.maxCycles.toNat - battle.cycles.toNat + 1)
  rw [paced.limits_eq] at bounded stopped
  have lastBattle : battle.run.battle = (battle.rounds added).1 := congrArg Progress.battle played
  have wholeLog : battle.run.log.toList = (battle.rounds added).2 := by
    have logged : battle.run.log = #[] ++ (battle.rounds added).2 := congrArg Progress.log played
    simp [logged]
  unfold EndsWithin
  rw [lastBattle, wholeLog]
  by_cases running : battle.status = .running
  · have allRunning : ∀ earlier < added, (battle.rounds earlier).1.status = .running := by
      intro earlier below
      by_cases first : earlier = 0
      · subst first
        exact running
      · exact earlierRunning earlier (Nat.pos_of_ne_zero first) below
    have counted := cycles_rounds paced added allRunning
    have within := UInt64.le_iff_toNat_le.mp (paced_rounds paced added).within
    exact ⟨added, by omega, rfl, rfl, allRunning, (stopped (by omega)).2⟩
  · rw [rounds_of_ended battle running]
    exact ⟨0, UInt64.le_iff_toNat_le.mp paced.within, rfl, rfl, by simp, running⟩

/-! ## Every history -/

theorem paced_obey
    {limits : Limits}
    {battle : Battle}
    (paced : Paced limits battle)
    (command : Command) :
    Paced limits (battle.obey command).1 := by
  cases command with
  | load source => exact paced_of_joined (joined_load battle source) paced
  | place warrior offset => exact paced_of_joined (joined_place battle warrior offset) paced
  | round => exact paced_round paced
  | run =>
      obtain ⟨count, _, last, _⟩ := endsWithin_of_paced paced
      show Paced limits battle.run.battle
      rw [last]
      exact paced_rounds paced count

theorem paced_follow
    {limits : Limits}
    {generator : Generator}
    {fresh : Battle}
    (created : create limits generator = .ok fresh)
    (commands : List Command) :
    Paced limits (fresh.follow commands).1 :=
  (follow_keeps (Paced limits) (fun _ => True) (fun _ => True)
    (fun _ command _ paced => ⟨paced_obey paced command, fun _ _ => trivial⟩)
    fresh commands (fun _ _ => trivial) (paced_create created)).1

/-- The warriors left after one more round. -/
def survivors (battle : Battle) : List Warrior :=
  (turns battle.limits.maxTasks battle.core battle.roster).survivors

/-- What one more round of a running match comes to, by the warriors who survive it. -/
structure Decided (limits : Limits) (battle : Battle) : Prop where
  roster : battle.round.1.roster = battle.survivors
  cycles : battle.round.1.cycles.toNat = battle.cycles.toNat + 1
  won : ∀ name, battle.round.1.status = .won name ↔
    ∃ warrior, battle.survivors = [warrior] ∧ warrior.name = name
  tie : battle.round.1.status = .tie ↔
    battle.survivors = [] ∨
      (2 ≤ battle.survivors.length ∧ battle.round.1.cycles = limits.maxCycles)
  running : battle.round.1.status = .running ↔
    2 ≤ battle.survivors.length ∧ battle.round.1.cycles ≠ limits.maxCycles
  /-- The call for the round answers whether the match goes on. -/
  more : (battle.advance 1).more = true ↔ battle.round.1.status = .running

theorem more_advance_one (battle : Battle) :
    (battle.advance 1).more = true ↔ battle.round.1.status = .running := by
  rw [← isRunning_eq_true, advance, extend_succ]
  by_cases running : battle.round.1.isRunning
  · simp [running, Progress.extend]
  · simp [running]

theorem decided_of_running
    {limits : Limits}
    {battle : Battle}
    (paced : Paced limits battle)
    (running : battle.status = .running) :
    Decided limits battle := by
  have within := (paced_round paced).within
  have played := round_of_running battle running
  refine ⟨by rw [played]; rfl, ?_, ?_, ?_, ?_, more_advance_one battle⟩
  · rw [played]
    exact toNat_cycles_succ (paced.below running)
  · intro name
    rw [played]
    exact verdict_eq_won_iff _ _ _ _
  · have tied : battle.round.1.status = .tie ↔
        battle.survivors = [] ∨
          (2 ≤ battle.survivors.length ∧ limits.maxCycles ≤ battle.round.1.cycles) := by
      rw [played, ← paced.limits_eq]
      exact verdict_eq_tie_iff _ _ _
    rw [tied]
    constructor
    · intro ended
      rcases ended with noneLeft | ⟨several, reached⟩
      · exact Or.inl noneLeft
      · exact Or.inr ⟨several, UInt64.le_antisymm within reached⟩
    · intro ended
      rcases ended with noneLeft | ⟨several, reached⟩
      · exact Or.inl noneLeft
      · exact Or.inr ⟨several, UInt64.le_of_eq reached.symm⟩
  · have goesOn : battle.round.1.status = .running ↔
        2 ≤ battle.survivors.length ∧ battle.round.1.cycles < limits.maxCycles := by
      rw [played, ← paced.limits_eq]
      exact verdict_eq_running_iff _ _ _
    rw [goesOn]
    constructor
    · intro goesOn
      obtain ⟨several, below⟩ := goesOn
      exact ⟨several, UInt64.ne_of_lt below⟩
    · intro goesOn
      obtain ⟨several, notReached⟩ := goesOn
      exact ⟨several, UInt64.lt_of_le_of_ne within notReached⟩

/-- After every history the match keeps its pace, the next round of a running match is decided by
its survivors, and playing to the end ends the match within the rounds left. -/
theorem history_paced_decided_ending
    (limits : Limits)
    (generator : Generator)
    (fresh : Battle)
    (commands : List Command)
    (created : create limits generator = .ok fresh) :
    let battle := (fresh.follow commands).1
    Paced limits battle ∧
    (battle.status = .running → Decided limits battle) ∧
    EndsWithin limits battle := by
  intro battle
  have paced : Paced limits battle := paced_follow created commands
  exact ⟨paced, decided_of_running paced, endsWithin_of_paced paced⟩

/-- Two warriors that jump in place, after the first of two rounds: the match still runs. -/
theorem history_paced_decided_ending_jumpers :
    let limits : Limits := ⟨8, 2, 4, 2⟩
    let jumper : Warrior := .single "J" 0 [⟨.jmp, {}, {}⟩]
    let fresh : Battle := { limits, core := .ofSize 8, generator := ⟨1, 2, 3, 4⟩ }
    let battle := (fresh.follow [.place jumper 0, .place jumper 4, .round]).1
    create limits ⟨1, 2, 3, 4⟩ = .ok fresh ∧
    battle.status = .running ∧
    Paced limits battle ∧
    Decided limits battle ∧
    EndsWithin limits battle := by
  intro limits jumper fresh battle
  have created : create limits ⟨1, 2, 3, 4⟩ = .ok fresh :=
    (create_eq_ok_iff _ _ _).mpr ⟨by decide, rfl⟩
  have running : battle.status = .running := by decide +kernel
  obtain ⟨paced, decided, ending⟩ := history_paced_decided_ending limits ⟨1, 2, 3, 4⟩ fresh
    [.place jumper 0, .place jumper 4, .round] created
  exact ⟨created, running, paced, decided running, ending⟩

end CoreWar.Battle
