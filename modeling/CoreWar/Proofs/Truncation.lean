import CoreWar.Proofs.Outcome

/-!
Contract: the limit of rounds cuts a match short, and does nothing else.

Owns:
- two matches that differ in the number of rounds which they may last;
- that they take the same course until the shorter one is cut, and that the longer one goes on then;
- the ends of two such matches, in each of which all warriors are placed before the first round.

Does not own: how a match ends, see `CoreWar.Proofs.Outcome`.

The limit is looked at in one place only, after a round that at least two warriors have survived. As
long as it is not reached, or is of no account, the two matches are the same but for the limit.
-/

namespace CoreWar.Battle

/-- The match with another limit of rounds, and with other draws to come. -/
def relimit (battle : Battle) (maxCycles : UInt64) (generator : Generator) : Battle :=
  { battle with limits := { battle.limits with maxCycles }, generator }

/-- The second match is the first one with a limit of rounds that is not lower. -/
def Lengthened (short long : Battle) : Prop :=
  ∃ maxCycles generator,
    short.limits.maxCycles ≤ maxCycles ∧ long = short.relimit maxCycles generator

/-- The match is over, and there are warriors left that nobody has beaten. -/
def CutShort (battle : Battle) : Prop :=
  battle.status = .tie ∧ battle.roster ≠ []

/-! ## Rounds -/

/-- The verdict is the same under a higher limit, unless the limit is what it rests on. -/
theorem verdict_of_le
    {limits : Limits}
    {maxCycles : UInt64}
    (longer : limits.maxCycles ≤ maxCycles)
    {cycles : UInt64}
    {survivors : List Warrior}
    (whole : verdict limits cycles survivors = .tie → survivors = []) :
    verdict { limits with maxCycles } cycles survivors = verdict limits cycles survivors := by
  match survivors, whole with
  | [], _ => rfl
  | [_], _ => rfl
  | _ :: _ :: _, whole =>
      have below : ¬limits.maxCycles ≤ cycles := by
        intro reached
        have none := whole (if_pos reached)
        contradiction
      have stillBelow : ¬maxCycles ≤ cycles := fun reached =>
        below (UInt64.le_trans longer reached)
      exact (if_neg stillBelow).trans (if_neg below).symm

section Rounds

variable {short long : Battle} (lengthened : Lengthened short long)
include lengthened

theorem Lengthened.status : long.status = short.status := by
  obtain ⟨_, _, _, rfl⟩ := lengthened
  rfl

theorem lengthened_round (whole : ¬CutShort short.round.1) :
    Lengthened short.round.1 long.round.1 ∧ long.round.2 = short.round.2 := by
  have status := lengthened.status
  by_cases running : short.status = .running
  · obtain ⟨maxCycles, generator, longer, rfl⟩ := lengthened
    have longRunning : (short.relimit maxCycles generator).status = .running := running
    rw [round_of_running short running] at whole ⊢
    rw [round_of_running _ longRunning]
    have same := verdict_of_le longer fun tie => Classical.not_not.mp fun left => whole ⟨tie, left⟩
    simp only [relimit, same]
    exact ⟨⟨maxCycles, generator, longer, rfl⟩, trivial⟩
  · rw [round_of_ended short running, round_of_ended long (status ▸ running)]
    exact ⟨lengthened, rfl⟩

/-- The round in which the shorter match is cut is the same in the longer one, but for the
verdict. -/
theorem round_of_cutShort
    (running : short.status = .running)
    (cut : CutShort short.round.1) :
    long.round.1.core = short.round.1.core ∧
    long.round.1.roster = short.round.1.roster ∧
    ∃ events, short.round.2 = events ++ [.tie short.round.1.cycles] ∧ events <+: long.round.2 := by
  obtain ⟨maxCycles, generator, _, rfl⟩ := lengthened
  have longRunning : (short.relimit maxCycles generator).status = .running := running
  have tie := cut.1
  rw [round_of_running short running] at tie ⊢
  rw [round_of_running _ longRunning]
  refine ⟨rfl, rfl, (turns short.limits.maxTasks short.core short.roster).events, ?_, ?_⟩
  · simp only at tie
    simp only [tie]
    rfl
  · exact List.prefix_append _ _

/-- The two matches take the same course as long as the shorter one is not cut. -/
theorem lengthened_rounds
    (count : Nat)
    (whole : ∀ earlier < count, ¬CutShort (short.rounds (earlier + 1)).1) :
    Lengthened (short.rounds count).1 (long.rounds count).1 ∧
      (long.rounds count).2 = (short.rounds count).2 := by
  induction count generalizing short long with
  | zero => exact ⟨lengthened, rfl⟩
  | succ count inductionHypothesis =>
      obtain ⟨next, now⟩ := lengthened_round lengthened (whole 0 (Nat.succ_pos count))
      obtain ⟨last, later⟩ := inductionHypothesis next
        fun earlier below => whole (earlier + 1) (Nat.succ_lt_succ below)
      rw [rounds_succ, rounds_succ, now, later]
      exact ⟨last, rfl⟩

end Rounds

/-! ## Placing -/

/-- The commands that place warriors, each at a place of its own. -/
def setup (entries : List (Warrior × UInt64)) : List Command :=
  entries.map fun entry => .place entry.1 entry.2

theorem lengthened_place
    {short long : Battle}
    (lengthened : Lengthened short long)
    (warrior : Warrior)
    (offset : UInt64) :
    Lengthened (short.place warrior offset).battle (long.place warrior offset).battle ∧
      (long.place warrior offset).events = (short.place warrior offset).events := by
  obtain ⟨maxCycles, generator, longer, rfl⟩ := lengthened
  by_cases small : warrior.program.length < short.limits.maxLength.toNat
  · rw [place_of_short short warrior offset small,
      place_of_short (short.relimit maxCycles generator) _ _ small]
    exact ⟨⟨maxCycles, generator, longer, rfl⟩, rfl⟩
  · have large := Nat.not_lt.mp small
    rw [place_of_long short warrior offset large,
      place_of_long (short.relimit maxCycles generator) _ _ large]
    exact ⟨⟨maxCycles, generator, longer, rfl⟩, rfl⟩

theorem lengthened_setup
    {short long : Battle}
    (lengthened : Lengthened short long)
    (entries : List (Warrior × UInt64)) :
    Lengthened (short.follow (setup entries)).1 (long.follow (setup entries)).1 ∧
      (long.follow (setup entries)).2 = (short.follow (setup entries)).2 := by
  induction entries generalizing short long with
  | nil => exact ⟨lengthened, rfl⟩
  | cons entry rest inductionHypothesis =>
      obtain ⟨next, now⟩ := lengthened_place lengthened entry.1 entry.2
      obtain ⟨last, later⟩ := inductionHypothesis next
      refine ⟨last, ?_⟩
      show (long.place entry.1 entry.2).events ++ _ = (short.place entry.1 entry.2).events ++ _
      rw [now]
      exact congrArg _ later

/-- Placing warriors is no round. -/
theorem unplayed_setup (battle : Battle) (entries : List (Warrior × UInt64)) :
    (battle.follow (setup entries)).1.status = battle.status ∧
      (battle.follow (setup entries)).1.cycles = battle.cycles := by
  induction entries generalizing battle with
  | nil => exact ⟨rfl, rfl⟩
  | cons entry rest inductionHypothesis =>
      have joined := joined_place battle entry.1 entry.2
      obtain ⟨status, cycles⟩ := inductionHypothesis (battle.place entry.1 entry.2).battle
      exact ⟨status.trans joined.status, cycles.trans joined.cycles⟩

/-! ## Playing to the end -/

/-- Playing to the end stops at the first round that ends the match. -/
theorem run_eq_of_first
    {limits : Limits}
    {battle : Battle}
    (paced : Paced limits battle)
    {count : Nat}
    (running : ∀ earlier < count, (battle.rounds earlier).1.status = .running)
    (ended : (battle.rounds count).1.status ≠ .running) :
    battle.run.battle = (battle.rounds count).1 ∧
      battle.run.log.toList = (battle.rounds count).2 := by
  obtain ⟨played, _, last, log, earlierRunning, stopped⟩ := endsWithin_of_paced paced
  have same : played = count := by
    rcases Nat.lt_trichotomy played count with fewer | same | more
    · exact absurd (last ▸ running played fewer) stopped
    · exact same
    · exact absurd (earlierRunning count more) ended
  rw [last, log, same]
  exact ⟨rfl, rfl⟩

/-- The log of a match that still runs before a round holds the log up to that round. -/
theorem rounds_log_isPrefix
    {limits : Limits}
    {battle : Battle}
    (paced : Paced limits battle)
    {count : Nat}
    (running : ∀ earlier < count, (battle.rounds earlier).1.status = .running) :
    (battle.rounds count).2 <+: battle.run.log.toList := by
  obtain ⟨played, _, last, log, _, stopped⟩ := endsWithin_of_paced paced
  have enough : count ≤ played := by
    rw [← Nat.not_lt]
    intro fewer
    exact stopped (last ▸ running played fewer)
  obtain ⟨more, rfl⟩ := Nat.exists_eq_add_of_le enough
  rw [log, rounds_add]
  exact List.prefix_append _ _

/-- The match has been decided by the warriors: one is left, or none is. -/
def Fought (battle : Battle) : Prop :=
  (∃ name, battle.status = .won name) ∨ (battle.status = .tie ∧ battle.roster = [])

/-- The two matches, each with its log, have come to the same end. -/
structure SameEnd (short long : Battle × List Event) : Prop where
  log : long.2 = short.2
  core : long.1.core = short.1.core
  roster : long.1.roster = short.1.roster
  status : long.1.status = short.1.status
  cycles : long.1.cycles = short.1.cycles

/-- The shorter match was cut at the limit, where the longer one stood as is given here. -/
structure Truncated (limit : UInt64) (short long : Battle × List Event) (there : Battle) :
    Prop where
  status : short.1.status = .tie
  several : 2 ≤ short.1.roster.length
  cycles : short.1.cycles = limit
  log : ∃ log, short.2 = log ++ [.tie limit] ∧ log <+: long.2
  core : short.1.core = there.core
  roster : short.1.roster = there.roster

section Ends

variable {limits longLimits : Limits} {short long : Battle}
variable (shortPaced : Paced limits short) (longPaced : Paced longLimits long)
variable (lengthened : Lengthened short long)
include longPaced lengthened

/-- A match that was not cut ends in the same way when it may last longer. -/
theorem sameEnd_of_whole
    {count : Nat}
    (earlierRunning : ∀ earlier < count, (short.rounds earlier).1.status = .running)
    (ended : (short.rounds count).1.status ≠ .running)
    (whole : ¬CutShort (short.rounds count).1) :
    SameEnd (short.rounds count) (long.run.battle, long.run.log.toList) := by
  have uncut : ∀ earlier ≤ count, ¬CutShort (short.rounds earlier).1 := by
    intro earlier atMost
    rcases Nat.lt_or_eq_of_le atMost with before | rfl
    · intro cut
      rw [CutShort, earlierRunning earlier before] at cut
      exact absurd cut.1 (by decide)
    · exact whole
  have course {earlier : Nat} (atMost : earlier ≤ count) :=
    lengthened_rounds lengthened earlier fun other below => uncut (other + 1) (by omega)
  have longRunning : ∀ earlier < count, (long.rounds earlier).1.status = .running := by
    intro earlier below
    rw [(course (Nat.le_of_lt below)).1.status]
    exact earlierRunning earlier below
  obtain ⟨last, log⟩ := course (Nat.le_refl count)
  obtain ⟨runBattle, runLog⟩ := run_eq_of_first longPaced longRunning (last.status ▸ ended)
  rw [runBattle, runLog]
  obtain ⟨maxCycles, generator, _, same⟩ := last
  rw [same]
  exact ⟨log, rfl, rfl, rfl, rfl⟩

include shortPaced

/-- A match that was cut has the course of the longer one up to there. -/
theorem truncated_of_cutShort
    {count : Nat}
    (earlierRunning : ∀ earlier ≤ count, (short.rounds earlier).1.status = .running)
    (cut : CutShort (short.rounds (count + 1)).1) :
    Truncated limits.maxCycles (short.rounds (count + 1)) (long.run.battle, long.run.log.toList)
      (long.rounds (count + 1)).1 := by
  have uncut : ∀ earlier < count, ¬CutShort (short.rounds (earlier + 1)).1 := by
    intro earlier below cutBefore
    rw [CutShort, earlierRunning (earlier + 1) (by omega)] at cutBefore
    exact absurd cutBefore.1 (by decide)
  have longRunning : ∀ earlier < count + 1, (long.rounds earlier).1.status = .running := by
    intro earlier below
    have course := lengthened_rounds lengthened earlier fun other less => uncut other (by omega)
    rw [course.1.status]
    exact earlierRunning earlier (by omega)
  -- Both matches start the last round alike; what is left to compare is that round.
  have nowRunning := earlierRunning count (Nat.le_refl count)
  obtain ⟨last, log⟩ := lengthened_rounds lengthened count uncut
  have logged := rounds_log_isPrefix longPaced longRunning
  rw [rounds_succ_last] at cut logged
  rw [rounds_succ_last, rounds_succ_last]
  obtain ⟨core, roster, events, shown, isPrefix⟩ := round_of_cutShort last nowRunning cut
  have decided := decided_of_running (paced_rounds shortPaced count) nowRunning
  obtain ⟨several, reached⟩ :=
    (decided.tie.mp cut.1).resolve_left fun none => cut.2 (decided.roster.trans none)
  refine ⟨cut.1, ?_, reached, ⟨(short.rounds count).2 ++ events, ?_, ?_⟩, core.symm, roster.symm⟩
  · show 2 ≤ (short.rounds count).1.round.1.roster.length
    rw [decided.roster]
    exact several
  · show (short.rounds count).2 ++ (short.rounds count).1.round.2 = _
    rw [shown, reached, List.append_assoc]
  · rw [← log]
    exact ((List.prefix_append_right_inj _).mpr isPrefix).trans logged

/-- Either the match was not cut, or it was, after as many rounds as the limit allows. -/
theorem sameEnd_or_truncated
    (running : short.status = .running)
    (unplayed : short.cycles = 0) :
    (Fought short.run.battle →
      SameEnd (short.run.battle, short.run.log.toList) (long.run.battle, long.run.log.toList)) ∧
    (¬Fought short.run.battle →
      Truncated limits.maxCycles (short.run.battle, short.run.log.toList)
        (long.run.battle, long.run.log.toList) (long.rounds limits.maxCycles.toNat).1) := by
  obtain ⟨count, _, last, log, earlierRunning, stopped⟩ := endsWithin_of_paced shortPaced
  rw [last] at stopped
  rw [last, log]
  constructor
  · intro fought
    apply sameEnd_of_whole longPaced lengthened earlierRunning stopped
    rintro ⟨tie, left⟩
    rcases fought with ⟨name, won⟩ | ⟨_, noneLeft⟩
    · rw [tie] at won
      contradiction
    · exact left noneLeft
  · intro notFought
    have cut : CutShort (short.rounds count).1 := by
      cases status : (short.rounds count).1.status with
      | running => exact absurd status stopped
      | won name => exact absurd (Or.inl ⟨name, status⟩) notFought
      | tie => exact ⟨status, fun noneLeft => notFought (Or.inr ⟨status, noneLeft⟩)⟩
    have counted := cycles_rounds shortPaced count earlierRunning
    cases count with
    | zero => exact absurd running stopped
    | succ count =>
        have truncated := truncated_of_cutShort shortPaced longPaced lengthened
          (fun earlier atMost => earlierRunning earlier (Nat.lt_succ_of_le atMost)) cut
        rw [truncated.cycles, unplayed, UInt64.toNat_zero, Nat.zero_add] at counted
        rw [counted]
        exact truncated

end Ends

/-! ## Whole matches -/

theorem follow_run (battle : Battle) :
    battle.follow [.run] = (battle.run.battle, battle.run.log.toList) := by
  simp [follow, obey]

theorem SameEnd.after
    {short long : Battle × List Event}
    (sameEnd : SameEnd short long)
    (front : List Event) :
    SameEnd (short.1, front ++ short.2) (long.1, front ++ long.2) where
  log := congrArg (front ++ ·) sameEnd.log
  core := sameEnd.core
  roster := sameEnd.roster
  status := sameEnd.status
  cycles := sameEnd.cycles

theorem Truncated.after
    {limit : UInt64}
    {short long : Battle × List Event}
    {there : Battle}
    (truncated : Truncated limit short long there)
    (front : List Event) :
    Truncated limit (short.1, front ++ short.2) (long.1, front ++ long.2) there where
  status := truncated.status
  several := truncated.several
  cycles := truncated.cycles
  log := by
    obtain ⟨log, shortLog, longLog⟩ := truncated.log
    refine ⟨front ++ log, ?_, (List.prefix_append_right_inj front).mpr longLog⟩
    rw [shortLog, List.append_assoc]
  core := truncated.core
  roster := truncated.roster

/-- The limit of rounds only cuts a match short. Let the same warriors be placed at the same places
in two matches, the second of which may last longer, and let both be played to the end. If the first
one is won, or ends with nobody left, the second one ends in the same way, with the same log. If
not, the first one is a tie of several warriors at the limit; the second one has its log but for the
tie, and stood as the first one does when it had played as many rounds. -/
theorem cycle_limit_only_truncates
    {limits : Limits}
    {maxCycles : UInt64}
    (longer : limits.maxCycles ≤ maxCycles)
    {shortGenerator longGenerator : Generator}
    {short long : Battle}
    (shortCreated : create limits shortGenerator = .ok short)
    (longCreated : create { limits with maxCycles } longGenerator = .ok long)
    (entries : List (Warrior × UInt64)) :
    let shortEnd := short.follow (setup entries ++ [.run])
    let longEnd := long.follow (setup entries ++ [.run])
    let there := (long.follow (setup entries ++ List.replicate limits.maxCycles.toNat .round)).1
    (Fought shortEnd.1 → SameEnd shortEnd longEnd) ∧
    (¬Fought shortEnd.1 → Truncated limits.maxCycles shortEnd longEnd there) := by
  have shortPaced := paced_follow shortCreated (setup entries)
  have longPaced := paced_follow longCreated (setup entries)
  obtain ⟨status, cycles⟩ := unplayed_setup short entries
  have lengthened : Lengthened short long := by
    obtain ⟨_, rfl⟩ := (create_eq_ok_iff _ _ _).mp shortCreated
    obtain ⟨_, rfl⟩ := (create_eq_ok_iff _ _ _).mp longCreated
    exact ⟨maxCycles, longGenerator, longer, rfl⟩
  have isFresh : short.status = .running ∧ short.cycles = 0 := by
    obtain ⟨_, rfl⟩ := (create_eq_ok_iff _ _ _).mp shortCreated
    exact ⟨rfl, rfl⟩
  obtain ⟨ready, sameLog⟩ := lengthened_setup lengthened entries
  obtain ⟨whole, cut⟩ := sameEnd_or_truncated shortPaced longPaced ready
    (status.trans isFresh.1) (cycles.trans isFresh.2)
  simp only [follow_append, follow_run, sameLog]
  refine ⟨?_, ?_⟩
  · exact fun fought => (whole fought).after _
  · exact fun notFought => (cut notFought).after _

/-- A warrior that jumps in place and one that lasts three rounds. Under a limit of two rounds their
match is cut, under a limit of three it is won in the last round, and so it is under one of five. -/
theorem cycle_limit_only_truncates_walker :
    let limits (maxCycles : UInt64) : Limits := ⟨8, maxCycles, 4, 2⟩
    let fresh (maxCycles : UInt64) : Battle :=
      { limits := limits maxCycles, core := .ofSize 8, generator := ⟨1, 2, 3, 4⟩ }
    let jump : Instruction := ⟨.jmp, {}, {}⟩
    let next : Instruction := ⟨.jmp, ⟨.direct, 1⟩, {}⟩
    let entries : List (Warrior × UInt64) :=
      [(.single "J" 0 [jump], 0), (.single "W" 0 [next, next], 4)]
    let atEnd (maxCycles : UInt64) := (fresh maxCycles).follow (setup entries ++ [.run])
    (∀ maxCycles ∈ [2, 3, 5],
      create (limits maxCycles) ⟨1, 2, 3, 4⟩ = .ok (fresh maxCycles)) ∧
    Fought (atEnd 3).1 ∧
    SameEnd (atEnd 3) (atEnd 5) ∧
    ¬Fought (atEnd 2).1 ∧
    (atEnd 5).1.status = .won "J0" ∧
    Truncated 2 (atEnd 2) (atEnd 5)
      ((fresh 5).follow (setup entries ++ List.replicate 2 .round)).1 := by
  intro limits fresh jump next entries atEnd
  have created (maxCycles : UInt64) (positive : maxCycles ≠ 0) :
      create (limits maxCycles) ⟨1, 2, 3, 4⟩ = .ok (fresh maxCycles) := by
    have core : (8 : UInt64) ≠ 0 := by decide
    have tasks : (2 : UInt64) ≠ 0 := by decide
    have length : (4 : UInt64) < 8 := by decide
    exact (create_eq_ok_iff _ _ _).mpr ⟨⟨core, positive, tasks, length⟩, rfl⟩
  have fought : Fought (atEnd 3).1 := Or.inl ⟨"J0", by decide +kernel⟩
  have cut : ¬Fought (atEnd 2).1 := by
    rintro (⟨name, won⟩ | ⟨_, noneLeft⟩)
    · have tie : (atEnd 2).1.status = .tie := by decide +kernel
      rw [tie] at won
      contradiction
    · have left : (atEnd 2).1.roster ≠ [] := by decide +kernel
      exact left noneLeft
  have ends {shorter : UInt64} (positive : shorter ≠ 0) (longer : shorter ≤ 5) :=
    cycle_limit_only_truncates longer (created shorter positive) (created 5 (by decide)) entries
  refine ⟨?_, fought, ?_, cut, by decide +kernel, ?_⟩
  · intro maxCycles member
    exact created maxCycles (by rintro rfl; revert member; decide)
  · exact (ends (by decide) (by decide)).1 fought
  · exact (ends (by decide) (by decide)).2 cut

end CoreWar.Battle
