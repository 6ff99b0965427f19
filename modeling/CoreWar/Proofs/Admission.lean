import CoreWar.Proofs.Assembly.Stages
import CoreWar.Proofs.Placement
import Mathlib.Data.List.Basic

/-!
Contract: which sources are admitted to a match, and what a rejected one leaves behind.

Owns:
- the judgement on a source: the name, the program and the threads it would join with, or the error;
- loading in terms of the judgement, whatever the match looks like;
- sources loaded one after the other, with and without the rejected ones.

Does not own: where an admitted warrior is placed, see `CoreWar.Proofs.Siting`.

The judgement takes the limits, the number of earlier placements and the source. It has no access to
the core, the roster, the state of the match or the generator, so what is equal to it does not
depend on them.
-/

namespace CoreWar

/-- What a warrior joins with: its name, its program and the number of its threads. -/
structure Admission where
  name : String
  program : List Instruction
  threads : Nat
deriving DecidableEq, Repr

def Warrior.admission (warrior : Warrior) : Admission :=
  ⟨warrior.name, warrior.program, warrior.tasks.length⟩

namespace Limits

/-- The judgement on a source that is loaded after `number` placements. -/
def judge (limits : Limits) (number : Nat) (source : String) : Except LoadError Admission :=
  match Assembly.assemble limits source with
  | .error error => .error (.assembly error)
  | .ok warrior =>
    let name := warrior.name ++ String.ofList (Text.decimal number)
    if warrior.program.length < limits.maxLength.toNat then
      .ok ⟨name, warrior.program, 1⟩
    else
      .error (.tooLong name warrior.program.length limits.maxLength)

/-- Whether a source assembles to a warrior of an allowed length. -/
def admits (limits : Limits) (source : String) : Bool :=
  match Assembly.assemble limits source with
  | .error _ => false
  | .ok warrior => warrior.program.length < limits.maxLength.toNat

theorem admits_iff (limits : Limits) (source : String) :
    limits.admits source = true ↔
      ∃ warrior, Assembly.assemble limits source = .ok warrior ∧
        warrior.program.length < limits.maxLength.toNat := by
  unfold admits
  cases Assembly.assemble limits source with
  | error error => simp
  | ok warrior => simp

/-- Whether a source is admitted does not depend on the placements before it. -/
theorem exists_judge_eq_ok_iff (limits : Limits) (number : Nat) (source : String) :
    (∃ admission, limits.judge number source = .ok admission) ↔ limits.admits source = true := by
  unfold judge admits
  cases Assembly.assemble limits source with
  | error error => simp
  | ok warrior =>
      by_cases short : warrior.program.length < limits.maxLength.toNat
      · simp [short]
      · simp [short]

/-- The admissions of sources that are loaded one after the other, after `number` placements. -/
def admissions (limits : Limits) (number : Nat) : List String → List Admission
  | [] => []
  | source :: rest =>
    match limits.judge number source with
    | .ok admission => admission :: limits.admissions (number + 1) rest
    | .error _ => limits.admissions number rest

/-- Rejected sources take no number. -/
theorem admissions_filter_admits (limits : Limits) (number : Nat) (sources : List String) :
    limits.admissions number (sources.filter limits.admits) = limits.admissions number sources := by
  induction sources generalizing number with
  | nil => rfl
  | cons source rest inductionHypothesis =>
      have admitted := limits.exists_judge_eq_ok_iff number source
      cases judged : limits.judge number source with
      | ok admission =>
          rw [List.filter_cons_of_pos (admitted.mp ⟨admission, judged⟩), admissions, admissions,
            judged]
          simp only [inductionHypothesis]
      | error error =>
          have rejected : ¬limits.admits source = true := by
            rw [← admitted, judged]
            simp
          rw [List.filter_cons_of_neg rejected, inductionHypothesis, admissions, judged]

end Limits

namespace Battle

/-! ## Loading one source -/

/-- The match after a place was drawn in it. -/
def drawn (battle : Battle) : Battle :=
  { battle with
    generator := (battle.generator.below (battle.limits.coreSize - battle.limits.maxLength)).2 }

theorem drawOffset_eq_drawn (battle : Battle) : battle.drawOffset.2 = battle.drawn := rfl

/-- What a source was admitted with is what it is judged to, and nothing is announced. -/
structure Admitted (before : Battle) (source : String) (loading : Loading) : Prop where
  exists_placed : ∃ placed,
    loading.outcome = .ok placed ∧
    before.limits.judge before.placed source = .ok placed.admission ∧
    loading.battle.roster = before.roster ++ [placed]
  limits : loading.battle.limits = before.limits
  placed : loading.battle.placed = before.placed + 1
  events : loading.events = []

/-- What is left when a source was rejected: the match with one more place drawn in it. -/
structure Rejected (before : Battle) (source : String) (error : LoadError) (loading : Loading) :
    Prop where
  judged : before.limits.judge before.placed source = .error error
  outcome : loading.outcome = .error error
  battle : loading.battle = before.drawn
  events : loading.events = [error.event]

/-- A source is admitted or rejected. -/
theorem admitted_or_rejected (battle : Battle) (source : String) :
    Admitted battle source (battle.load source) ∨
      ∃ error, Rejected battle source error (battle.load source) := by
  rw [load_eq, drawOffset_eq_drawn]
  cases assembled : Assembly.assemble battle.limits source with
  | error error =>
      refine Or.inr ⟨.assembly error, ?_, rfl, rfl, rfl⟩
      rw [Limits.judge, assembled]
  | ok warrior =>
      by_cases short : warrior.program.length < battle.limits.maxLength.toNat
      · left
        have placing := place_of_short battle.drawn warrior battle.drawOffset.1 short
        obtain ⟨name, entry, program, rfl⟩ := Assembly.exists_single_of_assemble assembled
        simp only [placing]
        refine ⟨⟨_, rfl, ?_, rfl⟩, rfl, rfl, rfl⟩
        rw [Limits.judge, assembled]
        exact if_pos short
      · right
        have placing := place_of_long battle.drawn warrior battle.drawOffset.1 (Nat.not_lt.mp short)
        simp only [placing]
        refine ⟨_, ?_, rfl, rfl, rfl⟩
        rw [Limits.judge, assembled]
        exact if_neg short

/-- The outcome of loading is the judgement. -/
theorem outcome_load (battle : Battle) (source : String) :
    (battle.load source).outcome.map Warrior.admission =
      battle.limits.judge battle.placed source := by
  rcases battle.admitted_or_rejected source with admitted | ⟨error, rejected⟩
  · obtain ⟨placed, outcome, judged, _⟩ := admitted.exists_placed
    rw [outcome, judged]
    rfl
  · rw [rejected.outcome, rejected.judged]
    rfl

theorem roster_load_of_ok
    {battle : Battle}
    {source : String}
    {placed : Warrior}
    (accepted : (battle.load source).outcome = .ok placed) :
    (battle.load source).battle.roster = battle.roster ++ [placed] := by
  cases battle.admitted_or_rejected source with
  | inl admitted =>
      obtain ⟨same, isSame, _, roster⟩ := admitted.exists_placed
      rw [roster, Except.ok.inj (isSame.symm.trans accepted)]
  | inr refused =>
      obtain ⟨error, rejected⟩ := refused
      rw [rejected.outcome] at accepted
      contradiction

theorem rejected_load_of_error
    {battle : Battle}
    {source : String}
    {error : LoadError}
    (isError : (battle.load source).outcome = .error error) :
    Rejected battle source error (battle.load source) := by
  cases battle.admitted_or_rejected source with
  | inl admitted =>
      obtain ⟨placed, isPlaced, _⟩ := admitted.exists_placed
      rw [isPlaced] at isError
      contradiction
  | inr refused =>
      obtain ⟨other, rejected⟩ := refused
      rw [← Except.error.inj (rejected.outcome.symm.trans isError)]
      exact rejected

/-- A placed warrior is the last of the roster, and one that is not placed changes nothing. -/
theorem placed_or_rejected (battle : Battle) (warrior : Warrior) (offset : UInt64) :
    (∃ placed, (battle.place warrior offset).outcome = .ok placed ∧
      (battle.place warrior offset).battle.roster = battle.roster ++ [placed]) ∨
    ∃ error, battle.place warrior offset = battle.reject error := by
  by_cases short : warrior.program.length < battle.limits.maxLength.toNat
  · left
    rw [place_of_short battle warrior offset short]
    exact ⟨_, rfl, rfl⟩
  · right
    exact ⟨_, place_of_long battle warrior offset (Nat.not_lt.mp short)⟩

/-! ## Loading sources in a row -/

/-- The match after these sources were loaded, and the events on the way. -/
def loadSources (battle : Battle) (sources : List String) : Battle × List Event :=
  battle.follow (sources.map .load)

theorem loadSources_cons (battle : Battle) (source : String) (rest : List String) :
    battle.loadSources (source :: rest) =
      (((battle.load source).battle.loadSources rest).1,
        (battle.load source).events ++ ((battle.load source).battle.loadSources rest).2) :=
  rfl

/-- The warriors that join are those that are admitted, in the order of their sources. -/
theorem joined_loadSources (battle : Battle) (sources : List String) :
    ∃ joined,
      (battle.loadSources sources).1.roster = battle.roster ++ joined ∧
      joined.map Warrior.admission = battle.limits.admissions battle.placed sources := by
  induction sources generalizing battle with
  | nil => exact ⟨[], (List.append_nil _).symm, rfl⟩
  | cons source rest inductionHypothesis =>
      rw [loadSources_cons]
      obtain ⟨joined, roster, admissions⟩ := inductionHypothesis (battle.load source).battle
      rw [Limits.admissions]
      rcases battle.admitted_or_rejected source with admitted | ⟨error, rejected⟩
      · obtain ⟨placed, _, judged, first⟩ := admitted.exists_placed
        refine ⟨placed :: joined, ?_, ?_⟩
        · rw [roster, first, List.append_assoc, List.singleton_append]
        · rw [judged, List.map_cons, admissions, admitted.limits, admitted.placed]
      · refine ⟨joined, ?_, ?_⟩
        · rw [roster, rejected.battle]
          rfl
        · rw [rejected.judged, admissions, rejected.battle]
          rfl

/-- Sources that are admitted one by one are all admitted in a row: nothing is announced. -/
theorem loadSources_of_admits
    (battle : Battle)
    {sources : List String}
    (admits : ∀ source ∈ sources, battle.limits.admits source = true) :
    (battle.loadSources sources).2 = [] := by
  induction sources generalizing battle with
  | nil => rfl
  | cons source rest inductionHypothesis =>
      rcases battle.admitted_or_rejected source with admitted | ⟨error, rejected⟩
      · have restAdmits : ∀ other ∈ rest,
            (battle.load source).battle.limits.admits other = true := by
          intro other member
          rw [admitted.limits]
          exact admits other (List.mem_cons_of_mem source member)
        rw [loadSources_cons, admitted.events, inductionHypothesis _ restAdmits]
        rfl
      · obtain ⟨admission, judged⟩ :=
          (battle.limits.exists_judge_eq_ok_iff battle.placed source).mpr
            (admits source List.mem_cons_self)
        rw [rejected.judged] at judged
        contradiction

/-- Loading judges a source by itself, under the limits and with the number of earlier placements.
Whatever happened in a match before, a source is admitted exactly if it assembles to a warrior with
fewer instructions than allowed, and the error, or the name, the program and the number of threads,
is that of the judgement. An accepted warrior is the last of the roster. A rejected source is
announced with its error and leaves everything but the generator as it was, a rejected warrior
leaves the generator too. So of sources in a row, those that are rejected make no difference to what
the others join with. -/
theorem loading_judges_source_alone
    {limits : Limits}
    {generator : Generator}
    {fresh : Battle}
    (created : create limits generator = .ok fresh)
    (commands : List Command) :
    let battle := (fresh.follow commands).1
    (∀ source,
      ((∃ placed, (battle.load source).outcome = .ok placed) ↔
        ∃ warrior, Assembly.assemble limits source = .ok warrior ∧
          warrior.program.length < limits.maxLength.toNat) ∧
      (battle.load source).outcome.map Warrior.admission = limits.judge battle.placed source ∧
      (∀ placed, (battle.load source).outcome = .ok placed →
        (battle.load source).battle.roster = battle.roster ++ [placed]) ∧
      ∀ error, (battle.load source).outcome = .error error →
        (battle.load source).events = [.error ("Warrior loading error: " ++ error.message)] ∧
        (battle.load source).battle =
          { battle with
            generator := (battle.generator.below (limits.coreSize - limits.maxLength)).2 }) ∧
    (∀ warrior offset,
      (∀ placed, (battle.place warrior offset).outcome = .ok placed →
        (battle.place warrior offset).battle.roster = battle.roster ++ [placed]) ∧
      ∀ error, (battle.place warrior offset).outcome = .error error →
        (battle.place warrior offset).events =
          [.error ("Warrior loading error: " ++ error.message)] ∧
        (battle.place warrior offset).battle = battle) ∧
    ∀ sources,
      let whole := (battle.loadSources sources).1
      let kept := battle.loadSources (sources.filter limits.admits)
      kept.2 = [] ∧
      ∃ joined keptJoined,
        whole.roster = battle.roster ++ joined ∧
        kept.1.roster = battle.roster ++ keptJoined ∧
        joined.map Warrior.admission = limits.admissions battle.placed sources ∧
        joined.map Warrior.admission = keptJoined.map Warrior.admission := by
  intro battle
  have sameLimits : battle.limits = limits := (sized_follow created commands).paced.limits_eq
  refine ⟨?_, ?_, ?_⟩
  · intro source
    have judged := battle.outcome_load source
    rw [sameLimits] at judged
    refine ⟨?_, judged, ?_, ?_⟩
    · rw [← limits.admits_iff, ← limits.exists_judge_eq_ok_iff battle.placed, ← judged]
      cases (battle.load source).outcome with
      | ok placed => simp [Except.map]
      | error error => simp [Except.map]
    · exact fun placed accepted => roster_load_of_ok accepted
    · intro error isError
      have rejected := rejected_load_of_error isError
      refine ⟨rejected.events, ?_⟩
      rw [rejected.battle, drawn, sameLimits]
  · intro warrior offset
    cases battle.placed_or_rejected warrior offset with
    | inl accepted =>
        obtain ⟨placed, isPlaced, roster⟩ := accepted
        rw [roster, isPlaced]
        refine ⟨fun same isSame => ?_, fun error isError => by contradiction⟩
        rw [Except.ok.inj isSame]
    | inr refused =>
        obtain ⟨error, rejected⟩ := refused
        rw [rejected]
        refine ⟨fun placed isPlaced => by contradiction, fun other isError => ?_⟩
        rw [← Except.error.inj isError]
        exact ⟨rfl, rfl⟩
  · intro sources
    have admits : ∀ source ∈ sources.filter limits.admits,
        battle.limits.admits source = true := by
      intro source member
      rw [sameLimits]
      exact (List.mem_filter.mp member).2
    obtain ⟨joined, roster, admissions⟩ := battle.joined_loadSources sources
    obtain ⟨keptJoined, keptRoster, keptAdmissions⟩ :=
      battle.joined_loadSources (sources.filter limits.admits)
    rw [sameLimits] at admissions keptAdmissions
    refine ⟨battle.loadSources_of_admits admits, joined, keptJoined, roster, keptRoster,
      admissions, ?_⟩
    rw [admissions, keptAdmissions, limits.admissions_filter_admits]

/-- After a round of a match, a source of two instructions where one is allowed is rejected under
the name that it would have had, and of three sources the other two join. -/
theorem loading_judges_source_alone_too_long :
    let limits : Limits := ⟨16, 10, 2, 3⟩
    let fresh : Battle := { limits, core := .ofSize 16, generator := .ofSeed 7 }
    let mover := "; redcode\n; name Mover\n; assert 1\nMOV 0, 1\n"
    let long := "; redcode\n; name Long\n; assert 1\nMOV 0, 1\nDAT 0, 0\n"
    let warrior : Warrior := .single "Free" 0 [⟨.dat, {}, {}⟩, ⟨.dat, {}, {}⟩]
    let code : List Instruction := [⟨.mov, ⟨.direct, 0⟩, ⟨.direct, 1⟩⟩]
    let message := "Warrior loading error: Warrior 'Long2' exceeds (2) the instruction limit: 2"
    create limits (.ofSeed 7) = .ok fresh ∧
    ∃ battle joined keptJoined,
      battle = (fresh.follow [.load mover, .load mover, .round]).1 ∧
      (battle.load long).events = [.error message] ∧
      (battle.load long).battle.roster = battle.roster ∧
      (∃ placed, (battle.load mover).outcome = .ok placed ∧
        (battle.load mover).battle.roster = battle.roster ++ [placed]) ∧
      (battle.place warrior 3).battle = battle ∧
      (battle.loadSources [mover, long, mover]).1.roster = battle.roster ++ joined ∧
      (battle.loadSources [mover, mover]).1.roster = battle.roster ++ keptJoined ∧
      joined.map Warrior.admission = [⟨"Mover2", code, 1⟩, ⟨"Mover3", code, 1⟩] ∧
      joined.map Warrior.admission = keptJoined.map Warrior.admission := by
  intro limits fresh mover long warrior code message
  have created : create limits (.ofSeed 7) = .ok fresh :=
    (create_eq_ok_iff _ _ _).mpr ⟨by decide, rfl⟩
  have rejected : ((fresh.follow [.load mover, .load mover, .round]).1.load long).outcome =
      .error (.tooLong "Long2" 2 2) := by
    decide +kernel
  have tooLong : ((fresh.follow [.load mover, .load mover, .round]).1.place warrior 3).outcome =
      .error (.tooLong "Free2" 2 2) := by
    decide +kernel
  have kept : [mover, long, mover].filter limits.admits = [mover, mover] := by decide +kernel
  have admitted : limits.admits mover = true := by decide +kernel
  have numbered : (fresh.follow [.load mover, .load mover, .round]).1.placed = 2 := by
    decide +kernel
  have admissions : limits.admissions 2 [mover, long, mover] =
      [⟨"Mover2", code, 1⟩, ⟨"Mover3", code, 1⟩] := by
    decide +kernel
  obtain ⟨judged, given, inARow⟩ :=
    loading_judges_source_alone created [.load mover, .load mover, .round]
  refine ⟨created, (fresh.follow [.load mover, .load mover, .round]).1, ?_⟩
  generalize (fresh.follow [.load mover, .load mover, .round]).1 = battle at *
  obtain ⟨events, unchanged⟩ := (judged long).2.2.2 _ rejected
  obtain ⟨placed, accepted⟩ := (judged mover).1.mpr ((limits.admits_iff mover).mp admitted)
  obtain ⟨_, joined, keptJoined, roster, keptRoster, joins, same⟩ := inARow [mover, long, mover]
  rw [kept] at keptRoster
  rw [numbered, admissions] at joins
  exact ⟨joined, keptJoined, rfl, events, by rw [unchanged],
    ⟨placed, accepted, (judged mover).2.2.1 placed accepted⟩,
    ((given warrior 3).2 _ tooLong).2, roster, keptRoster, joins, same⟩

end Battle

end CoreWar
