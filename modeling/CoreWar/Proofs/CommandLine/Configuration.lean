import CoreWar.CommandLine.Report
import CoreWar.Proofs.Admission

/-!
Contract: when a command is refused for its limits.

Owns:
- the limits that the numbers of a command are put into, and the limits that result;
- the complaints of a run, told apart by their first words;
- the refusal of a command for its limits, and every other way in which it can end.

Does not own: which texts are configurations, see `CoreWar.Proofs.Codec.Configuration`.

Limits are judged twice: those of the file when it is read, before any of them is replaced, and the
limits that result when the match is created or the source is assembled.
-/

namespace CoreWar.CommandLine

/-! ## Limits of a command -/

/-- What the numbers of a command are put into: the limits of the configuration file, or the
defaults without one. -/
inductive LimitOptions.Base (options : LimitOptions) (files : Files) : Limits → Prop where
  | defaults (absent : options.configuration = none) : Base options files {}
  | file
      {path text : String}
      {limits : Limits}
      (given : options.configuration = some path)
      (read : files path = .ok text)
      (decoded : Json.decode? Limits.ofJson? text = some limits) :
      Base options files limits

section Resolve

variable
  {options : LimitOptions}
  {files : Files}
  {own : Limits}
  (base : options.Base files own)
include base

theorem resolve_of_playable (playable : own.Playable) :
    options.resolve files = .ok (options.override own) := by
  have checked := own.check_eq_ok_iff.mpr playable
  cases base with
  | defaults absent =>
      rw [LimitOptions.resolve, absent]
      rfl
  | file given read decoded =>
      simp only [LimitOptions.resolve, given, loadConfiguration, read, Limits.ofConfiguration,
        decoded, checked]
      rfl

/-- Limits of a file that cannot be played are refused, whatever the numbers of the command. -/
theorem resolve_of_unplayable (unplayable : ¬own.Playable) :
    ∃ error : LimitsError,
      options.resolve files = .error ("Failed to load config: " ++ error.message) := by
  cases base with
  | defaults absent => exact absurd (by decide) unplayable
  | file given read decoded =>
      cases checked : own.check with
      | ok accepted => exact absurd (own.check_eq_ok_iff.mp checked) unplayable
      | error error =>
          refine ⟨error, ?_⟩
          simp only [LimitOptions.resolve, given, loadConfiguration, read, Limits.ofConfiguration,
            decoded, checked]
          rfl

end Resolve

/-! ## Complaints -/

namespace Report

/-- The first complaint of a run starts with these words. -/
def Complains (report : Report) (words : String) : Prop :=
  ("❌ " ++ words).toList <+: report.stderr.toList

/-- The run goes on, and nothing was complained about unless it was a source that could not be
loaded. -/
structure LoadsOnly (report : Report) : Prop where
  exitCode : report.exitCode = 0
  complaints : report.stderr = "" ∨ report.Complains "Warrior loading error: "

/-- The run is refused for its limits: it ends with a complaint about them and nothing else. The
limits are those of the configuration file, or those that resulted. -/
inductive RefusesLimits : Report → Prop where
  | file (error : LimitsError) :
      RefusesLimits (({} : Report).fail ("Failed to load config: " ++ error.message))
  | result (error : LimitsError) : RefusesLimits (({} : Report).fail error.message)

/-- The run succeeds, or the first complaint is about a source. -/
def SparesLimits (report : Report) : Prop :=
  report.exitCode = 0 ∨
    ∃ words ∈ ["Warrior loading error: ", "Failed to read ", "No warriors loaded",
      "Assembly error: "], report.Complains words

theorem complains_complain_of_silent
    {report : Report}
    (silent : report.stderr = "")
    (words rest : String) :
    (report.complain (words ++ rest)).Complains words := by
  unfold Complains complain
  rw [silent]
  exact ⟨rest.toList ++ ['\n'], by simp [String.toList_append]⟩

theorem Complains.complain
    {report : Report}
    {words : String}
    (complains : report.Complains words)
    (message : String) :
    (report.complain message).Complains words := by
  have longer : (report.complain message).stderr =
      report.stderr ++ ("❌ " ++ message ++ "\n") := by
    simp [Report.complain, String.append_assoc]
  unfold Complains
  rw [longer]
  exact complains.trans ⟨_, String.toList_append.symm⟩

/-- A complaint is the first one, or there was one about a source before. -/
theorem LoadsOnly.fail
    {report : Report}
    (loadsOnly : report.LoadsOnly)
    (words rest : String) :
    (report.fail (words ++ rest)).Complains words ∨
      (report.fail (words ++ rest)).Complains "Warrior loading error: " := by
  rcases loadsOnly.complaints with silent | complains
  · exact Or.inl (complains_complain_of_silent silent words rest)
  · exact Or.inr (complains.complain _)

/-- Words that differ do not start the same complaint. -/
theorem Complains.unique
    {report : Report}
    {left right : String}
    (leftComplains : report.Complains left)
    (rightComplains : report.Complains right) :
    left.toList <+: right.toList ∨ right.toList <+: left.toList := by
  have nested := List.prefix_or_prefix_of_prefix leftComplains rightComplains
  rwa [String.toList_append, String.toList_append, List.prefix_append_right_inj,
    List.prefix_append_right_inj] at nested

/-- A run that is refused for its limits says so. -/
theorem RefusesLimits.complains {report : Report} (refuses : report.RefusesLimits) :
    report.exitCode = 1 ∧
      ∃ words ∈ ["Failed to load config: ", "invalid configuration: "], report.Complains words := by
  cases refuses with
  | file error =>
      refine ⟨rfl, "Failed to load config: ", by simp, ?_⟩
      exact complains_complain_of_silent rfl "Failed to load config: " error.message
  | result error =>
      refine ⟨rfl, "invalid configuration: ", by simp, ?_⟩
      exact complains_complain_of_silent rfl "invalid configuration: " error.reason

theorem SparesLimits.not_refusesLimits {report : Report} (spares : report.SparesLimits) :
    ¬report.RefusesLimits := by
  intro refuses
  obtain ⟨failed, words, aboutLimits, complains⟩ := refuses.complains
  rcases spares with succeeded | ⟨others, aboutSource, complainsOtherwise⟩
  · rw [failed] at succeeded
    contradiction
  · have apart : ∀ first ∈ ["Failed to load config: ", "invalid configuration: "],
        ∀ second ∈ ["Warrior loading error: ", "Failed to read ", "No warriors loaded",
          "Assembly error: "],
        ¬(first.toList <+: second.toList ∨ second.toList <+: first.toList) := by
      decide
    exact apart words aboutLimits others aboutSource (complains.unique complainsOtherwise)

end Report

/-! ## Battles -/

theorem exitCode_announceAll (style : EventStyle) (report : Report) (events : List Event) :
    (style.announceAll report events).exitCode = report.exitCode := by
  induction events generalizing report with
  | nil => rfl
  | cons event rest inductionHypothesis =>
      have first : (style.announce report event).exitCode = report.exitCode := by
        cases event with
        | error message =>
            simp only [EventStyle.announce]
            split
            · rfl
            · rfl
        | _ => rfl
      exact (inductionHypothesis _).trans first

/-- A source that is loaded, or is rejected, gives cause for no other complaint. -/
theorem loadsOnly_announceAll_load
    {report : Report}
    (loadsOnly : report.LoadsOnly)
    (style : EventStyle)
    (battle : Battle)
    (source : String) :
    (style.announceAll report (battle.load source).events).LoadsOnly := by
  constructor
  case exitCode =>
    rw [exitCode_announceAll]
    exact loadsOnly.exitCode
  case complaints =>
    rcases battle.admitted_or_rejected source with admitted | ⟨error, rejected⟩
    · rw [admitted.events]
      exact loadsOnly.complaints
    · rw [rejected.events]
      cases json : style.json with
      | true =>
          have printed : style.announceAll report [error.event] =
              report.print (style.line error.event) :=
            if_pos json
          rw [printed]
          exact loadsOnly.complaints
      | false =>
          have complained : style.announceAll report [error.event] =
              report.complain ("Warrior loading error: " ++ error.message) :=
            if_neg (by simp [json])
          rw [complained]
          rcases loadsOnly.complaints with silent | complains
          · exact Or.inr (Report.complains_complain_of_silent silent _ error.message)
          · exact Or.inr (complains.complain _)

theorem loadsOnly_loadAll
    {report : Report}
    (loadsOnly : report.LoadsOnly)
    (files : Files)
    (style : EventStyle)
    (battle : Battle)
    (paths : List String) :
    (loadAll files style battle report paths).2.1.LoadsOnly ∧
      ∀ message, (loadAll files style battle report paths).2.2 = .error message →
        ∃ rest, message = "Failed to read " ++ rest := by
  induction paths generalizing battle report with
  | nil => exact ⟨loadsOnly, fun _ failed => nomatch failed⟩
  | cons path rest inductionHypothesis =>
      cases read : files path with
      | error failure =>
          have failed : readSource files path =
              .error ("Failed to read " ++ (path ++ ": " ++ failure.message)) := by
            rw [readSource, read]
            exact congrArg Except.error (by simp only [String.append_assoc])
          simp only [loadAll, failed]
          refine ⟨loadsOnly, ?_⟩
          rintro message ⟨⟩
          exact ⟨_, rfl⟩
      | ok source =>
          have readable : readSource files path = .ok source := by
            rw [readSource, read]
            rfl
          simp only [loadAll, readable]
          exact inductionHypothesis (loadsOnly_announceAll_load loadsOnly style battle source)
            (battle.load source).battle

/-- A match that is played ends the run well. -/
theorem exitCode_reportMatch (options : BattleOptions) (battle : Battle) (report : Report) :
    (reportMatch options battle report).exitCode = report.exitCode := by
  have printed (report : Report) (text : String) :
      (report.print text).exitCode = report.exitCode :=
    rfl
  simp only [reportMatch, apply_ite Report.exitCode, printed, exitCode_announceAll, ite_self]

/-! ## Listings -/

/-- Once the limits are there, the source is read, the limits are judged and the source is
assembled. -/
theorem runAssemble_of_resolved
    {files : Files}
    {options : LimitOptions}
    {limits : Limits}
    (resolved : options.resolve files = .ok limits)
    (source : String) :
    runAssemble files source options =
      match files source with
      | .error failure => .error ("Failed to read " ++ (source ++ ": " ++ failure.message))
      | .ok text =>
        match limits.check with
        | .error error => .error error.message
        | .ok () =>
          match Assembly.assemble limits text with
          | .error error => .error ("Assembly error: " ++ error.message)
          | .ok warrior => .ok (Listing.ofWarrior warrior) := by
  simp only [runAssemble, resolved, readSource, bind, Except.bind]
  cases files source with
  | error failure => simp only [Except.mapError, String.append_assoc]
  | ok text =>
      simp only [Except.mapError]
      cases limits.check with
      | error error => rfl
      | ok accepted =>
          cases Assembly.assemble limits text with
          | error error => rfl
          | ok warrior => rfl

/-! ## Refusal -/

section Refusal

variable
  {files : Files}
  {options : LimitOptions}
  {own : Limits}
  (base : options.Base files own)
include base

/-- Under limits that can be played, whatever ends a battle is no complaint about them. -/
theorem sparesLimits_runBattle
    {battle : BattleOptions}
    (limits : battle.limits = options)
    (playable : own.Playable)
    (resultPlayable : (options.override own).Playable)
    (entropy : UInt64) :
    (runBattle files entropy battle).SparesLimits := by
  have resolved := resolve_of_playable base playable
  rw [← limits] at resolved resultPlayable
  have created := (Battle.create_eq_ok_iff _ (.ofSeed (battle.seed.getD entropy)) _).mpr
    ⟨resultPlayable, rfl⟩
  simp only [runBattle, resolved, created]
  generalize ({ limits := _, core := _, generator := _ } : Battle) = fresh
  have silent : Report.LoadsOnly {} := ⟨rfl, Or.inl rfl⟩
  obtain ⟨loadsOnly, unread⟩ :=
    loadsOnly_loadAll silent files ⟨battle.trace, battle.json⟩ fresh battle.warriors
  split
  · rename_i report message loaded
    rw [loaded] at loadsOnly unread
    obtain ⟨rest, rfl⟩ := unread message rfl
    rcases loadsOnly.fail "Failed to read " rest with first | later
    · exact Or.inr ⟨_, by simp, first⟩
    · exact Or.inr ⟨_, by simp, later⟩
  · rename_i loadedBattle report loaded
    rw [loaded] at loadsOnly
    split
    · rcases loadsOnly.fail "No warriors loaded" "" with first | later
      · exact Or.inr ⟨_, by simp, first⟩
      · exact Or.inr ⟨_, by simp, later⟩
    · refine Or.inl ?_
      rw [exitCode_reportMatch]
      exact loadsOnly.exitCode

theorem refusesLimits_runBattle_iff
    {battle : BattleOptions}
    (limits : battle.limits = options)
    (entropy : UInt64) :
    (runBattle files entropy battle).RefusesLimits ↔
      ¬own.Playable ∨ ¬(options.override own).Playable := by
  by_cases playable : own.Playable
  · by_cases resultPlayable : (options.override own).Playable
    · have spares := sparesLimits_runBattle base limits playable resultPlayable entropy
      exact ⟨fun refuses => absurd refuses spares.not_refusesLimits,
        fun either => absurd either (not_or.mpr ⟨not_not.mpr playable, not_not.mpr resultPlayable⟩)⟩
    · have resolved := resolve_of_playable base playable
      obtain ⟨error, refused⟩ := Limits.exists_check_eq_error resultPlayable
      have created : Battle.create (options.override own) (.ofSeed (battle.seed.getD entropy)) =
          .error error := by
        rw [Battle.create, refused]
        rfl
      simp only [runBattle, limits, resolved, created]
      exact ⟨fun _ => Or.inr resultPlayable, fun _ => .result error⟩
  · obtain ⟨error, refused⟩ := resolve_of_unplayable base playable
    simp only [runBattle, limits, refused]
    exact ⟨fun _ => Or.inl playable, fun _ => .file error⟩

/-- Under limits that can be played, whatever ends the assembling is no complaint about them. So it
is when the source cannot be read, whatever the limits. -/
theorem sparesLimits_assemble
    (playable : own.Playable)
    {source : String}
    (spared : (∀ text, files source ≠ .ok text) ∨ (options.override own).Playable)
    (entropy : UInt64) :
    (Command.run files entropy (.assemble source options)).SparesLimits := by
  simp only [Command.run, runAssemble_of_resolved (resolve_of_playable base playable)]
  cases read : files source with
  | error failure =>
      refine Or.inr ⟨"Failed to read ", by simp, ?_⟩
      exact Report.complains_complain_of_silent rfl "Failed to read "
        (source ++ ": " ++ failure.message)
  | ok text =>
      have resultPlayable := spared.resolve_left fun unread => unread text read
      simp only [(options.override own).check_eq_ok_iff.mpr resultPlayable]
      cases Assembly.assemble (options.override own) text with
      | error error =>
          refine Or.inr ⟨"Assembly error: ", by simp, ?_⟩
          exact Report.complains_complain_of_silent rfl "Assembly error: " error.message
      | ok warrior => exact Or.inl rfl

theorem refusesLimits_assemble_iff (entropy : UInt64) (source : String) :
    (Command.run files entropy (.assemble source options)).RefusesLimits ↔
      ¬own.Playable ∨
        (∃ text, files source = .ok text) ∧ ¬(options.override own).Playable := by
  by_cases playable : own.Playable
  · by_cases judged : (∃ text, files source = .ok text) ∧ ¬(options.override own).Playable
    · obtain ⟨⟨text, read⟩, unplayable⟩ := judged
      obtain ⟨error, refused⟩ := Limits.exists_check_eq_error unplayable
      simp only [Command.run, runAssemble_of_resolved (resolve_of_playable base playable), read,
        refused]
      exact ⟨fun _ => Or.inr ⟨⟨text, rfl⟩, unplayable⟩, fun _ => .result error⟩
    · have spared : (∀ text, files source ≠ .ok text) ∨ (options.override own).Playable := by
        rwa [not_and_or, not_not, not_exists] at judged
      have spares := sparesLimits_assemble base playable spared entropy
      exact ⟨fun refuses => absurd refuses spares.not_refusesLimits,
        fun either => absurd either (not_or.mpr ⟨not_not.mpr playable, judged⟩)⟩
  · obtain ⟨error, refused⟩ := resolve_of_unplayable base playable
    have failed : runAssemble files source options =
        .error ("Failed to load config: " ++ error.message) := by
      simp only [runAssemble, refused]
      rfl
    simp only [Command.run, failed]
    exact ⟨fun _ => Or.inl playable, fun _ => .file error⟩

end Refusal

/-- A command is refused for its limits exactly if those of the configuration file cannot be played,
or those that result when its numbers are put into them. A file that cannot be played is refused
whatever the numbers are. For a listing, the limits that result are judged behind the source, so
only if it can be read. -/
theorem limits_judged_in_file_and_merged
    {files : Files}
    {options : LimitOptions}
    {own : Limits}
    (base : options.Base files own)
    (entropy : UInt64) :
    (∀ battle : BattleOptions,
      battle.limits = options →
      ((Command.run files entropy (.battle battle)).RefusesLimits ↔
        ¬own.Playable ∨ ¬(options.override own).Playable)) ∧
    ∀ source : String,
      (Command.run files entropy (.assemble source options)).RefusesLimits ↔
        ¬own.Playable ∨
          (∃ text, files source = .ok text) ∧ ¬(options.override own).Playable :=
  ⟨fun _ limits => refusesLimits_runBattle_iff base limits entropy,
    refusesLimits_assemble_iff base entropy⟩

/-- A file that can be played, a core size that is too small for its greatest length, and one that
is just large enough. -/
theorem limits_judged_in_file_and_merged_core_size :
    let text := "\x7b\"max_length\":300,\"core_size\":400\x7d"
    let warrior := "; redcode\n; name A\n; assert 1\nDAT 0, 0\n"
    let folder := [("limits", text), ("warrior", warrior)]
    let files : Files := fun path => (folder.lookup path).elim (.error .missing) .ok
    let own : Limits := { coreSize := 400, maxLength := 300 }
    let tooSmall : LimitOptions := { configuration := some "limits", coreSize := some 300 }
    let large : LimitOptions := { configuration := some "limits", coreSize := some 301 }
    tooSmall.Base files own ∧
    (Command.run files 0 (.battle { warriors := ["warrior"], limits := tooSmall })).RefusesLimits ∧
    (Command.run files 0 (.assemble "warrior" tooSmall)).RefusesLimits ∧
    ¬(Command.run files 0 (.assemble "missing" tooSmall)).RefusesLimits ∧
    large.Base files own ∧
    ¬(Command.run files 0 (.battle { warriors := ["warrior"], limits := large })).RefusesLimits ∧
    ¬(Command.run files 0 (.assemble "warrior" large)).RefusesLimits := by
  intro text warrior folder files own tooSmall large
  have decoded : Json.decode? Limits.ofJson? text = some own := by decide +kernel
  have read : files "limits" = .ok text := by decide +kernel
  have readWarrior : files "warrior" = .ok warrior := by decide +kernel
  have missing : files "missing" = .error .missing := by decide +kernel
  have playable : own.Playable := by decide
  have tooSmallUnplayable : ¬(tooSmall.override own).Playable := by decide
  have largePlayable : (large.override own).Playable := by decide
  have tooSmallBase : tooSmall.Base files own := .file rfl read decoded
  have largeBase : large.Base files own := .file rfl read decoded
  obtain ⟨battle, listing⟩ := limits_judged_in_file_and_merged tooSmallBase 0
  obtain ⟨largeBattle, largeListing⟩ := limits_judged_in_file_and_merged largeBase 0
  refine ⟨tooSmallBase, ?_, ?_, ?_, largeBase, ?_, ?_⟩
  · exact (battle _ rfl).mpr (Or.inr tooSmallUnplayable)
  · exact (listing _).mpr (Or.inr ⟨⟨warrior, readWarrior⟩, tooSmallUnplayable⟩)
  · rw [listing]
    simp [playable, missing]
  · rw [largeBattle _ rfl]
    simp [playable, largePlayable]
  · rw [largeListing]
    simp [playable, largePlayable]

/-- The limits that result can be played, and the command is refused all the same: a core of 100
cells is too small for the default of the greatest length, which the command replaces by 50. -/
theorem limits_not_judged_after_merging_alone :
    let text := "\x7b\"core_size\":100\x7d"
    let warrior := "; redcode\n; name A\n; assert 1\nDAT 0, 0\n"
    let folder := [("limits", text), ("warrior", warrior)]
    let files : Files := fun path => (folder.lookup path).elim (.error .missing) .ok
    let own : Limits := { coreSize := 100 }
    let options : LimitOptions := { configuration := some "limits", maxLength := some 50 }
    options.Base files own ∧
    (options.override own).Playable ∧
    (Command.run files 0 (.battle { warriors := ["warrior"], limits := options })).RefusesLimits ∧
    (Command.run files 0 (.assemble "warrior" options)).RefusesLimits := by
  intro text warrior folder files own options
  have decoded : Json.decode? Limits.ofJson? text = some own := by decide +kernel
  have read : files "limits" = .ok text := by decide +kernel
  have base : options.Base files own := .file rfl read decoded
  have unplayable : ¬own.Playable := by decide
  exact ⟨base, by decide, (refusesLimits_runBattle_iff base rfl 0).mpr (Or.inl unplayable),
    (refusesLimits_assemble_iff base 0 "warrior").mpr (Or.inl unplayable)⟩

end CoreWar.CommandLine
