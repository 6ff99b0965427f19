import CoreWar.Codec.Event
import CoreWar.Codec.Limits
import CoreWar.CommandLine.Arguments
import CoreWar.CommandLine.Folder
import CoreWar.Listing

/-!
Contract: what the program prints.

Owns:
- carrying out a command on files that have been read;
- the lines of events, as text or as JSON, and the result of a match.

Does not own: the files and the terminal, see `CoreWar.Main`.
-/

namespace CoreWar.CommandLine

/-- What a run prints, and its exit code. -/
structure Report where
  stdout : String := ""
  stderr : String := ""
  exitCode : UInt32 := 0
deriving DecidableEq, Repr

namespace Report

def print (report : Report) (text : String) : Report :=
  { report with stdout := report.stdout ++ text }

def complain (report : Report) (message : String) : Report :=
  { report with stderr := report.stderr ++ "❌ " ++ message ++ "\n" }

/-- Ends the run with a complaint. -/
def fail (report : Report) (message : String) : Report :=
  { report.complain message with exitCode := 1 }

end Report

/-! ## Events -/

/-- How events are reported. -/
structure EventStyle where
  trace : Bool
  json : Bool
deriving DecidableEq, Repr

/-- The name, with blanks up to sixteen characters. -/
def nameColumn (name : String) : String :=
  String.ofList (List.rightpad 16 ' ' name.toList)

/-- The line of an event in plain text; an error has none. -/
def plainLine? : Event → Option String
  | .step warrior address instruction =>
    some (String.ofList (Text.paddedDecimal 5 address.toNat) ++ "  " ++ nameColumn warrior ++ " " ++
      toString instruction ++ "\n")
  | .fault warrior address message =>
    some ("⚠️  " ++ warrior ++ " faulted at " ++ String.ofList (Text.decimal address.toNat) ++
      ": " ++ message ++ "\n")
  | .died warrior => some ("💀 " ++ warrior ++ " died\n")
  | .won warrior => some ("🏆 " ++ warrior ++ " won\n")
  | .tie cycles =>
    some ("🤝 Tie after " ++ String.ofList (Text.decimal cycles.toNat) ++ " cycles\n")
  | .error _ => none

namespace EventStyle

/-- Whether an event is reported at all: steps are only if they are asked for. -/
def shows (style : EventStyle) (event : Event) : Bool :=
  style.trace || !event.isStep

/-- What an event adds to the standard output. -/
def line (style : EventStyle) (event : Event) : String :=
  if !style.shows event then ""
  else if style.json then Json.toText event.toJson ++ "\n"
  else (plainLine? event).getD ""

/-- Adds an event to a report; in plain text, an error is a complaint. -/
def announce (style : EventStyle) (report : Report) (event : Event) : Report :=
  match event with
  | .error message =>
    if style.json then report.print (style.line event) else report.complain message
  | _ => report.print (style.line event)

/-- Adds events to a report in their order. -/
def announceAll (style : EventStyle) (report : Report) (events : List Event) : Report :=
  events.foldl style.announce report

end EventStyle

/-! ## Commands -/

/-- The limits with the given numbers in place. -/
def LimitOptions.override (options : LimitOptions) (limits : Limits) : Limits :=
  { coreSize := options.coreSize.getD limits.coreSize
    maxCycles := options.maxCycles.getD limits.maxCycles
    maxLength := options.maxLength.getD limits.maxLength
    maxTasks := options.maxTasks.getD limits.maxTasks }

/-- The limits of a configuration file. -/
def loadConfiguration (files : Files) (path : String) : Except String Limits :=
  match files path with
  | .error failure => .error ("I/O error: " ++ failure.message)
  | .ok text => (Limits.ofConfiguration text).mapError ConfigurationError.message

/-- The limits of a command. A configuration file must be playable by itself, before any of its
numbers is replaced. -/
def LimitOptions.resolve (options : LimitOptions) (files : Files) : Except String Limits := do
  match options.configuration with
  | none => return options.override {}
  | some path =>
    let limits ← (loadConfiguration files path).mapError ("Failed to load config: " ++ ·)
    return options.override limits

def readSource (files : Files) (path : String) : Except String String :=
  (files path).mapError fun failure => "Failed to read " ++ path ++ ": " ++ failure.message

/-- Loads the sources at the paths one after the other and reports the events. A file that cannot be
read ends the run. -/
def loadAll
    (files : Files)
    (style : EventStyle)
    (battle : Battle)
    (report : Report) :
    List String → Battle × Report × Except String Unit
  | [] => (battle, report, .ok ())
  | path :: rest =>
    match readSource files path with
    | .error message => (battle, report, .error message)
    | .ok source =>
      let loading := battle.load source
      loadAll files style loading.battle (style.announceAll report loading.events) rest

/-- The result of a match. -/
def resultText (cycles : UInt64) (status : Status) : String :=
  "\n━━━ Result ━━━\nCycles: " ++ String.ofList (Text.decimal cycles.toNat) ++ "\n" ++
    match status with
    | .won warrior => "Winner: " ++ warrior ++ "\n"
    | .tie => "Tie\n"
    | .running => ""

/-- Plays a match and reports it. -/
def reportMatch (options : BattleOptions) (battle : Battle) (report : Report) : Report :=
  let style : EventStyle := ⟨options.trace, options.json⟩
  let progress := battle.run
  let report := style.announceAll report progress.log.toList
  let battle := progress.battle
  let report :=
    if options.json then report else report.print (resultText battle.cycles battle.status)
  if options.dump then report.print (Listing.dumpAll battle.core) else report

/-- Carries out a battle; without a seed, `entropy` is one. -/
def runBattle (files : Files) (entropy : UInt64) (options : BattleOptions) : Report :=
  let report : Report := {}
  match options.limits.resolve files with
  | .error message => report.fail message
  | .ok limits =>
    match Battle.create limits (.ofSeed (options.seed.getD entropy)) with
    | .error error => report.fail error.message
    | .ok battle =>
      match loadAll files ⟨options.trace, options.json⟩ battle report options.warriors with
      | (_, report, .error message) => report.fail message
      | (battle, report, .ok ()) =>
        if battle.roster.isEmpty then
          report.fail "No warriors loaded"
        else
          reportMatch options battle report

/-- Assembles a source and prints its listing. -/
def runAssemble
    (files : Files)
    (source : String)
    (options : LimitOptions) :
    Except String String := do
  let limits ← options.resolve files
  let text ← readSource files source
  limits.check.mapError LimitsError.message
  let warrior ← (Assembly.assemble limits text).mapError fun error =>
    "Assembly error: " ++ error.message
  return Listing.ofWarrior warrior

/-- Carries out a command. -/
def Command.run (files : Files) (entropy : UInt64) : Command → Report
  | version => { stdout := "mars-sim 0.1.0\n" }
  | battle options => runBattle files entropy options
  | assemble source limits =>
    match runAssemble files source limits with
    | .ok listing => { stdout := listing }
    | .error message => ({} : Report).fail message

end CoreWar.CommandLine
