import CoreWar.Limits

/-!
Contract: the arguments of the command line.

Owns:
- the commands and their options;
- reading arguments as a command, or refusing them.

Does not own: what a command does, see `CoreWar.CommandLine.Report`.

An option has a long name and may have a letter. Its value is the next argument, or follows the name
behind an equals sign, or follows the letter directly. Letters of options without a value may be
joined. Two hyphens end the options.
-/

namespace CoreWar.CommandLine

/-- The options of the commands. -/
inductive Setting where
  | configuration
  | coreSize
  | maxCycles
  | maxLength
  | maxTasks
  | seed
  | trace
  | json
  | dump
  | help
deriving DecidableEq, Repr

namespace Setting

def longName : Setting → List Char
  | configuration => "config".toList
  | coreSize => "core-size".toList
  | maxCycles => "max-cycles".toList
  | maxLength => "max-length".toList
  | maxTasks => "max-tasks".toList
  | seed => "seed".toList
  | trace => "trace".toList
  | json => "json".toList
  | dump => "dump".toList
  | help => "help".toList

def letter? : Setting → Option Char
  | configuration => some 'c'
  | seed => some 's'
  | trace => some 't'
  | help => some 'h'
  | _ => none

/-- Whether the option is given with a value. -/
def takesValue : Setting → Bool
  | trace => false
  | json => false
  | dump => false
  | help => false
  | _ => true

/-- Whether a value is one for this option: a path is not empty, anything else is a number. -/
def accepts (setting : Setting) (value : String) : Bool :=
  match setting with
  | configuration => !value.isEmpty
  | _ => (Text.readUnsigned? value.toList).isSome

/-- The options about limits. -/
def ofLimits : List Setting :=
  [configuration, coreSize, maxCycles, maxLength, maxTasks, help]

/-- The options of a battle. -/
def ofBattle : List Setting :=
  ofLimits ++ [seed, trace, json, dump]

end Setting

/-- Why the arguments are no command to be carried out. -/
inductive Refusal where
  /-- They are not understood. -/
  | usage
  /-- They ask for help. -/
  | help
deriving DecidableEq, Repr

/-- The options given so far, each with its value if it takes one, and the other arguments. -/
structure Given where
  settings : List (Setting × String) := []
  paths : List String := []
deriving DecidableEq, Repr

namespace Given

/-- Adds an option; it must be new and its value must suit it. -/
def add (given : Given) (setting : Setting) (value : String) : Except Refusal Given :=
  if setting = .help then
    .error .help
  else if (given.settings.lookup setting).isSome then
    .error .usage
  else if setting.takesValue && !setting.accepts value then
    .error .usage
  else
    .ok { given with settings := given.settings ++ [(setting, value)] }

/-- Adds a path; there must be room for it, and it must not be empty. -/
def addPath (given : Given) (maxPaths : Option Nat) (path : String) : Except Refusal Given :=
  if path.isEmpty || maxPaths.any fun most => most ≤ given.paths.length then
    .error .usage
  else
    .ok { given with paths := given.paths ++ [path] }

def addPaths (given : Given) (maxPaths : Option Nat) (paths : List String) : Except Refusal Given :=
  paths.foldlM (fun given path => given.addPath maxPaths path) given

def has (given : Given) (setting : Setting) : Bool :=
  (given.settings.lookup setting).isSome

def number? (given : Given) (setting : Setting) : Option UInt64 :=
  (given.settings.lookup setting).bind fun value => Text.readUnsigned? value.toList

end Given

/-- Reads a long option without its hyphens. Also answers whether it still wants a value. -/
def readLong
    (allowed : List Setting)
    (given : Given)
    (body : List Char) :
    Except Refusal (Given × Option Setting) :=
  let (name, rest) := body.span fun character => character != '='
  match allowed.find? fun setting => setting.longName == name, rest with
  | none, _ => .error .usage
  | some setting, [] =>
    if setting.takesValue then
      .ok (given, some setting)
    else
      (given.add setting "").map fun given => (given, none)
  | some setting, _ :: value =>
    if setting.takesValue then
      (given.add setting (String.ofList value)).map fun given => (given, none)
    else
      .error .usage

/-- The value that follows a letter directly, without the equals sign that may stand between. -/
def attachedValue : List Char → List Char
  | '=' :: value => value
  | value => value

/-- Reads joined letters without their hyphen. Also answers whether the last one wants a value. -/
def readLetters
    (allowed : List Setting)
    (given : Given) :
    List Char → Except Refusal (Given × Option Setting)
  | [] => .ok (given, none)
  | letter :: rest =>
    match allowed.find? fun setting => setting.letter? == some letter with
    | none => .error .usage
    | some setting =>
      if setting.takesValue then
        if rest.isEmpty then
          .ok (given, some setting)
        else
          (given.add setting (String.ofList (attachedValue rest))).map fun given => (given, none)
      else do
        let given ← given.add setting ""
        readLetters allowed given rest

/-- Whether an argument can be the value of an option or a path: a lone hyphen can. -/
def isPlain (argument : String) : Bool :=
  match argument.toList with
  | '-' :: _ :: _ => false
  | _ => true

/-- Reads an argument that is no path. -/
def readOption
    (allowed : List Setting)
    (given : Given)
    (argument : String) :
    Except Refusal (Given × Option Setting) :=
  match argument.toList with
  | '-' :: '-' :: body => readLong allowed given body
  | '-' :: letters => readLetters allowed given letters
  | _ => .error .usage

/-- Reads the arguments of a command. -/
def readArguments
    (allowed : List Setting)
    (maxPaths : Option Nat)
    (given : Given) :
    List String → Except Refusal Given
  | [] => .ok given
  | [argument] =>
    if argument = "--" then
      .ok given
    else if isPlain argument then
      given.addPath maxPaths argument
    else do
      match ← readOption allowed given argument with
      | (given, none) => return given
      | (_, some _) => throw .usage
  | argument :: next :: rest =>
    if argument = "--" then
      given.addPaths maxPaths (next :: rest)
    else if isPlain argument then do
      let given ← given.addPath maxPaths argument
      readArguments allowed maxPaths given (next :: rest)
    else do
      match ← readOption allowed given argument with
      | (given, none) => readArguments allowed maxPaths given (next :: rest)
      | (given, some setting) =>
        if isPlain next then
          let given ← given.add setting next
          readArguments allowed maxPaths given rest
        else
          throw .usage

/-- Limits as the command line gives them: a file, and numbers that replace those of the file. -/
structure LimitOptions where
  configuration : Option String := none
  coreSize : Option UInt64 := none
  maxCycles : Option UInt64 := none
  maxLength : Option UInt64 := none
  maxTasks : Option UInt64 := none
deriving DecidableEq, Repr

/-- A battle as the command line describes it. -/
structure BattleOptions where
  warriors : List String
  limits : LimitOptions := {}
  seed : Option UInt64 := none
  /-- Report every executed instruction. -/
  trace : Bool := false
  /-- Report events as lines of JSON. -/
  json : Bool := false
  /-- Report the occupied cells after the match. -/
  dump : Bool := false
deriving DecidableEq, Repr

/-- What the program is asked to do. -/
inductive Command where
  | version
  | battle (options : BattleOptions)
  | assemble (source : String) (limits : LimitOptions)
deriving DecidableEq, Repr

def Given.limits (given : Given) : LimitOptions :=
  { configuration := given.settings.lookup .configuration
    coreSize := given.number? .coreSize
    maxCycles := given.number? .maxCycles
    maxLength := given.number? .maxLength
    maxTasks := given.number? .maxTasks }

def readBattle (arguments : List String) : Except Refusal Command := do
  let given ← readArguments Setting.ofBattle none {} arguments
  if given.paths.isEmpty then
    throw .usage
  return .battle {
    warriors := given.paths
    limits := given.limits
    seed := given.number? .seed
    trace := given.has .trace
    json := given.has .json
    dump := given.has .dump }

def readAssemble (arguments : List String) : Except Refusal Command := do
  let given ← readArguments Setting.ofLimits (some 1) {} arguments
  match given.paths with
  | [source] => return .assemble source given.limits
  | _ => throw .usage

/-- Help may be asked for about one command by name. -/
def readHelp : List String → Except Refusal Command
  | [] => .error .help
  | ["battle"] => .error .help
  | ["asm"] => .error .help
  | ["help"] => .error .help
  | _ => .error .usage

/-- Reads the command of the program's arguments. -/
def Command.read : List String → Except Refusal Command
  | [] => .error .usage
  | command :: arguments =>
    match command.toList with
    | '-' :: 'V' :: _ => .ok .version
    | '-' :: 'h' :: _ => .error .help
    | _ =>
      match command with
      | "--version" => .ok .version
      | "--help" => .error .help
      | "help" => readHelp arguments
      | "battle" => readBattle arguments
      | "asm" => readAssemble arguments
      | _ => .error .usage

/-- The files that a command reads. -/
def Command.paths : Command → List String
  | version => []
  | battle options => options.limits.configuration.toList ++ options.warriors
  | assemble source limits => limits.configuration.toList ++ [source]

end CoreWar.CommandLine
