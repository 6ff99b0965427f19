import CoreWar.CommandLine.Report

/-!
Contract: the program.

Owns:
- reading the files of a command, printing its report, and the exit code.

Does not own: anything that decides what is printed, see `CoreWar.CommandLine.Report`.
-/

namespace CoreWar.CommandLine

def usageText : String :=
  "Usage: mars-sim battle [OPTIONS] <WARRIORS>...\n" ++
  "       mars-sim asm [OPTIONS] <SOURCE>\n\n" ++
  "Options:\n" ++
  "  -c, --config <FILE>     JSON file with match limits\n" ++
  "      --core-size <N>     number of core cells\n" ++
  "      --max-cycles <N>    rounds until a tie\n" ++
  "      --max-length <N>    warriors have fewer instructions than this\n" ++
  "      --max-tasks <N>     threads of one warrior\n" ++
  "  -s, --seed <N>          seed for placement (battle)\n" ++
  "  -t, --trace             print every executed instruction (battle)\n" ++
  "      --json              print events as JSON lines (battle)\n" ++
  "      --dump              print the occupied cells after the match (battle)\n" ++
  "  -h, --help              print this text\n" ++
  "  -V, --version           print the version\n"

def readFailure : IO.Error → ReadFailure
  | .noFileOrDirectory .. => .missing
  | .permissionDenied .. => .denied
  | .inappropriateType .. => .directory
  | error => .other (toString error)

def readPath (path : String) : IO (Except ReadFailure String) := do
  try
    let bytes ← IO.FS.readBinFile path
    match String.fromUTF8? bytes with
    | some text => return .ok text
    | none => return .error .notText
  catch error =>
    return .error (readFailure error)

/-- Reads the files of a command. -/
def readPaths (paths : List String) : IO Files := do
  let contents ← paths.mapM fun path => return (path, ← readPath path)
  return fun path => (contents.lookup path).getD (.error .missing)

def runArguments (arguments : List String) : IO UInt32 := do
  match Command.read arguments with
  | .error .help =>
    IO.print usageText
    return 0
  | .error .usage =>
    IO.eprint usageText
    return 2
  | .ok command =>
    let files ← readPaths command.paths
    let entropy ← IO.rand 0 (UInt64.size - 1)
    let report := command.run files (UInt64.ofNat entropy)
    IO.print report.stdout
    IO.eprint report.stderr
    return report.exitCode

end CoreWar.CommandLine

def main (arguments : List String) : IO UInt32 :=
  CoreWar.CommandLine.runArguments arguments
