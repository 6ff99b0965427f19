import CoreWar.Battle.Basic
import CoreWar.Text.Quoted

/-!
Contract: a match on one line, for people who look into it.

Owns:
- the summaries of a core, of a state and of a match.

Does not own: their JSON forms, see `CoreWar.Codec.Event`.
-/

namespace CoreWar

/-- The occupied and the total number of cells. -/
def Core.summary (core : Core) : String :=
  "Core \x7b occupied_cells: " ++ String.ofList (Text.decimal core.occupied) ++
    ", total_cells: " ++ String.ofList (Text.decimal core.cells.size) ++ " \x7d"

def Status.summary : Status → String
  | running => "Running"
  | won warrior => "Won(" ++ Text.quoted warrior ++ ")"
  | tie => "Tie"

/-- The state, the rounds played, the names of the warriors left, and the core. -/
def Battle.summary (battle : Battle) : String :=
  "Mars \x7b state: " ++ battle.status.summary ++
    ", cycles: " ++ String.ofList (Text.decimal battle.cycles.toNat) ++
    ", warriors: [" ++
      String.intercalate ", " (battle.roster.map fun warrior => Text.quoted warrior.name) ++
    "], core: " ++ battle.core.summary ++ " \x7d"

end CoreWar
