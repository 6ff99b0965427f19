import CoreWar.Json.Record
import CoreWar.Limits

/-!
Contract: limits in JSON, as in a configuration file.

Owns:
- a writer, and a reader in which an absent limit keeps its default;
- the configuration: a text whose limits can be played.

Does not own: the check of the limits, see `CoreWar.Limits`.
-/

namespace CoreWar

open Json (Value)

def Limits.toJson (limits : Limits) : Value :=
  .ofMembers [
    ("core_size", .ofUnsigned limits.coreSize),
    ("max_cycles", .ofUnsigned limits.maxCycles),
    ("max_length", .ofUnsigned limits.maxLength),
    ("max_tasks", .ofUnsigned limits.maxTasks)]

/-- A limit that may be absent. -/
def readLimit (default : UInt64) : Option Value → Option UInt64
  | none => some default
  | some value => value.unsigned?

def Limits.ofJson? (value : Value) : Option Limits := do
  let defaults : Limits := {}
  match ← value.fields? ["core_size", "max_cycles", "max_length", "max_tasks"] with
  | [coreSize, maxCycles, maxLength, maxTasks] =>
    let coreSize ← readLimit defaults.coreSize coreSize
    let maxCycles ← readLimit defaults.maxCycles maxCycles
    let maxLength ← readLimit defaults.maxLength maxLength
    let maxTasks ← readLimit defaults.maxTasks maxTasks
    return { coreSize, maxCycles, maxLength, maxTasks }
  | _ => none

/-- Why a text is no configuration. -/
inductive ConfigurationError where
  | malformed
  | unplayable (error : LimitsError)
deriving DecidableEq, Repr

def ConfigurationError.message : ConfigurationError → String
  | malformed => "malformed configuration: not a JSON record of limits"
  | unplayable error => error.message

/-- Reads a configuration: limits in JSON that can be played. -/
def Limits.ofConfiguration (text : String) : Except ConfigurationError Limits :=
  match Json.decode? ofJson? text with
  | none => .error .malformed
  | some limits =>
    match limits.check with
    | .ok () => .ok limits
    | .error error => .error (.unplayable error)

end CoreWar
