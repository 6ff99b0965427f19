import CoreWar.Json.Record
import CoreWar.Machine.Core
import CoreWar.Machine.Warrior

/-!
Contract: the JSON forms of instructions, cores, queues and warriors.

Owns:
- a writer and a reader for each of them.

Does not own: the forms of events and of limits, which stand beside this module.

Readers refuse a missing field, a repeated field and a number outside its word, and pass over
fields that they do not know.
-/

namespace CoreWar

open Json (Value EmptyContent)

/-! ## Modes and operations -/

def Mode.jsonName : Mode → String
  | immediate => "Immediate"
  | direct => "Direct"
  | indirect => "Indirect"

def Mode.ofJsonName? : String → Option Mode
  | "Immediate" => some immediate
  | "Direct" => some direct
  | "Indirect" => some indirect
  | _ => none

def Mode.toJson (mode : Mode) : Value :=
  .ofString mode.jsonName

def Mode.ofJson? (empty : EmptyContent) (value : Value) : Option Mode :=
  (value.variant? empty).bind ofJsonName?

def Operation.jsonName : Operation → String
  | dat => "Dat"
  | mov => "Mov"
  | add => "Add"
  | sub => "Sub"
  | mul => "Mul"
  | div => "Div"
  | mod => "Mod"
  | jmp => "Jmp"
  | jmz => "Jmz"
  | cmp => "Cmp"
  | frk => "Frk"
  | clr => "Clr"
  | cpy => "Cpy"

def Operation.ofJsonName? (name : String) : Option Operation :=
  all.find? fun operation => operation.jsonName == name

def Operation.toJson (operation : Operation) : Value :=
  .ofString operation.jsonName

def Operation.ofJson? (empty : EmptyContent) (value : Value) : Option Operation :=
  (value.variant? empty).bind ofJsonName?

/-! ## Instructions -/

def Instruction.toJson (instruction : Instruction) : Value :=
  .ofMembers [
    ("op", instruction.operation.toJson),
    ("a_mode", instruction.a.mode.toJson),
    ("a_field", .ofSigned instruction.a.field),
    ("b_mode", instruction.b.mode.toJson),
    ("b_field", .ofSigned instruction.b.field)]

def Instruction.ofJson? (empty : EmptyContent) (value : Value) : Option Instruction := do
  match ← value.fields? ["op", "a_mode", "a_field", "b_mode", "b_field"] with
  | [some operation, some aMode, some aField, some bMode, some bField] =>
    let operation ← Operation.ofJson? empty operation
    let aMode ← Mode.ofJson? empty aMode
    let aField ← aField.signed?
    let bMode ← Mode.ofJson? empty bMode
    let bField ← bField.signed?
    return ⟨operation, ⟨aMode, aField⟩, ⟨bMode, bField⟩⟩
  | _ => none

/-! ## Cores -/

def Core.toJson (core : Core) : Value :=
  .ofMembers [("cells", .array (core.cells.toList.map Instruction.toJson))]

def Core.ofJson? (value : Value) : Option Core := do
  match ← value.fields? ["cells"] with
  | [some cells] =>
    let cells ← cells.items?
    let cells ← cells.mapM (Instruction.ofJson? .nullOnly)
    return ⟨cells.toArray⟩
  | _ => none

/-! ## Queues and warriors -/

def TaskQueue.toJson (tasks : TaskQueue) : Value :=
  .ofMembers [("pcs", .array (tasks.waiting.map Value.ofUnsigned))]

def TaskQueue.ofJson? (value : Value) : Option TaskQueue := do
  match ← value.fields? ["pcs"] with
  | [some waiting] =>
    let waiting ← waiting.items?
    let waiting ← waiting.mapM Value.unsigned?
    return ⟨waiting⟩
  | _ => none

def Warrior.toJson (warrior : Warrior) : Value :=
  .ofMembers [
    ("name", .ofString warrior.name),
    ("instructions", .array (warrior.program.map Instruction.toJson)),
    ("tasks", warrior.tasks.toJson),
    ("start", .ofUnsigned warrior.start)]

def Warrior.ofJson? (value : Value) : Option Warrior := do
  match ← value.fields? ["name", "instructions", "tasks", "start"] with
  | [some name, some program, some tasks, some start] =>
    let name ← name.string?
    let program ← program.items?
    let program ← program.mapM (Instruction.ofJson? .nullOnly)
    let tasks ← TaskQueue.ofJson? tasks
    let start ← start.unsigned?
    return ⟨name, program, tasks, start⟩
  | _ => none

end CoreWar
