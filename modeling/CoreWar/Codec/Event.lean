import CoreWar.Battle.Basic
import CoreWar.Codec.Instruction
import CoreWar.Json.Binary64

/-!
Contract: events and match states in JSON.

Owns:
- events as records with a tag, in a writer and a reader;
- the state of a match as a variant.

Does not own: the form of the instruction inside an event, see `CoreWar.Codec.Instruction`.

The tag of an event may stand anywhere among its members, so all of them are held before any is
read. What is held must be Unicode text throughout, with numbers in the range of binary64 and not
nested too deeply, also where a member is passed over afterwards.
-/

namespace CoreWar

open Json (Value EmptyContent)

/-! ## Values that can be held -/

mutual

/-- Whether a value can be held, nested at most `depth` deep. -/
def Json.Value.isHoldable (depth : Nat) : Value → Bool
  | .null => true
  | .bool _ => true
  | .number literal => literal.isFinite
  | .text content => content.isSome
  | .array items => 0 < depth && itemsHoldable (depth - 1) items
  | .object members => 0 < depth && membersHoldable (depth - 1) members

def Json.itemsHoldable (depth : Nat) : List Value → Bool
  | [] => true
  | item :: rest => item.isHoldable depth && itemsHoldable depth rest

def Json.membersHoldable (depth : Nat) : List (Json.Content × Value) → Bool
  | [] => true
  | (key, value) :: rest => key.isSome && value.isHoldable depth && membersHoldable depth rest

end

/-- How deeply the text of an event may be nested. -/
def Event.maxDepth : Nat := 127

/-! ## Events -/

namespace Event

/-- The members of an event besides its tag. -/
def members : Event → List (String × Value)
  | step warrior address instruction =>
    [("warrior", .ofString warrior), ("address", .ofUnsigned address),
      ("instruction", instruction.toJson)]
  | fault warrior address message =>
    [("warrior", .ofString warrior), ("address", .ofUnsigned address),
      ("message", .ofString message)]
  | died warrior => [("warrior", .ofString warrior)]
  | won warrior => [("warrior", .ofString warrior)]
  | tie cycles => [("cycles", .ofUnsigned cycles)]
  | error message => [("message", .ofString message)]

def toJson (event : Event) : Value :=
  .ofMembers (("event", .ofString event.tag) :: event.members)

/-- Reads the members of an event with this tag. -/
def ofTagged? (tag : String) (content : Value) : Option Event := do
  match tag with
  | "step" =>
    match ← content.fields? ["warrior", "address", "instruction"] with
    | [some warrior, some address, some instruction] =>
      return step (← warrior.string?) (← address.unsigned?)
        (← Instruction.ofJson? .nullOrEmptyObject instruction)
    | _ => none
  | "fault" =>
    match ← content.fields? ["warrior", "address", "message"] with
    | [some warrior, some address, some message] =>
      return fault (← warrior.string?) (← address.unsigned?) (← message.string?)
    | _ => none
  | "died" =>
    match ← content.fields? ["warrior"] with
    | [some warrior] => return died (← warrior.string?)
    | _ => none
  | "won" =>
    match ← content.fields? ["warrior"] with
    | [some warrior] => return won (← warrior.string?)
    | _ => none
  | "tie" =>
    match ← content.fields? ["cycles"] with
    | [some cycles] => return tie (← cycles.unsigned?)
    | _ => none
  | "error" =>
    match ← content.fields? ["message"] with
    | [some message] => return error (← message.string?)
    | _ => none
  | _ => none

/-- Splits the tag off the members of an event. It must be there once. -/
def splitTag? (members : List (Json.Content × Value)) : Option (String × Value) :=
  match members.partition fun member => member.1 == some "event" with
  | ([(_, tag)], rest) => tag.string?.map fun tag => (tag, .object rest)
  | _ => none

/-- Reads an event: an object with its tag among the members, or an array with its tag in front. -/
def ofJson? (value : Value) : Option Event :=
  if value.isHoldable maxDepth then
    match value with
    | .object members => (splitTag? members).bind fun (tag, content) => ofTagged? tag content
    | .array (tag :: items) => tag.string?.bind fun tag => ofTagged? tag (.array items)
    | _ => none
  else
    none

end Event

/-! ## Match states -/

def Status.toJson : Status → Value
  | running => .ofString "Running"
  | won warrior => .ofMembers [("Won", .ofString warrior)]
  | tie => .ofString "Tie"

def Status.ofJson? (value : Value) : Option Status :=
  match value with
  | .object [(some "Won", warrior)] => warrior.string?.map won
  | _ =>
    match value.variant? .nullOnly with
    | some "Running" => some running
    | some "Tie" => some tie
    | _ => none

end CoreWar
