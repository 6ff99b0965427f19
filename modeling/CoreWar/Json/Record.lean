import CoreWar.Json.Parser
import CoreWar.Json.Printer

/-!
Contract: records and variants in JSON.

Owns:
- the fields of a record, given as an object or as an array in the order of the fields;
- the name of a variant without content, given as a string or as an object with one member.

Does not own: the records and variants themselves, see the modules of `CoreWar.Codec`.
-/

namespace CoreWar.Json

/-- The value of a key among the members: absent, or given once. A repeated key is refused. -/
def memberNamed? (members : List (String × Value)) (name : String) : Option (Option Value) :=
  match members.filter fun member => member.1 == name with
  | [] => some none
  | [member] => some (some member.2)
  | _ => none

/-- Members whose keys are all Unicode text. -/
def unicodeMembers? (members : List (Content × Value)) : Option (List (String × Value)) :=
  members.mapM fun (key, value) => key.map fun key => (key, value)

/-- The fields of a record with these names, in their order; none for a field that is absent. An
object may have further members, an array no further items. -/
def Value.fields? (names : List String) : Value → Option (List (Option Value))
  | .object members => do
    let members ← unicodeMembers? members
    names.mapM (memberNamed? members)
  | .array items =>
    if items.length ≤ names.length then
      some (items.map some ++ List.replicate (names.length - items.length) none)
    else
      none
  | _ => none

/-- How a variant without content may be written as an object. -/
inductive EmptyContent where
  /-- The member's value is null. -/
  | nullOnly
  /-- The member's value is null or an object without members. -/
  | nullOrEmptyObject
deriving DecidableEq, Repr

/-- Whether a value stands for no content. -/
def EmptyContent.admits : EmptyContent → Value → Bool
  | _, .null => true
  | nullOrEmptyObject, .object [] => true
  | _, _ => false

/-- The name of a variant without content. -/
def Value.variant? (empty : EmptyContent) : Value → Option String
  | .text name => name
  | .object [(some name, content)] => if empty.admits content then some name else none
  | _ => none

/-- Reads the value of a text with a reader of values. -/
def decode? {α : Type} (reader : Value → Option α) (text : String) : Option α :=
  (parse? text.toList).bind reader

end CoreWar.Json
