import CoreWar.Assembly.Draft
import CoreWar.Assembly.Header
import CoreWar.Assertion.Expression
import CoreWar.Machine.Core
import CoreWar.Machine.Warrior

/-!
Contract: from a source to a warrior.

Owns:
- the order in which a source is judged: limits, marker, assertion, name, lines;
- the assembled warrior.

Does not own: how long a warrior may be, which is decided where it is placed, see
`CoreWar.Battle.Basic`.
-/

namespace CoreWar.Assembly

/-- Judges the assertion of a header. -/
def checkAssertion (limits : Limits) (text : String) : Except Error Unit :=
  match Assertion.holds limits text with
  | .ok true => .ok ()
  | .ok false => .error (.failedAssertion text)
  | .error .malformed => .error (.failedAssertion text)
  | .error .invalidToken => .error (.invalidAssertion text)

/-- Judges a header and gives the warrior's name. -/
def Header.approve (header : Header) (limits : Limits) : Except Error String := do
  if !header.marked then
    throw .missingMarker
  let some assertion := header.assertion | throw .missingAssertion
  checkAssertion limits assertion
  let some name := header.name | throw .missingName
  return name

/-- Assembles the lines of a source into a program and the address of its first thread. The origin
is folded into the core; only the least word in a core of 2^64 - 1 cells has no place there. -/
def assembleBody
    (limits : Limits)
    (lines : List (List Char)) :
    Except Error (List Instruction × UInt64) := do
  let draft ← Draft.read lines
  let program ← draft.program
  let entry ← draft.entry
  match fold? entry limits.coreSize with
  | some start => return (program, start)
  | none => throw .unfoldableOrigin

/-- Assembles a source given as its lines. -/
def assembleLines (limits : Limits) (lines : List (List Char)) : Except Error Warrior := do
  match limits.check with
  | .error error => throw (.limits error)
  | .ok () =>
    let name ← (Header.scan lines).approve limits
    let (program, start) ← assembleBody limits lines
    return Warrior.single name start program

/-- Assembles a source under the limits of a match. -/
def assemble (limits : Limits) (source : String) : Except Error Warrior :=
  assembleLines limits (Text.lines source.toList)

end CoreWar.Assembly
