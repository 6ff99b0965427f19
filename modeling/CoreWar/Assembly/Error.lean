import CoreWar.Limits

/-!
Contract: why a source is no warrior.

Owns:
- the faults of a single line and of a source as a whole;
- their messages.

Does not own: when each of them arises; the modules beside this one decide that.
-/

namespace CoreWar.Assembly

/-- What is wrong with one line. -/
inductive LineFault where
  | tooManyOperands (text : String)
  | unsupportedMode (text : String)
  | missingField
  | invalidField (text : String)
  | constantWithoutLabel
  | invalidLabel (label : String)
  | unknownOperation (mnemonic : String)
  | undefinedLabel (label : String)
  | duplicateLabel (label : String)
  | invalidConstant (text : String)
deriving DecidableEq, Repr

/-- Why a source is no warrior. -/
inductive Error where
  | limits (error : LimitsError)
  | missingMarker
  | missingAssertion
  | invalidAssertion (text : String)
  | failedAssertion (text : String)
  | missingName
  | atLine (number : Nat) (fault : LineFault)
  /-- The origin has no remainder by the size of the core. -/
  | unfoldableOrigin
deriving DecidableEq, Repr

/-- The message of a fault: what it is called, the line's number, and what is wrong there. -/
def LineFault.message (number : Nat) (fault : LineFault) : String :=
  let located (kind detail : String) : String :=
    kind ++ " on line " ++ String.ofList (Text.decimal number) ++ ": " ++ detail
  match fault with
  | tooManyOperands text => located "syntax error" ("too many operands: " ++ text)
  | unsupportedMode text => located "syntax error" ("unsupported addressing mode: " ++ text)
  | missingField => located "syntax error" "missing operand field"
  | invalidField text => located "syntax error" ("invalid field: " ++ text)
  | constantWithoutLabel => located "syntax error" "EQU requires a label"
  | invalidLabel label => located "syntax error" ("invalid label: " ++ label)
  | unknownOperation mnemonic => located "Invalid op-code detected" mnemonic
  | undefinedLabel label => located "Invalid label reference" label
  | duplicateLabel label => located "duplicate label" label
  | invalidConstant text => located "invalid EQU constant" text

def Error.message : Error → String
  | limits error => error.message
  | missingMarker => "Missing filemarker: ;redcode"
  | missingAssertion => "Warrior must specify an assert"
  | invalidAssertion text => "Invalid assert expression: " ++ text
  | failedAssertion text => "Warrior assert didn't pass: " ++ text
  | missingName => "Warrior must specify a name"
  | atLine number fault => fault.message number
  | unfoldableOrigin => "origin cannot be folded into the core"

end CoreWar.Assembly
