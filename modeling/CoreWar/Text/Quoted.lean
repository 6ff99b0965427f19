import CoreWar.Text.Glyph

/-!
Contract: texts in quotation marks, written so that every character can be told from the page.

Owns:
- the escapes of quotation marks, backslashes and the usual controls;
- the numbered form of the characters that show no glyph.

Does not own: the strings of the JSON format, which have escapes of their own.
-/

namespace CoreWar.Text

/-- One character inside quotation marks. -/
def quotedChar (character : Char) : List Char :=
  match character with
  | '\x00' => ['\\', '0']
  | '\t' => ['\\', 't']
  | '\r' => ['\\', 'r']
  | '\n' => ['\\', 'n']
  | '"' => ['\\', '"']
  | '\\' => ['\\', '\\']
  | _ =>
    if hasGlyph character then
      [character]
    else
      ['\\', 'u', '\x7b'] ++ Nat.toDigits 16 character.toNat ++ ['\x7d']

/-- The text between quotation marks. -/
def quoted (text : String) : String :=
  String.ofList ('"' :: text.toList.flatMap quotedChar ++ ['"'])

end CoreWar.Text
