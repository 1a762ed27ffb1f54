/-
Writing a map of texts as JSON, in ASCII and one entry a line.

Main statement: `write_nil`, a map without entries is a pair of braces.
-/
import Tender.Text.Quoted
import Tender.Value.Basic

namespace Tender.Json

/-- A half of a wide character, or a narrow one, by its number. -/
def writeCode (code : Nat) : Text :=
  '\\' :: 'u' :: Text.hex 4 code

/-- A character between quotes. -/
def writeChar (c : Char) : Text :=
  if c = '"' ∨ c = '\\' then ['\\', c]
  else if c = '\n' then ['\\', 'n']
  else if c = '\r' then ['\\', 'r']
  else if c = '\t' then ['\\', 't']
  else if c = '\x0c' then ['\\', 'f']
  else if c = '\x08' then ['\\', 'b']
  else if 0x20 ≤ c.toNat ∧ c.toNat < 0x7F then [c]
  else if Text.isHalf c then writeCode (Text.codePoint c)
  else (Text.spell c).flatMap fun d => writeCode (Text.codePoint d)

/-- A text between quotes. -/
def writeText (s : Text) : Text :=
  '"' :: s.flatMap writeChar ++ ['"']

/-- An entry on a line of its own. -/
def writeEntry (key value : Text) : Text :=
  lit "\n  " ++ writeText key ++ lit ": " ++ writeText value

/-- A map of texts. -/
def write (es : Entries Text) : Text :=
  match es with
  | [] => ['{', '}']
  | es => '{' :: Text.joinWith [','] (es.map fun (k, v) => writeEntry k v) ++ ['\n', '}']

theorem write_nil : write [] = ['{', '}'] := rfl

end Tender.Json
