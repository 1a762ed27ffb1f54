/-
Quoted text: a text between quotes, with escapes for what cannot be shown.  Single quotes
unless the text holds a single quote and no double quote.
-/
import Tender.Text.Half
import Tender.Text.Printable

namespace Tender.Text

/-- The numeral of `n` in base sixteen, at least `width` digits long. -/
def hex (width n : Nat) : Text :=
  let digits := Nat.toDigits 16 n
  List.replicate (width - digits.length) '0' ++ digits

/-- A character inside quotes of the kind `quote`. -/
def quoteChar (quote c : Char) : Text :=
  if c = quote ∨ c = '\\' then ['\\', c]
  else if c = '\t' then ['\\', 't']
  else if c = '\n' then ['\\', 'n']
  else if c = '\r' then ['\\', 'r']
  else if isPrintable c then [c]
  else if codePoint c < 0x100 then '\\' :: 'x' :: hex 2 (codePoint c)
  else if codePoint c < 0x10000 then '\\' :: 'u' :: hex 4 (codePoint c)
  else '\\' :: 'U' :: hex 8 (codePoint c)

/-- The quote that a text is written between. -/
def quoteFor (s : Text) : Char :=
  if s.contains '\'' && !s.contains '"' then '"' else '\''

/-- A text between quotes. -/
def quoted (s : Text) : Text :=
  let quote := quoteFor s
  quote :: (s.flatMap (quoteChar quote) ++ [quote])

end Tender.Text
