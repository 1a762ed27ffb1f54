/-
Character references: characters written by their number or their name.

In running text a number below 256 is a byte of the table that is common for western texts.  In
the value of an attribute a reference may lack its semicolon, and a name that is not known may still
start with one that is.

Main statement: `expandAll_of_plain`, a text without an ampersand stands for itself.
-/
import Tender.Fault
import Tender.Html.Entity
import Tender.Number.Integer
import Tender.Text.Scan

namespace Tender.Html

/-- A digit of the system with base sixteen. -/
def isHexDigit (c : Char) : Bool :=
  c.isDigit || ('a' ≤ c && c ≤ 'f') || ('A' ≤ c && c ≤ 'F')

/-- The value of a digit of the system with base sixteen. -/
def hexDigitValue (c : Char) : Nat :=
  if c.isDigit then c.toNat - '0'.toNat else c.toLower.toNat - 'a'.toNat + 10

/-- The value of digits of the system with base sixteen. -/
def hexValue (digits : Text) : Nat :=
  digits.foldl (fun n c => n * 16 + hexDigitValue c) 0

/-- The characters that the numbers from 0x80 to 0x9F stand for. -/
def westernCodes : List Nat :=
  [0x20AC, 0x81, 0x201A, 0x192, 0x201E, 0x2026, 0x2020, 0x2021, 0x2C6, 0x2030, 0x160, 0x2039,
   0x152, 0x8D, 0x17D, 0x8F, 0x90, 0x2018, 0x2019, 0x201C, 0x201D, 0x2022, 0x2013, 0x2014, 0x2DC,
   0x2122, 0x161, 0x203A, 0x153, 0x9D, 0x17E, 0x178]

/-- What stands for a character that cannot be shown. -/
def replacement : Char := '\uFFFD'

/-- The character that a number stands for in running text. -/
def textChar (n : Nat) : Char :=
  if 0x80 ≤ n ∧ n < 0xA0 then Char.ofNat (westernCodes.getD (n - 0x80) n)
  else if n ≤ 0x10FFFF then Text.ofCode n
  else replacement

/-- A number that stands for no character at all. -/
def isNoCharacter (n : Nat) : Bool :=
  (1 ≤ n && n ≤ 8) || n = 0xB || (0xE ≤ n && n ≤ 0x1F) || n = 0x7F || (0xFDD0 ≤ n && n ≤ 0xFDEF) ||
    n % 0x10000 ≥ 0xFFFE

/-- The characters that a number stands for in the value of an attribute. -/
def valueChars (n : Nat) : Text :=
  if n = 0 then [replacement]
  else if 0x80 ≤ n ∧ n < 0xA0 then [Char.ofNat (westernCodes.getD (n - 0x80) n)]
  else if (0xD800 ≤ n ∧ n < 0xE000) ∨ 0x10FFFF < n then [replacement]
  else if isNoCharacter n then []
  else [Char.ofNat n]

/-- A reference. -/
inductive Reference where
  | decimal (digits : Text)
  | hexadecimal (digits : Text)
  /-- A name, with its semicolon if it has one. -/
  | name (spelled : Text)
  deriving DecidableEq

/-- The number that decimal digits spell, unless there are too many of them. -/
def decimalNumber (digits : Text) : Except Fault Nat :=
  if Integer.maxDigits < digits.length then .error (.tooManyDigits digits.length)
  else .ok (Integer.value digits)

/-- The longest beginning of a name that is a name itself and needs no semicolon, with its characters
in front of the rest of the name. -/
def expandStart (spelled : Text) : Option Text :=
  ((List.range spelled.length).reverse.filter (2 ≤ ·)).findSome? fun n =>
    if isLoose (spelled.take n) then
      (named? (spelled.take n)).map fun chars => chars ++ spelled.drop n
    else none

/-- The characters that a name stands for in the value of an attribute. -/
def expandName (spelled : Text) : Text :=
  let whole := match spelled.reverse with
    | ';' :: name => named? name.reverse
    | _ => if isLoose spelled then named? spelled else none
  match whole with
  | some chars => chars
  | none => (expandStart spelled).getD ('&' :: spelled)

/-- The characters that a reference stands for in the value of an attribute. -/
def Reference.expand : Reference → Except Fault Text
  | .decimal digits => (decimalNumber digits).map valueChars
  | .hexadecimal digits => .ok (valueChars (hexValue digits))
  | .name spelled => .ok (expandName spelled)

/-- A character that can be part of a name in the value of an attribute. -/
def isNameChar (c : Char) : Bool :=
  !(['\t', '\n', '\x0c', ' ', '<', '&', '#', ';'].contains c)

/-- A reference with the number of characters it has after the ampersand, given those of its body and
the text after that. -/
def withSemicolon (length : Nat) (make : Bool → Reference) : Text → Reference × Nat
  | ';' :: _ => (make true, length + 1)
  | _ => (make false, length)

/-- The reference at the start of a text in the value of an attribute. -/
def Reference.find (_ : Option Char) (s : Text) : Option (Reference × Nat) :=
  match s with
  | '&' :: '#' :: x :: s =>
    if x.isDigit then
      let digits := (x :: s).takeWhile Char.isDigit
      some (withSemicolon (digits.length + 1) (fun _ => .decimal digits)
        ((x :: s).drop digits.length))
    else if x = 'x' ∨ x = 'X' then
      let digits := s.takeWhile isHexDigit
      if digits = [] then none
      else some (withSemicolon (digits.length + 2) (fun _ => .hexadecimal digits)
        (s.drop digits.length))
    else none
  | '&' :: s =>
    let name := (s.take 32).takeWhile isNameChar
    if name = [] then none
    else some (withSemicolon name.length
      (fun semicolon => .name (if semicolon then name ++ [';'] else name)) (s.drop name.length))
  | _ => none

/-- Writes characters and references out, after the text `done` (reversed). -/
def expandAtoms : (done : Text) → List (Text.Atom Reference) → Except Fault Text
  | done, [] => .ok done.reverse
  | done, .char c :: rest => expandAtoms (c :: done) rest
  | done, .item r :: rest => match r.expand with
    | .ok chars => expandAtoms (chars.reverse ++ done) rest
    | .error f => .error f

/-- The value of an attribute with its references written out. -/
def expandAll (s : Text) : Except Fault Text :=
  if '&' ∈ s then expandAtoms [] (Text.atoms Reference.find s) else .ok s

theorem expandAll_of_plain {s : Text} (h : '&' ∉ s) : expandAll s = .ok s := by
  simp [expandAll, h]

end Tender.Html
