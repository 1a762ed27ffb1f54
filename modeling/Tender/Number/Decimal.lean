/-
Decimal numbers: a whole coefficient times a power of ten, kept as written.
-/
import Tender.Number.Binary64
import Tender.Text.Basic

namespace Tender

/-- A decimal number.  A `nan` may carry digits and may be of the signalling kind. -/
inductive Decimal where
  | finite (negative : Bool) (coefficient : Nat) (exponent : Int)
  | infinite (negative : Bool)
  | nan (negative signalling : Bool) (payload : Text)
  deriving DecidableEq

namespace Decimal

/-- The value of a row of decimal digits. -/
def digitsValue (s : Text) : Nat :=
  s.foldl (fun n c => n * 10 + (c.toNat - '0'.toNat)) 0

/-- Reads an exponent: an optional sign and at least one digit. -/
def readExponent? (s : Text) : Option Int :=
  match s with
  | '-' :: d :: r => if (d :: r).all Char.isDigit then some (-(digitsValue (d :: r) : Int)) else none
  | '+' :: d :: r => if (d :: r).all Char.isDigit then some (digitsValue (d :: r)) else none
  | d :: r => if (d :: r).all Char.isDigit then some (digitsValue (d :: r)) else none
  | [] => none

/-- Reads an unsigned numeral with an optional fraction and an optional exponent. -/
def readUnsigned? (s : Text) : Option (Nat × Int) :=
  let whole := s.takeWhile Char.isDigit
  let afterWhole := s.dropWhile Char.isDigit
  let (fraction, rest) := match afterWhole with
    | '.' :: r => (r.takeWhile Char.isDigit, r.dropWhile Char.isDigit)
    | r => ([], r)
  if whole ++ fraction = [] then none
  else
    let scale := fun (e : Int) => some (digitsValue (whole ++ fraction), e - (fraction.length : Int))
    match rest with
    | [] => scale 0
    | e :: r => if e = 'e' ∨ e = 'E' then (readExponent? r).bind scale else none

/-- Reads a decimal number. -/
def ofText? (s : Text) : Option Decimal :=
  let (negative, body) := match s with
    | '-' :: r => (true, r)
    | '+' :: r => (false, r)
    | r => (false, r)
  let low := body.map Char.toLower
  if low = lit "inf" ∨ low = lit "infinity" then some (.infinite negative)
  else match Text.after? (lit "nan") low, Text.after? (lit "snan") low with
    | some digits, _ => if digits.all Char.isDigit then
        some (.nan negative false (digits.dropWhile (· == '0'))) else none
    | none, some digits => if digits.all Char.isDigit then
        some (.nan negative true (digits.dropWhile (· == '0'))) else none
    | none, none => (readUnsigned? body).map fun (c, e) => .finite negative c e

/-- Coefficient and exponent as text: the point inside the digits unless the exponent is above
zero or the number is below `10 ^ (-6)`, where a power of ten is written. -/
def plain (coefficient : Nat) (exponent : Int) : Text :=
  let digits := Text.ofNat coefficient
  let left : Int := exponent + (digits.length : Int)
  let point : Int := if exponent ≤ 0 ∧ -6 < left then left else 1
  let body :=
    if point ≤ 0 then '0' :: '.' :: List.replicate (-point).toNat '0' ++ digits
    else if (digits.length : Int) ≤ point then
      digits ++ List.replicate (point - (digits.length : Int)).toNat '0'
    else digits.take point.toNat ++ '.' :: digits.drop point.toNat
  if left = point then body
  else body ++ 'E' :: (if left < point then '-' else '+') :: Text.ofNat (left - point).natAbs

/-- The text of a decimal number. -/
def toText : Decimal → Text
  | .finite s c e => (if s then ['-'] else []) ++ plain c e
  | .infinite s => (if s then ['-'] else []) ++ lit "Infinity"
  | .nan s signalling payload =>
    (if s then ['-'] else []) ++ (if signalling then lit "sNaN" else lit "NaN") ++ payload

/-- The exact value of a finite number. -/
def toRat? : Decimal → Option Rat
  | .finite s c (.ofNat e) =>
    let n : Int := (c * Nat.pow 10 e : Nat)
    some (mkRat (if s then -n else n) 1)
  | .finite s c (.negSucc e) => some (mkRat (if s then -(c : Int) else c) (Nat.pow 10 (e + 1)))
  | _ => none

/-- The nearest binary64 number; none for a signalling `nan`. -/
def toBinary64? : Decimal → Option Binary64
  | .finite s c e => some (Binary64.ofScientific s c e)
  | .infinite s => some (.infinite s)
  | .nan _ signalling _ => if signalling then none else some .nan

end Decimal
end Tender
