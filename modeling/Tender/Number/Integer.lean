/-
Integers written with the decimal digits of any script.

Main statement: `length_spacedDigits?_le`, what is read between low lines is no longer than the text.
-/
import Tender.Fault
import Tender.Text.Blank
import Tender.Text.Digit

namespace Tender.Integer

/-- How many digits an integer may have. -/
def maxDigits : Nat := 4300

/-- The value of a row of decimal digits. -/
def value (digits : Text) : Nat :=
  digits.foldl (fun n c => n * 10 + (Text.decimalValue? c).getD 0) 0

/-- The integer that a row of digits spells; a row that is too long is refused, and so is one with
a digit that has no decimal value. -/
def ofDigits (s : Text) : Except Fault Nat :=
  let digits := s.takeWhile Text.isDecimal
  if maxDigits < digits.length then .error (.tooManyDigits digits.length)
  else if digits.length < s.length then .error (.notInteger s)
  else .ok (value digits)

/-- Whether an integer has a place among those of 64 bits. -/
def isWord (n : Int) : Bool :=
  -9223372036854775808 ≤ n && n ≤ 9223372036854775807

/-- Reads digits with single low lines between them. -/
def spacedDigits? (isDigit : Char → Bool) : Text → Option Text
  | [] => none
  | [c] => if isDigit c then some [c] else none
  | c :: '_' :: s => if isDigit c then (spacedDigits? isDigit s).map (c :: ·) else none
  | c :: s => if isDigit c then (spacedDigits? isDigit s).map (c :: ·) else none

theorem length_spacedDigits?_le {isDigit : Char → Bool} {s digits : Text}
    (h : spacedDigits? isDigit s = some digits) : digits.length ≤ s.length := by
  fun_induction spacedDigits? isDigit s generalizing digits with
  | case1 => simp at h
  | case2 => cases h; simp
  | case3 => simp at h
  | case4 _ _ _ ih =>
    obtain ⟨ds, hds, rfl⟩ := Option.map_eq_some_iff.1 h
    have := ih hds
    simp only [List.length_cons]; omega
  | case5 => simp at h
  | case6 _ _ _ _ _ ih =>
    obtain ⟨ds, hds, rfl⟩ := Option.map_eq_some_iff.1 h
    have := ih hds
    simp only [List.length_cons]; omega
  | case7 => simp at h

/-- A blank that may stand around a written integer. -/
def isMargin (c : Char) : Bool :=
  Text.isBlank c && !(0x1C ≤ c.toNat && c.toNat ≤ 0x1F)

/-- The integer that a text spells: a sign, then digits with single low lines between, blanks
around it all. -/
def ofText? (s : Text) : Option Int :=
  let s := ((s.dropWhile isMargin).reverse.dropWhile isMargin).reverse
  let (negative, body) := match s with
    | '-' :: s => (true, s)
    | '+' :: s => (false, s)
    | s => (false, s)
  match spacedDigits? Text.isDecimal body with
  | some digits =>
    if maxDigits < digits.length then none
    else some (if negative then -(value digits : Int) else value digits)
  | none => none

end Tender.Integer
