/-
Amounts of money.

A number is read out of a text by dropping all characters but digits, points and hyphens and taking
the longest numeral at the start of the rest.  An amount is written with a sign, the currency
symbol, groups of three digits and two places; half a cent rounds away from zero.

Main statements: `parse_error_iff`, which values are refused; `grouped_small`, up to three digits
are one group; and `roundCents_whole`, no cent is lost or won on a whole amount.
-/
import Tender.Helper.Basic

namespace Tender.Amount

/-- A character that can be part of a numeral. -/
def isNumeric (c : Char) : Bool :=
  c.isDigit || c == '.' || c == '-'

/-- A numeral as it is read: its sign and its digits before and after the point. -/
structure Reading where
  negative : Bool
  whole : Text
  fraction : Text

/-- The longest unsigned numeral at the start of a text. -/
def readUnsigned? (negative : Bool) (s : Text) : Option Reading :=
  let whole := s.takeWhile Char.isDigit
  let fraction := match s.dropWhile Char.isDigit with
    | '.' :: rest => rest.takeWhile Char.isDigit
    | _ => []
  if whole = [] ∧ fraction = [] then none else some ⟨negative, whole, fraction⟩

/-- The longest numeral at the start of a text. -/
def readNumeral? : Text → Option Reading
  | '-' :: s => readUnsigned? true s
  | s => readUnsigned? false s

/-- The number nearest to a numeral. -/
def Reading.toBinary64 (r : Reading) : Binary64 :=
  Binary64.ofScientific r.negative (Decimal.digitsValue (r.whole ++ r.fraction))
    (-(r.fraction.length : Int))

/-- The number that a text spells once the characters that are not numeric are dropped. -/
def parseText (s : Text) : Option Binary64 :=
  (readNumeral? (s.filter isNumeric)).map Reading.toBinary64

/-- The number that a value is or spells. -/
def parse : Value → Except Fault (Option Binary64)
  | .int n => match Binary64.ofInt? n with
    | some x => .ok (some x)
    | none => .error .tooLarge
  | .float x => .ok (if x = .nan then none else some x)
  | .decimal d => match d.toBinary64? with
    | some x => .ok (if x = .nan then none else some x)
    | none => .error .signallingNaN
  | .text s => .ok (parseText s)
  | _ => .ok none

/-- An integer beyond the range of floats is refused, and so is a decimal number that signals. -/
theorem parse_error_iff {v : Value} {f : Fault} : parse v = .error f ↔
    (∃ n, v = .int n ∧ Binary64.ofInt? n = none ∧ f = .tooLarge) ∨
      ∃ d, v = .decimal d ∧ d.toBinary64? = none ∧ f = .signallingNaN := by
  fun_cases parse v with
  | case1 n x h => simp [h]
  | case2 n h => simp [h, eq_comm]
  | case3 x => simp
  | case4 d x h => simp [h]
  | case5 d h => simp [h, eq_comm]
  | case6 s => simp
  | case7 v hint _ hdecimal _ =>
    constructor
    · nofun
    · rintro (⟨n, hn, -⟩ | ⟨d, hd, -⟩)
      · exact (hint n hn).elim
      · exact (hdecimal d hd).elim

/-- A natural number in groups of three digits with commas between. -/
def grouped (n : Nat) : Text :=
  if n < 1000 then Text.ofNat n
  else grouped (n / 1000) ++ ',' :: Text.padded 3 (n % 1000)
termination_by n

theorem grouped_small {n : Nat} (h : n < 1000) : grouped n = Text.ofNat n := by
  rw [grouped, if_pos h]

/-- The number of cents nearest to `digits * 10 ^ exponent`, half a cent counting as a whole. -/
def roundCents (digits : Nat) (exponent : Int) : Nat :=
  match exponent + 2 with
  | .ofNat e => digits * Nat.pow 10 e
  | .negSucc e => (2 * digits + Nat.pow 10 (e + 1)) / (2 * Nat.pow 10 (e + 1))

theorem roundCents_whole (digits e : Nat) :
    roundCents digits (e : Int) = digits * Nat.pow 10 (e + 2) := rfl

/-- The least number of cents that is too long to be written. -/
def centsLimit : Nat := Nat.pow 10 28

/-- An amount of cents with its sign and the currency symbol. -/
def write (symbol : Text) (negative : Bool) (cents : Nat) : Text :=
  (if negative && cents ≠ 0 then ['-'] else []) ++ symbol ++ grouped (cents / 100) ++
    '.' :: Text.padded 2 (cents % 100)

/-- A finite number as an amount. -/
def writeNumber (symbol : Text) (negative : Bool) (rank : Nat) : Except Fault Text :=
  let n := Binary64.shortest rank
  let cents := roundCents n.digits n.exponent
  if cents < centsLimit then .ok (write symbol negative cents) else .error .invalidOperation

/-- A value as an amount.  What is no finite number stays as it is, and null becomes empty. -/
def format (value : Outcome) (symbol : Text) : Except Fault Outcome :=
  match value.toValue with
  | .null => .ok (.value (.text []))
  | v => do
    match ← parse v with
    | some (.finite negative rank) => return .value (.text (← writeNumber symbol negative rank))
    | _ => return value

/-- The parameters of the amount helper. -/
def signature : Signature :=
  ⟨lit "format_currency", [lit "value"], [lit "symbol"]⟩

/-- The helper that writes amounts. -/
def helper : Helper := fun args => do
  match ← signature.bind args with
  | [some value, symbol] => format value (symbol.elim ['$'] Outcome.toText)
  | _ => return .value .null

/-- The helper with a currency symbol of its own. -/
def helperWith (symbol : Text) : Helper :=
  Helper.preset [(lit "symbol", .value (.text symbol))] helper

end Tender.Amount
