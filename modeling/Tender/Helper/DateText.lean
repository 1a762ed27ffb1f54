/-
Dates as text.

A day or moment, its standard text, or a number of milliseconds since the start of 1970 is written
by a pattern; anything else stays as it is.

Main statement: `format_empty`, nothing is written for nothing.
-/
import Tender.Calendar.Iso
import Tender.Calendar.Pattern
import Tender.Helper.Basic
import Tender.Text.Blank

namespace Tender.DateText

/-- The occasion written by a pattern, which has to be a text that can be spelled in bytes. -/
def write (pattern : Outcome) (o : Pattern.Occasion) : Except Fault Text :=
  match pattern.toValue with
  | .text p => (Fault.checkSpelling p).map fun _ => Pattern.write p o
  | .null => .error (.patternKind (lit "None"))
  | v => .error (.patternKind v.kind)

/-- The moment that many seconds after the start of 1970; the fraction is rounded to the
microsecond after its product with a million has been rounded to a float. -/
def ofSeconds? : Binary64 → Option Moment
  | .finite negative rank =>
    let units := Binary64.units rank
    let whole := units / Binary64.unitsPerOne
    let micros := match Binary64.nearest false (units % Binary64.unitsPerOne * 1000000)
        Binary64.unitsPerOne with
      | .finite _ r => Binary64.roundDiv (Binary64.units r) Binary64.unitsPerOne
      | _ => 0
    let total : Int := whole * 1000000 + micros
    Moment.ofInstant? (if negative then -total else total)
  | _ => none

/-- The moment that many milliseconds after the start of 1970. -/
def ofMillis? : Value → Option Moment
  | .int n => ofSeconds? (Binary64.nearest (n < 0) n.natAbs 1000)
  | .float (.finite negative rank) =>
    ofSeconds? (Binary64.nearest negative (Binary64.units rank) (1000 * Binary64.unitsPerOne))
  | _ => none

/-- A moment that was read out of a value, written by a pattern; if the pattern cannot be spelled
the value stays as it is. -/
def writeRead (value : Outcome) (moment : Option Moment) (pattern : Outcome) :
    Except Fault Outcome :=
  match moment with
  | none => .ok value
  | some m => match write pattern (.ofMoment m) with
    | .ok s => .ok (.value (.text s))
    | .error (.unencodable _ _) => .ok value
    | .error f => .error f

/-- Whether an outcome is a text that can serve as a pattern: one with a directive. -/
def isPattern (o : Outcome) : Bool :=
  match o.toValue with
  | .text p => p.elem '%'
  | _ => false

/-- A value as a date, by `chosen` if that is a pattern and else by `standard`. -/
def format (value : Outcome) (chosen standard : Outcome) : Except Fault Outcome :=
  let pattern := if isPattern chosen then chosen else standard
  match value.toValue with
  | .null => .ok (.value (.text []))
  | .text [] => .ok (.value (.text []))
  | .date d => (write pattern (.ofDate d)).map fun s => .value (.text s)
  | .moment m => (write pattern (.ofMoment m)).map fun s => .value (.text s)
  | .int n => writeRead value (ofMillis? (.int n)) pattern
  | .float x => writeRead value (ofMillis? (.float x)) pattern
  | .text s => writeRead value (Iso.readMoment? (Text.trim s)) pattern
  | _ => .ok value

theorem format_empty (chosen standard : Outcome) :
    format (.value .null) chosen standard = .ok (.value (.text [])) := rfl

/-- The pattern used unless another is set: month, day and year. -/
def standardPattern : Text := lit "%m/%d/%Y"

/-- The parameters of the date helper. -/
def signature : Signature :=
  ⟨lit "format_date", [lit "value"], [lit "fmt", lit "default_format"]⟩

/-- The helper that writes dates. -/
def helper : Helper := fun args => do
  match ← signature.bind args with
  | [some value, chosen, standard] =>
    format value (chosen.getD (.value .null)) (standard.getD (.value (.text standardPattern)))
  | _ => return .value .null

/-- The helper with a standard pattern of its own. -/
def helperWith (pattern : Text) : Helper :=
  Helper.preset [(lit "default_format", .value (.text pattern))] helper

end Tender.DateText
