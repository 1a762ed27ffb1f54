/-
What can go wrong, as causes.  `Fault.message` gives each cause its wording.

Main statement: `Fault.message_raised`, a helper's own failure is reported in its own words.
-/
import Tender.Text.Quoted
import Tender.Text.Utf8
import Tender.Value.Basic

namespace Tender

/-- What is wrong with one field of a record. -/
inductive Complaint.Kind where
  | missing
  | listType
  | mapType
  | recordType
  | recordShape
  | textType
  | intType
  | intText
  | intFraction
  | intInfinite
  | intTooLong
  | floatType
  | boolType
  | boolText
  | pathType
  | badValue
  | badJson
  deriving DecidableEq

/-- The name that answers give to a kind of complaint. -/
def Complaint.Kind.name : Complaint.Kind → Text
  | .missing => lit "missing"
  | .listType => lit "list_type"
  | .mapType => lit "dict_type"
  | .recordType => lit "model_type"
  | .recordShape => lit "model_attributes_type"
  | .textType => lit "string_type"
  | .intType => lit "int_type"
  | .intText => lit "int_parsing"
  | .intFraction => lit "int_from_float"
  | .intInfinite => lit "finite_number"
  | .intTooLong => lit "int_parsing_size"
  | .floatType => lit "float_type"
  | .boolType => lit "bool_type"
  | .boolText => lit "bool_parsing"
  | .pathType => lit "path_type"
  | .badValue => lit "value_error"
  | .badJson => lit "json_invalid"

/-- A complaint: where in the record, what, and about which value. -/
structure Complaint where
  place : List Text
  kind : Complaint.Kind
  found : Value

/-- The place of a complaint, its steps with points between. -/
def Complaint.where_ (c : Complaint) : Text :=
  Text.joinWith ['.'] c.place

/-- A complaint as text. -/
def Complaint.toText (c : Complaint) : Text :=
  c.where_ ++ lit ": " ++ c.kind.name

/-- The same complaint seen from one level further out. -/
def Complaint.under (step : Text) (c : Complaint) : Complaint :=
  { c with place := step :: c.place }

/-- Arguments that do not fit a helper. -/
inductive CallFault where
  /-- Two values for one parameter. -/
  | repeated (parameter : Text)
  /-- An option that no parameter takes. -/
  | unexpected (option : Text)
  /-- More positional arguments than parameters; `least` of them are required. -/
  | tooMany (least most given : Nat)
  /-- Required parameters without a value. -/
  | missing (parameters : List Text)

/-- Names in quotes, the last after an `and`. -/
def CallFault.listNames (names : List Text) : Text :=
  match names.map fun n => '\'' :: (n ++ ['\'']) with
  | [] => []
  | [a] => a
  | [a, b] => a ++ lit " and " ++ b
  | quoted => Text.joinWith (lit ", ") (quoted.take (quoted.length - 1)) ++ lit ", and " ++
      quoted.getLastD []

/-- The wording of a call that does not fit. -/
def CallFault.message : CallFault → Text
  | .repeated p => lit "got multiple values for argument '" ++ p ++ ['\'']
  | .unexpected o => lit "got an unexpected keyword argument '" ++ o ++ ['\'']
  | .tooMany least most given =>
    let range := if least = most then Text.ofNat most
      else lit "from " ++ Text.ofNat least ++ lit " to " ++ Text.ofNat most
    let plural := if least = most ∧ most = 1 then [] else ['s']
    lit "takes " ++ range ++ lit " positional argument" ++ plural ++ lit " but " ++
      Text.ofNat given ++ (if given = 1 then lit " was given" else lit " were given")
  | .missing ps =>
    lit "missing " ++ Text.ofNat ps.length ++ lit " required positional argument" ++
      (if ps.length = 1 then [] else ['s']) ++ lit ": " ++ listNames ps

/-- What is wrong with a page-break marker. -/
inductive MarkerProblem where
  | badEscape (spelled : Text)
  | escapeAtEnd
  | octalTooLarge (spelled : Text)
  | groupMissing (number : Int)
  | nameMissing
  | nameUnclosed
  | openExpected
  | badName (name : Text)

/-- The wording of what is wrong with a marker. -/
def MarkerProblem.message : MarkerProblem → Text
  | .badEscape s => lit "bad escape " ++ s
  | .escapeAtEnd => lit "bad escape (end of pattern)"
  | .octalTooLarge s => lit "octal escape value " ++ s ++ lit " outside of range 0-0o377"
  | .groupMissing n => lit "invalid group reference " ++ Text.ofInt n
  | .nameMissing => lit "missing group name"
  | .nameUnclosed => lit "missing >, unterminated name"
  | .openExpected => lit "missing <"
  | .badName n => lit "bad character in group name " ++ Text.quoted n

/-- A page-break marker that cannot stand in for a page break, with the place of what is wrong. -/
structure MarkerFault where
  marker : Text
  problem : MarkerProblem
  position : Nat

/-- The line of the place and its column there, both counted from one. -/
def MarkerFault.lineAndColumn (f : MarkerFault) : Nat × Nat :=
  let before := f.marker.take f.position
  (before.count '\n' + 1, (before.reverse.takeWhile (· != '\n')).length + 1)

/-- The wording of a marker that cannot be used; lines are counted if there is more than one. -/
def MarkerFault.message (f : MarkerFault) : Text :=
  let (line, column) := f.lineAndColumn
  f.problem.message ++ lit " at position " ++ Text.ofNat f.position ++
    (if '\n' ∈ f.marker then
      lit " (line " ++ Text.ofNat line ++ lit ", column " ++ Text.ofNat column ++ [')']
    else [])

/-- Why a page cannot be read at all. -/
inductive Unreadable where
  /-- A marked section without a name; the page from there on. -/
  | noSectionName (page : Text)
  /-- A marked section of an unknown kind. -/
  | unknownSection (name : Text)

/-- The wording of a page that cannot be read. -/
def Unreadable.message : Unreadable → Text
  | .noSectionName page => lit "expected name token at " ++ Text.quoted (page.take 20)
  | .unknownSection name =>
    lit "unknown status keyword " ++ Text.quoted name ++ lit " in marked section"

/-- Why an operation failed. -/
inductive Fault where
  /-- Digits that spell no integer. -/
  | notInteger (s : Text)
  /-- More digits than an integer may have. -/
  | tooManyDigits (count : Nat)
  /-- An integer of more digits than can be written. -/
  | tooLongToWrite
  /-- A decimal number that must not be computed with. -/
  | signallingNaN
  /-- Decimal arithmetic without a result. -/
  | invalidOperation
  /-- An integer beyond all floats. -/
  | tooLarge
  /-- A date pattern that is no text. -/
  | patternKind (kind : Text)
  /-- Halves of wide characters where bytes are needed. -/
  | unencodable (position : Nat) (run : Text)
  /-- Bytes of a file that spell no character. -/
  | undecodable (problem : Utf8.Problem)
  /-- A data path with no name in it. -/
  | emptyDataPath
  /-- Arguments that do not fit the helper of this name. -/
  | call (helper : Text) (fault : CallFault)
  /-- A helper's own failure. -/
  | raised (message : Text)
  | protectedHelper (name : Text)
  | invalidHelper (name : Text)
  | invalidToken (name : Text)
  | unknownMode (name : Text)
  | unknownState (name : Text)
  | invalidStep (source target : Text)
  | alreadyRun
  | notRun
  | unknownEngine (name : Text)
  | emptySeparator
  | marker (fault : MarkerFault)
  /-- A group name in a marker that no pattern has. -/
  | unknownGroup (name : Text)
  | unknownLevel (name : Text)
  /-- A table of formats where a level is needed. -/
  | levelNotNumber
  /-- A page that cannot be read at all. -/
  | unreadable (reason : Unreadable)
  /-- A record with fields that cannot be read. -/
  | invalid (complaints : List Complaint)
  /-- A value without items where a map is built. -/
  | notIterable (kind : Text)
  /-- A value that cannot be a key. -/
  | unhashable (kind : Text)
  /-- An item that is no pair where a map is built. -/
  | notPair (index : Nat)
  /-- A value of the wrong kind where a map is needed. -/
  | noItems (kind : Text)
  /-- Nothing where the path of a file is needed. -/
  | noPath (action : Text)
  | noSuchFile (path : Text)
  | isDirectory (path : Text)
  | notDirectory (path : Text)

/-- The wording of a fault. -/
def Fault.message : Fault → Text
  | .notInteger s => lit "invalid literal for int() with base 10: " ++ (Text.quoted s).take 200
  | .tooManyDigits n => lit "Exceeds the limit (4300 digits) for integer string conversion: value has "
      ++ Text.ofNat n ++ lit " digits; use sys.set_int_max_str_digits() to increase the limit"
  | .tooLongToWrite => lit "Exceeds the limit (4300 digits) for integer string conversion; "
      ++ lit "use sys.set_int_max_str_digits() to increase the limit"
  | .signallingNaN => lit "cannot convert signaling NaN to float"
  | .invalidOperation => lit "[<class 'decimal.InvalidOperation'>]"
  | .tooLarge => lit "int too large to convert to float"
  | .patternKind k => lit "strftime() argument 1 must be str, not " ++ k
  | .unencodable n run =>
    lit "'utf-8' codec can't encode " ++
      (if run.length = 1 then lit "character " ++ Text.quoted run ++ lit " in position " ++ Text.ofNat n
      else lit "characters in position " ++ Text.ofNat n ++ '-' ::
        Text.ofNat (n + run.length - 1)) ++
      lit ": surrogates not allowed"
  | .undecodable p => p.message
  | .emptyDataPath => lit "list index out of range"
  | .call helper f => helper ++ lit "() " ++ f.message
  | .raised m => m
  | .protectedHelper n => Text.quoted n ++ lit " is a protected token name and cannot be a helper"
  | .invalidHelper n => lit "Invalid helper name: " ++ Text.quoted n
  | .invalidToken n => lit "Invalid protected token name: " ++ Text.quoted n
  | .unknownMode n => Text.quoted n ++ lit " is not a valid RenderMode"
  | .unknownState n => Text.quoted n ++ lit " is not a valid RenderState"
  | .invalidStep a b => lit "Invalid render transition: " ++ a ++ lit " -> " ++ b
  | .alreadyRun => lit "DocumentRender has already run"
  | .notRun => lit "DocumentRender has not run"
  | .unknownEngine n => lit "Unknown compiler type: " ++ n ++ lit ". Valid options: 'handlebars'"
  | .emptySeparator => lit "empty separator"
  | .marker f => f.message
  | .unknownGroup n => lit "unknown group name " ++ Text.quoted n
  | .unknownLevel n => lit "Unknown level: " ++ Text.quoted n
  | .levelNotNumber => lit "Level not an integer or a valid string: \x7b'%': (<class 'logging.PercentStyle'>, '%(levelname)s:%(name)s:%(message)s'), '\x7b': (<class 'logging.StrFormatStyle'>, '\x7blevelname\x7d:\x7bname\x7d:\x7bmessage\x7d'), '$': (<class 'logging.StringTemplateStyle'>, '$\x7blevelname\x7d:$\x7bname\x7d:$\x7bmessage\x7d')\x7d"
  | .unreadable r => lit "The markup you provided was rejected by the parser. Trying a different parser or a different encoding may help.\n\nOriginal error(s) from parser:\n AssertionError: " ++ r.message
  | .invalid cs => Text.joinWith (lit "; ") (cs.map Complaint.toText)
  | .notIterable k => '\'' :: (k ++ lit "' object is not iterable")
  | .unhashable k =>
    -- the only decimal number that cannot be a key is one that signals
    if k = lit "decimal.Decimal" then lit "Cannot hash a signaling NaN value"
    else lit "unhashable type: '" ++ k ++ ['\'']
  | .notPair i => lit "cannot convert dictionary update sequence element #" ++ Text.ofNat i ++
      lit " to a sequence"
  | .noItems k => '\'' :: (k ++ lit "' object has no attribute 'items'")
  | .noPath action => lit "'list' object has no attribute '" ++ action ++ ['\'']
  | .noSuchFile path => lit "[Errno 2] No such file or directory: " ++ Text.quoted path
  | .isDirectory path => lit "[Errno 21] Is a directory: " ++ Text.quoted path
  | .notDirectory path => lit "[Errno 20] Not a directory: " ++ Text.quoted path

/-- Refuses a text that has no spelling in bytes. -/
def Fault.checkSpelling (s : Text) : Except Fault Unit :=
  match Text.halves? s with
  | some (position, run) => .error (.unencodable position run)
  | none => .ok ()

theorem Fault.message_raised (m : Text) : (Fault.raised m).message = m := by
  rw [Fault.message]

end Tender
