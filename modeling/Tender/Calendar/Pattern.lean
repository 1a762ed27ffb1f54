/-
Writing a day or a moment by a pattern of `%` directives.

A directive is `%`, flags (`_`, `-`, `0` choose the padding, `^` and `#` the letter case), a
width, a modifier (`E` or `O`) and a letter.  A directive that means nothing stands for itself.

Main statements: `length_readDirective_le`, reading a directive never adds to the pattern, and
`pieces_plain`, a pattern without `%` is text.
-/
import Tender.Calendar.Moment
import Tender.Text.Half

namespace Tender.Pattern

/-- What a pattern can show: a day and a time of day, and for moments more than that. -/
structure Occasion where
  date : Date
  hour : Nat
  minute : Nat
  second : Nat
  /-- The digits of `%f`. -/
  micro : Nat
  offset : Option Offset

/-- A day shows as its midnight. -/
def Occasion.ofDate (d : Date) : Occasion :=
  ⟨d, 0, 0, 0, 0, none⟩

/-- A moment shows as it is. -/
def Occasion.ofMoment (m : Moment) : Occasion :=
  ⟨m.date, m.hour.val, m.minute.val, m.second.val, m.micro.val, m.offset⟩

/-- A directive as it is written. -/
structure Directive where
  /-- The last of the padding flags. -/
  pad : Option Char
  upper : Bool
  swap : Bool
  width : Nat
  modifier : Option Char
  letter : Option Char
  /-- The directive itself, from its `%` on. -/
  spelled : Text

/-- A pattern is plain characters and directives. -/
inductive Piece where
  | plain (c : Char)
  | directive (d : Directive)

/-- A flag between `%` and the width. -/
def isFlag (c : Char) : Bool :=
  c == '_' || c == '-' || c == '0' || c == '^' || c == '#'

/-- A flag that chooses the padding. -/
def isPadFlag (c : Char) : Bool :=
  c == '_' || c == '-' || c == '0'

/-- The number that a row of digits spells. -/
def widthOf (digits : Text) : Nat :=
  digits.foldl (fun n c => n * 10 + (c.toNat - '0'.toNat)) 0

/-- Reads the modifier and the letter of a directive. -/
def readLetter : Text → Option Char × Option Char × Text
  | 'E' :: c :: s => (some 'E', some c, s)
  | 'O' :: c :: s => (some 'O', some c, s)
  | ['E'] => (some 'E', none, [])
  | ['O'] => (some 'O', none, [])
  | c :: s => (none, some c, s)
  | [] => (none, none, [])

theorem length_readLetter_le (s : Text) : (readLetter s).2.2.length ≤ s.length := by
  unfold readLetter
  split <;> simp only [List.length_cons, List.length_nil] <;> omega

/-- Reads a directive after its `%`. -/
def readDirective (s : Text) : Directive × Text :=
  let flags := s.takeWhile isFlag
  let afterFlags := s.dropWhile isFlag
  let digits := afterFlags.takeWhile Char.isDigit
  let (modifier, letter, rest) := readLetter (afterFlags.dropWhile Char.isDigit)
  (⟨(flags.filter isPadFlag).getLast?, flags.elem '^', flags.elem '#', widthOf digits, modifier,
    letter, '%' :: s.take (s.length - rest.length)⟩, rest)

theorem length_readDirective_le (s : Text) : (readDirective s).2.length ≤ s.length := by
  unfold readDirective
  refine Nat.le_trans (length_readLetter_le _) ?_
  exact Nat.le_trans (List.dropWhile_sublist _).length_le (List.dropWhile_sublist _).length_le

/-- The pieces of a pattern, after the pieces `done` (reversed). -/
def piecesFrom (done : List Piece) (s : Text) : List Piece :=
  match s with
  | [] => done.reverse
  | '%' :: s =>
    have := length_readDirective_le s
    piecesFrom (.directive (readDirective s).1 :: done) (readDirective s).2
  | c :: s => piecesFrom (.plain c :: done) s
termination_by s.length
decreasing_by all_goals simp_all only [List.length_cons]; omega

/-- The pieces of a pattern. -/
def pieces (s : Text) : List Piece :=
  piecesFrom [] s

/-- The names of the days of the week, Monday first. -/
def weekdays : List String :=
  ["Monday", "Tuesday", "Wednesday", "Thursday", "Friday", "Saturday", "Sunday"]

/-- The names of the months. -/
def months : List String :=
  ["January", "February", "March", "April", "May", "June", "July", "August", "September",
    "October", "November", "December"]

/-- The name at a place of a list, as text. -/
def nameAt (names : List String) (i : Nat) : Text :=
  (names.getD i "").toList

/-- The hour on a clock of twelve hours. -/
def hour12 (hour : Nat) : Nat :=
  if hour % 12 = 0 then 12 else hour % 12

/-- Day of the week with Sunday as zero. -/
def sundayFirst (d : Date) : Nat :=
  (d.weekday + 1) % 7

/-- What a letter asks for. -/
inductive Field where
  /-- A name, whose letter case the flags may change. -/
  | name (s : Text)
  /-- A half of the day. -/
  | half (s : Text)
  /-- A single character. -/
  | char (c : Char)
  /-- A number of at least `digits` digits, filled with spaces if `spaces`. -/
  | number (digits : Nat) (spaces : Bool) (value : Nat)
  /-- A pattern of its own. -/
  | whole (pattern : String)
  /-- The name of a zone that is not known: empty, padded unless the flags forbid it. -/
  | zone
  /-- Nothing at all, not even padding. -/
  | nothing

/-- What a letter with a modifier asks for; none if it means nothing. -/
def field? (o : Occasion) (modifier : Option Char) (letter : Char) : Option Field :=
  let d := o.date
  let plainOnly (f : Field) : Option Field := if modifier.isNone then some f else none
  let noE (f : Field) : Option Field := if modifier = some 'E' then none else some f
  let noO (f : Field) : Option Field := if modifier = some 'O' then none else some f
  let num (digits value : Nat) := Field.number digits false value
  let (weekYear, week) := d.isoWeek
  match letter with
  | '%' => plainOnly (.char '%')
  | 'a' => plainOnly (.name ((nameAt weekdays d.weekday).take 3))
  | 'A' => plainOnly (.name (nameAt weekdays d.weekday))
  | 'b' | 'h' => noE (.name ((nameAt months (d.month - 1)).take 3))
  | 'B' => noE (.name (nameAt months (d.month - 1)))
  | 'c' => noO (.whole "%a %b %e %H:%M:%S %Y")
  | 'C' => some (num 1 (d.year / 100))
  | 'x' => noO (.whole "%m/%d/%y")
  | 'D' => plainOnly (.whole "%m/%d/%y")
  | 'd' => noE (num 2 d.day)
  | 'e' => noE (.number 2 true d.day)
  | 'F' => plainOnly (.whole "%Y-%m-%d")
  | 'H' => noE (num 2 o.hour)
  | 'I' => noE (num 2 (hour12 o.hour))
  | 'k' => noE (.number 2 true o.hour)
  | 'l' => noE (.number 2 true (hour12 o.hour))
  | 'j' => noE (num 3 d.dayOfYear)
  | 'M' => noE (num 2 o.minute)
  | 'm' => noE (num 2 d.month)
  | 'n' => some (.char '\n')
  | 't' => some (.char '\t')
  | 'p' => some (.half (if o.hour < 12 then lit "AM" else lit "PM"))
  | 'P' => some (.half (if o.hour < 12 then lit "am" else lit "pm"))
  | 'R' => some (.whole "%H:%M")
  | 'r' => some (.whole "%I:%M:%S %p")
  | 'S' => noE (num 2 o.second)
  | 'X' => noO (.whole "%H:%M:%S")
  | 'T' => some (.whole "%H:%M:%S")
  | 'u' => some (num 1 (d.weekday + 1))
  | 'U' => noE (num 2 ((d.dayOfYear - 1 + 7 - sundayFirst d) / 7))
  | 'W' => noE (num 2 ((d.dayOfYear - 1 + 7 - d.weekday) / 7))
  | 'V' => noE (num 2 week)
  | 'g' => noE (num 2 (weekYear % 100))
  | 'G' => noE (num 1 weekYear)
  | 'w' => noE (num 1 (sundayFirst d))
  | 'Y' => noO (num 1 d.year)
  | 'y' => some (num 2 (d.year % 100))
  | 'Z' => some .zone
  | 'z' => some .nothing
  | _ => none

/-- A text filled to the width, with zeros if the flags say so. -/
def fill (d : Directive) (limit : Nat) (s : Text) : Text :=
  List.replicate (min d.width limit - s.length) (if d.pad = some '0' then '0' else ' ') ++ s

/-- A number filled to its digits or the width, whichever is more. -/
def fillNumber (d : Directive) (limit digits : Nat) (spaces : Bool) (value : Nat) : Text :=
  let s := Text.ofNat value
  let pad := if spaces && d.pad ≠ some '0' && d.pad ≠ some '-' then some '_' else d.pad
  if pad = some '-' then fill d limit s
  else
    List.replicate (max digits (min d.width limit) - s.length) (if pad = some '_' then ' ' else '0') ++ s

/-- Whether a directive asks for upper case even if it means nothing. -/
def Directive.raises (d : Directive) : Bool :=
  d.upper || (d.swap && (d.letter = some 'b' || d.letter = some 'h' || d.letter = some 'B'))

/-- A directive that means nothing, as it is spelled. -/
def unknown (d : Directive) (limit : Nat) : Text :=
  let s := if d.letter = some '%' then ['%'] else d.spelled
  fill d limit (if d.raises then s.map Char.toUpper else s)

/-- The pieces of a pattern as text; patterns inside it go `depth` deep. -/
def render (o : Occasion) (limit : Nat) : (depth : Nat) → List Piece → Text
  | depth, ps => ps.flatMap fun
    | .plain c => [c]
    | .directive d =>
      match d.letter.bind (field? o d.modifier) with
      | none => unknown d limit
      | some (.name s) => fill d limit (if d.upper || d.swap then s.map Char.toUpper else s)
      | some .zone => if d.pad = some '-' then [] else fill d limit []
      | some (.half s) =>
        fill d limit (if d.swap then s.map Char.toLower
          else if d.upper && d.letter = some 'p' then s.map Char.toUpper else s)
      | some (.char c) => fill d limit [c]
      | some (.number digits spaces value) => fillNumber d limit digits spaces value
      | some (.whole p) => match depth with
        | 0 => []
        | depth + 1 =>
          let s := render o limit depth (pieces p.toList)
          fill d limit (if d.upper then s.map Char.toUpper else s)
      | some .nothing => []

/-- The longest text that a pattern of a given length may give; a longer one comes out empty. -/
def room (length : Nat) : Nat :=
  ((List.range 40).map fun k => 1024 * Nat.pow 2 k).find? (256 * length ≤ ·) |>.getD 0

/-- The pattern with the directives that need more than the clock written out: `%z` and `%Z` for
the offset and `%f` for the microseconds.  The pattern ends at a NUL. -/
def expandFrom (o : Occasion) (done : Text) : Text → Text
  | [] => done.reverse
  | '%' :: c :: s =>
    if c = '\x00' then ('%' :: done).reverse
    else
      let piece := match c with
        | 'z' => o.offset.elim [] (·.toText [])
        | 'Z' => o.offset.elim [] Offset.name
        | 'f' => Text.padded 6 o.micro
        | c => ['%', c]
      expandFrom o (piece.reverse ++ done) s
  | c :: s => if c = '\x00' then done.reverse else expandFrom o (c :: done) s

/-- The occasion written by the pattern. -/
def write (pattern : Text) (o : Occasion) : Text :=
  let expanded := expandFrom o [] pattern
  let limit := room expanded.length
  let s := render o limit 1 (pieces expanded)
  if s.length < limit then s else []

theorem pieces_plain {s : Text} (h : '%' ∉ s) : pieces s = s.map Piece.plain := by
  suffices ∀ done, piecesFrom done s = done.reverse ++ s.map Piece.plain by
    simpa [pieces] using this []
  induction s with
  | nil => intro done; unfold piecesFrom; simp
  | cons c s ih =>
    intro done
    rw [List.mem_cons, not_or] at h
    unfold piecesFrom
    split
    · rename_i heq; simp at heq
    · rename_i heq
      simp only [List.cons.injEq] at heq
      exact absurd heq.1.symm h.1
    · rename_i heq
      simp only [List.cons.injEq] at heq
      obtain ⟨rfl, rfl⟩ := heq
      rw [ih h.2]; simp

end Tender.Pattern
