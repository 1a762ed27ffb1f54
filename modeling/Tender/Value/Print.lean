/-
The text of a value.

`toText` shows a value plainly and `listed` as it stands inside a list, where texts are quoted;
`display` is what a tag puts on the page.

Main statements: `display_text`, a text is shown as it is, and `display_list`, a list is shown as
its items with commas between.
-/
import Tender.Value.Basic
import Tender.Text.Quoted

namespace Tender.Value

/-- Items with a comma and a space between. -/
def commaList (parts : List Text) : Text :=
  Text.joinWith (lit ", ") parts

/-- A span of time by days, seconds and microseconds. -/
def spanText (micros : Int) : Text :=
  let days := micros / microsPerDay
  let inDay := micros % microsPerDay
  let part (name : String) (n : Int) : List Text :=
    if n = 0 then [] else [name.toList ++ '=' :: Text.ofInt n]
  let parts := part "days" days ++ part "seconds" (inDay / 1000000) ++
    part "microseconds" (inDay % 1000000)
  lit "datetime.timedelta(" ++ (if parts = [] then ['0'] else commaList parts) ++ [')']

/-- An offset as it stands in a list. -/
def listedOffset (o : Offset) : Text :=
  if o.micros = 0 then lit "datetime.timezone.utc"
  else lit "datetime.timezone(" ++ spanText o.micros ++ [')']

/-- A moment as it stands in a list. -/
def listedMoment (m : Moment) : Text :=
  let small := if m.micro.val ≠ 0 then [m.second.val, m.micro.val]
    else if m.second.val ≠ 0 then [m.second.val] else []
  let numbers := [m.date.year, m.date.month, m.date.day, m.hour.val, m.minute.val] ++ small
  lit "datetime.datetime(" ++ commaList (numbers.map Text.ofNat ++ (match m.offset with
    | some o => [lit "tzinfo=" ++ listedOffset o]
    | none => [])) ++ [')']

mutual
/-- A value as it stands in a list. -/
def listed : Value → Text
  | .null => lit "None"
  | .bool true => lit "True"
  | .bool false => lit "False"
  | .int n => Text.ofInt n
  | .float x => x.toText
  | .decimal d => lit "Decimal('" ++ d.toText ++ lit "')"
  | .text s => Text.quoted s
  | .list xs => '[' :: commaList (listedItems xs) ++ [']']
  | .map es => '{' :: commaList (listedEntries es) ++ ['}']
  | .date d => lit "datetime.date(" ++
      commaList ([d.year, d.month, d.day].map Text.ofNat) ++ [')']
  | .moment m => listedMoment m

/-- The items of a list, each as it stands there. -/
def listedItems : List Value → List Text
  | [] => []
  | v :: vs => v.listed :: listedItems vs

/-- The entries of a map: a quoted key, a colon and the value. -/
def listedEntries : List (Text × Value) → List Text
  | [] => []
  | (k, v) :: es => (Text.quoted k ++ lit ": " ++ v.listed) :: listedEntries es
end

/-- A value as plain text. -/
def toText : Value → Text
  | .text s => s
  | .decimal d => d.toText
  | .date d => d.toText
  | .moment m => m.toText ' '
  | v => v.listed

/-- A float as text, a whole one without its fraction. -/
def floatText (x : Binary64) : Text :=
  match x.toInt? with
  | some n => Text.ofInt n
  | none => x.toText

mutual
/-- A value as a tag shows it. -/
def display : Value → Text
  | .bool true => lit "true"
  | .bool false => lit "false"
  | .float x => floatText x
  | .list xs => Text.joinWith [','] (displayItems xs)
  | .map _ => lit "[object Object]"
  | .date d => d.toText
  | .moment m => m.toIso
  | .null => lit "None"
  | .int n => Text.ofInt n
  | .decimal d => d.toText
  | .text s => s

/-- The items of a list as a tag shows them, nulls as nothing. -/
def displayItems : List Value → List Text
  | [] => []
  | v :: vs => (if v.isNull then [] else v.display) :: displayItems vs
end

theorem display_text (s : Text) : display (.text s) = s := by
  rw [display]

theorem display_list (xs : List Value) :
    display (.list xs) = Text.joinWith [','] (displayItems xs) := by
  rw [display]

end Tender.Value
