/-
Moments: a day, a time of day to the microsecond and, where it is known, the distance from
universal time.

Main statement: `ofInstant?_offset`, a moment made from an instant is in universal time.
-/
import Tender.Calendar.Date

namespace Tender

/-- How many microseconds a day has. -/
def microsPerDay : Int := 86400000000

/-- A distance from universal time in microseconds, less than a day either way. -/
structure Offset where
  micros : Int
  within : -microsPerDay < micros ∧ micros < microsPerDay
  deriving DecidableEq

/-- Universal time. -/
def Offset.universal : Offset := ⟨0, by decide⟩

/-- A day with a time of day, with or without an offset. -/
structure Moment where
  date : Date
  hour : Fin 24
  minute : Fin 60
  second : Fin 60
  micro : Fin 1000000
  offset : Option Offset
  deriving DecidableEq

namespace Offset

/-- The offset as sign, hours and minutes with `separator` between, and seconds and microseconds
where they are not zero. -/
def toText (separator : Text) (o : Offset) : Text :=
  let m := o.micros.natAbs
  let whole := m / 1000000
  let micro := m % 1000000
  let base := (if o.micros < 0 then '-' else '+') :: Text.padded 2 (whole / 3600) ++
    separator ++ Text.padded 2 (whole / 60 % 60)
  if micro ≠ 0 then
    base ++ separator ++ Text.padded 2 (whole % 60) ++ '.' :: Text.padded 6 micro
  else if whole % 60 ≠ 0 then base ++ separator ++ Text.padded 2 (whole % 60)
  else base

/-- The name of an offset: `UTC`, with the distance unless it is zero. -/
def name (o : Offset) : Text :=
  if o.micros = 0 then lit "UTC" else lit "UTC" ++ o.toText [':']

end Offset

namespace Moment

/-- The moment with these numbers, if there is one. -/
def of? (date : Date) (hour minute second micro : Nat) (offset : Option Offset) : Option Moment :=
  if hh : hour < 24 then
    if hm : minute < 60 then
      if hs : second < 60 then
        if hf : micro < 1000000 then
          some ⟨date, ⟨hour, hh⟩, ⟨minute, hm⟩, ⟨second, hs⟩, ⟨micro, hf⟩, offset⟩
        else none
      else none
    else none
  else none

/-- Microseconds since midnight. -/
def microOfDay (m : Moment) : Nat :=
  ((m.hour.val * 60 + m.minute.val) * 60 + m.second.val) * 1000000 + m.micro.val

/-- The moment on its own clock, in microseconds. -/
def clock (m : Moment) : Int :=
  (m.date.ordinal : Int) * microsPerDay + (m.microOfDay : Int)

/-- The moment in universal time, in microseconds; a moment without offset by its own clock. -/
def instant (m : Moment) : Int :=
  m.clock - (match m.offset with
    | some o => o.micros
    | none => 0)

/-- The moment in universal time that is `micros` microseconds after the start of 1970. -/
def ofInstant? (micros : Int) : Option Moment :=
  let day := micros / microsPerDay + 719163
  let inDay := (micros % microsPerDay).toNat
  (Date.ofOrdinal? day.toNat).bind fun date =>
    of? date (inDay / 3600000000) (inDay / 60000000 % 60) (inDay / 1000000 % 60)
      (inDay % 1000000) (some Offset.universal)

theorem of?_offset {date : Date} {h m s f : Nat} {o : Option Offset} {x : Moment}
    (hx : of? date h m s f o = some x) : x.offset = o := by
  unfold of? at hx
  repeat' split at hx
  · exact Option.some.inj hx ▸ rfl
  all_goals simp at hx

theorem ofInstant?_offset {micros : Int} {x : Moment} (h : ofInstant? micros = some x) :
    x.offset = some Offset.universal := by
  unfold ofInstant? at h
  obtain ⟨d, -, hd⟩ := Option.bind_eq_some_iff.1 h
  exact of?_offset hd

/-- The moment as text: day, `separator`, time of day, and the offset where there is one; the
microseconds only if they are not zero. -/
def toText (separator : Char) (m : Moment) : Text :=
  m.date.toText ++ separator :: Text.padded 2 m.hour.val ++ ':' :: Text.padded 2 m.minute.val ++
    ':' :: Text.padded 2 m.second.val ++
    (if m.micro.val = 0 then [] else '.' :: Text.padded 6 m.micro.val) ++
    (match m.offset with
      | some o => o.toText [':']
      | none => [])

/-- The standard text of a moment. -/
def toIso (m : Moment) : Text :=
  m.toText 'T'

/-- Whether two moments can be put in order: both have an offset or neither has one. -/
def comparable (a b : Moment) : Bool :=
  a.offset.isSome == b.offset.isSome

end Moment
end Tender
