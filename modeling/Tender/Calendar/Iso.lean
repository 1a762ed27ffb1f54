/-
Reading moments from their standard text.

A text is read as its UTF-8 bytes.  The day is written `YYYY-MM-DD`, `YYYYMMDD`, `YYYY-Www-D` or
one of the shorter week forms; where it ends decides which character separates it from the time
of day, and that character may be any.  The time of day is `HH`, `HH:MM` or `HH:MM:SS`, with or
without the colons and with a fraction after a point or a comma; an offset from universal time,
or `Z`, may follow.
-/
import Tender.Calendar.Moment
import Tender.Text.Half

namespace Tender.Iso

/-- The bytes of a text; reading past the end gives zero. -/
structure Bytes where
  data : Array UInt8

/-- The byte at a place. -/
def Bytes.at (b : Bytes) (i : Nat) : Nat :=
  (b.data.getD i 0).toNat

/-- Whether the byte at a place is the character `c`. -/
def Bytes.is (b : Bytes) (i : Nat) (c : Char) : Bool :=
  b.at i == c.toNat

/-- Whether the byte at a place is a digit. -/
def Bytes.digitAt (b : Bytes) (i : Nat) : Bool :=
  0x30 ≤ b.at i && b.at i ≤ 0x39

/-- The value of `count` digits from a place on. -/
def Bytes.digits? (b : Bytes) (start count : Nat) : Option Nat :=
  (List.range count).foldl (fun acc k => acc.bind fun n =>
    if b.digitAt (start + k) then some (n * 10 + (b.at (start + k) - 0x30)) else none) (some 0)

/-- The first place from `i` on, at most `fuel` further, that holds no digit. -/
def Bytes.skipDigits (b : Bytes) : (fuel i : Nat) → Nat
  | 0, i => i
  | fuel + 1, i => if b.digitAt i then b.skipDigits fuel (i + 1) else i

/-- Where the day ends in a text of `len` bytes. -/
def separatorAt (b : Bytes) (len : Nat) : Option Nat :=
  if len = 7 then some 7
  else if b.is 4 '-' then
    if b.is 5 'W' then
      if len > 8 && b.is 8 '-' then
        if len = 9 then none
        else if len > 10 && b.digitAt 10 then some 8
        else some 10
      else some 8
    else some 10
  else if b.is 4 'W' then
    let stop := min (b.skipDigits len 7) len
    if stop < 9 then some stop
    else if stop % 2 = 0 then some 7
    else some 8
  else some 8

/-- Reads the day in the first `len` bytes. -/
def readDay? (b : Bytes) (len : Nat) : Option Date := do
  let year ← b.digits? 0 4
  let hyphens := b.is 4 '-'
  let start := if hyphens then 5 else 4
  if b.is start 'W' then
    let week ← b.digits? (start + 1) 2
    let next := start + 3
    if next < len then
      if hyphens && !b.is next '-' then none
      else
        let day ← b.digits? (if hyphens then next + 1 else next) 1
        Date.ofIsoWeek? year week day
    else Date.ofIsoWeek? year week 1
  else
    let month ← b.digits? start 2
    let next := start + 2
    if hyphens && !b.is next '-' then none
    else
      let dayStart := if hyphens then next + 1 else next
      let day ← b.digits? dayStart 2
      Date.of? year month day

/-- A time of day as read: its parts, and whether something follows it. -/
structure Clock where
  hour : Nat
  minute : Nat
  second : Nat
  micro : Nat
  more : Bool

/-- How the reading of a time of day goes on after two digits. -/
inductive Step where
  | done (more : Bool)
  | next (at_ : Nat)
  | fraction (at_ : Nat)

/-- Looks at the byte after two digits that end before `i`; `colons` says whether the parts are
separated by colons. -/
def stepAfter (b : Bytes) (stop i : Nat) (colons : Bool) : Option Step :=
  if stop ≤ i + 1 then some (.done (b.at i != 0))
  else if colons && b.is i ':' then some (.next (i + 1))
  else if b.is i '.' || b.is i ',' then some (.fraction (i + 1))
  else if !colons then some (.next i)
  else none

/-- Reads the fraction of a second from `i` on: six digits count, further ones are skipped. -/
def readFraction? (b : Bytes) (stop i : Nat) : Option (Nat × Bool) := do
  let count := min (stop - i) 6
  let value ← b.digits? i count
  let after := b.skipDigits (b.data.size + 1) (i + count)
  return (value * Nat.pow 10 (6 - count), b.at after != 0)

/-- Reads a time of day in the bytes from `start` to `stop`. -/
def readClock? (b : Bytes) (start stop : Nat) : Option Clock := do
  let hour ← b.digits? start 2
  let colons := b.is (start + 2) ':'
  match ← stepAfter b stop (start + 2) colons with
  | .done more => return ⟨hour, 0, 0, 0, more⟩
  | .fraction i =>
    let (micro, more) ← readFraction? b stop i
    return ⟨hour, 0, 0, micro, more⟩
  | .next i =>
    let minute ← b.digits? i 2
    match ← stepAfter b stop (i + 2) colons with
    | .done more => return ⟨hour, minute, 0, 0, more⟩
    | .fraction j =>
      let (micro, more) ← readFraction? b stop j
      return ⟨hour, minute, 0, micro, more⟩
    | .next j =>
      let second ← b.digits? j 2
      match ← stepAfter b stop (j + 2) colons with
      | .done more => return ⟨hour, minute, second, 0, more⟩
      | .fraction k | .next k =>
        let (micro, more) ← readFraction? b stop k
        return ⟨hour, minute, second, micro, more⟩

/-- The first place from `i` on, before `stop`, that starts an offset. -/
def offsetAt (b : Bytes) (stop : Nat) : (fuel i : Nat) → Nat
  | 0, i => i
  | fuel + 1, i =>
    if b.is i '+' || b.is i '-' || b.is i 'Z' then i
    else if i + 1 < stop then offsetAt b stop fuel (i + 1)
    else i + 1

/-- Reads the offset that starts at `i`. -/
def readOffset? (b : Bytes) (stop i : Nat) : Option Offset := do
  if b.is i 'Z' then
    if b.at (i + 1) == 0 then return Offset.universal else none
  else
    let clock ← readClock? b (i + 1) stop
    if clock.more then none
    else
      let seconds := clock.hour * 3600 + clock.minute * 60 + clock.second
      if seconds = 0 then return Offset.universal
      else
        let distance : Int := seconds * 1000000 + clock.micro
        let micros := if b.is i '-' then -distance else distance
        if h : -microsPerDay < micros ∧ micros < microsPerDay then return ⟨micros, h⟩ else none

/-- The place after the character that starts at `i`. -/
def afterChar (b : Bytes) (i : Nat) : Nat :=
  if b.at i < 0x80 then i + 1
  else if b.at i / 16 = 0xE then i + 3
  else if b.at i / 16 = 0xF then i + 4
  else i + 2

/-- Reads a moment from its standard text. -/
def readMoment? (s : Text) : Option Moment :=
  if s.length < 7 || s.any Text.isHalf then none
  else do
    let b : Bytes := ⟨(String.ofList s).toUTF8.data⟩
    let len := b.data.size
    let day ← separatorAt b len
    let date ← readDay? b day
    if day < len then
      let start := afterChar b day
      let zone := offsetAt b len len start
      let clock ← readClock? b start zone
      if zone = len then
        if clock.more then none
        else Moment.of? date clock.hour clock.minute clock.second clock.micro none
      else
        let offset ← readOffset? b len zone
        Moment.of? date clock.hour clock.minute clock.second clock.micro (some offset)
    else
      Moment.of? date 0 0 0 0 none

/-- Reads a day from `YYYY-MM-DD`, `YYYYMMDD` or a week form, with nothing after it. -/
def readDate? (s : Text) : Option Date :=
  if s.any Text.isHalf then none
  else
    let b : Bytes := ⟨(String.ofList s).toUTF8.data⟩
    let len := b.data.size
    if len = 7 ∨ len = 8 ∨ len = 10 then readDay? b len else none

end Tender.Iso
