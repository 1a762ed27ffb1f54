/-
Reading JSON.

Numbers with a point or an exponent are floats and all others integers, the words `NaN`, `Infinity`
and `-Infinity` are numbers too, and of equal keys the last counts.  A text may hold halves of wide
characters; two that belong together are read as their character.

Main statement: `position_append`, what is left of a text tells the place where it begins.
-/
import Tender.Value.Basic
import Tender.Html.Reference

namespace Tender.Json

/-- What is wrong with a text. -/
inductive Problem where
  /-- No JSON, with what is left from the place on where that shows. -/
  | noJson (rest : Text)
  /-- An integer with too many digits. -/
  | tooManyDigits (count : Nat)

/-- The place in a text where what is left begins. -/
def position (s rest : Text) : Nat :=
  s.length - rest.length

theorem position_append (before rest : Text) : position (before ++ rest) rest = before.length := by
  simp [position]

/-- A blank between the parts of JSON. -/
def isSpace (c : Char) : Bool :=
  c = ' ' || c = '\t' || c = '\n' || c = '\r'

/-- The text without the blanks at its start. -/
def skip (s : Text) : Text :=
  s.dropWhile isSpace

/-- The character that an escape of one letter stands for. -/
def escaped? : Char → Option Char
  | '"' => some '"'
  | '\\' => some '\\'
  | '/' => some '/'
  | 'b' => some '\x08'
  | 'f' => some '\x0c'
  | 'n' => some '\n'
  | 'r' => some '\r'
  | 't' => some '\t'
  | _ => none

/-- The number that four digits spell; a character has to follow them. -/
def fourDigits? : Text → Option (Nat × Text)
  | a :: b :: c :: d :: e :: s =>
    if [a, b, c, d].all Html.isHexDigit then some (Html.hexValue [a, b, c, d], e :: s) else none
  | _ => none

/-- The character of two halves. -/
def join (high low : Nat) : Char :=
  Char.ofNat (0x10000 + (high - 0xD800) * 0x400 + (low - 0xDC00))

/-- Whether the escape of a second half and one more character are at the start of a text. -/
def isSecondEscape : Text → Bool
  | '\\' :: 'u' :: _ :: _ :: _ :: _ :: _ :: _ => true
  | _ => false

/-- Reads the character of an escape by number after its `u`; the escape of a first half takes that
of a second half with it. -/
def readUnicode (s : Text) : Except Problem (Char × Text) :=
  match fourDigits? s with
  | none => .error (.noJson ('u' :: s))
  | some (code, rest) =>
    if 0xD800 ≤ code ∧ code < 0xDC00 ∧ isSecondEscape rest then
      let second := rest.drop 2
      match fourDigits? second with
      | none => .error (.noJson ('u' :: second))
      | some (low, afterLow) =>
        if 0xDC00 ≤ low ∧ low < 0xE000 then .ok (join code low, afterLow)
        else .ok (Text.half code, rest)
    else .ok (Text.ofCode code, rest)

theorem length_fourDigits? {s rest : Text} {n : Nat} (h : fourDigits? s = some (n, rest)) :
    rest.length < s.length := by
  unfold fourDigits? at h
  split at h
  · split at h
    · cases h
      simp only [List.length_cons]; omega
    · simp at h
  · simp at h

theorem length_readUnicode {s rest : Text} {c : Char} (h : readUnicode s = .ok (c, rest)) :
    rest.length < s.length := by
  unfold readUnicode at h
  split at h
  · simp at h
  · rename_i code r hr
    have h₁ := length_fourDigits? hr
    split at h
    · simp only at h
      split at h
      · simp at h
      · rename_i low t ht
        have h₂ := length_fourDigits? ht
        simp only [List.length_drop] at h₂
        split at h <;>
          (simp only [Except.ok.injEq, Prod.mk.injEq] at h; rw [← h.2]; omega)
    · simp only [Except.ok.injEq, Prod.mk.injEq] at h
      rw [← h.2]; omega

/-- Reads the character of an escape after its backslash; `start` is the text that the escape is in,
from its opening quote on. -/
def readEscape (start s : Text) : Except Problem (Char × Text) :=
  match s with
  | [] => .error (.noJson start)
  | x :: rest =>
    if x = 'u' then readUnicode rest
    else match escaped? x with
      | none => .error (.noJson ('\\' :: x :: rest))
      | some c => .ok (c, rest)

theorem length_readEscape {start s rest : Text} {c : Char}
    (h : readEscape start s = .ok (c, rest)) : rest.length < s.length := by
  unfold readEscape at h
  split at h
  · simp at h
  · rw [List.length_cons]
    split at h
    · have := length_readUnicode h
      omega
    · split at h
      · simp at h
      · cases h; omega

/-- Reads a text after the characters `done` (reversed) of it; `start` is the text from its opening
quote on. -/
def readText (start : Text) (done : Text) (s : Text) : Except Problem (Text × Text) :=
  match s with
  | [] => .error (.noJson start)
  | c :: s =>
    if c = '"' then .ok (done.reverse, s)
    else if c = '\\' then
      match _h : readEscape start s with
      | .error problem => .error problem
      | .ok (d, rest) => readText start (d :: done) rest
    else if c.toNat < 0x20 then .error (.noJson (c :: s))
    else readText start (c :: done) s
termination_by s.length
decreasing_by
  · have := length_readEscape _h
    simp only [List.length_cons]; omega
  · simp only [List.length_cons]; omega

/-- The digits of an exponent with its sign, and the rest. -/
def exponent? (s : Text) : Option (Int × Text) :=
  match s with
  | e :: s =>
    if e = 'e' ∨ e = 'E' then
      let (negative, body) := match s with
        | '-' :: s => (true, s)
        | '+' :: s => (false, s)
        | s => (false, s)
      let digits := body.takeWhile Char.isDigit
      if digits = [] then none
      else
        let n : Int := Decimal.digitsValue digits
        some (if negative then -n else n, body.dropWhile Char.isDigit)
    else none
  | [] => none

/-- The digits after a point, and the rest. -/
def fraction? (s : Text) : Option (Text × Text) :=
  match s with
  | '.' :: s =>
    let digits := s.takeWhile Char.isDigit
    if digits = [] then none else some (digits, s.dropWhile Char.isDigit)
  | _ => none

/-- Reads a number after its sign; `start` is the text from the sign on. -/
def readUnsigned (start : Text) (negative : Bool) (s : Text) : Except Problem (Value × Text) :=
  let whole := match s with
    | '0' :: _ => ['0']
    | s => s.takeWhile Char.isDigit
  if whole = [] then .error (.noJson start)
  else
    let rest := s.drop whole.length
    let (fraction, afterFraction) := (fraction? rest).getD ([], rest)
    match exponent? afterFraction with
    | some (e, rest) =>
      let digits := Decimal.digitsValue (whole ++ fraction)
      .ok (.float (Binary64.ofScientific negative digits (e - (fraction.length : Int))), rest)
    | none =>
      if fraction ≠ [] then
        let digits := Decimal.digitsValue (whole ++ fraction)
        .ok (.float (Binary64.ofScientific negative digits (-(fraction.length : Int))),
          afterFraction)
      else if Integer.maxDigits < whole.length then .error (.tooManyDigits whole.length)
      else
        let n : Int := Decimal.digitsValue whole
        .ok (.int (if negative then -n else n), rest)

/-- The words that stand for values. -/
def words : List (Text × Value) :=
  [(lit "null", .null), (lit "true", .bool true), (lit "false", .bool false),
    (lit "NaN", .float .nan), (lit "Infinity", .float (.infinite false)),
    (lit "-Infinity", .float (.infinite true))]

/-- Reads a word or a number. -/
def readPlain (s : Text) : Except Problem (Value × Text) :=
  match words.findSome? fun (word, v) => (Text.after? word s).map fun rest => (v, rest) with
  | some found => .ok found
  | none => match s with
    | '-' :: rest => readUnsigned s true rest
    | s => readUnsigned s false s

mutual
/-- Reads a value; `fuel` bounds the values and items that are read. -/
def readValue : (fuel : Nat) → Text → Except Problem (Value × Text)
  | 0, s => .error (.noJson s)
  | fuel + 1, s => match s with
    | '"' :: rest => do
      let (t, rest) ← readText s [] rest
      return (.text t, rest)
    | '{' :: rest => match skip rest with
      | '}' :: rest => .ok (.map [], rest)
      | rest => readEntries fuel [] rest
    | '[' :: rest => match skip rest with
      | ']' :: rest => .ok (.list [], rest)
      | rest => readItems fuel [] rest
    | s => readPlain s

/-- Reads the items of a list after those read (reversed). -/
def readItems : (fuel : Nat) → List Value → Text → Except Problem (Value × Text)
  | 0, _, s => .error (.noJson s)
  | fuel + 1, done, s => do
    let (v, rest) ← readValue fuel s
    match skip rest with
    | ']' :: rest => return (.list (v :: done).reverse, rest)
    | ',' :: rest => readItems fuel (v :: done) (skip rest)
    | rest => .error (.noJson rest)

/-- Reads the entries of a map after those read. -/
def readEntries : (fuel : Nat) → Entries Value → Text → Except Problem (Value × Text)
  | 0, _, s => .error (.noJson s)
  | fuel + 1, done, s => match s with
    | '"' :: rest => do
      let (key, rest) ← readText s [] rest
      match skip rest with
      | ':' :: rest => do
        let (v, rest) ← readValue fuel (skip rest)
        match skip rest with
        | '}' :: rest => return (.map (Entries.put key v done), rest)
        | ',' :: rest => readEntries fuel (Entries.put key v done) (skip rest)
        | rest => .error (.noJson rest)
      | rest => .error (.noJson rest)
    | s => .error (.noJson s)
end

/-- The value that a text spells. -/
def read (s : Text) : Except Problem Value := do
  let (v, rest) ← readValue (s.length + 1) (skip s)
  match skip rest with
  | [] => return v
  | rest => .error (.noJson rest)

end Tender.Json
