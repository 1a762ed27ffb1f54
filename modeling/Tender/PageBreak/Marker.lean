/-
Page-break markers: what is written in the place of a break.

A backslash in a marker starts an escape: a control character, a character by its octal code, or
the break itself (`\g<0>`).  Before what is no letter a backslash stands for itself.

Main statements: `read_of_plain`, a marker without a backslash stands for itself, and
`fill_literal`.
-/
import Tender.Number.Integer
import Tender.Text.Identifier

namespace Tender.Marker

/-- A character of a marker, or a backslash with the character after it. -/
inductive Symbol where
  | plain (c : Char)
  | escape (c : Char)
  deriving DecidableEq

/-- A symbol as it is written. -/
def Symbol.toText : Symbol → Text
  | .plain c => [c]
  | .escape c => ['\\', c]

/-- Symbols as they are written. -/
def spelled (symbols : List Symbol) : Text :=
  symbols.flatMap Symbol.toText

/-- The symbols of a marker, and whether a lone backslash is left at its end. -/
def symbols : Text → List Symbol × Bool
  | [] => ([], false)
  | ['\\'] => ([], true)
  | '\\' :: c :: s =>
    let (rest, broken) := symbols s
    (.escape c :: rest, broken)
  | c :: s =>
    let (rest, broken) := symbols s
    (.plain c :: rest, broken)

/-- What a marker writes: a character, or the break that it stands for. -/
inductive Part where
  | char (c : Char)
  | whole
  deriving DecidableEq

/-- The parts written for a break. -/
def fill (parts : List Part) (found : Text) : Text :=
  parts.flatMap fun
    | .char c => [c]
    | .whole => found

theorem fill_literal (s found : Text) : fill (s.map .char) found = s := by
  induction s with
  | nil => rfl
  | cons c s ih => simpa [fill] using ih

/-- The control characters that an escape can name. -/
def control? : Char → Option Char
  | 'a' => some '\x07'
  | 'b' => some '\x08'
  | 'f' => some '\x0c'
  | 'n' => some '\n'
  | 'r' => some '\r'
  | 't' => some '\t'
  | 'v' => some '\x0b'
  | '\\' => some '\\'
  | _ => none

/-- A digit of the octal system. -/
def isOctal (c : Char) : Bool :=
  '0' ≤ c && c ≤ '7'

/-- The value of octal digits. -/
def octalValue (digits : Text) : Nat :=
  digits.foldl (fun n c => n * 8 + (c.toNat - '0'.toNat)) 0

/-- The characters at the start of symbols that fulfil `p`, `limit` of them at most. -/
def leading (p : Char → Bool) : (limit : Nat) → List Symbol → Text
  | limit + 1, .plain c :: rest => if p c then c :: leading p limit rest else []
  | _, _ => []

/-- The digits of an escape that starts with a digit: up to three octal ones after a zero, three octal
ones, or else up to two decimal ones. -/
def digitRun (c : Char) (rest : List Symbol) : Text :=
  if c = '0' then c :: leading isOctal 2 rest
  else
    let three := c :: leading isOctal 2 rest
    if isOctal c && three.length = 3 then three else c :: leading Char.isDigit 1 rest

/-- The marker that is read, for the places of its faults. -/
structure Source where
  marker : Text
  /-- How many characters the symbols of the marker have. -/
  length : Nat
  /-- Whether a lone backslash follows the symbols. -/
  broken : Bool

namespace Source

/-- Fails at a place. -/
def fail {α : Type} (src : Source) (problem : MarkerProblem) (position : Nat) : Except Fault α :=
  .error (.marker ⟨src.marker, problem, position⟩)

/-- The place where the remaining symbols start. -/
def place (src : Source) (rest : List Symbol) : Nat :=
  src.length - (spelled rest).length

/-- Goes on with the remaining symbols unless a lone backslash is all that remains. -/
def next (src : Source) (rest : List Symbol) : Except Fault Unit :=
  if src.broken && rest.isEmpty then src.fail .escapeAtEnd src.length else .ok ()

/-- The part that a run of digits stands for; `rest` are the symbols after it. -/
def numbered (src : Source) (digits : Text) (rest : List Symbol) : Except Fault Part :=
  let position := src.place rest
  if digits.head? = some '0' then .ok (.char (Char.ofNat (octalValue digits)))
  else if digits.length = 3 then
    if 0o377 < octalValue digits then
      src.fail (.octalTooLarge ('\\' :: digits)) (position - (digits.length + 1))
    else .ok (.char (Char.ofNat (octalValue digits)))
  else src.fail (.groupMissing (Integer.value digits)) (position - digits.length)

/-- The part that a group name stands for; `rest` are the symbols after it. -/
def named (src : Source) (name : Text) (rest : List Symbol) : Except Fault Part :=
  let position := src.place rest
  if name = [] then src.fail .nameMissing (position - 1)
  else if Text.isIdentifier name then .error (.unknownGroup name)
  else
    let position := position - (name.length + 1)
    match Integer.ofText? name with
    | none => src.fail (.badName name) position
    | some n =>
      if n < 0 then src.fail (.badName name) position
      else if n = 0 then .ok .whole
      else src.fail (.groupMissing n) position

/-- The part that an escape of a character other than a digit or `g` stands for. -/
def lettered (src : Source) (c : Char) (rest : List Symbol) : Except Fault (List Part) :=
  match control? c with
  | some d => .ok [.char d]
  | none =>
    if c.isAlpha then src.fail (.badEscape ['\\', c]) (src.place rest - 2)
    else .ok [.char '\\', .char c]

/-- What `read` does with a group: the parts and the symbols after it. -/
def group (src : Source) (rest : List Symbol) : Except Fault (Part × List Symbol) :=
  match rest with
  | .plain '<' :: inner => do
    src.next inner
    let name := spelled (inner.takeWhile (· != .plain '>'))
    match inner.dropWhile (· != .plain '>') with
    | [] =>
      if src.broken then src.fail .escapeAtEnd src.length
      else if name = [] then src.fail .nameMissing src.length
      else src.fail .nameUnclosed (src.length - name.length)
    | _ :: after => do
      src.next after
      let part ← src.named name after
      return (part, after)
  | rest => src.fail .openExpected (src.place rest)

/-- Reads the parts of symbols; each round reads at least one symbol, and `fuel` bounds the rounds. -/
def read (src : Source) : (fuel : Nat) → List Symbol → Except Fault (List Part)
  | 0, _ => .ok []
  | _, [] => .ok []
  | fuel + 1, .plain c :: rest => do
    src.next rest
    return .char c :: (← read src fuel rest)
  | fuel + 1, .escape c :: rest => do
    src.next rest
    if c = 'g' then
      let (part, after) ← src.group rest
      return part :: (← read src fuel after)
    else if c.isDigit then
      let digits := digitRun c rest
      let after := rest.drop (digits.length - 1)
      src.next after
      let part ← src.numbered digits after
      return part :: (← read src fuel after)
    else
      let parts ← src.lettered c rest
      return parts ++ (← read src fuel rest)

end Source

/-- Reads a marker. -/
def read (marker : Text) : Except Fault (List Part) := do
  let (symbols, broken) := symbols marker
  let src : Source := ⟨marker, (spelled symbols).length, broken⟩
  src.next symbols
  src.read symbols.length symbols

theorem symbols_of_plain {s : Text} (h : '\\' ∉ s) : symbols s = (s.map .plain, false) := by
  induction s with
  | nil => rfl
  | cons c s ih =>
    have hc : c ≠ '\\' := fun e => h (e ▸ List.mem_cons_self ..)
    have ih := ih fun m => h (List.mem_cons_of_mem _ m)
    cases s with
    | nil => simp [symbols, hc]
    | cons d s => simp [symbols, hc, ih]

theorem read_plain (src : Source) (hb : src.broken = false) (s : Text) :
    src.read s.length (s.map .plain) = .ok (s.map .char) := by
  induction s with
  | nil => rfl
  | cons c s ih =>
    simp only [List.length_cons, List.map_cons, Source.read, Source.next, hb, Bool.false_and]
    rw [ih]; rfl

theorem read_of_plain {marker : Text} (h : '\\' ∉ marker) :
    read marker = .ok (marker.map .char) := by
  simp only [read, symbols_of_plain h]
  have := read_plain ⟨marker, (spelled (marker.map .plain)).length, false⟩ rfl marker
  simp only [Source.next, Bool.false_and, List.length_map]
  exact this

end Tender.Marker
