/-
Settings files: one `name = value` on a line.

A value may stand between quotes, with escapes inside, and may refer to an earlier one as `${name}`
or `${name:-default}`.  A line that cannot be read is passed over.

Main statements: `read_nil`, an empty file says nothing, and `readName?_remark`, a remark has no name.
-/
import Tender.Text.Blank
import Tender.Value.Basic

namespace Tender.Dotenv

/-- The end of a line. -/
def isBreak (c : Char) : Bool :=
  c == '\n' || c == '\r'

/-- A blank inside a line. -/
def isGap (c : Char) : Bool :=
  Text.isBlank c && !isBreak c

/-- Without the gap at the start. -/
def dropGap (s : Text) : Text :=
  s.dropWhile isGap

/-- Without the end of a line at the start. -/
def dropBreak : Text → Text
  | '\r' :: '\n' :: s => s
  | c :: s => if isBreak c then s else c :: s
  | [] => []

/-- Without the rest of the line. -/
def dropLine (s : Text) : Text :=
  match s.dropWhile (!isBreak ·) with
  | _ :: rest => rest
  | [] => []

/-- Reads up to a closing quote that has no backslash before it, or else to the last one that has:
`last` is what was read and what is left there. -/
def readQuoted (quote : Char) : (seen : Text) → (last : Option (Text × Text)) → Text →
    Option (Text × Text)
  | _, last, [] => last
  | seen, last, c :: s =>
    if c = quote then some (seen.reverse, s)
    else if c = '\\' then
      match s with
      | [] => last
      | d :: s =>
        if d = quote then readQuoted quote (d :: c :: seen) (some ((c :: seen).reverse, s)) s
        else if d = '\\' then readQuoted quote (d :: c :: seen) last s
        else readQuoted quote (d :: c :: seen) last s
    else readQuoted quote (c :: seen) last s

/-- What an escape stands for. -/
def escape? (double : Bool) (c : Char) : Option Char :=
  if c = '\\' ∨ c = '\'' then some c
  else if !double then none
  else match c with
    | '"' => some '"'
    | 'a' => some '\x07'
    | 'b' => some '\x08'
    | 'f' => some '\x0c'
    | 'n' => some '\n'
    | 'r' => some '\r'
    | 't' => some '\t'
    | 'v' => some '\x0b'
    | _ => none

/-- A quoted value with its escapes resolved, after `done` (reversed). -/
def unescape (double : Bool) : (done s : Text) → Text
  | done, [] => done.reverse
  | done, '\\' :: c :: s => match escape? double c with
    | some d => unescape double (d :: done) s
    | none => unescape double ('\\' :: done) (c :: s)
  | done, c :: s => unescape double (c :: done) s

/-- A value without the remark after it: from the first number sign with a blank before it on. -/
def dropRemark : (done s : Text) → Text
  | done, [] => done.reverse
  | done, c :: s =>
    if c = '#' ∧ done.head?.any Text.isBlank then (done.dropWhile Text.isBlank).reverse
    else dropRemark (c :: done) s

/-- Reads a value. -/
def readValue? : Text → Option (Text × Text)
  | '\'' :: s => (readQuoted '\'' [] none s).map fun (v, rest) => (unescape false [] v, rest)
  | '"' :: s => (readQuoted '"' [] none s).map fun (v, rest) => (unescape true [] v, rest)
  | s => some (Text.trimEnd (dropRemark [] (s.takeWhile (!isBreak ·))), s.dropWhile (!isBreak ·))

/-- Reads a name: none for a remark. -/
def readName? : Text → Option (Option Text × Text)
  | '#' :: s => some (none, '#' :: s)
  | '\'' :: s => match s.takeWhile (· != '\''), s.dropWhile (· != '\'') with
    | c :: name, _ :: rest => some (some (c :: name), rest)
    | _, _ => none
  | s =>
    let isNameChar (c : Char) : Bool := !(c == '=' || c == '#' || Text.isBlank c)
    match s.takeWhile isNameChar with
    | [] => none
    | c :: name => some (some (c :: name), s.dropWhile isNameChar)

/-- Without the word `export` and a gap after it. -/
def dropExport (s : Text) : Text :=
  match Text.after? (lit "export") s with
  | some (c :: rest) => if isGap c then dropGap rest else s
  | _ => s

/-- Checks that nothing but a remark is left of the line. -/
def endLine? (s : Text) : Option Text :=
  match dropGap s with
  | [] => some []
  | '#' :: rest => some (dropBreak (rest.dropWhile (!isBreak ·)))
  | c :: rest => if isBreak c then some (dropBreak (c :: rest)) else none

/-- What a line says: a name and its value, if it has one; or where the reading failed. -/
def readBinding (s : Text) : Except Text (Option Text × Option Text × Text) :=
  match readName? (dropExport s) with
  | none => .error (dropExport s)
  | some (name, rest) =>
    match dropGap rest with
    | '=' :: rest => match readValue? (dropGap rest) with
      | none => .error (dropGap rest)
      | some (value, rest) => match endLine? rest with
        | some rest => .ok (name, some value, rest)
        | none => .error rest
    | rest => match endLine? rest with
      | some rest => .ok (name, none, rest)
      | none => .error rest

/-- The bindings of a file in order; each takes at least one character, so that many rounds as there
are characters are enough. -/
def readFile : (fuel : Nat) → (done : Entries (Option Text)) → Text → Entries (Option Text)
  | 0, done, _ => done
  | fuel + 1, done, s =>
    match Text.trimStart s with
    | [] => done
    | c :: s => match readBinding (c :: s) with
      | .ok (some name, value, rest) => readFile fuel (Entries.put name value done) rest
      | .ok (none, _, rest) => readFile fuel done rest
      | .error rest => readFile fuel done (dropLine rest)

/-- A value with the values it refers to in place, after `done` (reversed). -/
def expand (known : Entries Text) : (fuel : Nat) → (done s : Text) → Text
  | 0, done, s => done.reverse ++ s
  | _, done, [] => done.reverse
  | fuel + 1, done, '$' :: '\x7b' :: s =>
    let name := s.takeWhile fun c => c != '\x7d' && c != ':'
    match s.dropWhile fun c => c != '\x7d' && c != ':' with
    | '\x7d' :: rest =>
      expand known fuel (((Entries.get? name known).getD []).reverse ++ done) rest
    | ':' :: '-' :: rest =>
      match rest.dropWhile (· != '\x7d') with
      | _ :: after =>
        let value := (Entries.get? name known).getD (rest.takeWhile (· != '\x7d'))
        expand known fuel (value.reverse ++ done) after
      | [] => expand known fuel ('\x7b' :: '$' :: done) s
    | _ => expand known fuel ('\x7b' :: '$' :: done) s
  | fuel + 1, done, c :: s => expand known fuel (c :: done) s

/-- The names of a file with their values; a name without a value has none. -/
def read (s : Text) : Entries Text :=
  (readFile (s.length + 1) [] s).foldl (fun known (name, value) =>
    match value with
    | some v => Entries.put name (expand known (v.length + 1) [] v) known
    | none => known) []

theorem readName?_remark (s : Text) : readName? ('#' :: s) = some (none, '#' :: s) := by
  simp [readName?]

theorem read_nil : read [] = [] := rfl

end Tender.Dotenv
