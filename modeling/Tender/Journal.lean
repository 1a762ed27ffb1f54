/-
The journal: messages with a level, written by handlers that each take the messages from a level up.

The console always writes; with a directory for journals there are two files before it, one for
everything from `INFO` up and one for errors.

Main statement: `lines_nil`, a handler has nothing to write before the first message.
-/
import Tender.Fault
import Tender.Text.Path

namespace Tender.Journal

/-- The rank of a message. -/
inductive Level where
  | debug
  | info
  | warning
  | error
  | critical
  deriving DecidableEq

namespace Level

/-- The number of a level. -/
def number : Level → Nat
  | .debug => 10
  | .info => 20
  | .warning => 30
  | .error => 40
  | .critical => 50

/-- The name of a level. -/
def name : Level → Text
  | .debug => lit "DEBUG"
  | .info => lit "INFO"
  | .warning => lit "WARNING"
  | .error => lit "ERROR"
  | .critical => lit "CRITICAL"

end Level

/-- The names that settings can give to levels. -/
def thresholds : List (Text × Nat) :=
  [(lit "NOTSET", 0), (lit "DEBUG", 10), (lit "INFO", 20), (lit "WARN", 30), (lit "WARNING", 30),
    (lit "ERROR", 40), (lit "FATAL", 50), (lit "CRITICAL", 50)]

/-- The number of the level with a name; an unknown name counts as `INFO`, but the names of formats
are refused. -/
def threshold (name : Text) : Except Fault Nat :=
  match thresholds.lookup name with
  | some n => .ok n
  | none =>
    if name = lit "BASIC_FORMAT" then
      .error (.unknownLevel (lit "%(levelname)s:%(name)s:%(message)s"))
    else if name = lit "_STYLES" then .error .levelNotNumber
    else .ok 20

/-- A message to the journal. -/
structure Message where
  level : Level
  /-- The name of the logger that wrote it. -/
  logger : Text
  text : Text

/-- A handler: the file that it writes to, or the console, and its level. -/
structure Handler where
  file : Option Text
  level : Nat

/-- A journal. -/
structure Setup where
  level : Nat
  handlers : List Handler

/-- Takes one step of a path after the steps `done` (reversed); a step upwards takes the last step
back. -/
def resolveFrom : (done : List Text) → List Text → List Text
  | done, [] => done.reverse
  | done, step :: rest =>
    if step = ['.', '.'] then match done with
      | [] => resolveFrom [step] rest
      | last :: before =>
        if last = ['.', '.'] then resolveFrom (step :: done) rest else resolveFrom before rest
    else if step = [] ∨ step = ['.'] then resolveFrom done rest
    else resolveFrom (step :: done) rest

/-- The path of a file in a directory, without steps that lead nowhere. -/
def filePath (directory name : Text) : Text :=
  let steps := resolveFrom [] (Text.steps directory)
  (if directory.head? = some '/' then ['/'] else []) ++ Text.joinWith ['/'] (steps ++ [name])

/-- The journal for a level and a directory. -/
def setup (level : Text) (directory : Option Text) : Except Fault Setup := do
  let n ← threshold level
  let files := match directory with
    | some d => [⟨some (filePath d (lit "info.log")), 20⟩, ⟨some (filePath d (lit "error.log")), 40⟩]
    | none => []
  return ⟨n, files ++ [⟨none, n⟩]⟩

/-- A name with blanks after it, at least eight characters long. -/
def paddedName (l : Level) : Text :=
  l.name ++ List.replicate (8 - l.name.length) ' '

/-- The line of a message; files name the logger too. -/
def Handler.line (h : Handler) (m : Message) : Text :=
  let separator := lit " | "
  match h.file with
  | some _ => paddedName m.level ++ separator ++ m.logger ++ separator ++ m.text
  | none => paddedName m.level ++ separator ++ m.text

/-- The lines of a handler for messages that pass the journal's own level. -/
def Setup.lines (j : Setup) (h : Handler) (messages : List Message) : List Text :=
  (messages.filter fun m => j.level ≤ m.level.number && h.level ≤ m.level.number).map h.line

theorem lines_nil (j : Setup) (h : Handler) : j.lines h [] = [] := rfl

end Tender.Journal
