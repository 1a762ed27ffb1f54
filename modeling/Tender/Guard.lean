/-
The guard hides tokens from the compiler: each token of a page becomes a marker, which the compiler
takes for text, and the markers of the compiled page become tokens again.

A token is a name between exactly two braces on each side.

Main statement: `escape_eq_fill`.
-/
import Tender.Fault
import Tender.Text.Scan
import Tender.Token

namespace Tender

/-- A guard for the tokens of these names. -/
structure Guard where
  names : List Text

namespace Guard

/-- The names without repetitions, each where it first stands. -/
def distinct (names : List Text) : List Text :=
  names.foldl (fun acc n => if n ∈ acc then acc else acc ++ [n]) []

/-- A guard for names that can be token names. -/
def new (names : List Text) : Except Fault Guard :=
  match (distinct names).find? fun n => !Text.isName n with
  | some n => .error (.invalidToken n)
  | none => .ok ⟨distinct names⟩

/-- The guard for all tokens of the binding passes. -/
def standard : Guard := ⟨Token.names⟩

/-- Whether a name is guarded. -/
def isProtected (g : Guard) (name : Text) : Bool :=
  name ∈ g.names

/-- What a token of a name looks like. -/
def token (name : Text) : Text :=
  '{' :: '{' :: name ++ ['}', '}']

/-- What stands for a token while a page is compiled. -/
def marker (name : Text) : Text :=
  lit "\x7b~protected:" ++ name ++ ['~', '}']

/-- The names to look for; a guard without names looks for the empty one. -/
def sought (g : Guard) : List Text :=
  if g.names.isEmpty then [[]] else g.names

/-- The name of the token at the start of a text, unless a third brace stands before or after it. -/
def findToken (g : Guard) (before : Option Char) (s : Text) : Option (Text × Nat) :=
  if before = some '{' then none
  else g.sought.findSome? fun name =>
    match Text.after? (token name) s with
    | some ('}' :: _) => none
    | some _ => some (name, (token name).length - 1)
    | none => none

/-- The name of the marker at the start of a text. -/
def findMarker (g : Guard) : Option Char → Text → Option (Text × Nat) :=
  Text.spelled marker g.sought

/-- A page with every token hidden. -/
def escape (g : Guard) (source : Text) : Text :=
  Text.Atom.fill marker (Text.atoms g.findToken source)

/-- A page with every hidden token back in its place. -/
def restore (g : Guard) (html : Text) : Text :=
  Text.Atom.fill token (Text.atoms g.findMarker html)

theorem escape_eq_fill (g : Guard) (s : Text) :
    g.escape s = Text.Atom.fill marker (Text.atoms g.findToken s) := rfl

end Guard
end Tender
