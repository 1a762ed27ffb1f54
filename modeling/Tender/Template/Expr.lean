/-
Expressions: what stands inside a tag.
-/
import Tender.Value.Basic

namespace Tender

/-- A path to data. -/
inductive Path where
  /-- From the scope that is `ups` steps further out; `explicit` if the path names the scope itself
  (`this` or `.`). -/
  | scope (ups : Nat) (explicit : Bool) (segments : List Text)
  /-- From the whole context. -/
  | root (segments : List Text)
  /-- A variable of the enclosing loop. -/
  | loop (name : Text)
  deriving DecidableEq

/-- The name that a path consists of, if it is a single name without any steps. -/
def Path.simpleName? : Path → Option Text
  | .scope 0 false [name] => some name
  | _ => none

/-- An expression: a literal, a path or the call of a helper. -/
inductive Expr where
  | literal (v : Value)
  | path (p : Path)
  | call (name : Text) (options : List (Text × Expr)) (args : List Expr)

end Tender
