/-
Paths of files: steps with slashes between.

Main statement: `normalPath_nil`, a path without steps leads to where one is.
-/
import Tender.Text.Basic

namespace Tender.Text

/-- The steps of a path, with an empty one for each slash too many. -/
def steps (s : Text) : List Text :=
  splitOn ['/'] (by decide) s

/-- A path with single slashes and without steps that stay where they are. -/
def normalPath (s : Text) : Text :=
  let start : Text := match s with
    | '/' :: '/' :: '/' :: _ => ['/']
    | '/' :: '/' :: _ => ['/', '/']
    | '/' :: _ => ['/']
    | _ => []
  let parts := (steps s).filter fun p => p ≠ [] ∧ p ≠ ['.']
  match start ++ joinWith ['/'] parts with
  | [] => ['.']
  | path => path

theorem normalPath_nil : normalPath [] = ['.'] := by
  decide +kernel

/-- The path of the directory that a path is in. -/
def parentPath (path : Text) : Text :=
  match (path.reverse.dropWhile (· != '/')).drop 1 with
  | [] => if path.head? = some '/' then ['/'] else ['.']
  | parent => parent.reverse

end Tender.Text
