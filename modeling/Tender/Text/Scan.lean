/-
Finding items in a text, left to right and without overlap.

`atoms find s` reads `s` as a list of plain characters and items.  At each place `find` sees the
character before it and the rest of the text, and answers the item that starts there with the
number of further characters that belong to it.

Main statement: `atomsFrom_eq`, the list read so far is only put in front.
-/
import Tender.Text.Basic

namespace Tender.Text

/-- What a reading of a text finds at one place: a plain character or an item. -/
inductive Atom (α : Type) where
  | char (c : Char)
  | item (a : α)
  deriving Repr, DecidableEq

/-- Reads on after the atoms `done` (reversed); `skip` more characters belong to the last. -/
def atomsFrom {α : Type} (find : Option Char → Text → Option (α × Nat)) :
    (done : List (Atom α)) → (before : Option Char) → (skip : Nat) → Text → List (Atom α)
  | done, _, _, [] => done.reverse
  | done, _, skip + 1, c :: s => atomsFrom find done (some c) skip s
  | done, before, 0, c :: s => match find before (c :: s) with
    | some (a, n) => atomsFrom find (.item a :: done) (some c) n s
    | none => atomsFrom find (.char c :: done) (some c) 0 s

/-- The characters and items of a text. -/
def atoms {α : Type} (find : Option Char → Text → Option (α × Nat)) (s : Text) : List (Atom α) :=
  atomsFrom find [] none 0 s

theorem atomsFrom_eq {α : Type} (find : Option Char → Text → Option (α × Nat))
    (done : List (Atom α)) (before : Option Char) (skip : Nat) (s : Text) :
    atomsFrom find done before skip s = done.reverse ++ atomsFrom find [] before skip s := by
  induction s generalizing done before skip with
  | nil => simp [atomsFrom]
  | cons c s ih =>
    cases skip with
    | succ skip => simp only [atomsFrom]; exact ih ..
    | zero =>
      simp only [atomsFrom]
      split
      · rw [ih (.item _ :: done), ih [.item _]]; simp
      · rw [ih (.char _ :: done), ih [.char _]]; simp

/-- The text with every item replaced by the text that `f` gives for it. -/
def Atom.fill {α : Type} (f : α → Text) : List (Atom α) → Text :=
  List.flatMap fun
    | .char c => [c]
    | .item a => f a

/-- A find that knows its items by fixed spellings, the first spelling that fits. -/
def spelled {α : Type} (spelling : α → Text) (items : List α) (_ : Option Char) (s : Text) :
    Option (α × Nat) :=
  items.findSome? fun a =>
    if startsWith (spelling a) s then some (a, (spelling a).length - 1) else none

end Tender.Text
