/-
The words of a command line.

A word with a dash in front can name a switch: by its full name, by the start of a long name that
no other switch shares, or by a short name with something attached to it.  All other words stand for
themselves.

Main statements: `read_name`, a full name is read as its switch, and `read_plain`, a word without a
dash stands for itself.
-/
import Tender.Text.Digit
import Tender.Text.Scan

namespace Tender.CommandLine

/-- Switches by their names. -/
abbrev Switches (σ : Type) := List (Text × σ)

/-- What is attached to the name of a switch. -/
structure Attached where
  /-- Whether an equals sign stands between. -/
  equals : Bool
  text : Text

/-- How a word is read. -/
inductive Word (σ : Type) where
  | plain
  | switch (name : Text) (switch : σ) (attached : Option Attached)
  /-- A name that no switch has. -/
  | unknown
  /-- The start of the names of several switches. -/
  | ambiguous

/-- The part of a word before an equals sign, and what is attached behind one. -/
def cutEquals (w : Text) : Text × Option Attached :=
  match Text.cut ['='] w with
  | some (name, text) => (name, some ⟨true, text⟩)
  | none => (w, none)

variable {σ : Type}

/-- The switches that a word can name without spelling a full name. -/
def guesses (switches : Switches σ) (w : Text) : List (Word σ) :=
  match w with
  | '-' :: '-' :: _ =>
    let (start, attached) := cutEquals w
    (switches.filter fun (name, _) => Text.startsWith start name).map fun (name, s) =>
      .switch name s attached
  | _ =>
    (switches.filter fun (name, _) => name = w.take 2).map fun (name, s) =>
      .switch name s (some ⟨false, w.drop 2⟩)

/-- Whether a text is digits with at most one point, and a digit at its end. -/
def isUnsigned (s : Text) : Bool :=
  let s := match s.reverse with
    | '\n' :: before => before.reverse
    | _ => s
  match s.dropWhile Text.isDecimal with
  | [] => s ≠ []
  | '.' :: places => places ≠ [] && places.all Text.isDecimal
  | _ => false

/-- Reads a word. -/
def Word.read (switches : Switches σ) (w : Text) : Word σ :=
  if w.head? ≠ some '-' then .plain
  else match switches.lookup w with
    | some s => .switch w s none
    | none =>
      if w.length = 1 then .plain
      else
        let (name, attached) := cutEquals w
        match attached, switches.lookup name with
        | some a, some s => .switch name s (some a)
        | _, _ => match guesses switches w with
          | [guess] => guess
          | [] => if isUnsigned (w.drop 1) || ' ' ∈ w then .plain else .unknown
          | _ => .ambiguous

/-- Whether a word is read as one that stands for itself. -/
def Word.isPlain : Word σ → Bool
  | .plain => true
  | _ => false

/-- Whether a word is the start of several names. -/
def Word.isAmbiguous : Word σ → Bool
  | .ambiguous => true
  | _ => false

theorem read_plain (switches : Switches σ) {w : Text} (h : w.head? ≠ some '-') :
    Word.read switches w = .plain := by
  simp [Word.read, h]

theorem read_name {switches : Switches σ} {w : Text} {s : σ} (h : w.head? = some '-')
    (hs : switches.lookup w = some s) : Word.read switches w = .switch w s none := by
  simp [Word.read, h, hs]

end Tender.CommandLine
