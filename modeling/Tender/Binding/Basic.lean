/-
Binding: every token of a family is replaced by a control or by its value.

The tokens are numbered as they come, each by the counter of its kind, and the number and the kind
make the key of the value.

Main statements: `bind_counters`, the counters move on by the tokens of the text, and
`numberFrom_eq`.
-/
import Tender.Counters
import Tender.Fault
import Tender.Text.Markup
import Tender.Text.Scan
import Tender.Value.Basic

namespace Tender

/-- How a document is rendered: with controls that can be changed, or as a final text. -/
inductive Mode where
  | edit
  | view
  deriving DecidableEq

/-- The name of a mode. -/
def Mode.name : Mode → Text
  | .edit => lit "edit"
  | .view => lit "view"

/-- The mode with a name. -/
def Mode.ofName (s : Text) : Except Fault Mode :=
  match [Mode.edit, Mode.view].find? fun m => m.name = s with
  | some m => .ok m
  | none => .error (.unknownMode s)

/-- The mode for a flag that says whether to edit. -/
def Mode.ofFlag (edit : Bool) : Mode :=
  if edit then .edit else .view

namespace Binding

/-- What a token looks like in a text. -/
def spelling (t : Token) : Text :=
  '{' :: '{' :: t.name ++ ['}', '}']

/-- A text as plain characters and the tokens of a family. -/
def atoms (family : List Token) (html : Text) : List (Text.Atom Token) :=
  Text.atoms (Text.spelled spelling family) html

/-- The tokens among atoms. -/
def tokens : List (Text.Atom Token) → List Token :=
  List.filterMap fun
    | .char _ => none
    | .item t => some t

/-- Numbers the tokens from the counters on, after the atoms `done` (reversed). -/
def numberFrom (done : List (Text.Atom (Token × Nat))) :
    Counters → List (Text.Atom Token) → List (Text.Atom (Token × Nat))
  | _, [] => done.reverse
  | c, .char x :: rest => numberFrom (.char x :: done) c rest
  | c, .item t :: rest => numberFrom (.item (t, c.number t) :: done) (c.next t) rest

theorem numberFrom_eq (done : List (Text.Atom (Token × Nat))) (c : Counters)
    (as : List (Text.Atom Token)) : numberFrom done c as = done.reverse ++ numberFrom [] c as := by
  induction as generalizing done c with
  | nil => simp [numberFrom]
  | cons a as ih =>
    cases a with
    | char x => simp only [numberFrom]; rw [ih, ih [_]]; simp
    | item t => simp only [numberFrom]; rw [ih, ih [_]]; simp

/-- The text with its tokens filled in, and the counters after it. -/
def bind (family : List Token) (fill : Token → Nat → Text) (c : Counters) (html : Text) :
    Text × Counters :=
  let as := atoms family html
  (Text.Atom.fill (fun (t, n) => fill t n) (numberFrom [] c as), c.after (tokens as))

theorem bind_counters (family : List Token) (fill : Token → Nat → Text) (c : Counters)
    (html : Text) : (bind family fill c html).2 = c.after (tokens (atoms family html)) := rfl

/-- The value that is saved under a key; empty if there is none. -/
def saved (values : Entries Text) (key : Text) : Text :=
  (Entries.get? key values).getD []

end Binding
end Tender
