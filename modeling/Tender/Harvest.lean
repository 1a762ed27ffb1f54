/-
Harvesting: reading the values of the custom variables back from a page with controls.

The controls are taken in the order of the page and numbered like the tokens they stood for: inputs
by their kind, selectors all together.

Main statement: `keys_variables`, each control has its own number, one after the other.
-/
import Tender.Counters
import Tender.Html.Node

namespace Tender.Harvest

/-- A control of a page. -/
inductive Control where
  | input (kind : VariableKind) (value : Text)
  /-- A selector with the label that is chosen. -/
  | selector (label : Text)
  deriving DecidableEq

/-- The kind of custom variable whose inputs have a class. -/
def kindOfClass? (name : Text) : Option VariableKind :=
  [(lit "custom-var-text", VariableKind.text), (lit "custom-var-currency", .currency),
    (lit "custom-var-number", .number)].lookup name

/-- The classes of an element. -/
def classes (attributes : Entries Text) : List Text :=
  Text.words ((Entries.get? (lit "class") attributes).getD [])

/-- Whether an element has an attribute. -/
def has (attributes : Entries Text) (name : String) : Bool :=
  (Entries.get? (lit name) attributes).isSome

mutual
/-- The attributes and children of the first option in a part of a page that is marked as chosen. -/
def chosen? : Html.Node → Option (Entries Text × List Html.Node)
  | .text _ => none
  | .element name attributes children =>
    if name = lit "option" ∧ has attributes "selected" then some (attributes, children)
    else chosenAmong? children
/-- The attributes and children of the first option in parts of a page that is marked as chosen. -/
def chosenAmong? : List Html.Node → Option (Entries Text × List Html.Node)
  | [] => none
  | n :: rest => match chosen? n with
    | some found => some found
    | none => chosenAmong? rest
end

/-- The label that is chosen in a selector; a prompt is no choice, and neither is anything in a selector
that is disabled. -/
def chosenLabel (attributes : Entries Text) (children : List Html.Node) : Text :=
  if has attributes "disabled" then []
  else match chosenAmong? children with
    | some (option, content) => if has option "data-prompt" then [] else Html.shownAll content
    | none => []

/-- The control that an element is. -/
def control? (name : Text) (attributes : Entries Text) (children : List Html.Node) :
    Option Control :=
  if name = lit "input" then
    ((classes attributes).findSome? kindOfClass?).map fun kind =>
      .input kind ((Entries.get? (lit "value") attributes).getD [])
  else if name = lit "select" ∧ (classes attributes).contains (lit "line-item-select") then
    some (.selector (chosenLabel attributes children))
  else none

mutual
/-- The controls in a part of a page, in order. -/
def controls : Html.Node → List Control
  | .text _ => []
  | .element name attributes children =>
    (control? name attributes children).toList ++ controlsAmong children
/-- The controls in parts of a page, in order. -/
def controlsAmong : List Html.Node → List Control
  | [] => []
  | n :: rest => controls n ++ controlsAmong rest
end

/-- The token whose place a control takes; all cost lines are numbered together. -/
def Control.token : Control → Token
  | .input kind _ => .custom kind
  | .selector _ => .item .miscellaneous

/-- The value of a control. -/
def Control.value : Control → Text
  | .input _ value => value
  | .selector label => label

/-- The values of controls under their keys, the tokens being counted from `c` on. -/
def variablesFrom : Counters → List Control → Entries Text
  | _, [] => []
  | c, x :: rest =>
    (x.token.variableKey (c.number x.token), x.value) :: variablesFrom (c.next x.token) rest

/-- The values of controls under their keys. -/
def values (xs : List Control) : Entries Text :=
  variablesFrom Counters.start xs

/-- The keys of tokens that are counted from `c` on. -/
def keysFrom : Counters → List Token → List Text
  | _, [] => []
  | c, t :: rest => t.variableKey (c.number t) :: keysFrom (c.next t) rest

theorem keys_variables (c : Counters) (xs : List Control) :
    Entries.keys (variablesFrom c xs) = keysFrom c (xs.map Control.token) := by
  induction xs generalizing c with
  | nil => rfl
  | cons x xs ih => simp only [variablesFrom, Entries.keys, List.map_cons, keysFrom] at ih ⊢; rw [ih]

/-- The values of the custom variables on a page. -/
def read (page : Text) : Except Fault (Entries Text) := do
  return values (controlsAmong (← Html.read page))

end Tender.Harvest
