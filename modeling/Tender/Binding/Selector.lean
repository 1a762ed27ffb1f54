/-
Cost lines: selectors in edit mode, the chosen labels in view mode.
-/
import Tender.Binding.Variable
import Tender.Record.Estimate

namespace Tender.Selector

/-- The style of a selector. -/
def style : Text :=
  lit "display: inline-block; min-width: 150px; padding: 2px 6px; margin: 0; border: 2px solid #3b82f6; border-radius: 4px; background: #eff6ff; color: #1e40af; font-weight: 500; cursor: pointer; font-size: inherit;"

/-- The style of a selector that has nothing to choose from. -/
def emptyStyle : Text :=
  lit "display: inline-block; min-width: 150px; padding: 2px 6px; margin: 0; border: 1px dashed #d1d5db; border-radius: 4px; background: #f9fafb; color: #9ca3af; font-style: italic; font-size: inherit;"

/-- The attributes by which a selector is known. -/
def identity (category : Category) (key : Text) : Text :=
  Variable.attr "class" (lit "line-item-select") ++ ' ' ::
    Variable.attr "data-category" category.key ++ ' ' :: Variable.attr "data-var-key" key

/-- The option that asks for a choice. -/
def prompt (words : Text) : Text :=
  lit "<option value=\"\" data-prompt>" ++ words ++ lit "</option>"

/-- The option for a cost line. -/
def option (id label : Text) (selected : Bool) : Text :=
  lit "<option " ++ Variable.attr "value" (Text.safe id) ++
    (if selected then lit " selected" else []) ++ '>' :: Text.safe label ++ lit "</option>"

/-- The options for cost lines, the first of them being number `index`. -/
def options (category : Category) (selected : Option Nat) : (index : Nat) → List LineItem → List Text
  | _, [] => []
  | i, item :: rest =>
    option (item.id.getD []) (item.label category) (selected == some i) ::
      options category selected (i + 1) rest

/-- A selector for the cost lines of a category, the first one with the saved label chosen. -/
def select (category : Category) (key : Text) (items : List LineItem) (saved : Text) : Text :=
  if items.isEmpty then
    lit "<select " ++ identity category key ++ lit " disabled " ++
      Variable.attr "style" emptyStyle ++ '>' ::
      prompt (lit "No " ++ category.label ++ ['s']) ++ lit "</select>"
  else
    let selected := items.findIdx? fun item => item.label category = saved
    lit "<select " ++ identity category key ++ ' ' :: Variable.attr "style" style ++ '>' ::
      prompt (lit "Select " ++ category.label ++ lit "...") ++
      (options category selected 0 items).flatten ++ lit "</select>"

/-- A chosen label in a final text, blank space standing for none. -/
def placeholder (saved : Text) : Text :=
  lit "<span class=\"line-item-placeholder\" style=\"border-bottom: 1px solid #9ca3af; display: inline-block; min-width: 100px;\">" ++
    (if saved = [] then lit "&nbsp;" else Text.safe saved) ++ lit "</span>"

/-- What stands for the token of a category with a number. -/
def fill (e : Estimate) (mode : Mode) (values : Entries Text) : Token → Nat → Text
  | .item category, n =>
    let key := (Token.item category).variableKey n
    let saved := Binding.saved values key
    match mode with
    | .edit => select category key (e.items category) saved
    | .view => placeholder saved
  | .custom _, _ => []

/-- The tokens of cost lines. -/
def family : List Token := Category.all.map .item

/-- Binds the cost lines of a text. -/
def bind (e : Estimate) (mode : Mode) (values : Entries Text) (c : Counters) (html : Text) :
    Text × Counters :=
  Binding.bind family (fill e mode values) c html

end Tender.Selector
