/-
Custom variables: inputs in edit mode, their values in view mode.
-/
import Tender.Binding.Basic

namespace Tender.Variable

/-- How the variables of a kind are shown. -/
structure Appearance where
  cssClass : Text
  placeholder : Text
  /-- The least width in pixels. -/
  floor : Nat
  currency : Bool
  rightAligned : Bool

/-- The appearance of each kind. -/
def appearance : VariableKind → Appearance
  | .text => ⟨lit "custom-var-text", lit "...", 80, false, false⟩
  | .currency => ⟨lit "custom-var-currency", lit "0.00", 40, true, true⟩
  | .number => ⟨lit "custom-var-number", lit "0", 40, false, true⟩

/-- The width in pixels of an input that holds a value. -/
def inputWidth (value : Text) (floor : Int) : Int :=
  max floor ((value.length : Int) * 9 + 16)

/-- An attribute with its value. -/
def attr (name : String) (value : Text) : Text :=
  lit name ++ lit "=\"" ++ value ++ ['"']

/-- The style of an input. -/
def inputStyle (a : Appearance) (value : Text) : Text :=
  lit "display: inline; width: " ++ Text.ofInt (inputWidth value a.floor) ++
    lit "px; min-width: " ++ Text.ofNat a.floor ++
    lit "px; border: none; border-bottom: 2px solid #374151; padding: 2px 4px; margin: 0; background: #f9fafb; color: #374151; font-size: inherit; font-family: inherit; outline: none;" ++
    (if a.rightAligned then lit " text-align: right;" else [])

/-- What an input does when its text changes: it keeps its width in step. -/
def resize (a : Appearance) : Text :=
  lit "this.style.width = Math.max(" ++ Text.ofNat a.floor ++
    lit ", this.value.length * 9 + 16) + 'px'"

/-- An input without what surrounds it. -/
def control (a : Appearance) (key value : Text) : Text :=
  lit "<input type=\"text\" " ++ attr "class" a.cssClass ++ ' ' ::
    attr "data-var-key" key ++ ' ' :: attr "value" (Text.safe value) ++ ' ' ::
    attr "placeholder" a.placeholder ++ ' ' :: attr "oninput" (resize a) ++ ' ' ::
    attr "style" (inputStyle a value) ++ lit " />"

/-- An input, behind the currency symbol if it holds an amount. -/
def input (symbol : Text) (a : Appearance) (key value : Text) : Text :=
  if a.currency then
    lit "<span style=\"display: inline-flex; align-items: center; margin: 0;\"><span style=\"color: #374151; font-weight: 500;\">" ++
      Text.safe symbol ++ lit "</span>" ++ control a key value ++ lit "</span>"
  else control a key value

/-- A value in a final text, blank space standing for none. -/
def placeholder (a : Appearance) (value : Text) : Text :=
  lit "<span class=\"custom-var-placeholder\" style=\"border-bottom: 1px solid #9ca3af; display: inline-block; min-width: " ++
    Text.ofNat a.floor ++ lit "px;\">" ++
    (if value = [] then lit "&nbsp;" else Text.safe value) ++ lit "</span>"

/-- A value in a final text, behind the currency symbol if it is an amount. -/
def shown (symbol : Text) (a : Appearance) (value : Text) : Text :=
  if a.currency then
    lit "<span style=\"color: #374151;\">" ++ Text.safe symbol ++ placeholder a value ++
      lit "</span>"
  else placeholder a value

/-- What stands for the token of a kind with a number. -/
def fill (symbol : Text) (mode : Mode) (values : Entries Text) : Token → Nat → Text
  | .custom k, n =>
    let key := (Token.custom k).variableKey n
    let value := Binding.saved values key
    match mode with
    | .edit => input symbol (appearance k) key value
    | .view => shown symbol (appearance k) value
  | .item _, _ => []

/-- The tokens of custom variables. -/
def family : List Token := VariableKind.all.map .custom

/-- Binds the custom variables of a text. -/
def bind (symbol : Text) (mode : Mode) (values : Entries Text) (c : Counters) (html : Text) :
    Text × Counters :=
  Binding.bind family (fill symbol mode values) c html

end Tender.Variable
