/-
The tokens that the binding passes fill in: three kinds of custom variable and eight categories of
cost line.

Main statements: `Token.name_injective`, tokens are told apart by their names, and
`Token.isName_name`.
-/
import Tender.Text.Basic

namespace Tender

/-- A kind of custom variable. -/
inductive VariableKind where
  | text
  | currency
  | number
  deriving DecidableEq

/-- The kinds of custom variable in their order. -/
def VariableKind.all : List VariableKind := [.text, .currency, .number]

/-- The token name of a kind of custom variable. -/
def VariableKind.name : VariableKind → Text
  | .text => lit "customText"
  | .currency => lit "customCurrency"
  | .number => lit "customNumber"

/-- A category of cost lines. -/
inductive Category where
  | labor
  | equipment
  | material
  | tools
  | overhead
  | subcontractor
  | disposal
  | miscellaneous
  deriving DecidableEq

namespace Category

/-- The categories in their order. -/
def all : List Category :=
  [.labor, .equipment, .material, .tools, .overhead, .subcontractor, .disposal, .miscellaneous]

/-- The token name of a category. -/
def tokenName : Category → Text
  | .labor => lit "lineItemLabor"
  | .equipment => lit "lineItemEquipment"
  | .material => lit "lineItemMaterial"
  | .tools => lit "lineItemTool"
  | .overhead => lit "lineItemOverhead"
  | .subcontractor => lit "lineItemSubcontractor"
  | .disposal => lit "lineItemDisposal"
  | .miscellaneous => lit "lineItemMiscellaneous"

/-- The name of the collection of an estimate that holds the lines of a category. -/
def key : Category → Text
  | .labor => lit "labor"
  | .equipment => lit "equipment"
  | .material => lit "material"
  | .tools => lit "tools"
  | .overhead => lit "overhead"
  | .subcontractor => lit "subcontractor"
  | .disposal => lit "disposal"
  | .miscellaneous => lit "miscellaneous"

/-- What a selector calls a line of the category. -/
def label : Category → Text
  | .labor => lit "Labor Item"
  | .equipment => lit "Equipment Item"
  | .material => lit "Material Item"
  | .tools => lit "Tool Item"
  | .overhead => lit "Overhead Item"
  | .subcontractor => lit "Subcontractor Item"
  | .disposal => lit "Disposal Item"
  | .miscellaneous => lit "Misc Item"

/-- The field that names a line of the category. -/
def nameField : Category → Text
  | .labor => lit "labor"
  | .equipment => lit "equipmentMachine"
  | .material => lit "material"
  | .tools => lit "tool"
  | .overhead => lit "overhead"
  | .subcontractor => lit "subcontractor"
  | .disposal => lit "disposalAndHaulOff"
  | .miscellaneous => lit "item"

/-- The category with a key. -/
def ofKey? (key : Text) : Option Category :=
  all.find? fun c => c.key = key

theorem mem_all (c : Category) : c ∈ all := by
  cases c <;> decide

end Category

/-- A token that a binding pass fills in. -/
inductive Token where
  | custom (kind : VariableKind)
  | item (category : Category)
  deriving DecidableEq

namespace Token

/-- The tokens in their order. -/
def all : List Token :=
  VariableKind.all.map .custom ++ Category.all.map .item

/-- The name of a token. -/
def name : Token → Text
  | .custom k => k.name
  | .item c => c.tokenName

/-- The names of all tokens. -/
def names : List Text :=
  all.map name

theorem mem_all (t : Token) : t ∈ all := by
  cases t with
  | custom k => cases k <;> decide
  | item c => cases c <;> decide

theorem isName_name (t : Token) : Text.isName t.name = true := by
  cases t with
  | custom k => cases k <;> decide +kernel
  | item c => cases c <;> decide +kernel

theorem name_injective {s t : Token} (h : s.name = t.name) : s = t := by
  have all_pairs : ∀ s ∈ all, ∀ t ∈ all, s.name = t.name → s = t := by decide +kernel
  exact all_pairs s (mem_all s) t (mem_all t) h

end Token
end Tender
