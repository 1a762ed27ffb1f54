/-
Cost lines of an estimate.
-/
import Tender.Record.Survey
import Tender.Token

namespace Tender

/-- A cost line.  Fields of a category are kept as extras. -/
structure LineItem where
  id : Option Text
  description : Option Text
  classification : Option Text
  subClassification : Option Text
  cost : Option Binary64
  quantity : Option Binary64
  total : Option Binary64
  extras : Entries Value

namespace LineItem

instance : Inhabited LineItem := ⟨⟨none, none, none, none, none, none, none, []⟩⟩

def idField : Field := .keyed "_id" "id"
def descriptionField : Field := .plain "description"
def classificationField : Field := .plain "classification"
def subClassificationField : Field := .keyed "subClassification" "sub_classification"
def costField : Field := .plain "cost"
def quantityField : Field := .plain "quantity"
def totalField : Field := .plain "total"

/-- The declared fields in order. -/
def fields : List Field :=
  [idField, descriptionField, classificationField, subClassificationField, costField,
    quantityField, totalField]

/-- Reads a cost line. -/
def ofEntries (es : Entries Value) : Survey LineItem := do
  let id ← idField.read es none Survey.anyText
  let description ← descriptionField.read es none Survey.anyText
  let classification ← classificationField.read es none Survey.anyText
  let subClassification ← subClassificationField.read es none Survey.anyText
  let cost ← costField.read es none Survey.amount
  let quantity ← quantityField.read es none Survey.amount
  let total ← totalField.read es none Survey.amount
  return ⟨id, description, classification, subClassification, cost, quantity, total,
    Field.extras fields es⟩

/-- A text that may be absent, as a value. -/
def textValue : Option Text → Value
  | some s => .text s
  | none => .null

/-- A number that may be absent, as a value. -/
def numberValue : Option Binary64 → Value
  | some x => .float x
  | none => .null

/-- The declared fields with their values. -/
def declared (item : LineItem) : List (Field × Value) :=
  [(idField, textValue item.id), (descriptionField, textValue item.description),
    (classificationField, textValue item.classification),
    (subClassificationField, textValue item.subClassification),
    (costField, numberValue item.cost), (quantityField, numberValue item.quantity),
    (totalField, numberValue item.total)]

/-- The line as a map: the declared fields, then the extras. -/
def toEntries (byKey : Bool) (item : LineItem) : Entries Value :=
  Entries.putAll item.extras (item.declared.map fun (f, v) => (f.label byKey, v))

/-- The value of a declared field, by its key or its second name, or of an extra. -/
def get (item : LineItem) (name : Text) : Value :=
  match item.declared.find? fun (f, _) => name = f.name ∨ name = f.key with
  | some (_, v) => v
  | none => (Entries.get? name item.extras).getD .null

/-- What a selector calls the line: the first of its description, its category's naming field, its
classification and its item that is there. -/
def label (category : Category) (item : LineItem) : Text :=
  let candidates := [textValue item.description, item.get category.nameField,
    textValue item.classification, item.get (lit "item")]
  match candidates.find? Value.isPresent with
  | some v => v.toText
  | none => lit "Item"

end LineItem
end Tender
