/-
Estimates: the records that templates are filled from.

Main statement: `variables_null`, no variables are read out of null.
-/
import Tender.Record.LineItem

namespace Tender

/-- An estimate.  What the engine does not read is kept as extras. -/
structure Estimate where
  id : Option Text
  number : Option Text
  /-- Null, an integer, a float or a text. -/
  version : Value
  /-- Null, a number of milliseconds or a text. -/
  date : Value
  customer : Option Text
  customerName : Option Text
  projectTitle : Option Text
  projectName : Option Text
  jobAddress : Option Text
  contactName : Option Text
  contactPhone : Option Text
  contactEmail : Option Text
  subTotal : Option Binary64
  grandTotal : Option Binary64
  /-- The cost lines of each category. -/
  items : Category → List LineItem
  /-- The values of the custom variables. -/
  values : Entries Text
  extras : Entries Value

namespace Estimate

instance : Inhabited Estimate :=
  ⟨⟨none, none, .null, .null, none, none, none, none, none, none, none, none, none, none,
    fun _ => [], [], []⟩⟩

def idField : Field := .keyed "_id" "id"
def numberField : Field := .plain "estimate"
def versionField : Field := .keyed "versionNumber" "version_number"
def dateField : Field := .plain "date"
def customerField : Field := .plain "customer"
def customerNameField : Field := .keyed "customerName" "customer_name"
def projectTitleField : Field := .keyed "projectTitle" "project_title"
def projectNameField : Field := .keyed "projectName" "project_name"
def jobAddressField : Field := .keyed "jobAddress" "job_address"
def contactNameField : Field := .keyed "contactName" "contact_name"
def contactPhoneField : Field := .keyed "contactPhone" "contact_phone"
def contactEmailField : Field := .keyed "contactEmail" "contact_email"
def subTotalField : Field := .keyed "subTotal" "sub_total"
def grandTotalField : Field := .keyed "grandTotal" "grand_total"
def itemsField (c : Category) : Field := ⟨c.key, c.key⟩
def variablesField : Field := .keyed "customVariables" "custom_variables"

/-- The declared fields in order. -/
def fields : List Field :=
  [idField, numberField, versionField, dateField, customerField, customerNameField,
    projectTitleField, projectNameField, jobAddressField, contactNameField, contactPhoneField,
    contactEmailField, subTotalField, grandTotalField] ++ Category.all.map itemsField ++
    [variablesField]

/-- Notes a complaint for each of the three kinds that a version may have. -/
def refuseVersion (asInt : Complaint.Kind) (v : Value) : Survey Value := do
  Survey.under (lit "int") (Survey.complain asInt v)
  Survey.under (lit "float") (Survey.complain .floatType v)
  Survey.under (lit "str") (Survey.complain .textType v)
  return .null

/-- Reads a version: an integer, a float or a text as it is, a whole float as an integer. -/
def readVersion (v : Value) : Survey Value :=
  match v with
  | .null => pure .null
  | .int n => pure (.int n)
  | .text s => pure (.text s)
  | .bool b => pure (.int (if b then 1 else 0))
  | .float x => pure (match x.toInt? with
    | some n => .int n
    | none => .float x)
  | .decimal d => match d.toBinary64? with
    | some x => pure (.float x)
    | none => refuseVersion .intInfinite v
  | v => refuseVersion .intType v

/-- Reads a date: numbers stay, days and moments become their standard text, and everything else
becomes text. -/
def readDate (v : Value) : Survey Value :=
  match v with
  | .int n => pure (.int n)
  | .float x => pure (.float x)
  | .date d => pure (.text d.toText)
  | .moment m => pure (.text m.toIso)
  | v => do return LineItem.textValue (← Survey.anyText v)

/-- The two parts of an item that a map can be built from: the items of a list, the characters of a
text or the keys of a map. -/
def parts? : Value → Option (List Value)
  | .list vs => some vs
  | .text s => some (s.map fun c => .text [c])
  | .map es => some (es.map fun (k, _) => .text k)
  | _ => none

/-- Puts a value under a key that may be of any kind; equal keys are one. -/
def putKey (key value : Value) : List (Value × Value) → Except Fault (List (Value × Value))
  | [] => .ok [(key, value)]
  | (k, v) :: rest => do
    if ← Value.same k key then return (k, value) :: rest
    else return (k, v) :: (← putKey key value rest)

/-- Whether a value can be a key: no list, no map and no number that signals when it is used. -/
def isKey : Value → Bool
  | .list _ => false
  | .map _ => false
  | v => !v.isSignalling

/-- Adds the pairs of a list to a map, the first being number `index`; none if one of them does not
have two parts. -/
def addPairs : (index : Nat) → List (Value × Value) → List Value →
    Except Fault (Option (List (Value × Value)))
  | _, acc, [] => .ok (some acc)
  | i, acc, v :: vs => match parts? v with
    | none => .error (.notPair i)
    | some [key, value] =>
      if isKey key then do addPairs (i + 1) (← putKey key value acc) vs
      else .error (.unhashable key.kind)
    | some _ => .ok none

/-- The entries of a value that is a map or can be made one. -/
def pairs? : Value → Except Fault (Option (List (Value × Value)))
  | .map es => .ok (some (es.map fun (k, v) => (.text k, v)))
  | .list vs => addPairs 0 [] vs
  | .text s => addPairs 0 [] (s.map fun c => .text [c])
  | v => .error (.notIterable v.kind)

/-- Whether the entries can be written, those whose value is null apart. -/
def areWritable (pairs : List (Value × Value)) : Bool :=
  pairs.all fun (k, v) => v.isNull || (k.isWritable && v.isWritable)

/-- The entries as texts, without those whose value is null. -/
def variablesOf (pairs : List (Value × Value)) : Entries Text :=
  Entries.ofPairs ((pairs.filter fun (_, v) => !v.isNull).map fun (k, v) => (k.toText, v.toText))

/-- Reads the values of the custom variables; nothing is read out of what is not there. -/
def readVariables (v : Value) : Survey (Entries Text) :=
  if !v.isPresent then pure []
  else match pairs? v with
    | .ok (some pairs) =>
      if areWritable pairs then pure (variablesOf pairs)
      else do Survey.complain .badValue v; return []
    | .ok none => do Survey.complain .badValue v; return []
    | .error f => Survey.fail f

theorem variables_null : readVariables .null = pure [] := rfl

/-- Reads the cost lines of the categories in order. -/
def readItems (shape : Complaint.Kind) (es : Entries Value) :
    List Category → Survey (List (Category × List LineItem))
  | [] => pure []
  | c :: cs => do
    let items ← (itemsField c).read es [] (Survey.list (Survey.record shape LineItem.ofEntries))
    let rest ← readItems shape es cs
    return (c, items) :: rest

/-- The cost lines of a category among those read. -/
def itemsOf (read : List (Category × List LineItem)) (c : Category) : List LineItem :=
  (read.lookup c).getD []

/-- Reads an estimate; `shape` is the complaint about a cost line that is no record. -/
def ofEntries (shape : Complaint.Kind) (es : Entries Value) : Survey Estimate := do
  let id ← idField.read es none Survey.anyText
  let number ← numberField.read es none Survey.anyText
  let version ← versionField.read es .null readVersion
  let date ← dateField.read es .null readDate
  let customer ← customerField.read es none Survey.anyText
  let customerName ← customerNameField.read es none Survey.anyText
  let projectTitle ← projectTitleField.read es none Survey.anyText
  let projectName ← projectNameField.read es none Survey.anyText
  let jobAddress ← jobAddressField.read es none Survey.anyText
  let contactName ← contactNameField.read es none Survey.anyText
  let contactPhone ← contactPhoneField.read es none Survey.anyText
  let contactEmail ← contactEmailField.read es none Survey.anyText
  let subTotal ← subTotalField.read es none Survey.amount
  let grandTotal ← grandTotalField.read es none Survey.amount
  let items ← readItems shape es Category.all
  let values ← variablesField.read es [] readVariables
  return { id, number, version, date, customer, customerName, projectTitle, projectName,
           jobAddress, contactName, contactPhone, contactEmail, subTotal, grandTotal,
           items := itemsOf items, values, extras := Field.extras fields es }

/-- The estimate in a value. -/
def survey (shape : Complaint.Kind) (v : Value) : Survey Estimate :=
  Survey.record shape (ofEntries shape) v

/-- Reads an estimate. -/
def read (v : Value) : Except Fault Estimate :=
  (survey .recordType v).finish

/-- Entries of texts as a map. -/
def textMap (es : Entries Text) : Value :=
  .map (es.map fun (k, s) => (k, .text s))

/-- The declared fields with their values. -/
def declared (byKey : Bool) (e : Estimate) : List (Field × Value) :=
  [(idField, LineItem.textValue e.id), (numberField, LineItem.textValue e.number),
    (versionField, e.version), (dateField, e.date),
    (customerField, LineItem.textValue e.customer),
    (customerNameField, LineItem.textValue e.customerName),
    (projectTitleField, LineItem.textValue e.projectTitle),
    (projectNameField, LineItem.textValue e.projectName),
    (jobAddressField, LineItem.textValue e.jobAddress),
    (contactNameField, LineItem.textValue e.contactName),
    (contactPhoneField, LineItem.textValue e.contactPhone),
    (contactEmailField, LineItem.textValue e.contactEmail),
    (subTotalField, LineItem.numberValue e.subTotal),
    (grandTotalField, LineItem.numberValue e.grandTotal)] ++
  (Category.all.map fun c =>
    (itemsField c, .list ((e.items c).map fun item => .map (item.toEntries byKey)))) ++
  [(variablesField, textMap e.values)]

/-- The estimate as a map: the declared fields by key or second name, then the extras. -/
def toEntries (byKey : Bool) (e : Estimate) : Entries Value :=
  Entries.putAll e.extras ((e.declared byKey).map fun (f, v) => (f.label byKey, v))

end Estimate
end Tender
