/-
The forms that requests send, read out of their bodies.

Main statement: `readVariables_null`, a form can leave the variables to the estimate.
-/
import Tender.Record.Estimate
import Tender.Record.Proposal

namespace Tender.Service

/-- The words for yes and no, in small letters. -/
def flagWords : List (Text × Bool) :=
  [(lit "0", false), (lit "f", false), (lit "n", false), (lit "no", false), (lit "off", false),
    (lit "false", false), (lit "1", true), (lit "t", true), (lit "y", true), (lit "yes", true),
    (lit "on", true), (lit "true", true)]

/-- The flag that a value is or stands for. -/
def flagOf : Value → Except Complaint.Kind Bool
  | .bool b => .ok b
  | .text s => match flagWords.lookup (s.map Char.toLower) with
    | some b => .ok b
    | none => .error .boolText
  | .int n =>
    if n = 0 then .ok false
    else if n = 1 then .ok true
    else if Integer.isWord n then .error .boolText
    else .error .boolType
  | .float x => match x.toInt? with
    | some n =>
      if n = 0 then .ok false
      else if n = 1 then .ok true
      else if Integer.isWord (n - 1) && Integer.isWord n then .error .boolText
      else .error .boolType
    | none => .error .boolType
  | _ => .error .boolType

/-- Reads a flag. -/
def readFlag (v : Value) : Survey Bool :=
  match flagOf v with
  | .ok b => pure b
  | .error kind => do Survey.complain kind v; return true

/-- Reads pages that may be left out. -/
def readPages (v : Value) : Survey (Option (List TemplatePage)) :=
  if v.isNull then pure none
  else do return some (← Survey.list (Survey.record .recordShape TemplatePage.ofEntries) v)

/-- Reads the entries of a map of texts. -/
def readTexts : Entries Value → Survey (Entries Text)
  | [] => pure []
  | (k, v) :: es => do
    let s ← Survey.under k (Survey.text v)
    let rest ← readTexts es
    return (k, s) :: rest

/-- Reads the values of variables, which may be left out. -/
def readVariables (v : Value) : Survey (Option (Entries Text)) :=
  match v with
  | .null => pure none
  | .map es => do return some (← readTexts es)
  | v => do Survey.complain .mapType v; return none

theorem readVariables_null : readVariables .null = pure none := rfl

/-- Reads the template of a form. -/
def readTemplate (es : Entries Value) : Survey Proposal :=
  (Field.plain "template").require es (Proposal.survey .recordShape)

/-- Reads the estimate of a form. -/
def readEstimate (es : Entries Value) : Survey Estimate :=
  (Field.plain "estimate").require es (Estimate.survey .recordShape)

/-- What is to be shown while it is edited. -/
structure PreviewForm where
  template : Proposal
  estimate : Estimate
  editing : Bool
  /-- Pages that stand in for those of the template. -/
  pages : Option (List TemplatePage)

namespace PreviewForm

instance : Inhabited PreviewForm := ⟨⟨default, default, true, none⟩⟩

/-- Reads a form. -/
def ofEntries (es : Entries Value) : Survey PreviewForm := do
  let template ← readTemplate es
  let estimate ← readEstimate es
  let editing ← (Field.keyed "editMode" "edit_mode").read es true readFlag
  let pages ← (Field.plain "pages").read es none readPages
  return ⟨template, estimate, editing, pages⟩

/-- The template with the pages of the form, if it has any. -/
def shownTemplate (f : PreviewForm) : Proposal :=
  match f.pages with
  | some pages => { f.template with pages := pages }
  | none => f.template

end PreviewForm

/-- What a final document is to be made of. -/
structure GenerateForm where
  template : Proposal
  estimate : Estimate
  values : Option (Entries Text)

namespace GenerateForm

instance : Inhabited GenerateForm := ⟨⟨default, default, none⟩⟩

/-- Reads a form. -/
def ofEntries (es : Entries Value) : Survey GenerateForm := do
  let template ← readTemplate es
  let estimate ← readEstimate es
  let values ← (Field.keyed "customVariables" "custom_variables").read es none readVariables
  return ⟨template, estimate, values⟩

end GenerateForm

/-- A page whose variables are to be read. -/
structure HarvestForm where
  html : Text

namespace HarvestForm

instance : Inhabited HarvestForm := ⟨⟨[]⟩⟩

/-- Reads a form. -/
def ofEntries (es : Entries Value) : Survey HarvestForm := do
  return ⟨← (Field.plain "html").require es Survey.text⟩

end HarvestForm
end Tender.Service
