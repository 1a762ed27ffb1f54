/-
Proposal templates: pages of content, or one piece of content in older records.
-/
import Tender.Record.LineItem

namespace Tender

/-- A page of a template. -/
structure TemplatePage where
  content : Text
  extras : Entries Value

namespace TemplatePage

instance : Inhabited TemplatePage := ⟨⟨[], []⟩⟩

def contentField : Field := .plain "content"

/-- Reads content: null counts as empty. -/
def readContent (v : Value) : Survey Text :=
  if v.isNull then pure [] else Survey.text v

/-- Reads a page. -/
def ofEntries (es : Entries Value) : Survey TemplatePage := do
  let content ← contentField.read es [] readContent
  return ⟨content, Field.extras [contentField] es⟩

/-- The page as a map. -/
def toEntries (p : TemplatePage) : Entries Value :=
  Entries.putAll p.extras [(contentField.key, .text p.content)]

end TemplatePage

/-- A proposal template. -/
structure Proposal where
  id : Option Text
  title : Text
  version : Int
  content : Text
  pages : List TemplatePage
  extras : Entries Value

namespace Proposal

instance : Inhabited Proposal := ⟨⟨none, [], 1, [], [], []⟩⟩

def idField : Field := .keyed "_id" "id"
def titleField : Field := .plain "title"
def versionField : Field := .plain "version"
def pagesField : Field := .plain "pages"

/-- The declared fields in order. -/
def fields : List Field :=
  [idField, titleField, versionField, TemplatePage.contentField, pagesField]

/-- Reads an identifier: any value but null as text. -/
def readId (v : Value) : Survey (Option Text) :=
  if v.isNull then pure none
  else if v.isWritable then pure (some v.toText)
  else do Survey.complain .badValue v; return none

/-- Reads a template; `shape` is the complaint about a page that is no record. -/
def ofEntries (shape : Complaint.Kind) (es : Entries Value) : Survey Proposal := do
  let id ← idField.read es none readId
  let title ← titleField.read es [] Survey.text
  let version ← versionField.read es 1 Survey.integer
  let content ← TemplatePage.contentField.read es [] TemplatePage.readContent
  let pages ← pagesField.read es [] (Survey.list (Survey.record shape TemplatePage.ofEntries))
  return ⟨id, title, version, content, pages, Field.extras fields es⟩

/-- The template in a value. -/
def survey (shape : Complaint.Kind) (v : Value) : Survey Proposal :=
  Survey.record shape (ofEntries shape) v

/-- Reads a template. -/
def read (v : Value) : Except Fault Proposal :=
  (survey .recordType v).finish

/-- The template as a map: the declared fields, then the extras. -/
def toEntries (p : Proposal) : Entries Value :=
  Entries.putAll p.extras
    [(idField.key, LineItem.textValue p.id), (titleField.key, .text p.title),
     (versionField.key, .int p.version), (TemplatePage.contentField.key, .text p.content),
     (pagesField.key, .list (p.pages.map fun page => .map page.toEntries))]

/-- A template that is one piece of content. -/
def ofContent (content : Text) : Proposal :=
  { (default : Proposal) with content := content }

/-- The sources of the pages: the pages if there are any, or else the content. -/
def sources (p : Proposal) : List Text :=
  if p.pages.isEmpty then [p.content] else p.pages.map TemplatePage.content

end Proposal
end Tender
