/-
The rendering of a document, page by page.

A page is compiled with its tokens hidden, and then its tokens are bound; the counters of the tokens
go on from page to page.  A rendering moves through its stages only along `Stage.next`.

Main statements: `run_again`, a rendering runs once, and
`html_ok_iff`, there is a document exactly once all pages are joined.
-/
import Tender.Binding.Selector
import Tender.Context
import Tender.Guard
import Tender.Record.Proposal
import Tender.Template.Compiler

namespace Tender

/-- What documents are rendered with. -/
structure Renderer where
  settings : Settings
  guard : Guard
  compiler : Compiler

namespace Renderer

/-- A renderer with the standard guard and compiler. -/
def new (s : Settings) : Except Fault Renderer := do
  let compiler ← Compiler.new s Guard.standard.names
  return ⟨s, Guard.standard, compiler⟩

/-- Compiles a page, leaving its tokens as they are; a page that is too long is replaced by a
diagnostic. -/
def compilePage (r : Renderer) (source : Text) (context : Value) : Except Fault Text :=
  if r.settings.maxPageChars < source.length then
    .ok (Problem.diagnostic ⟨.pageTooLong source.length r.settings.maxPageChars, none⟩)
  else (r.compiler.compile (r.guard.escape source) context).map r.guard.restore

/-- Binds the tokens of a page: the custom variables, then the cost lines. -/
def bindPage (r : Renderer) (e : Estimate) (mode : Mode) (values : Entries Text) (c : Counters)
    (html : Text) : Text × Counters :=
  let (html, c) := Variable.bind r.settings.currencySymbol mode values c html
  Selector.bind e mode values c html

end Renderer

/-- The stage of a rendering. -/
inductive Stage where
  | notStarted
  | compiling
  | binding
  | joined
  deriving DecidableEq

namespace Stage

/-- The stages in their order. -/
def all : List Stage := [.notStarted, .compiling, .binding, .joined]

/-- The name of a stage. -/
def name : Stage → Text
  | .notStarted => lit "not_started"
  | .compiling => lit "per_page_compiling"
  | .binding => lit "per_page_variable_binding"
  | .joined => lit "joined"

/-- The stage with a name. -/
def ofName (s : Text) : Except Fault Stage :=
  match all.find? fun stage => stage.name = s with
  | some stage => .ok stage
  | none => .error (.unknownState s)

/-- Where a stage may lead. -/
def next : Stage → List Stage
  | .notStarted => [.compiling, .joined]
  | .compiling => [.binding]
  | .binding => [.compiling, .joined]
  | .joined => []

end Stage

/-- A rendering of a document. -/
structure Document where
  renderer : Renderer
  /-- The sources of the pages. -/
  sources : List Text
  estimate : Estimate
  mode : Mode
  values : Entries Text
  context : Entries Value
  counters : Counters
  stage : Stage
  /-- The pages rendered so far. -/
  pages : List Text

namespace Document

/-- A rendering that has not started.  The estimate's own variables stand in where none are given. -/
def start (r : Renderer) (template : Proposal) (e : Estimate) (mode : Mode)
    (values : Option (Entries Text)) (today : Date) : Except Fault Document := do
  let context ← Context.build e today r.settings
  return ⟨r, template.sources, e, mode, values.getD e.values, context, Counters.start,
    .notStarted, []⟩

/-- Moves to another stage. -/
def advance (d : Document) (stage : Stage) : Except Fault Document :=
  if stage ∈ d.stage.next then .ok { d with stage := stage }
  else .error (.invalidStep d.stage.name stage.name)

/-- The document after a step, or the document as it was with the fault that stopped the step. -/
abbrev Progress := Document × Option Fault

/-- Compiles and binds one page. -/
def renderPage (d : Document) (source : Text) : Progress :=
  match d.advance .compiling with
  | .error f => (d, some f)
  | .ok d =>
    match d.renderer.compilePage source (.map d.context) with
    | .error f => (d, some f)
    | .ok html =>
      match d.advance .binding with
      | .error f => (d, some f)
      | .ok d =>
        let (html, counters) := d.renderer.bindPage d.estimate d.mode d.values d.counters html
        ({ d with counters := counters, pages := d.pages ++ [html] }, none)

/-- Renders pages in order, the first being number `index`; a diagnostic stands for the pages past
the limit. -/
def renderPages : Document → (index : Nat) → List Text → Progress
  | d, _, [] => (d, none)
  | d, index, source :: rest =>
    let limit := d.renderer.settings.maxPages
    if limit ≤ index then
      let notice := Problem.diagnostic ⟨.tooManyPages d.sources.length limit, none⟩
      ({ d with pages := d.pages ++ [notice] }, none)
    else match d.renderPage source with
      | (d, none) => renderPages d (index + 1) rest
      | (d, some f) => (d, some f)

/-- Renders the whole document, once. -/
def run (d : Document) : Progress :=
  if d.stage ≠ .notStarted then (d, some .alreadyRun)
  else match d.renderPages 0 d.sources with
    | (d, some f) => (d, some f)
    | (d, none) => match d.advance .joined with
      | .ok d => (d, none)
      | .error f => (d, some f)

theorem run_again {d : Document} (h : d.stage ≠ .notStarted) : d.run = (d, some .alreadyRun) := by
  simp [run, h]

/-- The document: its pages with the page-break marker between them. -/
def html (d : Document) : Except Fault Text :=
  if d.stage = .joined then .ok (Text.joinWith d.renderer.settings.pageBreakMarker d.pages)
  else .error .notRun

theorem html_ok_iff (d : Document) : (∃ s, d.html = .ok s) ↔ d.stage = .joined := by
  unfold html
  by_cases h : d.stage = .joined <;> simp [h]

end Document

namespace Renderer

/-- The rendered document. -/
def render (r : Renderer) (template : Proposal) (e : Estimate) (mode : Mode)
    (values : Option (Entries Text)) (today : Date) : Except Fault Document := do
  let d ← Document.start r template e mode values today
  match d.run with
  | (d, none) => return d
  | (_, some f) => throw f

end Renderer
end Tender
