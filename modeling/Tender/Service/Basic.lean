/-
The service: which requests it takes and how it answers them.

Main statements: `answer_unknown`, there is nothing under an unknown path, and `answerForm_absent`, a
form has to be sent.
-/
import Tender.Components
import Tender.Harvest
import Tender.Journal
import Tender.Record.Starter
import Tender.Service.Form
import Tender.Service.Message

namespace Tender

/-- A running service. -/
structure Service where
  journal : Journal.Setup
  renderer : Renderer

namespace Service

/-- Starts the service: its journal, then its renderer. -/
def start (s : Settings) : Except Fault Service := do
  let journal ← Journal.setup s.logLevel s.logDir
  let (r, _) ← (Components.new s).renderer
  return ⟨journal, r.component.renderer⟩

/-- What the service can be asked for. -/
inductive Route where
  | health
  | preview
  | generate
  | harvest
  | starter
  /-- The pages that describe the service. -/
  | description
  deriving DecidableEq

namespace Route

/-- The path and the methods of each route. -/
def table : List (Text × Route) :=
  [(lit "/health", .health), (lit "/proposals/preview", .preview),
    (lit "/proposals/generate", .generate), (lit "/proposals/harvest", .harvest),
    (lit "/proposals/empty-template", .starter), (lit "/docs", .description),
    (lit "/docs/oauth2-redirect", .description), (lit "/redoc", .description),
    (lit "/openapi.json", .description)]

/-- The methods of a route. -/
def methods : Route → List Text
  | .health => [lit "GET"]
  | .preview => [lit "POST"]
  | .generate => [lit "POST"]
  | .harvest => [lit "POST"]
  | .starter => [lit "GET"]
  | .description => [lit "GET", lit "HEAD"]

/-- A path without what follows it in a request and without slashes at its end. -/
def trim (path : Text) : Text :=
  ((path.takeWhile fun c => c ≠ '?' && c ≠ '#').reverse.dropWhile (· == '/')).reverse

/-- The route of a path. -/
def ofPath? (path : Text) : Option Route :=
  table.lookup (trim path)

end Route

/-- What the service says about itself. -/
def health : Value :=
  .map [(lit "status", .text (lit "healthy")), (lit "service", .text (lit "proposal-engine")),
    (lit "version", .text (lit "0.1.0"))]

/-- The document while it is edited, or as it will be. -/
def preview (service : Service) (today : Date) (f : PreviewForm) : Except Fault Value := do
  let d ← service.renderer.render f.shownTemplate f.estimate (Mode.ofFlag f.editing) none today
  return .map [(lit "html", .text (← d.html))]

/-- The final document, whole and in pages. -/
def generate (service : Service) (today : Date) (f : GenerateForm) : Except Fault Value := do
  let d ← service.renderer.render f.template f.estimate .view f.values today
  return .map [(lit "html", .text (← d.html)), (lit "pages", .list (d.pages.map .text))]

/-- The values of the variables in a page. -/
def harvest (f : HarvestForm) : Except Fault Value := do
  let values ← Harvest.read f.html
  return .map [(lit "customVariables", Estimate.textMap values)]

/-- Answers a request that sends a form. -/
def answerForm {α : Type} [Inhabited α] (ofEntries : Entries Value → Survey α)
    (run : α → Except Fault Value) (body : Body) : Response :=
  match body.read with
  | .error response => response
  | .ok none => .refused [⟨[], .missing, .null⟩]
  | .ok (some v) => match (Survey.record .recordShape ofEntries v).finish with
    | .error fault => .ofFault fault
    | .ok form => .ofResult (run form)

/-- Answers a request; `today` is the day of rendering. -/
def answer (service : Service) (today : Date) (r : Request) : Response :=
  match Route.ofPath? r.path with
  | none => .notFound
  | some route =>
    if !route.methods.contains (r.method.map Char.toUpper) then .methodNotAllowed
    else match route with
      | .health => .ofResult (.ok health)
      | .preview => answerForm PreviewForm.ofEntries (service.preview today) r.body
      | .generate => answerForm GenerateForm.ofEntries (service.generate today) r.body
      | .harvest => answerForm HarvestForm.ofEntries harvest r.body
      | .starter => .ofResult (.ok (.map Proposal.starter.toEntries))
      | .description => ⟨200, .null⟩

theorem answer_unknown (service : Service) (today : Date) {r : Request}
    (h : Route.ofPath? r.path = none) : service.answer today r = .notFound := by
  simp [answer, h]

theorem answerForm_absent {α : Type} [Inhabited α] (ofEntries : Entries Value → Survey α)
    (run : α → Except Fault Value) :
    answerForm ofEntries run .absent = .refused [⟨[], .missing, .null⟩] := rfl

end Service
end Tender
