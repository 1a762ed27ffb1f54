/-
Carrying out commands on a disk.

A command that cannot read what it needs ends with code one and writes nothing; but bytes that spell no
text are a fault.

Main statement: `run_harvest_missing`, a page that is not there cannot be harvested.
-/
import Tender.Command.Basic
import Tender.Components
import Tender.Folder
import Tender.Harvest
import Tender.Journal
import Tender.Json.Read
import Tender.Json.Write
import Tender.Settings.Reading

namespace Tender.Command

/-- How a command ends. -/
structure Ending where
  code : Nat
  output : Text
  folder : Disk

/-- The file that settings are read from. -/
def settingsFile : Text := lit ".env"

/-- The settings of a disk, with the journal that they ask for. -/
def settings (disk : Disk) (environment : Entries Text) : Except Fault Settings := do
  let s ← Settings.read [] environment ((← disk.text? settingsFile).getD [])
  let _ ← Journal.setup s.logLevel s.logDir
  return s

/-- What is read from files, if they can be read. -/
abbrev Input (α : Type) := OptionT (Except Fault) α

/-- Fails with a fault. -/
def Input.fail {α : Type} (f : Fault) : Input α :=
  OptionT.mk (.error f)

/-- Reads a file as JSON. -/
def readValue (disk : Disk) (path : Option Text) : Input Value :=
  match path with
  | none => Input.fail (.noPath (lit "open"))
  | some path => match disk.text? path with
    | .error f => Input.fail f
    | .ok none => failure
    | .ok (some s) => match Json.read s with
      | .ok v => pure v
      | .error (.noJson _) => failure
      | .error (.tooManyDigits n) => Input.fail (.tooManyDigits n)

/-- Reads a file as JSON, if one is named. -/
def readGiven (disk : Disk) (path : Option Text) : Input Value :=
  match path with
  | some path => readValue disk (some path)
  | none => pure .null

/-- A record that was read; complaints count as unreadable. -/
def accept {α : Type} (r : Except Fault α) : Input α :=
  match r with
  | .ok a => pure a
  | .error (.invalid _) => failure
  | .error f => Input.fail f

/-- Reads the template, the estimate and the variables of a rendering. -/
def Render.inputs (r : Render) (disk : Disk) : Input (Proposal × Estimate × Value) := do
  let template ← accept (Proposal.read (← readValue disk r.template))
  let estimate ← accept (Estimate.read (← readValue disk r.estimate))
  let values ← readGiven disk r.values
  return (template, estimate, values)

/-- The variables that a file gives; a file that says nothing leaves them to the estimate. -/
def variablesOf (v : Value) : Except Fault (Option (Entries Text)) :=
  if !v.isPresent then .ok none
  else match v with
    | .map es => .ok (some (es.map fun (k, v) => (k, v.toText)))
    | v => .error (.noItems v.kind)

/-- The document of a rendering; `now` is the day to render on unless the command gives one. -/
def Render.document (r : Render) (s : Settings) (now : Date) (template : Proposal)
    (estimate : Estimate) (values : Value) : Except Fault Text := do
  let (wired, _) ← (Components.new s).renderer
  let d ← wired.component.renderer.render template estimate (Mode.ofFlag r.editing)
    (← variablesOf values) (r.today.getD now)
  d.html

/-- Writes a document to the file that a rendering wants it in, or shows it. -/
def Render.deliver (r : Render) (disk : Disk) (html : Text) : Except Fault Ending :=
  match r.output with
  | some path => do return ⟨0, [], ← disk.write path html⟩
  | none => .ok ⟨0, html, disk⟩

/-- Renders, and delivers the document. -/
def Render.run (r : Render) (s : Settings) (disk : Disk) (now : Date) : Except Fault Ending := do
  match ← (r.inputs disk).run with
  | none => return ⟨1, [], disk⟩
  | some (template, estimate, values) =>
    r.deliver disk (← r.document s now template estimate values)

/-- Harvests a page and shows its variables. -/
def runHarvest (page : Option Text) (disk : Disk) : Except Fault Ending :=
  match page with
  | none => .error (.noPath (lit "read_text"))
  | some path => do
    match ← disk.text? path with
    | none => return ⟨1, [], disk⟩
    | some html =>
      let values ← Harvest.read html
      return ⟨0, Json.write values ++ ['\n'], disk⟩

/-- Carries a command out on a disk.  Serving ends at once: it only answers requests. -/
def run (c : Command) (disk : Disk) (environment : Entries Text) (now : Date) :
    Except Fault Ending := do
  let s ← settings disk environment
  match c with
  | .render r => r.run s disk now
  | .harvest page => runHarvest page disk
  | .serve _ => return ⟨0, [], disk⟩

theorem run_harvest_missing {folder : Folder} {path : Text} (h : folder.read? path = none) :
    runHarvest (some path) folder = .ok ⟨1, [], folder⟩ := by
  simp [runHarvest, h, bind, Except.bind, pure, Except.pure]

end Tender.Command
