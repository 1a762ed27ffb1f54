/-
The commands: rendering a document, harvesting a page, and serving.

Main statements: `ofWords_nil`, there has to be a command, and `ofWords_help`, help can be asked for
before it.
-/
import Tender.Calendar.Iso
import Tender.CommandLine.Basic
import Tender.Number.Integer
import Tender.Text.Path

namespace Tender

/-- Rendering a template with an estimate.  A path that is absent has been left empty. -/
structure Command.Render where
  template : Option Text
  estimate : Option Text
  editing : Bool
  values : Option Text
  today : Option Date
  output : Option Text

/-- Serving at an address. -/
structure Command.Serve where
  host : Text
  port : Int
  reload : Bool

/-- A command. -/
inductive Command where
  | render (r : Command.Render)
  | harvest (page : Option Text)
  | serve (s : Command.Serve)

namespace Command

open CommandLine

/-- The switches of all commands. -/
inductive Switch where
  | help
  | edit
  | values
  | today
  | output
  | host
  | port
  | reload
  deriving DecidableEq

/-- Whether a value goes with a switch. -/
def Switch.valued : Switch → Bool
  | .help => false
  | .edit => false
  | .reload => false
  | _ => true

/-- The names that ask for help. -/
def helpSwitches : Switches Switch :=
  [(lit "-h", .help), (lit "--help", .help)]

/-- The form of all command lines up to the name of the command. -/
def form : Form Switch := ⟨helpSwitches, Switch.valued, 0⟩

/-- The form of the line after `render`. -/
def renderForm : Form Switch :=
  ⟨helpSwitches ++ [(lit "--edit", .edit), (lit "--variables", .values), (lit "--today", .today),
    (lit "--output", .output), (lit "-o", .output)], Switch.valued, 2⟩

/-- The form of the line after `harvest`. -/
def harvestForm : Form Switch := ⟨helpSwitches, Switch.valued, 1⟩

/-- The form of the line after `serve`. -/
def serveForm : Form Switch :=
  ⟨helpSwitches ++ [(lit "--host", .host), (lit "--port", .port), (lit "--reload", .reload)],
    Switch.valued, 0⟩

/-- Takes a switch of `render` in. -/
def Render.set (r : Render) : Switch → Option Text → Except Stop Render
  | .help, _ => .error .help
  | .edit, _ => .ok { r with editing := true }
  | .values, some path => .ok { r with values := some (Text.normalPath path) }
  | .output, some path => .ok { r with output := some (Text.normalPath path) }
  | .today, some day => match Iso.readDate? day with
    | some d => .ok { r with today := some d }
    | none => .error .misuse
  | _, _ => .error .misuse

/-- Takes a switch of `harvest` in. -/
def setHelp (u : Unit) : Switch → Option Text → Except Stop Unit
  | .help, _ => .error .help
  | _, _ => .ok u

/-- Takes a switch of `serve` in. -/
def Serve.set (s : Serve) : Switch → Option Text → Except Stop Serve
  | .help, _ => .error .help
  | .reload, _ => .ok { s with reload := true }
  | .host, some host => .ok { s with host := host }
  | .port, some port => match Integer.ofText? port with
    | some n => .ok { s with port := n }
    | none => .error .misuse
  | _, _ => .error .misuse

/-- The path of a place, if a word fills it. -/
def pathAt (places : List (Option Text)) (index : Nat) : Option Text :=
  (places[index]?.getD none).map Text.normalPath

/-- Reads the line after `render`. -/
def ofRender (words : List Text) : Except Stop Command := do
  let (r, places) ← fill renderForm Render.set ⟨none, none, false, none, none, none⟩ words
  return .render { r with template := pathAt places 0, estimate := pathAt places 1 }

/-- Reads the line after `harvest`. -/
def ofHarvest (words : List Text) : Except Stop Command := do
  let (_, places) ← fill harvestForm setHelp () words
  return .harvest (pathAt places 0)

/-- Reads the line after `serve`. -/
def ofServe (words : List Text) : Except Stop Command := do
  let (s, _) ← fill serveForm Serve.set ⟨lit "0.0.0.0", 8000, false⟩ words
  return .serve s

/-- Reads the line after the name of a command. -/
def named (name : Text) (words : List Text) : Except Stop Command :=
  if name = lit "render" then ofRender words
  else if name = lit "harvest" then ofHarvest words
  else if name = lit "serve" then ofServe words
  else .error .misuse

/-- Reads a command line; `extra` says whether a word before it is left over. -/
def ofWordsFrom (extra : Bool) : List Text → Except Stop Command
  | [] => .error .misuse
  | w :: rest =>
    if w = dashes then .error .misuse
    else match Word.read helpSwitches w with
      | .plain => do
        let c ← named w rest
        if extra then .error .misuse else .ok c
      | .switch name s attached => match (switchItems form name s attached rest).1 with
        | .switch .help _ :: _ => .error .help
        | _ => .error .misuse
      | .unknown => ofWordsFrom true rest
      | .ambiguous => .error .misuse

/-- Reads a command line. -/
def ofWords (words : List Text) : Except Stop Command :=
  ofWordsFrom false words

/-- The paths that a command reads files from. -/
def reads : Command → List Text
  | .render r => [r.template, r.estimate, r.values].filterMap id
  | .harvest page => [page].filterMap id
  | .serve _ => []

/-- The path that a command writes to, if any. -/
def writes? : Command → Option Text
  | .render r => r.output
  | _ => none

theorem ofWords_nil : ofWords [] = .error .misuse := rfl

theorem ofWords_help (rest : List Text) : ofWords (lit "--help" :: rest) = .error .help := by
  have hd : lit "--help" ≠ dashes := by decide +kernel
  have hr : Word.read helpSwitches (lit "--help") = .switch (lit "--help") .help none :=
    read_name (by decide +kernel) (by decide +kernel)
  simp only [ofWords, ofWordsFrom, hd, if_false, hr]
  rfl

end Command
end Tender
