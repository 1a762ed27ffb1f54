/-
Helpers: the functions that a template can call.

A helper takes positional arguments and named options.  An argument is a value or the diagnostic
of a helper that failed; a helper that does not look for diagnostics sees such a one as text.

Main statement: `Signature.bindAll_positional`, a call without options is accepted where any number of
arguments is.
-/
import Tender.Fault
import Tender.Value.Print

namespace Tender

/-- What an expression comes to: a value, or the diagnostic that stands for a failed helper. -/
inductive Outcome where
  | value (v : Value)
  | failure (html : Text)

/-- The outcome as a value; a diagnostic counts as its text. -/
def Outcome.toValue : Outcome → Value
  | .value v => v
  | .failure html => .text html

/-- The text of an outcome. -/
def Outcome.toText (o : Outcome) : Text :=
  o.toValue.toText

/-- The arguments of a call. -/
structure Arguments where
  positional : List Outcome
  options : Entries Outcome

/-- A function that templates can call. -/
abbrev Helper := Arguments → Except Fault Outcome

/-- The parameters of a helper that takes a fixed number of them. -/
structure Signature where
  /-- The name that messages give the helper. -/
  name : Text
  required : List Text
  optional : List Text

namespace Signature

/-- All parameters, the required ones first. -/
def parameters (s : Signature) : List Text :=
  s.required ++ s.optional

/-- Adds the options to the parameters already filled from positional arguments. -/
def fill (s : Signature) : Entries Outcome → Entries Outcome → Except CallFault (Entries Outcome)
  | filled, [] => .ok filled
  | filled, (key, o) :: more =>
    if key ∈ s.parameters then
      if (Entries.get? key filled).isSome then .error (.repeated key)
      else s.fill (filled ++ [(key, o)]) more
    else .error (.unexpected key)

/-- The value of each parameter that a call gives. -/
def bindEntries (s : Signature) (args : Arguments) : Except CallFault (Entries Outcome) := do
  let filled ← s.fill (s.parameters.zip args.positional) args.options
  if s.parameters.length < args.positional.length then
    throw (.tooMany s.required.length s.parameters.length args.positional.length)
  let missing := s.required.filter fun p => (Entries.get? p filled).isNone
  if missing ≠ [] then throw (.missing missing)
  return filled

/-- The values of the parameters, in order; none for an optional one that is not given. -/
def bind (s : Signature) (args : Arguments) : Except Fault (List (Option Outcome)) :=
  match s.bindEntries args with
  | .ok filled => .ok (s.parameters.map fun p => Entries.get? p filled)
  | .error f => .error (.call s.name f)

/-- Accepts any number of positional arguments but no options. -/
def bindAll (name : Text) (args : Arguments) : Except Fault (List Outcome) :=
  match args.options with
  | [] => .ok args.positional
  | (key, _) :: _ => .error (.call name (.unexpected key))

theorem bindAll_positional (name : Text) (os : List Outcome) :
    bindAll name ⟨os, []⟩ = .ok os := rfl

end Signature

/-- A helper with options that it is given on every call unless the call sets them. -/
def Helper.preset (options : Entries Outcome) (h : Helper) : Helper := fun args =>
  h ⟨args.positional, Entries.putAll args.options options⟩

end Tender
