/-
Writing a page against data.

Main statements: `renderAll_append`, a page is written node by node, and `no_brace_showOutcome`, no
brace comes out of data.
-/
import Tender.Helper.Table
import Tender.Template.Node

namespace Tender

/-- Where a loop is. -/
structure Loop where
  index : Nat
  key : Value
  isLast : Bool

/-- What paths start from: a value, and the loop that it belongs to, if any. -/
structure Scope where
  value : Value
  loop : Option Loop

/-- What expressions are evaluated in: the helpers, the whole context, and the scopes, the innermost
one first. -/
structure Surroundings where
  helpers : Helpers
  root : Value
  scopes : List Scope

namespace Surroundings

/-- The same surroundings with one more scope. -/
def push (env : Surroundings) (s : Scope) : Surroundings :=
  { env with scopes := s :: env.scopes }

/-- The value that is `ups` scopes further out, at most the outermost one. -/
def scopeAt (env : Surroundings) (ups : Nat) : Value :=
  match env.scopes[ups]? with
  | some s => s.value
  | none => (env.scopes.getLast?.map Scope.value).getD env.root

/-- The variable of the innermost loop; none outside of loops and for other names. -/
def loopVariable? (env : Surroundings) (name : Text) : Option Value :=
  (env.scopes.findSome? Scope.loop).bind fun l =>
    if name = lit "index" then some (.int l.index)
    else if name = lit "key" then some l.key
    else if name = lit "first" then some (.bool (l.index == 0))
    else if name = lit "last" then some (.bool l.isLast)
    else none

end Surroundings

namespace Value

/-- The key of a list or a text that stands for its length. -/
def lengthKey : Text := ['l', 'e', 'n', 'g', 't', 'h']

/-- The value under one segment of a path: an entry of a map, an item or the length of a list, the
length of a text. -/
def step (v : Value) (segment : Text) : Except Fault Value :=
  match v with
  | .map es => .ok ((Entries.get? segment es).getD .null)
  | .list xs =>
    if segment = lengthKey then .ok (.int xs.length)
    else if segment ≠ [] ∧ segment.all Text.isDigitLike then
      (Integer.ofDigits segment).map fun i => xs[i]?.getD .null
    else .ok .null
  | .text s => .ok (if segment = lengthKey then .int s.length else .null)
  | _ => .ok .null

/-- The value under a path. -/
def walk (v : Value) (segments : List Text) : Except Fault Value :=
  segments.foldlM (fun v s => v.step (Text.split s)) v

/-- A literal as data: the wide characters of a text count as their halves. -/
def literal : Value → Value
  | .text s => .text (Text.split s)
  | v => v

/-- The items that a loop goes through, with their keys. -/
def entries : Value → List (Value × Value)
  | .map es => es.map fun (k, v) => (.text k, v)
  | .list xs => xs.mapIdx fun i v => (.int i, v)
  | _ => []

end Value

/-- Whether a block shows for an outcome; never for a helper that failed. An integer is tested as
a float, so one beyond the range of floats is a fault. -/
def Outcome.truth : Outcome → Except Fault Bool
  | .value (.int n) =>
    if n = 0 ∨ (Binary64.ofInt? n).isSome then .ok (n != 0) else .error .tooLarge
  | .value v => .ok v.isTruthy
  | .failure _ => .ok false

/-- The items that a loop over an outcome goes through. -/
def Outcome.entries : Outcome → List (Value × Value)
  | .value v => v.entries
  | .failure _ => []

namespace Expr

/-- The value of a path. -/
def evalPath (env : Surroundings) : Path → Except Fault Value
  | .scope ups _ segments => (env.scopeAt ups).walk segments
  | .root segments => env.root.walk segments
  | .loop name => .ok ((env.loopVariable? name).getD .null)

/-- Calls a helper; a failure becomes a diagnostic. -/
def callHelper (env : Surroundings) (name : Text) (args : Arguments) : Outcome :=
  match Entries.get? name env.helpers with
  | none => .value .null
  | some h => match h args with
    | .ok o => o
    | .error f => .failure (Problem.diagnostic ⟨.helperFailed name f.message, none⟩)

mutual
/-- What an expression comes to. -/
def eval (env : Surroundings) : Expr → Except Fault Outcome
  | .literal v => .ok (.value v.literal)
  | .path p => (evalPath env p).map .value
  | .call name options args => do
    let options ← evalOptions env options
    let args ← evalArgs env args
    return callHelper env name ⟨args, options⟩

/-- The values of options in order. -/
def evalOptions (env : Surroundings) : List (Text × Expr) → Except Fault (Entries Outcome)
  | [] => .ok []
  | (k, e) :: rest => do
    let o ← eval env e
    let os ← evalOptions env rest
    return (k, o) :: os

/-- The values of arguments in order. -/
def evalArgs (env : Surroundings) : List Expr → Except Fault (List Outcome)
  | [] => .ok []
  | e :: rest => do
    let o ← eval env e
    let os ← evalArgs env rest
    return o :: os
end

/-- The value of an expression that does not depend on data: a literal, or a loop variable where
there is none. -/
def constant? (env : Surroundings) : Expr → Option Value
  | .literal v => some v.literal
  | .path (.loop name) => if (env.loopVariable? name).isNone then some .null else none
  | _ => none

end Expr

namespace Node

/-- A constant as it is shown: plainly, and escaped unless `raw`. -/
def showConstant (raw : Bool) (v : Value) : Text :=
  if raw then Text.encodeBraces v.toText else Text.safe v.toText

/-- An outcome as it is shown. -/
def showOutcome (raw : Bool) : Outcome → Text
  | .failure html => Text.encodeBraces html
  | .value v =>
    if raw then Text.encodeBraces v.toText
    else if v.isNull then [] else Text.safe v.display

theorem no_brace_showOutcome {raw : Bool} {o : Outcome} {c : Char} (h : c ∈ showOutcome raw o) :
    c ≠ '{' ∧ c ≠ '}' := by
  unfold showOutcome at h
  split at h
  · exact Text.no_brace_encodeBraces h
  · split at h
    · exact Text.no_brace_encodeBraces h
    · split at h
      · simp at h
      · exact Text.no_brace_encodeBraces h

/-- A shown expression. -/
def showExpr (env : Surroundings) (e : Expr) (raw : Bool) : Except Fault Text :=
  match e.constant? env with
  | some v => .ok (showConstant raw v)
  | none => (e.eval env).map (showOutcome raw)

/-- Runs a loop body for each entry, the number of the first being `index`. -/
def renderLoop (env : Surroundings) (body : Surroundings → Except Fault Text) :
    (index : Nat) → List (Value × Value) → Except Fault Text
  | _, [] => .ok []
  | index, (key, item) :: rest => do
    let a ← body (env.push ⟨item, some ⟨index, key, rest.isEmpty⟩⟩)
    let b ← renderLoop env body (index + 1) rest
    return a ++ b

mutual
/-- Writes a node. -/
def render (maxDepth : Nat) (env : Surroundings) : Node → Except Fault Text
  | .text s => .ok s
  | .problem p => .ok p.diagnostic
  | .shown e raw => showExpr env e raw
  | .block kind param token tooDeep body inverse =>
    if tooDeep then .ok (Problem.diagnostic ⟨.tooDeep maxDepth, some token⟩)
    else do
      let o ← param.eval env
      match kind with
      | .when =>
        if ← o.truth then renderAll maxDepth env body else renderAll maxDepth env inverse
      | .unless =>
        if ← o.truth then renderAll maxDepth env inverse else renderAll maxDepth env body
      | .scope =>
        if ← o.truth then renderAll maxDepth (env.push ⟨o.toValue, none⟩) body
        else renderAll maxDepth env inverse
      | .each => match o.entries with
        | [] => renderAll maxDepth env inverse
        | first :: rest => renderLoop env (fun env => renderAll maxDepth env body) 0 (first :: rest)

/-- Writes nodes in order. -/
def renderAll (maxDepth : Nat) (env : Surroundings) : List Node → Except Fault Text
  | [] => .ok []
  | n :: ns => do
    let a ← render maxDepth env n
    let b ← renderAll maxDepth env ns
    return a ++ b
end

theorem renderAll_append (maxDepth : Nat) (env : Surroundings) (a b : List Node) :
    renderAll maxDepth env (a ++ b) = (do
      let x ← renderAll maxDepth env a
      let y ← renderAll maxDepth env b
      return x ++ y) := by
  induction a with
  | nil =>
    simp only [List.nil_append, renderAll]
    cases renderAll maxDepth env b <;> rfl
  | cons n a ih =>
    simp only [List.cons_append, renderAll, ih]
    cases render maxDepth env n <;> cases renderAll maxDepth env a <;>
      cases renderAll maxDepth env b <;> simp [bind, Except.bind, pure, Except.pure]

end Node
end Tender
