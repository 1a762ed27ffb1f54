/-
Reading expressions.

The lexemes of a tag are read one after the other by a machine whose state is a stack of the calls
that are still open.

Main statements: `length_segment`, a segment uses up some of its path, and `segment?_bracketed`, a
bracketed segment names just the key between the brackets.
-/
import Tender.Number.Integer
import Tender.Template.Expr
import Tender.Template.Lexeme
import Tender.Template.Problem

namespace Tender

/-- Why a piece of a template is not read: a problem of the tag, or a fault that ends the reading of
the whole template. -/
inductive Refusal where
  | problem (cause : Problem.Cause)
  | fault (f : Fault)

/-- What a reading comes to. -/
abbrev Reading := Except Refusal

/-- Refuses for a cause. -/
def refuse {α : Type} (cause : Problem.Cause) : Reading α :=
  .error (.problem cause)

namespace Path

/-- A character of a segment without brackets. -/
def isSegmentChar (c : Char) : Bool :=
  !(c == '.' || c == '/' || c == '[' || c == ']')

/-- Reads the segment at the start of a text. -/
def segment? : Text → Option (Text × Text)
  | '[' :: s =>
    match s.dropWhile (· != ']') with
    | _ :: rest => some (s.takeWhile (· != ']'), rest)
    | [] => none
  | s => match s.takeWhile isSegmentChar with
    | [] => none
    | c :: name => some (c :: name, s.dropWhile isSegmentChar)

theorem length_segment {s a b : Text} (h : segment? s = some (a, b)) : b.length < s.length := by
  unfold segment? at h
  split at h
  · rename_i s
    split at h
    · rename_i c rest hd
      obtain ⟨-, rfl⟩ := Prod.mk.inj (Option.some.inj h)
      have := (List.dropWhile_sublist (· != ']') (l := s)).length_le
      rw [hd, List.length_cons] at this
      simp only [List.length_cons]; omega
    · simp at h
  · split at h
    · simp at h
    · rename_i c name ht
      obtain ⟨-, rfl⟩ := Prod.mk.inj (Option.some.inj h)
      have := congrArg List.length (List.takeWhile_append_dropWhile (p := isSegmentChar) (l := s))
      rw [ht, List.length_append, List.length_cons] at this
      omega

theorem segment?_bracketed {key rest : Text} (h : ']' ∉ key) :
    segment? ('[' :: key ++ ']' :: rest) = some (key, rest) := by
  have hk : ∀ c ∈ key, (c != ']') = true := fun c hc => by
    simp only [bne_iff_ne, ne_eq]
    rintro rfl
    exact h hc
  simp only [segment?, List.cons_append]
  rw [List.dropWhile_append_of_pos hk, List.takeWhile_append_of_pos hk]
  simp

/-- The segments of a path, each but the last with a point or a slash after it. -/
def segments? (done : List Text) (s : Text) : Option (List Text) :=
  match _h : segment? s with
  | none => none
  | some (name, []) => some (name :: done).reverse
  | some (name, c :: rest) =>
    if (c = '.' ∨ c = '/') ∧ rest ≠ [] then segments? (name :: done) rest else none
termination_by s.length
decreasing_by
  have := length_segment _h
  simp only [List.length_cons] at this
  omega

/-- Takes the steps outward off the start of a path. -/
def takeUps : (ups : Nat) → Text → Nat × Text
  | n, '.' :: '.' :: '/' :: s => takeUps (n + 1) s
  | n, s => (n, s)

/-- The segments of a path that may not be empty. -/
def readSegments (s : Text) : Reading (List Text) :=
  if s = [] then refuse .emptyPath
  else match segments? [] s with
    | some segments => .ok segments
    | none => refuse (.invalidPath s)

/-- The word that names the scope itself. -/
def thisWord : Text := ['t', 'h', 'i', 's']

/-- A path of a loop variable or from the whole context. -/
def readData : List Text → Reading Path
  | [] => .error (.fault .emptyDataPath)
  | name :: rest =>
    if name = ['r', 'o', 'o', 't'] then .ok (.root rest)
    else if rest ≠ [] then refuse (.unsupportedDataPath (Text.joinWith ['.'] (name :: rest)))
    else if name = [] then .ok (.scope 0 false [])
    else .ok (.loop name)

/-- Reads a path. -/
def read (word : Text) : Reading Path :=
  let (data, body) := match word with
    | '@' :: s => (true, s)
    | s => (false, s)
  let (ups, body) := takeUps 0 body
  if body = thisWord ∨ body = ['.'] then .ok (.scope ups true [])
  else
    let (dotted, body) := match body with
      | '.' :: '/' :: s => (true, s)
      | s => (false, s)
    match readSegments body with
    | .error e => .error e
    | .ok segments =>
      let named := segments.head? = some thisWord ∧ word.head? ≠ some '['
      let segments := if named then segments.drop 1 else segments
      if data then readData segments
      else .ok (.scope ups (dotted || named) segments)

end Path

namespace Expr

/-- The shape of a numeral: a sign, digits, and a fraction after a point. -/
def numeral? (word : Text) : Option (Bool × Text × Option Text) :=
  let (negative, body) := match word with
    | '-' :: s => (true, s)
    | s => (false, s)
  let whole := body.takeWhile Text.isDecimal
  match whole, body.dropWhile Text.isDecimal with
  | [], _ => none
  | _, [] => some (negative, whole, none)
  | _, '.' :: fraction =>
    if fraction ≠ [] ∧ fraction.all Text.isDecimal then some (negative, whole, some fraction)
    else none
  | _, _ => none

/-- Reads a numeral as an integer, or as a float if it has a fraction. -/
def readNumeral (word : Text) : Bool × Text × Option Text → Reading Expr
  | (negative, whole, none) => match Integer.ofDigits whole with
    | .ok n => .ok (.literal (.int (if negative then -(n : Int) else n)))
    | .error f => .error (.fault f)
  | (negative, whole, some fraction) =>
    match Binary64.ofScientific negative (Integer.value (whole ++ fraction))
        (-(fraction.length : Int)) with
    | .finite s r => .ok (.literal (.float (.finite s r)))
    | _ => refuse (.numberOutOfRange word)

/-- The words that stand for values. -/
def keyword? (word : Text) : Option Value :=
  if word = lit "true" then some (.bool true)
  else if word = lit "false" then some (.bool false)
  else if word = lit "null" ∨ word = lit "undefined" then some .null
  else none

/-- What a quoted text stands for: an escaped quote is a quote. -/
def unquote (s : Text) : Text :=
  Text.replace ['\\', '\''] ['\''] (Text.replace ['\\', '"'] ['"'] s)

/-- Reads a word. -/
def readWord (word : Text) : Reading Expr :=
  match keyword? word with
  | some v => .ok (.literal v)
  | none => match numeral? word with
    | some n => readNumeral word n
    | none => (Path.read word).map .path

/-- The arguments read so far of a call or of the whole tag. -/
structure Frame where
  /-- The helper that is called; none for the whole tag. -/
  head : Option Text
  /-- The positional arguments, the last one first. -/
  args : List Expr
  options : Entries Expr
  /-- An option whose value comes next. -/
  key : Option Text

/-- A frame with nothing read yet. -/
def Frame.start (head : Option Text) : Frame :=
  ⟨head, [], [], none⟩

/-- The state of the reading: the innermost frame, the frames around it, and whether the name of a
helper comes next. -/
structure Machine where
  top : Frame
  outer : List Frame
  naming : Bool

/-- Adds a term to a frame. -/
def Frame.add (f : Frame) (e : Expr) : Frame :=
  match f.key with
  | some k => { f with options := Entries.put k e f.options, key := none }
  | none => { f with args := e :: f.args }

/-- Whether a term may come next in a frame. -/
def Frame.checkTerm (f : Frame) : Reading Unit :=
  if f.key.isNone ∧ f.options ≠ [] then refuse .positionalAfterOption else .ok ()

/-- Adds a term that is read from one lexeme. -/
def Machine.addTerm (m : Machine) (term : Reading Expr) : Reading Machine := do
  m.top.checkTerm
  let e ← term
  return { m with top := m.top.add e }

/-- Reads one lexeme. -/
def Machine.step (isHelper : Text → Bool) (m : Machine) (l : Lexeme) : Reading Machine :=
  if m.naming then
    match l with
    | .word name =>
      if isHelper name then .ok ⟨Frame.start (some name), m.top :: m.outer, false⟩
      else refuse (.missingHelper (some name))
    | l => refuse (.missingHelper (some l.text))
  else
    match l with
    | .closed =>
      match m.top.key, m.top.head, m.outer with
      | none, some name, next :: outer =>
        .ok ⟨next.add (.call name m.top.options m.top.args.reverse), outer, false⟩
      | _, _, _ => refuse (.unexpected l.text)
    | .key k =>
      if m.top.key.isSome then refuse (.unexpected k)
      else .ok { m with top := { m.top with key := some k } }
    | .opened => m.top.checkTerm.map fun _ => { m with naming := true }
    | .quoted s => m.addTerm (.ok (.literal (.text (unquote s))))
    | .word w => m.addTerm (readWord w)

/-- The terms of a tag: positional ones and options. -/
def readTerms (isHelper : Text → Bool) (lexemes : List Lexeme) :
    Reading (List Expr × Entries Expr) := do
  let m ← lexemes.foldlM (Machine.step isHelper) ⟨Frame.start none, [], false⟩
  if m.naming ∨ m.top.key.isSome ∨ m.outer ≠ [] then refuse .endOfExpression
  else return (m.top.args.reverse, m.top.options)

/-- The terms of a text. -/
def ofText (isHelper : Text → Bool) (s : Text) : Reading (List Expr × Entries Expr) :=
  match Lexeme.ofText? (Text.trim s) with
  | some lexemes => readTerms isHelper lexemes
  | none => refuse .unexpectedCharacter

/-- The expression of a tag that shows a value: a single term, or a helper with its arguments. -/
def readShown (isHelper : Text → Bool) (s : Text) : Reading Expr := do
  let (args, options) ← ofText isHelper s
  match args with
  | [] => refuse .emptyExpression
  | head :: rest =>
    let name := match head with
      | .path p => p.simpleName?
      | _ => none
    match name.filter isHelper with
    | some helper => return .call helper options rest
    | none =>
      if rest ≠ [] ∨ options ≠ [] then refuse (.missingHelper name) else return head

/-- The parameter of a block. -/
def readParameter (isHelper : Text → Bool) (s : Text) : Reading Expr := do
  let (args, options) ← ofText isHelper s
  match args, options with
  | [param], [] => return param
  | _, _ => refuse .blockArity

end Expr
end Tender
