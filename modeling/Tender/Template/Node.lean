/-
The tree of a page.

Pieces are read in order into the innermost open block; a block that is closed becomes a node.  A tag
that cannot be read leaves a problem in its place and changes nothing else, but an `else` tag
has ended the first branch before its own chain is read.

Main statement: `Builder.addText_plain`.
-/
import Tender.Template.Piece
import Tender.Template.Term

namespace Tender

/-- The kinds of block. -/
inductive BlockKind where
  | each
  | when
  | unless
  | scope
  deriving DecidableEq

/-- The name of a kind of block in tags. -/
def BlockKind.name : BlockKind → Text
  | .each => ['e', 'a', 'c', 'h']
  | .when => ['i', 'f']
  | .unless => ['u', 'n', 'l', 'e', 's', 's']
  | .scope => ['w', 'i', 't', 'h']

/-- The kind of block with a name. -/
def BlockKind.ofName? (name : Text) : Option BlockKind :=
  [BlockKind.each, .when, .unless, .scope].find? fun k => k.name = name

/-- A node of a page. -/
inductive Node where
  | text (s : Text)
  | problem (p : Problem)
  /-- A value that is shown, as text or as markup (`raw`). -/
  | shown (e : Expr) (raw : Bool)
  /-- A block; one that is `tooDeep` shows a problem instead of its branches. -/
  | block (kind : BlockKind) (param : Expr) (token : Text) (tooDeep : Bool) (body inverse : List Node)

/-- A block that is still open. -/
structure OpenBlock where
  kind : BlockKind
  param : Expr
  token : Text
  /-- Opened by an `else` tag, and closed with the block that the tag belongs to. -/
  chained : Bool
  tooDeep : Bool
  /-- The nodes in front of the block, the last one first. -/
  before : List Node
  /-- The first branch, the last node first, once an `else` tag has ended it. -/
  body : Option (List Node)

/-- What has been read of a page. -/
structure Builder where
  /-- The nodes of the innermost open branch, the last one first. -/
  nodes : List Node
  stack : List OpenBlock
  /-- Whether the text that follows loses the blanks at its start. -/
  strip : Bool
  /-- The problems found, the last one first. -/
  problems : List Problem

namespace Builder

/-- Nothing read yet. -/
def start : Builder := ⟨[], [], false, []⟩

/-- Adds text; no node is added for none. -/
def addText (b : Builder) (s : Text) : Builder :=
  let s := if b.strip then Text.trimStart s else s
  { b with strip := false, nodes := if s = [] then b.nodes else .text s :: b.nodes }

theorem addText_plain {b : Builder} {s : Text} (h : b.strip = false) (hs : s ≠ []) :
    (b.addText s).nodes = .text s :: b.nodes := by
  simp [addText, h, hs]

/-- Adds a problem where it was found. -/
def addProblem (b : Builder) (p : Problem) : Builder :=
  { b with problems := p :: b.problems, nodes := .problem p :: b.nodes }

/-- The text before a tag loses the blanks at its end. -/
def stripBefore (b : Builder) : Builder :=
  match b.nodes with
  | .text s :: rest => { b with nodes := .text (Text.trimEnd s) :: rest }
  | _ => b

/-- Adds what a tag was read as, or the problem with it. -/
def settle {α : Type} (b : Builder) (token : Text) (r : Reading α) (add : α → Builder) :
    Except Fault Builder :=
  match r with
  | .ok a => .ok (add a)
  | .error (.problem cause) => .ok (b.addProblem ⟨cause, some token⟩)
  | .error (.fault f) => .error f

/-- Adds a tag that shows a value. -/
def addShown (isHelper : Text → Bool) (b : Builder) (token body : Text) (raw : Bool) :
    Except Fault Builder :=
  b.settle token (Expr.readShown isHelper body) fun e => { b with nodes := .shown e raw :: b.nodes }

/-- The text before and after the first space. -/
def splitName (s : Text) : Text × Text :=
  (Text.cut [' '] s).getD (s, [])

/-- The kind and the parameter of a block tag. -/
def readBlock (isHelper : Text → Bool) (allowNames : Bool) (s : Text) :
    Reading (BlockKind × Expr) :=
  let (name, rest) := splitName s
  match BlockKind.ofName? name with
  | none => refuse (.unknownBlock name)
  | some kind =>
    if !allowNames && Text.occursIn [' ', 'a', 's', ' ', '|'] rest then refuse .blockParameters
    else (Expr.readParameter isHelper rest).map fun e => (kind, e)

/-- How many blocks are open, chained ones apart. -/
def depth (b : Builder) : Nat :=
  b.stack.countP fun o => !o.chained

/-- Opens a block. -/
def openBlock (isHelper : Text → Bool) (maxDepth : Nat) (b : Builder) (token s : Text) :
    Except Fault Builder :=
  b.settle token (readBlock isHelper false s) fun (kind, param) =>
    { b with
      nodes := []
      stack := ⟨kind, param, token, false, maxDepth < b.depth + 1, b.nodes, none⟩ :: b.stack }

/-- Ends the first branch of the innermost block, and opens a chained block in the second if the tag
names one. -/
def addElse (isHelper : Text → Bool) (b : Builder) (token chain : Text) : Except Fault Builder :=
  match b.stack with
  | [] => .ok (b.addProblem ⟨.elseOutside, some token⟩)
  | top :: outer =>
    if top.body.isSome then .ok (b.addProblem ⟨.duplicateElse, some token⟩)
    else
      let b := { b with nodes := [], stack := { top with body := some b.nodes } :: outer }
      if chain = [] then .ok b
      else
        b.settle token (readBlock isHelper true chain) fun (kind, param) =>
          { b with stack := ⟨kind, param, token, true, false, b.nodes, none⟩ :: b.stack }

/-- The node of a block whose innermost branch is `nodes` (reversed). -/
def OpenBlock.close (o : OpenBlock) (nodes : List Node) : Node :=
  match o.body with
  | none => .block o.kind o.param o.token o.tooDeep nodes.reverse []
  | some body => .block o.kind o.param o.token o.tooDeep body.reverse nodes.reverse

/-- Closes the chained blocks on top of a stack and the block that they belong to. -/
def closeChain : List OpenBlock → List Node → List OpenBlock × List Node
  | [], nodes => ([], nodes)
  | o :: stack, nodes =>
    let nodes := OpenBlock.close o nodes :: o.before
    if o.chained then closeChain stack nodes else (stack, nodes)

/-- Closes the innermost block that is not chained, if it has the name. -/
def closeBlock (b : Builder) (token name : Text) : Builder :=
  match b.stack.find? fun o => !o.chained with
  | none => b.addProblem ⟨.unexpectedClose, some token⟩
  | some o =>
    if o.kind.name = name then
      let (stack, nodes) := closeChain b.stack b.nodes
      { b with stack := stack, nodes := nodes }
    else b.addProblem ⟨.mismatchedClose o.token, some token⟩

/-- The word of a tag between two branches. -/
def elseWord : Text := ['e', 'l', 's', 'e']

/-- Adds a tag by its trimmed body. -/
def addTag (isHelper : Text → Bool) (maxDepth : Nat) (b : Builder) (token body : Text) :
    Except Fault Builder :=
  if body = ['^'] ∨ body = elseWord then b.addElse isHelper token []
  else match Text.after? (elseWord ++ [' ']) body with
    | some chain => b.addElse isHelper token (Text.trim chain)
    | none => match body with
      | '#' :: s => b.openBlock isHelper maxDepth token s
      | '/' :: s => .ok (b.closeBlock token (Text.trim s))
      | '>' :: _ => .ok (b.addProblem ⟨.unsupportedTag, some token⟩)
      | '^' :: _ => .ok (b.addProblem ⟨.unsupportedTag, some token⟩)
      | '&' :: s => b.addShown isHelper token s true
      | s => b.addShown isHelper token s false

/-- A tag's body without the tildes at its ends, and whether they were there. -/
def splitTildes (body : Text) : Bool × Text × Bool :=
  let (left, inner) := match body with
    | '~' :: s => (true, s)
    | s => (false, s)
  match inner.getLast? with
  | some '~' => (left, inner.dropLast, true)
  | _ => (left, inner, false)

/-- Adds a piece of the page. -/
def add (isHelper : Text → Bool) (maxTags maxDepth : Nat) (b : Builder) :
    Piece → Except Fault Builder
  | .text s => .ok (b.addText s)
  | .comment _ => .ok b
  | .raw body => b.addShown isHelper (['{', '{', '{'] ++ body ++ ['}', '}', '}']) body true
  | .tag body =>
    let (left, inner, right) := splitTildes body
    let b := if left then b.stripBefore else b
    { b with strip := right }.addTag isHelper maxDepth (Piece.opening ++ body ++ Piece.closing)
      (Text.trim inner)
  | .unclosed rest => .ok ((b.addProblem ⟨.unclosedTag (rest.take 40), none⟩).addText rest)
  | .overLimit rest => .ok ((b.addProblem ⟨.tooManyTags maxTags, none⟩).addText rest)

/-- Puts the branches of the blocks that are still open in the place of the blocks, each block that
is not chained with a problem in front. -/
def spliceOpen : List OpenBlock → List Node → List Problem → List Node × List Problem
  | [], nodes, problems => (nodes, problems)
  | o :: stack, nodes, problems =>
    let content := nodes ++ o.body.getD []
    if o.chained then spliceOpen stack (content ++ o.before) problems
    else
      let p : Problem := ⟨.unclosedBlock, some o.token⟩
      spliceOpen stack (content ++ .problem p :: o.before) (p :: problems)

end Builder

mutual
/-- The problems that show when a page is written: blocks that are too deep. -/
def Node.depthProblems (maxDepth : Nat) : Node → List Problem
  | .block _ _ token tooDeep body inverse =>
    if tooDeep then [⟨.tooDeep maxDepth, some token⟩]
    else Node.depthProblemsOf maxDepth body ++ Node.depthProblemsOf maxDepth inverse
  | _ => []

/-- The depth problems of nodes in order. -/
def Node.depthProblemsOf (maxDepth : Nat) : List Node → List Problem
  | [] => []
  | n :: ns => n.depthProblems maxDepth ++ Node.depthProblemsOf maxDepth ns
end

/-- A page that has been read: its nodes, and all its problems. -/
structure Page where
  nodes : List Node
  problems : List Problem

/-- Reads a page. -/
def Page.read (isHelper : Text → Bool) (maxTags maxDepth : Nat) (source : Text) :
    Except Fault Page := do
  let b ← (Piece.ofPage maxTags source).foldlM (Builder.add isHelper maxTags maxDepth) Builder.start
  let (nodes, problems) := Builder.spliceOpen b.stack b.nodes b.problems
  return ⟨nodes.reverse, problems.reverse ++ Node.depthProblemsOf maxDepth nodes.reverse⟩

end Tender
