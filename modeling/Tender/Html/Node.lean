/-
Pages of HTML as trees.

An end tag closes the innermost open element of its name and all elements inside that one; without
such an element it closes nothing.  Elements that can have no content are closed at once, and an end
tag for one of them is then not looked at.  Text that is not shown is left out, and blanks between
tags become one.

Main statements: `shown_append`, the shown text of nodes is the text of the first and then of the
rest, and `collapse_of_visible`, a text with something to see stays as it is.
-/
import Tender.Html.Event

namespace Tender.Html

/-- A part of a page. -/
inductive Node where
  | text (s : Text)
  | element (name : Text) (attributes : Entries Text) (children : List Node)

/-- The elements that can have no content. -/
def voidElements : List Text :=
  ["area", "base", "br", "col", "embed", "hr", "img", "input", "keygen", "link", "menuitem", "meta",
   "param", "source", "track", "wbr", "basefont", "bgsound", "command", "frame", "image", "isindex",
   "nextid", "spacer"].map lit

/-- The elements whose blanks all count. -/
def spacedElements : List Text := [lit "pre", lit "textarea"]

/-- The elements whose text is not shown with the rest. -/
def apartElements : List Text :=
  ["rt", "rp", "style", "script", "template"].map lit

/-- An element that is open, with its children so far (reversed). -/
structure OpenElement where
  name : Text
  attributes : Entries Text
  children : List Node

/-- A tree that is being built. -/
structure Builder where
  /-- The finished parts of the page outside all open elements (reversed). -/
  nodes : List Node
  /-- The open elements, the innermost first. -/
  opened : List OpenElement
  /-- The pieces of text read since the last tag (reversed), if there are any. -/
  pending : List Text
  /-- The void elements that were closed at once and whose end tags may still come. -/
  closed : List Text

namespace Builder

/-- Nothing built yet. -/
def empty : Builder := ⟨[], [], [], []⟩

/-- Whether one of these elements is open. -/
def isInside (b : Builder) (names : List Text) : Bool :=
  b.opened.any fun e => names.contains e.name

/-- Adds a part to the innermost open element. -/
def add (b : Builder) (n : Node) : Builder :=
  match b.opened with
  | [] => { b with nodes := n :: b.nodes }
  | e :: outer => { b with opened := { e with children := n :: e.children } :: outer }

/-- A blank that is not kept. -/
def isLooseBlank (c : Char) : Bool :=
  [' ', '\n', '\t', '\x0c', '\r'].contains c

/-- A text of blanks as one blank, a line break if there is one. -/
def collapse (s : Text) : Text :=
  if s.all isLooseBlank then (if s.contains '\n' then ['\n'] else [' ']) else s

theorem collapse_of_visible {s : Text} {c : Char} (hc : c ∈ s) (h : isLooseBlank c = false) :
    collapse s = s := by
  have : s.all isLooseBlank = false := by
    rw [List.all_eq_false]
    exact ⟨c, hc, by simp [h]⟩
  simp [collapse, this]

/-- Adds a text; `always` says that it is shown wherever it stands. -/
def addText (b : Builder) (always : Bool) (s : Text) : Builder :=
  if !always && b.isInside apartElements then b
  else b.add (.text (if b.isInside spacedElements then s else collapse s))

/-- Ends the text before a tag. -/
def flush (b : Builder) : Builder :=
  if b.pending.isEmpty then b
  else { b.addText false b.pending.reverse.flatten with pending := [] }

/-- Closes the innermost open element. -/
def pop (b : Builder) : Builder :=
  match b.opened with
  | [] => b
  | e :: outer => { b with opened := outer }.add (.element e.name e.attributes e.children.reverse)

/-- Closes the innermost `n` open elements. -/
def popMany : (n : Nat) → Builder → Builder
  | 0, b => b
  | n + 1, b => popMany n b.pop

/-- Closes the innermost open element of a name with all that is open inside it. -/
def closeElement (b : Builder) (name : Text) : Builder :=
  let depth := b.opened.findIdx fun e => e.name = name
  if depth < b.opened.length then b.popMany (depth + 1) else b

/-- Takes an end tag. -/
def endTag (b : Builder) (name : Text) : Builder :=
  if b.closed.contains name then { b with closed := b.closed.erase name }
  else b.flush.closeElement name

/-- Takes a start tag. -/
def startTag (b : Builder) (tag : Tag) : Builder :=
  let b := b.flush
  let b := { b with opened := ⟨tag.name, tag.attributes, []⟩ :: b.opened }
  if tag.slash then b.endTag tag.name
  else if voidElements.contains tag.name then { b.pop with closed := tag.name :: b.closed }
  else b

/-- Takes an event. -/
def take (b : Builder) : Event → Builder
  | .text s => { b with pending := s :: b.pending }
  | .start tag => b.startTag tag
  | .close name => b.endTag name
  | .section s => b.flush.addText true s
  | .remark => b.flush

/-- The parts of the page, all elements closed. -/
def finish (b : Builder) : List Node :=
  (b.flush.popMany b.opened.length).nodes.reverse

end Builder

/-- Reads a page. -/
def read (page : Text) : Except Fault (List Node) := do
  return ((← events page).foldl Builder.take Builder.empty).finish

mutual
/-- The shown text of a part of a page. -/
def Node.shown : Node → Text
  | .text s => s
  | .element _ _ children => shownAll children
/-- The shown text of parts of a page. -/
def shownAll : List Node → Text
  | [] => []
  | n :: rest => n.shown ++ shownAll rest
end

theorem shown_append (a b : List Node) : shownAll (a ++ b) = shownAll a ++ shownAll b := by
  induction a with
  | nil => rfl
  | cons n a ih => rw [List.cons_append, shownAll, shownAll, ih, List.append_assoc]

end Tender.Html
