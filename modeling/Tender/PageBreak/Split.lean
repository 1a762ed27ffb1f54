/-
Splitting a document into its pages.

Whatever form a page break has, it is first replaced by the marker; then the document is split at
the marker, and sections that are blank are dropped.

Main statement: `sections_not_blank`, no section is blank.
-/
import Tender.PageBreak.Marker
import Tender.Text.Scan
import Tender.Text.Search

namespace Tender.PageBreak

/-- A form that a page break can have in a document. -/
inductive Form where
  /-- A comment that says so. -/
  | comment
  /-- An empty division of the class. -/
  | classed
  /-- An empty division whose style breaks the page after it. -/
  | styled
  deriving DecidableEq

/-- The forms in the order in which they are replaced. -/
def Form.all : List Form := [.comment, .classed, .styled]

/-- The text after the end of an empty division: blanks, then its end tag. -/
def afterClose? (s : Text) : Option Text :=
  Text.afterWord? (lit "</div>") (Text.trimStart s)

/-- The text after a page break of the form at the start of a text. -/
def Form.after? (form : Form) (s : Text) : Option Text :=
  match form with
  | .comment => do
    let s ← Text.afterWord? (lit "<!--") s
    let s ← Text.afterWord? (lit "pagebreak") (Text.trimStart s)
    Text.afterWord? (lit "-->") (Text.trimStart s)
  | .classed => do
    afterClose? (← Text.afterWord? (lit "<div class=\"page-break\">") s)
  | .styled => do
    let s ← Text.afterWord? (lit "<div style=\"page-break-after:") s
    let s ← Text.afterWord? (lit "always") (Text.trimStart s)
    let s ← Text.afterChar? '"' s
    let s ← Text.afterChar? '>' s
    afterClose? s

/-- The page break of the form at the start of a text. -/
def Form.find (form : Form) (_ : Option Char) (s : Text) : Option (Text × Nat) :=
  (form.after? s).map fun rest =>
    let n := s.length - rest.length
    (s.take n, n - 1)

/-- A document with the breaks of one form replaced. -/
def replaceForm (parts : List Marker.Part) (html : Text) (form : Form) : Text :=
  Text.Atom.fill (Marker.fill parts) (Text.atoms form.find html)

/-- A document with the breaks of every form replaced. -/
def normalise (parts : List Marker.Part) (html : Text) : Text :=
  Form.all.foldl (replaceForm parts) html

/-- The sections of a text between markers, without the blank ones. -/
def sections (marker : Text) (h : marker ≠ []) (s : Text) : List Text :=
  (Text.splitOn marker h s).filter fun section_ => !Text.allBlank section_

theorem sections_not_blank {marker : Text} {h : marker ≠ []} {s page : Text}
    (hp : page ∈ sections marker h s) : Text.allBlank page = false := by
  simpa using (List.mem_filter.1 hp).2

/-- The pages of a document. -/
def split (marker html : Text) : Except Fault (List Text) := do
  let parts ← Marker.read marker
  if h : marker = [] then .error .emptySeparator
  else .ok (sections marker h (normalise parts html))

end Tender.PageBreak
