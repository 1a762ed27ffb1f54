/-
The pieces of a page: text and tags in order.

A tag starts with two braces and ends at the first two (three, for a raw tag) closing ones.  A
backslash in front makes it text.

Main statements: `length_readTag`, a tag uses up some of the text, and `pieces_plain`, a page
without two opening braces in a row is one piece of text.
-/
import Tender.Text.Basic

namespace Tender

/-- A piece of a page. -/
inductive Piece where
  | text (s : Text)
  /-- A comment with its braces. -/
  | comment (source : Text)
  /-- What stands between three braces. -/
  | raw (body : Text)
  /-- What stands between two braces. -/
  | tag (body : Text)
  /-- The rest of the page from a tag without an end on. -/
  | unclosed (rest : Text)
  /-- The rest of the page from the first tag past the limit on. -/
  | overLimit (rest : Text)
  deriving DecidableEq

namespace Piece

/-- Two opening braces. -/
def opening : Text := ['{', '{']

/-- Two closing braces. -/
def closing : Text := ['}', '}']

/-- Reads a tag after its two opening braces. -/
def readTag? : Text → Option (Piece × Text)
  | '!' :: '-' :: '-' :: s =>
    (Text.cut ['-', '-', '}', '}'] s).map fun (a, b) =>
      (.comment (opening ++ '!' :: '-' :: '-' :: a ++ '-' :: '-' :: closing), b)
  | '{' :: s => (Text.cut ['}', '}', '}'] s).map fun (a, b) => (.raw a, b)
  | '!' :: s => (Text.cut closing ('!' :: s)).map fun (a, b) =>
      (.comment (opening ++ a ++ closing), b)
  | s => (Text.cut closing s).map fun (a, b) => (.tag a, b)

theorem length_readTag {s rest : Text} {p : Piece} (h : readTag? s = some (p, rest)) :
    rest.length < s.length := by
  unfold readTag? at h
  split at h <;>
  · obtain ⟨⟨a, b⟩, hc, heq⟩ := Option.map_eq_some_iff.1 h
    obtain ⟨-, rfl⟩ := Prod.mk.inj heq
    have := Text.length_of_cut hc
    simp only [closing, List.length_cons, List.length_nil] at this ⊢
    omega

/-- The pieces of a text after the pieces `done` (reversed), with at most `budget` tags. -/
def piecesFrom (budget : Nat) (done : List Piece) (s : Text) : List Piece :=
  match _h : Text.cut opening s with
  | none => (if s = [] then done else .text s :: done).reverse
  | some (before, after) =>
    if before.getLast? = some '\\' then
      match _hc : Text.cut closing after with
      | none => (.text (opening ++ after) :: .text before.dropLast :: done).reverse
      | some (body, rest) =>
        piecesFrom budget (.text (opening ++ body ++ closing) :: .text before.dropLast :: done) rest
    else
      match budget with
      | 0 => (.overLimit (opening ++ after) :: .text before :: done).reverse
      | budget + 1 =>
        match _ht : readTag? after with
        | none => (.unclosed (opening ++ after) :: .text before :: done).reverse
        | some (p, rest) => piecesFrom budget (p :: .text before :: done) rest
termination_by s.length
decreasing_by
  · have h₁ := Text.length_of_cut _h
    have h₂ := Text.length_of_cut _hc
    simp only [opening, List.length_cons, List.length_nil] at h₁
    omega
  · have h₁ := Text.length_of_cut _h
    have h₂ := length_readTag _ht
    omega

/-- The pieces of a page with at most `limit` tags. -/
def ofPage (limit : Nat) (s : Text) : List Piece :=
  piecesFrom limit [] s

theorem pieces_plain {limit : Nat} {s : Text} (h : Text.cut opening s = none) (hs : s ≠ []) :
    ofPage limit s = [.text s] := by
  unfold ofPage piecesFrom
  split
  · simp [hs]
  · rename_i h'; rw [h] at h'; simp at h'

end Piece
end Tender
