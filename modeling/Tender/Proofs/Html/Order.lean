/-
The elements of a page in the order in which they are opened.

Whatever is closed, left open or closed in the wrong order, no step of the builder moves an element
before another one:

* `openings_take` — a start tag adds its element behind all others, and nothing else adds one;
* `openings_read` — so the elements of a tree, parents before their children, are the start tags of
  its page in order.
-/
import Tender.Proofs.Html.Node

namespace Tender.Html

/-- The start of an element: its name and its attributes. -/
abbrev Opening := Text × Entries Text

mutual
/-- The elements in a part of a page, each before what stands in it. -/
def Node.openings : Node → List Opening
  | .text _ => []
  | .element name attributes children => (name, attributes) :: openingsAmong children
/-- The elements in parts of a page. -/
def openingsAmong : List Node → List Opening
  | [] => []
  | n :: rest => n.openings ++ openingsAmong rest
end

theorem openingsAmong_append (ms ns : List Node) :
    openingsAmong (ms ++ ns) = openingsAmong ms ++ openingsAmong ns := by
  induction ms with
  | nil => rfl
  | cons m ms ih => rw [List.cons_append, openingsAmong, ih, openingsAmong, List.append_assoc]

theorem openingsAmong_concat (ns : List Node) (n : Node) :
    openingsAmong (ns ++ [n]) = openingsAmong ns ++ n.openings := by
  rw [openingsAmong_append, openingsAmong, openingsAmong, List.append_nil]

/-- The element that an event opens. -/
def Event.opening? : Event → Option Opening
  | .start tag => some (tag.name, tag.attributes)
  | _ => none

/-- The elements that events open. -/
def openingsOf (es : List Event) : List Opening :=
  es.filterMap Event.opening?

/-- An open element and the elements in it. -/
def OpenElement.openings (e : OpenElement) : List Opening :=
  (e.name, e.attributes) :: openingsAmong e.children.reverse

namespace Builder

/-- The elements of a tree that is being built. -/
def openings (b : Builder) : List Opening :=
  openingsAmong b.nodes.reverse ++ b.opened.reverse.flatMap OpenElement.openings

/-! ### Steps that open nothing -/

theorem openings_add (b : Builder) (n : Node) : (b.add n).openings = b.openings ++ n.openings := by
  rw [add]
  split
  · rename_i hopened
    rw [openings, openings, hopened, List.reverse_cons, openingsAmong_concat]
    simp
  · rename_i e outer hopened
    rw [openings, openings, hopened]
    simp [OpenElement.openings, openingsAmong_concat]

theorem openings_addText (b : Builder) (always : Bool) (s : Text) :
    (b.addText always s).openings = b.openings := by
  rw [addText]
  split
  · rfl
  · rw [openings_add, Node.openings, List.append_nil]

theorem openings_flush (b : Builder) : b.flush.openings = b.openings := by
  rw [flush]
  split
  · rfl
  · exact openings_addText b false _

/-- An element that is closed goes to where it was opened. -/
theorem openings_pop (b : Builder) : b.pop.openings = b.openings := by
  rw [pop]
  split
  · rfl
  · rename_i e outer hopened
    rw [openings_add, Node.openings, openings, openings, hopened]
    simp [OpenElement.openings]

theorem openings_popMany (n : Nat) (b : Builder) : (popMany n b).openings = b.openings := by
  induction n generalizing b with
  | zero => rfl
  | succ n ih => rw [popMany, ih, openings_pop]

theorem openings_closeElement (b : Builder) (name : Text) :
    (b.closeElement name).openings = b.openings := by
  rw [closeElement]
  split
  · exact openings_popMany _ b
  · rfl

theorem openings_endTag (b : Builder) (name : Text) : (b.endTag name).openings = b.openings := by
  rw [endTag]
  split
  · rfl
  · rw [openings_closeElement, openings_flush]

/-! ### Events -/

theorem openings_startTag (b : Builder) (tag : Tag) :
    (b.startTag tag).openings = b.openings ++ [(tag.name, tag.attributes)] := by
  have hopened : ({ b.flush with
      opened := ⟨tag.name, tag.attributes, []⟩ :: b.flush.opened } : Builder).openings =
        b.openings ++ [(tag.name, tag.attributes)] := by
    rw [← openings_flush b, openings, openings]
    simp [OpenElement.openings, openingsAmong]
  rw [startTag]
  dsimp only
  split
  · rw [openings_endTag, hopened]
  · split
    · exact (openings_pop _).trans hopened
    · exact hopened

theorem openings_take (b : Builder) (e : Event) :
    (b.take e).openings = b.openings ++ e.opening?.toList := by
  cases e with
  | text s => exact (List.append_nil _).symm
  | start tag => exact openings_startTag b tag
  | close name => exact (openings_endTag b name).trans (List.append_nil _).symm
  | «section» s =>
    exact ((openings_addText _ true s).trans (openings_flush b)).trans (List.append_nil _).symm
  | remark => exact (openings_flush b).trans (List.append_nil _).symm

theorem openings_takeAll (b : Builder) (es : List Event) :
    (es.foldl take b).openings = b.openings ++ openingsOf es := by
  induction es generalizing b with
  | nil => exact (List.append_nil _).symm
  | cons e es ih =>
    rw [List.foldl_cons, ih, openings_take, openingsOf, openingsOf, List.filterMap_cons,
      List.append_assoc]
    cases e.opening? <;> rfl

theorem length_opened_add (b : Builder) (n : Node) : (b.add n).opened.length = b.opened.length := by
  rw [← List.length_map OpenElement.name, names_add, List.length_map]

theorem opened_popMany {n : Nat} {b : Builder} (h : b.opened.length ≤ n) :
    (popMany n b).opened = [] := by
  induction n generalizing b with
  | zero => exact List.length_eq_zero_iff.1 (Nat.le_zero.1 h)
  | succ n ih =>
    refine ih ?_
    rw [pop]
    split
    · rename_i hopened
      rw [hopened]
      exact Nat.zero_le n
    · rename_i e outer hopened
      rw [hopened, List.length_cons] at h
      rw [length_opened_add]
      exact Nat.le_of_succ_le_succ h

theorem length_opened_flush (b : Builder) : b.flush.opened.length = b.opened.length := by
  rw [flush]
  split
  · rfl
  · rw [addText]
    split
    · rfl
    · exact length_opened_add b _

theorem openings_finish (b : Builder) : openingsAmong b.finish = b.openings := by
  have hopened := opened_popMany (Nat.le_of_eq (length_opened_flush b))
  have hopenings := openings_popMany b.opened.length b.flush
  rw [openings_flush, openings, hopened] at hopenings
  simpa [finish] using hopenings

/-- The events of an element open what the element consists of. -/
theorem openingsOf_element {es : List Event} {n : Node} (h : Element es n) :
    openingsOf es = n.openings := by
  have hempty : Calm empty := ⟨rfl, fun e he => by cases he⟩
  have htaken := openings_takeAll empty es
  rw [h empty hempty, openings_add, openings_flush] at htaken
  exact htaken.symm

end Builder

/-- The elements of a page are its start tags in order. -/
theorem openings_read {page : Text} {es : List Event} (h : events page = .ok es) :
    ∃ nodes, read page = .ok nodes ∧ openingsAmong nodes = openingsOf es := by
  refine ⟨(es.foldl Builder.take Builder.empty).finish, ?_, ?_⟩
  · rw [read, h]
    rfl
  · rw [Builder.openings_finish, Builder.openings_takeAll]
    rfl

end Tender.Html
