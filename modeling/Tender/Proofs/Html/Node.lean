/-
Elements that are built from their events.

* `element_slash`, `element_of_content` — the events of one element add the element;
* `content_texts`, `Content.cons` — what may stand in it.
-/
import Tender.Html.Node

namespace Tender.Html

namespace Builder

/-- A name of an element in which text counts as everywhere else. -/
def isCalm (name : Text) : Bool :=
  !(apartElements ++ spacedElements).contains name

/-- A builder that waits for no end tag and in which text counts as everywhere else. -/
structure Calm (b : Builder) : Prop where
  closed : b.closed = []
  opened : ∀ e ∈ b.opened, isCalm e.name = true

/-- Adds parts in order. -/
def addAll (b : Builder) (ns : List Node) : Builder := ns.foldl add b

/-- The events of one element. -/
def Element (es : List Event) (n : Node) : Prop :=
  ∀ b, Calm b → es.foldl take b = b.flush.add n

/-- The events of what stands in an element. -/
def Content (es : List Event) (ns : List Node) : Prop :=
  ∀ b, Calm b → b.pending = [] → (es.foldl take b).flush = b.addAll ns

variable {b : Builder} {n : Node} {ns : List Node} {es fs : List Event}

/-! ### What stays as it is -/

@[simp] theorem closed_add (b : Builder) (n : Node) : (b.add n).closed = b.closed := by
  rw [add]
  split <;> rfl

@[simp] theorem closed_flush (b : Builder) : b.flush.closed = b.closed := by
  rw [flush]
  split
  · rfl
  · rw [addText]
    split
    · rfl
    · exact closed_add b _

@[simp] theorem pending_add (b : Builder) (n : Node) : (b.add n).pending = b.pending := by
  rw [add]
  split <;> rfl

theorem names_add (b : Builder) (n : Node) :
    (b.add n).opened.map OpenElement.name = b.opened.map OpenElement.name := by
  rw [add]
  split
  · rfl
  · rename_i h
    rw [h]
    rfl

theorem Calm.of_names {b b' : Builder} (h : Calm b) (hclosed : b'.closed = b.closed)
    (hnames : b'.opened.map OpenElement.name = b.opened.map OpenElement.name) : Calm b' := by
  refine ⟨hclosed.trans h.closed, fun e he => ?_⟩
  have hmem : e.name ∈ b.opened.map OpenElement.name := hnames ▸ List.mem_map_of_mem he
  obtain ⟨e', he', heq⟩ := List.mem_map.1 hmem
  rw [← heq]
  exact h.opened e' he'

theorem Calm.add (h : Calm b) (n : Node) : Calm (b.add n) :=
  h.of_names (closed_add b n) (names_add b n)

theorem Calm.isInside (h : Calm b) :
    b.isInside apartElements = false ∧ b.isInside spacedElements = false := by
  have hnone (names : List Text) (hsub : names ⊆ apartElements ++ spacedElements) :
      b.isInside names = false := by
    refine List.any_eq_false.2 fun e he hmem => ?_
    have hcalm := h.opened e he
    rw [isCalm, Bool.not_eq_true'] at hcalm
    rw [List.contains_iff_mem] at hmem
    rw [List.contains_iff_mem.2 (hsub hmem)] at hcalm
    cases hcalm
  exact ⟨hnone _ (List.subset_append_left _ _), hnone _ (List.subset_append_right _ _)⟩

theorem flush_of_pending (h : b.pending = []) : b.flush = b := by
  rw [flush, h]
  rfl

/-- The text before a tag becomes at most one part. -/
theorem flush_eq (h : Calm b) :
    (b.pending = [] ∧ b.flush = b) ∨
      b.flush = { b.add (.text (collapse b.pending.reverse.flatten)) with pending := [] } := by
  obtain ⟨hapart, hspaced⟩ := h.isInside
  by_cases hnil : b.pending = []
  · exact .inl ⟨hnil, flush_of_pending hnil⟩
  · refine .inr ?_
    rw [flush, if_neg (by simpa using hnil), addText, hapart, hspaced]
    rfl

theorem Calm.flush (h : Calm b) : Calm b.flush ∧ b.flush.pending = [] := by
  rcases flush_eq h with ⟨hnil, heq⟩ | heq
  · rw [heq]
    exact ⟨h, hnil⟩
  · rw [heq]
    exact ⟨⟨(h.add _).closed, (h.add _).opened⟩, rfl⟩

/-! ### What stands in an element -/

theorem addAll_opened {e : OpenElement} {outer : List OpenElement} (h : b.opened = e :: outer)
    (ns : List Node) :
    b.addAll ns = { b with opened := { e with children := ns.reverse ++ e.children } :: outer } := by
  induction ns generalizing b e with
  | nil =>
    rw [addAll, List.foldl_nil]
    cases b
    cases h
    rfl
  | cons n ns ih =>
    have hadd : b.add n = { b with opened := { e with children := n :: e.children } :: outer } := by
      rw [Builder.add, h]
    have hrest := ih (b := b.add n) (e := { e with children := n :: e.children }) (by rw [hadd])
    rw [addAll] at hrest
    rw [addAll, List.foldl_cons, hrest, hadd]
    simp

theorem Content.nil : Content [] [] := fun _ _ hpending => flush_of_pending hpending

theorem Content.cons (h : Element es n) (h' : Content fs ns) : Content (es ++ fs) (n :: ns) := by
  intro b hb hpending
  rw [List.foldl_append, h b hb, flush_of_pending hpending,
    h' (b.add n) (hb.add n) (by rw [pending_add, hpending])]
  rfl

theorem take_texts (b : Builder) (parts : List Text) :
    (parts.map Event.text).foldl take b = { b with pending := parts.reverse ++ b.pending } := by
  induction parts generalizing b with
  | nil => rfl
  | cons s parts ih =>
    rw [List.map_cons, List.foldl_cons, ih, take, List.reverse_cons, List.append_assoc]
    rfl

theorem add_with_pending (h : b.pending = []) (parts : List Text) (n : Node) :
    { { b with pending := parts }.add n with pending := [] } = b.add n := by
  obtain ⟨nodes, opened, pending, closed⟩ := b
  cases h
  cases opened with
  | nil => rfl
  | cons e outer => rfl

/-- Texts add at most one part. -/
theorem content_texts (parts : List Text) :
    Content (parts.map .text) (if parts = [] then [] else [.text (collapse parts.flatten)]) := by
  intro b hb hpending
  rw [take_texts, hpending, List.append_nil]
  by_cases hnil : parts = []
  · have hsame : { b with pending := [] } = b := by
      rw [← hpending]
    rw [if_pos hnil, hnil, List.reverse_nil, hsame]
    exact flush_of_pending hpending
  · rw [if_neg hnil]
    rcases flush_eq (b := { b with pending := parts.reverse }) ⟨hb.closed, hb.opened⟩ with
      ⟨h, -⟩ | heq
    · exact absurd (List.reverse_eq_nil_iff.1 h) hnil
    · rw [heq, List.reverse_reverse]
      exact add_with_pending hpending parts.reverse _

/-! ### Elements -/

theorem closeElement_top {e : OpenElement} {outer : List OpenElement} (h : b.opened = e :: outer) :
    b.closeElement e.name =
      { b with opened := outer }.add (.element e.name e.attributes e.children.reverse) := by
  have hdepth : b.opened.findIdx (fun e' => e'.name = e.name) = 0 := by
    rw [h, List.findIdx_cons]
    simp
  rw [closeElement, hdepth]
  show (if 0 < b.opened.length then b.pop else b) = _
  rw [if_pos (by rw [h]; simp), pop, h]

theorem endTag_top {e : OpenElement} {outer : List OpenElement} (hclosed : b.closed = [])
    (hopened : b.flush.opened = e :: outer) :
    b.endTag e.name =
      { b.flush with opened := outer }.add (.element e.name e.attributes e.children.reverse) := by
  rw [endTag, hclosed]
  exact closeElement_top hopened

theorem element_slash {tag : Tag} (hslash : tag.slash = true) :
    Element [.start tag] (.element tag.name tag.attributes []) := by
  intro b hb
  obtain ⟨hcalm, hpending⟩ := hb.flush
  let b' : Builder := { b.flush with opened := ⟨tag.name, tag.attributes, []⟩ :: b.flush.opened }
  have hflush : b'.flush = b' := flush_of_pending hpending
  show b.startTag tag = _
  rw [startTag]
  dsimp only
  rw [if_pos hslash]
  exact (endTag_top (b := b') (e := ⟨tag.name, tag.attributes, []⟩) hcalm.closed
    (by rw [hflush])).trans (by rw [hflush]; rfl)

theorem element_of_content {tag : Tag} (h : Content es ns) (hslash : tag.slash = false)
    (hvoid : voidElements.contains tag.name = false) (hname : isCalm tag.name = true) :
    Element (.start tag :: (es ++ [.close tag.name])) (.element tag.name tag.attributes ns) := by
  intro b hb
  obtain ⟨hcalm, hpending⟩ := hb.flush
  let b' : Builder := { b.flush with opened := ⟨tag.name, tag.attributes, []⟩ :: b.flush.opened }
  have hcalm' : Calm b' := by
    refine ⟨hcalm.closed, fun e he => ?_⟩
    rcases List.mem_cons.1 he with rfl | he
    · exact hname
    · exact hcalm.opened e he
  have hstart : b.take (.start tag) = b' := by
    show b.startTag tag = b'
    rw [startTag]
    dsimp only
    rw [hslash, hvoid]
    rfl
  -- the content is added inside the new element, whose parts are kept in reverse
  have hcontent := h b' hcalm' hpending
  rw [addAll_opened rfl ns, List.append_nil] at hcontent
  have hclosed : (es.foldl take b').closed = [] := by
    rw [← closed_flush, hcontent]
    exact hcalm.closed
  rw [List.foldl_cons, hstart, List.foldl_append, List.foldl_cons, List.foldl_nil]
  show (es.foldl take b').endTag tag.name = _
  refine (endTag_top (e := ⟨tag.name, tag.attributes, ns.reverse⟩) hclosed
    (by rw [hcontent])).trans ?_
  rw [hcontent, List.reverse_reverse]

end Builder
end Tender.Html
