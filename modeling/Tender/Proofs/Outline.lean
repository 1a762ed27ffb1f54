/-
The outline of a document: its marks and its tokens in order.

* `outline_render` — a page of text, tokens and data paths is written with the same outline against
  any data;
* `marks_replacement` — what stands for a token in view mode has the same marks whatever is saved;
* `view_marks_independent` — so the marks of a document in view mode, and its counters, depend on
  its template only.
-/
import Tender.Proofs.Document
import Tender.Proofs.Renderer
import Tender.Proofs.Template.Page
import Tender.Proofs.Template.Written

namespace Tender

open Text Binding

/-! ### Marks -/

/-- The marks of a text in order. -/
def Text.marks (s : Text) : Text := s.filter isMark

namespace Text

@[simp] theorem marks_nil : marks [] = [] := rfl

@[simp] theorem marks_append (s t : Text) : marks (s ++ t) = marks s ++ marks t :=
  List.filter_append s t

theorem marks_cons (c : Char) (s : Text) : marks (c :: s) = marks [c] ++ marks s :=
  marks_append [c] s

theorem marks_eq_nil_iff {s : Text} : marks s = [] ↔ ∀ c ∈ s, isMark c = false := by
  simp [marks]

@[simp] theorem marks_safe (s : Text) : marks (safe s) = [] :=
  marks_eq_nil_iff.2 fun _ h => isMark_of_mem_safe h

theorem marks_joinWith (separator : Text) (parts : List Text) :
    marks (joinWith separator parts) = joinWith (marks separator) (parts.map marks) := by
  have hmap : (parts.intersperse separator).map marks =
      (parts.map marks).intersperse (marks separator) := by
    induction parts with
    | nil => rfl
    | cons s rest ih =>
      cases rest with
      | nil => rfl
      | cons t rest =>
        rw [List.intersperse_cons_cons, List.map_cons, List.map_cons, ih]
        rfl
  rw [joinWith, joinWith, List.intercalate, List.intercalate, ← hmap, marks, List.filter_flatten]
  rfl

theorem not_mem_of_marks {s : Text} (h : marks s = []) : '{' ∉ s := by
  intro hmem
  exact absurd (marks_eq_nil_iff.1 h '{' hmem) (by decide)

end Text

/-! ### Outlines -/

namespace Binding

/-- Whether an atom belongs to the outline of a text. -/
def isOutlined : Atom Token → Bool
  | .char c => isMark c
  | .item _ => true

/-- The marks and the tokens of a text in order. -/
def outline (s : Text) : List (Atom Token) :=
  (atoms Token.all s).filter isOutlined

theorem outline_append {s : Text} (h : Whole (spelled spelling Token.all) s) (rest : Text) :
    outline (s ++ rest) = outline s ++ outline rest := by
  rw [outline, Binding.atoms, h rest, List.filter_append]
  rfl

theorem outline_of_no_marks {s : Text} (h : marks s = []) : outline s = [] := by
  have hatoms : Binding.atoms Token.all s = s.map .char :=
    atoms_of_bare fun t _ => Bare.of_not_mem (not_mem_of_marks h)
  rw [outline, hatoms]
  refine List.filter_eq_nil_iff.2 fun a ha => ?_
  obtain ⟨c, hc, rfl⟩ := List.mem_map.1 ha
  rw [isOutlined, marks_eq_nil_iff.1 h c hc]
  exact Bool.false_ne_true

theorem tokens_outline (s : Text) : tokens (outline s) = tokens (atoms Token.all s) := by
  rw [outline]
  induction Binding.atoms Token.all s with
  | nil => rfl
  | cons a as ih =>
    cases a with
    | item t =>
      rw [List.filter_cons_of_pos (by rfl), tokens_item, tokens_item, ih]
    | char c =>
      rw [tokens_char, ← ih, List.filter_cons]
      split <;> rfl

/-- The marks of a page depend on its outline, and on the marks of what stands for the tokens. -/
theorem marks_fill {w : Token × Nat → Text} {shape : Token → Text}
    (hw : ∀ t n, marks (w (t, n)) = shape t) (c : Counters) (s : Text) :
    marks (Atom.fill w (numberFrom [] c (atoms Token.all s))) = Atom.fill shape (outline s) := by
  rw [outline]
  induction Binding.atoms Token.all s generalizing c with
  | nil => rfl
  | cons a as ih =>
    cases a with
    | item t =>
      rw [numberFrom_item, Atom.fill_item, marks_append, ih, hw,
        List.filter_cons_of_pos (by rfl), Atom.fill_item]
    | char x =>
      rw [numberFrom_char, Atom.fill_char, marks_cons, ih]
      by_cases hx : isMark x = true
      · rw [@List.filter_cons_of_pos _ isOutlined (.char x) as hx, Atom.fill_char, marks,
          List.filter_cons_of_pos hx]
        rfl
      · rw [@List.filter_cons_of_neg _ isOutlined (.char x) as hx, marks,
          List.filter_cons_of_neg hx]
        rfl

end Binding

/-! ### What stands for tokens in a final text -/

namespace Binding

/-- What is written for a value has no marks. -/
theorem marks_value (value : Text) :
    marks (if value = [] then lit "&nbsp;" else safe value) = [] := by
  split
  · rw [lit_ofList]
    decide
  · exact marks_safe value

theorem marks_shown (symbol : Text) (a : Variable.Appearance) (value value' : Text) :
    marks (Variable.shown symbol a value) = marks (Variable.shown symbol a value') := by
  have hplaceholder : marks (Variable.placeholder a value) =
      marks (Variable.placeholder a value') := by
    simp only [Variable.placeholder, marks_append, marks_value]
  rw [Variable.shown, Variable.shown]
  split
  · simp only [marks_append, hplaceholder]
  · exact hplaceholder

theorem marks_selector (value value' : Text) :
    marks (Selector.placeholder value) = marks (Selector.placeholder value') := by
  simp only [Selector.placeholder, marks_append, marks_value]

end Binding

theorem Renderer.marks_replacement (r : Renderer) (e e' : Estimate) (values values' : Entries Text)
    (t : Token) (n n' : Nat) :
    marks (r.replacement e .view values (t, n)) = marks (r.replacement e' .view values' (t, n')) := by
  cases t with
  | custom k => exact marks_shown _ _ _ _
  | item c => exact marks_selector _ _

/-! ### Pages -/

/-- Two texts of a page before its tokens are bound: they have the same outline, and any text may
stand beside them. -/
structure SameOutline (s t : Text) : Prop where
  left : Steady s
  right : Steady t
  outline : outline (Guard.standard.restore s) = outline (Guard.standard.restore t)

namespace SameOutline

theorem refl {s : Text} (h : Steady s) : SameOutline s s := ⟨h, h, rfl⟩

theorem of_no_marks {s t : Text} (hs : marks s = []) (ht : marks t = []) : SameOutline s t := by
  have hs' := not_mem_of_marks hs
  have ht' := not_mem_of_marks ht
  refine ⟨Steady.of_no_brace hs', Steady.of_no_brace ht', ?_⟩
  rw [Guard.restore_of_no_brace hs', Guard.restore_of_no_brace ht', outline_of_no_marks hs,
    outline_of_no_marks ht]

theorem append {s t s' t' : Text} (h : SameOutline s t) (h' : SameOutline s' t') :
    SameOutline (s ++ s') (t ++ t') := by
  refine ⟨h.left.append h'.left, h.right.append h'.right, ?_⟩
  rw [Guard.restore_append h.left.markers, Guard.restore_append h.right.markers,
    outline_append h.left.tokens, outline_append h.right.tokens, h.outline, h'.outline]

end SameOutline

namespace Node

/-- The value at a path is shown without marks. -/
theorem marks_showExpr {env : Surroundings} {p : Path} {s : Text}
    (h : showExpr env (.path p) false = .ok s) : marks s = [] := by
  rw [showExpr] at h
  split at h
  · cases h
    exact marks_safe _
  · rw [Expr.eval] at h
    cases hpath : Expr.evalPath env p with
    | error f =>
      rw [hpath] at h
      cases h
    | ok v =>
      rw [hpath] at h
      cases h
      show marks (if v.isNull then [] else safe v.display) = []
      split
      · rfl
      · exact marks_safe _

theorem outline_render {maxDepth : Nat} {env₁ env₂ : Surroundings} {n : Node} {s₁ s₂ : Text}
    (hn : IsNode n) (h₁ : render maxDepth env₁ n = .ok s₁) (h₂ : render maxDepth env₂ n = .ok s₂) :
    SameOutline s₁ s₂ := by
  cases n with
  | text s =>
    cases h₁
    cases h₂
    exact .refl hn
  | problem p =>
    cases h₁
    cases h₂
    exact .refl (Steady.of_no_brace fun h => (Problem.no_brace_diagnostic h).1 rfl)
  | shown e raw =>
    obtain ⟨rfl, p, rfl⟩ := hn
    exact .of_no_marks (marks_showExpr h₁) (marks_showExpr h₂)
  | block => exact absurd hn not_false

theorem outline_renderAll {maxDepth : Nat} {env₁ env₂ : Surroundings} {nodes : List Node}
    (hnodes : ∀ n ∈ nodes, IsNode n) {s₁ s₂ : Text}
    (h₁ : renderAll maxDepth env₁ nodes = .ok s₁) (h₂ : renderAll maxDepth env₂ nodes = .ok s₂) :
    SameOutline s₁ s₂ := by
  induction nodes generalizing s₁ s₂ with
  | nil =>
    cases h₁
    cases h₂
    exact .refl (Steady.of_no_brace (by simp))
  | cons n nodes ih =>
    obtain ⟨a₁, b₁, ha₁, hb₁, rfl⟩ := renderAll_cons_ok h₁
    obtain ⟨a₂, b₂, ha₂, hb₂, rfl⟩ := renderAll_cons_ok h₂
    have hfirst := outline_render (hnodes n List.mem_cons_self) ha₁ ha₂
    exact hfirst.append (ih (fun m hm => hnodes m (List.mem_cons_of_mem n hm)) hb₁ hb₂)

end Node

/-- A page of text, tokens and data paths that is not too long is compiled to what its nodes write. -/
theorem Renderer.compilePage_of_isPage {r : Renderer} (hguard : r.guard = Guard.standard)
    {row : List (Atom Slot)} (hrow : IsPage r.compiler.isHelper row)
    (hshort : ¬ r.settings.maxPageChars < (Atom.fill Slot.source row).length) {context : Value}
    {html : Text} (h : r.compilePage (Atom.fill Slot.source row) context = .ok html) :
    ∃ page s, r.compiler.read (Guard.standard.escape (Atom.fill Slot.source row)) = .ok page ∧
      (∀ n ∈ page.nodes, IsNode n) ∧
      Node.renderAll r.compiler.settings.maxBlockDepth (r.compiler.surroundings context)
        page.nodes = .ok s ∧
      html = Guard.standard.restore s := by
  obtain ⟨page, hread, hnodes⟩ := nodes_row hrow r.compiler.settings.maxTemplateTokens
    r.compiler.settings.maxBlockDepth
  rw [← Guard.escape_row hrow.isRow] at hread
  rw [compilePage, if_neg hshort, hguard, Compiler.compile, Compiler.read, hread] at h
  change (Node.renderAll r.compiler.settings.maxBlockDepth (r.compiler.surroundings context)
    page.nodes).map Guard.standard.restore = .ok html at h
  cases hrender : Node.renderAll r.compiler.settings.maxBlockDepth
      (r.compiler.surroundings context) page.nodes with
  | error f =>
    rw [hrender] at h
    cases h
  | ok s =>
    rw [hrender] at h
    cases h
    exact ⟨page, s, hread, hnodes, hrender, rfl⟩

/-- A page of text, tokens and data paths is compiled to texts of the same outline against any two
contexts. -/
theorem Renderer.outline_compilePage {r : Renderer} (hguard : r.guard = Guard.standard)
    {row : List (Atom Slot)} (hrow : IsPage r.compiler.isHelper row) {context₁ context₂ : Value}
    {html₁ html₂ : Text} (h₁ : r.compilePage (Atom.fill Slot.source row) context₁ = .ok html₁)
    (h₂ : r.compilePage (Atom.fill Slot.source row) context₂ = .ok html₂) :
    outline html₁ = outline html₂ := by
  -- whether a page is too long depends on its source only
  by_cases hlong : r.settings.maxPageChars < (Atom.fill Slot.source row).length
  · rw [compilePage, if_pos hlong] at h₁ h₂
    cases h₁
    cases h₂
    rfl
  · obtain ⟨page₁, s₁, hread₁, hnodes, hs₁, rfl⟩ := compilePage_of_isPage hguard hrow hlong h₁
    obtain ⟨page₂, s₂, hread₂, -, hs₂, rfl⟩ := compilePage_of_isPage hguard hrow hlong h₂
    rw [hread₁] at hread₂
    cases hread₂
    exact (Node.outline_renderAll hnodes hs₁ hs₂).outline

/-! ### Two renderings of one template -/

/-- Two renderings of one template in view mode, of any estimates and with any values, that have
come equally far: their pages have the same marks. -/
structure Alike (d₁ d₂ : Document) : Prop where
  renderer : d₁.renderer = d₂.renderer
  sources : d₁.sources = d₂.sources
  left : d₁.mode = .view
  right : d₂.mode = .view
  stage : d₁.stage = d₂.stage
  counters : d₁.counters = d₂.counters
  pages : d₁.pages.map marks = d₂.pages.map marks

namespace Alike

variable {d₁ d₂ : Document}

theorem addPage (h : Alike d₁ d₂) {html₁ html₂ : Text} (hout : outline html₁ = outline html₂) :
    Alike (d₁.addPage html₁) (d₂.addPage html₂) := by
  refine ⟨h.renderer, h.sources, h.left, h.right, rfl, ?_, ?_⟩
  · show d₁.counters.after _ = d₂.counters.after _
    rw [← tokens_outline, ← tokens_outline, hout, h.counters]
  · -- what stands for a token in either rendering has the marks that it would have for no estimate
    let shape : Token → Text := fun t =>
      marks (d₁.renderer.replacement default .view [] (t, 0))
    have hshape₁ : ∀ t n, marks (d₁.replacement (t, n)) = shape t := fun t n => by
      rw [Document.replacement, h.left]
      exact Renderer.marks_replacement _ _ _ _ _ _ _ _
    have hshape₂ : ∀ t n, marks (d₂.replacement (t, n)) = shape t := fun t n => by
      rw [Document.replacement, h.right, ← h.renderer]
      exact Renderer.marks_replacement _ _ _ _ _ _ _ _
    show (d₁.pages ++ [Atom.fill d₁.replacement (d₁.row html₁)]).map marks =
      (d₂.pages ++ [Atom.fill d₂.replacement (d₂.row html₂)]).map marks
    rw [List.map_append, List.map_append, h.pages, List.map_singleton, List.map_singleton,
      Document.row, Document.row, marks_fill hshape₁, marks_fill hshape₂, hout]

theorem addNotice (h : Alike d₁ d₂) : Alike d₁.addNotice d₂.addNotice := by
  have hnotice : d₁.notice = d₂.notice := by
    rw [Document.notice, Document.notice, h.sources, h.renderer]
  refine ⟨h.renderer, h.sources, h.left, h.right, h.stage, h.counters, ?_⟩
  show (d₁.pages ++ [d₁.notice]).map marks = (d₂.pages ++ [d₂.notice]).map marks
  rw [List.map_append, List.map_append, h.pages, hnotice]

theorem renderPages (h : Alike d₁ d₂) (hready : d₁.stage.Ready)
    (hguard : d₁.renderer.guard = Guard.standard) {sources : List Text}
    (hsources : ∀ source ∈ sources, ∃ row, source = Atom.fill Slot.source row ∧
      IsPage d₁.renderer.compiler.isHelper row)
    {i : Nat} {d₁' d₂' : Document} (h₁ : d₁.renderPages i sources = (d₁', none))
    (h₂ : d₂.renderPages i sources = (d₂', none)) : Alike d₁' d₂' := by
  induction sources generalizing d₁ d₂ i with
  | nil =>
    cases h₁
    cases h₂
    exact h
  | cons source rest ih =>
    have hready₂ : d₂.stage.Ready := h.stage ▸ hready
    rw [Document.renderPages_cons] at h₁ h₂
    rw [← h.renderer] at h₂
    split at h₁
    -- the notice about too many pages is the same in both
    · rename_i hpast
      rw [if_pos hpast] at h₂
      cases h₁
      cases h₂
      exact h.addNotice
    · rename_i hwithin
      rw [if_neg hwithin] at h₂
      cases hpage₁ : d₁.renderer.compilePage source (.map d₁.context) with
      | error f =>
        rw [Document.renderPage_error hready hpage₁] at h₁
        cases h₁
      | ok html₁ =>
        cases hpage₂ : d₂.renderer.compilePage source (.map d₂.context) with
        | error f =>
          rw [Document.renderPage_error hready₂ hpage₂] at h₂
          cases h₂
        | ok html₂ =>
          rw [Document.renderPage_ok hready hpage₁] at h₁
          rw [Document.renderPage_ok hready₂ hpage₂] at h₂
          obtain ⟨row, rfl, hrow⟩ := hsources source List.mem_cons_self
          rw [← h.renderer] at hpage₂
          have hout := Renderer.outline_compilePage hguard hrow hpage₁ hpage₂
          exact ih (h.addPage hout) (.inr rfl) hguard
            (fun s hs => hsources s (List.mem_cons_of_mem _ hs)) h₁ h₂

end Alike

/-- Data cannot change the structure of a document: if the pages of a template are made of text
without braces, tokens and data paths, then any two of its renderings in view mode have the same
marks in the same order, and the same counters. -/
theorem Renderer.view_marks_independent {settings : Settings} {r : Renderer}
    (hr : Renderer.new settings = .ok r) {template : Proposal}
    (hpages : ∀ source ∈ template.sources, ∃ row, source = Atom.fill Slot.source row ∧
      IsPage r.compiler.isHelper row)
    {today : Date} {e₁ e₂ : Estimate} {v₁ v₂ : Option (Entries Text)} {d₁ d₂ : Document}
    (h₁ : r.render template e₁ .view v₁ today = .ok d₁)
    (h₂ : r.render template e₂ .view v₂ today = .ok d₂) :
    (∃ html₁ html₂, d₁.html = .ok html₁ ∧ d₂.html = .ok html₂ ∧ marks html₁ = marks html₂) ∧
      d₁.counters = d₂.counters := by
  have hguard : r.guard = Guard.standard := by
    rw [Renderer.new_eq] at hr
    cases hr
    rfl
  obtain ⟨s₁, hstart₁, hrun₁⟩ := Renderer.render_ok.1 h₁
  obtain ⟨s₂, hstart₂, hrun₂⟩ := Renderer.render_ok.1 h₂
  obtain ⟨context₁, -, rfl⟩ := Document.start_ok.1 hstart₁
  obtain ⟨context₂, -, rfl⟩ := Document.start_ok.1 hstart₂
  obtain ⟨f₁, hpages₁, rfl⟩ := Document.run_ok hrun₁
  obtain ⟨f₂, hpages₂, rfl⟩ := Document.run_ok hrun₂
  have hstart : Alike
      ⟨r, template.sources, e₁, .view, v₁.getD e₁.values, context₁, Counters.start,
        .notStarted, []⟩
      ⟨r, template.sources, e₂, .view, v₂.getD e₂.values, context₂, Counters.start,
        .notStarted, []⟩ := ⟨rfl, rfl, rfl, rfl, rfl, rfl, rfl⟩
  have hend := hstart.renderPages (.inl rfl) hguard hpages hpages₁ hpages₂
  refine ⟨⟨_, _, if_pos rfl, if_pos rfl, ?_⟩, hend.counters⟩
  show marks (joinWith f₁.renderer.settings.pageBreakMarker f₁.pages) =
    marks (joinWith f₂.renderer.settings.pageBreakMarker f₂.pages)
  rw [marks_joinWith, marks_joinWith, hend.pages, hend.renderer]

/-- A quoted name with a place for a note behind it. -/
def quotedName : List (Atom Slot) :=
  [.char '"', .item (.path "customerName".toList), .char '"', .item (.token (.custom .text))]

/-- A page of it. -/
def quotedNamePage : Proposal :=
  { (default : Proposal) with pages := [⟨Atom.fill Slot.source quotedName, []⟩] }

/-- The path that an expression is. -/
def Expr.path? : Expr → Option Path
  | .path p => some p
  | _ => none

theorem isPage_quotedName : IsPage (Renderer.standard {}).compiler.isHelper quotedName where
  plain c hc := by
    have hquote : c = '"' := by
      simpa [quotedName] using hc
    rw [hquote]
    decide
  paths body hbody := by
    have hall : ∀ t ∈ Token.all, ¬ spelling t <:+ Slot.mustache "customerName".toList := by
      decide +kernel
    have hpath : ((Expr.readShown (Renderer.standard {}).compiler.isHelper
        (trim "customerName".toList)).toOption.bind Expr.path?).isSome = true := by decide +kernel
    have hname : body = "customerName".toList := by
      simpa [quotedName] using hbody
    subst hname
    refine ⟨rfl, fun t => hall t t.mem_all, rfl, rfl, ?_⟩
    cases hread : Expr.readShown (Renderer.standard {}).compiler.isHelper
        (trim "customerName".toList) with
    | error p =>
      rw [hread] at hpath
      cases hpath
    | ok x =>
      rw [hread] at hpath
      cases x with
      | path p => exact ⟨p, rfl⟩
      | literal v => cases hpath
      | call name options args => cases hpath

/-- A name and a note that look like markup. -/
theorem Renderer.view_marks_independent_quotedName :
    ∃ d₁ d₂,
      (Renderer.standard {}).render quotedNamePage default .view none ⟨2024, 2, 29, by decide⟩ =
        .ok d₁ ∧
      (Renderer.standard {}).render quotedNamePage
        { (default : Estimate) with customerName := some ['"', '<'] } .view
        (some [(lit "customText_0", ['{', '>'])]) ⟨2024, 2, 29, by decide⟩ = .ok d₂ ∧
      ∃ html₁ html₂, d₁.html = .ok html₁ ∧ d₂.html = .ok html₂ ∧ marks html₁ = marks html₂ := by
  have hempty : ((Renderer.standard {}).render quotedNamePage default .view none
      ⟨2024, 2, 29, by decide⟩).toBool = true := by
    decide +kernel
  have hmarks : ((Renderer.standard {}).render quotedNamePage
      { (default : Estimate) with customerName := some ['"', '<'] } .view
      (some [(lit "customText_0", ['{', '>'])]) ⟨2024, 2, 29, by decide⟩).toBool = true := by
    decide +kernel
  obtain ⟨d₁, h₁⟩ := exists_ok_of_toBool hempty
  obtain ⟨d₂, h₂⟩ := exists_ok_of_toBool hmarks
  have hpage : ∀ source ∈ quotedNamePage.sources, ∃ row, source = Atom.fill Slot.source row ∧
      IsPage (Renderer.standard {}).compiler.isHelper row := by
    intro source hsource
    rw [List.mem_singleton.1 hsource]
    exact ⟨quotedName, rfl, isPage_quotedName⟩
  exact ⟨d₁, d₂, h₁, h₂, (Renderer.view_marks_independent (Renderer.new_eq {}) hpage h₁ h₂).1⟩

end Tender
