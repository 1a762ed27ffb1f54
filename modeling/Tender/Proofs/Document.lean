/-
The steps of a rendering.

* `renderPage_eq` — what one page adds to a rendering;
* `renderPages_append` — a rendering of some pages goes on from where the pages before them left it;
* `renderPages_at` — so one page of them is rendered from where the pages before it left it;
* `run_ok`, `render_ok` — what a rendering that ends well has done.
-/
import Tender.Proofs.Binding.Page

namespace Tender

open Binding Text

/-- A stage in which a page can be started. -/
def Stage.Ready (s : Stage) : Prop := s = .notStarted ∨ s = .binding

namespace Document

/-- A page with its tokens numbered from the counters of the document on. -/
def row (d : Document) (html : Text) : List (Atom (Token × Nat)) :=
  numberFrom [] d.counters (atoms Token.all html)

/-- What stands for the tokens of a document. -/
def replacement (d : Document) : Token × Nat → Text :=
  d.renderer.replacement d.estimate d.mode d.values

/-- The document after a page that is compiled to `html`. -/
def addPage (d : Document) (html : Text) : Document :=
  { d with
    stage := .binding
    counters := d.counters.after (tokens (atoms Token.all html))
    pages := d.pages ++ [Atom.fill d.replacement (d.row html)] }

theorem renderPage_eq {d : Document} (hready : d.stage.Ready) (source : Text) :
    d.renderPage source =
      match d.renderer.compilePage source (.map d.context) with
      | .error f => ({ d with stage := .compiling }, some f)
      | .ok html => (d.addPage html, none) := by
  have hstart : d.advance .compiling = .ok { d with stage := .compiling } := by
    rcases hready with h | h
    · exact if_pos (by rw [h]; decide)
    · exact if_pos (by rw [h]; decide)
  have hbound : ({ d with stage := .compiling } : Document).advance .binding =
      .ok { d with stage := .binding } := if_pos (List.mem_singleton.2 rfl)
  rw [renderPage, hstart]
  show (match d.renderer.compilePage source (.map d.context) with
    | .error f => _
    | .ok html => _) = _
  cases d.renderer.compilePage source (.map d.context) with
  | error f => rfl
  | ok html =>
    simp only [hbound, Renderer.bindPage_eq]
    rfl

theorem renderPage_ok {d : Document} (hready : d.stage.Ready) {source html : Text}
    (h : d.renderer.compilePage source (.map d.context) = .ok html) :
    d.renderPage source = (d.addPage html, none) := by
  rw [renderPage_eq hready, h]

theorem renderPage_error {d : Document} (hready : d.stage.Ready) {source : Text} {f : Fault}
    (h : d.renderer.compilePage source (.map d.context) = .error f) :
    d.renderPage source = ({ d with stage := .compiling }, some f) := by
  rw [renderPage_eq hready, h]

/-- A page in which no token is found is added as it is. -/
theorem addPage_of_chars {d : Document} {html : Text}
    (h : atoms Token.all html = html.map .char) :
    d.addPage html = { d with stage := .binding, pages := d.pages ++ [html] } := by
  rw [addPage, row, h, tokens_chars, fill_numberFrom_plain]
  rfl

/-- What stands for the pages past the limit. -/
def notice (d : Document) : Text :=
  Problem.diagnostic ⟨.tooManyPages d.sources.length d.renderer.settings.maxPages, none⟩

/-- The document after the notice that stands for the pages past the limit. -/
def addNotice (d : Document) : Document :=
  { d with pages := d.pages ++ [d.notice] }

theorem renderPages_cons (d : Document) (i : Nat) (source : Text) (rest : List Text) :
    d.renderPages i (source :: rest) =
      if d.renderer.settings.maxPages ≤ i then (d.addNotice, none)
      else match d.renderPage source with
        | (d, none) => d.renderPages (i + 1) rest
        | (d, some f) => (d, some f) := rfl

/-- Pages within the limit leave the rendering where the pages after them go on. -/
theorem renderPages_append {d : Document} {i : Nat} {before : List Text} (after : List Text)
    (hlimit : i + before.length ≤ d.renderer.settings.maxPages) (hready : d.stage.Ready) :
    d.renderPages i (before ++ after) =
      match d.renderPages i before with
      | (d, none) => d.renderPages (i + before.length) after
      | (d, some f) => (d, some f) := by
  induction before generalizing d i with
  | nil => rfl
  | cons source rest ih =>
    rw [List.length_cons] at hlimit
    have hi : ¬ d.renderer.settings.maxPages ≤ i := by omega
    rw [List.cons_append, renderPages_cons, renderPages_cons, if_neg hi, if_neg hi]
    cases hpage : d.renderer.compilePage source (.map d.context) with
    | error f => rw [renderPage_error hready hpage]
    | ok html =>
      have hrest : i + 1 + rest.length ≤ (d.addPage html).renderer.settings.maxPages := by
        show i + 1 + rest.length ≤ d.renderer.settings.maxPages
        omega
      rw [renderPage_ok hready hpage]
      simp only
      rw [ih hrest (.inr rfl), List.length_cons, Nat.add_assoc, Nat.add_comm 1]

/-- Two documents with the same inputs. -/
def SameInputs (d d' : Document) : Prop :=
  d'.renderer = d.renderer ∧ d'.sources = d.sources ∧ d'.estimate = d.estimate ∧
    d'.mode = d.mode ∧ d'.values = d.values ∧ d'.context = d.context

theorem SameInputs.replacement {d d' : Document} (h : d.SameInputs d') :
    d'.replacement = d.replacement := by
  obtain ⟨hrenderer, -, hestimate, hmode, hvalues, -⟩ := h
  rw [Document.replacement, Document.replacement, hrenderer, hestimate, hmode, hvalues]

/-- A rendering changes nothing of what it was started with. -/
theorem renderPages_sameInputs {d : Document} (hready : d.stage.Ready) (i : Nat)
    (sources : List Text) : d.SameInputs (d.renderPages i sources).1 := by
  induction sources generalizing d i with
  | nil => exact ⟨rfl, rfl, rfl, rfl, rfl, rfl⟩
  | cons source rest ih =>
    rw [renderPages_cons]
    split
    · exact ⟨rfl, rfl, rfl, rfl, rfl, rfl⟩
    · cases hpage : d.renderer.compilePage source (.map d.context) with
      | error f =>
        rw [renderPage_error hready hpage]
        exact ⟨rfl, rfl, rfl, rfl, rfl, rfl⟩
      | ok html =>
        rw [renderPage_ok hready hpage]
        exact ih (d := d.addPage html) (.inr rfl) (i + 1)

/-! ### A page within a rendering -/

section

variable {d d' : Document}

theorem renderPage_none (hready : d.stage.Ready) {source : Text}
    (h : d.renderPage source = (d', none)) :
    ∃ html, d.renderer.compilePage source (.map d.context) = .ok html ∧ d' = d.addPage html := by
  rw [renderPage_eq hready] at h
  cases hpage : d.renderer.compilePage source (.map d.context) with
  | error f =>
    rw [hpage] at h
    cases h
  | ok html =>
    rw [hpage] at h
    cases h
    exact ⟨html, rfl, rfl⟩

theorem pages_prefix (hready : d.stage.Ready) (i : Nat) (sources : List Text) :
    d.pages <+: (d.renderPages i sources).1.pages := by
  induction sources generalizing d i with
  | nil => exact List.prefix_refl _
  | cons source rest ih =>
    rw [renderPages_cons]
    split
    · exact List.prefix_append _ _
    · cases hpage : d.renderer.compilePage source (.map d.context) with
      | error f =>
        simp only [renderPage_error hready hpage, List.prefix_refl]
      | ok html =>
        rw [renderPage_ok hready hpage]
        exact (List.prefix_append _ _).trans (ih (d := d.addPage html) (.inr rfl) (i + 1))

/-- The pages that a rendering adds: pages that are compiled and bound, and the notice. -/
theorem mem_pages_renderPages (hready : d.stage.Ready) {i : Nat} {sources : List Text}
    (h : d.renderPages i sources = (d', none)) {page : Text} (hpage : page ∈ d'.pages) :
    page ∈ d.pages ∨ page = d.notice ∨ ∃ source ∈ sources, ∃ html c,
      d.renderer.compilePage source (.map d.context) = .ok html ∧
      page = Atom.fill d.replacement (numberFrom [] c (atoms Token.all html)) := by
  induction sources generalizing d i with
  | nil =>
    cases h
    exact .inl hpage
  | cons source rest ih =>
    rw [renderPages_cons] at h
    split at h
    · cases h
      rcases List.mem_append.1 hpage with hpage | hpage
      · exact .inl hpage
      · exact .inr (.inl (List.mem_singleton.1 hpage))
    · cases hcompile : d.renderer.compilePage source (.map d.context) with
      | error f =>
        rw [renderPage_error hready hcompile] at h
        cases h
      | ok html =>
        rw [renderPage_ok hready hcompile] at h
        rcases ih (d := d.addPage html) (.inr rfl) h with hmem | hmem | ⟨t, ht, hmem⟩
        · rcases List.mem_append.1 hmem with hmem | hmem
          · exact .inl hmem
          · exact .inr (.inr ⟨source, List.mem_cons_self, html, d.counters, hcompile,
              List.mem_singleton.1 hmem⟩)
        · exact .inr (.inl hmem)
        · exact .inr (.inr ⟨t, List.mem_cons_of_mem source ht, hmem⟩)

/-- A rendering of pages within the limit that ends well has added a page for each. -/
theorem renderPages_within {i : Nat} {sources : List Text}
    (hlimit : i + sources.length ≤ d.renderer.settings.maxPages) (hready : d.stage.Ready)
    (h : d.renderPages i sources = (d', none)) :
    d'.stage.Ready ∧ d'.pages.length = d.pages.length + sources.length := by
  induction sources generalizing d i with
  | nil =>
    cases h
    exact ⟨hready, rfl⟩
  | cons source rest ih =>
    rw [List.length_cons] at hlimit
    rw [renderPages_cons, if_neg (by omega)] at h
    cases hpage : d.renderer.compilePage source (.map d.context) with
    | error f =>
      rw [renderPage_error hready hpage] at h
      cases h
    | ok html =>
      rw [renderPage_ok hready hpage] at h
      have hrest : i + 1 + rest.length ≤ (d.addPage html).renderer.settings.maxPages := by
        show i + 1 + rest.length ≤ d.renderer.settings.maxPages
        omega
      obtain ⟨hready', hlength⟩ := ih hrest (.inr rfl) h
      refine ⟨hready', ?_⟩
      rw [hlength, List.length_cons]
      show (d.pages ++ [_]).length + _ = _
      rw [List.length_append, List.length_singleton]
      omega

/-- In a rendering that ends well, a page within the limit is rendered from where the pages before it
left the rendering. -/
theorem renderPages_at {i k : Nat} {sources : List Text} {source : Text} (hready : d.stage.Ready)
    (hlimit : i + k < d.renderer.settings.maxPages) (hsource : sources[k]? = some source)
    (h : d.renderPages i sources = (d', none)) :
    ∃ before page, d.renderPages i (sources.take k) = (before, none) ∧
      d.renderPages i (sources.take (k + 1)) = (page, none) ∧
      before.renderPage source = (page, none) ∧ before.stage.Ready ∧
      before.pages.length = d.pages.length + k ∧ page.pages <+: d'.pages := by
  obtain ⟨hk, hget⟩ := List.getElem?_eq_some_iff.1 hsource
  have htake : sources.take (k + 1) = sources.take k ++ [source] := by
    rw [List.take_add_one, hsource]
    rfl
  have hsplit : sources = sources.take k ++ source :: sources.drop (k + 1) := by
    rw [← hget, ← List.drop_eq_getElem_cons hk, List.take_append_drop]
  have hlength : (sources.take k).length = k := List.length_take_of_le (Nat.le_of_lt hk)
  have happend := fun after => @renderPages_append d i (sources.take k) after (by omega) hready
  rw [hlength] at happend
  rw [hsplit, happend] at h
  rcases hbefore : d.renderPages i (sources.take k) with ⟨before, f | f⟩
  · rw [hbefore] at h happend
    obtain ⟨hready', hpages⟩ := renderPages_within (by omega) hready hbefore
    have hrenderer := (renderPages_sameInputs hready i (sources.take k)).1
    rw [hbefore] at hrenderer
    have hroom : ¬ before.renderer.settings.maxPages ≤ i + k := by
      rw [hrenderer]
      omega
    simp only [renderPages_cons, if_neg hroom] at h happend
    rcases hpage : before.renderPage source with ⟨page, f | f⟩
    · rw [hpage] at h
      obtain ⟨html, -, rfl⟩ := renderPage_none hready' hpage
      refine ⟨before, _, rfl, ?_, hpage, hready', by rw [hpages, hlength], ?_⟩
      · rw [htake, happend]
        simp only [renderPages_cons, if_neg hroom, hpage]
        rfl
      · have hprefix := pages_prefix (d := before.addPage html) (.inr rfl) (i + k + 1)
          (sources.drop (k + 1))
        rwa [show (before.addPage html).renderPages (i + k + 1) _ = (d', none) from h] at hprefix
    · rw [hpage] at h
      cases h
  · rw [hbefore] at h
    cases h

end

/-- The counters of a rendering after its first `k` pages. -/
def countersAfter (d : Document) (k : Nat) : Counters :=
  (d.renderPages 0 (d.sources.take k)).1.counters

theorem start_ok {r : Renderer} {template : Proposal} {e : Estimate} {mode : Mode}
    {values : Option (Entries Text)} {today : Date} {d : Document} :
    Document.start r template e mode values today = .ok d ↔
      ∃ context, Context.build e today r.settings = .ok context ∧
        d = ⟨r, template.sources, e, mode, values.getD e.values, context, Counters.start,
          .notStarted, []⟩ := by
  rw [start]
  cases Context.build e today r.settings with
  | error f => simp [Bind.bind, Except.bind]
  | ok context => simp [Bind.bind, Except.bind, pure, Except.pure, eq_comm]

theorem start_replacement {r : Renderer} {template : Proposal} {e : Estimate} {mode : Mode}
    {values : Option (Entries Text)} {today : Date} {d : Document}
    (h : Document.start r template e mode values today = .ok d) :
    d.replacement = r.replacement e mode (values.getD e.values) := by
  obtain ⟨context, -, rfl⟩ := start_ok.1 h
  rfl

/-- A rendering that ends well has rendered its pages and moved to the last stage. -/
theorem run_ok {d d' : Document} (h : d.run = (d', none)) :
    ∃ d'', d.renderPages 0 d.sources = (d'', none) ∧ d' = { d'' with stage := .joined } := by
  rw [run] at h
  split at h
  · cases h
  · split at h
    · cases h
    · rename_i d'' hpages
      refine ⟨d'', hpages, ?_⟩
      rw [advance] at h
      split at h
      · rename_i d₁ hstep
        split at hstep
        · cases hstep
          cases h
          rfl
        · cases hstep
      · cases h

end Document

theorem Renderer.render_ok {r : Renderer} {template : Proposal} {e : Estimate} {mode : Mode}
    {values : Option (Entries Text)} {today : Date} {d : Document} :
    r.render template e mode values today = .ok d ↔
      ∃ d₀, Document.start r template e mode values today = .ok d₀ ∧ d₀.run = (d, none) := by
  rw [render]
  cases Document.start r template e mode values today with
  | error f => simp [Bind.bind, Except.bind]
  | ok d₀ =>
    simp only [Bind.bind, Except.bind, Except.ok.injEq, exists_eq_left']
    rcases d₀.run with ⟨d', _ | f⟩
    · simp [pure, Except.pure]
    · simp [throw, throwThe, MonadExceptOf.throw]

end Tender
