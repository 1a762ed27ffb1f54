/-
The numbering of tokens in a rendering.

Two renderings of one document that differ in their mode and in the saved values go through the same
steps:

* `Parallel.renderPage`, `Parallel.renderPages` — they stay side by side page by page, with equal
  counters and with pages that fill the same numbered rows;
* `numbering_independent` — so the counters after each page depend neither on the mode nor on the
  values, and values that agree on the keys in use give the same pages.
-/
import Tender.Proofs.Document
import Tender.Proofs.Renderer

namespace Tender

open Binding Text

/-! ### The numbers on a page -/

namespace Binding

theorem lt_of_mem_numberFrom {c : Counters} {as : List (Atom Token)} {t : Token} {n : Nat}
    (h : .item (t, n) ∈ numberFrom [] c as) : n < (c.after (tokens as)).number t := by
  induction as generalizing c with
  | nil => cases h
  | cons a as ih =>
    cases a with
    | char x =>
      rw [numberFrom_char] at h
      rcases List.mem_cons.1 h with h | h
      · cases h
      · exact ih h
    | item u =>
      rw [numberFrom_item] at h
      rcases List.mem_cons.1 h with h | h
      · -- this token itself moves its counter past its number
        cases h
        rw [tokens_item, Counters.after_cons, Counters.number_after, Counters.next_number]
        omega
      · exact ih h

theorem fill_congr {w w' : Token × Nat → Text} {row : List (Atom (Token × Nat))}
    (h : ∀ b, .item b ∈ row → w b = w' b) : Atom.fill w row = Atom.fill w' row := by
  induction row with
  | nil => rfl
  | cons a row ih =>
    have hrest := ih fun b hb => h b (List.mem_cons_of_mem a hb)
    cases a with
    | char x => rw [Atom.fill_char, Atom.fill_char, hrest]
    | item b => rw [Atom.fill_item, Atom.fill_item, hrest, h b List.mem_cons_self]

end Binding

/-! ### Two renderings side by side -/

/-- Two renderings of one document, in any modes and with any values, that have come equally far:
their pages fill the same rows, and the counters have passed the numbers in them. -/
structure Parallel (d₁ d₂ : Document) : Prop where
  renderer : d₁.renderer = d₂.renderer
  sources : d₁.sources = d₂.sources
  estimate : d₁.estimate = d₂.estimate
  context : d₁.context = d₂.context
  stage : d₁.stage = d₂.stage
  counters : d₁.counters = d₂.counters
  pages : ∃ rows : List (List (Atom (Token × Nat))),
    d₁.pages = rows.map (Atom.fill d₁.replacement) ∧
    d₂.pages = rows.map (Atom.fill d₂.replacement) ∧
    ∀ row ∈ rows, ∀ t n, .item (t, n) ∈ row → n < d₁.counters.number t

namespace Parallel

variable {d₁ d₂ : Document}

theorem addPage (h : Parallel d₁ d₂) (html : Text) :
    Parallel (d₁.addPage html) (d₂.addPage html) := by
  obtain ⟨rows, h₁, h₂, hbound⟩ := h.pages
  have hrow : d₁.row html = d₂.row html := by rw [Document.row, Document.row, h.counters]
  have hcounters : (d₁.addPage html).counters = (d₂.addPage html).counters := by
    rw [Document.addPage, Document.addPage, h.counters]
  refine ⟨h.renderer, h.sources, h.estimate, h.context, rfl, hcounters,
    rows ++ [d₁.row html], ?_, ?_, ?_⟩
  · show d₁.pages ++ [Atom.fill d₁.replacement (d₁.row html)] = _
    rw [h₁, List.map_append]
    rfl
  · show d₂.pages ++ [Atom.fill d₂.replacement (d₂.row html)] = _
    rw [h₂, List.map_append, hrow]
    rfl
  · intro row hmem t n hitem
    show n < (d₁.counters.after _).number t
    rcases List.mem_append.1 hmem with hmem | hmem
    · rw [Counters.number_after]
      exact Nat.lt_add_right _ (hbound row hmem t n hitem)
    · rw [List.mem_singleton.1 hmem] at hitem
      exact lt_of_mem_numberFrom hitem

theorem addNotice (h : Parallel d₁ d₂) : Parallel d₁.addNotice d₂.addNotice := by
  obtain ⟨rows, h₁, h₂, hbound⟩ := h.pages
  have hnotice : d₁.notice = d₂.notice := by
    rw [Document.notice, Document.notice, h.sources, h.renderer]
  refine ⟨h.renderer, h.sources, h.estimate, h.context, h.stage, h.counters,
    rows ++ [d₁.notice.map .char], ?_, ?_, ?_⟩
  · show d₁.pages ++ [d₁.notice] = _
    rw [h₁, List.map_append, List.map_singleton, Atom.fill_chars]
    rfl
  · show d₂.pages ++ [d₂.notice] = _
    rw [h₂, List.map_append, hnotice, List.map_singleton, Atom.fill_chars]
    rfl
  · intro row hmem t n hitem
    rcases List.mem_append.1 hmem with hmem | hmem
    · exact hbound row hmem t n hitem
    · rw [List.mem_singleton.1 hmem] at hitem
      obtain ⟨c, -, hc⟩ := List.mem_map.1 hitem
      cases hc

theorem renderPage (h : Parallel d₁ d₂) (hready : d₁.stage.Ready) (source : Text) :
    Parallel (d₁.renderPage source).1 (d₂.renderPage source).1 ∧
      (d₁.renderPage source).2 = (d₂.renderPage source).2 ∧
      ((d₁.renderPage source).2 = none → (d₁.renderPage source).1.stage.Ready) := by
  have hready₂ : d₂.stage.Ready := h.stage ▸ hready
  cases hpage : d₁.renderer.compilePage source (.map d₁.context) with
  | error f =>
    have hpage₂ := hpage
    rw [h.renderer, h.context] at hpage₂
    rw [Document.renderPage_error hready hpage, Document.renderPage_error hready₂ hpage₂]
    exact ⟨{ h with stage := rfl }, rfl, fun hnone => by cases hnone⟩
  | ok html =>
    have hpage₂ := hpage
    rw [h.renderer, h.context] at hpage₂
    rw [Document.renderPage_ok hready hpage, Document.renderPage_ok hready₂ hpage₂]
    exact ⟨h.addPage html, rfl, fun _ => .inr rfl⟩

theorem renderPages (h : Parallel d₁ d₂) (hready : d₁.stage.Ready) (i : Nat)
    (sources : List Text) :
    Parallel (d₁.renderPages i sources).1 (d₂.renderPages i sources).1 ∧
      (d₁.renderPages i sources).2 = (d₂.renderPages i sources).2 := by
  induction sources generalizing d₁ d₂ i with
  | nil => exact ⟨h, rfl⟩
  | cons source rest ih =>
    have hlimit : d₂.renderer.settings.maxPages = d₁.renderer.settings.maxPages := by
      rw [h.renderer]
    rw [Document.renderPages_cons, Document.renderPages_cons, hlimit]
    split
    · exact ⟨h.addNotice, rfl⟩
    · obtain ⟨hstep, hfault, hnext⟩ := h.renderPage hready source
      rcases hpage₁ : d₁.renderPage source with ⟨d₁', f₁⟩
      rcases hpage₂ : d₂.renderPage source with ⟨d₂', f₂⟩
      rw [hpage₁, hpage₂] at hstep hfault
      rw [hpage₁] at hnext
      cases hfault
      cases f₁ with
      | some f => exact ⟨hstep, rfl⟩
      | none => exact ih hstep (hnext rfl) (i + 1)

/-- Two renderings that have not started. -/
theorem start {r : Renderer} {template : Proposal} {e : Estimate} {today : Date} {m₁ m₂ : Mode}
    {v₁ v₂ : Option (Entries Text)}
    (h₁ : Document.start r template e m₁ v₁ today = .ok d₁)
    (h₂ : Document.start r template e m₂ v₂ today = .ok d₂) :
    Parallel d₁ d₂ ∧ d₁.stage.Ready := by
  obtain ⟨context, hcontext, rfl⟩ := Document.start_ok.1 h₁
  obtain ⟨context', hcontext', rfl⟩ := Document.start_ok.1 h₂
  rw [hcontext] at hcontext'
  cases hcontext'
  exact ⟨⟨rfl, rfl, rfl, rfl, rfl, rfl, [], rfl, rfl, fun row h => by cases h⟩, .inl rfl⟩

end Parallel

/-! ### Whole renderings -/

/-- The numbers of the tokens depend neither on the mode nor on the saved values: after every page
the counters of two renderings are equal, and their pages fill the same rows of numbered tokens.  In
one mode, values that are the same under the keys in use give the same pages. -/
theorem numbering_independent {r : Renderer} {template : Proposal} {e : Estimate} {today : Date}
    {m₁ m₂ : Mode} {v₁ v₂ : Option (Entries Text)} {d₁ d₂ : Document}
    (h₁ : r.render template e m₁ v₁ today = .ok d₁)
    (h₂ : r.render template e m₂ v₂ today = .ok d₂) :
    (∃ s₁ s₂, Document.start r template e m₁ v₁ today = .ok s₁ ∧
      Document.start r template e m₂ v₂ today = .ok s₂ ∧
      ∀ k, s₁.countersAfter k = s₂.countersAfter k) ∧
    d₁.counters = d₂.counters ∧
    (∃ rows : List (List (Atom (Token × Nat))),
      d₁.pages = rows.map (Atom.fill (r.replacement e m₁ (v₁.getD e.values))) ∧
      d₂.pages = rows.map (Atom.fill (r.replacement e m₂ (v₂.getD e.values)))) ∧
    (m₁ = m₂ →
      (∀ t n, n < d₁.counters.number t → saved (v₁.getD e.values) (t.variableKey n) =
        saved (v₂.getD e.values) (t.variableKey n)) →
      d₁.pages = d₂.pages) := by
  obtain ⟨s₁, hstart₁, hrun₁⟩ := Renderer.render_ok.1 h₁
  obtain ⟨s₂, hstart₂, hrun₂⟩ := Renderer.render_ok.1 h₂
  obtain ⟨hpar, hready⟩ := Parallel.start hstart₁ hstart₂
  obtain ⟨e₁, hpages₁, rfl⟩ := Document.run_ok hrun₁
  obtain ⟨e₂, hpages₂, rfl⟩ := Document.run_ok hrun₂
  have hfill₁ := (Document.renderPages_sameInputs hready 0 s₁.sources).replacement
  have hfill₂ := (Document.renderPages_sameInputs (hpar.stage ▸ hready) 0 s₂.sources).replacement
  -- all pages together: the rows of both renderings, with numbers below the final counters
  have hafter := (hpar.renderPages hready 0 s₁.sources).1
  rw [hpages₁, Document.start_replacement hstart₁] at hfill₁
  rw [hpages₂, Document.start_replacement hstart₂] at hfill₂
  rw [hpages₁, hpar.sources, hpages₂] at hafter
  obtain ⟨rows, hrows₁, hrows₂, hbound⟩ := hafter.pages
  rw [hfill₁] at hrows₁
  rw [hfill₂] at hrows₂
  refine ⟨⟨s₁, s₂, hstart₁, hstart₂, fun k => ?_⟩, hafter.counters, ⟨rows, hrows₁, hrows₂⟩, ?_⟩
  · rw [Document.countersAfter, Document.countersAfter, ← hpar.sources]
    exact (hpar.renderPages hready 0 _).1.counters
  · rintro rfl hsaved
    show e₁.pages = e₂.pages
    rw [hrows₁, hrows₂]
    refine List.map_congr_left fun row hrow => fill_congr fun ⟨t, n⟩ hitem => ?_
    exact r.replacement_congr e m₁ (hsaved t n (hbound row hrow t n hitem))

/-- Two pages of tokens, some with stray braces beside them. -/
def strayBraces : Proposal :=
  { (default : Proposal) with
    pages := [⟨lit "\x7b\x7b\x7bcustomText\x7d\x7d \x7b\x7bcustomText\x7d\x7d\x7d", []⟩,
      ⟨lit "\x7b\x7bcustomText\x7d\x7d\x7b\x7blineItemLabor\x7d\x7d", []⟩] }

theorem numbering_independent_strayBraces :
    ∃ d₁ d₂,
      (Renderer.standard {}).render strayBraces default .edit
        (some [(lit "customText_0", ['{', '<'])]) ⟨2024, 2, 29, by decide⟩ = .ok d₁ ∧
      (Renderer.standard {}).render strayBraces default .view none ⟨2024, 2, 29, by decide⟩ =
        .ok d₂ ∧
      d₁.counters = d₂.counters := by
  have hedit : ((Renderer.standard {}).render strayBraces default .edit
      (some [(lit "customText_0", ['{', '<'])]) ⟨2024, 2, 29, by decide⟩).toBool = true := by
    decide +kernel
  have hview : ((Renderer.standard {}).render strayBraces default .view none
      ⟨2024, 2, 29, by decide⟩).toBool = true := by
    decide +kernel
  obtain ⟨d₁, h₁⟩ := exists_ok_of_toBool hedit
  obtain ⟨d₂, h₂⟩ := exists_ok_of_toBool hview
  exact ⟨d₁, d₂, h₁, h₂, (numbering_independent h₁ h₂).2.1⟩

end Tender
