/-
The braces of a page come from its literal texts.

* `braces_renderAll` — nodes without blocks are written with the braces of their literal texts, in
  the same order;
* `Compiler.braces_compile` — so no brace of a compiled page comes from data, from a helper or from
  a diagnostic.
-/
import Tender.Proofs.Renderer
import Tender.Proofs.Template.Written

namespace Tender

open Text

namespace Text

/-- The braces of a text in order. -/
def braces (s : Text) : Text := s.filter fun c => c = '{' || c = '}'

@[simp] theorem braces_nil : braces [] = [] := rfl

@[simp] theorem braces_append (s t : Text) : braces (s ++ t) = braces s ++ braces t :=
  List.filter_append s t

theorem braces_eq_nil {s : Text} (h : hasNoBrace s = true) : braces s = [] := by
  refine List.filter_eq_nil_iff.2 fun c hc => ?_
  obtain ⟨hopen, hclose⟩ := ne_brace_of_hasNoBrace h hc
  simp [hopen, hclose]

end Text

namespace Node

/-- Whether a node is a block. -/
def isBlock : Node → Bool
  | .block .. => true
  | _ => false

/-- A node that is no block is written with the braces of its literal text, if it has one. -/
theorem braces_render {maxDepth : Nat} {env : Surroundings} {n : Node} {html : Text}
    (hn : n.isBlock = false) (h : render maxDepth env n = .ok html) :
    braces html = braces n.texts.flatten := by
  cases n with
  | text s =>
    rw [render] at h
    cases h
    rw [texts_text, List.flatten_singleton]
  | problem p =>
    rw [render] at h
    cases h
    rw [texts_problem]
    exact braces_eq_nil p.hasNoBrace_diagnostic
  | shown e raw =>
    rw [render] at h
    rw [texts_shown]
    exact braces_eq_nil (hasNoBrace_showExpr h)
  | block => cases hn

theorem braces_renderAll {maxDepth : Nat} {env : Surroundings} {nodes : List Node} {html : Text}
    (hnodes : ∀ n ∈ nodes, n.isBlock = false) (h : renderAll maxDepth env nodes = .ok html) :
    braces html = braces (textsOf nodes).flatten := by
  induction nodes generalizing html with
  | nil =>
    rw [renderAll] at h
    cases h
    rw [textsOf_nil, List.flatten_nil]
  | cons n nodes ih =>
    obtain ⟨a, b, ha, hb, rfl⟩ := renderAll_cons_ok h
    rw [braces_append, textsOf_cons, List.flatten_append, braces_append,
      braces_render (hnodes n List.mem_cons_self) ha,
      ih (fun m hm => hnodes m (List.mem_cons_of_mem n hm)) hb]

end Node

namespace Compiler

theorem compile_ok {c : Compiler} {source : Text} {context : Value} {html : Text}
    (h : c.compile source context = .ok html) :
    ∃ page, c.read source = .ok page ∧
      Node.renderAll c.settings.maxBlockDepth (c.surroundings context) page.nodes = .ok html :=
  ok_of_bind h

/-- The braces of a compiled page come from its literal texts, whatever the data and the helpers are:
if no literal text holds a brace, the page is compiled to a text without braces, and a page without
blocks is compiled to a text with the braces of its literal texts in their order. -/
theorem braces_compile {c : Compiler} {source : Text} {context : Value} {html : Text}
    (h : c.compile source context = .ok html) :
    ∃ page, c.read source = .ok page ∧
      ((∀ s ∈ Node.textsOf page.nodes, hasNoBrace s = true) → hasNoBrace html = true) ∧
      ((∀ n ∈ page.nodes, n.isBlock = false) →
        braces html = braces (Node.textsOf page.nodes).flatten) := by
  obtain ⟨page, hread, hrender⟩ := compile_ok h
  refine ⟨page, hread, fun htexts => ?_, fun hnodes => Node.braces_renderAll hnodes hrender⟩
  refine (Node.written_renderAll page.nodes hrender).holds htexts (fun t ht => ht) ?_
  intro s t hs ht
  rw [hasNoBrace_append, hs, ht]
  rfl

/-- A map that is shown raw, a tag without its helper and a call that fails, between two braces. -/
def bracedSource : Text :=
  lit "\x7b \x7b\x7b\x7brates\x7d\x7d\x7d \x7b\x7bnope rates\x7d\x7d \x7b\x7beq 1\x7d\x7d \x7d"

theorem braces_compile_bracedSource :
    ∃ html, (standard {}).compile bracedSource
        (.map [(lit "rates", .map [(lit "hour", .int 80)])]) = .ok html ∧
      braces html = ['{', '}'] := by
  have hcompile : ((standard {}).compile bracedSource
      (.map [(lit "rates", .map [(lit "hour", .int 80)])])).toBool = true := by decide +kernel
  have htexts : ((standard {}).read bracedSource).toOption.map
      (fun page => (page.nodes.any Node.isBlock, braces (Node.textsOf page.nodes).flatten)) =
      some (false, ['{', '}']) := by decide +kernel
  obtain ⟨html, h⟩ := exists_ok_of_toBool hcompile
  obtain ⟨page, hread, -, hbraces⟩ := braces_compile h
  rw [hread] at htexts
  obtain ⟨hblocks, hpage⟩ := Prod.mk.inj (Option.some.inj htexts)
  refine ⟨html, h, ?_⟩
  rw [hbraces fun n hn => ?_]
  · exact hpage
  · simpa using List.any_eq_false.1 hblocks n hn

end Compiler

end Tender
