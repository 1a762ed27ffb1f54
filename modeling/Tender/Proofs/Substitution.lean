/-
Pages without tokens.

Nothing is hidden in a page without tokens, so what is left is that neither the compiler nor the
data put a token together:

* `TokenFree.bare_html` — no token and no marker starts in what a page without loose ends is
  compiled to, whatever the data;
* `Renderer.render_token_free` — such pages are rendered as they are compiled, and no counter moves.
-/
import Tender.Proofs.Plain
import Tender.Proofs.Template.Builder

namespace Tender

open Text Binding

namespace Guard

/-- A page in which no token stands has nothing to hide. -/
theorem escape_of_not_infix {s : Text} (h : ∀ n ∈ Token.names, ¬ token n <:+: s) :
    standard.escape s = s := by
  have hfrom : ∀ before,
      Atom.fill marker (atomsFrom standard.findToken [] before 0 s) = s := by
    induction s with
    | nil => exact fun _ => rfl
    | cons c s ih =>
      intro before
      have hnone : standard.findToken before (c :: s) = none :=
        findToken_eq_none proper_standard fun n hn hpre => h n hn hpre.isInfix
      rw [atomsFrom_none hnone, Atom.fill_char,
        ih fun n hn hstands => h n hn (hstands.trans (List.suffix_cons c s).isInfix)]
  exact hfrom none

end Guard

/-! ### Pages without tokens -/

namespace Renderer

/-- A page within the limit without tokens and markers, whose literal texts have no loose ends. -/
structure TokenFree (r : Renderer) (source : Text) : Prop where
  length : source.length ≤ r.settings.maxPageChars
  tokens : ∀ t : Token, ¬ spelling t <:+: source
  markers : ∀ t : Token, ¬ Guard.marker t.name <:+: source
  /-- No literal text ends inside a token or a marker. -/
  ends : ∀ page, r.compiler.read source = .ok page → ∀ s ∈ Node.textsOf page.nodes, ∀ t : Token,
    ¬ EndsInside (spelling t) s ∧ ¬ EndsInside (Guard.marker t.name) s

namespace TokenFree

variable {r : Renderer} {source : Text}

/-- No data make a token or a marker. -/
theorem bare_html (h : r.TokenFree source) {context : Value} {html : Text}
    (hcompile : r.compiler.compile source context = .ok html) (t : Token) :
    Bare (spelling t) html ∧ Bare (Guard.marker t.name) html := by
  obtain ⟨page, hread, hrender⟩ := ok_of_bind hcompile
  have hstands := Page.infix_of_mem_textsOf hread
  have hwritten := Node.written_renderAll page.nodes hrender
  constructor
  · refine hwritten.holds (fun s hs => ?_) (fun s hs => ?_) fun _ _ => Bare.append
    · exact bare_of_not_infix (fun hinside => h.tokens t (hinside.trans (hstands s hs)))
        (h.ends page hread s hs t).1
    · exact bare_of_no_brace (hasNoBrace_iff.1 hs).1 t
  · refine hwritten.holds (fun s hs => ?_) (fun s hs => ?_) fun _ _ => Bare.append
    · exact bare_of_not_infix (fun hinside => h.markers t (hinside.trans (hstands s hs)))
        (h.ends page hread s hs t).2
    · exact Guard.bare_marker_of_no_brace (hasNoBrace_iff.1 hs).1 t.name

/-- A page without tokens is compiled as it is. -/
theorem compilePage (h : r.TokenFree source) (hguard : r.guard = Guard.standard)
    (context : Value) : r.compilePage source context = r.compiler.compile source context := by
  have hescape : Guard.standard.escape source = source := by
    refine Guard.escape_of_not_infix fun n hn => ?_
    obtain ⟨t, -, rfl⟩ := List.mem_map.1 hn
    exact h.tokens t
  rw [Renderer.compilePage, if_neg (Nat.not_lt.2 h.length), hguard, hescape]
  cases hcompile : r.compiler.compile source context with
  | error f => rfl
  | ok html =>
    have hatoms : atoms (spelled Guard.marker Token.names) html = html.map .char := by
      refine atoms_of_bare fun n hn => ?_
      obtain ⟨t, -, rfl⟩ := List.mem_map.1 hn
      exact (h.bare_html hcompile t).2
    show Except.ok (Guard.standard.restore html) = _
    rw [Guard.restore_eq, hatoms, Atom.fill_chars]

/-- A page without tokens is left alone by the binding passes. -/
theorem addPage (h : r.TokenFree source) {d : Document} {html : Text} {context : Value}
    (hcompile : r.compiler.compile source context = .ok html) :
    d.addPage html = { d with stage := .binding, pages := d.pages ++ [html] } :=
  Document.addPage_of_chars (atoms_of_bare fun t _ => (h.bare_html hcompile t).1)

theorem renderPage {d : Document} (h : d.renderer.TokenFree source)
    (hguard : d.renderer.guard = Guard.standard) (hready : d.stage.Ready) :
    d.renderPage source = match d.renderer.compiler.compile source (.map d.context) with
      | .ok html => ({ d with stage := .binding, pages := d.pages ++ [html] }, none)
      | .error f => ({ d with stage := .compiling }, some f) := by
  rw [Document.renderPage_eq hready, h.compilePage hguard]
  cases hcompile : d.renderer.compiler.compile source (.map d.context) with
  | error f => rfl
  | ok html => simp only [h.addPage hcompile]

end TokenFree

end Renderer

/-- A page without tokens is pure substitution of data: no data put a token or a marker into what it is
compiled to, it is rendered as it is compiled, and no counter moves. -/
theorem Renderer.render_token_free {settings : Settings} {r : Renderer}
    (hr : Renderer.new settings = .ok r) {source : Text} (hfree : r.TokenFree source) :
    (∀ context html, r.compiler.compile source context = .ok html →
      ∀ t : Token, ¬ spelling t <:+: html ∧ ¬ Guard.marker t.name <:+: html) ∧
    (∀ d : Document, d.renderer = r → d.stage.Ready →
      d.renderPage source = match r.compiler.compile source (.map d.context) with
        | .ok html => ({ d with stage := .binding, pages := d.pages ++ [html] }, none)
        | .error f => ({ d with stage := .compiling }, some f)) ∧
    ∀ template e mode values today d d₀, Document.start r template e mode values today = .ok d₀ →
      r.render template e mode values today = .ok d →
      ∀ i, i < settings.maxPages → template.sources[i]? = some source →
        ∃ context html, Context.build e today settings = .ok context ∧
          r.compiler.compile source (.map context) = .ok html ∧ d.pages[i]? = some html ∧
          d₀.countersAfter (i + 1) = d₀.countersAfter i := by
  rw [Renderer.new_eq] at hr
  cases hr
  refine ⟨fun context html hcompile t => ?_, ?_, ?_⟩
  · obtain ⟨htoken, hmarker⟩ := hfree.bare_html hcompile t
    exact ⟨not_infix_of_bare (spelling_ne_nil t) htoken,
      not_infix_of_bare (Guard.marker_ne_nil t.name) hmarker⟩
  · rintro d hrenderer hready
    rw [TokenFree.renderPage (hrenderer ▸ hfree) (by rw [hrenderer]; rfl) hready, hrenderer]
  · intro template e mode values today d d₀ hstart hrender i hi hsource
    obtain ⟨d₁, hstart₁, hrun⟩ := Renderer.render_ok.1 hrender
    cases hstart.symm.trans hstart₁
    obtain ⟨context, hcontext, hd₀⟩ := Document.start_ok.1 hstart
    have hready₀ : d₀.stage.Ready := by
      rw [hd₀]
      exact .inl rfl
    have hinputs := Document.renderPages_sameInputs hready₀ 0 (template.sources.take i)
    subst hd₀
    obtain ⟨d₂, hpages, rfl⟩ := Document.run_ok hrun
    obtain ⟨before, page, hbefore, htake, hstep, hready, hlength, hprefix⟩ :=
      Document.renderPages_at hready₀ (by rw [Nat.zero_add]; exact hi) hsource hpages
    -- the page is rendered with the renderer and the context that the document was started with
    rw [hbefore] at hinputs
    obtain ⟨hrenderer, -, -, -, -, hcontext'⟩ := hinputs
    rw [TokenFree.renderPage (hrenderer ▸ hfree) (by rw [hrenderer]; rfl) hready, hrenderer,
      hcontext'] at hstep
    cases hcompile : (standard settings).compiler.compile source (.map context) with
    | error f =>
      rw [hcompile] at hstep
      cases hstep
    | ok html =>
      rw [hcompile] at hstep
      cases hstep
      refine ⟨context, html, hcontext, hcompile, ?_, ?_⟩
      · obtain ⟨more, hmore⟩ := hprefix
        have hindex : before.pages.length = i := by simpa using hlength
        show d₂.pages[i]? = some html
        rw [← hmore, List.append_assoc, ← hindex, List.getElem?_append_right (Nat.le_refl _),
          Nat.sub_self]
        rfl
      · rw [Document.countersAfter, Document.countersAfter, htake, hbefore]

/-- A page with what stands around a name in a marker, and a blank on each side of the name. -/
def spacedName : Text := lit "\x7b~protected: \x7b\x7bprojectName\x7d\x7d ~\x7d"

/-- A page with what stands around a name in a marker. -/
def tightName : Text := lit "\x7b~protected:\x7b\x7bprojectName\x7d\x7d~\x7d"

/-- An estimate for a project with the name of a token. -/
def tokenProject : Estimate :=
  { (default : Estimate) with projectName := some (lit "customText") }

theorem tokenFree_spacedName : (Renderer.standard {}).TokenFree spacedName := by
  have hsource : ∀ t ∈ Token.all, ¬ spelling t <:+: spacedName ∧
      ¬ Guard.marker t.name <:+: spacedName := by decide +kernel
  have hends : ((Renderer.standard {}).compiler.read spacedName).toOption.map
      (fun page : Page => decide (∀ s ∈ Node.textsOf page.nodes, ∀ t ∈ Token.all,
        ¬ EndsInside (spelling t) s ∧ ¬ EndsInside (Guard.marker t.name) s)) = some true := by
    decide +kernel
  refine ⟨by decide +kernel, fun t => (hsource t t.mem_all).1, fun t => (hsource t t.mem_all).2,
    fun page hread s hs t => ?_⟩
  rw [hread] at hends
  exact of_decide_eq_true (Option.some.inj hends) s hs t t.mem_all

theorem Renderer.render_token_free_spacedName :
    ∃ d, (Renderer.standard {}).render
        { (default : Proposal) with pages := [⟨spacedName, []⟩] } tokenProject .view none
        ⟨2024, 2, 29, by decide⟩ = .ok d ∧
      ∃ context html, Context.build tokenProject ⟨2024, 2, 29, by decide⟩ {} = .ok context ∧
        (Compiler.standard {}).compile spacedName (.map context) = .ok html ∧
        d.pages[0]? = some html := by
  have hrender : ((Renderer.standard {}).render
      { (default : Proposal) with pages := [⟨spacedName, []⟩] } tokenProject .view none
      ⟨2024, 2, 29, by decide⟩).toBool = true := by decide +kernel
  obtain ⟨d, hd⟩ := exists_ok_of_toBool hrender
  obtain ⟨d₀, hstart, -⟩ := Renderer.render_ok.1 hd
  obtain ⟨-, -, hpages⟩ := Renderer.render_token_free (Renderer.new_eq {}) tokenFree_spacedName
  obtain ⟨context, html, hcontext, hcompile, hpage, -⟩ :=
    hpages _ _ _ _ _ d d₀ hstart hd 0 (by decide) rfl
  exact ⟨d, hd, context, html, hcontext, hcompile, hpage⟩

/-- A name that is put between the two halves of a marker makes a token: the page is not rendered as
it is compiled, and a counter moves. -/
theorem Renderer.render_tightName :
    (∀ t : Token, ¬ spelling t <:+: tightName ∧ ¬ Guard.marker t.name <:+: tightName) ∧
      ∃ context d, Context.build tokenProject ⟨2024, 2, 29, by decide⟩ {} = .ok context ∧
        (Compiler.standard {}).compile tightName (.map context) =
          .ok (Guard.marker (lit "customText")) ∧
        (Renderer.standard {}).render
          { (default : Proposal) with pages := [⟨tightName, []⟩] } tokenProject .view none
          ⟨2024, 2, 29, by decide⟩ = .ok d ∧
        d.pages ≠ [Guard.marker (lit "customText")] ∧ d.counters.custom .text = 1 := by
  have hsource : ∀ t ∈ Token.all, ¬ spelling t <:+: tightName ∧
      ¬ Guard.marker t.name <:+: tightName := by decide +kernel
  have hcompile : ((Context.build tokenProject ⟨2024, 2, 29, by decide⟩ {}).toOption.bind
      fun context => ((Compiler.standard {}).compile tightName (.map context)).toOption) =
        some (Guard.marker (lit "customText")) := by decide +kernel
  have hrender : (((Renderer.standard {}).render
      { (default : Proposal) with pages := [⟨tightName, []⟩] } tokenProject .view none
      ⟨2024, 2, 29, by decide⟩).toOption.map fun d =>
        (decide (d.pages = [Guard.marker (lit "customText")]), d.counters.custom .text)) =
        some (false, 1) := by decide +kernel
  refine ⟨fun t => hsource t t.mem_all, ?_⟩
  obtain ⟨context, hcontext, hhtml⟩ := Option.bind_eq_some_iff.1 hcompile
  obtain ⟨d, hd, hpages⟩ := Option.map_eq_some_iff.1 hrender
  obtain ⟨hpages, hcount⟩ := Prod.mk.inj hpages
  exact ⟨context, d, ok_of_toOption hcontext, ok_of_toOption hhtml, ok_of_toOption hd,
    of_decide_eq_false hpages, hcount⟩

end Tender
