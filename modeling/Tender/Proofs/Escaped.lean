/-
Escaped mustaches.

A backslash makes a mustache literal text for the compiler.  The guard does not look for it: it hides
a token behind a backslash like any other, and a marker that the page spells out between the braces
is brought back as a token.  In both cases the token is bound.

* `Compiler.compile_escaped` — an escaped mustache is compiled to itself, whatever is in it;
* `EscapedPage.compilePage_literal`, `compilePage_name`, `compilePage_marker` — what such a page is
  compiled to while its tokens are hidden;
* `Renderer.render_escaped` — the mustache is literal in the rendered document exactly if it holds
  neither the name of a token nor the inside of a marker.
-/
import Tender.Proofs.Plain
import Tender.Proofs.Template.Concat

namespace Tender

open Text Binding

/-- A page with one mustache, which is escaped.  No text of the page has a brace of its own. -/
structure EscapedPage where
  before : Text
  body : Text
  after : Text
  before_plain : hasNoBrace before = true
  body_plain : hasNoBrace body = true
  after_plain : hasNoBrace after = true

namespace EscapedPage

/-- The page as it is written. -/
def source (p : EscapedPage) : Text :=
  p.before ++ '\\' :: (Slot.mustache p.body ++ p.after)

/-- The page as it is meant: the mustache stands in it without its backslash. -/
def literal (p : EscapedPage) : Text :=
  p.before ++ (Slot.mustache p.body ++ p.after)

end EscapedPage

/-! ### Compiling -/

/-- Where nothing is open, texts are written behind what has been read. -/
theorem Builder.Settled.addAll_texts {isHelper : Text → Bool} {maxTags maxDepth : Nat} {b : Builder}
    (h : b.Settled) (ts : List Text) :
    ∃ b', (ts.map Piece.text).foldlM (add isHelper maxTags maxDepth) b = .ok b' ∧ b'.Settled ∧
      ∀ env, Node.renderAll maxDepth env b'.nodes.reverse =
        (Node.renderAll maxDepth env b.nodes.reverse).map (· ++ ts.flatten) := by
  induction ts generalizing b with
  | nil =>
    refine ⟨b, rfl, h, fun env => ?_⟩
    cases Node.renderAll maxDepth env b.nodes.reverse with
    | error f => rfl
    | ok x => exact congrArg Except.ok (List.append_nil x).symm
  | cons t ts ih =>
    obtain ⟨b', hread, hsettled, hwritten⟩ := ih (h.addText t)
    refine ⟨b', hread, hsettled, fun env => ?_⟩
    rw [hwritten, h.renderAll_addText]
    cases Node.renderAll maxDepth env b.nodes.reverse with
    | error f => rfl
    | ok x => exact congrArg Except.ok (List.append_assoc x t ts.flatten)

/-- A page of which no piece is a tag is compiled to its texts. -/
theorem Compiler.compile_texts (c : Compiler) {source : Text} {ts : List Text}
    (h : Piece.ofPage c.settings.maxTemplateTokens source = ts.map .text) (context : Value) :
    c.compile source context = .ok ts.flatten := by
  obtain ⟨b, hread, hsettled, hwritten⟩ := @Builder.Settled.addAll_texts c.isHelper
    c.settings.maxTemplateTokens c.settings.maxBlockDepth _ Builder.Settled.start ts
  rw [compile_eq, h, hread]
  show b.written c.settings.maxBlockDepth (c.surroundings context) = _
  rw [hsettled.written_eq, hwritten]
  rfl

namespace EscapedPage

variable (p : EscapedPage)

theorem not_mem : ('{' ∉ p.before ∧ '}' ∉ p.before) ∧ ('{' ∉ p.body ∧ '}' ∉ p.body) ∧
    ('{' ∉ p.after ∧ '}' ∉ p.after) :=
  ⟨hasNoBrace_iff.1 p.before_plain, hasNoBrace_iff.1 p.body_plain, hasNoBrace_iff.1 p.after_plain⟩

theorem brace_mem_literal : '{' ∈ p.literal := by
  simp [literal, Slot.mustache, Piece.opening]

theorem ofPage_source (limit : Nat) :
    Piece.ofPage limit p.source = (if p.after = [] then [p.before, Slot.mustache p.body]
      else [p.before, Slot.mustache p.body, p.after]).map .text := by
  obtain ⟨hbefore, hbody, hafter⟩ := p.not_mem
  have hfront : Bare Piece.opening (p.before ++ ['\\']) := Bare.of_not_mem (by simp [hbefore.1])
  have hcut : cut Piece.opening p.source =
      some (p.before ++ ['\\'], p.body ++ (Piece.closing ++ p.after)) := by
    have h := cut_append_of_bare (by decide) hfront (p.body ++ (Piece.closing ++ p.after))
    simpa [source, Slot.mustache] using h
  have hclose : cut Piece.closing (p.body ++ (Piece.closing ++ p.after)) = some (p.body, p.after) :=
    cut_append_of_bare (by decide) (Bare.of_not_mem hbody.2) p.after
  have hrest : cut Piece.opening p.after = none :=
    cut_of_bare (by decide) (Bare.of_not_mem hafter.1)
  rw [Piece.ofPage, Piece.piecesFrom_escaped hcut (by simp) hclose, Piece.piecesFrom_plain hrest,
    List.dropLast_concat]
  split <;> rfl

end EscapedPage

/-- An escaped mustache is compiled to itself, whatever is in it. -/
theorem Compiler.compile_escaped (c : Compiler) (p : EscapedPage) (context : Value) :
    c.compile p.source context = .ok p.literal := by
  rw [c.compile_texts (p.ofPage_source _), EscapedPage.literal]
  split
  · rename_i hafter
    simp [hafter]
  · simp

/-! ### Hiding tokens and bringing them back -/

namespace Guard

/-- What stands between the braces of a token, or is brought back as a token where it stands there. -/
def Reserved (body : Text) : Prop :=
  ∃ t : Token, body = t.name ∨ body = markerHead ++ t.name ++ ['~']

instance (body : Text) : Decidable (Reserved body) :=
  decidable_of_iff (∃ t ∈ Token.all, body = t.name ∨ body = markerHead ++ t.name ++ ['~'])
    ⟨fun ⟨t, _, h⟩ => ⟨t, h⟩, fun ⟨t, h⟩ => ⟨t, t.mem_all, h⟩⟩

variable {body : Text}

/-- The guard takes a mustache for a token only if it is one. -/
theorem isFree (hbody : '{' ∉ body ∧ '}' ∉ body) (h : ∀ t : Token, body ≠ t.name) :
    Slot.IsFree body := by
  intro n hn
  obtain ⟨t, -, rfl⟩ := List.mem_map.1 hn
  exact bare_token t.brace_not_mem_name.2 hbody (h t).symm

/-- Behind a brace, a marker is brought back as it is on its own. -/
theorem restore_brace_marker (t : Token) (rest : Text) :
    standard.restore ('{' :: (marker t.name ++ rest)) =
      '{' :: (spelling t ++ standard.restore rest) := by
  have hnone : ∀ n ∈ Token.names, ¬ marker n <+: '{' :: (marker t.name ++ rest) := by
    intro n _ hpre
    obtain ⟨s, hs⟩ := marker_cons n
    obtain ⟨s', hs'⟩ := marker_cons t.name
    rw [hs, hs'] at hpre
    exact absurd (List.cons_prefix_cons.1 (List.cons_prefix_cons.1 hpre).2).1 (by decide)
  rw [restore_eq, atoms_cons_of_none hnone, Atom.fill_char, ← restore_eq,
    restore_append (Steady.marker t).markers, restore_marker]

end Guard

/-- Behind a third brace, a token is found as it is on its own. -/
theorem Binding.atoms_brace_spelling (t : Token) (rest : Text) :
    atoms Token.all ('{' :: (spelling t ++ rest)) =
      .char '{' :: .item t :: atoms Token.all rest := by
  have hnone : ∀ u ∈ Token.all, ¬ spelling u <+: '{' :: (spelling t ++ rest) := by
    intro u _ hpre
    have hthird : u.name ++ ['}', '}'] <+: '{' :: (t.name ++ ['}', '}'] ++ rest) :=
      (List.cons_prefix_cons.1 (List.cons_prefix_cons.1 hpre).2).2
    have hbrace : '{' ∉ u.name ++ ['}', '}'] := by simp [u.brace_not_mem_name.1]
    obtain ⟨c, s, hs⟩ := List.exists_cons_of_ne_nil
      (List.append_ne_nil_of_right_ne_nil u.name (by simp : ['}', '}'] ≠ []))
    rw [hs] at hthird hbrace
    exact hbrace ((List.cons_prefix_cons.1 hthird).1 ▸ List.mem_cons_self)
  rw [Binding.atoms, atoms_cons_of_none hnone]
  exact congrArg _ (atoms_spelling_append t.mem_all rest)

namespace EscapedPage

variable (p : EscapedPage) {r : Renderer}

/-- The page as a row, with its mustache for an item. -/
def row {α : Type} (mustache : α) : List (Atom α) :=
  p.before.map .char ++ .char '\\' :: .item mustache :: p.after.map .char

theorem ne_brace_of_mem_row {α : Type} {mustache : α} {c : Char}
    (hc : .char c ∈ p.row mustache) : c ≠ '{' ∧ c ≠ '}' := by
  have hchars : c ∈ p.before ∨ c = '\\' ∨ c ∈ p.after := by simpa [row] using hc
  rcases hchars with hc | rfl | hc
  · exact ne_brace_of_hasNoBrace p.before_plain hc
  · decide
  · exact ne_brace_of_hasNoBrace p.after_plain hc

theorem isRow (h : Slot.IsFree p.body) : Slot.IsRow (p.row (.path p.body)) := by
  refine ⟨fun c hc => p.ne_brace_of_mem_row hc, fun body hbody => ?_⟩
  have heq : body = p.body := by simpa [row] using hbody
  exact heq ▸ h

/-- A page without a token has nothing to hide. -/
theorem escape_source (h : ∀ t : Token, p.body ≠ t.name) :
    Guard.standard.escape p.source = p.source := by
  have hescape := Guard.escape_row (p.isRow (Guard.isFree p.not_mem.2.1 h))
  simpa [row, Slot.source, Slot.hidden, source] using hescape

theorem compilePage_source (hguard : r.guard = Guard.standard)
    (hlength : p.source.length ≤ r.settings.maxPageChars) (h : ∀ t : Token, p.body ≠ t.name)
    (context : Value) :
    r.compilePage p.source context = .ok (Guard.standard.restore p.literal) := by
  rw [Renderer.compilePage, if_neg (Nat.not_lt.2 hlength), hguard, p.escape_source h,
    Compiler.compile_escaped]
  rfl

/-- An escaped mustache that is neither a token nor spells out a marker is literal, and no token is
found in it. -/
theorem compilePage_literal (hguard : r.guard = Guard.standard)
    (hlength : p.source.length ≤ r.settings.maxPageChars) (h : ¬ Guard.Reserved p.body)
    (context : Value) :
    r.compilePage p.source context = .ok p.literal ∧
      atoms Token.all p.literal = p.literal.map .char := by
  obtain ⟨hbefore, hbody, hafter⟩ := p.not_mem
  have hbare {pattern : Text} (hmustache : Bare ('{' :: pattern) (Slot.mustache p.body)) :
      Bare ('{' :: pattern) p.literal :=
    (Bare.of_not_mem hbefore.1).append (hmustache.append (Bare.of_not_mem hafter.1))
  constructor
  · have hmarkers : ∀ n ∈ Token.names, Bare (Guard.marker n) p.literal := by
      intro n hn
      obtain ⟨t, -, rfl⟩ := List.mem_map.1 hn
      have hmustache := Guard.bare_marker_token t.brace_not_mem_name.2 hbody
        fun heq => h ⟨t, .inr heq⟩
      rw [Guard.marker_eq] at hmustache ⊢
      exact hbare hmustache
    rw [p.compilePage_source hguard hlength fun t ht => h ⟨t, .inl ht⟩, Guard.restore_eq,
      atoms_of_bare hmarkers, Atom.fill_chars]
  · exact atoms_of_bare fun t _ => hbare
      (Guard.bare_token t.brace_not_mem_name.2 hbody fun heq => h ⟨t, .inl heq.symm⟩)

/-- An escaped token is hidden like any other: it comes back behind its backslash. -/
theorem compilePage_name (hguard : r.guard = Guard.standard)
    (hlength : p.source.length ≤ r.settings.maxPageChars) {t : Token} (h : p.body = t.name)
    (context : Value) :
    ∃ html, r.compilePage p.source context = .ok html ∧ tokens (atoms Token.all html) = [t] := by
  have hrow : IsTokenRow (p.row t) := fun c hc => p.ne_brace_of_mem_row hc
  have hsource : p.source = Atom.fill spelling (p.row t) := by
    have hmustache : Slot.mustache p.body = spelling t := by rw [h]; rfl
    simp [row, source, hmustache]
  rw [hsource] at hlength ⊢
  refine ⟨_, Renderer.compilePage_row hguard hrow hlength context, ?_⟩
  rw [hrow.atoms_fill]
  simp [row]

/-- A marker that is spelled out between the braces comes back as a token between two more. -/
theorem compilePage_marker (hguard : r.guard = Guard.standard)
    (hlength : p.source.length ≤ r.settings.maxPageChars) {t : Token}
    (h : p.body = Guard.markerHead ++ t.name ++ ['~']) (context : Value) :
    ∃ html, r.compilePage p.source context = .ok html ∧ tokens (atoms Token.all html) = [t] := by
  obtain ⟨hbefore, -, hafter⟩ := p.not_mem
  have hno_name : ∀ u : Token, p.body ≠ u.name := fun u heq =>
    not_mem_name u.isName_name (c := '~') (by decide) (by simp [← heq, h])
  have hliteral : p.literal = p.before ++ '{' :: (Guard.marker t.name ++ '}' :: p.after) := by
    simp [literal, Slot.mustache, Piece.opening, Piece.closing, Guard.marker_eq, h]
  have hrest : '{' ∉ '}' :: p.after := by simp [hafter.1]
  refine ⟨_, p.compilePage_source hguard hlength hno_name context, ?_⟩
  rw [hliteral, Guard.restore_append (Guard.sealed_of_no_brace hbefore.1),
    Guard.restore_of_no_brace hbefore.1, Guard.restore_brace_marker,
    Guard.restore_of_no_brace hrest]
  have hatoms : Binding.atoms Token.all (p.before ++ '{' :: (spelling t ++ '}' :: p.after)) =
      p.before.map .char ++ .char '{' :: .item t :: ('}' :: p.after).map .char := by
    rw [← atoms_of_no_brace hrest, ← atoms_brace_spelling, ← atoms_of_no_brace hbefore.1]
    exact whole_of_no_brace hbefore.1 _
  rw [hatoms]
  simp only [tokens_append, tokens_chars, tokens_char, tokens_item, List.nil_append]

/-- The page is short enough to be compiled, and its mustache is neither a token nor spells out a
marker. -/
def Fits (settings : Settings) : Prop :=
  p.source.length ≤ settings.maxPageChars ∧ ¬ Guard.Reserved p.body

end EscapedPage

/-! ### Rendering -/

/-- The counters have moved on behind a token. -/
theorem Counters.after_singleton_ne (c : Counters) (t : Token) : c.after [t] ≠ c := by
  intro h
  have hnumber := congrArg (Counters.number · t) h
  simp only [after_cons, after_nil, next_number] at hnumber
  omega

/-- The page is rendered, and it is literal without a counter moving exactly if it fits. -/
theorem EscapedPage.renderPage (p : EscapedPage) {d : Document}
    (hguard : d.renderer.guard = Guard.standard) (hready : d.stage.Ready) :
    ∃ page counters,
      d.renderPage p.source =
        ({ d with stage := .binding, counters := counters, pages := d.pages ++ [page] }, none) ∧
      (page = p.literal ∧ counters = d.counters ↔ p.Fits d.renderer.settings) := by
  by_cases hlength : p.source.length ≤ d.renderer.settings.maxPageChars
  · by_cases hreserved : Guard.Reserved p.body
    · -- the token that the guard finds is counted
      obtain ⟨t, html, hcompile, htokens⟩ : ∃ t html,
          d.renderer.compilePage p.source (.map d.context) = .ok html ∧
            tokens (atoms Token.all html) = [t] := by
        obtain ⟨t, hname | hmarker⟩ := hreserved
        · exact ⟨t, p.compilePage_name hguard hlength hname _⟩
        · exact ⟨t, p.compilePage_marker hguard hlength hmarker _⟩
      refine ⟨_, _, Document.renderPage_ok hready hcompile, ?_⟩
      rw [htokens]
      exact ⟨fun h => absurd h.2 (Counters.after_singleton_ne _ t), fun h => absurd hreserved h.2⟩
    · obtain ⟨hcompile, hatoms⟩ := p.compilePage_literal hguard hlength hreserved (.map d.context)
      refine ⟨p.literal, d.counters, ?_, ?_⟩
      · rw [Document.renderPage_ok hready hcompile, Document.addPage_of_chars hatoms]
      · exact ⟨fun _ => ⟨hlength, hreserved⟩, fun _ => ⟨rfl, rfl⟩⟩
  · -- the diagnostic of a page that is too long holds no brace
    let notice : Text := Problem.diagnostic
      ⟨.pageTooLong p.source.length d.renderer.settings.maxPageChars, none⟩
    have hcompile : d.renderer.compilePage p.source (.map d.context) = .ok notice :=
      if_pos (Nat.lt_of_not_le hlength)
    have hbrace : '{' ∉ notice := (hasNoBrace_iff.1 (Problem.hasNoBrace_diagnostic _)).1
    refine ⟨notice, d.counters, ?_, fun h => ?_, fun h => absurd h.1 hlength⟩
    · rw [Document.renderPage_ok hready hcompile,
        Document.addPage_of_chars (atoms_of_no_brace hbrace)]
    · exact absurd (h.1 ▸ p.brace_mem_literal) hbrace

/-- The document of the one page. -/
theorem EscapedPage.render_page (p : EscapedPage) {settings : Settings} {template : Proposal}
    (hsources : template.sources = [p.source]) (hlimit : 0 < settings.maxPages) {e : Estimate}
    {today : Date} {context : Entries Value}
    (hcontext : Context.build e today settings = .ok context) (mode : Mode)
    (values : Option (Entries Text)) :
    ∃ d, (Renderer.standard settings).render template e mode values today = .ok d ∧
      (d.html = .ok p.literal ∧ d.counters = Counters.start ↔ p.Fits settings) := by
  let d : Document := ⟨Renderer.standard settings, [p.source], e, mode, values.getD e.values,
    context, Counters.start, .notStarted, []⟩
  have hstart : Document.start (Renderer.standard settings) template e mode values today = .ok d :=
    Document.start_ok.2 ⟨context, hcontext, by rw [hsources]⟩
  obtain ⟨page, counters, hpage, hexact⟩ := p.renderPage (d := d) rfl (.inl rfl)
  have hroom : ¬ d.renderer.settings.maxPages ≤ 0 := Nat.not_le.2 hlimit
  have hpages : d.renderPages 0 d.sources =
      ({ d with stage := .binding, counters := counters, pages := [page] }, none) := by
    show d.renderPages 0 [p.source] = _
    rw [Document.renderPages_cons, if_neg hroom, hpage]
    rfl
  refine ⟨_, Renderer.render_ok.2 ⟨d, hstart, Document.run_of_pages rfl hpages (.inr rfl)⟩, ?_⟩
  rw [Document.html, if_pos rfl, joinWith_singleton, Except.ok.injEq]
  exact hexact

/-- A page with an escaped mustache is rendered whatever is in the mustache, wherever in a document it
stands.  For every estimate, mode and map of variables, the document of this one page is the page
with its mustache literal, and no counter moves, exactly if the data of the estimate can be brought
together and the page fits. -/
theorem Renderer.render_escaped {settings : Settings} {r : Renderer}
    (hr : Renderer.new settings = .ok r) (p : EscapedPage) :
    (∀ d : Document, d.renderer = r → d.stage.Ready → ∃ page counters,
      d.renderPage p.source =
        ({ d with stage := .binding, counters := counters, pages := d.pages ++ [page] }, none) ∧
      (page = p.literal ∧ counters = d.counters ↔ p.Fits settings)) ∧
    ∀ template e mode values today, template.sources = [p.source] → 0 < settings.maxPages →
      ((∃ d, r.render template e mode values today = .ok d ∧ d.html = .ok p.literal ∧
          d.counters = Counters.start) ↔
        (∃ context, Context.build e today settings = .ok context) ∧ p.Fits settings) := by
  rw [Renderer.new_eq] at hr
  cases hr
  refine ⟨?_, ?_⟩
  · rintro d hrenderer hready
    have hsettings : d.renderer.settings = settings := by
      rw [hrenderer]
      rfl
    obtain ⟨page, counters, hpage, hexact⟩ :=
      p.renderPage (hrenderer ▸ rfl : d.renderer.guard = Guard.standard) hready
    exact ⟨page, counters, hpage, hsettings ▸ hexact⟩
  · intro template e mode values today hsources hlimit
    constructor
    · rintro ⟨d, hrender, hhtml, hcounters⟩
      obtain ⟨d₀, hstart, -⟩ := Renderer.render_ok.1 hrender
      obtain ⟨context, hcontext, -⟩ := Document.start_ok.1 hstart
      obtain ⟨d', hrender', hexact⟩ := p.render_page hsources hlimit hcontext mode values
      cases hrender.symm.trans hrender'
      exact ⟨⟨context, hcontext⟩, hexact.1 ⟨hhtml, hcounters⟩⟩
    · rintro ⟨⟨context, hcontext⟩, hfits⟩
      obtain ⟨d, hrender, hexact⟩ := p.render_page hsources hlimit hcontext mode values
      exact ⟨d, hrender, hexact.2 hfits⟩

/-- A page that quotes the tag of a block. -/
def EscapedPage.eachTag : EscapedPage :=
  ⟨lit "Write ", lit "#each rates", lit ".", by decide +kernel, by decide +kernel, by decide +kernel⟩

/-- A page that quotes a token. -/
def EscapedPage.customText : EscapedPage :=
  ⟨[], lit "customText", [], by decide +kernel, by decide +kernel, by decide +kernel⟩

theorem Renderer.render_escaped_eachTag :
    ∃ d, (Renderer.standard {}).render
        { (default : Proposal) with pages := [⟨EscapedPage.eachTag.source, []⟩] } default .view none
        ⟨2024, 2, 29, by decide⟩ = .ok d ∧
      d.html = .ok (lit "Write \x7b\x7b#each rates\x7d\x7d.") ∧ d.counters = Counters.start := by
  have hcontext : (Context.build default ⟨2024, 2, 29, by decide⟩ {}).toBool = true := by
    decide +kernel
  have hfits : EscapedPage.eachTag.Fits {} := ⟨by decide +kernel, by decide +kernel⟩
  obtain ⟨-, hrender⟩ := Renderer.render_escaped (Renderer.new_eq {}) EscapedPage.eachTag
  have hliteral : EscapedPage.eachTag.literal = lit "Write \x7b\x7b#each rates\x7d\x7d." := by
    decide +kernel
  rw [← hliteral]
  exact (hrender _ default .view none ⟨2024, 2, 29, by decide⟩ rfl (by decide)).2
    ⟨exists_ok_of_toBool hcontext, hfits⟩

/-- The guard hides an escaped token, and it is bound: the page is not literal, and a counter moves. -/
theorem Renderer.render_escapedToken :
    EscapedPage.customText.source = lit "\\\x7b\x7bcustomText\x7d\x7d" ∧
      ∃ d, (Renderer.standard {}).render
          { (default : Proposal) with pages := [⟨EscapedPage.customText.source, []⟩] } default .view
          none ⟨2024, 2, 29, by decide⟩ = .ok d ∧
        d.html ≠ .ok EscapedPage.customText.literal ∧ d.counters.custom .text = 1 := by
  refine ⟨by decide +kernel, ?_⟩
  have hrender : (((Renderer.standard {}).render
      { (default : Proposal) with pages := [⟨EscapedPage.customText.source, []⟩] } default .view none
      ⟨2024, 2, 29, by decide⟩).toOption.map fun d =>
        (decide (d.html.toOption = some EscapedPage.customText.literal), d.counters.custom .text)) =
        some (false, 1) := by decide +kernel
  obtain ⟨d, hd, hpair⟩ := Option.map_eq_some_iff.1 hrender
  obtain ⟨hhtml, hcount⟩ := Prod.mk.inj hpair
  refine ⟨d, ok_of_toOption hd, fun heq => ?_, hcount⟩
  rw [heq] at hhtml
  exact of_decide_eq_false hhtml rfl

end Tender
