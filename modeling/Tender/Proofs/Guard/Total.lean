/-
Every marker that is introduced is removed.

A compiled page is put together from its literal texts, which hold whole markers, and from texts
that hold no part of one.  So its markers are those of its hidden tokens, and each becomes a token
again.

* `Restorable` — a text in which markers start as wholes only, whatever follows it;
* `Restorable.not_infix_restore` — such a text holds no start of a marker once its tokens are back;
* `restorable_of_part` — the literal texts of a page are such texts;
* `Renderer.compilePage_markerless` — a page whose expressions and diagnostics bring no start of a
  marker along is compiled to a text that holds none.
-/
import Tender.Proofs.Guard.Hidden
import Tender.Proofs.Guard.RoundTrip
import Tender.Proofs.Template.Shown

namespace Tender

open Text

namespace Guard

variable {row : List (Atom Text)} {s t : Text}

theorem tilded_markerHead : Tilded markerHead := by
  have hplain : markerHead.all (fun c => c == '~' || c == ':' || c.isLower) = true := by
    decide +kernel
  refine ⟨by decide +kernel, fun c hc => ?_⟩
  simpa [or_assoc] using List.all_eq_true.1 hplain c hc

/-! ### Rows with their markers left out -/

/-- What is left of a marker where only the characters of a row matter: its opening brace. -/
def hole (_ : Text) : Text := ['{']

theorem hole_head (n : Text) : ∃ s, hole n = '{' :: s := ⟨[], rfl⟩

/-- Text without a brace is made up of characters of the row. -/
theorem split_hole {u x y : Text} (hx : '{' ∉ x) (h : Atom.fill hole row = u ++ (x ++ y)) :
    ∃ before after, row = before ++ (x.map .char ++ after) ∧ Atom.fill hole after = y := by
  induction row generalizing u with
  | nil =>
    obtain ⟨-, hxy⟩ := List.append_eq_nil_iff.1 h.symm
    obtain ⟨rfl, rfl⟩ := List.append_eq_nil_iff.1 hxy
    exact ⟨[], [], rfl, rfl⟩
  | cons a row ih =>
    cases u with
    | nil =>
      obtain ⟨after, hafter⟩ := chars_of_prefix hx hole_head ⟨y, h.symm⟩
      rw [hafter, Atom.fill_append, Atom.fill_chars, List.nil_append] at h
      exact ⟨[], after, hafter, List.append_cancel_left h⟩
    | cons e u =>
      have htail : Atom.fill hole row = u ++ (x ++ y) := by
        cases a <;> exact (List.cons.inj h).2
      obtain ⟨before, after, rfl, hafter⟩ := ih htail
      exact ⟨a :: before, after, rfl, hafter⟩

theorem infix_of_infix_hole {x : Text} (hx : '{' ∉ x) (h : x <:+: Atom.fill hole row)
    (w : Text → Text) : x <:+: Atom.fill w row := by
  obtain ⟨u, y, h⟩ := h
  obtain ⟨before, after, rfl, -⟩ := split_hole hx (h.symm.trans (List.append_assoc u x y))
  exact ⟨Atom.fill w before, Atom.fill w after, by simp⟩

theorem suffix_of_suffix_hole {x : Text} (hx : '{' ∉ x) (h : x <:+ Atom.fill hole row)
    (w : Text → Text) : x <:+ Atom.fill w row := by
  obtain ⟨u, h⟩ := h
  obtain ⟨before, after, rfl, hafter⟩ :=
    split_hole hx (h.symm.trans (by rw [List.append_nil x] : u ++ x = u ++ (x ++ [])))
  have hnil : after = [] := by
    cases after with
    | nil => rfl
    | cons a after => cases a <;> cases hafter
  rw [hnil, List.append_nil, Atom.fill_append, Atom.fill_chars]
  exact List.suffix_append _ x

/-- A pattern without a brace starts at the same characters, however the names are written. -/
theorem clean_of_hole {α : Type} {pattern : α → Text} {items : List α}
    (hitems : ∀ a ∈ items, '{' ∉ pattern a) {w : Text → Text} (hw : ∀ n, ∃ s, w n = '{' :: s)
    (h : ∀ a ∈ items, ¬ pattern a <:+: Atom.fill hole row) : Atom.Clean pattern items w row := by
  induction row with
  | nil => exact True.intro
  | cons a row ih =>
    have htail : Atom.fill hole row <:+: Atom.fill hole (a :: row) := by
      cases a <;> exact (List.suffix_cons _ _).isInfix
    have hclean := ih fun b hb hin => h b hb (hin.trans htail)
    cases a with
    | item n => exact hclean
    | char c =>
      refine ⟨fun b hb hpre => h b hb ?_, hclean⟩
      rw [← Atom.fill_char] at hpre
      obtain ⟨after, hafter⟩ := chars_of_prefix (hitems b hb) hw hpre
      rw [hafter, Atom.fill_append, Atom.fill_chars]
      exact (List.prefix_append _ _).isInfix

/-! ### Texts whose markers can be removed -/

/-- A text of characters and markers in which no start of a marker is made up of characters,
whatever follows the text. -/
def Restorable (s : Text) : Prop :=
  ∃ row, Atom.fill marker row = s ∧ (∀ n, .item n ∈ row → n ∈ Token.names) ∧
    Bare markerHead (Atom.fill hole row)

namespace Restorable

theorem of_bare (h : Bare markerHead s) : Restorable s := by
  refine ⟨s.map .char, Atom.fill_chars _ s, fun n hn => ?_, by rwa [Atom.fill_chars]⟩
  simp at hn

theorem append (hs : Restorable s) (ht : Restorable t) : Restorable (s ++ t) := by
  obtain ⟨row, rfl, hnames, hbare⟩ := hs
  obtain ⟨row', rfl, hnames', hbare'⟩ := ht
  refine ⟨row ++ row', Atom.fill_append _ _ _, fun n hn => ?_, ?_⟩
  · exact (List.mem_append.1 hn).elim (hnames n) (hnames' n)
  · rw [Atom.fill_append]
    exact hbare.append hbare'

/-- The tokens are brought back, and no start of a marker is left. -/
theorem not_infix_restore (h : Restorable s) : ¬ markerHead <:+: standard.restore s := by
  obtain ⟨row, rfl, hnames, hbare⟩ := h
  have hhole := not_infix_of_bare tilded_markerHead.ne_nil hbare
  have hmarkers : Atom.Clean marker Token.names hole row := by
    refine clean_of_not_infix fun n _ hin => hhole (List.IsInfix.trans ?_ hin)
    exact ⟨['{'], n ++ ['~', '}'], by rw [marker_eq]; simp⟩
  -- the scan for markers reads the row again
  have hread := atoms_of_clean (fun n _ => marker_ne_nil n) proper_standard.marker_unique hnames
    (clean_marker marker_head proper_standard hmarkers)
  rw [proper_standard.restore_eq, hread]
  -- and where the markers were there are tokens now, which hold no tilde
  have hclean : Atom.Clean (fun _ : Unit => markerHead) [()] token row :=
    clean_of_hole (fun _ _ => brace_not_mem_markerHead.1) token_head fun _ _ => hhole
  have hchars := atoms_fill_of_bare hclean fun n hn _ _ => by
    have htilde : '~' ∉ token n := by
      simp [token, not_mem_name (isName_of_mem (hnames n hn)) (c := '~') (by decide)]
    exact (Bare.of_not_mem htilde).extend (p := ['~']) (by decide +kernel)
  exact not_infix_of_atoms (fun _ _ => tilded_markerHead.ne_nil) hchars () List.mem_cons_self

end Restorable

/-- The literal texts of a page with hidden tokens, if the page held no start of a marker before. -/
theorem restorable_of_part (hnames : ∀ n, .item n ∈ row → n ∈ Token.names)
    (hsource : ¬ markerHead <:+: Atom.fill token row) (h : Part row s)
    (hend : ¬ EndsInside markerHead s) : Restorable s := by
  obtain ⟨part, hpart, rfl⟩ := h
  refine ⟨part, rfl, fun n hn => hnames n (hpart.subset hn), bare_of_not_infix (fun hin => ?_) ?_⟩
  · obtain ⟨before, after, rfl⟩ := hpart
    refine hsource ((infix_of_infix_hole brace_not_mem_markerHead.1 hin token).trans ?_)
    exact ⟨Atom.fill token before, Atom.fill token after, by simp⟩
  -- an end of the row without a brace is an end of the text
  · rintro ⟨v, hv, hnil, hne, hpre⟩
    have hbrace : '{' ∉ v := fun hmem => brace_not_mem_markerHead.1 (hpre.subset hmem)
    have hsuffix := suffix_of_suffix_hole hbrace ((List.mem_tails _ _).1 hv) marker
    exact hend ⟨v, (List.mem_tails _ _).2 hsuffix, hnil, hne, hpre⟩

end Guard

/-! ### Compiled pages -/

/-- The texts beside its data that the expressions of a page bring along: literals, names of options
and the settings of the helpers. -/
def Page.wordings (s : Settings) (page : Page) : List Text :=
  (Node.exprsOf page.nodes).flatMap Expr.texts ++ [s.currencySymbol, s.dateFormat]

/-- A page that brings no start of a marker to what it is compiled to, but for its hidden tokens. -/
structure Page.Quiet (s : Settings) (context : Value) (page : Page) : Prop where
  /-- No literal text ends inside the start of a marker. -/
  ends : ∀ t ∈ Node.textsOf page.nodes, ¬ EndsInside Guard.markerHead t
  /-- No diagnostic quotes a marker. -/
  problems : ∀ q ∈ Node.problemsOf s.maxBlockDepth page.nodes, ¬ Guard.markerHead <:+: q.message
  /-- No text that can be shown holds a marker. -/
  wordings : ∀ t ∈ page.wordings s, ¬ Guard.markerHead <:+: t
  /-- No text that can be shown, or that the data hold, ends inside the start of a marker. -/
  data : ∀ t ∈ context.texts ++ page.wordings s, ¬ EndsInside Guard.markerHead t
  /-- Where dates are written, by a pattern that can leave characters out, no text has a tilde. -/
  dates : some (lit "formatDate") ∈ (Node.exprsOf page.nodes).map Expr.helper? →
    ∀ t ∈ context.texts ++ page.wordings s, '~' ∉ t

instance (s : Settings) (context : Value) (page : Page) : Decidable (page.Quiet s context) :=
  decidable_of_iff
    ((∀ t ∈ Node.textsOf page.nodes, ¬ EndsInside Guard.markerHead t) ∧
      (∀ q ∈ Node.problemsOf s.maxBlockDepth page.nodes, ¬ Guard.markerHead <:+: q.message) ∧
      (∀ t ∈ page.wordings s, ¬ Guard.markerHead <:+: t) ∧
      (∀ t ∈ context.texts ++ page.wordings s, ¬ EndsInside Guard.markerHead t) ∧
      (some (lit "formatDate") ∈ (Node.exprsOf page.nodes).map Expr.helper? →
        ∀ t ∈ context.texts ++ page.wordings s, '~' ∉ t))
    ⟨fun ⟨a, b, c, d, e⟩ => ⟨a, b, c, d, e⟩, fun ⟨a, b, c, d, e⟩ => ⟨a, b, c, d, e⟩⟩

theorem Problem.tilde_not_mem_pageTooLong (length limit : Nat) :
    '~' ∉ message ⟨.pageTooLong length limit, none⟩ := by
  simp [message, lit]

theorem Compiler.helpers_surroundings (c : Compiler) (context : Value) :
    (c.surroundings context).helpers = c.helpers := rfl

theorem Compiler.isBare_surroundings {p : Text} (c : Compiler) {context : Value}
    (h : context.IsBare p) : (c.surroundings context).IsBare p := by
  refine ⟨h, List.forall_mem_singleton.2 h, List.forall_mem_singleton.2 fun l hl => ?_⟩
  cases hl

/-- What is written of literal texts whose markers can be removed is such a text. -/
theorem Guard.restorable_of_renderAll {p : Text} (hp : Tilded p) (hhead : p <+: markerHead)
    {s : Settings} {context : Value} {page : Page}
    (htexts : ∀ t ∈ Node.textsOf page.nodes, Restorable t)
    (hproblems : ∀ q ∈ Node.problemsOf s.maxBlockDepth page.nodes, ¬ markerHead <:+: q.message)
    (hdata : ∀ t ∈ context.texts ++ page.wordings s, Bare p t)
    (hdates : some (lit "formatDate") ∈ (Node.exprsOf page.nodes).map Expr.helper? → p = ['~'])
    {html : Text} (h : Node.renderAll s.maxBlockDepth
      ((Compiler.standard s).surroundings context) page.nodes = .ok html) : Restorable html := by
  have hspreads : Node.Spreads p Restorable :=
    ⟨fun t ht => .of_bare (ht.extend hhead), fun t u => Restorable.append⟩
  rw [Page.wordings, List.forall_mem_append, List.forall_mem_append, List.forall_mem_flatMap,
    List.forall_mem_cons, List.forall_mem_singleton] at hdata
  obtain ⟨hcontext, hexprs, hsymbol, hformat⟩ := hdata
  have hbare := (Compiler.standard s).isBare_surroundings hcontext
  have hkept : Node.Kept p ((Compiler.standard s).surroundings context).helpers Restorable
      (Node.textsOf page.nodes) (Node.exprsOf page.nodes)
      (Node.problemsOf s.maxBlockDepth page.nodes) := by
    refine ⟨htexts, fun e he => ?_, fun q hq => ?_⟩
    · rw [Compiler.helpers_surroundings]
      refine ⟨hexprs e he, fun name hname helper hget => ?_⟩
      refine Compiler.suits_of_get? hp hsymbol hformat (fun hdate => hdates ?_) hget
      exact List.mem_map.2 ⟨e, he, hdate ▸ hname⟩
    · exact .of_bare (Problem.bare_diagnostic tilded_markerHead (hproblems q hq))
  exact Node.renderAll_holds hp hspreads hbare page.nodes hkept h

/-- Every marker that is introduced is removed: where neither the source nor the data hold the start
of a marker and the page brings none along, there is none in what the page is compiled to. -/
theorem Renderer.compilePage_markerless {settings : Settings} {r : Renderer}
    (hr : Renderer.new settings = .ok r) {source : Text} {context : Value}
    (hsource : ¬ Guard.markerHead <:+: source)
    (hcontext : ∀ t ∈ context.texts, ¬ Guard.markerHead <:+: t)
    (hpage : ∀ page, r.compiler.read (r.guard.escape source) = .ok page →
      page.Quiet settings context)
    {html : Text} (h : r.compilePage source context = .ok html) :
    ¬ Guard.markerHead <:+: html := by
  rw [Renderer.new_eq] at hr
  cases hr
  rw [Renderer.compilePage] at h
  split at h
  · cases h
    refine not_infix_of_bare Guard.tilded_markerHead.ne_nil
      (Problem.bare_diagnostic Guard.tilded_markerHead fun hin => ?_)
    exact Problem.tilde_not_mem_pageTooLong _ _ (hin.subset (by decide +kernel))
  · obtain ⟨hidden, hcompile, rfl⟩ := ok_of_map h
    obtain ⟨page, hread, hrender⟩ := ok_of_bind hcompile
    obtain ⟨hends, hproblems, hwordings, hdata, hdates⟩ := hpage page hread
    refine Guard.Restorable.not_infix_restore ?_
    obtain ⟨hfill, hreads⟩ := Guard.reads_atoms Guard.proper_standard source
    have htexts : ∀ t ∈ Node.textsOf page.nodes, Guard.Restorable t := by
      intro t ht
      refine Guard.restorable_of_part hreads.mem_names (hfill.symm ▸ hsource) ?_ (hends t ht)
      exact Guard.part_of_mem_textsOf (fun n hn => Guard.isName_of_mem (hreads.mem_names n hn))
        hread t ht
    -- what a date is written as is known to hold no tilde only if no text that it comes from has one
    by_cases hdate : some (lit "formatDate") ∈ (Node.exprsOf page.nodes).map Expr.helper?
    · exact Guard.restorable_of_renderAll Tilded.tilde (by decide +kernel) htexts hproblems
        (fun t ht => Tilded.bare_tilde_iff.2 (hdates hdate t ht)) (fun _ => rfl) hrender
    · have hstands : ∀ t ∈ context.texts ++ page.wordings settings, ¬ Guard.markerHead <:+: t :=
        List.forall_mem_append.2 ⟨hcontext, hwordings⟩
      exact Guard.restorable_of_renderAll Guard.tilded_markerHead (List.prefix_refl _) htexts
        hproblems (fun t ht => bare_of_not_infix (hstands t ht) (hdata t ht))
        (fun h => absurd h hdate) hrender

/-- A page with tokens in its text, in a comment and in a condition. -/
def offerPage : Text :=
  lit "\x7b\x7bcustomText\x7d\x7d for \x7b\x7bcustomerName\x7d\x7d" ++
  lit "\x7b\x7b! or \x7b\x7bcustomNumber\x7d\x7d \x7d\x7d" ++
  lit "\x7b\x7b#if (eq customerName \"\x7b\x7bcustomText\x7d\x7d\")\x7d\x7d?\x7b\x7b/if\x7d\x7d" ++
  lit ": \x7b\x7bformatCurrency total\x7d\x7d"

/-- Data for the page. -/
def offerData : Value :=
  .map [(lit "customerName", .text (lit "Ann")), (lit "total", .int 12)]

theorem Compiler.exists_read_offerPage : ∃ page,
    (standard {}).read (Guard.standard.escape offerPage) = .ok page ∧ page.Quiet {} offerData ∧
    (Node.renderAll ({} : Settings).maxBlockDepth ((standard {}).surroundings offerData)
        page.nodes).map Guard.standard.restore =
      .ok (lit "\x7b\x7bcustomText\x7d\x7d for Ann: $12.00") := by
  have hall : ((standard {}).read (Guard.standard.escape offerPage)).toOption.map
      (fun page : Page => (decide (page.Quiet {} offerData),
        ((Node.renderAll ({} : Settings).maxBlockDepth ((standard {}).surroundings offerData)
          page.nodes).map Guard.standard.restore).toOption)) =
      some (true, some (lit "\x7b\x7bcustomText\x7d\x7d for Ann: $12.00")) := by
    rw [offerPage]
    repeat rw [lit_ofList]
    decide +kernel
  obtain ⟨page, hread, hresult⟩ := Option.map_eq_some_iff.1 hall
  obtain ⟨hquiet, hhtml⟩ := Prod.mk.inj hresult
  exact ⟨page, ok_of_toOption hread, of_decide_eq_true hquiet, ok_of_toOption hhtml⟩

theorem Renderer.compilePage_markerless_offerPage :
    (standard {}).compilePage offerPage offerData =
        .ok (lit "\x7b\x7bcustomText\x7d\x7d for Ann: $12.00") ∧
      ¬ Guard.markerHead <:+: lit "\x7b\x7bcustomText\x7d\x7d for Ann: $12.00" := by
  obtain ⟨page, hread, hquiet, hhtml⟩ := Compiler.exists_read_offerPage
  have hsource : offerPage.length ≤ ({} : Settings).maxPageChars ∧
      ¬ Guard.markerHead <:+: offerPage := by
    rw [offerPage]
    repeat rw [lit_ofList]
    decide +kernel
  have h : (standard {}).compilePage offerPage offerData =
      .ok (lit "\x7b\x7bcustomText\x7d\x7d for Ann: $12.00") := by
    rw [compilePage]
    refine (if_neg (Nat.not_lt.2 hsource.1)).trans ?_
    show ((Compiler.standard {}).read (Guard.standard.escape offerPage) >>= _).map _ = _
    rw [hread]
    exact hhtml
  refine ⟨h, compilePage_markerless (new_eq {}) hsource.2 (by decide +kernel) ?_ h⟩
  intro page' hread'
  cases hread.symm.trans hread'
  exact hquiet

/-- A tag that holds a token is malformed, and its diagnostic quotes it with the token hidden. -/
def nestedTag : Text := lit "\x7b\x7bcustomerName \x7b\x7bcustomText\x7d\x7d \x7d\x7d"

/-- The one problem of a page that is nothing else. -/
def Page.problem? (page : Page) : Option Problem :=
  match page.nodes with
  | [.problem q] => some q
  | _ => none

/-- A page that is nothing but a problem is written as its diagnostic. -/
theorem Compiler.compile_of_problem (c : Compiler) {source : Text} {page : Page} {q : Problem}
    (hread : c.read source = .ok page) (hproblem : page.problem? = some q) (context : Value) :
    c.compile source context = .ok q.diagnostic := by
  have hnodes : page.nodes = [.problem q] := by
    rw [Page.problem?] at hproblem
    split at hproblem
    · rename_i q' hnodes
      cases hproblem
      exact hnodes
    · cases hproblem
  rw [compile, hread]
  show Node.renderAll _ _ page.nodes = _
  rw [hnodes]
  show Except.ok (q.diagnostic ++ []) = _
  rw [List.append_nil]

theorem Renderer.compilePage_nestedTag :
    ¬ Guard.markerHead <:+: nestedTag ∧
      ∃ html, (standard {}).compilePage nestedTag (.map []) = .ok html ∧
        Guard.markerHead <:+: html := by
  have hall : ¬ Guard.markerHead <:+: nestedTag ∧
      nestedTag.length ≤ ({} : Settings).maxPageChars ∧
      (((Compiler.standard {}).read (Guard.standard.escape nestedTag)).toOption.bind fun page =>
        page.problem?.map fun q => decide (Guard.markerHead <:+: safe q.message)) = some true := by
    decide +kernel
  obtain ⟨hsource, hlength, hpage⟩ := hall
  obtain ⟨page, hread, hpage⟩ := Option.bind_eq_some_iff.1 hpage
  obtain ⟨q, hproblem, hmarker⟩ := Option.map_eq_some_iff.1 hpage
  refine ⟨hsource, q.diagnostic, ?_, ?_⟩
  · rw [compilePage]
    refine (if_neg (Nat.not_lt.2 hlength)).trans ?_
    show ((Compiler.standard {}).compile (Guard.standard.escape nestedTag) _).map _ = _
    rw [Compiler.compile_of_problem _ (ok_of_toOption hread) hproblem]
    exact congrArg Except.ok
      (Guard.restore_of_no_brace fun h => (Problem.no_brace_diagnostic h).1 rfl)
  · exact (of_decide_eq_true hmarker).trans ⟨Problem.diagnosticHead, Problem.diagnosticTail, rfl⟩

end Tender
