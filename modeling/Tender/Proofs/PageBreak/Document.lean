/-
The pages of a document, split again.

* `split_of_isTame` — a text in which no page break of another form starts is split as it is;
* `isTame_replacement`, `Renderer.isTame_compilePage` — neither data nor saved values write such a
  page break;
* `Renderer.split_view` — so the pages of a template of text, tokens and data paths come back from
  its document exactly if the standard marker stands nowhere but between them.
-/
import Tender.Proofs.Document
import Tender.Proofs.Outline
import Tender.Proofs.PageBreak.Form

namespace Tender

open Text Binding

namespace PageBreak

/-! ### Texts without page breaks of another form -/

/-- The word that a page break of the form starts with. -/
def Form.lead : Form → Text
  | .comment => lit "<!--"
  | .classed => lit "<div class=\"page-break\">"
  | .styled => lit "<div style=\"page-break-after:"

theorem Form.after?_of_lead {form : Form} {s : Text} (h : afterWord? form.lead s = none) :
    form.after? s = none := by
  cases form <;>
  · rw [Form.lead] at h
    rw [Form.after?, h]
    rfl

/-- Whether a text differs from a word before either of them ends. -/
def differs : (word : Text) → Text → Bool
  | w :: word, c :: s => !sameLetter w c || differs word s
  | _, _ => false

theorem afterWord?_of_differs {word s : Text} (h : differs word s = true) :
    afterWord? word s = none := by
  fun_induction differs word s with
  | case1 w word c s ih =>
    rw [afterWord?]
    cases hc : sameLetter w c with
    | false => rfl
    | true => exact ih (by simpa [hc] using h)
  | case2 => cases h

theorem differs_append {word s : Text} (h : differs word s = true) (rest : Text) :
    differs word (s ++ rest) = true := by
  fun_induction differs word s with
  | case1 w word c s ih =>
    rw [List.cons_append, differs]
    rcases Bool.or_eq_true_iff.1 h with h | h
    · rw [h, Bool.true_or]
    · rw [ih h, Bool.or_true]
  | case2 => cases h

/-- Whether no page break of another form starts in a text, whatever follows the text. -/
def isTame : Text → Bool
  | [] => true
  | c :: s => Form.all.all (fun form => differs form.lead (c :: s)) && isTame s

theorem isTame_append {s t : Text} (hs : isTame s = true) (ht : isTame t = true) :
    isTame (s ++ t) = true := by
  induction s with
  | nil => exact ht
  | cons c s ih =>
    rw [isTame, Bool.and_eq_true, List.all_eq_true] at hs
    rw [List.cons_append, isTame, ih hs.2, Bool.and_true, List.all_eq_true]
    exact fun form hform => differs_append (hs.1 form hform) t

/-- Every page break of another form starts with an angle bracket. -/
theorem isTame_of_not_mem {s : Text} (h : '<' ∉ s) : isTame s = true := by
  induction s with
  | nil => rfl
  | cons c s ih =>
    have hc : sameLetter '<' c = false := Bool.eq_false_iff.2 fun hsame =>
      h (eq_of_sameLetter (by decide) hsame ▸ List.mem_cons_self)
    have hlead (form : Form) : differs form.lead (c :: s) = true := by
      cases form <;>
      · rw [Form.lead, lit_ofList, differs, hc]
        rfl
    rw [isTame, ih fun hmem => h (List.mem_cons_of_mem c hmem), Bool.and_true, List.all_eq_true]
    exact fun form _ => hlead form

/-- No page break starts with a bracket and such a letter. -/
theorem isTame_tag {c : Char} {s : Text} (hc : sameLetter '!' c = false ∧ sameLetter 'd' c = false)
    (h : '<' ∉ c :: s) : isTame ('<' :: c :: s) = true := by
  have hlead (form : Form) : differs form.lead ('<' :: c :: s) = true := by
    cases form <;>
    · rw [Form.lead, lit_ofList, differs, differs]
      simp [hc]
  rw [isTame, isTame_of_not_mem h, Bool.and_true, List.all_eq_true]
  exact fun form _ => hlead form

theorem not_broken_of_isTame {s : Text} (h : isTame s = true) : ¬ Broken s := by
  have hnone {form : Form} {v : Text} (hv : v <:+ s) : form.after? v = none := by
    induction s with
    | nil =>
      rw [List.suffix_nil.1 hv]
      refine Form.after?_of_lead ?_
      cases form <;>
      · rw [Form.lead, lit_ofList]
        rfl
    | cons c s ih =>
      rw [isTame, Bool.and_eq_true, List.all_eq_true] at h
      rcases List.suffix_cons_iff.1 hv with rfl | hv
      · exact Form.after?_of_lead (afterWord?_of_differs (h.1 form (by cases form <;> decide)))
      · exact ih h.2 hv
  rw [broken_iff]
  rintro ⟨form, -, v, hv, hafter⟩
  rw [hnone ((List.mem_tails _ _).1 hv)] at hafter
  cases hafter

/-- A text in which no page break of another form starts is split at the marker. -/
theorem split_of_isTame {s : Text} (h : isTame s = true) :
    split standardMarker s = .ok (visible (splitOn standardMarker standardMarker_ne_nil s)) := by
  have hplain : '\\' ∉ standardMarker := by
    rw [standardMarker_eq]
    decide
  exact split_of_not_broken _ (not_broken_of_isTame h) (Marker.read_of_plain hplain)

theorem isTame_joinWith {marker : Text} (hmarker : isTame marker = true) {pages : List Text}
    (hpages : ∀ page ∈ pages, isTame page = true) : isTame (joinWith marker pages) = true := by
  induction pages with
  | nil => rfl
  | cons page rest ih =>
    have hpage := hpages page List.mem_cons_self
    cases rest with
    | nil => rwa [joinWith_singleton]
    | cons next rest =>
      rw [joinWith_cons_cons]
      exact isTame_append (isTame_append hpage hmarker)
        (ih fun p hp => hpages p (List.mem_cons_of_mem page hp))

/-! ### What is written for data and for tokens -/

theorem isTame_safe (s : Text) : isTame (safe s) = true :=
  isTame_of_not_mem fun h => absurd (isMark_of_mem_safe h) (by decide)

theorem isTame_diagnostic (p : Problem) : isTame p.diagnostic = true := by
  have hframe : isTame Problem.diagnosticHead = true ∧ isTame Problem.diagnosticTail = true := by
    rw [Problem.diagnosticHead, Problem.diagnosticTail, lit_ofList, lit_ofList]
    decide +kernel
  exact isTame_append (isTame_append hframe.1 (isTame_safe _)) hframe.2

theorem isTame_value (value : Text) :
    isTame (if value = [] then lit "&nbsp;" else safe value) = true := by
  split
  · rw [lit_ofList]
    exact isTame_of_not_mem (by decide)
  · exact isTame_safe value

theorem isTame_placeholder (a : Variable.Appearance) (value : Text) :
    isTame (Variable.placeholder a value) = true := by
  have hfloor : isTame (ofNat a.floor) = true := isTame_of_not_mem (not_mem_ofNat (by decide))
  refine isTame_append (isTame_append (isTame_append (isTame_append ?_ hfloor) ?_)
    (isTame_value value)) ?_ <;>
  rw [lit_ofList]
  · exact isTame_tag (by decide) (by decide)
  · exact isTame_of_not_mem (by decide)
  · exact isTame_tag (by decide) (by decide)

theorem isTame_shown (symbol : Text) (a : Variable.Appearance) (value : Text) :
    isTame (Variable.shown symbol a value) = true := by
  rw [Variable.shown]
  split
  · refine isTame_append (isTame_append (isTame_append ?_ (isTame_safe symbol))
      (isTame_placeholder a value)) ?_ <;>
    rw [lit_ofList] <;>
    exact isTame_tag (by decide) (by decide)
  · exact isTame_placeholder a value

theorem isTame_selector (value : Text) : isTame (Selector.placeholder value) = true := by
  refine isTame_append (isTame_append ?_ (isTame_value value)) ?_ <;>
  rw [lit_ofList] <;>
  exact isTame_tag (by decide) (by decide)

theorem isTame_replacement (r : Renderer) (e : Estimate) (values : Entries Text)
    (b : Token × Nat) : isTame (r.replacement e .view values b) = true := by
  obtain ⟨t, n⟩ := b
  cases t with
  | custom k => exact isTame_shown _ _ _
  | item c => exact isTame_selector _

/-! ### The pages of a document -/

/-- A text of a page before its tokens are bound: any text may stand beside it, and with its tokens
filled in, no page break of another form starts in it. -/
structure Calm (w : Token × Nat → Text) (s : Text) : Prop where
  steady : Steady s
  tame : ∀ c, isTame
    (Atom.fill w (numberFrom [] c (Binding.atoms Token.all (Guard.standard.restore s)))) = true

/-- Bringing tokens back writes no angle bracket. -/
theorem not_mem_restore {s : Text} (hs : '<' ∉ s) : '<' ∉ Guard.standard.restore s := by
  intro h
  rw [Guard.restore_eq] at h
  obtain ⟨a, ha, hmem⟩ := List.mem_flatMap.1 h
  cases a with
  | char c =>
    rw [List.mem_singleton.1 hmem] at hs
    exact hs (mem_of_char_atoms (fun n _ => Guard.marker_ne_nil n) ha)
  | item n =>
    have hname := Guard.isName_of_mem (mem_of_item_atoms (fun n _ => Guard.marker_ne_nil n) ha)
    simp only [Guard.token, List.cons_append, List.mem_append, List.mem_cons, List.not_mem_nil,
      or_false] at hmem
    rcases hmem with hmem | hmem | hmem | hmem | hmem
    · exact absurd hmem (by decide)
    · exact absurd hmem (by decide)
    · exact not_mem_name hname (by decide) hmem
    · exact absurd hmem (by decide)
    · exact absurd hmem (by decide)

theorem isTame_fill {w : Token × Nat → Text} (hw : ∀ b, isTame (w b) = true)
    {as : List (Atom Token)} (has : .char '<' ∉ as) (c : Counters) :
    isTame (Atom.fill w (numberFrom [] c as)) = true := by
  induction as generalizing c with
  | nil => rfl
  | cons a as ih =>
    have hrest := ih fun h => has (List.mem_cons_of_mem a h)
    cases a with
    | char d =>
      rw [numberFrom_char, Atom.fill_char]
      refine isTame_append (s := [d]) (isTame_of_not_mem fun h => has ?_) (hrest c)
      rw [List.mem_singleton.1 h]
      exact List.mem_cons_self
    | item t =>
      rw [numberFrom_item, Atom.fill_item]
      exact isTame_append (hw _) (hrest _)

namespace Calm

variable {w : Token × Nat → Text} {s t : Text}

theorem append (hs : Calm w s) (ht : Calm w t) : Calm w (s ++ t) := by
  refine ⟨hs.steady.append ht.steady, fun c => ?_⟩
  rw [Guard.restore_append hs.steady.markers, Binding.atoms, hs.steady.tokens, numberFrom_append,
    Atom.fill_append]
  exact isTame_append (hs.tame c) (ht.tame _)

theorem of_no_brace (hbrace : '{' ∉ s) (htame : isTame s = true) : Calm w s := by
  refine ⟨Steady.of_no_brace hbrace, fun c => ?_⟩
  rwa [Guard.restore_of_no_brace hbrace, atoms_of_no_brace hbrace, fill_numberFrom_plain]

/-- Where no angle bracket stands in a text, page breaks of another form could only come from what
is filled in. -/
theorem of_no_bracket (hw : ∀ b, isTame (w b) = true) (hsteady : Steady s) (hs : '<' ∉ s) :
    Calm w s :=
  ⟨hsteady, isTame_fill hw fun h =>
    not_mem_restore hs (mem_of_char_atoms (fun t _ => spelling_ne_nil t) h)⟩

theorem render (hw : ∀ b, isTame (w b) = true) {maxDepth : Nat} {env : Surroundings} {n : Node}
    (hn : IsNode n) (htexts : ∀ s ∈ n.texts, '<' ∉ s) (h : n.render maxDepth env = .ok s) :
    Calm w s := by
  cases n with
  | text u =>
    cases h
    exact of_no_bracket hw hn (htexts _ (by rw [Node.texts_text]; exact List.mem_singleton_self _))
  | problem p =>
    cases h
    exact of_no_brace (fun h => (Problem.no_brace_diagnostic h).1 rfl) (isTame_diagnostic p)
  | shown e raw =>
    obtain ⟨rfl, p, rfl⟩ := hn
    have hmarks := Node.marks_showExpr h
    exact of_no_brace (not_mem_of_marks hmarks) (isTame_of_not_mem fun hmem =>
      absurd (marks_eq_nil_iff.1 hmarks '<' hmem) (by decide))
  | block => exact absurd hn not_false

theorem renderAll (hw : ∀ b, isTame (w b) = true) {maxDepth : Nat} {env : Surroundings}
    {nodes : List Node} (hnodes : ∀ n ∈ nodes, IsNode n)
    (htexts : ∀ s ∈ Node.textsOf nodes, '<' ∉ s)
    (h : Node.renderAll maxDepth env nodes = .ok s) : Calm w s := by
  induction nodes generalizing s with
  | nil =>
    cases h
    exact of_no_brace (by simp) rfl
  | cons n nodes ih =>
    obtain ⟨a, b, ha, hb, rfl⟩ := Node.renderAll_cons_ok h
    rw [Node.textsOf_cons] at htexts
    exact (render hw (hnodes n List.mem_cons_self)
      (fun s hs => htexts s (List.mem_append_left _ hs)) ha).append
      (ih (fun m hm => hnodes m (List.mem_cons_of_mem n hm))
        (fun s hs => htexts s (List.mem_append_right _ hs)) hb)

end Calm

end PageBreak

/-- A page without angle brackets in what it shows as it is written. -/
def Renderer.Unbracketed (r : Renderer) (source : Text) : Prop :=
  ∀ page, r.compiler.read (Guard.standard.escape source) = .ok page →
    ∀ s ∈ Node.textsOf page.nodes, '<' ∉ s

open PageBreak

/-- No page of a document starts a page break of another form. -/
theorem Renderer.isTame_compilePage {r : Renderer} (hguard : r.guard = Guard.standard)
    {row : List (Atom Slot)} (hrow : IsPage r.compiler.isHelper row)
    (hbracket : r.Unbracketed (Atom.fill Slot.source row)) {w : Token × Nat → Text}
    (hw : ∀ b, isTame (w b) = true) {context : Value} {html : Text}
    (h : r.compilePage (Atom.fill Slot.source row) context = .ok html) (c : Counters) :
    isTame (Atom.fill w (numberFrom [] c (Binding.atoms Token.all html))) = true := by
  by_cases hlong : r.settings.maxPageChars < (Atom.fill Slot.source row).length
  · rw [compilePage, if_pos hlong] at h
    cases h
    have hcalm : Calm w (Problem.diagnostic
        ⟨.pageTooLong (Atom.fill Slot.source row).length r.settings.maxPageChars, none⟩) :=
      .of_no_brace (fun h => (Problem.no_brace_diagnostic h).1 rfl) (isTame_diagnostic _)
    have htame := hcalm.tame c
    rwa [Guard.restore_of_no_brace fun h => (Problem.no_brace_diagnostic h).1 rfl] at htame
  · obtain ⟨page, s, hread, hnodes, hs, rfl⟩ := compilePage_of_isPage hguard hrow hlong h
    exact (Calm.renderAll hw hnodes (hbracket page hread) hs).tame c

/-- Data can forge a page break in one way only: if the pages of a template are made of text without
angle brackets, tokens and data paths, then its document in view mode is split into its pages, the
blank ones dropped, exactly if the marker stands nowhere in it but between the pages. -/
theorem Renderer.split_view {settings : Settings} {r : Renderer}
    (hr : Renderer.new settings = .ok r) (hmarker : settings.pageBreakMarker = standardMarker)
    {template : Proposal}
    (hpages : ∀ source ∈ template.sources, r.Unbracketed source ∧
      ∃ row, source = Atom.fill Slot.source row ∧ IsPage r.compiler.isHelper row)
    {today : Date} {e : Estimate} {values : Option (Entries Text)} {d : Document}
    (h : r.render template e .view values today = .ok d) :
    ∃ html, d.html = .ok html ∧
      (split settings.pageBreakMarker html = .ok (visible d.pages) ↔
        Unforged standardMarker d.pages) := by
  rw [Renderer.new_eq] at hr
  cases hr
  obtain ⟨d₀, hstart, hrun⟩ := Renderer.render_ok.1 h
  obtain ⟨context, -, hd₀⟩ := Document.start_ok.1 hstart
  obtain ⟨d', hrendered, rfl⟩ := Document.run_ok hrun
  have hready : d₀.stage.Ready := by
    rw [hd₀]
    exact .inl rfl
  have hrenderer := (Document.renderPages_sameInputs hready 0 d₀.sources).1
  rw [hrendered] at hrenderer
  have htame : ∀ page ∈ d'.pages, isTame page = true := by
    intro page hpage
    rcases Document.mem_pages_renderPages hready hrendered hpage with
      hmem | rfl | ⟨source, hsource, html, c, hcompile, rfl⟩
    · rw [hd₀] at hmem
      cases hmem
    · exact isTame_diagnostic _
    · rw [hd₀] at hsource hcompile ⊢
      obtain ⟨hbracket, row, rfl, hrow⟩ := hpages source hsource
      exact isTame_compilePage rfl hrow hbracket (isTame_replacement _ _ _) hcompile c
  refine ⟨_, if_pos rfl, ?_⟩
  show split settings.pageBreakMarker (joinWith d'.renderer.settings.pageBreakMarker d'.pages) = _ ↔
    Unforged standardMarker d'.pages
  have hplain : isTame standardMarker = true := isTame_of_not_mem (by
    rw [standardMarker_eq]
    decide)
  rw [hrenderer, hd₀]
  show split settings.pageBreakMarker (joinWith settings.pageBreakMarker d'.pages) = _ ↔ _
  rw [hmarker, split_of_isTame (isTame_joinWith hplain htame), ← visible_splitOn_iff]
  exact ⟨Except.ok.inj, congrArg Except.ok⟩

/-- Two pages, each a quoted name with a place for a note behind it. -/
def quotedNameTwice : Proposal :=
  { quotedNamePage with pages := quotedNamePage.pages ++ quotedNamePage.pages }

theorem unbracketed_quotedName :
    (Renderer.standard {}).Unbracketed (Atom.fill Slot.source quotedName) := by
  have htexts : ((Renderer.standard {}).compiler.read (Guard.standard.escape
      (Atom.fill Slot.source quotedName))).toOption.map
        (fun page : Page => decide (∀ s ∈ Node.textsOf page.nodes, '<' ∉ s)) = some true := by
    decide +kernel
  intro page hread
  rw [hread] at htexts
  exact of_decide_eq_true (Option.some.inj htexts)

/-- A name that looks like a page break of another form, and a note with the start of a marker. -/
theorem Renderer.split_view_quotedName :
    ∃ d html, (Renderer.standard {}).render quotedNameTwice
        { (default : Estimate) with customerName := some (lit "<!-- PAGEBREAK -->") } .view
        (some [(lit "customText_0", lit "___PAGE_BREAK")]) ⟨2024, 2, 29, by decide⟩ = .ok d ∧
      d.html = .ok html ∧ split standardMarker html = .ok (visible d.pages) := by
  have hrender : (((Renderer.standard {}).render quotedNameTwice
      { (default : Estimate) with customerName := some (lit "<!-- PAGEBREAK -->") } .view
      (some [(lit "customText_0", lit "___PAGE_BREAK")]) ⟨2024, 2, 29, by decide⟩).toOption.map
      fun d => decide (Unforged standardMarker d.pages)) = some true := by
    decide +kernel
  obtain ⟨d, hd, hunforged⟩ := Option.map_eq_some_iff.1 hrender
  have hpages : ∀ source ∈ quotedNameTwice.sources,
      (Renderer.standard {}).Unbracketed source ∧ ∃ row, source = Atom.fill Slot.source row ∧
        IsPage (Renderer.standard {}).compiler.isHelper row := by
    intro source hsource
    have hname : source = Atom.fill Slot.source quotedName := by
      simpa [quotedNameTwice, quotedNamePage, Proposal.sources] using hsource
    rw [hname]
    exact ⟨unbracketed_quotedName, quotedName, rfl, isPage_quotedName⟩
  obtain ⟨html, hhtml, hsplit⟩ :=
    Renderer.split_view (Renderer.new_eq {}) rfl hpages (ok_of_toOption hd)
  exact ⟨d, html, ok_of_toOption hd, hhtml, hsplit.2 (of_decide_eq_true hunforged)⟩

/-- A page of a name. -/
def namePage : List (Atom Slot) := [.item (.path "customerName".toList)]

/-- A name that holds the marker makes two pages of one. -/
theorem Renderer.split_markerName :
    IsPage (Renderer.standard {}).compiler.isHelper namePage ∧
    ∃ d html, (Renderer.standard {}).render
        { (default : Proposal) with pages := [⟨Atom.fill Slot.source namePage, []⟩] }
        { (default : Estimate) with customerName := some (lit "a___PAGE_BREAK___b") } .view none
        ⟨2024, 2, 29, by decide⟩ = .ok d ∧
      d.html = .ok html ∧ visible d.pages = [lit "a___PAGE_BREAK___b"] ∧
      split standardMarker html = .ok [['a'], ['b']] := by
  refine ⟨isPage_quotedName.mono (by simp [namePage, quotedName]), ?_⟩
  have hrender : (((Renderer.standard {}).render
      { (default : Proposal) with pages := [⟨Atom.fill Slot.source namePage, []⟩] }
      { (default : Estimate) with customerName := some (lit "a___PAGE_BREAK___b") } .view none
      ⟨2024, 2, 29, by decide⟩).toOption.map fun d =>
        (visible d.pages, d.html.toOption.map fun html => (split standardMarker html).toOption)) =
        some ([lit "a___PAGE_BREAK___b"], some (some [['a'], ['b']])) := by
    decide +kernel
  obtain ⟨d, hd, hresult⟩ := Option.map_eq_some_iff.1 hrender
  obtain ⟨hpages, hhtml⟩ := Prod.mk.inj hresult
  obtain ⟨html, hhtml, hsplit⟩ := Option.map_eq_some_iff.1 hhtml
  exact ⟨d, html, ok_of_toOption hd, ok_of_toOption hhtml, hpages, ok_of_toOption hsplit⟩

end Tender
