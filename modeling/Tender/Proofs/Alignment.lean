/-
Harvesting in step with the tokens.

A control is harvested under its number among the controls that are found, while the key that is
written on it is that of its token.

* `variablesFrom_keyed` — if the controls that are found are those of the tokens in order, then each
  is harvested under the key that is written on it;
* `Renderer.harvest_aligned` — this is so for documents whose tokens stand in running text;
* `Renderer.harvest_remark` — a token in a remark makes all controls after it go by another key.
-/
import Tender.Proofs.Html.Running
import Tender.Proofs.RoundTrip
import Tender.Proofs.Template.Written

namespace Tender

open Text Binding

/-! ### Controls and tokens in order -/

theorem Html.Running.numbered {P : List Html.Event → Prop} {row : List (Atom Token)}
    (h : Html.Running P row) (c : Counters) : Html.Running P (numberFrom [] c row) := by
  induction h generalizing c with
  | @last s es hread hes =>
    rw [numberFrom_plain]
    exact .last hread hes
  | item hsettles hes _ ih =>
    rw [numberFrom_chars, numberFrom_item]
    exact .item hsettles hes (ih _)

namespace Harvest

/-- Events that open nothing that would be harvested. -/
def IsForeign (es : List Html.Event) : Prop :=
  (Html.openingsOf es).filterMap place? = []

/-- If the controls that are found are those of the tokens of a row in order, then each is harvested
under the key that is written on it. -/
theorem variablesFrom_keyed (e : Estimate) (values : Entries Text) {c : Counters}
    {row : List (Atom Token)} {found : List (Control × Option Text)}
    (h : (found.map fun p => (p.1.token, p.2)) = (Atom.items (numberFrom [] c row)).map fun b =>
      ((shownControl e values b).token, some (b.1.variableKey b.2))) :
    (variablesFrom c (found.map Prod.fst)).map (fun v => (some v.1, v.2)) =
        found.map (fun p => (p.2, p.1.value)) ∧
      Entries.keys (variablesFrom c (found.map Prod.fst)) =
        (Atom.items (numberFrom [] c row)).map fun b => b.1.variableKey b.2 := by
  induction row generalizing c found with
  | nil =>
    rw [numberFrom_nil, Atom.items_nil, List.map_nil, List.map_eq_nil_iff] at h
    rw [h]
    exact ⟨rfl, rfl⟩
  | cons a row ih =>
    cases a with
    | char x =>
      rw [numberFrom_char, Atom.items_char] at h ⊢
      exact ih h
    | item t =>
      rw [numberFrom_item, Atom.items_item, List.map_cons] at h
      obtain ⟨⟨x, key⟩, rest, rfl, hfirst, hrest⟩ := List.map_eq_cons_iff.1 h
      obtain ⟨htoken, hkey⟩ := Prod.mk.inj hfirst
      -- all cost lines are counted together, whatever their category
      have hcounted : x.token.variableKey (c.number x.token) = t.variableKey (c.number t) ∧
          c.next x.token = c.next t := by
        rw [htoken]
        cases t with
        | custom k => exact ⟨rfl, rfl⟩
        | item i => exact ⟨rfl, rfl⟩
      obtain ⟨hentries, hkeys⟩ := ih hrest
      rw [List.map_cons, variablesFrom, hcounted.1, hcounted.2]
      refine ⟨?_, ?_⟩
      · rw [List.map_cons, hentries, List.map_cons, hkey]
      · rw [numberFrom_item, Atom.items_item, List.map_cons, ← hkeys]
        rfl

/-- A row whose tokens stand in running text is harvested in step with its tokens. -/
theorem read_running (r : Renderer) (e : Estimate) (values : Entries Text)
    {row : List (Atom Token)} (h : Html.Running IsForeign row) :
    ∃ nodes vars,
      Html.read (Atom.fill (r.replacement e .edit values) (numberFrom [] Counters.start row)) =
        .ok nodes ∧
      Harvest.read (Atom.fill (r.replacement e .edit values)
        (numberFrom [] Counters.start row)) = .ok vars ∧
      vars.map (fun v => (some v.1, v.2)) = (keyedAmong nodes).map (fun p => (p.2, p.1.value)) ∧
      Entries.keys vars = ((numbered (tokens row)).map fun b => b.1.variableKey b.2) ∧
      (Entries.keys vars).Nodup := by
  have hitems : ∀ b, .item b ∈ numberFrom [] Counters.start row →
      (r.replacement e .edit values b).head? = some '<' ∧
      ∃ es, Html.Reads (r.replacement e .edit values b) es ∧
        (Html.openingsOf es).filterMap place? =
          [((shownControl e values b).token, some (b.1.variableKey b.2))] := by
    intro b _
    obtain ⟨n, ⟨hhead, es, hreads, helement⟩, hkeyed⟩ := shows_shownControl r e values b
    refine ⟨hhead, es, hreads, ?_⟩
    rw [Html.Builder.openingsOf_element helement, places_keyed, hkeyed]
    rfl
  obtain ⟨es, hevents, hplaces⟩ := (h.numbered Counters.start).openings hitems
  obtain ⟨nodes, hread, hopenings⟩ := Html.openings_read hevents
  rw [← hopenings, placesAmong_keyed] at hplaces
  obtain ⟨hentries, hkeys⟩ := variablesFrom_keyed e values hplaces
  refine ⟨nodes, variablesFrom Counters.start ((keyedAmong nodes).map Prod.fst), hread, ?_,
    hentries, ?_, hkeys ▸ nodup_keys Counters.start row⟩
  · rw [Harvest.read, hread]
    show Except.ok (Harvest.values (controlsAmong nodes)) = _
    rw [controlsAmong_eq_keyed]
    rfl
  · rw [hkeys, items_numberFrom]

end Harvest

/-! ### Documents -/

/-- Where every token of a document stands in running text and no other control stands between the
tokens, harvesting keeps in step with them: each control is harvested under the key that is written
on it, and these are the keys of the tokens in order, all of them different. -/
theorem Renderer.harvest_aligned {r : Renderer} {template : Proposal} {e : Estimate}
    {values : Option (Entries Text)} {today : Date} {d : Document}
    (h : r.render template e .edit values today = .ok d)
    (hrunning : ∀ pages, d.compiled = .ok pages → Html.Running Harvest.IsForeign
      (joinRows r.settings.pageBreakMarker (pages.map (Binding.atoms Token.all)))) :
    ∃ pages html nodes vars, d.compiled = .ok pages ∧
      d.html = .ok html ∧ Html.read html = .ok nodes ∧ Harvest.read html = .ok vars ∧
      vars.map (fun v => (some v.1, v.2)) =
        (Harvest.keyedAmong nodes).map (fun p => (p.2, p.1.value)) ∧
      Entries.keys vars =
        ((numbered (pages.flatMap fun page => tokens (Binding.atoms Token.all page))).map
          fun b => b.1.variableKey b.2) ∧
      (Entries.keys vars).Nodup := by
  obtain ⟨d₀, hstart, hrun⟩ := Renderer.render_ok.1 h
  obtain ⟨d', hrendered, rfl⟩ := Document.run_ok hrun
  have hreplacement := Document.start_replacement hstart
  obtain ⟨context, -, hd₀⟩ := Document.start_ok.1 hstart
  have hready : d₀.stage.Ready := by
    rw [hd₀]
    exact .inl rfl
  have hsame := Document.renderPages_sameInputs hready 0 d₀.sources
  rw [hrendered] at hsame
  obtain ⟨pages, hpages, hd'⟩ := Document.renderPages_compilePages hready hrendered
  -- what is compiled depends on what the rendering was started with
  have hcompiled : ({ d' with stage := .joined } : Document).compiled = .ok pages := by
    have hinputs : d₀.SameInputs { d' with stage := .joined } := hsame
    rw [Document.compiled_congr hinputs, Document.compiled, hpages]
  have hhtml : joinWith d'.renderer.settings.pageBreakMarker d'.pages =
      Atom.fill (r.replacement e .edit (values.getD e.values)) (numberFrom [] Counters.start
        (joinRows r.settings.pageBreakMarker (pages.map (Binding.atoms Token.all)))) := by
    rw [hsame.1, hd', hreplacement, hd₀, List.nil_append]
    exact joinWith_rowPages _ _ _ _
  obtain ⟨nodes, vars, hread, hvars, hentries, hkeys, hnodup⟩ :=
    Harvest.read_running r e (values.getD e.values) (hrunning pages hcompiled)
  rw [← hhtml] at hread hvars
  rw [tokens_joinRows, List.flatMap_map] at hkeys
  exact ⟨pages, _, nodes, vars, hcompiled, if_pos rfl, hread, hvars, hentries, hkeys, hnodup⟩

/-- A page with a note in a paragraph, behind a bracket in an attribute, and a cost line. -/
def notePage : Text :=
  lit "<p title=\"a > b\">Note: \x7b\x7bcustomText\x7d\x7d</p>\x7b\x7blineItemLabor\x7d\x7d"

theorem running_notePage :
    Html.Running Harvest.IsForeign (Binding.atoms Token.all notePage) := by
  have hrow : Binding.atoms Token.all notePage =
      (lit "<p title=\"a > b\">Note: ").map .char ++ .item (.custom .text) ::
        ((lit "</p>").map .char ++ .item (.item .labor) :: [].map .char) := by
    decide +kernel
  have hname : Html.IsElementName (lit "p") := by decide +kernel
  have hspelled : Html.Spelled [⟨lit "title", some (lit "a > b")⟩] [(lit "title", lit "a > b")] :=
    Html.Spelled.nil.quiet (by decide +kernel) (by decide +kernel) (by decide +kernel)
  have hopen : Html.Reads (Html.spelledTag (lit "p") [⟨lit "title", some (lit "a > b")⟩] false)
      [.start ⟨lit "p", [(lit "title", lit "a > b")], false⟩] :=
    Html.reads_tag hspelled hname (by simp [Entries.keys]) (by decide +kernel)
  have htext : ∀ c ∈ lit "Note: ", Html.isTextChar c = true :=
    List.all_eq_true.1 (by decide +kernel)
  have hfirst := Html.Settles.after hopen (.text (by decide +kernel) htext)
  have hsecond := Html.Settles.after (Html.reads_closeTag hname) .nil
  have hwritten : Html.spelledTag (lit "p") [⟨lit "title", some (lit "a > b")⟩] false ++
        lit "Note: " = lit "<p title=\"a > b\">Note: " ∧
      Html.closeTag (lit "p") ++ [] = lit "</p>" := by
    decide +kernel
  rw [hwritten.1] at hfirst
  rw [hwritten.2] at hsecond
  rw [hrow]
  exact .item hfirst (by rw [Harvest.IsForeign]; decide +kernel)
    (.item hsecond rfl (.last Html.events_nil rfl))

theorem Renderer.harvest_aligned_notePage :
    ∃ d html nodes vars, (Renderer.standard {}).render
        { (default : Proposal) with pages := [⟨notePage, []⟩] } offerEstimate .edit
        (some [(lit "lineItem_0", lit "Roof & gutter")]) ⟨2024, 2, 29, by decide⟩ = .ok d ∧
      d.html = .ok html ∧ Html.read html = .ok nodes ∧ Harvest.read html = .ok vars ∧
      vars.map (fun v => (some v.1, v.2)) =
        (Harvest.keyedAmong nodes).map (fun p => (p.2, p.1.value)) ∧
      Entries.keys vars = [lit "customText_0", lit "lineItem_0"] := by
  have hrender : (((Renderer.standard {}).render
      { (default : Proposal) with pages := [⟨notePage, []⟩] } offerEstimate .edit
      (some [(lit "lineItem_0", lit "Roof & gutter")]) ⟨2024, 2, 29, by decide⟩).toOption.map
      fun d => d.compiled.toOption) = some (some [notePage]) := by
    decide +kernel
  obtain ⟨d, hd, hcompiled⟩ := Option.map_eq_some_iff.1 hrender
  have hrunning : ∀ pages, d.compiled = .ok pages → Html.Running Harvest.IsForeign
      (joinRows ({} : Settings).pageBreakMarker (pages.map (Binding.atoms Token.all))) := by
    intro pages hpages
    rw [hpages] at hcompiled
    rw [show pages = [notePage] from Option.some.inj hcompiled]
    simpa [joinRows, List.intercalate] using running_notePage
  obtain ⟨pages, html, nodes, vars, hpages, hhtml, hread, hvars, hentries, hkeys, -⟩ :=
    Renderer.harvest_aligned (ok_of_toOption hd) hrunning
  rw [hpages] at hcompiled
  rw [show pages = [notePage] from Option.some.inj hcompiled] at hkeys
  exact ⟨d, html, nodes, vars, ok_of_toOption hd, hhtml, hread, hvars, hentries,
    hkeys.trans (by decide +kernel)⟩

/-- A page with a note in a remark and another one behind it. -/
def remarkPage : Text :=
  lit "<!--\x7b\x7bcustomText\x7d\x7d-->\x7b\x7bcustomText\x7d\x7d"

/-- The control in the remark is not found, so the one behind it is harvested under the key of the
first, although the key of the second is written on it. -/
theorem Renderer.harvest_remark :
    ∃ d html nodes, (Renderer.standard {}).render
        { (default : Proposal) with pages := [⟨remarkPage, []⟩] } default .edit
        (some [(lit "customText_0", ['a']), (lit "customText_1", ['b'])])
        ⟨2024, 2, 29, by decide⟩ = .ok d ∧
      d.html = .ok html ∧ Html.read html = .ok nodes ∧
      Harvest.keyedAmong nodes = [(.input .text ['b'], some (lit "customText_1"))] ∧
      Harvest.read html = .ok [(lit "customText_0", ['b'])] := by
  have hrender : (((Renderer.standard {}).render
      { (default : Proposal) with pages := [⟨remarkPage, []⟩] } default .edit
      (some [(lit "customText_0", ['a']), (lit "customText_1", ['b'])])
      ⟨2024, 2, 29, by decide⟩).toOption.map fun d => d.html.toOption.map fun html =>
        (decide ((Html.read html).toOption.map Harvest.keyedAmong =
            some [(.input .text ['b'], some (lit "customText_1"))]),
          decide ((Harvest.read html).toOption = some [(lit "customText_0", ['b'])]))) =
      some (some (true, true)) := by
    decide +kernel
  obtain ⟨d, hd, hdocument⟩ := Option.map_eq_some_iff.1 hrender
  obtain ⟨html, hhtml, hread⟩ := Option.map_eq_some_iff.1 hdocument
  obtain ⟨hkeyed, hvars⟩ := Prod.mk.inj hread
  obtain ⟨nodes, hnodes, hkeyed⟩ := Option.map_eq_some_iff.1 (of_decide_eq_true hkeyed)
  exact ⟨d, html, nodes, ok_of_toOption hd, ok_of_toOption hhtml, ok_of_toOption hnodes, hkeyed,
    ok_of_toOption (of_decide_eq_true hvars)⟩

end Tender
